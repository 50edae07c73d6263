import CommandExpr.Binary64.Fixed
import CommandExpr.Binary64.Reading
import Mathlib.Data.List.TakeWhile
import Mathlib.Tactic.Ring

/-!
# Writing numbers down

A number that is written down in full is read back as it was.  For whole numbers
this is about digits only.  A finite floating-point number is a whole multiple of
2⁻¹⁰⁷⁴, and 2⁻¹⁰⁷⁴ is 5¹⁰⁷⁴ · 10⁻¹⁰⁷⁴, so 1074 digits after the point are enough to
write it down exactly (`Binary64.exact`).  Reading rounds to the nearest number,
and nothing is nearer to a number than itself.

## Main definitions

* `Numeral.whole`, `Numeral.integer` — the digits of a number
* `Binary64.exact` — the exact value of a floating-point number

## Main results

* `Numeral.int64?_integer`, `Numeral.byte?_whole` — whole numbers are read back.
* `Binary64.ofText?_exact` — floating-point numbers are read back.
* `Binary64.isReadable_of_ofText?` — a number that is read can be written down.
-/

namespace CommandExpr

/-! ## Digits -/

namespace Numeral

/-- The decimal digits of a number. -/
def whole (n : Nat) : List Char := Nat.toDigits 10 n

/-- The decimal digits of a number, after its sign if it is below zero. -/
def integer (n : Int) : List Char := (if n < 0 then ['-'] else []) ++ whole n.natAbs

theorem digit?_digitChar {d : Nat} (hd : d < 10) : digit? d.digitChar = some d := by
  have hall : ∀ d < 10, digit? d.digitChar = some d := by decide
  exact hall d hd

theorem digitsFrom?_append (s t : List Char) (acc : Nat) :
    digitsFrom? acc (s ++ t) = (digitsFrom? acc s).bind (digitsFrom? · t) := by
  induction s generalizing acc with
  | nil => rfl
  | cons c s ih =>
      simp only [List.cons_append, digitsFrom?, ih, Option.bind_assoc]

theorem digitsFrom?_digitChar (acc : Nat) {d : Nat} (hd : d < 10) :
    digitsFrom? acc [d.digitChar] = some (acc * 10 + d) := by
  rw [digitsFrom?, digit?_digitChar hd]
  rfl

theorem digitsFrom?_whole (n : Nat) : digitsFrom? 0 (whole n) = some n := by
  induction n using Nat.strong_induction_on with
  | _ n ih =>
      rcases Nat.lt_or_ge n 10 with hlt | hge
      · rw [whole, Nat.toDigits_of_lt_base hlt, digitsFrom?_digitChar 0 hlt, Nat.zero_mul,
          Nat.zero_add]
      · have hlast : n % 10 < 10 := Nat.mod_lt n (by decide)
        have hfront : digitsFrom? 0 (Nat.toDigits 10 (n / 10)) = some (n / 10) :=
          ih (n / 10) (by omega)
        rw [whole, Nat.toDigits_of_base_le (by decide) hge, digitsFrom?_append, hfront,
          Option.bind_some, digitsFrom?_digitChar _ hlast]
        exact congrArg some (by omega)

theorem whole_ne_nil (n : Nat) : whole n ≠ [] := Nat.toDigits_ne_nil

theorem digits?_of_ne_nil {s : List Char} (hs : s ≠ []) : digits? s = digitsFrom? 0 s := by
  cases s with
  | nil => exact absurd rfl hs
  | cons c s => rfl

theorem digits?_whole (n : Nat) : digits? (whole n) = some n := by
  rw [digits?_of_ne_nil (whole_ne_nil n), digitsFrom?_whole]

/-- The digits of a number start with a digit. -/
theorem exists_whole_eq_cons (n : Nat) : ∃ d < 10, ∃ rest, whole n = d.digitChar :: rest := by
  induction n using Nat.strong_induction_on with
  | _ n ih =>
      rcases Nat.lt_or_ge n 10 with hlt | hge
      · exact ⟨n, hlt, [], Nat.toDigits_of_lt_base hlt⟩
      · obtain ⟨d, hd, rest, hrest⟩ := ih (n / 10) (by omega)
        refine ⟨d, hd, rest ++ [(n % 10).digitChar], ?_⟩
        rw [whole, Nat.toDigits_of_base_le (by decide) hge]
        exact congrArg (· ++ _) hrest

theorem length_whole_le {k n : Nat} (hk : 0 < k) (hn : n < 10 ^ k) :
    (whole n).length ≤ k :=
  (Nat.length_toDigits_le_iff (by decide) hk).mpr hn

theorem lt_length_whole {k n : Nat} (hk : 0 < k) (hn : 10 ^ k ≤ n) :
    k < (whole n).length := by
  by_contra hle
  exact Nat.not_lt.mpr hn
    ((Nat.length_toDigits_le_iff (by decide) hk).mp (Nat.not_lt.mp hle))

/-- A digit is no sign and starts no name. -/
theorem digitChar_ne {d : Nat} (hd : d < 10) :
    d.digitChar ≠ '+' ∧ d.digitChar ≠ '-' ∧ d.digitChar.toLower ≠ 'i' ∧
      d.digitChar.toLower ≠ 'n' := by
  have hall : ∀ d < 10, d.digitChar ≠ '+' ∧ d.digitChar ≠ '-' ∧
      d.digitChar.toLower ≠ 'i' ∧ d.digitChar.toLower ≠ 'n' := by decide
  exact hall d hd

theorem natural?_whole {bound n : Nat} (hn : n < bound) :
    natural? bound (whole n) = some n := by
  obtain ⟨d, hd, rest, hrest⟩ := exists_whole_eq_cons n
  have hread : natural? bound (whole n) = (digits? (whole n)).filter (· < bound) := by
    rw [hrest, natural?]
    rintro r heq
    exact (digitChar_ne hd).1 (List.cons.inj heq).1
  rw [hread, digits?_whole, Option.filter_some, if_pos (decide_eq_true hn)]

/-- **A byte is read from its digits.** -/
theorem byte?_whole (b : UInt8) : byte? (whole b.toNat) = some b := by
  rw [byte?, natural?_whole b.toNat_lt, Option.map_some, UInt8.ofNat_toNat]

/-- A number is shown by its digits. -/
theorem toList_toString (n : Int) : (toString n).toList = integer n := by
  change n.repr.toList = integer n
  cases n with
  | ofNat m =>
      rw [Int.repr, Nat.toList_repr]
      rfl
  | negSucc m =>
      rw [Int.repr, String.toList_append, Nat.toList_repr, integer,
        if_pos (Int.negSucc_lt_zero m)]
      rfl

theorem integer?_integer (n : Int) : integer? (integer n) = some n := by
  unfold integer
  split
  · next hneg =>
      rw [List.singleton_append, integer?, digits?_whole, Option.map_some, Option.some.injEq,
        Int.ofNat_eq_natCast]
      omega
  · next hpos =>
      obtain ⟨d, hd, rest, hrest⟩ := exists_whole_eq_cons n.natAbs
      have hread : integer? (whole n.natAbs) = (digits? (whole n.natAbs)).map Int.ofNat := by
        rw [hrest, integer?]
        · rintro r heq
          exact (digitChar_ne hd).1 (List.cons.inj heq).1
        · rintro r heq
          exact (digitChar_ne hd).2.1 (List.cons.inj heq).1
      rw [List.nil_append, hread, digits?_whole, Option.map_some, Option.some.injEq,
        Int.ofNat_eq_natCast]
      omega

/-- **A number of 64 bits is read from its digits**, the least of them included. -/
theorem int64?_integer (n : Int64) : int64? (integer n.toInt) = some n := by
  have hlow := n.le_toInt
  have hhigh := n.toInt_lt
  rw [int64?, integer?_integer, Option.bind_some, if_pos (by simp; omega),
    Int64.ofInt_toInt]

end Numeral

/-! ## Exact decimal expansions -/

namespace Binary64

open Numeral (whole)

theorem digitsFrom?_lastDigits (width n acc : Nat) :
    Numeral.digitsFrom? acc (lastDigits width n) = some (acc * 10 ^ width + n % 10 ^ width) := by
  induction width generalizing n with
  | zero => simp [lastDigits, Numeral.digitsFrom?, Nat.mod_one]
  | succ width ih =>
      have hlast : n % 10 < 10 := Nat.mod_lt n (by decide)
      rw [lastDigits, Numeral.digitsFrom?_append, ih, Option.bind_some,
        Numeral.digitsFrom?_digitChar _ hlast]
      have hmod : n % 10 ^ (width + 1) = n % 10 + 10 * (n / 10 % 10 ^ width) := by
        rw [Nat.pow_succ', Nat.mod_mul]
      rw [hmod, Nat.pow_succ]
      exact congrArg some (by ring)

/-- The number of digits after the point of the smallest positive number. -/
def exactPlaces : Nat := 1074

/-- The magnitude of a finite number, in units of 10⁻¹⁰⁷⁴. -/
def exactUnits (x : Binary64) : Nat := x.units * 5 ^ exactPlaces

/-- The digits of the magnitude of a finite number. -/
def exactDigits (x : Binary64) : List Char :=
  whole (x.exactUnits / 10 ^ exactPlaces)
    ++ '.' :: lastDigits exactPlaces (x.exactUnits % 10 ^ exactPlaces)

/-- The exact value of a number; NaN and the infinities by name. -/
def exact (x : Binary64) : List Char :=
  (if x.isNegative then ['-'] else []) ++
    if x.isNaN then ['n', 'a', 'n'] else if x.isInfinite then ['i', 'n', 'f'] else x.exactDigits


end Binary64

namespace Decimal

/-- Are all of them digits? -/
def AllDigits (s : List Char) : Prop := ∀ c ∈ s, isDigit c = true

theorem isDigit_digitChar {d : Nat} (hd : d < 10) : isDigit d.digitChar = true := by
  rw [isDigit, Numeral.digit?_digitChar hd]
  rfl

theorem allDigits_whole (n : Nat) : AllDigits (Numeral.whole n) := by
  induction n using Nat.strong_induction_on with
  | _ n ih =>
      rcases Nat.lt_or_ge n 10 with hlt | hge
      · rw [AllDigits, Numeral.whole, Nat.toDigits_of_lt_base hlt, List.forall_mem_singleton]
        exact isDigit_digitChar hlt
      · have hlast : n % 10 < 10 := Nat.mod_lt n (by decide)
        rw [AllDigits, Numeral.whole, Nat.toDigits_of_base_le (by decide) hge,
          List.forall_mem_append, List.forall_mem_singleton]
        exact ⟨ih (n / 10) (by omega), isDigit_digitChar hlast⟩

theorem allDigits_lastDigits (width n : Nat) : AllDigits (Binary64.lastDigits width n) := by
  induction width generalizing n with
  | zero => exact List.forall_mem_nil _
  | succ width ih =>
      rw [AllDigits, Binary64.lastDigits, List.forall_mem_append, List.forall_mem_singleton]
      exact ⟨ih _, isDigit_digitChar (Nat.mod_lt n (by decide))⟩

/-- A numeral with a point is split at it. -/
theorem split_point {w f : List Char} (hw : AllDigits w) (hf : AllDigits f) :
    split (w ++ '.' :: f) = (w, f, []) := by
  have hdot : isDigit '.' = false := by decide
  rw [split, List.takeWhile_append_of_pos hw, List.dropWhile_append_of_pos hw,
    List.takeWhile_cons_of_neg (by simp [hdot]), List.dropWhile_cons_of_neg (by simp [hdot]),
    List.append_nil]
  simp only [List.takeWhile_eq_self_iff.mpr hf, List.dropWhile_eq_nil_iff.mpr hf]

theorem sign_cons {c : Char} (hp : c ≠ '+') (hm : c ≠ '-') (s : List Char) :
    sign (c :: s) = (false, c :: s) := by
  rw [sign]
  · rintro r heq
    exact hm (List.cons.inj heq).1
  · rintro r heq
    exact hp (List.cons.inj heq).1

/-- A numeral without an exponent, taken apart. -/
theorem ofChars?_point {s w f : List Char} {negative : Bool} {coefficient : Nat}
    (hs : sign s = (negative, w ++ '.' :: f)) (hw : AllDigits w) (hf : AllDigits f)
    (hc : Numeral.digits? (w ++ f) = some coefficient) :
    ofChars? s = some ⟨negative, coefficient, -f.length⟩ := by
  simp only [ofChars?, hs, split_point hw hf, hc, exponent?, Int.zero_sub]

end Decimal

namespace Binary64

open Numeral (whole)

/-! ## The nearest number -/

theorem roundDiv_mul {n d : Nat} (hd : 0 < d) : roundDiv (n * d) d = n := by
  have hrest : n * d % d = 0 := Nat.mul_mod_left n d
  rw [roundDiv, hrest, Nat.mul_div_cancel n hd, if_pos (by omega)]

variable (x : Binary64)

theorem magnitudeBits_lt : x.magnitudeBits < 2 ^ 63 := Nat.mod_lt _ (by decide)

/-- The sign and the bits below it make the number. -/
theorem ofMagnitude_magnitudeBits : ofMagnitude x.isNegative x.magnitudeBits = x := by
  have hlt := x.bits.toNat_lt
  have hbits : x.magnitudeBits + (if x.isNegative then 2 ^ 63 else 0) = x.bits.toNat := by
    unfold magnitudeBits isNegative
    by_cases h : 2 ^ 63 ≤ x.bits.toNat <;> simp [h] <;> omega
  rw [ofMagnitude, hbits, UInt64.ofNat_toNat]

theorem magnitudeBits_eq :
    x.magnitudeBits = x.exponentField * fractionCount + x.fractionField :=
  (Nat.div_add_mod' _ _).symm

theorem fractionField_lt : x.fractionField < fractionCount := Nat.mod_lt _ (by decide)

theorem magnitudeBits_lt_infiniteBits {x : Binary64} (hx : x.isFinite) :
    x.magnitudeBits < infiniteBits := by
  have hfield : x.exponentField ≠ specialExponent := of_decide_eq_true hx
  have hlt := x.magnitudeBits_lt
  have hfraction := x.fractionField_lt
  rw [magnitudeBits_eq] at hlt ⊢
  unfold infiniteBits specialExponent fractionCount at *
  omega

/-- How many low bits of the magnitude do not fit beside fifty-three significant
ones. -/
theorem log2_units_sub : x.units.log2 - 52 = x.exponentField - 1 := by
  have hfraction : x.fractionField < 2 ^ 52 := x.fractionField_lt
  unfold units
  split
  · next hzero =>
      rw [hzero]
      rcases Nat.eq_zero_or_pos x.fractionField with h | h
      · rw [h]
        rfl
      · have := (Nat.log2_lt (Nat.ne_of_gt h)).mpr hfraction
        omega
  · next hpos =>
      have hlog : ((x.fractionField + fractionCount) * 2 ^ (x.exponentField - 1)).log2
          = 52 + (x.exponentField - 1) := by
        refine (Nat.log2_eq_iff ?_).mpr ⟨?_, ?_⟩
        · exact Nat.mul_ne_zero (by unfold fractionCount; omega) (Nat.two_pow_pos _).ne'
        · rw [Nat.pow_add]
          exact Nat.mul_le_mul_right _ (Nat.le_add_left _ _)
        · rw [show 52 + (x.exponentField - 1) + 1 = 53 + (x.exponentField - 1) by omega,
            Nat.pow_add]
          exact Nat.mul_lt_mul_of_pos_right (by unfold fractionCount; omega) (Nat.two_pow_pos _)
      omega

theorem unitsPerOne_eq : unitsPerOne = 2 ^ exactPlaces := by
  rw [exactPlaces, unitsPerOne]

theorem ten_pow_exactPlaces : 10 ^ exactPlaces = 5 ^ exactPlaces * unitsPerOne := by
  rw [unitsPerOne_eq, ← Nat.mul_pow]

/-- The digits that are written are the exact value, and not one near it. -/
theorem exactUnits_mul_unitsPerOne :
    x.exactUnits * unitsPerOne = x.units * 10 ^ exactPlaces := by
  rw [exactUnits, Nat.mul_assoc, ten_pow_exactPlaces]

theorem unitsPerOne_pos : 0 < unitsPerOne := unitsPerOne_eq ▸ Nat.two_pow_pos _

/-- **A number is the nearest one to itself**, however its ratio is extended. -/
theorem ofRatio_units {x : Binary64} (hx : x.isFinite) {m den : Nat} (hm : 0 < m)
    (hden : den = m * unitsPerOne) (negative : Bool) :
    ofRatio negative (x.units * m) den = ofMagnitude negative x.magnitudeBits := by
  have hpos : 0 < den := hden ▸ Nat.mul_pos hm unitsPerOne_pos
  have hnum : x.units * m * unitsPerOne = x.units * den := by rw [hden, Nat.mul_assoc]
  have hwhole : x.units * m * unitsPerOne / den = x.units := by
    rw [hnum, Nat.mul_div_cancel _ hpos]
  have hmagnitude : (x.exponentField - 1) * fractionCount
      + roundDiv (x.units * m * unitsPerOne) (den * 2 ^ (x.exponentField - 1))
        = x.magnitudeBits := by
    rw [hnum, magnitudeBits_eq, units]
    split
    · next hzero =>
        rw [hzero, Nat.zero_sub, Nat.pow_zero, Nat.mul_one, roundDiv_mul hpos]
    · next hexp =>
        rw [Nat.mul_assoc, Nat.mul_comm (2 ^ _) den,
          roundDiv_mul (Nat.mul_pos hpos (Nat.two_pow_pos _))]
        obtain ⟨e, he⟩ := Nat.exists_eq_succ_of_ne_zero hexp
        rw [he, Nat.succ_sub_one, Nat.succ_mul]
        omega
  rw [ofRatio, hwhole, log2_units_sub, hmagnitude,
    Nat.min_eq_left (magnitudeBits_lt_infiniteBits hx).le]

/-! ## Reading what was written -/

variable {x}

theorem exponentField_le (hx : x.isFinite) : x.exponentField ≤ 2046 := by
  have hfield : x.exponentField ≠ specialExponent := of_decide_eq_true hx
  have hlt := x.magnitudeBits_lt
  have hfraction := x.fractionField_lt
  rw [magnitudeBits_eq] at hlt
  unfold specialExponent fractionCount at *
  omega

theorem units_lt : x.units < 2 ^ (53 + (x.exponentField - 1)) := by
  have hfraction : x.fractionField < 2 ^ 52 := x.fractionField_lt
  rw [units, Nat.pow_add]
  split
  · exact Nat.lt_of_lt_of_le (by omega) (Nat.le_mul_of_pos_right _ (Nat.two_pow_pos _))
  · exact Nat.mul_lt_mul_of_pos_right (by unfold fractionCount; omega) (Nat.two_pow_pos _)

/-- The smallest positive number has many digits, … -/
theorem le_exactUnits (hne : x.units ≠ 0) {k : Nat} (hk : 3 * k ≤ exactPlaces) :
    10 ^ (2 * k) ≤ x.exactUnits :=
  calc 10 ^ (2 * k) ≤ 5 ^ (3 * k) := by
        rw [Nat.pow_mul, Nat.pow_mul]
        exact Nat.pow_le_pow_left (by decide) k
    _ ≤ 5 ^ exactPlaces := Nat.pow_le_pow_right (by decide) hk
    _ ≤ x.exactUnits := Nat.le_mul_of_pos_left _ (Nat.pos_of_ne_zero hne)

/-- … and the greatest finite one not too many more. -/
theorem exactUnits_lt {k : Nat} (hk : 53 + (x.exponentField - 1) ≤ exactPlaces + 3 * k) :
    x.exactUnits < 10 ^ (exactPlaces + k) :=
  calc x.exactUnits
      < 2 ^ (53 + (x.exponentField - 1)) * 5 ^ exactPlaces :=
        Nat.mul_lt_mul_of_pos_right units_lt (Nat.pow_pos (by decide))
    _ ≤ 2 ^ (exactPlaces + 3 * k) * 5 ^ exactPlaces :=
        Nat.mul_le_mul_right _ (Nat.pow_le_pow_right (by decide) hk)
    _ = 10 ^ exactPlaces * 8 ^ k := by
        rw [Nat.pow_add, Nat.pow_mul, Nat.mul_right_comm, ← Nat.mul_pow]
    _ ≤ 10 ^ exactPlaces * 10 ^ k :=
        Nat.mul_le_mul_left _ (Nat.pow_le_pow_left (by decide) k)
    _ = 10 ^ (exactPlaces + k) := (Nat.pow_add _ _ _).symm

/-- The power of ten alone does not settle what is read. -/
theorem length_whole_exactUnits (hx : x.isFinite) (hne : x.units ≠ 0) :
    716 < (whole x.exactUnits).length ∧ (whole x.exactUnits).length ≤ 1416 := by
  have hexp := exponentField_le hx
  have hlow := Numeral.lt_length_whole (by decide)
    (le_exactUnits (k := 358) hne (by decide))
  have hhigh := Numeral.length_whole_le (by decide)
    (exactUnits_lt (k := 342) (x := x) (by unfold exactPlaces; omega))
  exact ⟨hlow, hhigh⟩

theorem ofMagnitude_zero (hzero : x.units = 0) : ofMagnitude x.isNegative 0 = x := by
  have hbits : x.magnitudeBits = 0 := by
    rw [magnitudeBits_eq]
    unfold units at hzero
    split at hzero
    · next hexp => rw [hexp, hzero, Nat.zero_mul]
    · have hpos := Nat.two_pow_pos (x.exponentField - 1)
      have hsum := (Nat.mul_eq_zero.mp hzero).resolve_right (Nat.ne_of_gt hpos)
      unfold fractionCount at hsum
      omega
  rw [← hbits, ofMagnitude_magnitudeBits]

/-- The numeral of a finite number is nearest to it. -/
theorem toBinary64_exactUnits (hx : x.isFinite) :
    (Decimal.mk x.isNegative x.exactUnits (-exactPlaces)).toBinary64 = x := by
  rcases Nat.eq_zero_or_pos x.units with hzero | hpos
  · have hexact : x.exactUnits = 0 := by rw [exactUnits, hzero, Nat.zero_mul]
    rw [Decimal.toBinary64, hexact]
    exact ofMagnitude_zero hzero
  · obtain ⟨hlow, hhigh⟩ := length_whole_exactUnits hx hpos.ne'
    have hne : x.exactUnits ≠ 0 := (Nat.mul_pos hpos (Nat.pow_pos (by decide))).ne'
    unfold whole at hlow hhigh
    unfold Decimal.toBinary64 Decimal.decidedExponent
    dsimp only
    rw [if_neg, if_neg, if_neg]
    · rw [Int.neg_neg, Int.toNat_natCast, exactUnits,
        ofRatio_units hx (Nat.pow_pos (by decide)) ten_pow_exactPlaces, ofMagnitude_magnitudeBits]
    · unfold exactPlaces
      omega
    · unfold exactPlaces
      omega
    · unfold exactPlaces
      simp [hne]
      omega

theorem digits?_pointed (places n : Nat) :
    Numeral.digits? (whole (n / 10 ^ places) ++ lastDigits places (n % 10 ^ places))
      = some n := by
  rw [Numeral.digits?_of_ne_nil
      (List.append_ne_nil_of_left_ne_nil (Numeral.whole_ne_nil _) _),
    Numeral.digitsFrom?_append, Numeral.digitsFrom?_whole, Option.bind_some,
    digitsFrom?_lastDigits, Nat.mod_mod, Nat.div_add_mod']

theorem sign_signed (negative : Bool) {body : List Char} {c : Char} {rest : List Char}
    (hbody : body = c :: rest) (hp : c ≠ '+') (hm : c ≠ '-') :
    Decimal.sign ((if negative then ['-'] else []) ++ body) = (negative, body) := by
  cases negative with
  | true => rfl
  | false =>
      rw [hbody]
      exact Decimal.sign_cons hp hm rest

/-- **Digits around a point** are read as the number nearest to them. -/
theorem ofText?_pointed (negative : Bool) (places n : Nat) :
    ofText? ((if negative then ['-'] else []) ++ (whole (n / 10 ^ places)
        ++ '.' :: lastDigits places (n % 10 ^ places)))
      = some (Decimal.mk negative n (-places)).toBinary64 := by
  obtain ⟨d, hd, rest, hrest⟩ := Numeral.exists_whole_eq_cons (n / 10 ^ places)
  have hcons : whole (n / 10 ^ places) ++ '.' :: lastDigits places (n % 10 ^ places)
      = d.digitChar :: (rest ++ '.' :: lastDigits places (n % 10 ^ places)) := by
    rw [hrest]
    rfl
  obtain ⟨hplus, hminus, hi, hn⟩ := Numeral.digitChar_ne hd
  have hsign := sign_signed negative hcons hplus hminus
  have hparts := Decimal.ofChars?_point hsign (Decimal.allDigits_whole _)
    (Decimal.allDigits_lastDigits _ _) (digits?_pointed places n)
  rw [length_lastDigits] at hparts
  rw [ofText?, hsign, hparts]
  simp [hcons, hi, hn]

/-- An infinity is its sign. -/
theorem infinity_isNegative (hinf : x.isInfinite) : infinity x.isNegative = x := by
  have hfields : x.exponentField = specialExponent ∧ x.fractionField = 0 := by
    simpa [isInfinite] using hinf
  have hbits : x.magnitudeBits = infiniteBits := by
    rw [magnitudeBits_eq, hfields.1, hfields.2]
    rfl
  rw [infinity, ← hbits, ofMagnitude_magnitudeBits]

/-- A number that is not infinite is finite, if it is one. -/
theorem isFinite_of_not (hnan : x.isNaN = false) (hinf : x.isInfinite = false) :
    x.isFinite := by
  unfold isNaN isInfinite isFinite at *
  by_cases hexp : x.exponentField = specialExponent <;> simp_all

/-- A number that is read from some text: one that is no number carries nothing
but its sign. -/
def IsReadable (x : Binary64) : Prop := x.isNaN = true → x = nan x.isNegative

instance (x : Binary64) : Decidable x.IsReadable :=
  inferInstanceAs (Decidable (x.isNaN = true → x = nan x.isNegative))

theorem ofText?_exact_of_isFinite (hnan : x.isNaN = false) (hinf : x.isInfinite = false) :
    ofText? x.exact = some x := by
  rw [exact, hnan, hinf, if_neg Bool.false_ne_true, if_neg Bool.false_ne_true, exactDigits,
    ofText?_pointed, toBinary64_exactUnits (isFinite_of_not hnan hinf)]

/-- **A number is read from its exact value**, and one without such a value from
its name. -/
theorem ofText?_exact (hx : x.IsReadable) : ofText? x.exact = some x := by
  cases hnan : x.isNaN with
  | true =>
      rw [exact, hnan, if_pos rfl, ofText?, sign_signed _ rfl (by decide) (by decide)]
      exact congrArg some (hx hnan).symm
  | false =>
      cases hinf : x.isInfinite with
      | true =>
          rw [exact, hnan, hinf, if_neg Bool.false_ne_true, if_pos rfl, ofText?,
            sign_signed _ rfl (by decide) (by decide)]
          exact congrArg some (infinity_isNegative hinf)
      | false => exact ofText?_exact_of_isFinite hnan hinf

/-! ## What is read -/

theorem magnitudeBits_ofMagnitude {negative : Bool} {m : Nat} (hm : m ≤ infiniteBits) :
    (ofMagnitude negative m).magnitudeBits = m := by
  unfold infiniteBits specialExponent fractionCount at hm
  unfold ofMagnitude magnitudeBits
  cases negative <;> simp <;> omega

theorem isNaN_ofMagnitude {negative : Bool} {m : Nat} (hm : m ≤ infiniteBits) :
    (ofMagnitude negative m).isNaN = false := by
  rw [isNaN, exponentField, fractionField, magnitudeBits_ofMagnitude hm,
    Bool.and_eq_false_iff, decide_eq_false_iff_not, decide_eq_false_iff_not, not_not]
  unfold infiniteBits fractionCount specialExponent at *
  omega

/-- A numeral is the numeral of some number. -/
theorem isNaN_toBinary64 (d : Decimal) : d.toBinary64.isNaN = false := by
  unfold Decimal.toBinary64 ofRatio infinity
  dsimp only
  split
  · exact isNaN_ofMagnitude (Nat.zero_le _)
  · split
    · exact isNaN_ofMagnitude (Nat.le_refl _)
    · split <;> exact isNaN_ofMagnitude (Nat.min_le_right _ _)

theorem isNegative_nan (negative : Bool) : (nan negative).isNegative = negative := by
  cases negative <;> decide

/-- What is read is a number, or one of the two that are none and carry nothing
but their sign. -/
theorem isReadable_of_ofText? {s : List Char} (hs : ofText? s = some x) :
    x.IsReadable := by
  intro hnan
  unfold ofText? at hs
  dsimp only at hs
  split at hs
  · obtain rfl := Option.some.inj hs
    rw [infinity, isNaN_ofMagnitude (Nat.le_refl _)] at hnan
    cases hnan
  · split at hs
    · obtain rfl := Option.some.inj hs
      rw [isNegative_nan]
    · obtain ⟨d, -, rfl⟩ := Option.map_eq_some_iff.mp hs
      rw [isNaN_toBinary64] at hnan
      cases hnan

end Binary64

end CommandExpr
