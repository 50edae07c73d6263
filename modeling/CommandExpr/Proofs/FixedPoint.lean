import CommandExpr.Proofs.Literals
import CommandExpr.Proofs.Texts
import CommandExpr.Value
import Mathlib.Algebra.Order.Field.Power
import Mathlib.Algebra.Order.Field.Rat
import Mathlib.Algebra.Order.Ring.Abs
import Mathlib.Data.Int.Cast.Lemmas
import Mathlib.Tactic.FieldSimp
import Mathlib.Tactic.Linarith
import Mathlib.Tactic.LinearCombination
import Mathlib.Tactic.NormNum
import Mathlib.Tactic.Positivity

/-!
# Fixed-point arguments

A floating-point argument reaches a program as a decimal numeral with six
fraction digits.  A finite number stands for an exact rational one
(`Binary64.toRat`), and the numeral is the multiple of 10⁻⁶ nearest to its
magnitude, behind a minus sign where the sign bit is set.  All the bits are
settled at once: the magnitude is a whole number of the least positive one, so
that the numeral is the rounded quotient of two natural numbers, whatever the
exponent was.

## Main definitions

* `Binary64.toRat` — the number that a finite one stands for
* `IsNearest` — the nearest multiple of a step, a tie going to an even one
* `Literal.SpellsFixed` — digits with so many of them after the point

## Main results

* `IsNearest.le_of_le` — rounding keeps the order.
* `isNearest_roundDiv` — a rounded quotient is nearest to the exact one.
* `Literal.SpellsFixed.unique` — what such digits spell.
* `Value.render_float` — what a floating-point argument is rendered as.
-/

namespace CommandExpr

/-! ## Nearest multiples -/

/-- So many steps are as near to a number as a whole number of them can be.  Of two
that are equally near it is the even one. -/
structure IsNearest (step q : ℚ) (n : ℤ) : Prop where
  /-- No number of steps is nearer. -/
  le : ∀ m : ℤ, |q - n * step| ≤ |q - m * step|
  /-- It gives way to an odd number of steps only if that is nearer. -/
  even : ∀ m : ℤ, m ≠ n → |q - n * step| = |q - m * step| → Even n

namespace IsNearest

variable {step q q' : ℚ} {n n' : ℤ}

/-- Different whole numbers of steps are a step apart, so what is within half a
step of the one is not within half a step of the other. -/
theorem of_error_le (hstep : 0 < step) (herror : |q - n * step| ≤ step / 2)
    (htie : |q - n * step| = step / 2 → Even n) : IsNearest step q n := by
  have hfar : ∀ m : ℤ, m ≠ n → step / 2 ≤ |q - m * step| := by
    intro m hne
    have hone : (1 : ℚ) ≤ |(n : ℚ) - m| := by
      exact_mod_cast Int.one_le_abs (sub_ne_zero.mpr hne.symm)
    have happart : step ≤ |(q - m * step) - (q - n * step)| :=
      calc step ≤ |(n : ℚ) - m| * step := le_mul_of_one_le_left hstep.le hone
        _ = |((n : ℚ) - m) * step| := by rw [abs_mul, abs_of_pos hstep]
        _ = |(q - m * step) - (q - n * step)| := congrArg abs (by ring)
    have htriangle := abs_sub (q - m * step) (q - n * step)
    linarith
  constructor
  · intro m
    rcases eq_or_ne m n with rfl | hne
    · exact le_rfl
    · exact herror.trans (hfar m hne)
  · intro m hne heq
    exact htie (le_antisymm herror (heq ▸ hfar m hne))

/-- The nearest multiple of the opposite number is the opposite multiple. -/
theorem neg (h : IsNearest step q n) : IsNearest step (-q) (-n) := by
  have hflip : ∀ m : ℤ, |-q - m * step| = |q - (-m : ℤ) * step| := by
    intro m
    rw [← abs_neg]
    exact congrArg abs (by push_cast; ring)
  constructor
  · intro m
    rw [hflip, hflip, neg_neg]
    exact h.le (-m)
  · intro m hne heq
    rw [hflip, hflip, neg_neg] at heq
    exact (h.even (-m) (fun hm => hne (by rw [← hm, neg_neg])) heq).neg

/-- The smaller of two multiples is not nearer to what lies past their middle. -/
private theorem middle_le {a b : ℚ} (hlt : b < a) (hle : |q - a| ≤ |q - b|) :
    a + b ≤ 2 * q := by
  rcases abs_cases (q - a) with ⟨ha, _⟩ | ⟨ha, _⟩ <;>
    rcases abs_cases (q - b) with ⟨hb, _⟩ | ⟨hb, _⟩ <;> linarith

private theorem le_middle {a b : ℚ} (hlt : b < a) (hle : |q - b| ≤ |q - a|) :
    2 * q ≤ a + b := by
  rcases abs_cases (q - a) with ⟨ha, _⟩ | ⟨ha, _⟩ <;>
    rcases abs_cases (q - b) with ⟨hb, _⟩ | ⟨hb, _⟩ <;> linarith

/-- **Rounding keeps the order.**  Were it reversed, then both numbers would be in
the middle of two multiples, both of them even, and the odd one between them
would be nearer. -/
theorem le_of_le (hstep : 0 < step) (h : IsNearest step q n) (h' : IsNearest step q' n')
    (hle : q ≤ q') : n ≤ n' := by
  by_contra hgt
  have hlt : n' < n := not_le.mp hgt
  have hmul : (n' : ℚ) * step < n * step :=
    mul_lt_mul_of_pos_right (Int.cast_lt.mpr hlt) hstep
  have hlow := middle_le hmul (h.le n')
  have hhigh := le_middle hmul (h'.le n)
  have hq : 2 * q = n * step + n' * step := by linarith
  obtain rfl : q = q' := by linarith
  have htie : |q - n * step| = |q - n' * step| := le_antisymm (h.le n') (h'.le n)
  have heven : Even n := h.even n' hlt.ne htie
  have heven' : Even n' := h'.even n hlt.ne' htie.symm
  have hbetween : n' + 1 < n := by
    rcases heven with ⟨i, rfl⟩
    rcases heven' with ⟨j, rfl⟩
    omega
  have hmul' : ((n' + 1 : ℤ) : ℚ) * step < n * step :=
    mul_lt_mul_of_pos_right (Int.cast_lt.mpr hbetween) hstep
  have hpast := middle_le hmul' (h.le (n' + 1))
  push_cast at hpast
  linarith

/-- Of a number there is one nearest multiple. -/
theorem unique (hstep : 0 < step) (h : IsNearest step q n) (h' : IsNearest step q n') :
    n = n' :=
  le_antisymm (h.le_of_le hstep h' le_rfl) (h'.le_of_le hstep h le_rfl)

end IsNearest

/-- A quotient rounded to a whole number is off by half of one at most, and by just
half only if the whole number is even. -/
theorem roundDiv_bounds (num : Nat) {den : Nat} (hden : 0 < den) :
    2 * num ≤ (2 * roundDiv num den + 1) * den ∧ 2 * roundDiv num den * den ≤ 2 * num + den
      ∧ ((2 * num = (2 * roundDiv num den + 1) * den
          ∨ 2 * roundDiv num den * den = 2 * num + den) → Even (roundDiv num den)) := by
  have hrest := Nat.mod_lt num hden
  have hnum := Nat.div_add_mod num den
  have hodd : ¬Even (num / den) → num / den % 2 ≠ 0 := fun h hzero => h (Nat.even_iff.mpr hzero)
  unfold roundDiv
  generalize num / den = k at *
  generalize num % den = r at *
  subst hnum
  dsimp only
  split_ifs with hlow hhigh heven
  · refine ⟨by nlinarith, by nlinarith, ?_⟩
    rintro (heq | heq) <;> nlinarith
  · refine ⟨by nlinarith, by nlinarith, ?_⟩
    rintro (heq | heq) <;> nlinarith
  · exact ⟨by nlinarith, by nlinarith, fun _ => Nat.even_iff.mpr heven⟩
  · exact ⟨by nlinarith, by nlinarith, fun _ => Nat.even_iff.mpr (by omega)⟩

/-- **A rounded quotient is nearest to the exact one.** -/
theorem isNearest_roundDiv {step q : ℚ} {num den : Nat} (hstep : 0 < step) (hden : 0 < den)
    (hq : q * den = num * step) : IsNearest step q (roundDiv num den) := by
  obtain ⟨hlow, hhigh, heven⟩ := roundDiv_bounds num hden
  generalize roundDiv num den = n at *
  have hpos : (0 : ℚ) < 2 * den := by positivity
  have herror : (q - n * step) * (2 * den) = (2 * num - 2 * n * den) * step := by
    linear_combination 2 * hq
  have hlow' : (2 * num : ℚ) ≤ (2 * n + 1) * den := by exact_mod_cast hlow
  have hhigh' : (2 * n * den : ℚ) ≤ 2 * num + den := by exact_mod_cast hhigh
  have hup : q - n * step ≤ step / 2 := le_of_mul_le_mul_right (by nlinarith) hpos
  have hdown : -(step / 2) ≤ q - n * step := le_of_mul_le_mul_right (by nlinarith) hpos
  refine .of_error_le hstep ?_ ?_
  · rw [Int.cast_natCast]
    exact abs_le.mpr ⟨hdown, hup⟩
  · intro htie
    rw [Int.cast_natCast, abs_eq (by positivity)] at htie
    rw [Int.even_coe_nat]
    refine heven (htie.imp (fun habove => ?_) (fun hbelow => ?_))
    · rw [habove] at herror
      have hcancel : (2 * num - 2 * n * den : ℚ) = den :=
        mul_right_cancel₀ hstep.ne' (by linear_combination -herror)
      exact_mod_cast (by linarith : (2 * num : ℚ) = (2 * n + 1) * den)
    · rw [hbelow] at herror
      have hcancel : (2 * num - 2 * n * den : ℚ) = -den :=
        mul_right_cancel₀ hstep.ne' (by linear_combination -herror)
      exact_mod_cast (by linarith : (2 * n * den : ℚ) = 2 * num + den)

/-! ## The number of some bits -/

namespace Binary64

/-- The magnitude of a finite number.  A subnormal one has no leading one in front
of its fraction, and the exponent of the least normal ones. -/
def magnitude (x : Binary64) : ℚ :=
  if x.exponentField = 0 then (x.fractionField / 2 ^ 52) * 2 ^ (-1022 : ℤ)
  else (1 + x.fractionField / 2 ^ 52) * 2 ^ (x.exponentField - 1023 : ℤ)

/-- The number with the given sign and magnitude. -/
def withSign (negative : Bool) (q : ℚ) : ℚ := if negative then -q else q

/-- The number that a finite one stands for. -/
def toRat (x : Binary64) : ℚ := withSign x.isNegative x.magnitude

variable {x y : Binary64}

/-- The magnitude is counted in units of the least positive number. -/
theorem magnitude_mul_unitsPerOne (x : Binary64) : x.magnitude * unitsPerOne = x.units := by
  have hones : (unitsPerOne : ℚ) = 2 ^ (exactPlaces : ℤ) := by
    rw [unitsPerOne_eq, Nat.cast_pow, Nat.cast_ofNat, zpow_natCast]
  unfold magnitude units fractionCount
  rw [hones]
  split_ifs with hzero
  · rw [mul_assoc, ← zpow_add₀ two_ne_zero, exactPlaces]
    norm_num
  · obtain ⟨e, he⟩ := Nat.exists_eq_succ_of_ne_zero hzero
    have hexp : x.exponentField - 1023 + (exactPlaces : ℤ) = e + 52 := by
      unfold exactPlaces
      omega
    rw [mul_assoc, ← zpow_add₀ two_ne_zero, hexp, zpow_add₀ two_ne_zero, he,
      zpow_natCast]
    push_cast
    ring

theorem magnitude_nonneg (x : Binary64) : 0 ≤ x.magnitude := by
  unfold magnitude
  split_ifs <;> positivity

theorem abs_toRat (x : Binary64) : |x.toRat| = x.magnitude := by
  unfold toRat withSign
  split_ifs
  · rw [abs_neg, abs_of_nonneg x.magnitude_nonneg]
  · exact abs_of_nonneg x.magnitude_nonneg

/-- The least step of a number with so many digits after the point. -/
def step (places : Nat) : ℚ := 1 / 10 ^ places

theorem step_pos (places : Nat) : 0 < step places := by
  unfold step
  positivity

theorem isNearest_fixedUnits (x : Binary64) :
    IsNearest (step fixedPlaces) |x.toRat| x.fixedUnits := by
  refine isNearest_roundDiv (step_pos _) unitsPerOne_pos ?_
  rw [abs_toRat, magnitude_mul_unitsPerOne, step]
  push_cast
  field_simp

/-- A finite number is written in digits. -/
theorem fixed_of_isFinite (hx : x.isFinite = true) :
    x.fixed = String.ofList ((if x.isNegative then ['-'] else []) ++ fixedDigits x.fixedUnits) := by
  have hspecial : x.isNaN = false ∧ x.isInfinite = false := by
    simp only [isFinite, decide_eq_true_eq] at hx
    simp [isNaN, isInfinite, hx]
  rw [fixed, hspecial.1, hspecial.2, if_neg Bool.false_ne_true, if_neg Bool.false_ne_true]

end Binary64

/-! ## Numerals with a point -/

namespace Literal

/-- A number is spelled with a minus sign or none, a whole part in which no zero
leads other digits, a point, and so many more digits. -/
def SpellsFixed (places : Nat) (s : List Char) (negative : Bool) (q : ℚ) : Prop :=
  ∃ run fraction, IsRun run ∧ (∀ rest, run = '0' :: rest → rest = [])
    ∧ AreDigits fraction ∧ fraction.length = places
    ∧ s = (if negative then ['-'] else []) ++ run ++ '.' :: fraction
    ∧ q = value run + value fraction / 10 ^ places

theorem value_whole (n : Nat) : value (Numeral.whole n) = n :=
  (digits?_eq_some_iff.mp (Numeral.digits?_whole n)).2.symm

theorem value_lastDigits (width n : Nat) :
    value (Binary64.lastDigits width n) = n % 10 ^ width := by
  have hread := Binary64.digitsFrom?_lastDigits width n 0
  rw [Nat.zero_mul, Nat.zero_add] at hread
  exact (digitsFrom?_eq_some_iff.mp hread).2.symm

/-- The digits of a number other than zero start with another digit. -/
theorem head?_whole {n : Nat} (hn : 0 < n) : (Numeral.whole n).head? ≠ some '0' := by
  induction n using Nat.strong_induction_on with
  | _ n ih =>
      rcases Nat.lt_or_ge n 10 with hlt | hge
      · rw [Numeral.whole, Nat.toDigits_of_lt_base hlt, List.head?_singleton]
        intro hchar
        have hread := Numeral.digit?_digitChar hlt
        rw [Option.some.inj hchar] at hread
        exact hn.ne (Option.some.inj hread)
      · rw [Numeral.whole, Nat.toDigits_of_base_le (by decide) hge,
          List.head?_append_of_ne_nil _ Nat.toDigits_ne_nil]
        exact ih (n / 10) (by omega) (by omega)

/-- So many units of the last place are spelled by their digits around the point. -/
theorem spellsFixed_digits (negative : Bool) (places n : Nat) :
    SpellsFixed places
      ((if negative then ['-'] else []) ++ (Numeral.whole (n / 10 ^ places)
        ++ '.' :: Binary64.lastDigits places (n % 10 ^ places)))
      negative (n * Binary64.step places) := by
  refine ⟨_, _, ⟨Numeral.whole_ne_nil _, areDigits_iff.mpr (Decimal.allDigits_whole _)⟩, ?_,
    areDigits_iff.mpr (Decimal.allDigits_lastDigits _ _), Binary64.length_lastDigits _ _,
    (List.append_assoc _ _ _).symm, ?_⟩
  · intro rest hrest
    rcases Nat.eq_zero_or_pos (n / 10 ^ places) with hzero | hpos
    · rw [hzero] at hrest
      exact (List.cons.inj hrest).2.symm
    · refine absurd ?_ (head?_whole hpos)
      rw [hrest, List.head?_cons]
  · rw [value_whole, value_lastDigits, Nat.mod_mod, Binary64.step]
    have hsplit : (n : ℚ) = 10 ^ places * (n / 10 ^ places : ℕ) + (n % 10 ^ places : ℕ) := by
      exact_mod_cast (Nat.div_add_mod n (10 ^ places)).symm
    field_simp
    linarith

/-- What a text spells is settled by the text. -/
theorem SpellsFixed.unique {places : Nat} {s : List Char} {a b : Bool} {q r : ℚ}
    (hq : SpellsFixed places s a q) (hr : SpellsFixed places s b r) : a = b ∧ q = r := by
  obtain ⟨run, fraction, hrun, -, hfraction, -, hs, rfl⟩ := hq
  obtain ⟨run', fraction', hrun', -, hfraction', -, hs', rfl⟩ := hr
  have hsign : ∀ {negative : Bool} {w f : List Char}, IsRun w →
      s = (if negative then ['-'] else []) ++ w ++ '.' :: f →
      Decimal.sign s = (negative, w ++ '.' :: f) := by
    intro negative w f hw hs
    have hunsigned := isUnsigned_append (t := '.' :: f) hw.1 (isUnsigned_of_areDigits hw.2)
    rw [hs, List.append_assoc]
    cases negative with
    | false => exact sign_append (.inl rfl) hunsigned
    | true => exact sign_append (.inr (.inr rfl)) hunsigned
  obtain ⟨rfl, hbody⟩ := Prod.mk.inj ((hsign hrun hs).symm.trans (hsign hrun' hs'))
  have hsplit := congrArg Decimal.split hbody
  rw [Decimal.split_point (areDigits_iff.mp hrun.2) (areDigits_iff.mp hfraction),
    Decimal.split_point (areDigits_iff.mp hrun'.2) (areDigits_iff.mp hfraction')] at hsplit
  obtain ⟨rfl, htail⟩ := Prod.mk.inj hsplit
  obtain ⟨rfl, -⟩ := Prod.mk.inj htail
  exact ⟨rfl, rfl⟩

end Literal

/-! ## Floating-point arguments -/

namespace Value

open Binary64 Literal

/-- A value is rendered as a numeral with six digits after the point. -/
def RendersFixed (v : Value) (negative : Bool) (q : ℚ) : Prop :=
  ∃ s, v.render = Bytes.ofString (String.ofList s) ∧ SpellsFixed 6 s negative q

theorem RendersFixed.unique {v : Value} {a b : Bool} {q r : ℚ} (hq : v.RendersFixed a q)
    (hr : v.RendersFixed b r) : a = b ∧ q = r := by
  obtain ⟨s, hs, hspell⟩ := hq
  obtain ⟨t, ht, hspell'⟩ := hr
  obtain rfl := String.ofList_injective (Bytes.ofString_inj.mp (hs.symm.trans ht))
  exact hspell.unique hspell'

variable {x y : Binary64}

theorem rendersFixed_float (hx : x.isFinite = true) :
    RendersFixed (.float x) x.isNegative (x.fixedUnits * step 6) := by
  refine ⟨_, ?_, spellsFixed_digits _ _ _⟩
  rw [render, fixed_of_isFinite hx]
  rfl

/-- The numeral, sign and all, is nearest to the number itself. -/
theorem exists_isNearest_of_rendersFixed (hx : x.isFinite = true) {a : Bool} {q : ℚ}
    (hq : RendersFixed (.float x) a q) :
    ∃ n : ℤ, withSign a q = n * step 6 ∧ IsNearest (step 6) x.toRat n := by
  obtain ⟨rfl, rfl⟩ := hq.unique (rendersFixed_float hx)
  have hnearest := x.isNearest_fixedUnits
  rw [abs_toRat] at hnearest
  unfold toRat withSign
  split_ifs
  · exact ⟨_, by push_cast; ring, hnearest.neg⟩
  · exact ⟨_, by push_cast; ring, hnearest⟩

/-- **A floating-point argument is its exact value in decimal**, rounded to a
multiple of 10⁻⁶ with ties to even, in as many digits as that takes; of two
numbers the greater one is never rendered as the smaller. -/
theorem render_float (x : Binary64) :
    (x.isNaN = true → render (.float x) = Bytes.ofString "nan")
      ∧ (x.isInfinite = true → render (.float x)
          = Bytes.ofString (if x.isNegative then "-inf" else "inf"))
      ∧ (x.isFinite = true → ∃ n : ℤ, RendersFixed (.float x) x.isNegative (n * step 6)
          ∧ IsNearest (step 6) |x.toRat| n)
      ∧ ∀ y : Binary64, x.isFinite = true → y.isFinite = true → x.toRat ≤ y.toRat →
          ∀ a q b r, RendersFixed (.float x) a q → RendersFixed (.float y) b r →
            withSign a q ≤ withSign b r := by
  refine ⟨?_, ?_, ?_, ?_⟩
  · intro hnan
    rw [render, fixed, if_pos hnan]
  · intro hinf
    have hnan : x.isNaN = false := by
      simp only [isInfinite, Bool.and_eq_true, decide_eq_true_eq] at hinf
      simp [isNaN, hinf.2]
    rw [render, fixed, hnan, if_neg Bool.false_ne_true, if_pos hinf]
  · intro hx
    exact ⟨x.fixedUnits, rendersFixed_float hx, x.isNearest_fixedUnits⟩
  · intro y hx hy hle a q b r hq hr
    obtain ⟨n, hn, hnearest⟩ := exists_isNearest_of_rendersFixed hx hq
    obtain ⟨m, hm, hnearest'⟩ := exists_isNearest_of_rendersFixed hy hr
    rw [hn, hm]
    exact mul_le_mul_of_nonneg_right
      (Int.cast_le.mpr (hnearest.le_of_le (step_pos 6) hnearest' hle)) (step_pos 6).le

/-- A tie: 1/128 is in the middle of 0.007812 and 0.007813. -/
example : (Decimal.toBinary64 ⟨true, 78125, -7⟩).fixed = "-0.007812" := by decide +kernel

end Value

end CommandExpr
