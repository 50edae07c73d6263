import CommandExpr.Proofs.Numerals

/-!
# Literals

Which texts are read as numbers, said as a grammar: a literal is put together
from signs, runs of digits, a point, an exponent and a few names.  The readers
take a text apart from the left instead, and keep what they have read so far.
Here each of them is shown to read the literals of its kind, all of them, and
nothing else.

A sign is the first thing that a reader takes, and no literal without a sign
starts with one (`IsUnsigned`).  So the sign can be split off in one way only, and
what is left is settled by the digits and the letters that stand next to each
other.

## Main definitions

* `Literal.IsRun`, `Literal.value` — digits, and the number they make
* `Literal.SpellsInteger` — the texts that spell a whole number
* `Literal.SpellsTag` — the texts that spell a number of eight bits
* `Literal.IsFloat` — the texts that spell a floating-point number

## Main results

* `Literal.int64?_eq_some_iff`, `Literal.byte?_eq_some_iff` — what whole numbers
  are read from.
* `Literal.isSome_ofText?_iff` — what floating-point numbers are read from.
-/

namespace CommandExpr.Literal

/-! ## The grammar -/

/-- Are all of them ASCII digits? -/
def AreDigits (s : List Char) : Prop := ∀ c ∈ s, c.isDigit = true

/-- A non-empty run of ASCII digits. -/
def IsRun (s : List Char) : Prop := s ≠ [] ∧ AreDigits s

/-- The number that a run of digits makes, leading zeros or not. -/
def value (run : List Char) : Nat := Nat.ofDigitChars 10 run 0

/-- Nothing, or a sign. -/
def IsSign (s : List Char) : Prop := s = [] ∨ s = ['+'] ∨ s = ['-']

/-- The number with the given sign and magnitude. -/
def signed (sign : List Char) (magnitude : Nat) : Int :=
  if sign = ['-'] then -magnitude else magnitude

/-- A whole number is spelled by an optional sign and a run of digits. -/
def SpellsInteger (s : List Char) (n : Int) : Prop :=
  ∃ sign run, IsSign sign ∧ IsRun run ∧ s = sign ++ run ∧ n = signed sign (value run)

/-- A number of eight bits is spelled by an optional `+` and a run of digits. -/
def SpellsTag (s : List Char) (n : Nat) : Prop :=
  ∃ sign run, (sign = [] ∨ sign = ['+']) ∧ IsRun run ∧ s = sign ++ run ∧ n = value run
    ∧ n ≤ 255

/-- Nothing, or a letter `e` in either case with a whole number. -/
def IsExponent (s : List Char) : Prop :=
  s = [] ∨ ∃ letter sign run, (letter = 'e' ∨ letter = 'E') ∧ IsSign sign ∧ IsRun run
    ∧ s = letter :: (sign ++ run)

/-- Digits, with a point after them, among them or in front of them. -/
inductive IsMantissa : List Char → Prop where
  /-- There need not be a point. -/
  | whole {run : List Char} (hrun : IsRun run) : IsMantissa run
  /-- Nothing need stand after a point. -/
  | pointed {run fraction : List Char} (hrun : IsRun run) (hfraction : AreDigits fraction) :
      IsMantissa (run ++ '.' :: fraction)
  /-- Nothing need stand before it, but not both. -/
  | fraction {digits run : List Char} (hdigits : AreDigits digits) (hrun : IsRun run) :
      IsMantissa (digits ++ '.' :: run)

/-- A name of what is no finite number, in any case. -/
def IsName (s : List Char) : Prop :=
  s.map Char.toLower ∈ ["inf".toList, "infinity".toList, "nan".toList]

/-- A floating-point number is spelled by an optional sign, and then by a name, or
by digits with an optional exponent. -/
def IsFloat (s : List Char) : Prop :=
  ∃ sign body, IsSign sign ∧ s = sign ++ body ∧
    (IsName body ∨ ∃ mantissa exponent, IsMantissa mantissa ∧ IsExponent exponent
      ∧ body = mantissa ++ exponent)

/-! ## Digits -/

theorem digit?_of_isDigit {c : Char} (hc : c.isDigit = true) :
    Numeral.digit? c = some (c.toNat - '0'.toNat) := by
  rw [Numeral.digit?, if_pos (by simpa [Char.isDigit, Char.le_def] using hc)]

theorem digit?_of_not_isDigit {c : Char} (hc : ¬c.isDigit = true) :
    Numeral.digit? c = none := by
  rw [Numeral.digit?, if_neg (by simpa [Char.isDigit, Char.le_def] using hc)]

theorem isDigit_eq (c : Char) : Decimal.isDigit c = c.isDigit := by
  unfold Decimal.isDigit
  by_cases hc : c.isDigit = true
  · rw [digit?_of_isDigit hc, hc, Option.isSome_some]
  · rw [digit?_of_not_isDigit hc, Option.isSome_none, Bool.eq_false_of_not_eq_true hc]

theorem areDigits_iff {s : List Char} : AreDigits s ↔ Decimal.AllDigits s := by
  simp only [AreDigits, Decimal.AllDigits, isDigit_eq]

theorem areDigits_cons {c : Char} {s : List Char} :
    AreDigits (c :: s) ↔ c.isDigit = true ∧ AreDigits s := List.forall_mem_cons

theorem areDigits_append {s t : List Char} :
    AreDigits (s ++ t) ↔ AreDigits s ∧ AreDigits t := List.forall_mem_append

theorem digitsFrom?_eq_some_iff {s : List Char} {acc n : Nat} :
    Numeral.digitsFrom? acc s = some n ↔ AreDigits s ∧ n = Nat.ofDigitChars 10 s acc := by
  induction s generalizing acc with
  | nil =>
      rw [Numeral.digitsFrom?, Option.some.injEq, eq_comm]
      exact (and_iff_right (List.forall_mem_nil _)).symm
  | cons c s ih =>
      rw [Numeral.digitsFrom?, areDigits_cons]
      by_cases hc : c.isDigit = true
      · rw [digit?_of_isDigit hc, Option.bind_some, ih, Nat.ofDigitChars_cons,
          Nat.mul_comm acc 10, and_iff_right hc]
      · simp [digit?_of_not_isDigit hc, hc]

/-- **A number is read from a run of digits**, whatever zeros lead it. -/
theorem digits?_eq_some_iff {s : List Char} {n : Nat} :
    Numeral.digits? s = some n ↔ IsRun s ∧ n = value s := by
  cases s with
  | nil => simp [Numeral.digits?, IsRun]
  | cons c s =>
      rw [Numeral.digits?_of_ne_nil (List.cons_ne_nil c s), digitsFrom?_eq_some_iff]
      simp [IsRun, value]

theorem isSome_digits?_iff {s : List Char} :
    (Numeral.digits? s).isSome = true ↔ IsRun s := by
  simp [Option.isSome_iff_exists, digits?_eq_some_iff]

/-! ## Signs -/

/-- The text does not start with a sign. -/
def IsUnsigned (s : List Char) : Prop := ∀ c ∈ s.head?, c ≠ '+' ∧ c ≠ '-'

theorem isUnsigned_of_areDigits {s : List Char} (hs : AreDigits s) : IsUnsigned s := by
  intro c hc
  have hdigit := hs c (List.mem_of_mem_head? hc)
  constructor
  · rintro rfl
    exact absurd hdigit (by decide)
  · rintro rfl
    exact absurd hdigit (by decide)

theorem isUnsigned_append {s t : List Char} (hs : s ≠ []) (hu : IsUnsigned s) :
    IsUnsigned (s ++ t) := by
  cases s with
  | nil => exact absurd rfl hs
  | cons c s => exact hu

/-- The sign that a text starts with, and what follows it. -/
theorem exists_sign (s : List Char) :
    ∃ sign, IsSign sign ∧ s = sign ++ (Decimal.sign s).2
      ∧ (Decimal.sign s).1 = decide (sign = ['-']) := by
  match s with
  | [] => exact ⟨[], .inl rfl, rfl, rfl⟩
  | c :: rest =>
      by_cases hp : c = '+'
      · subst hp
        exact ⟨['+'], .inr (.inl rfl), rfl, rfl⟩
      · by_cases hm : c = '-'
        · subst hm
          exact ⟨['-'], .inr (.inr rfl), rfl, rfl⟩
        · rw [Decimal.sign_cons hp hm]
          exact ⟨[], .inl rfl, rfl, rfl⟩

/-- No other way of taking off a sign leaves a text without one. -/
theorem sign_append {sign body : List Char} (hsign : IsSign sign) (hbody : IsUnsigned body) :
    Decimal.sign (sign ++ body) = (decide (sign = ['-']), body) := by
  rcases hsign with rfl | rfl | rfl
  · cases body with
    | nil => rfl
    | cons c rest =>
        obtain ⟨hp, hm⟩ := hbody c rfl
        exact Decimal.sign_cons hp hm rest
  · rfl
  · rfl

/-! ## Whole numbers -/

/-- The sign that a whole number is read with is the one in front of it. -/
private theorem integer?_eq (s : List Char) :
    Numeral.integer? s = (Numeral.digits? (Decimal.sign s).2).map fun n : Nat =>
      if (Decimal.sign s).1 then -(n : Int) else n := by
  match s with
  | [] => rfl
  | c :: rest =>
      by_cases hp : c = '+'
      · subst hp
        rfl
      · by_cases hm : c = '-'
        · subst hm
          rfl
        · rw [Decimal.sign_cons hp hm, Numeral.integer?]
          · rfl
          · rintro r heq
            exact hp (List.cons.inj heq).1
          · rintro r heq
            exact hm (List.cons.inj heq).1

theorem integer?_eq_some_iff {s : List Char} {n : Int} :
    Numeral.integer? s = some n ↔ SpellsInteger s n := by
  rw [integer?_eq]
  constructor
  · intro hread
    obtain ⟨m, hm, rfl⟩ := Option.map_eq_some_iff.mp hread
    obtain ⟨hrun, rfl⟩ := digits?_eq_some_iff.mp hm
    obtain ⟨sign, hsign, hs, hneg⟩ := exists_sign s
    refine ⟨sign, (Decimal.sign s).2, hsign, hrun, hs, ?_⟩
    simp only [hneg, signed, decide_eq_true_eq]
  · rintro ⟨sign, run, hsign, hrun, rfl, rfl⟩
    rw [sign_append hsign (isUnsigned_of_areDigits hrun.2),
      digits?_eq_some_iff.mpr ⟨hrun, rfl⟩]
    simp only [Option.map_some, signed, decide_eq_true_eq]

/-- **A number of 64 bits is read from the texts that spell it**, and from nothing
else. -/
theorem int64?_eq_some_iff {s : List Char} {n : Int64} :
    Numeral.int64? s = some n ↔ SpellsInteger s n.toInt := by
  have hlow := n.le_toInt
  have hhigh := n.toInt_lt
  rw [Numeral.int64?, Option.bind_eq_some_iff]
  constructor
  · rintro ⟨m, hm, hrange⟩
    rw [Option.ite_none_right_eq_some, Bool.and_eq_true, decide_eq_true_eq,
      decide_eq_true_eq, Option.some.injEq] at hrange
    obtain ⟨⟨hle, hlt⟩, rfl⟩ := hrange
    rw [Int64.toInt_ofInt_of_le (by omega) (by omega)]
    exact integer?_eq_some_iff.mp hm
  · intro hspells
    refine ⟨n.toInt, integer?_eq_some_iff.mpr hspells, ?_⟩
    rw [if_pos (by simp; omega), Int64.ofInt_toInt]

/-- A text is read as a number of 64 bits if it spells a number in their range. -/
theorem isSome_int64?_iff {s : List Char} :
    (Numeral.int64? s).isSome = true ↔ ∃ n, SpellsInteger s n ∧ -2 ^ 63 ≤ n ∧ n < 2 ^ 63 := by
  rw [Option.isSome_iff_exists]
  constructor
  · rintro ⟨n, hn⟩
    exact ⟨n.toInt, int64?_eq_some_iff.mp hn, n.le_toInt, n.toInt_lt⟩
  · rintro ⟨n, hspells, hle, hlt⟩
    refine ⟨Int64.ofInt n, int64?_eq_some_iff.mpr ?_⟩
    rwa [Int64.toInt_ofInt_of_le (by omega) (by omega)]

/-- A natural number is read without a sign, … -/
private theorem natural?_of_isUnsigned {bound : Nat} {s : List Char} (hs : IsUnsigned s) :
    Numeral.natural? bound s = (Numeral.digits? s).filter (· < bound) := by
  rw [Numeral.natural?]
  rintro rest rfl
  exact (hs '+' rfl).1 rfl

/-- … or with a `+` in front of it. -/
theorem natural?_eq_some_iff {bound : Nat} {s : List Char} {n : Nat} :
    Numeral.natural? bound s = some n ↔ ∃ sign run, (sign = [] ∨ sign = ['+']) ∧ IsRun run
      ∧ s = sign ++ run ∧ n = value run ∧ n < bound := by
  constructor
  · intro hread
    have hbody : ∃ sign run, (sign = [] ∨ sign = ['+']) ∧ s = sign ++ run
        ∧ (Numeral.digits? run).filter (· < bound) = some n := by
      unfold Numeral.natural? at hread
      split at hread
      · exact ⟨['+'], _, .inr rfl, rfl, hread⟩
      · exact ⟨[], _, .inl rfl, rfl, hread⟩
    obtain ⟨sign, run, hsign, hs, hrun⟩ := hbody
    obtain ⟨hrun, hlt⟩ := Option.filter_eq_some_iff.mp hrun
    obtain ⟨hrun, hn⟩ := digits?_eq_some_iff.mp hrun
    exact ⟨sign, run, hsign, hrun, hs, hn, of_decide_eq_true hlt⟩
  · rintro ⟨sign, run, hsign, hrun, rfl, hn, hlt⟩
    have hread : (Numeral.digits? run).filter (· < bound) = some n :=
      Option.filter_eq_some_iff.mpr ⟨digits?_eq_some_iff.mpr ⟨hrun, hn⟩, decide_eq_true hlt⟩
    rcases hsign with rfl | rfl
    · rwa [List.nil_append, natural?_of_isUnsigned (isUnsigned_of_areDigits hrun.2)]
    · exact hread

/-- **A number of eight bits is read from the texts that spell it.** -/
theorem byte?_eq_some_iff {s : List Char} {b : UInt8} :
    Numeral.byte? s = some b ↔ SpellsTag s b.toNat := by
  have hb := b.toNat_lt
  rw [Numeral.byte?, Option.map_eq_some_iff]
  constructor
  · rintro ⟨n, hn, rfl⟩
    obtain ⟨sign, run, hsign, hrun, hs, rfl, hlt⟩ := natural?_eq_some_iff.mp hn
    rw [UInt8.toNat_ofNat_of_lt' hlt]
    exact ⟨sign, run, hsign, hrun, hs, rfl, by omega⟩
  · rintro ⟨sign, run, hsign, hrun, hs, hn, hle⟩
    refine ⟨b.toNat, natural?_eq_some_iff.mpr ?_, UInt8.ofNat_toNat⟩
    exact ⟨sign, run, hsign, hrun, hs, hn, by omega⟩

/-! ## Floating-point numbers -/

/-- The number of an exponent is a sign and a run of digits. -/
private theorem isSome_exponentNumber?_iff {s : List Char} :
    (Decimal.exponentNumber? s).isSome = true ↔
      ∃ sign run, IsSign sign ∧ IsRun run ∧ s = sign ++ run := by
  have hread : (Decimal.exponentNumber? s).isSome = true ↔ IsRun (Decimal.sign s).2 := by
    have hrun : ((Decimal.sign s).2.isEmpty || !(Decimal.sign s).2.all Decimal.isDigit) = false
        ↔ IsRun (Decimal.sign s).2 := by
      simp [IsRun, areDigits_iff, Decimal.AllDigits]
    rw [← hrun, Decimal.exponentNumber?]
    dsimp only
    split
    · next h => simp [h]
    · next h => simp [h]
  rw [hread]
  constructor
  · intro hrun
    obtain ⟨sign, hsign, hs, -⟩ := exists_sign s
    exact ⟨sign, _, hsign, hrun, hs⟩
  · rintro ⟨sign, run, hsign, hrun, rfl⟩
    rwa [sign_append hsign (isUnsigned_of_areDigits hrun.2)]

theorem isSome_exponent?_iff {s : List Char} :
    (Decimal.exponent? s).isSome = true ↔ IsExponent s := by
  constructor
  · intro hread
    unfold Decimal.exponent? at hread
    split at hread
    · exact .inl rfl
    · obtain ⟨sign, run, hsign, hrun, rfl⟩ := isSome_exponentNumber?_iff.mp hread
      exact .inr ⟨'e', sign, run, .inl rfl, hsign, hrun, rfl⟩
    · obtain ⟨sign, run, hsign, hrun, rfl⟩ := isSome_exponentNumber?_iff.mp hread
      exact .inr ⟨'E', sign, run, .inr rfl, hsign, hrun, rfl⟩
    · cases hread
  · rintro (rfl | ⟨letter, sign, run, rfl | rfl, hsign, hrun, rfl⟩)
    · rfl
    · exact isSome_exponentNumber?_iff.mpr ⟨sign, run, hsign, hrun, rfl⟩
    · exact isSome_exponentNumber?_iff.mpr ⟨sign, run, hsign, hrun, rfl⟩

/-- The text starts neither with a digit nor with a point. -/
private def IsTail (s : List Char) : Prop := ∀ c ∈ s.head?, c.isDigit = false ∧ c ≠ '.'

private theorem isTail_of_isExponent {s : List Char} (hs : IsExponent s) : IsTail s := by
  rcases hs with rfl | ⟨letter, sign, run, hletter, -, -, rfl⟩
  · intro c hc
    cases hc
  · intro c hc
    obtain rfl := Option.some.inj hc
    rcases hletter with rfl | rfl <;> decide

private theorem takeWhile_append {s t : List Char} (hs : AreDigits s)
    (ht : ∀ c ∈ t.head?, c.isDigit = false) :
    (s ++ t).takeWhile Decimal.isDigit = s ∧ (s ++ t).dropWhile Decimal.isDigit = t := by
  have hall := areDigits_iff.mp hs
  cases t with
  | nil =>
      rw [List.append_nil]
      exact ⟨List.takeWhile_eq_self_iff.mpr hall, List.dropWhile_eq_nil_iff.mpr hall⟩
  | cons c t =>
      have hc : ¬Decimal.isDigit c = true := by simp [isDigit_eq, ht c rfl]
      rw [List.takeWhile_append_of_pos hall, List.dropWhile_append_of_pos hall,
        List.takeWhile_cons_of_neg hc, List.dropWhile_cons_of_neg hc, List.append_nil]
      exact ⟨rfl, rfl⟩

/-- A numeral without a point is split after its digits, … -/
private theorem split_whole {w t : List Char} (hw : AreDigits w) (ht : IsTail t) :
    Decimal.split (w ++ t) = (w, [], t) := by
  obtain ⟨htake, hdrop⟩ := takeWhile_append hw fun c hc => (ht c hc).1
  rw [Decimal.split, htake, hdrop]
  split
  · next rest => exact absurd rfl (ht '.' rfl).2
  · rfl

/-- … and one with a point there too. -/
private theorem split_pointed {w f t : List Char} (hw : AreDigits w) (hf : AreDigits f)
    (ht : IsTail t) : Decimal.split (w ++ '.' :: f ++ t) = (w, f, t) := by
  rw [List.append_assoc, List.cons_append]
  obtain ⟨htake, hdrop⟩ := takeWhile_append (t := '.' :: (f ++ t)) hw (by simp)
  obtain ⟨hftake, hfdrop⟩ := takeWhile_append hf fun c hc => (ht c hc).1
  rw [Decimal.split, htake, hdrop]
  simp only [hftake, hfdrop]

/-- The parts of a text, put together again. -/
private theorem split_eq {s w f t : List Char} (hsplit : Decimal.split s = (w, f, t)) :
    AreDigits w ∧ AreDigits f ∧ (s = w ++ t ∧ f = [] ∨ s = w ++ '.' :: f ++ t) := by
  have hdigits : ∀ r : List Char, AreDigits (r.takeWhile Decimal.isDigit) := by
    intro r
    exact areDigits_iff.mpr fun c hc => List.mem_takeWhile_imp hc
  have hparts := List.takeWhile_append_dropWhile (p := Decimal.isDigit) (l := s)
  rw [Decimal.split] at hsplit
  split at hsplit
  · next rest hdrop =>
      obtain ⟨rfl, hrest⟩ := Prod.mk.inj hsplit
      obtain ⟨rfl, rfl⟩ := Prod.mk.inj hrest
      refine ⟨hdigits s, hdigits rest, .inr ?_⟩
      rw [List.append_assoc, List.cons_append, List.takeWhile_append_dropWhile, ← hdrop, hparts]
  · obtain ⟨rfl, hrest⟩ := Prod.mk.inj hsplit
    obtain ⟨rfl, rfl⟩ := Prod.mk.inj hrest
    exact ⟨hdigits s, List.forall_mem_nil _, .inl ⟨hparts.symm, rfl⟩⟩

/-- There are digits on one side of the point at least. -/
private theorem isMantissa_of_isRun {w f : List Char} (hrun : IsRun (w ++ f)) :
    IsMantissa (w ++ '.' :: f) := by
  obtain ⟨hw, hf⟩ := areDigits_append.mp hrun.2
  by_cases hempty : w = []
  · subst hempty
    exact .fraction hw hrun
  · exact .pointed ⟨hempty, hw⟩ hf

/-- A numeral is digits, with a point or without one, and an exponent. -/
theorem isSome_ofChars?_iff {s : List Char} :
    (Decimal.ofChars? s).isSome = true ↔ ∃ mantissa exponent, IsMantissa mantissa ∧
      IsExponent exponent ∧ (Decimal.sign s).2 = mantissa ++ exponent := by
  rcases hsplit : Decimal.split (Decimal.sign s).2 with ⟨w, f, t⟩
  have hread : (Decimal.ofChars? s).isSome = true ↔ IsRun (w ++ f) ∧ IsExponent t := by
    rw [← isSome_digits?_iff, ← isSome_exponent?_iff, Decimal.ofChars?]
    dsimp only
    rw [hsplit]
    dsimp only
    cases Numeral.digits? (w ++ f) <;> cases Decimal.exponent? t <;> simp
  rw [hread]
  constructor
  · rintro ⟨hrun, ht⟩
    obtain ⟨hw, hf, ⟨hs, rfl⟩ | hs⟩ := split_eq hsplit
    · rw [List.append_nil] at hrun
      exact ⟨w, t, .whole hrun, ht, hs⟩
    · exact ⟨_, t, isMantissa_of_isRun hrun, ht, hs⟩
  · rintro ⟨mantissa, exponent, hmantissa, hexponent, hs⟩
    have htail := isTail_of_isExponent hexponent
    rw [hs] at hsplit
    cases hmantissa with
    | whole hrun =>
        rw [split_whole hrun.2 htail] at hsplit
        cases hsplit
        rw [List.append_nil]
        exact ⟨hrun, hexponent⟩
    | pointed hrun hf =>
        rw [split_pointed hrun.2 hf htail] at hsplit
        cases hsplit
        exact ⟨⟨List.append_ne_nil_of_left_ne_nil hrun.1 _,
          areDigits_append.mpr ⟨hrun.2, hf⟩⟩, hexponent⟩
    | fraction hw hrun =>
        rw [split_pointed hw hrun.2 htail] at hsplit
        cases hsplit
        exact ⟨⟨List.append_ne_nil_of_right_ne_nil _ hrun.1,
          areDigits_append.mpr ⟨hw, hrun.2⟩⟩, hexponent⟩

theorem isUnsigned_of_isMantissa {s : List Char} (hs : IsMantissa s) :
    s ≠ [] ∧ IsUnsigned s := by
  cases hs with
  | whole hrun => exact ⟨hrun.1, isUnsigned_of_areDigits hrun.2⟩
  | pointed hrun hf =>
      exact ⟨List.append_ne_nil_of_left_ne_nil hrun.1 _,
        isUnsigned_append hrun.1 (isUnsigned_of_areDigits hrun.2)⟩
  | @fraction w run hw hrun =>
      refine ⟨List.append_ne_nil_of_right_ne_nil _ (List.cons_ne_nil _ _), ?_⟩
      by_cases hempty : w = []
      · subst hempty
        intro c hc
        obtain rfl := Option.some.inj hc
        decide
      · exact isUnsigned_append hempty (isUnsigned_of_areDigits hw)

/-- A name starts with a letter. -/
theorem isUnsigned_of_isName {s : List Char} (hs : IsName s) : IsUnsigned s := by
  intro c hc
  have hlower : ∀ d ∈ (s.map Char.toLower).head?, d ≠ '+' ∧ d ≠ '-' := by
    simp only [IsName, List.mem_cons, List.not_mem_nil, or_false] at hs
    rcases hs with h | h | h <;>
      · rw [h]
        intro d hd
        obtain rfl := Option.some.inj hd
        decide
  have hmem : c.toLower ∈ (s.map Char.toLower).head? := by
    rw [List.head?_map, hc]
    rfl
  constructor
  · rintro rfl
    exact (hlower _ hmem).1 rfl
  · rintro rfl
    exact (hlower _ hmem).2 rfl

/-- **A floating-point number is read from the literals of the grammar**, and from
nothing else. -/
theorem isSome_ofText?_iff {s : List Char} :
    (Binary64.ofText? s).isSome = true ↔ IsFloat s := by
  have hread : (Binary64.ofText? s).isSome = true ↔
      IsName (Decimal.sign s).2 ∨ (Decimal.ofChars? s).isSome = true := by
    unfold Binary64.ofText? IsName
    dsimp only
    split
    · next h =>
        simp only [Bool.or_eq_true, decide_eq_true_eq] at h
        rcases h with h | h <;> simp [h]
    · split
      · next h => simp [h]
      · next h₁ h₂ =>
          simp only [Bool.or_eq_true, decide_eq_true_eq, not_or] at h₁
          simp [h₁, h₂]
  rw [hread, isSome_ofChars?_iff]
  constructor
  · intro hbody
    obtain ⟨sign, hsign, hs, -⟩ := exists_sign s
    exact ⟨sign, _, hsign, hs, hbody⟩
  · rintro ⟨sign, body, hsign, rfl, hbody⟩
    have hunsigned : IsUnsigned body := by
      rcases hbody with hname | ⟨mantissa, exponent, hmantissa, -, rfl⟩
      · exact isUnsigned_of_isName hname
      · obtain ⟨hne, hu⟩ := isUnsigned_of_isMantissa hmantissa
        exact isUnsigned_append hne hu
    rwa [sign_append hsign hunsigned]

end CommandExpr.Literal
