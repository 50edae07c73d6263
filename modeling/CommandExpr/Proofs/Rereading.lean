import CommandExpr.Proofs.Acceptance
import CommandExpr.Proofs.FixedPoint

/-!
# Rendered values are read again

What a value is rendered as can be typed again behind the letter of its kind, and
is then rendered as it was.  Of a floating-point number only six digits after the
point are left, so that another number may be read; but it is rendered as the same
digits.  There are two reasons for that, and one of them always applies.

Below 2³³ neighbouring numbers are less than 10⁻⁶ apart, so the number that is
read is off by less than half of that, and the digits are the only ones that near
to it.  From 2³³ on they are more than 10⁻⁶ apart on either side, but for a power of
two, which is whole and loses no digit.  So the digits are nearer to the number
that they were made from than to any other.

## Main definitions

* `Kind.announcement` — what announces a kind of value

## Main results

* `Binary64.units_ofRatio` — how far the number nearest to a ratio is from it.
* `Binary64.ofRatio_of_near` — the numbers that nothing else is nearer to.
* `Binary64.fixed_reread` — the digits of a number are those of the number that is
  read from them.
* `Value.typed_rendering` — every kind of value is read again.
-/

namespace CommandExpr

/-! ## Rounded quotients -/

theorem div_le_roundDiv (num den : Nat) : num / den ≤ roundDiv num den := by
  unfold roundDiv
  dsimp only
  split_ifs <;> omega

theorem roundDiv_le (num den : Nat) : roundDiv num den ≤ num / den + 1 := by
  unfold roundDiv
  dsimp only
  split_ifs <;> omega

/-- A whole number that is off by less than half of one is the rounded quotient. -/
theorem roundDiv_eq {num den n : Nat} (hhigh : 2 * num < (2 * n + 1) * den)
    (hlow : 2 * n * den < 2 * num + den) : roundDiv num den = n := by
  have hden : 0 < den := Nat.pos_of_ne_zero fun hzero => by simp [hzero] at hhigh
  obtain ⟨hupper, hlower, -⟩ := roundDiv_bounds num hden
  generalize roundDiv num den = k at *
  have hle : 2 * k * den < (2 * n + 2) * den := by nlinarith
  have hge : 2 * n * den < (2 * k + 2) * den := by nlinarith
  have hle' := Nat.lt_of_mul_lt_mul_right hle
  have hge' := Nat.lt_of_mul_lt_mul_right hge
  omega

namespace Binary64

/-! ## The number nearest to a ratio -/

variable {negative : Bool} {x : Binary64} {num den k n r : Nat}

theorem isNegative_ofMagnitude {m : Nat} (hm : m ≤ infiniteBits) :
    (ofMagnitude negative m).isNegative = negative := by
  unfold infiniteBits specialExponent fractionCount at hm
  unfold ofMagnitude isNegative
  cases negative <;> simp <;> omega

theorem isFinite_ofMagnitude {m : Nat} (hm : m < infiniteBits) :
    (ofMagnitude negative m).isFinite = true := by
  rw [isFinite, exponentField, magnitudeBits_ofMagnitude hm.le, decide_eq_true_eq]
  unfold infiniteBits specialExponent fractionCount at *
  omega

/-- A fraction of fifty-three significant bits, or of fewer that stand lowest, is
that of the number with these bits; a carry goes into the exponent. -/
theorem units_ofMagnitude (hr : r ≤ 2 ^ 53) (hk : k = 0 ∨ 2 ^ 52 ≤ r)
    (hfinite : k * fractionCount + r < infiniteBits) :
    (ofMagnitude negative (k * fractionCount + r)).units = r * 2 ^ k := by
  have hbits : (ofMagnitude negative (k * fractionCount + r)).magnitudeBits
      = k * fractionCount + r := magnitudeBits_ofMagnitude hfinite.le
  unfold units exponentField fractionField
  rw [hbits]
  unfold fractionCount
  rcases Nat.lt_or_ge r (2 ^ 52) with hlt | hge
  · obtain rfl : k = 0 := hk.resolve_right (Nat.not_le.mpr hlt)
    rw [Nat.zero_mul, Nat.zero_add, Nat.div_eq_of_lt hlt, if_pos rfl, Nat.mod_eq_of_lt hlt,
      Nat.pow_zero, Nat.mul_one]
  · rcases Nat.lt_or_ge r (2 ^ 53) with hlt | hge'
    · have hdiv : (k * 2 ^ 52 + r) / 2 ^ 52 = k + 1 := by omega
      have hmod : (k * 2 ^ 52 + r) % 2 ^ 52 + 2 ^ 52 = r := by omega
      rw [hdiv, if_neg k.succ_ne_zero, hmod, Nat.succ_sub_one]
    · obtain rfl : r = 2 ^ 53 := le_antisymm hr hge'
      have hdiv : (k * 2 ^ 52 + 2 ^ 53) / 2 ^ 52 = k + 2 := by omega
      have hmod : (k * 2 ^ 52 + 2 ^ 53) % 2 ^ 52 = 0 := by omega
      rw [hdiv, if_neg (k + 1).succ_ne_zero, hmod, Nat.zero_add, Nat.add_succ_sub_one,
        Nat.pow_succ]
      ring

/-- The ratio in units of the last place, before it is rounded. -/
private theorem scaled_bounds (hk : k = (num * unitsPerOne / den).log2 - 52) :
    roundDiv (num * unitsPerOne) (den * 2 ^ k) ≤ 2 ^ 53
      ∧ (k = 0 ∨ 2 ^ 52 ≤ roundDiv (num * unitsPerOne) (den * 2 ^ k)) := by
  have hlow := div_le_roundDiv (num * unitsPerOne) (den * 2 ^ k)
  have hhigh := roundDiv_le (num * unitsPerOne) (den * 2 ^ k)
  rw [← Nat.div_div_eq_div_mul] at hlow hhigh
  generalize num * unitsPerOne / den = whole at *
  have hlt : whole / 2 ^ k < 2 ^ 53 := by
    rw [Nat.div_lt_iff_lt_mul (Nat.two_pow_pos k), ← Nat.pow_add]
    exact Nat.lt_of_lt_of_le Nat.lt_log2_self (Nat.pow_le_pow_right (by decide) (by omega))
  refine ⟨by omega, ?_⟩
  rcases Nat.eq_zero_or_pos k with hzero | hpos
  · exact .inl hzero
  · have hne : whole ≠ 0 := by
      rintro rfl
      rw [Nat.log2_zero] at hk
      omega
    have hge : 2 ^ 52 ≤ whole / 2 ^ k := by
      rw [Nat.le_div_iff_mul_le (Nat.two_pow_pos k), ← Nat.pow_add]
      exact Nat.le_trans (Nat.pow_le_pow_right (by decide) (by omega)) (Nat.log2_self_le hne)
    exact .inr (hge.trans hlow)

/-- **The number nearest to a ratio** is the ratio rounded to a multiple of a power of
two, if that is not past the largest finite number. -/
theorem units_ofRatio (hk : k = (num * unitsPerOne / den).log2 - 52)
    (hle : k ≤ 2044) :
    (ofRatio negative num den).units = roundDiv (num * unitsPerOne) (den * 2 ^ k) * 2 ^ k
      ∧ (ofRatio negative num den).isFinite = true
      ∧ (ofRatio negative num den).isNegative = negative := by
  obtain ⟨hr, hnormal⟩ := scaled_bounds hk
  have hfinite : k * fractionCount + roundDiv (num * unitsPerOne) (den * 2 ^ k)
      < infiniteBits := by
    unfold infiniteBits specialExponent fractionCount
    omega
  have hratio : ofRatio negative num den = ofMagnitude negative
      (k * fractionCount + roundDiv (num * unitsPerOne) (den * 2 ^ k)) := by
    rw [ofRatio, ← hk]
    exact congrArg _ (Nat.min_eq_left hfinite.le)
  rw [hratio]
  exact ⟨units_ofMagnitude hr hnormal hfinite, isFinite_ofMagnitude hfinite,
    isNegative_ofMagnitude hfinite.le⟩

/-- The units of a normal number are its significant bits and so many zeros. -/
theorem units_eq (hx : x.exponentField ≠ 0) :
    x.units = (x.fractionField + 2 ^ 52) * 2 ^ (x.exponentField - 1) := if_neg hx

theorem le_units (hx : x.exponentField ≠ 0) : 2 ^ (52 + (x.exponentField - 1)) ≤ x.units := by
  rw [units_eq hx, Nat.pow_add]
  exact Nat.mul_le_mul_right _ (Nat.le_add_left _ _)

/-- **A number is read from a ratio** that is off by less than half a unit of its last
place, if it is not below the power of two below the number, where the numbers are
closer together. -/
theorem ofRatio_of_near (hfinite : x.isFinite = true) (hx : x.exponentField ≠ 0) (hden : 0 < den)
    (hhigh : 2 * (num * unitsPerOne) < 2 * (x.units * den) + 2 ^ (x.exponentField - 1) * den)
    (hlow : 2 * (x.units * den) < 2 * (num * unitsPerOne) + 2 ^ (x.exponentField - 1) * den)
    (hpower : 2 ^ (52 + (x.exponentField - 1)) * den ≤ num * unitsPerOne) :
    ofRatio x.isNegative num den = x := by
  have hfraction : x.fractionField < 2 ^ 52 := x.fractionField_lt
  have hbits := x.magnitudeBits_eq
  have hless := magnitudeBits_lt_infiniteBits hfinite
  rw [units_eq hx] at hhigh hlow
  obtain ⟨k, hk⟩ : ∃ k, x.exponentField = k + 1 := Nat.exists_eq_succ_of_ne_zero hx
  have hmagnitude : k * fractionCount + (x.fractionField + 2 ^ 52) = x.magnitudeBits := by
    rw [hbits, hk, Nat.succ_mul, Nat.add_assoc, Nat.add_comm x.fractionField]
    rfl
  obtain ⟨m, hm⟩ : ∃ m, m = x.fractionField + 2 ^ 52 := ⟨_, rfl⟩
  rw [← hm, hk, Nat.succ_sub_one] at hhigh hlow
  rw [← hm] at hmagnitude
  rw [hk, Nat.succ_sub_one] at hpower
  generalize hN : num * unitsPerOne = N at *
  have hstep : 0 < 2 ^ k * den := Nat.mul_pos (Nat.two_pow_pos k) hden
  have hlog : (N / den).log2 = 52 + k := by
    have hge : 2 ^ (52 + k) ≤ N / den := (Nat.le_div_iff_mul_le hden).mpr hpower
    refine (Nat.log2_eq_iff (Nat.ne_of_gt (Nat.lt_of_lt_of_le (Nat.two_pow_pos _) hge))).mpr
      ⟨hge, (Nat.div_lt_iff_lt_mul hden).mpr ?_⟩
    have hmax : m + 1 ≤ 2 ^ 53 := by omega
    have hroom : (m + 1) * (2 ^ k * den) ≤ 2 ^ 53 * (2 ^ k * den) :=
      Nat.mul_le_mul_right _ hmax
    rw [show 52 + k + 1 = 53 + k by omega, Nat.pow_add]
    nlinarith
  have hround : roundDiv N (den * 2 ^ k) = m := roundDiv_eq (by nlinarith) (by nlinarith)
  rw [ofRatio, hN, hlog, Nat.add_sub_cancel_left, hround, hmagnitude, Nat.min_eq_left hless.le,
    ofMagnitude_magnitudeBits]

/-! ## Six digits -/

/-- Below 2³³ two neighbouring numbers are less than 10⁻⁶ apart, … -/
private theorem step_lt_unitsPerOne (hk : k + 20 ≤ exactPlaces) :
    10 ^ fixedPlaces * 2 ^ k < unitsPerOne :=
  calc 10 ^ fixedPlaces * 2 ^ k < 2 ^ 20 * 2 ^ k :=
        Nat.mul_lt_mul_of_pos_right (by decide) (Nat.two_pow_pos k)
    _ = 2 ^ (k + 20) := by rw [← Nat.pow_add, Nat.add_comm]
    _ ≤ 2 ^ exactPlaces := Nat.pow_le_pow_right (by decide) hk
    _ = unitsPerOne := unitsPerOne_eq.symm

/-- … and above they are farther apart. -/
private theorem unitsPerOne_lt_step (hk : exactPlaces ≤ k + 19) :
    unitsPerOne < 10 ^ fixedPlaces * 2 ^ k :=
  calc unitsPerOne = 2 ^ exactPlaces := unitsPerOne_eq
    _ ≤ 2 ^ (k + 19) := Nat.pow_le_pow_right (by decide) hk
    _ = 2 ^ 19 * 2 ^ k := by rw [← Nat.pow_add, Nat.add_comm]
    _ < 10 ^ fixedPlaces * 2 ^ k := Nat.mul_lt_mul_of_pos_right (by decide) (Nat.two_pow_pos k)

/-- There are not many more digits than a great number has before the point. -/
theorem fixedUnits_le (hk : 53 + (x.exponentField - 1) ≤ exactPlaces + 3 * k) :
    x.fixedUnits ≤ 10 ^ (k + fixedPlaces) := by
  have hquotient : x.units * 10 ^ fixedPlaces / unitsPerOne < 10 ^ (k + fixedPlaces) := by
    refine Nat.div_lt_of_lt_mul (Nat.lt_of_mul_lt_mul_right (a := 10 ^ exactPlaces) ?_)
    calc x.units * 10 ^ fixedPlaces * 10 ^ exactPlaces
        = x.exactUnits * (10 ^ fixedPlaces * unitsPerOne) := by
          rw [Nat.mul_right_comm, ← exactUnits_mul_unitsPerOne, Nat.mul_assoc,
            Nat.mul_comm unitsPerOne]
      _ < 10 ^ (exactPlaces + k) * (10 ^ fixedPlaces * unitsPerOne) :=
          Nat.mul_lt_mul_of_pos_right (exactUnits_lt hk)
            (Nat.mul_pos (Nat.pow_pos (by decide)) unitsPerOne_pos)
      _ = unitsPerOne * 10 ^ (k + fixedPlaces) * 10 ^ exactPlaces := by
          rw [Nat.pow_add, Nat.pow_add]
          ring
  exact (roundDiv_le _ _).trans hquotient

theorem length_whole_fixedUnits (hx : x.isFinite = true) :
    (Numeral.whole x.fixedUnits).length ≤ 342 + fixedPlaces + 1 := by
  have hexp := exponentField_le hx
  have hle : x.fixedUnits ≤ 10 ^ (342 + fixedPlaces) := by
    refine fixedUnits_le ?_
    unfold exactPlaces
    omega
  exact Numeral.length_whole_le (by decide)
    (Nat.lt_of_le_of_lt hle (Nat.pow_lt_pow_succ (by decide)))

theorem ofRatio_zero (den : Nat) : ofRatio negative 0 den = ofMagnitude negative 0 := by
  have hround : ∀ d, roundDiv 0 d = 0 := by
    intro d
    unfold roundDiv
    simp
  simp [ofRatio, hround]

/-- Unless there are very many digits, what is read is the number nearest to them. -/
theorem toBinary64_micros (hn : (Numeral.whole n).length ≤ 342 + fixedPlaces + 1) :
    (Decimal.mk negative n (-fixedPlaces)).toBinary64 = ofRatio negative n (10 ^ fixedPlaces) := by
  rcases Nat.eq_zero_or_pos n with rfl | hpos
  · rw [ofRatio_zero]
    rfl
  · unfold Numeral.whole at hn
    unfold fixedPlaces at *
    unfold Decimal.toBinary64 Decimal.decidedExponent
    dsimp only
    rw [if_neg, if_neg, if_neg]
    · rfl
    · decide
    · omega
    · simp [hpos.ne']

/-- Where the numbers are close together, the one that is read is near enough to the
digits that it has no others. -/
private theorem fixedUnits_ofRatio
    (hn : n * unitsPerOne < 10 ^ fixedPlaces * 2 ^ (exactPlaces + 33)) :
    (ofRatio negative n (10 ^ fixedPlaces)).fixedUnits = n
      ∧ (ofRatio negative n (10 ^ fixedPlaces)).isFinite = true
      ∧ (ofRatio negative n (10 ^ fixedPlaces)).isNegative = negative := by
  obtain ⟨k, hk⟩ : ∃ k, k = (n * unitsPerOne / 10 ^ fixedPlaces).log2 - 52 := ⟨_, rfl⟩
  have hle : k + 20 ≤ exactPlaces := by
    have hwhole := Nat.div_lt_of_lt_mul hn
    rcases Nat.eq_zero_or_pos (n * unitsPerOne / 10 ^ fixedPlaces) with hzero | hpos
    · rw [hk, hzero, Nat.log2_zero]
      decide
    · have hlog := (Nat.log2_lt hpos.ne').mpr hwhole
      unfold exactPlaces at *
      omega
  have hbound : k ≤ 2044 := by
    unfold exactPlaces at hle
    omega
  obtain ⟨hunits, hfinite, hsign⟩ : (ofRatio negative n (10 ^ fixedPlaces)).units = _ ∧ _ ∧ _ :=
    units_ofRatio hk hbound
  have hstep := step_lt_unitsPerOne hle
  have hden : 0 < 10 ^ fixedPlaces * 2 ^ k :=
    Nat.mul_pos (Nat.pow_pos (by decide)) (Nat.two_pow_pos k)
  obtain ⟨hlow, hhigh, -⟩ := roundDiv_bounds (n * unitsPerOne) hden
  refine ⟨?_, hfinite, hsign⟩
  rw [fixedUnits, hunits]
  generalize roundDiv (n * unitsPerOne) (10 ^ fixedPlaces * 2 ^ k) = r at *
  generalize unitsPerOne = one at *
  have hvalue : r * 2 ^ k * 10 ^ fixedPlaces = r * (10 ^ fixedPlaces * 2 ^ k) := by
    rw [Nat.mul_assoc, Nat.mul_comm (2 ^ k)]
  rw [hvalue]
  generalize 10 ^ fixedPlaces * 2 ^ k = den at *
  exact roundDiv_eq (by linarith) (by linarith)

/-- Where they are far apart, it is the number that the digits were made from. -/
private theorem ofRatio_fixedUnits (hx : x.isFinite = true)
    (hexp : exactPlaces ≤ x.exponentField + 18) :
    ofRatio x.isNegative x.fixedUnits (10 ^ fixedPlaces) = x := by
  have hne : x.exponentField ≠ 0 := by
    unfold exactPlaces at hexp
    omega
  have hstep := unitsPerOne_lt_step (k := x.exponentField - 1) (by omega)
  obtain ⟨hlow, hhigh, -⟩ := roundDiv_bounds (x.units * 10 ^ fixedPlaces) unitsPerOne_pos
  refine ofRatio_of_near hx hne (Nat.pow_pos (by decide)) ?_ ?_ ?_
  · change 2 * x.fixedUnits * unitsPerOne ≤ _ at hhigh
    linarith
  · change _ ≤ (2 * x.fixedUnits + 1) * unitsPerOne at hlow
    linarith
  · -- a power of two that great is whole, and its digits are exact
    obtain ⟨c, hc⟩ : ∃ c, 2 ^ (52 + (x.exponentField - 1)) = c * unitsPerOne := by
      refine ⟨2 ^ (52 + (x.exponentField - 1) - exactPlaces), ?_⟩
      rw [unitsPerOne_eq, ← Nat.pow_add, Nat.sub_add_cancel]
      unfold exactPlaces at *
      omega
    have hdigits : c * 10 ^ fixedPlaces ≤ x.units * 10 ^ fixedPlaces / unitsPerOne := by
      rw [Nat.le_div_iff_mul_le unitsPerOne_pos, Nat.mul_right_comm, ← hc]
      exact Nat.mul_le_mul_right _ (le_units hne)
    have hround := hdigits.trans (div_le_roundDiv (x.units * 10 ^ fixedPlaces) unitsPerOne)
    rw [hc, Nat.mul_right_comm]
    exact Nat.mul_le_mul_right _ hround

/-- Numbers with a lower exponent are at least one step below the power of two. -/
theorem units_add_le {e : Nat} (he : x.exponentField - 1 ≤ e) : x.units + 2 ^ e ≤ 2 ^ (53 + e) := by
  have hfraction : x.fractionField < 2 ^ 52 := x.fractionField_lt
  have hmost : x.units ≤ (2 ^ 53 - 1) * 2 ^ (x.exponentField - 1) := by
    rcases Nat.eq_zero_or_pos x.exponentField with hzero | hpos
    · rw [units, if_pos hzero, hzero]
      omega
    · rw [units_eq hpos.ne']
      exact Nat.mul_le_mul_right _ (by omega)
  calc x.units + 2 ^ e ≤ (2 ^ 53 - 1) * 2 ^ (x.exponentField - 1) + 1 * 2 ^ e :=
        Nat.add_le_add hmost (Nat.one_mul _).ge
    _ ≤ (2 ^ 53 - 1) * 2 ^ e + 1 * 2 ^ e :=
        Nat.add_le_add_right
          (Nat.mul_le_mul_left _ (Nat.pow_le_pow_right (by decide) he)) _
    _ = 2 ^ (53 + e) := by rw [← Nat.add_mul, Nat.pow_add]

/-- … so that their digits stay below it as well. -/
private theorem fixedUnits_lt (hx : x.exponentField + 18 < exactPlaces) :
    x.fixedUnits * unitsPerOne < 10 ^ fixedPlaces * 2 ^ (exactPlaces + 33) := by
  obtain ⟨e, he⟩ : ∃ e, exactPlaces = e + 20 := ⟨1054, rfl⟩
  have hunits := units_add_le (x := x) (e := e) (by omega)
  have hstep := unitsPerOne_lt_step (k := e + 1) (by omega)
  obtain ⟨-, hhigh, -⟩ := roundDiv_bounds (x.units * 10 ^ fixedPlaces) unitsPerOne_pos
  change 2 * x.fixedUnits * unitsPerOne ≤ _ at hhigh
  have hroom := Nat.mul_le_mul_left (10 ^ fixedPlaces) hunits
  rw [Nat.mul_add] at hroom
  rw [Nat.pow_succ] at hstep
  rw [show exactPlaces + 33 = 53 + e by omega]
  linarith

/-- **A finite number and the one that is read from its six digits have the same
digits.** -/
theorem fixedUnits_toBinary64 (hx : x.isFinite = true) :
    (Decimal.mk x.isNegative x.fixedUnits (-fixedPlaces)).toBinary64.fixedUnits = x.fixedUnits
      ∧ (Decimal.mk x.isNegative x.fixedUnits (-fixedPlaces)).toBinary64.isFinite = true
      ∧ (Decimal.mk x.isNegative x.fixedUnits (-fixedPlaces)).toBinary64.isNegative
          = x.isNegative := by
  rw [toBinary64_micros (length_whole_fixedUnits hx)]
  rcases Nat.lt_or_ge (x.exponentField + 18) exactPlaces with hlt | hge
  · exact fixedUnits_ofRatio (fixedUnits_lt hlt)
  · rw [ofRatio_fixedUnits hx hge]
    exact ⟨rfl, hx, rfl⟩

theorem isNaN_nan (negative : Bool) : (nan negative).isNaN = true := by
  cases negative <;> decide

theorem isInfinite_infinity (negative : Bool) :
    (infinity negative).isNaN = false ∧ (infinity negative).isInfinite = true
      ∧ (infinity negative).isNegative = negative := by
  cases negative <;> decide

/-- **The text of a number is read**, and what is read has the same text. -/
theorem fixed_reread (x : Binary64) :
    ∃ y, ofText? x.fixed.toList = some y ∧ y.fixed = x.fixed := by
  cases hnan : x.isNaN with
  | true =>
      refine ⟨nan false, ?_, ?_⟩
      · rw [fixed, if_pos hnan]
        rfl
      · rw [fixed, fixed, if_pos (isNaN_nan false), if_pos hnan]
  | false =>
      cases hinf : x.isInfinite with
      | true =>
          obtain ⟨hnan', hinf', hsign⟩ := isInfinite_infinity x.isNegative
          have htext : x.fixed = if x.isNegative then "-inf" else "inf" := by
            rw [fixed, hnan, if_neg Bool.false_ne_true, if_pos hinf]
          refine ⟨infinity x.isNegative, ?_, ?_⟩
          · rw [htext]
            cases x.isNegative <;> rfl
          · rw [fixed, hnan', if_neg Bool.false_ne_true, if_pos hinf', hsign, htext]
      | false =>
          have hx := isFinite_of_not hnan hinf
          obtain ⟨hunits, hfinite, hsign⟩ := fixedUnits_toBinary64 hx
          refine ⟨(Decimal.mk x.isNegative x.fixedUnits (-fixedPlaces)).toBinary64, ?_, ?_⟩
          · rw [fixed_of_isFinite hx, String.toList_ofList, fixedDigits]
            exact ofText?_pointed _ _ _
          · rw [fixed_of_isFinite hfinite, fixed_of_isFinite hx, hsign, hunits]

end Binary64

/-! ## Values -/

/-- The letter by which words announce a kind. -/
def Kind.letter : Kind → Char
  | int => 'i'
  | float => 'f'
  | bool => 'b'
  | char => 'c'
  | str => 's'

/-- What stands in front of a value to announce its kind. -/
def Kind.announcement (k : Kind) : String := String.ofList [k.letter, ':']

theorem Kind.toList_announced (k : Kind) (s : String) :
    (k.announcement ++ s).toList = k.letter :: ':' :: s.toList := by
  rw [String.toList_append, announcement, String.toList_ofList]
  rfl

namespace Value

/-- The word of a value that is rendered exactly is what announces its kind and what it
is rendered as. -/
private theorem ofString_word {v : Value} (hv : (Argument.typed v).IsWritable)
    (hbool : v.kind ≠ .bool) (hfloat : v.kind ≠ .float) :
    Bytes.ofString (Argument.typed v).word
      = Bytes.ofString v.kind.announcement ++ v.render := by
  have spelled : ∀ s : String, v.word = v.kind.letter :: ':' :: s.toList →
      Bytes.ofString (Argument.typed v).word
        = Bytes.ofString v.kind.announcement ++ Bytes.ofString s := by
    intro s hs
    rw [← Bytes.ofString_append, Argument.word, hs, ← Kind.toList_announced, String.ofList_toList]
  cases v with
  | float x => exact absurd rfl hfloat
  | bool b => exact absurd rfl hbool
  | int n => exact spelled _ (by rw [Numeral.toList_toString]; rfl)
  | str s => exact spelled s rfl
  | char byte =>
      rw [render, ← Bytes.ofString_char hv]
      exact spelled _ (by rw [String.toList_singleton]; rfl)

/-- **A rendered value is read again**, behind what announces its kind: as a value of
the same kind that is rendered the same.  But for floating-point numbers it is the
value itself. -/
theorem typed_rendering {v : Value} (hbool : v.kind ≠ .bool)
    (hchar : ∀ byte, v = .char byte → byte < 128) :
    ∃ word w, Bytes.ofString word = Bytes.ofString v.kind.announcement ++ v.render
      ∧ Words.typed word = .ok (.typed w) ∧ w.kind = v.kind ∧ w.render = v.render
      ∧ (v.kind ≠ .float → w = v) := by
  by_cases hfloat : v.kind = .float
  · obtain ⟨x, rfl⟩ : ∃ x, v = .float x := by
      cases v with
      | float x => exact ⟨x, rfl⟩
      | int n | bool b | char byte | str s => cases hfloat
    obtain ⟨y, hread, hfixed⟩ := x.fixed_reread
    refine ⟨Kind.float.announcement ++ x.fixed, .float y, Bytes.ofString_append _ _, ?_, rfl, ?_,
      fun hne => absurd rfl hne⟩
    · exact Words.typed_of_reads (.float ⟨Kind.toList_announced _ _, by decide⟩ hread)
    · rw [render, render, hfixed]
  · have hv : (Argument.typed v).IsWritable := by
      cases v with
      | float x => exact absurd rfl hfloat
      | bool b => exact absurd rfl hbool
      | char byte => exact hchar byte rfl
      | int n | str s => trivial
    exact ⟨(Argument.typed v).word, v, ofString_word hv hbool hfloat, Words.typed_word hv, rfl,
      rfl, fun _ => rfl⟩

/-- The greatest number below 2³³ is read as another one. -/
theorem typed_rendering_sample :
    ((Value.float ⟨0x41FFFFFFFFFFFFFF⟩).kind ≠ .bool
        ∧ ∀ byte, Value.float ⟨0x41FFFFFFFFFFFFFF⟩ = .char byte → byte < 128)
      ∧ ∃ word w, Bytes.ofString word = Bytes.ofString Kind.float.announcement
            ++ (Value.float ⟨0x41FFFFFFFFFFFFFF⟩).render
        ∧ Words.typed word = .ok (.typed w) ∧ w.kind = .float
        ∧ w.render = (Value.float ⟨0x41FFFFFFFFFFFFFF⟩).render
        ∧ (Kind.float ≠ .float → w = .float ⟨0x41FFFFFFFFFFFFFF⟩) :=
  have hchar : ∀ byte, Value.float ⟨0x41FFFFFFFFFFFFFF⟩ = .char byte → byte < 128 := by
    intro byte h
    cases h
  ⟨⟨by decide, hchar⟩, typed_rendering (v := .float ⟨0x41FFFFFFFFFFFFFF⟩) (by decide) hchar⟩

end Value

end CommandExpr
