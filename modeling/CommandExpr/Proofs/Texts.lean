import CommandExpr.Bytes

/-!
# The bytes of a text

A text is handed to the operating system as the bytes of its characters, one
after the other.  A character below 128 is one byte, which is its number, and all
others are several bytes.

## Main results

* `Bytes.ofString_eq` — the bytes of a text, character by character.
* `Bytes.ofString_inj` — the bytes tell the text.
* `Bytes.ofString_char`, `Bytes.lt_of_ofString` — the texts of one byte.
* `Bytes.hasNul_ofString` — the texts with a NUL byte.
-/

namespace CommandExpr.Bytes

private theorem toList_loop (bytes : ByteArray) (i : Nat) (r : List UInt8) :
    ByteArray.toList.loop bytes i r = r.reverse ++ bytes.data.toList.drop i := by
  fun_induction ByteArray.toList.loop bytes i r with
  | case1 i r hlt ih =>
      have hsize : i < bytes.data.toList.length := by simpa using hlt
      have hget : bytes.get! i = bytes.data.toList[i] := by
        change bytes.data[i]! = _
        rw [getElem!_pos bytes.data i (by simpa using hsize)]
        rfl
      rw [ih, List.drop_eq_getElem_cons hsize, List.reverse_cons, hget,
        List.append_assoc]
      rfl
  | case2 i r hle =>
      have hsize : bytes.data.toList.length ≤ i := by simpa using hle
      rw [List.drop_eq_nil_of_le hsize, List.append_nil]

private theorem ofString_data (s : String) : ofString s = s.toByteArray.data.toList := by
  simp [ofString, ByteArray.toList, toList_loop]

theorem ofString_eq (s : String) : ofString s = s.toList.flatMap String.utf8EncodeChar := by
  rw [ofString_data, ← String.utf8Encode_toList, List.utf8Encode, List.toList_data_toByteArray]

theorem length_ofString (s : String) : (ofString s).length = s.utf8ByteSize := by
  rw [ofString_data, Array.length_toList, String.utf8ByteSize]
  rfl

theorem ofString_ofList (s : List Char) :
    ofString (String.ofList s) = s.flatMap String.utf8EncodeChar := by
  rw [ofString_eq, String.toList_ofList]

theorem ofString_append (s t : String) : ofString (s ++ t) = ofString s ++ ofString t := by
  rw [ofString_eq, ofString_eq, ofString_eq, String.toList_append, List.flatMap_append]

theorem ofString_inj {s t : String} : ofString s = ofString t ↔ s = t := by
  constructor
  · intro h
    rw [ofString_data, ofString_data] at h
    exact String.toByteArray_inj.mp (ByteArray.ext (Array.toList_inj.mp h))
  · rintro rfl
    rfl

/-! ## Characters of one byte -/

/-- A character that is one byte. -/
theorem utf8EncodeChar_of_lt {c : Char} (hc : c.toNat < 128) :
    String.utf8EncodeChar c = [UInt8.ofNat c.toNat] := by
  have hsize : c.utf8Size = 1 := by
    rw [Char.utf8Size_eq_one_iff, UInt32.le_iff_toNat_le]
    exact Nat.le_of_lt_succ hc
  rw [String.utf8EncodeChar_eq_singleton hsize]
  rfl

/-- The text of a byte below 128. -/
theorem ofString_char {byte : UInt8} (hbyte : byte < 128) :
    ofString (String.singleton (Char.ofNat byte.toNat)) = [byte] := by
  have hlt : byte.toNat < 128 := UInt8.lt_iff_toNat_lt.mp hbyte
  have hchar : ∀ n < 128, (Char.ofNat n).toNat = n := by decide
  rw [ofString_eq, String.toList_singleton, List.flatMap_singleton,
    utf8EncodeChar_of_lt (by rwa [hchar _ hlt]), hchar _ hlt, UInt8.ofNat_toNat]

/-- **A text of one byte is that of a character below 128.** -/
theorem lt_of_ofString {s : List Char} {byte : UInt8}
    (hs : ofString (String.ofList s) = [byte]) : byte < 128 := by
  rw [ofString_ofList] at hs
  cases s with
  | nil => cases hs
  | cons c s =>
      have hlength := congrArg List.length hs
      rw [List.flatMap_cons, List.length_append, String.length_utf8EncodeChar,
        List.length_singleton] at hlength
      have hpos := c.utf8Size_pos
      have hsize : c.utf8Size = 1 := by omega
      rw [List.flatMap_cons, String.utf8EncodeChar_eq_singleton hsize] at hs
      obtain rfl := (List.cons.inj hs).1
      have hle := UInt32.le_iff_toNat_le.mp (Char.utf8Size_eq_one_iff.mp hsize)
      rw [UInt8.lt_iff_toNat_lt, UInt32.toNat_toUInt8]
      exact Nat.lt_of_le_of_lt (Nat.mod_le _ _) (Nat.lt_succ_of_le hle)

/-! ## NUL bytes -/

/-- The character that is a NUL byte. -/
def nulChar : Char := Char.ofNat 0

private theorem mod_of_zero_eq_ofNat {n : Nat} (h : (0 : UInt8) = UInt8.ofNat n) :
    n % 256 = 0 := by
  have hnat := congrArg UInt8.toNat h
  rw [UInt8.toNat_ofNat'] at hnat
  exact hnat.symm

/-- No byte of a character of several bytes is NUL. -/
private theorem nul_not_mem_of_le {c : Char} (hc : 128 ≤ c.toNat) :
    nul ∉ String.utf8EncodeChar c := by
  intro hmem
  have hval : c.toNat = c.val.toNat := rfl
  rw [hval] at hc
  unfold String.utf8EncodeChar nul at hmem
  dsimp only at hmem
  repeat' split at hmem
  all_goals simp only [List.mem_cons, List.not_mem_nil, or_false] at hmem
  · omega
  · rcases hmem with h | h <;> have := mod_of_zero_eq_ofNat h <;> omega
  · rcases hmem with h | h | h <;> have := mod_of_zero_eq_ofNat h <;> omega
  · rcases hmem with h | h | h | h <;> have := mod_of_zero_eq_ofNat h <;> omega

theorem nul_mem_utf8EncodeChar_iff {c : Char} :
    nul ∈ String.utf8EncodeChar c ↔ c = nulChar := by
  constructor
  · intro hmem
    have hlt : c.toNat < 128 := Nat.not_le.mp fun hle => nul_not_mem_of_le hle hmem
    rw [utf8EncodeChar_of_lt hlt, List.mem_singleton] at hmem
    have hzero := mod_of_zero_eq_ofNat hmem
    rw [← Char.ofNat_toNat c, nulChar]
    exact congrArg Char.ofNat (by omega)
  · rintro rfl
    decide

/-- **A text has a NUL byte just when it has the character of that byte.** -/
theorem hasNul_ofString {s : String} :
    (ofString s).hasNul = true ↔ nulChar ∈ s.toList := by
  rw [hasNul, List.contains_iff_mem, ofString_eq, List.mem_flatMap]
  simp only [nul_mem_utf8EncodeChar_iff]
  exact ⟨fun ⟨_, hc, heq⟩ => heq ▸ hc, fun hmem => ⟨_, hmem, rfl⟩⟩

end CommandExpr.Bytes
