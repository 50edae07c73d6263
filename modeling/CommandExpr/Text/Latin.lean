import CommandExpr.Bytes

/-!
# Bytes as characters

A byte string seen as a list of the first 256 characters, one a byte. Programs whose syntax is ASCII
read their text this way, and every other byte passes through them unchanged.
-/

namespace CommandExpr.Latin

/-- Each byte as the character of the same number. -/
def ofBytes (s : Bytes) : List Char := s.map fun b => Char.ofNat b.toNat

/-- Each character as the byte of the same number. -/
def toBytes (s : List Char) : Bytes := s.map fun c => UInt8.ofNat c.toNat

theorem toBytes_ofBytes (s : Bytes) : toBytes (ofBytes s) = s := by
  have h (b : UInt8) : UInt8.ofNat (Char.ofNat b.toNat).toNat = b := by
    have hv : (b.toNat).isValidChar := Or.inl (by have := b.toNat_lt; omega)
    rw [Char.ofNat, dif_pos hv]
    exact UInt8.ofNat_toNat
  simp [toBytes, ofBytes, Function.comp_def, h]

end CommandExpr.Latin
