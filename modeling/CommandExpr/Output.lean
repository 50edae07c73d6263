import CommandExpr.Host

/-!
# Writing to the host's standard output

The host may accept fewer bytes than it is offered, or be interrupted; the rest is offered again.
-/

namespace CommandExpr.Output

variable {σ : Type}

/-- Write all the bytes, within so many answers of the host. -/
def writeFrom (h : Host σ) : Nat → Bytes → Action σ (Except Failure Unit)
  | _, [] => return .ok ()
  | 0, _ => return .error .stalled
  | fuel + 1, bytes => do
    match ← Host.call (h.writeOut bytes) with
    | .ok 0 => return .error .writeZero
    | .ok n => writeFrom h fuel (bytes.drop n)
    | .error e =>
      if e = .interrupted then writeFrom h fuel bytes else return .error (.ofErrno e)

/-- Write all the bytes. -/
def writeAll (h : Host σ) (bytes : Bytes) : Action σ (Except Failure Unit) := do
  writeFrom h (← h.budget) bytes

end CommandExpr.Output
