import CommandExpr.Bytes
import CommandExpr.Errno
import CommandExpr.Status
import CommandExpr.Text.Utf8

/-!
# Captured output

What is kept of the output of one stage, or of a whole subtree: at most a fixed number of bytes, a
mark that something was dropped, how the last stage ended, and the faults met on the way.

## Main definitions

* `Fault` — something that went wrong in a stage without ending the evaluation
* `Capture` — a bounded buffer with status and faults
* `Capture.append`, `Capture.concat` — more bytes, another capture

## Main statements

* `Capture.length_append_le` — appending never exceeds the capacity
* `Capture.append_append` — what is appended in pieces is appended
* `Capture.concat_assoc` — captures can be put together in any grouping
-/

namespace CommandExpr

/-- Something that went wrong in a stage without ending the evaluation. -/
inductive Fault where
  /-- The program could not be started. -/
  | notSpawned (program : String) (errno : Errno)
  /-- The program ended otherwise than with zero. -/
  | unsuccessful (program : String) (status : Status)
  deriving DecidableEq

/-- The line that reports a fault. -/
def Fault.display : Fault → String
  | notSpawned program errno => s!"{program}: failed to spawn: {errno.desc}"
  | unsuccessful program status => s!"{program}: {status.display}"

/-- Captured output. -/
structure Capture where
  /-- What was kept. -/
  bytes : Bytes
  /-- How much is kept at most. -/
  cap : Nat
  /-- Was anything dropped? -/
  isTruncated : Bool
  /-- How the last stage ended; none if it was never started. -/
  status : Option Status
  /-- The faults met on the way, in order. -/
  faults : List Fault
  deriving DecidableEq

namespace Capture

/-- An empty buffer with the given capacity. -/
def empty (cap : Nat) : Capture := ⟨[], cap, false, none, []⟩

/-- How many bytes more fit. -/
def room (c : Capture) : Nat := c.cap - c.bytes.length

/-- The buffer with as many of the bytes added as fit. -/
def append (c : Capture) (more : Bytes) : Capture :=
  { c with
    bytes := c.bytes ++ more.take c.room
    isTruncated := c.isTruncated || c.room < more.length }

/-- How many of the bytes an append keeps. -/
def kept (c : Capture) (more : Bytes) : Nat := min more.length c.room

/-- A buffer that was offered the given bytes. -/
def ofBytes (bytes : Bytes) (cap : Nat) : Capture := (empty cap).append bytes

/-- The buffer with another one's bytes added, that one's status, and both lists of faults. -/
def concat (c other : Capture) : Capture :=
  let joined := c.append other.bytes
  { joined with
    isTruncated := joined.isTruncated || other.isTruncated
    status := other.status
    faults := c.faults ++ other.faults }

/-- The buffer with one more fault after the others. -/
def pushFault (c : Capture) (fault : Fault) : Capture := { c with faults := c.faults ++ [fault] }

/-- The buffer with earlier faults in front of its own. -/
def prependFaults (c : Capture) (earlier : List Fault) : Capture :=
  { c with faults := earlier ++ c.faults }

/-- The buffer without faults. -/
def clearFaults (c : Capture) : Capture := { c with faults := [] }

/-- The buffer with the given status. -/
def withStatus (c : Capture) (status : Option Status) : Capture := { c with status }

/-- How many bytes are kept. -/
def length (c : Capture) : Nat := c.bytes.length

/-- Is nothing kept? -/
def isEmpty (c : Capture) : Bool := c.bytes.isEmpty

/-- Does nothing more fit? -/
def isFull (c : Capture) : Bool := c.cap ≤ c.bytes.length

/-- The kept bytes as text. -/
def text (c : Capture) : String := Utf8.decodeLossy c.bytes

theorem length_append (c : Capture) (more : Bytes) :
    (c.append more).length = c.length + c.kept more := by
  simp [append, length, kept, Nat.min_comm]

theorem length_append_le (c : Capture) (more : Bytes) (h : c.length ≤ c.cap) :
    (c.append more).length ≤ (c.append more).cap := by
  have hlen := length_append c more
  simp only [kept, room, length] at *
  have hcap : (c.append more).cap = c.cap := rfl
  omega

theorem append_nil (c : Capture) : c.append [] = c := by
  cases c
  simp [append]

/-- Appending twice is appending the whole. -/
theorem append_append (c : Capture) (first second : Bytes) :
    (c.append first).append second = c.append (first ++ second) := by
  have hroom : (c.append first).room = c.room - first.length := by
    simp only [append, room, List.length_append, List.length_take]
    omega
  have hbytes : first.take c.room ++ second.take (c.room - first.length)
      = (first ++ second).take c.room := by
    rw [List.take_append]
  have hcut : (c.isTruncated || decide (c.room < first.length)
        || decide (c.room - first.length < second.length))
      = (c.isTruncated || decide (c.room < (first ++ second).length)) := by
    rw [Bool.or_assoc, ← Bool.decide_or, List.length_append]
    congr 1
    exact decide_eq_decide.mpr (by omega)
  rw [append, hroom, append, append]
  simp only [List.append_assoc, hbytes, hcut]

/-- Two buffers may be put together first if the first of them is large enough for what it is put
into. -/
theorem concat_assoc {a b : Capture} (c : Capture) (hle : a.cap ≤ b.cap) :
    (a.concat b).concat c = a.concat (b.concat c) := by
  have hroom : (a.concat b).room = a.room - b.bytes.length := by
    simp only [concat, append, room, List.length_append, List.length_take]
    omega
  have hfits : a.room - b.bytes.length ≤ b.room := by
    simp only [room]
    omega
  have hbytes : a.bytes ++ b.bytes.take a.room ++ c.bytes.take (a.room - b.bytes.length)
      = a.bytes ++ (b.bytes ++ c.bytes.take b.room).take a.room := by
    rw [List.take_append, List.take_take, Nat.min_eq_left hfits, List.append_assoc]
  have hcut : (a.isTruncated || decide (a.room < b.bytes.length) || b.isTruncated
        || decide (a.room - b.bytes.length < c.bytes.length) || c.isTruncated)
      = (a.isTruncated || decide (a.room < (b.bytes ++ c.bytes.take b.room).length)
        || (b.isTruncated || decide (b.room < c.bytes.length) || c.isTruncated)) := by
    have hdrops : (a.room < b.bytes.length ∨ a.room - b.bytes.length < c.bytes.length)
        ↔ (a.room < (b.bytes ++ c.bytes.take b.room).length ∨ b.room < c.bytes.length) := by
      rw [List.length_append, List.length_take]
      omega
    rw [Bool.eq_iff_iff]
    simp only [Bool.or_eq_true, decide_eq_true_eq]
    grind
  rw [concat, append, hroom]
  simp only [concat, append, hbytes, hcut, List.append_assoc]
  rfl

/-- An empty buffer of the same capacity takes a buffer as it is. -/
theorem empty_concat {c : Capture} (hle : c.length ≤ c.cap) : (empty c.cap).concat c = c := by
  have hroom : (empty c.cap).room = c.cap := Nat.sub_zero _
  have hfits : ¬c.cap < c.bytes.length := Nat.not_lt.mpr hle
  have hbytes : c.bytes.take c.cap = c.bytes := List.take_of_length_le hle
  rw [concat, append, hroom, hbytes, decide_eq_false hfits]
  rfl

end Capture

end CommandExpr
