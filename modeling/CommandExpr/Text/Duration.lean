/-!
# Spans of time as text

A span is written in the largest of seconds, milliseconds, microseconds and nanoseconds that it
reaches, with as many decimal places as it needs and no zero at their end.
-/

namespace CommandExpr.Duration

/-- The units below which a smaller one is taken: nanoseconds, decimal places, name. -/
def units : List (Nat × Nat × String) := [(1000000000, 9, "s"), (1000000, 6, "ms"), (1000, 3, "µs")]

/-- The decimal places of a fraction of the given width, without zeros at their end. -/
def places (fraction width : Nat) : List Char :=
  let digits := Nat.toDigits 10 fraction
  let padded := List.replicate (width - digits.length) '0' ++ digits
  (padded.reverse.dropWhile (· = '0')).reverse

/-- A span in nanoseconds, as text. -/
def text (nanoseconds : Nat) : String :=
  match units.find? fun (size, _) => size ≤ nanoseconds with
  | none => s!"{nanoseconds}ns"
  | some (size, width, name) =>
    let shown := places (nanoseconds % size) width
    let point := if shown.isEmpty then "" else "."
    s!"{nanoseconds / size}{point}{String.ofList shown}{name}"

end CommandExpr.Duration
