import CommandExpr.Errno

/-!
# Failures of input and output

A failure as the file layer reports it: its kind and its text. Most come from the operating system;
a path with a NUL byte is refused before the system sees it.
-/

namespace CommandExpr

/-- A failed operation on a file or a descriptor. -/
structure IoError where
  /-- What went wrong, coarsely. -/
  kind : IoKind
  /-- The text shown for it. -/
  text : String
  deriving DecidableEq

namespace IoError

/-- The failure that the operating system reports by a number. -/
def ofCode (n : Int) : IoError :=
  let known : Option ErrnoRow := match n with
    | .ofNat k => errnoTable[k]?
    | .negSucc _ => none
  match known with
  | some row => ⟨row.kind, s!"{row.message} (os error {n})"⟩
  | none => ⟨.uncategorized, s!"Unknown error {n} (os error {n})"⟩

/-- The failure that the operating system reports by an error code. -/
def ofErrno (e : Errno) : IoError := ofCode e.code

/-- A failure of which only the kind is known. -/
def ofKind (kind : IoKind) : IoError := ⟨kind, kind.text⟩

/-- A path that cannot be handed to the operating system. -/
def nulInPath : IoError := ⟨.invalidInput, "file name contained an unexpected NUL byte"⟩

end IoError

end CommandExpr
