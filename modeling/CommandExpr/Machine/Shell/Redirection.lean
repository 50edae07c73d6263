import CommandExpr.Machine.Shell.Expansion

/-!
# Redirections

Descriptors lead elsewhere while a command runs. What they led to before is kept in copies that
programs do not inherit, and put back afterwards.

## Main definitions

* `Redirection.push` — redirect, and say what has to be put back
* `Redirection.pop` — put it back
-/

namespace CommandExpr.Machine.Shell.Redirection

/-- What a descriptor led to before: its number, and a copy of it if it was open. -/
structure Saved where
  /-- The descriptor. -/
  fd : Nat
  /-- The copy. -/
  copy : Option Nat

/-- How a file is opened for a redirection. -/
def mode : RedirectKind → OpenMode
  | .output | .overwrite => { isWritable := true, creates := true, truncates := true }
  | .append => { isWritable := true, creates := true, isAppending := true }
  | .both => { isReadable := true, isWritable := true, creates := true }
  | _ => { isReadable := true }

/-- Why a file could not be opened. -/
def failure (kind : RedirectKind) (path : Chars) (e : Errno) : Chars :=
  let isMissing := e = .notFound || e = .notDirectory
  let creates := (mode kind).creates
  let reason := if isMissing then (if creates then "Directory nonexistent" else "No such file")
    else e.row.message
  (if creates then "cannot create " else "cannot open ").toList ++ path ++ ": ".toList
    ++ reason.toList

/-- Let a descriptor lead to what a further one leads to, and close that one. -/
def moveTo (source target : Nat) : Task Unit := do
  if source ≠ target then
    let _ ← Task.attempt (.redirect source target)
    let _ ← Task.attempt (.close source)

/-- Let a descriptor read a text; a process of its own writes what a pipe does not hold. -/
def document (fd : Nat) (text : Bytes) : Task Unit := do
  match ← Task.ask .pipe with
  | .pair source sink =>
    if text.length ≤ Task.chunk then
      let _ ← Task.write sink text
    else
      let writer : Task Nat := do
        let _ ← Task.attempt (.close source)
        let _ ← Task.write sink text
        return 0
      let _ ← Task.fork writer.toProgram
    let _ ← Task.attempt (.close sink)
    moveTo source fd
  | _ => return ()

/-- Carry out a redirection; why not, if it cannot be. -/
def apply (out : Outputs) (r : Redirect) : Run (Option Chars) := do
  match r.kind with
  | .document =>
    let text ← single out r.word
    (document r.fd (Latin.toBytes text) : Task Unit)
    return none
  | .copy =>
    let text ← single out r.word
    if text = ['-'] then
      let _ ← (Task.attempt (.close r.fd) : Task (Except Errno Unit))
      return none
    else match Numeral.digits? text with
      | none => return some "Bad fd number".toList
      | some source =>
        match ← (Task.attempt (.redirect source r.fd) : Task (Except Errno Unit)) with
        | .ok () => return none
        | .error e => return some (text ++ ": ".toList ++ e.row.message.toList)
  | kind =>
    let path ← single out r.word
    if kind = .output && (← get).hasFlag 'C' then
      if let .ok ⟨.file .., _, _⟩ ← (Task.info (Latin.toBytes path) true : Task _) then
        return some ("cannot create ".toList ++ path ++ ": File exists".toList)
    match ← (Task.open (Latin.toBytes path) (mode kind) : Task (Except Errno Nat)) with
    | .error e => return some (failure kind path e)
    | .ok source =>
      (moveTo source r.fd : Task Unit)
      return none

/-- Put back what descriptors led to before. -/
def pop (saved : List Saved) : Task Unit := do
  for s in saved do
    match s.copy with
    | some copy => moveTo copy s.fd
    | none =>
      let _ ← Task.attempt (.close s.fd)

/-- Redirect in order. What has to be put back, the last one first, if `keeps` is set; or none, if
a redirection failed, which is complained of. -/
def push (out : Outputs) (keeps : Bool) : List Saved → List Redirect → Run (Option (List Saved))
  | saved, [] => return some saved
  | saved, r :: rest => do
    let saved ←
      if keeps then do
        match ← (Task.ask (.save r.fd) : Task Reply) with
        | .number copy => pure (⟨r.fd, some copy⟩ :: saved)
        | _ => pure (⟨r.fd, none⟩ :: saved)
      else pure saved
    match ← apply out r with
    | none => push out keeps saved rest
    | some message =>
      complain message
      (pop saved : Task Unit)
      return none

end CommandExpr.Machine.Shell.Redirection
