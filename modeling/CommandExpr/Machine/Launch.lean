import CommandExpr.Machine.Program
import CommandExpr.Text.Latin

/-!
# Launching programs by name

A name with a slash is a path; any other name is looked for in the directories of the search path. A
file that is executable but in no format that the machine knows is given to the shell.

## Main definitions

* `Variable` — the variables of an environment
* `Task.launch` — turn into the program of a name, or the error that says why not
-/

namespace CommandExpr.Machine

/-- The environment strings: a name, an equals sign, a value. -/
abbrev EnvStrings := List Bytes

namespace EnvStrings

/-- The byte between a name and its value. -/
def equals : UInt8 := 61

/-- The name in an environment string. -/
def nameOf (s : Bytes) : Bytes := s.takeWhile (· ≠ equals)

/-- The value in an environment string. -/
def valueOf (s : Bytes) : Bytes := (s.dropWhile (· ≠ equals)).drop 1

/-- The value of a name. -/
def get? (env : EnvStrings) (name : String) : Option Bytes :=
  (env.find? fun s => nameOf s = Bytes.ofString name).map valueOf

/-- The environment without a name. -/
def erase (env : EnvStrings) (name : Bytes) : EnvStrings := env.filter fun s => nameOf s ≠ name

/-- The environment with an environment string put in. -/
def put (env : EnvStrings) (s : Bytes) : EnvStrings := env.erase (nameOf s) ++ [s]

/-- The string of a name and a value. -/
def string (name value : Bytes) : Bytes := name ++ equals :: value

end EnvStrings

namespace Task

/-- The shell that runs scripts without an interpreter of their own. -/
def shellPath : Bytes := Bytes.ofString "/bin/sh"

/-- The search path where there is no other one. -/
def defaultSearch : Bytes := Bytes.ofString "/bin:/usr/bin"

/-- Turn into the program of a path; a script without an interpreter goes to the shell. The error,
if it fails. -/
def execPath (path : Bytes) (argv : List Bytes) (env : EnvStrings) : Task Errno := do
  match ← attempt (.exec path argv env) with
  | .error e =>
    if e = .execFormat then
      match ← attempt (.exec shellPath (shellPath :: path :: argv.drop 1) env) with
      | .error e => return e
      | .ok () => return e
    else return e
  | .ok () => return .notFound

/-- The errors after which the search goes on. -/
def isPassedOver (e : Errno) : Bool :=
  e = .accessDenied || e = .notFound || e = .notDirectory

/-- Turn into the program of a name in one of the directories; the error, if it fails. That a
program may not be run counts more than that another one is missing. -/
def search (name : Bytes) (argv : List Bytes) (env : EnvStrings) :
    Bool → List Bytes → Task Errno
  | wasDenied, [] => return if wasDenied then .accessDenied else .notFound
  | wasDenied, dir :: rest => do
    let path := if dir.isEmpty then name else dir ++ Bytes.slash :: name
    let e ← execPath path argv env
    if isPassedOver e then search name argv env (wasDenied || e = .accessDenied) rest else return e

/-- Turn into the program of a name; the error, if it fails. -/
def launch (name : Bytes) (argv : List Bytes) (env : EnvStrings) : Task Errno :=
  if name.isEmpty then return .notFound
  else if name.contains Bytes.slash then execPath name argv env
  else if FileTree.maxName < name.length then return .nameTooLong
  else search name argv env false
    (Bytes.splitOn 58 ((env.get? "PATH").getD defaultSearch))

end Task

end CommandExpr.Machine
