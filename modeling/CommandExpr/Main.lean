import CommandExpr.CommandLine
import CommandExpr.Machine.World
import CommandExpr.Text.Duration

/-!
# The program

The command line on a machine that was just set up. The arguments, the standard input and the
variables of the library are those of the program; the programs that it runs are the machine's.
-/

namespace CommandExpr.Main

/-- The variables that the program looks at. -/
def lookedAt : List String :=
  [Configuration.captureCapVariable, Configuration.relayDirVariable,
    Configuration.timeoutVariable, Level.variableName]

/-- How the program writes process numbers and spans of time. -/
def plainWording : Notice.Wording := ⟨toString, Duration.text⟩

/-- Read a stream to its end. -/
partial def readToEnd (stream : IO.FS.Stream) (seen : ByteArray) : IO ByteArray := do
  let more ← stream.read 65536
  if more.isEmpty then return seen else readToEnd stream (seen ++ more)

end CommandExpr.Main

open CommandExpr CommandExpr.Main

/-- Carry the command line out. -/
def main (args : List String) : IO UInt32 := do
  let set ← lookedAt.filterMapM fun name => do
    return (← IO.getEnv name).map fun value => (name, value)
  let strings := ("PATH", "/usr/bin:/bin") :: set
  let env := strings.map fun (name, value) =>
    Machine.EnvStrings.string (Bytes.ofString name) (Bytes.ofString value)
  let input ← readToEnd (← IO.getStdin) .empty
  let world := Machine.World.fresh env input.toList
  let request := CommandLine.parse (args.map Bytes.ofString)
  let (code, session) := (CommandLine.perform Machine.World.host set request).run ⟨0, world⟩
  let level := Level.ofText ((set.lookup Level.variableName).getD "")
  let output := session.machine.output
  let diagnostics := session.machine.diagnostics level plainWording
  (← IO.getStdout).write ⟨output.toArray⟩
  (← IO.getStderr).write ⟨diagnostics.toArray⟩
  return code
