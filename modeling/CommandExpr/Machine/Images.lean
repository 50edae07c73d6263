import CommandExpr.Machine.Kernel
import CommandExpr.Machine.Shell.Execution
import CommandExpr.Machine.Utility.Condition
import CommandExpr.Machine.Utility.Digest
import CommandExpr.Machine.Utility.Echo
import CommandExpr.Machine.Utility.Encoding
import CommandExpr.Machine.Utility.Files
import CommandExpr.Machine.Utility.Grep
import CommandExpr.Machine.Utility.Lines
import CommandExpr.Machine.Utility.Listing
import CommandExpr.Machine.Utility.Printf
import CommandExpr.Machine.Utility.Session
import CommandExpr.Machine.Utility.Storage
import CommandExpr.Machine.Utility.Table
import CommandExpr.Machine.Utility.Translate

/-!
# The programs of a machine

The utilities and the shell by name, and the file tree in which they are found.

## Main definitions

* `Images.program` — what the program of a name does
* `Images.tree` — the files of a machine that was just set up
-/

namespace CommandExpr.Machine.Images

/-- The utilities by name. -/
def utilities : List (String × Utility) :=
  [("[", Utility.bracket),
    ("base32", Utility.base32),
    ("base64", Utility.base64),
    ("basename", Utility.basename),
    ("cat", Utility.cat),
    ("chmod", Utility.chmod),
    ("cksum", Utility.cksum),
    ("comm", Utility.comm),
    ("cp", Utility.cp),
    ("cut", Utility.cut),
    ("dd", Utility.dd),
    ("dirname", Utility.dirname),
    ("echo", Utility.echo),
    ("egrep", Utility.grepAs "-E"),
    ("env", Utility.env),
    ("expand", Utility.expand),
    ("expr", Utility.expr),
    ("factor", Utility.factor),
    ("false", Utility.fail),
    ("fgrep", Utility.grepAs "-F"),
    ("fold", Utility.fold),
    ("grep", Utility.grep),
    ("groups", Utility.whoami),
    ("head", Utility.head),
    ("id", Utility.id),
    ("join", Utility.join),
    ("link", Utility.link),
    ("ln", Utility.ln),
    ("ls", Utility.ls),
    ("md5sum", Utility.digestOf Digest.md5),
    ("mkdir", Utility.mkdir),
    ("mktemp", Utility.mktemp),
    ("mv", Utility.mv),
    ("nice", Utility.nice),
    ("nl", Utility.nl),
    ("nohup", Utility.nohup),
    ("od", Utility.od),
    ("paste", Utility.paste),
    ("printenv", Utility.printenv),
    ("printf", Utility.printf),
    ("pwd", Utility.pwd),
    ("readlink", Utility.readlink),
    ("realpath", Utility.realpath),
    ("rm", Utility.rm),
    ("rmdir", Utility.rmdir),
    ("seq", Utility.seq),
    ("sha1sum", Utility.digestOf Digest.sha1),
    ("sha224sum", Utility.digestOf Digest.sha224),
    ("sha256sum", Utility.digestOf Digest.sha256),
    ("shuf", Utility.shuf),
    ("sleep", Utility.sleep),
    ("sort", Utility.sort),
    ("split", Utility.split),
    ("stat", Utility.stat),
    ("stdbuf", Utility.stdbuf),
    ("sum", Utility.sum),
    ("sync", Utility.succeed),
    ("tac", Utility.tac),
    ("tail", Utility.tail),
    ("tee", Utility.tee),
    ("test", Utility.test),
    ("timeout", Utility.timeout),
    ("touch", Utility.touch),
    ("tr", Utility.tr),
    ("true", Utility.succeed),
    ("truncate", Utility.truncate),
    ("tty", Utility.tty),
    ("uname", Utility.uname),
    ("unexpand", Utility.unexpand),
    ("uniq", Utility.uniq),
    ("unlink", Utility.unlink),
    ("wc", Utility.wc),
    ("whoami", Utility.whoami),
    ("yes", Utility.yes)]

/-- The names of the shell. -/
def shellNames : List String := ["sh", "dash"]

/-- The names of all programs. -/
def names : List String := shellNames ++ utilities.map (·.1)

/-- The name under which a program complains: the first word of its argument vector. -/
def titleOf (name : String) (argv : List Bytes) : String :=
  match argv with
  | [] => name
  | first :: _ => Utf8.decodeLossy first

/-- What the program of a name does with an argument vector and an environment. -/
def program (name : String) (argv env : List Bytes) : Program :=
  if shellNames.contains name then (Shell.program argv env).toProgram
  else match utilities.lookup name with
    | some u => (u ⟨titleOf name argv, argv.drop 1, env⟩).toProgram
    | none => .exit 127

/-- Where the programs are. -/
def directory : Bytes := Bytes.ofString "/usr/bin"

/-- The directories of a machine that was just set up. -/
def directories : List String :=
  ["/boot", "/dev/fd", "/etc", "/home", "/media", "/mnt", "/opt", "/proc", "/root", "/run", "/srv",
    "/sys", "/tmp", "/usr/lib", "/usr/lib64", "/usr/local/bin", "/usr/sbin", "/usr/share", "/var"]

/-- The links at the root by name, with what they lead to. -/
def links : List (String × String) :=
  [("bin", "usr/bin"), ("lib", "usr/lib"), ("lib64", "usr/lib64"), ("sbin", "usr/sbin")]

/-- The list of users. -/
def users : Bytes := Bytes.ofString "root:x:0:0:root:/root:/bin/bash\n"

/-- The devices by name. -/
def devices : List (String × Device) :=
  [("full", .full), ("null", .null), ("random", .random), ("tty", .terminal), ("urandom", .random),
    ("zero", .zero)]

/-- The names of descriptors. -/
def descriptors : List (String × Nat) := [("stderr", 2), ("stdin", 0), ("stdout", 1)]

/-- How many descriptors have a number for a name. -/
def numberedDescriptors : Nat := 10

/-- The tree with nodes put into one of its directories. -/
def fill (t : FileTree) (path : Bytes) (nodes : List (String × Node)) : FileTree :=
  let t := t.makeDirectories FileTree.root path
  match t.find FileTree.root path true with
  | .error _ => t
  | .ok dir => nodes.foldl (fun t (name, n) => (t.insert dir (Bytes.ofString name) n).1) t

/-- The files of a machine that was just set up. -/
def tree : FileTree :=
  let t := directories.foldl (fun t path => t.makeDirectories FileTree.root (Bytes.ofString path))
    FileTree.empty
  let t := fill t (Bytes.ofString "/dev") (devices.map fun (name, d) => (name, .device d))
  let t := fill t (Bytes.ofString "/dev")
    (descriptors.map fun (name, fd) => (name, .descriptor fd))
  let t := fill t (Bytes.ofString "/dev/fd")
    ((List.range numberedDescriptors).map fun fd => (toString fd, .descriptor fd))
  let t := fill t directory (names.map fun name => (name, .image name))
  let t := fill t (Bytes.ofString "/etc") [("passwd", .file users.toByteArray 0o644)]
  fill t [Bytes.slash] (links.map fun (name, target) => (name, .link (Bytes.ofString target)))

end CommandExpr.Machine.Images
