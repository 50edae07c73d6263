import CommandExpr.Errno
import CommandExpr.Path

/-!
# File trees

A tree of directories, files, symbolic links, devices and programs, kept as a table of nodes. A name
in a directory points to a node; a node whose name is removed stays readable through open files.

Every operation takes the node of the current directory, from which relative paths start. All files
belong to one user, who may do with a file what the first three permission bits say.

## Main definitions

* `FileTree.find` — what a path names, symbolic links followed
* `FileTree.createFile`, `FileTree.makeDirectory`, `FileTree.makeLink` — new names
* `FileTree.unlink`, `FileTree.removeDirectory`, `FileTree.rename` — names removed and moved
* `FileTree.listing` — all names below a directory
-/

namespace CommandExpr.Machine

/-- The place of a node in the table. -/
abbrev NodeId := Nat

/-- The devices. -/
inductive Device where
  /-- Reads as empty, swallows what is written. -/
  | null
  /-- Reads as zeros without end, swallows what is written. -/
  | zero
  /-- Reads as zeros without end, accepts nothing. -/
  | full
  /-- Reads as bytes that nobody foresees, swallows what is written; here they are zeros. -/
  | random
  /-- Stands for a terminal that is not there. -/
  | terminal
  deriving DecidableEq

attribute [instance (20000)] ByteArray.instDecidableEq

/-- What a node is. -/
inductive Node where
  /-- A file with its bytes and its permission bits. -/
  | file (data : ByteArray) (mode : Nat)
  /-- A directory with the node above it, its names, and its permission bits. -/
  | directory (parent : NodeId) (entries : List (Bytes × NodeId)) (mode : Nat)
  /-- A symbolic link. -/
  | link (target : Bytes)
  /-- A device. -/
  | device (d : Device)
  /-- A program that the machine knows by name. -/
  | image (name : String)
  /-- What a descriptor of the process that looks leads to. -/
  | descriptor (fd : Nat)
  /-- A pipe without a name, as a process sees it through a descriptor. -/
  | pipe
  deriving DecidableEq

namespace Node

/-- Is it a directory? -/
def isDirectory : Node → Bool
  | directory .. => true
  | _ => false

/-- The names in a directory. -/
def entries : Node → List (Bytes × NodeId)
  | directory _ entries _ => entries
  | _ => []

/-- The permission bits. -/
def mode : Node → Nat
  | file _ mode | directory _ _ mode => mode
  | link _ => 0o777
  | device _ => 0o666
  | image _ => 0o755
  | descriptor _ => 0o700
  | pipe => 0o600

/-- May the owner do what three permission bits ask for: four to read, two to write, one to run a
file or to look up names in a directory? -/
def allows (n : Node) (bits : Nat) : Bool := (n.mode >>> 6) &&& bits = bits

/-- The node with other permission bits, if it has any. -/
def withMode (n : Node) (mode : Nat) : Node :=
  match n with
  | file data _ => file data mode
  | directory parent entries _ => directory parent entries mode
  | n => n

end Node

/-- A tree of nodes; the first node is the root. -/
structure FileTree where
  /-- The nodes. -/
  nodes : Array Node

/-- Where the last name of a path leads. -/
structure Place where
  /-- The directory that holds the name. -/
  dir : NodeId
  /-- The name; empty for a path that ends at a directory without naming it. -/
  name : Bytes
  /-- The node that the name points to, if there is one. -/
  node? : Option NodeId
  /-- Does the path end with a slash? -/
  hasSlash : Bool

/-- Does the path end with a name, and not with dots or at a root? -/
def Place.isNamed (p : Place) : Bool :=
  !p.name.isEmpty && p.name ≠ [Path.dot] && p.name ≠ [Path.dot, Path.dot]

namespace FileTree

/-- The root. -/
def root : NodeId := 0

/-- A tree that holds nothing. -/
def empty : FileTree := ⟨#[.directory root [] 0o755]⟩

/-- A node of the tree. -/
def node (t : FileTree) (id : NodeId) : Node := t.nodes.getD id (.file .empty 0)

/-- The tree with a node changed. -/
def update (t : FileTree) (id : NodeId) (f : Node → Node) : FileTree := ⟨t.nodes.modify id f⟩

/-- The node that a name in a directory points to. -/
def entry? (t : FileTree) (dir : NodeId) (name : Bytes) : Option NodeId :=
  (t.node dir).entries.lookup name

/-- The directory above a directory. -/
def parent (t : FileTree) (dir : NodeId) : NodeId :=
  match t.node dir with
  | .directory parent _ _ => parent
  | _ => root

/-- The longest name. -/
def maxName : Nat := 255

/-- The longest path, its end mark included. -/
def maxPath : Nat := 4096

/-- The most symbolic links followed for one path. -/
def maxLinks : Nat := 40

/-- The name of the directory above. -/
def dotDot : Bytes := [Path.dot, Path.dot]

/-- The names of a path, empty ones left out. -/
def names (path : Bytes) : List Bytes := (Bytes.splitOn Bytes.slash path).filter (· ≠ [])

/-- Does a path start at the root? -/
def isAbsolute (path : Bytes) : Bool := path.head? = some Bytes.slash

/-- Does a path end with a slash? -/
def endsWithSlash (path : Bytes) : Bool := path.getLast? = some Bytes.slash

/-- May names be looked up in a directory? -/
def isSearchable (t : FileTree) (dir : NodeId) : Bool := (t.node dir).allows 1

/-- An error unless names in a directory may be made and removed. -/
def mayChange (t : FileTree) (dir : NodeId) : Except Errno Unit :=
  if (t.node dir).allows 3 then .ok () else .error .accessDenied

/-- Follow names from a directory. `links` more symbolic links may be followed, the last name is
followed if `follow` is set, and `fuel` bounds the names that are looked up. -/
def walk (t : FileTree) (follow : Bool) :
    Nat → Nat → NodeId → List Bytes → Bool → Except Errno Place
  | 0, _, _, _, _ => .error .linkLoop
  | _ + 1, _, dir, [], hasSlash => .ok ⟨dir, [], some dir, hasSlash⟩
  | fuel + 1, links, dir, name :: rest, hasSlash =>
    if !(t.node dir).isDirectory then .error .notDirectory
    else if !t.isSearchable dir then .error .accessDenied
    else if maxName < name.length then .error .nameTooLong
    else if name = [Path.dot] then walk t follow fuel links dir rest hasSlash
    else if name = dotDot then walk t follow fuel links (t.parent dir) rest hasSlash
    else match t.entry? dir name with
      | none => if rest.isEmpty then .ok ⟨dir, name, none, hasSlash⟩ else .error .notFound
      | some id =>
        match t.node id with
        | .link target =>
          if rest.isEmpty && !follow && !hasSlash then .ok ⟨dir, name, some id, hasSlash⟩
          else match links with
            | 0 => .error .linkLoop
            | links + 1 =>
              if target.isEmpty then .error .notFound
              else
                let start := if isAbsolute target then root else dir
                let slash := if rest.isEmpty then hasSlash || endsWithSlash target else hasSlash
                walk t follow fuel links start (names target ++ rest) slash
        | .directory .. =>
          if rest.isEmpty then .ok ⟨dir, name, some id, hasSlash⟩
          else walk t follow fuel links id rest hasSlash
        | _ =>
          if !rest.isEmpty || hasSlash then .error .notDirectory
          else .ok ⟨dir, name, some id, hasSlash⟩

/-- Where a path leads, its last name followed or not. -/
def place (t : FileTree) (cwd : NodeId) (path : Bytes) (follow : Bool) : Except Errno Place :=
  if path.isEmpty then .error .notFound
  else if maxPath ≤ path.length then .error .nameTooLong
  else
    let start := if isAbsolute path then root else cwd
    walk t follow (maxPath * (maxLinks + 2)) maxLinks start (names path) (endsWithSlash path)

/-- The node that a path names. -/
def find (t : FileTree) (cwd : NodeId) (path : Bytes) (follow : Bool) : Except Errno NodeId := do
  let place ← t.place cwd path follow
  match place.node? with
  | some id => .ok id
  | none => .error .notFound

/-- The entries with a name put in, in the place of an earlier entry of that name. -/
def putEntry (name : Bytes) (id : NodeId) : List (Bytes × NodeId) → List (Bytes × NodeId)
  | [] => [(name, id)]
  | (n, i) :: rest => if n = name then (n, id) :: rest else (n, i) :: putEntry name id rest

/-- The directory node with its entries changed. -/
def mapEntries (f : List (Bytes × NodeId) → List (Bytes × NodeId)) : Node → Node
  | .directory parent entries mode => .directory parent (f entries) mode
  | n => n

/-- The tree with a name in a directory pointing to a node. -/
def point (t : FileTree) (dir : NodeId) (name : Bytes) (id : NodeId) : FileTree :=
  t.update dir (mapEntries (putEntry name id))

/-- The tree with a name in a directory removed. -/
def erase (t : FileTree) (dir : NodeId) (name : Bytes) : FileTree :=
  t.update dir (mapEntries (·.filter fun (n, _) => n ≠ name))

/-- The tree with a new node under a name. -/
def insert (t : FileTree) (dir : NodeId) (name : Bytes) (n : Node) : FileTree × NodeId :=
  let id := t.nodes.size
  ((⟨t.nodes.push n⟩ : FileTree).point dir name id, id)

/-- Where the last name of a path is looked up, itself not followed: the place has the name as it
stands in the path, dots included, and no name for a root. -/
def slot (t : FileTree) (cwd : NodeId) (path : Bytes) : Except Errno Place := do
  if path.isEmpty then throw .notFound
  if maxPath ≤ path.length then throw .nameTooLong
  let start := if isAbsolute path then root else cwd
  let above ← walk t true (maxPath * (maxLinks + 2)) maxLinks start (names path).dropLast true
  match (names path).getLast?, above.node? with
  | none, _ => return ⟨root, [], some root, true⟩
  | some _, none => throw .notFound
  | some name, some dir =>
    if name = [Path.dot] || name = dotDot then return ⟨dir, name, some dir, endsWithSlash path⟩
    if !t.isSearchable dir then throw .accessDenied
    if maxName < name.length then throw .nameTooLong
    return ⟨dir, name, t.entry? dir name, endsWithSlash path⟩

/-- The place of a path whose last name is free; only a directory's may have a slash behind it. -/
def freeSlot (t : FileTree) (cwd : NodeId) (path : Bytes) (isDirectory : Bool) :
    Except Errno Place := do
  let place ← t.slot cwd path
  if place.node?.isSome then throw .alreadyExists
  if place.hasSlash && !isDirectory then throw .notFound
  t.mayChange place.dir
  return place

/-- The new node of a path whose last name is free. -/
def create (t : FileTree) (cwd : NodeId) (path : Bytes) (n : NodeId → Node) :
    Except Errno (FileTree × NodeId) := do
  let place ← t.freeSlot cwd path (n cwd).isDirectory
  return t.insert place.dir place.name (n place.dir)

/-- A new empty file; a symbolic link in its place counts as taken. -/
def createFile (t : FileTree) (cwd : NodeId) (path : Bytes) (mode : Nat) :
    Except Errno (FileTree × NodeId) := do
  if endsWithSlash path then
    let _ ← t.slot cwd path
    throw .isDirectory
  t.create cwd path fun _ => .file .empty mode

/-- A new empty directory. -/
def makeDirectory (t : FileTree) (cwd : NodeId) (path : Bytes) (mode : Nat) :
    Except Errno FileTree :=
  (t.create cwd path fun dir => .directory dir [] mode).map (·.1)

/-- A new symbolic link. -/
def makeLink (t : FileTree) (cwd : NodeId) (target path : Bytes) : Except Errno FileTree :=
  if target.isEmpty then .error .notFound
  else (t.create cwd path fun _ => .link target).map (·.1)

/-- A further name for a node. -/
def makeName (t : FileTree) (cwd : NodeId) (old new : Bytes) : Except Errno FileTree := do
  let id ← t.find cwd old false
  let place ← t.freeSlot cwd new false
  if (t.node id).isDirectory then throw .notPermitted
  return t.point place.dir place.name id

/-- Remove the name of something that is no directory. -/
def unlink (t : FileTree) (cwd : NodeId) (path : Bytes) : Except Errno FileTree := do
  let place ← t.slot cwd path
  match place.node? with
  | none => throw .notFound
  | some id =>
    if !place.isNamed then throw .isDirectory
    if place.hasSlash then
      throw (if (t.node id).isDirectory then .isDirectory else .notDirectory)
    t.mayChange place.dir
    if (t.node id).isDirectory then throw .isDirectory
    return t.erase place.dir place.name

/-- Remove an empty directory. -/
def removeDirectory (t : FileTree) (cwd : NodeId) (path : Bytes) : Except Errno FileTree := do
  let place ← t.slot cwd path
  if place.name = dotDot then throw .notEmpty
  if place.name = [Path.dot] then throw .invalidArgument
  if place.name.isEmpty then throw .busy
  match place.node? with
  | none => throw .notFound
  | some id =>
    t.mayChange place.dir
    if !(t.node id).isDirectory then throw .notDirectory
    if !(t.node id).entries.isEmpty then throw .notEmpty
    return t.erase place.dir place.name

/-- Does the first directory hold the second one, at any depth or as itself? -/
def holds (t : FileTree) (outer : NodeId) : Nat → NodeId → Bool
  | 0, _ => false
  | fuel + 1, inner => inner = outer || (inner ≠ root && t.holds outer fuel (t.parent inner))

/-- Move a name, in the place of one that may be there already. -/
def rename (t : FileTree) (cwd : NodeId) (old new : Bytes) : Except Errno FileTree := do
  let source ← t.slot cwd old
  let target ← t.slot cwd new
  if !source.isNamed || !target.isNamed then throw .busy
  match source.node? with
  | none => throw .notFound
  | some id =>
    let isDirectory := (t.node id).isDirectory
    if !isDirectory && (source.hasSlash || target.hasSlash) then throw .notDirectory
    if isDirectory && t.holds id t.nodes.size target.dir then throw .invalidArgument
    if target.node?.any fun other => t.holds other t.nodes.size source.dir then throw .notEmpty
    if target.node? = some id then return t
    t.mayChange source.dir
    t.mayChange target.dir
    if let some other := target.node? then
      if isDirectory && !(t.node other).isDirectory then throw .notDirectory
      if !isDirectory && (t.node other).isDirectory then throw .isDirectory
      if !(t.node other).entries.isEmpty then throw .notEmpty
    let t := (t.erase source.dir source.name).point target.dir target.name id
    return t.update id fun
      | .directory _ entries mode => .directory target.dir entries mode
      | n => n

/-- Make a directory and those above it that are missing. -/
def makeDirectories (t : FileTree) (cwd : NodeId) (path : Bytes) : FileTree :=
  let step : FileTree × NodeId → Bytes → FileTree × NodeId := fun (t, dir) name =>
    match t.find dir name true with
    | .ok id => (t, id)
    | .error _ => t.insert dir name (.directory dir [] 0o755)
  ((names path).foldl step (t, if isAbsolute path then root else cwd)).1

/-- Write bytes into a file at an offset; a gap is filled with zeros. -/
def splice (data : ByteArray) (offset : Nat) (bytes : Bytes) : ByteArray :=
  let added := bytes.toByteArray
  if offset = data.size then data ++ added
  else
    let gap := (List.replicate (offset - data.size) (0 : UInt8)).toByteArray
    data.extract 0 offset ++ gap ++ added ++ data.extract (offset + added.size) data.size

/-- The bytes of a file from an offset on, at most so many. -/
def slice (data : ByteArray) (offset count : Nat) : Bytes :=
  (data.extract offset (offset + count)).toList

/-- The tree with the bytes of a file changed. -/
def mapData (t : FileTree) (id : NodeId) (f : ByteArray → ByteArray) : FileTree :=
  t.update id fun
    | .file data mode => .file (f data) mode
    | n => n

/-- All names below a directory with their nodes, each with its path from there. -/
def listing (t : FileTree) : Nat → NodeId → List (Bytes × Node)
  | 0, _ => []
  | fuel + 1, dir =>
    (t.node dir).entries.flatMap fun (name, id) =>
      let below := (t.listing fuel id).map fun (path, n) => (name ++ Bytes.slash :: path, n)
      (name, t.node id) :: below

end FileTree

end CommandExpr.Machine
