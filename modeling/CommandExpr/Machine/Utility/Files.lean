import CommandExpr.Machine.Utility.Basic

/-!
# Files and directories

The utilities that make, remove, copy and move files.

## Main definitions

* `Utility.rm`, `Utility.rmdir`, `Utility.mkdir`, `Utility.touch`, `Utility.ln`, `Utility.chmod`
* `Utility.cp`, `Utility.mv`
-/

namespace CommandExpr.Machine.Utility

/-- How deep directories are followed. -/
def deepest : Nat := 2048

/-- The path of a name in a directory. -/
def inside (dir name : Bytes) : Bytes := (Path.join ⟨dir⟩ name).bytes

/-- A path without slashes at its end; a root keeps one. -/
def withoutSlashes (path : Bytes) : Bytes :=
  let kept := (path.reverse.dropWhile (· = Bytes.slash)).reverse
  if kept.isEmpty then path.take 1 else kept

/-- The last name of a path. -/
def lastName (path : Bytes) : Bytes :=
  let kept := withoutSlashes path
  if kept = [Bytes.slash] then kept
  else (kept.reverse.takeWhile (· ≠ Bytes.slash)).reverse

/-- The path of the directory that a path's last name is in. -/
def dirOf (path : Bytes) : Bytes :=
  let kept := withoutSlashes path
  let front := kept.take (kept.length - (lastName path).length)
  if kept = [Bytes.slash] then kept
  else if front.isEmpty then [Path.dot]
  else withoutSlashes front

/-- Run tasks on paths; the greatest code. -/
def overPaths (paths : List Bytes) (body : Bytes → Task Nat) : Task Nat := do
  let mut code := 0
  for path in paths do
    code := max code (← body path)
  return code

/-- A complaint: what could not be done with a path, and why. -/
def failed (name what : String) (path : Bytes) (e : Errno) : Task Nat := do
  complain name [Bytes.ofString (what ++ " "), quoted path, Bytes.ofString ": ", reason e]
  return 1

/-- Make a request about a path; a complaint if it fails, and a line that tells of it if it does not
and that is asked for. -/
def doing (name what : String) (path : Bytes) (r : Request) (tells : Bool := false)
    (done : String := "") : Task Nat := do
  match ← Task.attempt r with
  | .ok () =>
    if tells then
      let _ ← Task.write 1 (Bytes.ofString done ++ quoted path ++ [Bytes.newline])
    return 0
  | .error e => failed name what path e

/-- Is a path that of a directory, links followed? -/
def isDirectoryAt (path : Bytes) : Task Bool := do
  match ← Task.info path true with
  | .ok i => return i.node.isDirectory
  | .error _ => return false

/-- Is a path that of a symbolic link? -/
def isLinkAt (path : Bytes) : Task Bool := do
  match ← Task.info path false with
  | .ok ⟨.link _, _, _⟩ => return true
  | _ => return false

/-! ## Removing -/

/-- Remove a path and what is below it, and tell of each of them if that is asked for. -/
def removeDeep (name : String) (tells : Bool) : Nat → Bytes → Task Nat
  | 0, _ => return 1
  | fuel + 1, path => do
    match ← Task.info path false with
    | .error e => failed name "cannot remove" path e
    | .ok i =>
      if i.node.isDirectory then
        if !i.node.entries.isEmpty && !i.node.allows 5 then
          return ← failed name "cannot remove" path .accessDenied
        let code ← overPaths (i.node.entries.map fun (n, _) => inside path n)
          (removeDeep name tells fuel)
        if code = 0 then
          doing name "cannot remove" path (.removeDirectory path) tells "removed directory "
        else return code
      else doing name "cannot remove" path (.unlink path) tells "removed "

/-- Does a path end with a name of one or two dots? -/
def endsInDots (path : Bytes) : Bool := [[Path.dot], FileTree.dotDot].contains (lastName path)

/-- Remove files. -/
def rm : Utility :=
  let table : OptionTable :=
    { flags := "frRidv".toList
      long := [("force", 'f'), ("recursive", 'r'), ("dir", 'd'), ("verbose", 'v')] }
  withUsage table 1 fun i u => do
    let isRecursive := u.has 'r' || u.has 'R'
    if u.operands.isEmpty && !u.has 'f' then missingOperand i.name
    else overPaths u.operands fun path => do
      match ← Task.info path false with
      | .error _ =>
        match ← Task.attempt (.unlink path) with
        | .ok () => return 0
        | .error e =>
          if u.has 'f' && (e = .notFound || e = .notDirectory) then return 0
          else failed i.name "cannot remove" path e
      | .ok info =>
        if !info.node.isDirectory then
          doing i.name "cannot remove" path (.unlink path) (u.has 'v') "removed "
        else if !isRecursive && !u.has 'd' then
          failed i.name "cannot remove" path .isDirectory
        else if !isRecursive && !info.node.entries.isEmpty then
          failed i.name "cannot remove" path .notEmpty
        else if endsInDots path then
          complain i.name [Bytes.ofString "refusing to remove '.' or '..' directory: skipping ",
            quoted path]
          return 1
        else removeDeep i.name (u.has 'v') deepest path

/-- Remove empty directories. -/
def rmdir : Utility :=
  let table : OptionTable :=
    { flags := "pv".toList
      long := [("parents", 'p'), ("verbose", 'v'), ("ignore-fail-on-non-empty", 'i')] }
  withUsage table 1 fun i u => do
    let remove (what : String) (path : Bytes) : Task (Option Nat) := do
      if u.has 'v' then
        let _ ← Task.write 1
          (Bytes.ofString (i.name ++ ": removing directory, ") ++ quoted path ++ [Bytes.newline])
      match ← Task.attempt (.removeDirectory path) with
      | .ok () => return none
      | .error e =>
        if u.has 'i' && e = .notEmpty then return some 0
        if e = .notDirectory && FileTree.endsWithSlash path && (← isLinkAt (withoutSlashes path)) then
          complain i.name [Bytes.ofString (what ++ " "), quoted path,
            Bytes.ofString ": Symbolic link not followed"]
          return some 1
        return some (← failed i.name what path e)
    if u.operands.isEmpty then missingOperand i.name
    else overPaths u.operands fun path => do
      if let some code ← remove "failed to remove" path then return code
      if u.has 'p' then
        let mut above := dirOf path
        for _ in List.range (path.filter (· = Bytes.slash)).length do
          if above ≠ [Path.dot] && above ≠ [Bytes.slash] then
            if let some code ← remove "failed to remove directory" above then return code
            above := dirOf above
      return 0

/-! ## Permission bits -/

/-- The bits that letters stand for, for everybody. -/
def permissionBits (isDirectory : Bool) (old : Nat) (letters : Chars) : Nat :=
  letters.foldl (fun bits c =>
    bits ||| (if c = 'r' then 0o444 else if c = 'w' then 0o222 else if c = 'x' then 0o111
      else if c = 'X' && (isDirectory || old &&& 0o111 ≠ 0) then 0o111 else 0)) 0

/-- The bits of those whom letters name; of everybody but for what new files lack if none does. -/
def classBits (mask : Nat) (letters : Chars) : Nat :=
  if letters.isEmpty then 0o777 - (0o777 &&& mask)
  else letters.foldl (fun bits c =>
    bits ||| (if c = 'u' then 0o700 else if c = 'g' then 0o070 else if c = 'o' then 0o007
      else 0o777)) 0

/-- The bits of one class of users, for everybody. -/
def spreadBits (old shift : Nat) : Nat :=
  let bits := (old >>> shift) &&& 7
  bits * 0o111

/-- Permission bits after the operations that follow the users of a change; the fuel bounds them. -/
def operatedMode (isDirectory : Bool) (mask : Nat) (who : Chars) :
    Nat → Nat → Chars → Option Nat
  | 0, _, _ => none
  | fuel + 1, old, change =>
    match change with
    | sign :: rest =>
      let letters := rest.takeWhile fun c => !"+-=".toList.contains c
      let allowed := classBits mask who
      let plain := match letters with
        | ['u'] => some (spreadBits old 6)
        | ['g'] => some (spreadBits old 3)
        | ['o'] => some (spreadBits old 0)
        | _ =>
          if letters.all "rwxXst".toList.contains then some (permissionBits isDirectory old letters)
          else none
      let special :=
        (if letters.contains 's' && (who.isEmpty || who.contains 'u' || who.contains 'a')
          then 0o4000 else 0)
        ||| (if letters.contains 's' && (who.isEmpty || who.contains 'g' || who.contains 'a')
          then 0o2000 else 0)
        ||| (if letters.contains 't' && (who.isEmpty || who.contains 'o' || who.contains 'a')
          then 0o1000 else 0)
      let everyone := if who.isEmpty then 0o777 else allowed
      let new := plain.bind fun bits =>
        let bits := (bits &&& allowed) ||| special
        if sign = '+' then some (old ||| bits)
        else if sign = '-' then some (old - (old &&& bits))
        else if sign = '=' then some (old - (old &&& everyone) ||| bits)
        else none
      let after := rest.drop letters.length
      if after.isEmpty then new else new.bind fun old => operatedMode isDirectory mask who fuel old after
    | [] => none

/-- Permission bits after a change such as `u+x`, where new files lack some of them. -/
def changedMode (isDirectory : Bool) (mask : Nat) (old : Nat) (change : Chars) : Option Nat :=
  let who := change.takeWhile "ugoa".toList.contains
  operatedMode isDirectory mask who (change.length + 1) old (change.drop who.length)

/-- Permission bits as a text tells: an octal number, or changes. -/
def modeOf (isDirectory : Bool) (mask old : Nat) (text : Chars) : Option Nat :=
  if !text.isEmpty && text.all fun c => '0' ≤ c && c ≤ '7' then
    let n := text.foldl (fun n c => n * 8 + (c.toNat - 48)) 0
    if n < 0o10000 then some n else none
  else
    (text.splitOn ',').foldlM (changedMode isDirectory mask) old

/-- The permission bits that new files do not get. -/
def currentMask : Task Nat := do
  match ← Task.ask (.setMask 0) with
  | .number old =>
    let _ ← Task.ask (.setMask old)
    return old
  | _ => return 0

/-! ## Making -/

/-- The paths of the directories above a path, the highest one first, each as the path spells it. -/
def pathsAbove (path : Bytes) : List Bytes :=
  (List.range path.length).filterMap fun n =>
    let before := path.take n
    let isEnd := path[n]? = some Bytes.slash && before.getLast?.any (· ≠ Bytes.slash)
    if isEnd && (path.drop n).any (· ≠ Bytes.slash) then some before else none

/-- Say that a directory was made, if that is asked for. -/
def tellMade (name : String) (tells : Bool) (path : Bytes) : Task Unit := do
  if tells then
    let _ ← Task.write 1
      (Bytes.ofString (name ++ ": created directory ") ++ quoted path ++ [Bytes.newline])

/-- Make a directory above another one unless it is there; why that is impossible. -/
def makeAbove (name : String) (tells : Bool) (path : Bytes) : Task (Option Errno) := do
  if endsInDots path then return (← enterFault path)
  match ← Task.attempt (.makeDirectory path 0o777) with
  | .ok () =>
    tellMade name tells path
    return none
  | .error e => return (← enterFault path).map fun e' => if e' = .notFound then e else e'
where
  /-- Why a directory cannot be entered. -/
  enterFault (path : Bytes) : Task (Option Errno) := do
    match ← Task.info path true with
    | .error e => return some e
    | .ok i =>
      return if !i.node.isDirectory then some .notDirectory
        else if i.node.allows 1 then none else some .accessDenied

/-- Make a directory, those above it included that are missing. -/
def makeAll (name : String) (tells : Bool) (path : Bytes) : Task Nat := do
  for above in pathsAbove path do
    if let some e ← makeAbove name tells above then
      return ← failed name "cannot create directory" above e
  match ← Task.attempt (.makeDirectory path 0o777) with
  | .ok () =>
    tellMade name tells path
    return 0
  | .error e =>
    if e ≠ .notFound && (← isDirectoryAt path) then return 0
    failed name "cannot create directory" path e

/-- Make directories. -/
def mkdir : Utility :=
  let table : OptionTable :=
    { flags := "pv".toList, valued := ['m']
      long := [("parents", 'p'), ("mode", 'm'), ("verbose", 'v')] }
  withUsage table 1 fun i u => do
    if u.operands.isEmpty then missingOperand i.name
    else
      let mode := match u.value? 'm' with
        | some text => (modeOf true 0 0o777 (Latin.ofBytes text)).map some
        | none => some none
      match mode with
      | none =>
        complain i.name [Bytes.ofString "invalid mode ", cited ((u.value? 'm').getD [])]
        return 1
      | some mode =>
        overPaths u.operands fun path => do
          let wasThere ← isDirectoryAt path
          let code ← if u.has 'p' then makeAll i.name (u.has 'v') path
            else
              doing i.name "cannot create directory" path (.makeDirectory path 0o777) (u.has 'v')
                (i.name ++ ": created directory ")
          if let some bits := mode then
            if code = 0 && !wasThere then
              let _ ← Task.attempt (.changeMode path bits)
          return code

/-- Make files that are missing. -/
def touch : Utility :=
  let table : OptionTable :=
    { flags := "acfhm".toList, valued := "drt".toList
      long := [("no-create", 'c'), ("date", 'd'), ("reference", 'r')] }
  withUsage table 1 fun i u => do
    if u.operands.isEmpty then
      complain i.name [Bytes.ofString "missing file operand"]
      hint i.name
      return 1
    overPaths u.operands fun path => do
      if path = dash then return 0
      let opened ← if u.has 'c' || u.has 'h' then pure none else do
        match ← Task.open path { isWritable := true, creates := true } with
        | .error e => pure (some e)
        | .ok fd =>
          let _ ← Task.attempt (.close fd)
          pure none
      match ← Task.info path (!u.has 'h') with
      | .ok _ => return 0
      | .error e =>
        match opened.filter (· ≠ .isDirectory) with
        | some e => failed i.name "cannot touch" path e
        | none =>
          if u.has 'c' && e = .notFound then return 0
          else failed i.name "setting times of" path e

/-! ## Operands and a target -/

/-- The path under which an operand ends up at a target. -/
def targetOf (isInside : Bool) (target operand : Bytes) : Bytes :=
  if isInside then inside (withoutSlashes target) (lastName operand) else target

/-- The options of the utilities that have operands and a target. -/
def targetOptions : List (String × Char) :=
  [("target-directory", 't'), ("no-target-directory", 'T'), ("force", 'f'), ("verbose", 'v')]

/-- The operands and the target of a utility that has both; a complaint otherwise. A symbolic link
to a directory is a target of its own if `follows` is not set. -/
def withTarget (i : Invocation) (u : Usage) (follows : Bool)
    (body : Bool → List Bytes → Bytes → Task Nat) : Task Nat := do
  let refusal (target : Bytes) (e : Errno) : Task Nat := do
    complain i.name [Bytes.ofString "target ", quoted target, Bytes.ofString ": ", reason e]
    return 1
  /- Why a path is no directory. -/
  let fault? (path : Bytes) : Task (Option Errno) := do
    match ← Task.info path follows with
    | .ok info => return if info.node.isDirectory then none else some .notDirectory
    | .error e => return some e
  match u.value? 't', u.operands.reverse with
  | _, [] =>
    complain i.name [Bytes.ofString "missing file operand"]
    hint i.name
    return 1
  | some target, sources =>
    match ← fault? target with
    | some e => refusal target e
    | none => body true sources.reverse target
  | none, [path] =>
    complain i.name [Bytes.ofString "missing destination file operand after ", quoted path]
    hint i.name
    return 1
  | none, target :: sources =>
    if u.has 'T' then
      match sources.dropLast with
      | [] => body false sources target
      | _ => extraOperand i.name (u.operands.getD 2 [])
    else
      match ← fault? target, sources with
      | none, _ => body true sources.reverse target
      | some _, [_] => body false sources target
      | some e, _ => refusal target e

/-- Complain that two paths name one file. -/
def sameFile (name : String) (path new : Bytes) : Task Nat := do
  complain name [quoted path, Bytes.ofString " and ", quoted new,
    Bytes.ofString " are the same file"]
  return 1

/-! ## Links -/

/-- Make room for a link: what is in its place goes. Something wrong with that, if there is. -/
def makeRoom (name : String) (isSymbolic : Bool) (path new : Bytes) : Task (Option Nat) := do
  match ← Task.info new false with
  | .error .notFound => return none
  | .error e => return some (← failed name "failed to access" new e)
  | .ok old =>
    if old.node.isDirectory then
      complain name [new, Bytes.ofString ": cannot overwrite directory"]
      return some 1
    if let .ok source ← Task.info path isSymbolic then
      if source.id = old.id then
        let sourceDir := (← Task.info (dirOf path) true).toOption.map (·.id)
        let newDir := (← Task.info (dirOf new) true).toOption.map (·.id)
        if source.links = 1 || (sourceDir = newDir && lastName path = lastName new) then
          return some (← sameFile name path new)
        if !isSymbolic then return some 0
    let _ ← Task.attempt (.unlink new)
    return none

/-- Make links. -/
def ln : Utility :=
  let table : OptionTable :=
    { flags := "sfnvTPL".toList, valued := ['t']
      long := [("symbolic", 's'), ("no-dereference", 'n')] ++ targetOptions }
  withUsage table 1 fun i u => do
    let isSymbolic := u.has 's'
    let u := match u.operands with
      | [path] =>
        if u.has 'T' || u.has 't' then u else { u with operands := [path, [Path.dot]] }
      | _ => u
    let request (path new : Bytes) : Request :=
      if isSymbolic then .makeLink path new else .makeName path new
    let tell (path new : Bytes) : Task Nat := do
      if u.has 'v' then
        let _ ← Task.write 1 (quoted new
          ++ Bytes.ofString (if isSymbolic then " -> " else " => ") ++ quoted path
          ++ [Bytes.newline])
      return 0
    withTarget i u (!u.has 'n') fun isInside sources target =>
      overPaths sources fun path => do
        let new := targetOf isInside target path
        match ← Task.attempt (request path new) with
        | .ok () => tell path new
        | .error _ =>
          if !isSymbolic then
            match ← Task.info path false with
            | .error e => return ← failed i.name "failed to access" path e
            | .ok info =>
              if info.node.isDirectory then
                complain i.name [path, Bytes.ofString ": hard link not allowed for directory"]
                return 1
          if u.has 'f' then
            if let some code ← makeRoom i.name isSymbolic path new then return code
          match ← Task.attempt (request path new) with
          | .ok () => tell path new
          | .error e =>
            let what := if isSymbolic then "failed to create symbolic link "
              else "failed to create hard link "
            let further :=
              if isSymbolic then
                if path.isEmpty || e = .nameTooLong then Bytes.ofString " -> " ++ quoted path else []
              else if e = .alreadyExists || e = .noSpace then []
              else Bytes.ofString " => " ++ quoted path
            complain i.name [Bytes.ofString what, quoted new, further, Bytes.ofString ": ", reason e]
            return 1

/-! ## Copies -/

/-- How files are copied. -/
structure CopyPlan where
  /-- Are directories copied? -/
  isRecursive : Bool
  /-- Are symbolic links followed? -/
  follows : Bool
  /-- Is what is in the way removed? -/
  isForced : Bool
  /-- Does what is there stay? -/
  spares : Bool
  /-- Are permission bits kept as they are? -/
  preserves : Bool
  /-- Is each copy told of? -/
  tells : Bool

/-- Complain of a path, with words before and after it. -/
def clashOf (name before : String) (path : Bytes) (after : String) : Task Nat := do
  complain name [Bytes.ofString before, quoted path, Bytes.ofString after]
  return 1

/-- Complain of two paths, with words before each of them and at the end. -/
def clash (name before : String) (path : Bytes) (between : String) (new : Bytes)
    (after : String := "") : Task Nat := do
  complain name [Bytes.ofString before, quoted path, Bytes.ofString between, quoted new,
    Bytes.ofString after]
  return 1

/-- Write the bytes of a file to a path that is free, or over what is there. -/
def copyBytes (name : String) (plan : CopyPlan) (path new : Bytes) (mode : Nat) : Task Nat := do
  match ← Task.open path { isReadable := true } with
  | .error e =>
    complain name [Bytes.ofString "cannot open ", quoted path, Bytes.ofString " for reading: ",
      reason e]
    return 1
  | .ok source =>
    let bytes ← Task.readAll source
    let _ ← Task.attempt (.close source)
    let isNew := (← Task.info new true).toOption.isNone
    if isNew && (← isLinkAt new) then
      complain name [Bytes.ofString "not writing through dangling symlink ", quoted new]
      return 1
    let mode' : OpenMode := { isWritable := true, creates := isNew, truncates := true }
    let opened ← do
      match ← Task.open new mode' with
      | .ok sink => pure (.ok sink)
      | .error e =>
        if plan.isForced && !isNew then
          let _ ← Task.attempt (.unlink new)
          Task.open new { mode' with creates := true }
        else pure (.error e)
    match opened with
    | .error e =>
      let e := if e = .isDirectory && FileTree.endsWithSlash new then .notDirectory else e
      failed name "cannot create regular file" new e
    | .ok sink =>
      let written ← Task.write sink (bytes.toOption.getD [])
      let _ ← Task.attempt (.close sink)
      if plan.preserves then
        let _ ← Task.attempt (.changeMode new mode)
      else if isNew then
        let kept := mode &&& 0o777
        let _ ← Task.attempt (.changeMode new (kept - (kept &&& (← currentMask))))
      match written with
      | .ok () =>
        if plan.tells then
          let _ ← Task.write 1
            (quoted path ++ Bytes.ofString " -> " ++ quoted new ++ [Bytes.newline])
        return 0
      | .error e =>
        complain name [Bytes.ofString "error writing ", quoted new, Bytes.ofString ": ", reason e]
        return 1

/-- What is copied with all that is below it. -/
structure CopyRun where
  /-- The path that is copied. -/
  source : Bytes
  /-- The path of the copy. -/
  target : Bytes
  /-- The first directory that was made, which is not copied itself. -/
  made : Option NodeId := none
  /-- The code so far. -/
  code : Nat := 0

/-- Copy a file, a link or a directory. -/
def copyDeep (name : String) (plan : CopyPlan) : Nat → Bytes → Bytes → CopyRun → Task CopyRun
  | 0, _, _, run => return { run with code := 1 }
  | fuel + 1, path, new, run => do
    let ends (report : Task Nat) : Task CopyRun := do
      return { run with code := max run.code (← report) }
    match ← Task.info path plan.follows with
    | .error e => ends (failed name "cannot stat" path e)
    | .ok info =>
      let isDirectory := info.node.isDirectory
      if isDirectory && !plan.isRecursive then
        return ← ends do
          complain name [Bytes.ofString "-r not specified; omitting directory ", quoted path]
          return 1
      if isDirectory && run.made = some info.id then
        return ← ends
          (clash name "cannot copy a directory, " run.source ", into itself, " run.target)
      let isLink := match info.node with
        | .link _ => true
        | _ => false
      let old ← Task.info new (!isLink && !isDirectory)
      if let .error e := old then
        if e ≠ .notFound then return ← ends (failed name "cannot stat" new e)
      if let .ok old := old then
        if old.id = info.id then return ← ends (sameFile name path new)
        if !isDirectory then
          if plan.spares then return run
          if old.node.isDirectory then
            return ← ends (clashOf name "cannot overwrite directory " new " with non-directory")
        else if !(← isDirectoryAt new) then
          return ← ends
            (clash name "cannot overwrite non-directory " new " with directory " path)
      match info.node with
      | .directory _ _ mode =>
        let mut run := run
        if old.toOption.isNone then
          if let .error e ← Task.attempt (.makeDirectory new mode) then
            return ← ends (failed name "cannot create directory" new e)
          if plan.tells then
            let _ ← Task.write 1
              (quoted path ++ Bytes.ofString " -> " ++ quoted new ++ [Bytes.newline])
          if run.made.isNone then
            run := { run with made := (← Task.info new true).toOption.map (·.id) }
        let entries := match ← Task.info path true with
          | .ok i => i.node.entries
          | .error _ => []
        for (n, _) in entries do
          run ← copyDeep name plan fuel (inside path n) (inside new n) run
        return run
      | .link target =>
        let _ ← Task.attempt (.unlink new)
        ends (doing name "cannot create symbolic link" new (.makeLink target new))
      | node => ends (copyBytes name plan path new node.mode)

/-- Copy files. -/
def cp : Utility :=
  let table : OptionTable :=
    { flags := "rRafpdvTPLHnliu".toList, valued := ['t']
      long := [("recursive", 'r'), ("archive", 'a'), ("no-clobber", 'n'), ("dereference", 'L'),
        ("no-dereference", 'P'), ("link", 'l')] ++ targetOptions }
  withUsage table 1 fun i u =>
    let isRecursive := "rRa".toList.any u.has
    let plan : CopyPlan :=
      { isRecursive
        follows := match u.last? "adPL".toList with
          | some c => c = 'L'
          | none => !isRecursive
        isForced := u.has 'f'
        spares := u.has 'n'
        preserves := u.has 'p' || u.has 'a'
        tells := u.has 'v' }
    withTarget i u true fun isInside sources target =>
      overPaths sources fun path => do
        let base := if lastName path = FileTree.dotDot then target else targetOf isInside target path
        let new := if isInside then base else target
        if u.has 'l' && !(← isDirectoryAt path) then
          match ← Task.attempt (.makeName path new) with
          | .ok () => return 0
          | .error e =>
            clash i.name "cannot create hard link " new " to " path (": " ++ e.row.message)
        else return (← copyDeep i.name plan deepest path new ⟨path, new, none, 0⟩).code

/-- Move files. -/
def mv : Utility :=
  let table : OptionTable :=
    { flags := "finuvT".toList, valued := ['t'], long := ("no-clobber", 'n') :: targetOptions }
  withUsage table 1 fun i u =>
    withTarget i u true fun isInside sources target =>
      overPaths sources fun path => do
        let new := targetOf isInside target path
        match ← Task.info path false with
        | .error e => failed i.name "cannot stat" path e
        | .ok info =>
          let isDirectory := info.node.isDirectory
          match ← Task.info new false with
          | .error e => if e ≠ .notFound then return ← failed i.name "cannot stat" new e
          | .ok old =>
            if u.has 'n' then return 0
            if old.id = info.id then return ← sameFile i.name path new
            if isDirectory && !old.node.isDirectory then
              return ← clash i.name "cannot overwrite non-directory " new " with directory " path
            if !isDirectory && old.node.isDirectory then
              return ← clashOf i.name "cannot overwrite directory " new " with non-directory"
          match ← Task.attempt (.rename path new) with
          | .ok () =>
            if u.has 'v' then
              let _ ← Task.write 1 (Bytes.ofString "renamed " ++ quoted path
                ++ Bytes.ofString " -> " ++ quoted new ++ [Bytes.newline])
            return 0
          | .error e =>
            if e = .invalidArgument && isDirectory then
              clash i.name "cannot move " path " to a subdirectory of itself, " new
            else if [Errno.alreadyExists, .isDirectory, .noSpace, .notEmpty].contains e then
              failed i.name "cannot overwrite" new e
            else clash i.name "cannot move " path " to " new (": " ++ e.row.message)

/-! ## Changing permissions -/

/-- Change permissions. -/
def chmod : Utility := fun i => do
  let args := i.args.filter fun a => a ≠ Bytes.ofString "-f" && a ≠ Bytes.ofString "--"
  match args with
  | [] => missingOperand i.name
  | [mode] =>
    complain i.name [Bytes.ofString "missing operand after ", cited mode]
    hint i.name
    return 1
  | mode :: paths =>
    overPaths paths fun path => do
      match ← Task.info path true with
      | .error e => failed i.name "cannot access" path e
      | .ok info =>
        match modeOf info.node.isDirectory (← currentMask) info.node.mode (Latin.ofBytes mode) with
        | none =>
          complain i.name [Bytes.ofString "invalid mode: ", cited mode]
          hint i.name
          return 1
        | some new => doing i.name "changing permissions of" path (.changeMode path new)

end CommandExpr.Machine.Utility
