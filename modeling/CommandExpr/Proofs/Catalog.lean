import CommandExpr.Proofs.Files

/-!
# Places in a file system

A name can be taken by anything: by a file, a directory, a link or something else
still.  A `Catalog` is a view of a machine's state that says what stands at each
place, and `Catalog.Lawful` says what the calls on relay files do there.  Nothing is
said of what others do, and the places to which paths lead may change with the state,
so anything may be put anywhere between two calls, or taken away.

`Cabinet` is a machine with directories, links and files, to which the laws apply.
An entry has a stamp of its own, by which a handle knows its file again if another
one has come to stand under the name.

## Main definitions

* `Catalog`, `Catalog.Lawful` — what stands where, and what the calls do to it
* `Cabinet` — a machine with such places

## Main results

* `Cabinet.lawful` — the calls of the machine do what they should.
-/

namespace CommandExpr

/-- What can stand at a place. -/
inductive Node where
  | file (content : Bytes)
  | directory
  | link (target : Bytes)
  /-- A pipe, a socket or a device. -/
  | special
  deriving DecidableEq

/-- What can be seen of the places of a file system; the places are of type `ι`. -/
structure Catalog (σ ι : Type) where
  /-- The place to which a path leads. -/
  place : σ → Path → ι
  /-- What stands at a place; none if there is nothing of any kind. -/
  node : σ → ι → Option Node
  /-- The places where the file of an open handle stands. -/
  standing : σ → Handle → Set ι

namespace Catalog

variable {σ ι : Type}

/-- There is nothing of any kind where the path leads. -/
def IsFree (cat : Catalog σ ι) (m : σ) (path : Path) : Prop :=
  cat.node m (cat.place m path) = none

/-- The places of both states are the same, and the same stands there. -/
structure Same (cat : Catalog σ ι) (m m' : σ) : Prop where
  place : cat.place m' = cat.place m
  node : cat.node m' = cat.node m

/-- A new and empty file is put where the path leads, and a handle is on it.  Nothing
stood there, and what stands at all other places is the same. -/
structure Adds [DecidableEq ι] (cat : Catalog σ ι) (path : Path) (handle : Handle) (m m' : σ) :
    Prop where
  isFree : cat.IsFree m path
  place : cat.place m' path = cat.place m path
  node : cat.node m' = Function.update (cat.node m) (cat.place m path) (some (.file []))
  standing : cat.standing m' handle = {cat.place m path}

/-- What the calls of a host on relay files do to the places. -/
structure Lawful [DecidableEq ι] (cat : Catalog σ ι) (h : Host σ) : Prop where
  createNew_ok {path : Path} {handle : Handle} {m m' : σ} :
    h.createNew path m = (.ok handle, m') → cat.Adds path handle m m'
  createNew_error {path : Path} {e : Errno} {m m' : σ} :
    h.createNew path m = (.error e, m') → cat.Same m m'
  /-- That a name is taken is only said of one that is. -/
  not_isFree {path : Path} {e : Errno} {m m' : σ} :
    h.createNew path m = (.error e, m') → (IoError.ofErrno e).kind = .alreadyExists →
      ¬cat.IsFree m path
  openRead (path : Path) (m : σ) : cat.Same m (h.openRead path m).2
  /-- Bytes are written to the file that is open, wherever it stands. -/
  append (handle : Handle) (bytes : Bytes) (m : σ) :
    ∀ x ∉ cat.standing m handle,
      cat.node (h.append handle bytes m).2 x = cat.node m x
  close (handle : Handle) (m : σ) : cat.Same m (h.close handle m)
  remove_ok {path : Path} {m m' : σ} :
    h.remove path m = (.ok (), m') →
      cat.node m' = Function.update (cat.node m) (cat.place m path) none
  remove_error {path : Path} {e : Errno} {m m' : σ} :
    h.remove path m = (.error e, m') → cat.Same m m'
  tell (message : Message) (m : σ) : cat.Same m (h.tell message m)
  /-- Logging moves no open file. -/
  standing_tell (message : Message) (m : σ) :
    cat.standing (h.tell message m) = cat.standing m

variable {cat : Catalog σ ι} {a b c : σ} {path : Path} {handle : Handle}

namespace Same

theorem refl (cat : Catalog σ ι) (m : σ) : cat.Same m m := ⟨rfl, rfl⟩

theorem trans (hab : cat.Same a b) (hbc : cat.Same b c) : cat.Same a c :=
  ⟨hbc.place.trans hab.place, hbc.node.trans hab.node⟩

theorem isFree_iff (hab : cat.Same a b) : cat.IsFree b path ↔ cat.IsFree a path := by
  rw [IsFree, IsFree, hab.place, hab.node]

/-- What is added after a change of nothing was added before. -/
theorem adds [DecidableEq ι] (hab : cat.Same a b) (hbc : cat.Adds path handle b c) :
    cat.Adds path handle a c where
  isFree := hab.isFree_iff.mp hbc.isFree
  place := by rw [hbc.place, hab.place]
  node := by rw [hbc.node, hab.place, hab.node]
  standing := by rw [hbc.standing, hab.place]

end Same

/-- What was added is still there after a message. -/
theorem Adds.tell [DecidableEq ι] {h : Host σ} (w : cat.Lawful h)
    (hab : cat.Adds path handle a b) (message : Message) :
    cat.Adds path handle a (h.tell message b) where
  isFree := hab.isFree
  place := by rw [(w.tell message b).place, hab.place]
  node := by rw [(w.tell message b).node, hab.node]
  standing := by rw [w.standing_tell, hab.standing]

end Catalog

/-! ## A machine with directories and links -/

/-- A machine with entries of all kinds. -/
structure Cabinet where
  /-- What is under a name, with its stamp. -/
  entries : Path → Option (Nat × Node)
  /-- The open files, by name and stamp. -/
  handles : Handle → Option (Path × Nat)
  /-- The next stamp, which is also the next handle. -/
  next : Nat

namespace Cabinet

/-- The machine with something put under a name, or taken away. -/
def setting (m : Cabinet) (path : Path) (entry : Option (Nat × Node)) : Cabinet :=
  { m with entries := Function.update m.entries path entry }

/-- A new handle on what is under a name with a stamp. -/
def opening (m : Cabinet) (path : Path) (stamp : Nat) : Except Errno Handle × Cabinet :=
  (.ok m.next,
    { m with
      handles := Function.update m.handles m.next (some (path, stamp))
      next := m.next + 1 })

/-- The file that a handle is on, if it is still under its name. -/
def opened (m : Cabinet) (handle : Handle) : Option (Path × Nat × Node) := do
  let (path, stamp) ← m.handles handle
  let (current, node) ← m.entries path
  if current = stamp then some (path, stamp, node) else none

/-- The calls of the machine; it has no programs. -/
def host : Host Cabinet where
  patience _ := 0
  createNew path m :=
    match m.entries path with
    | some _ => (.error .alreadyExists, m)
    | none => (m.setting path (some (m.next, .file []))).opening path m.next
  openRead path m :=
    match m.entries path with
    | some (stamp, _) => m.opening path stamp
    | none => (.error .notFound, m)
  append handle bytes m :=
    match m.opened handle with
    | some (path, stamp, .file content) =>
      (.ok (), m.setting path (some (stamp, .file (content ++ bytes))))
    | _ => if (m.handles handle).isSome then (.ok (), m) else (.error .badDescriptor, m)
  close handle m := { m with handles := Function.update m.handles handle none }
  remove path m :=
    match m.entries path with
    | some (_, .directory) => (.error .isDirectory, m)
    | some _ => (.ok (), m.setting path none)
    | none => (.error .notFound, m)
  makePipe m := (.ok (), m)
  fork _ _ m := (.error .notFound, m)
  readReport _ _ m := (.ok [], m)
  readOutput _ _ m := (.ok [], m)
  pollOutput _ _ m := (.ok true, m)
  hangUp _ m := m
  wait _ _ m := (.error .notFound, m)
  kill _ _ m := (.error .notFound, m)
  now m := (0, m)
  sleep _ m := m
  writeOut bytes m := (.ok bytes.length, m)
  tell _ m := m

/-- What stands under the names of the machine. -/
def catalog : Catalog Cabinet Path where
  place _ path := path
  node m path := (m.entries path).map Prod.snd
  standing m handle := {path | ∃ found, m.opened handle = some found ∧ found.1 = path}

/-- The machine at the beginning, with whatever is there already. -/
def holding (entries : Path → Option Node) : Cabinet :=
  ⟨fun path => (entries path).map (0, ·), fun _ => none, 1⟩

private theorem node_setting (m : Cabinet) (path : Path) (entry : Option (Nat × Node)) :
    catalog.node (m.setting path entry)
      = Function.update (catalog.node m) path (entry.map Prod.snd) :=
  Function.comp_update (Option.map Prod.snd) m.entries path entry

/-- **The calls of the machine do to its places what they should.** -/
theorem lawful : catalog.Lawful host where
  createNew_ok {path handle m m'} hcall := by
    simp only [host] at hcall
    split at hcall
    · cases hcall
    · next hfree =>
        obtain ⟨hhandle, rfl⟩ := Prod.mk.inj hcall
        obtain rfl := Except.ok.inj hhandle
        refine ⟨?_, rfl, ?_, ?_⟩
        · simp [Catalog.IsFree, catalog, hfree]
        · exact node_setting m path (some (m.next, .file []))
        · ext other
          simp [catalog, opened, setting, eq_comm]
  createNew_error {path e m m'} hcall := by
    simp only [host] at hcall
    split at hcall
    · obtain ⟨-, rfl⟩ := Prod.mk.inj hcall
      exact .refl _ _
    · cases hcall
  not_isFree {path e m m'} hcall _ := by
    simp only [host] at hcall
    split at hcall
    · next hentry => simp [Catalog.IsFree, catalog, hentry]
    · cases hcall
  openRead path m := by
    simp only [host]
    split
    · exact ⟨rfl, rfl⟩
    · exact .refl _ _
  append handle bytes m x hx := by
    simp only [host]
    split
    · next path stamp content hopened =>
        have hne : x ≠ path := fun heq => hx ⟨_, hopened, heq.symm⟩
        rw [node_setting, Function.update_of_ne hne]
    · split <;> rfl
  close handle m := ⟨rfl, rfl⟩
  remove_ok {path m m'} hcall := by
    simp only [host] at hcall
    split at hcall
    · cases hcall
    · obtain ⟨-, rfl⟩ := Prod.mk.inj hcall
      exact node_setting m path none
    · cases hcall
  remove_error {path e m m'} hcall := by
    simp only [host] at hcall
    split at hcall
    · obtain ⟨-, rfl⟩ := Prod.mk.inj hcall
      exact .refl _ _
    · cases hcall
    · obtain ⟨-, rfl⟩ := Prod.mk.inj hcall
      exact .refl _ _
  tell message m := .refl _ _
  standing_tell message m := rfl

/-- A directory of relays. -/
def Sample.store : RelayStore := ⟨⟨[47, 114]⟩⟩

end Cabinet

end CommandExpr
