import CommandExpr.Relay
import CommandExpr.Proofs.Computation
import Mathlib.Data.Set.Insert
import Mathlib.Logic.Function.Basic

/-!
# Relay files

A host says nothing about what its calls do.  Here is what the library expects
of a host with files: `Files` is a view of the machine's state, and
`Files.Lawful` says what the calls do to it.  Two names may lead to the same
entry of a directory, so the view is on entries; and as only relays are opened
and removed, the laws are about the names of relays alone.

An entry is **held** from the call that makes it to the one that removes it.
Held entries are there; all others may be anything at all, and may be nothing.

## Main results

* `Relay.create_eq_iff` — the making of a relay is a row of taken names, and what comes
  of the name after them.
* `Files.Lawful.create_ok`, `Files.Lawful.write_ok` — a relay that was made
  and written is a new entry with just the bytes written.
* `Files.Lawful.dispose_eq` — giving a relay back removes its entry.
-/

namespace CommandExpr

variable {σ ι : Type}

/-- Is the path that of a relay? -/
def RelayStore.Names (store : RelayStore) (path : Path) : Prop :=
  ∃ id, path = store.pathOf id

/-- What can be seen of a machine's files; the entries are of type `ι`. -/
structure Files (σ ι : Type) where
  /-- The entry to which a path leads. -/
  entry : Path → ι
  /-- What an entry contains; none if there is nothing. -/
  content : σ → ι → Option Bytes
  /-- The entries that the host has made and not removed. -/
  held : σ → Set ι
  /-- The entry that a handle is on, and how far in it stands. -/
  cursor : σ → Handle → Option (ι × Nat)

/-- The files of both states are the same. -/
structure Files.Same (files : Files σ ι) (m m' : σ) : Prop where
  content : files.content m' = files.content m
  held : files.held m' = files.held m

variable [DecidableEq ι]

/-- An entry has another content, or none, and the others are the same. -/
def Files.Sets (files : Files σ ι) (x : ι) (content : Option Bytes) (m m' : σ) :
    Prop :=
  files.content m' = Function.update (files.content m) x content

/-- What the calls of a host do to its files. -/
structure Files.Lawful (files : Files σ ι) (h : Host σ) (store : RelayStore) :
    Prop where
  /-- What is held is there. -/
  exists_of_held {x : ι} {m : σ} :
    x ∈ files.held m → files.content m x ≠ none
  /-- A new file is empty, and there was nothing in its place. -/
  createNew_ok {path : Path} {handle : Handle} {m m' : σ} :
    store.Names path → h.createNew path m = (.ok handle, m') →
      files.content m (files.entry path) = none ∧
        files.Sets (files.entry path) (some []) m m' ∧
        files.held m' = insert (files.entry path) (files.held m) ∧
        files.cursor m' handle = some (files.entry path, 0)
  createNew_error {path : Path} {e : Errno} {m m' : σ} :
    store.Names path → h.createNew path m = (.error e, m') → files.Same m m'
  /-- A file is read from its start. -/
  openRead_ok {path : Path} {handle : Handle} {m m' : σ} :
    store.Names path → h.openRead path m = (.ok handle, m') →
      files.Same m m' ∧ files.cursor m' handle = some (files.entry path, 0)
  openRead_error {path : Path} {e : Errno} {m m' : σ} :
    store.Names path → h.openRead path m = (.error e, m') → files.Same m m'
  /-- Bytes are written where the handle stands. -/
  append_ok {handle : Handle} {x : ι} {k : Nat} {old bytes : Bytes} {m m' : σ} :
    files.cursor m handle = some (x, k) → files.content m x = some old →
      k ≤ old.length → h.append handle bytes m = (.ok (), m') →
      files.Sets x (some (old.take k ++ bytes ++ old.drop (k + bytes.length))) m m'
        ∧ files.held m' = files.held m
  /-- A write that fails may have written something to its entry. -/
  append_error {handle : Handle} {x : ι} {k : Nat} {bytes : Bytes} {e : Errno}
      {m m' : σ} :
    files.cursor m handle = some (x, k) →
      h.append handle bytes m = (.error e, m') →
      (∀ y ≠ x, files.content m' y = files.content m y) ∧
        files.held m' = files.held m
  remove_ok {path : Path} {m m' : σ} :
    store.Names path → h.remove path m = (.ok (), m') →
      files.Sets (files.entry path) none m m' ∧
        files.held m' = files.held m \ {files.entry path}
  remove_error {path : Path} {e : Errno} {m m' : σ} :
    store.Names path → h.remove path m = (.error e, m') → files.Same m m'
  close (handle : Handle) (m : σ) : files.Same m (h.close handle m)
  now (m : σ) : files.Same m (h.now m).2
  writeOut (bytes : Bytes) (m : σ) : files.Same m (h.writeOut bytes m).2
  tell (message : Message) (m : σ) : files.Same m (h.tell message m)
  /-- Logging moves no handle. -/
  cursor_tell (message : Message) (m : σ) :
    files.cursor (h.tell message m) = files.cursor m

omit [DecidableEq ι] in
theorem Files.Same.refl (files : Files σ ι) (m : σ) : files.Same m m := ⟨rfl, rfl⟩

omit [DecidableEq ι] in
theorem Files.Same.trans {files : Files σ ι} {a b c : σ} (hab : files.Same a b)
    (hbc : files.Same b c) : files.Same a c :=
  ⟨hbc.content.trans hab.content, hbc.held.trans hab.held⟩

/-! ## What is done with a relay -/

namespace Relay

/-- Names are tried from the session's next number on, until a relay is made, a
call fails and not because the name is taken, or there are no attempts left. -/
inductive Creates (h : Host σ) (store : RelayStore) : Nat → Nat → Session σ →
    Except Failure Relay → Session σ → Prop where
  | made {left tried : Nat} {s t : Session σ} {handle : Handle}
      (hcall : (onPath (store.pathOf s.nextRelay) h.createNew).on
        { s with nextRelay := s.nextRelay + 1 } = (.ok handle, t)) :
      Creates h store left tried s
        (.ok ⟨s.nextRelay, store.pathOf s.nextRelay, handle⟩)
        (t.noted h (.relayCreated (store.pathOf s.nextRelay).display))
  | refused {left tried : Nat} {s t : Session σ} {e : IoError}
      (hcall : (onPath (store.pathOf s.nextRelay) h.createNew).on
        { s with nextRelay := s.nextRelay + 1 } = (.error e, t))
      (hlast : e.kind = .alreadyExists → left = 0) :
      Creates h store left tried s
        (.error (.relayNotCreated (store.pathOf s.nextRelay).display e (tried + 1))) t
  | taken {left tried : Nat} {s t u : Session σ} {e : IoError}
      {result : Except Failure Relay}
      (hcall : (onPath (store.pathOf s.nextRelay) h.createNew).on
        { s with nextRelay := s.nextRelay + 1 } = (.error e, t))
      (htaken : e.kind = .alreadyExists)
      (hrest : Creates h store left (tried + 1)
        (t.noted h (.relayTaken (store.pathOf s.nextRelay).display)) result u) :
      Creates h store (left + 1) tried s result u

variable {h : Host σ} {store : RelayStore} {s t : Session σ}

private theorem on_takeId (s : Session σ) :
    takeId.on s = (s.nextRelay, { s with nextRelay := s.nextRelay + 1 }) := rfl

private theorem creates_of_createFrom {result : Except Failure Relay} (left : Nat) :
    ∀ {tried : Nat} {s : Session σ},
      (createFrom h store left tried).on s = (result, t) →
        Creates h store left tried s result t := by
  induction left with
  | zero =>
      intro tried s hrun
      rw [createFrom, Action.on_bind_of _ (on_takeId s)] at hrun
      rcases hcall : (onPath (store.pathOf s.nextRelay) h.createNew).on
        { s with nextRelay := s.nextRelay + 1 } with ⟨_ | handle, t₁⟩
      · rw [Action.on_bind_of _ hcall] at hrun
        obtain ⟨rfl, rfl⟩ := Prod.mk.inj hrun
        exact .refused hcall fun _ => rfl
      · rw [Action.on_bind_of _ hcall] at hrun
        obtain ⟨rfl, rfl⟩ := Prod.mk.inj hrun
        exact .made hcall
  | succ left ih =>
      intro tried s hrun
      rw [createFrom, Action.on_bind_of _ (on_takeId s)] at hrun
      rcases hcall : (onPath (store.pathOf s.nextRelay) h.createNew).on
        { s with nextRelay := s.nextRelay + 1 } with ⟨e | handle, t₁⟩
      · rw [Action.on_bind_of _ hcall] at hrun
        by_cases htaken : e.kind = .alreadyExists
        · simp only [htaken, if_true] at hrun
          exact .taken hcall htaken (ih hrun)
        · simp only [htaken, if_false] at hrun
          obtain ⟨rfl, rfl⟩ := Prod.mk.inj hrun
          exact .refused hcall fun h => absurd h htaken
      · rw [Action.on_bind_of _ hcall] at hrun
        obtain ⟨rfl, rfl⟩ := Prod.mk.inj hrun
        exact .made hcall

private theorem Creates.createFrom_eq {left tried : Nat}
    {result : Except Failure Relay} (hcreates : Creates h store left tried s result t) :
    (createFrom h store left tried).on s = (result, t) := by
  induction hcreates with
  | @made left _ s _ _ hcall =>
      cases left <;>
        rw [createFrom, Action.on_bind_of _ (on_takeId s), Action.on_bind_of _ hcall] <;>
        rfl
  | @refused left _ s _ e hcall hlast =>
      rw [createFrom.eq_def, Action.on_bind_of _ (on_takeId s), Action.on_bind_of _ hcall]
      cases left with
      | zero => rfl
      | succ left =>
          have hother : e.kind ≠ .alreadyExists := fun h => by cases hlast h
          simp only [hother, if_false]
          rfl
  | @taken _ _ s _ _ _ _ hcall htaken _ ih =>
      rw [createFrom, Action.on_bind_of _ (on_takeId s), Action.on_bind_of _ hcall]
      simp only [htaken, if_true]
      exact ih

theorem createFrom_eq_iff {left tried : Nat} {result : Except Failure Relay} :
    (createFrom h store left tried).on s = (result, t) ↔
      Creates h store left tried s result t :=
  ⟨creates_of_createFrom left, Creates.createFrom_eq⟩

theorem on_write (h : Host σ) (relay : Relay) (output : Capture) (s : Session σ) :
    (relay.write h output).on s =
      match h.append relay.handle output.bytes s.machine with
      | (.ok (), m) => (.ok (), { s with machine := m }.noted h
          (.relayWritten relay.path.display output.length))
      | (.error e, m) => (.error (.relayNotWritten relay.path.display (.ofErrno e)),
          { s with machine := m }) := by
  rcases happend : h.append relay.handle output.bytes s.machine with ⟨answer, m⟩
  have hask : (Host.ask (h.append relay.handle output.bytes)).on s
      = (.ok answer, { s with machine := m }) := by
    rw [Attempt.on_ask, happend]
  rw [write, Attempt.on_bind_ok _ hask]
  cases answer <;> rfl

theorem create_eq_iff {result : Except Failure Relay} :
    (create h store).on s = (result, t) ↔
      Creates h store (maxAttempts - 1) 0 s result t :=
  createFrom_eq_iff

theorem on_dispose (h : Host σ) (relay : Relay) (s : Session σ) :
    (relay.dispose h).on s = (onPath relay.path h.remove).on
      { s with machine := h.close relay.handle s.machine } := rfl

theorem on_release (h : Host σ) (relay : Relay) (s : Session σ) :
    (relay.release h).on s =
      match (relay.dispose h).on s with
      | (.ok (), t) => (.ok (), t.noted h (.relayReleased relay.path.display))
      | (.error e, t) => (.error (.relayNotRemoved relay.path.display e), t) := by
  rcases hdispose : (relay.dispose h).on s with ⟨answer, t⟩
  have hlift : Attempt.on (ExceptT.lift (relay.dispose h)) s = (.ok answer, t) := by
    rw [Attempt.on_lift, hdispose]
  rw [release, Attempt.on_bind_ok _ hlift]
  cases answer <;> rfl

theorem on_drop (h : Host σ) (relay : Relay) (s : Session σ) :
    (relay.drop h).on s =
      match (relay.dispose h).on s with
      | (.ok (), t) => ((), t.noted h (.relayDropped relay.path.display))
      | (.error e, t) => ((), t.noted h (.relayLeft relay.path.display e)) := by
  rcases hdispose : (relay.dispose h).on s with ⟨answer, t⟩
  rw [drop, Action.on_bind_of _ hdispose]
  cases answer <;> rfl

end Relay

/-! ## The life of a relay -/

/-- A relay is made: its entry is new, it is empty, and it is held. -/
structure Files.Makes (files : Files σ ι) (store : RelayStore) (relay : Relay)
    (m m' : σ) : Prop where
  names : store.Names relay.path
  hasNul : relay.path.bytes.hasNul = false
  absent : files.content m (files.entry relay.path) = none
  content : files.Sets (files.entry relay.path) (some []) m m'
  held : files.held m' = insert (files.entry relay.path) (files.held m)
  cursor : files.cursor m' relay.handle = some (files.entry relay.path, 0)

/-- An entry is removed, and not held any more. -/
structure Files.Removes (files : Files σ ι) (x : ι) (m m' : σ) : Prop where
  content : files.Sets x none m m'
  held : files.held m' = files.held m \ {x}

namespace Files.Lawful

variable {files : Files σ ι} {h : Host σ} {store : RelayStore} {relay : Relay}
  {s t : Session σ}

theorem note (w : files.Lawful h store) (n : Notice) (s : Session σ) :
    files.Same s.machine (s.noted h n).machine :=
  w.tell (.notice n) s.machine

/-- What was not held and is made now was not held before. -/
theorem not_held_of_makes (w : files.Lawful h store) {m m' : σ}
    (hmakes : files.Makes store relay m m') :
    files.entry relay.path ∉ files.held m :=
  fun hheld => w.exists_of_held hheld hmakes.absent

/-- A call that makes a new file makes a relay, … -/
theorem makes_of_call (w : files.Lawful h store) {id : UInt64}
    {handle : Handle} (n : Notice)
    (hcall : (Relay.onPath (store.pathOf id) h.createNew).on s = (.ok handle, t)) :
    files.Makes store ⟨id, store.pathOf id, handle⟩ s.machine
      (t.noted h n).machine := by
  have hnames : store.Names (store.pathOf id) := ⟨id, rfl⟩
  obtain ⟨hnul, hmade⟩ := of_onPath_ok hcall
  obtain ⟨habsent, hcontent, hheld, hcursor⟩ := w.createNew_ok hnames hmade
  have hnote := w.note n t
  refine ⟨hnames, hnul, habsent, hnote.content.trans hcontent,
    hnote.held.trans hheld, ?_⟩
  rw [Session.noted, w.cursor_tell]
  exact hcursor

/-- … and one that fails makes nothing. -/
theorem same_of_call (w : files.Lawful h store) {id : UInt64} {e : IoError}
    (hcall : (Relay.onPath (store.pathOf id) h.createNew).on s = (.error e, t)) :
    files.Same s.machine t.machine := by
  rcases of_onPath_error hcall with heq | ⟨errno, hfailed⟩
  · rw [heq]
    exact Same.refl files _
  · exact w.createNew_error ⟨id, rfl⟩ hfailed

/-- What is made after a change that leaves the files alone was made before. -/
private theorem makes_of_same {m₀ m m' : σ} (hsame : files.Same m₀ m)
    (hmakes : files.Makes store relay m m') : files.Makes store relay m₀ m' where
  names := hmakes.names
  hasNul := hmakes.hasNul
  absent := by
    rw [← hsame.content]
    exact hmakes.absent
  content := by
    rw [Sets, ← hsame.content]
    exact hmakes.content
  held := by
    rw [← hsame.held]
    exact hmakes.held
  cursor := hmakes.cursor

/-- Each attempt but the last leaves the files alone, and so does the last one
if it fails. -/
private theorem of_creates (w : files.Lawful h store) {left tried : Nat}
    {result : Except Failure Relay}
    (hcreates : Relay.Creates h store left tried s result t) :
    match result with
    | .ok relay => files.Makes store relay s.machine t.machine
    | .error _ => files.Same s.machine t.machine := by
  induction hcreates with
  | made hcall => exact (w.makes_of_call _ hcall :)
  | refused hcall _ => exact (w.same_of_call hcall :)
  | @taken _ _ s t _ _ result hcall _ _ ih =>
      have hsame := w.same_of_call hcall
      have hnoted := hsame.trans
        (w.note (.relayTaken (store.pathOf s.nextRelay).display) t)
      cases result with
      | ok relay => exact makes_of_same hnoted ih
      | error f => exact hnoted.trans ih

/-- A relay that was created is a new and empty entry, and held. -/
theorem create_ok (w : files.Lawful h store)
    (hrun : (Relay.create h store).on s = (.ok relay, t)) :
    files.Makes store relay s.machine t.machine :=
  w.of_creates (Relay.createFrom_eq_iff.mp hrun)

/-- If no relay was created, the files are as they were. -/
theorem create_error (w : files.Lawful h store) {f : Failure}
    (hrun : (Relay.create h store).on s = (.error f, t)) :
    files.Same s.machine t.machine :=
  w.of_creates (Relay.createFrom_eq_iff.mp hrun)

/-- A relay that was written right after it was made contains what was
written. -/
theorem write_ok (w : files.Lawful h store) {output : Capture} {m : σ}
    (hmakes : files.Makes store relay m s.machine)
    (hrun : (relay.write h output).on s = (.ok (), t)) :
    files.Sets (files.entry relay.path) (some output.bytes) s.machine t.machine ∧
      files.held t.machine = files.held s.machine := by
  rcases happend : h.append relay.handle output.bytes s.machine with ⟨answer, m'⟩
  rw [Relay.on_write, happend] at hrun
  cases answer with
  | error e => cases congrArg Prod.fst hrun
  | ok _ =>
      obtain ⟨-, rfl⟩ := Prod.mk.inj hrun
      have hempty : files.content s.machine (files.entry relay.path) = some [] := by
        rw [hmakes.content, Function.update_self]
      obtain ⟨hcontent, hheld⟩ :=
        w.append_ok hmakes.cursor hempty (Nat.le_refl 0) happend
      have hnote := w.note (.relayWritten relay.path.display output.length)
        { s with machine := m' }
      refine ⟨hnote.content.trans ?_, hnote.held.trans hheld⟩
      rw [hcontent]
      simp

/-- A write that fails touches nothing but the relay's own entry. -/
theorem write_error (w : files.Lawful h store) {output : Capture} {f : Failure}
    {m : σ} (hmakes : files.Makes store relay m s.machine)
    (hrun : (relay.write h output).on s = (.error f, t)) :
    (∀ y ≠ files.entry relay.path,
        files.content t.machine y = files.content s.machine y) ∧
      files.held t.machine = files.held s.machine := by
  rcases happend : h.append relay.handle output.bytes s.machine with ⟨answer, m'⟩
  rw [Relay.on_write, happend] at hrun
  cases answer with
  | error e =>
      obtain ⟨-, rfl⟩ := Prod.mk.inj hrun
      exact w.append_error hmakes.cursor happend
  | ok _ => cases congrArg Prod.fst hrun

/-- Giving a relay back whose file can be removed removes it. -/
theorem dispose_eq (w : files.Lawful h store) (hnames : store.Names relay.path)
    (hnul : relay.path.bytes.hasNul = false)
    (hremove : (h.remove relay.path (h.close relay.handle s.machine)).1 = .ok ()) :
    ∃ t, (relay.dispose h).on s = (.ok (), t) ∧
      files.Removes (files.entry relay.path) s.machine t.machine := by
  have hclose := w.close relay.handle s.machine
  rw [Relay.on_dispose, on_onPath hnul]
  rcases hcall : h.remove relay.path (h.close relay.handle s.machine) with ⟨answer, m'⟩
  rw [hcall] at hremove
  obtain rfl : answer = .ok () := hremove
  obtain ⟨hcontent, hheld⟩ := w.remove_ok hnames hcall
  refine ⟨_, rfl, ?_, ?_⟩
  · rw [Sets, ← hclose.content]
    exact hcontent
  · rw [← hclose.held]
    exact hheld

private theorem removes_of_same {x : ι} {m m' m'' : σ}
    (hremoves : files.Removes x m m') (hsame : files.Same m' m'') :
    files.Removes x m m'' :=
  ⟨hsame.content.trans hremoves.content, hsame.held.trans hremoves.held⟩

theorem release_eq (w : files.Lawful h store) (hnames : store.Names relay.path)
    (hnul : relay.path.bytes.hasNul = false)
    (hremove : (h.remove relay.path (h.close relay.handle s.machine)).1 = .ok ()) :
    ∃ t, (relay.release h).on s = (.ok (), t) ∧
      files.Removes (files.entry relay.path) s.machine t.machine := by
  obtain ⟨t, hdispose, hremoves⟩ := w.dispose_eq hnames hnul hremove
  rw [Relay.on_release, hdispose]
  exact ⟨_, rfl, removes_of_same hremoves (w.note _ t)⟩

theorem drop_eq (w : files.Lawful h store) (hnames : store.Names relay.path)
    (hnul : relay.path.bytes.hasNul = false)
    (hremove : (h.remove relay.path (h.close relay.handle s.machine)).1 = .ok ()) :
    files.Removes (files.entry relay.path) s.machine
      ((relay.drop h).on s).2.machine := by
  obtain ⟨t, hdispose, hremoves⟩ := w.dispose_eq hnames hnul hremove
  rw [Relay.on_drop, hdispose]
  exact removes_of_same hremoves (w.note _ t)

end Files.Lawful

end CommandExpr
