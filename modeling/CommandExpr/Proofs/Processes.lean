import CommandExpr.Proofs.Files
import CommandExpr.Proofs.Runs
import Mathlib.Data.Multiset.MapFold
import Mathlib.Logic.Relation

/-!
# Processes with relays on the same files

Any number of processes have relays at the same time, each with a counter of its
own, in the same directory or in different ones.  What they do is cut into the
calls that the host sees, and the calls of different processes come in any order:
a number is taken, its name is tried, a relay is written, opened, released or
dropped.  Between them anybody may do anything to the files, but for those of
relays that are live.

`Volume` is the view of the files that all of them have in common, and
`Volume.Lawful` what the system does when it is called.  The name of a file leads
to an entry, from different processes perhaps by different paths.  A file is made
only where there is none; that is all that keeps relays apart.

## Main definitions

* `Volume`, `Volume.Lawful` — files that several processes work on
* `World`, `Live` — the processes, with what was written through each relay
* `Moves` — a single step of one of them, or of others

## Main results

* `Volume.Lawful.write`, `Volume.Lawful.dispose`, … — what each step does to the
  files.
* `Volume.Lawful.reaches_create` — a relay is made in such steps.
-/

namespace CommandExpr

/-! ## Files in common -/

/-- What can be seen of the files that several processes work on. -/
structure Volume (σ π ι : Type) where
  /-- The entry to which a path leads a process. -/
  entry : π → Path → ι
  /-- What an entry contains; none if there is nothing. -/
  content : σ → ι → Option Bytes
  /-- The entry that a handle of a process is on, and how far in it stands. -/
  cursor : σ → π × Handle → Option (ι × Nat)

namespace Volume

variable {σ π ι : Type}

/-- The bytes from where a handle stands to the end of its file. -/
def ahead (v : Volume σ π ι) (m : σ) (opened : π × Handle) : Option Bytes := do
  let (x, place) ← v.cursor m opened
  return (← v.content m x).drop place

/-- Files and handles are the same. -/
structure Same (v : Volume σ π ι) (m m' : σ) : Prop where
  content : v.content m' = v.content m
  cursor : v.cursor m' = v.cursor m

variable [DecidableEq π] [DecidableEq ι]

/-- What the calls of the processes do to their files. -/
structure Lawful (v : Volume σ π ι) (h : π → Host σ) : Prop where
  /-- A file is made at once, or not at all if there is one in its place. -/
  createNew_ok {p : π} {path : Path} {handle : Handle} {m m' : σ} :
    (h p).createNew path m = (.ok handle, m') →
      v.content m (v.entry p path) = none ∧ v.cursor m (p, handle) = none ∧
        v.content m' = Function.update (v.content m) (v.entry p path) (some []) ∧
          v.cursor m' = Function.update (v.cursor m) (p, handle) (some (v.entry p path, 0))
  createNew_error {p : π} {path : Path} {e : Errno} {m m' : σ} :
    (h p).createNew path m = (.error e, m') → v.Same m m'
  /-- A file is read from its start. -/
  openRead_ok {p : π} {path : Path} {handle : Handle} {m m' : σ} :
    (h p).openRead path m = (.ok handle, m') →
      v.cursor m (p, handle) = none ∧ v.content m' = v.content m ∧
        v.cursor m' = Function.update (v.cursor m) (p, handle) (some (v.entry p path, 0))
  /-- A file that is there is not missed. -/
  openRead_error {p : π} {path : Path} {e : Errno} {m m' : σ} :
    (h p).openRead path m = (.error e, m') →
      v.Same m m' ∧ (e = .notFound → v.content m (v.entry p path) = none)
  /-- Bytes are put behind those that are there, if the handle stands at the end: all of
  them, or as many as there was room for. -/
  append {p : π} {handle : Handle} {x : ι} {old bytes : Bytes} {m m' : σ}
      {answer : Except Errno Unit} :
    v.cursor m (p, handle) = some (x, old.length) → v.content m x = some old →
      (h p).append handle bytes m = (answer, m') →
        ∃ part, part <+: bytes ∧ (answer = .ok () → part = bytes) ∧
          v.content m' = Function.update (v.content m) x (some (old ++ part)) ∧
            v.cursor m' = Function.update (v.cursor m) (p, handle)
              (some (x, (old ++ part).length))
  close (p : π) (handle : Handle) (m : σ) :
    v.content ((h p).close handle m) = v.content m ∧
      v.cursor ((h p).close handle m) = Function.update (v.cursor m) (p, handle) none
  remove_ok {p : π} {path : Path} {m m' : σ} :
    (h p).remove path m = (.ok (), m') →
      v.content m' = Function.update (v.content m) (v.entry p path) none ∧
        v.cursor m' = v.cursor m
  remove_error {p : π} {path : Path} {e : Errno} {m m' : σ} :
    (h p).remove path m = (.error e, m') → v.Same m m'
  tell (p : π) (message : Message) (m : σ) : v.Same m ((h p).tell message m)

end Volume

/-! ## Steps -/

/-- A relay that was made and neither released nor dropped yet. -/
structure Live (π : Type) where
  /-- The process that made it. -/
  owner : π
  /-- The relay. -/
  relay : Relay
  /-- What was written through it, write by write. -/
  written : List Bytes

/-- The relays that are live after an attempt to make one. -/
def Live.new {π ε : Type} (p : π) : Except ε Relay → Multiset (Live π)
  | .ok relay => {⟨p, relay, []⟩}
  | .error _ => 0

/-- Processes that work on the same files. -/
structure World (σ π : Type) where
  /-- The machine with the files. -/
  machine : σ
  /-- The number of the next relay of each process. -/
  next : π → UInt64
  /-- Numbers that were taken and whose names were not tried yet. -/
  pending : Multiset (π × RelayStore × UInt64)
  /-- The relays. -/
  live : Multiset (Live π)

section Moves

variable {σ π ι : Type} [DecidableEq π]

/-- The session of a process. -/
def World.session (W : World σ π) (p : π) : Session σ := ⟨W.next p, W.machine⟩

/-- The world after a process has left its session. -/
def World.left (W : World σ π) (p : π) (t : Session σ) : World σ π :=
  { W with machine := t.machine, next := Function.update W.next p t.nextRelay }

/-- A process is in the session in which it left the world. -/
theorem World.session_left (W : World σ π) (p : π) (t : Session σ) :
    (W.left p t).session p = t := by
  simp only [session, left, Function.update_self]

/-- Only the last session that a process left counts. -/
theorem World.left_left (W : World σ π) (p : π) (s t : Session σ) :
    (W.left p s).left p t = W.left p t := by
  simp only [left, Function.update_idem]

/-- The entry of a relay. -/
def Volume.entryOf (v : Volume σ π ι) (l : Live π) : ι := v.entry l.owner l.relay.path

/-- The handle of a relay. -/
def Live.handle (l : Live π) : π × Handle := (l.owner, l.relay.handle)

/-- A step from one world to another, and of which relay it is, by its entry; none if
it is not that of a relay. -/
inductive Moves (v : Volume σ π ι) (h : π → Host σ) :
    World σ π → Option ι → World σ π → Prop
  /-- A number is taken. -/
  | took {W : World σ π} {p : π} {store : RelayStore} {id : UInt64} {t : Session σ}
      (hrun : Relay.takeId.on (W.session p) = (id, t)) :
      Moves v h W (some (v.entry p (store.pathOf id)))
        { W.left p t with pending := (p, store, id) ::ₘ W.pending }
  /-- Its name is tried, and the relay is made … -/
  | made {W : World σ π} {p : π} {store : RelayStore} {id : UInt64} {handle : Handle}
      {t : Session σ} {rest : Multiset (π × RelayStore × UInt64)}
      (hpending : W.pending = (p, store, id) ::ₘ rest)
      (hrun : (Relay.onPath (store.pathOf id) (h p).createNew).on (W.session p)
        = (.ok handle, t)) :
      Moves v h W (some (v.entry p (store.pathOf id)))
        { W.left p t with
          pending := rest
          live := ⟨p, ⟨id, store.pathOf id, handle⟩, []⟩ ::ₘ W.live }
  /-- … or it is not. -/
  | missed {W : World σ π} {p : π} {store : RelayStore} {id : UInt64} {e : IoError}
      {t : Session σ} {rest : Multiset (π × RelayStore × UInt64)}
      (hpending : W.pending = (p, store, id) ::ₘ rest)
      (hrun : (Relay.onPath (store.pathOf id) (h p).createNew).on (W.session p)
        = (.error e, t)) :
      Moves v h W (some (v.entry p (store.pathOf id))) { W.left p t with pending := rest }
  /-- A relay is written … -/
  | wrote {W : World σ π} {l : Live π} {rest : Multiset (Live π)} {output : Capture}
      {t : Session σ} (hlive : W.live = l ::ₘ rest)
      (hrun : (l.relay.write (h l.owner) output).on (W.session l.owner) = (.ok (), t)) :
      Moves v h W (some (v.entryOf l))
        { W.left l.owner t with
          live := { l with written := l.written ++ [output.bytes] } ::ₘ rest }
  /-- … or only so far as its handle got. -/
  | broke {W : World σ π} {l : Live π} {rest : Multiset (Live π)} {output : Capture}
      {f : Failure} {t : Session σ} {place : Nat} (hlive : W.live = l ::ₘ rest)
      (hrun : (l.relay.write (h l.owner) output).on (W.session l.owner) = (.error f, t))
      (hplace : v.cursor t.machine l.handle = some (v.entryOf l, place)) :
      Moves v h W (some (v.entryOf l))
        { W.left l.owner t with
          live := { l with
            written := l.written ++ [output.bytes.take (place - l.written.flatten.length)] }
              ::ₘ rest }
  /-- A relay is opened to be read. -/
  | opened {W : World σ π} {l : Live π} {result : Except Failure Handle} {t : Session σ}
      (hlive : l ∈ W.live)
      (hrun : (l.relay.openForRead (h l.owner)).on (W.session l.owner) = (result, t)) :
      Moves v h W (some (v.entryOf l)) (W.left l.owner t)
  /-- A relay is released. -/
  | released {W : World σ π} {l : Live π} {rest : Multiset (Live π)}
      {result : Except Failure Unit} {t : Session σ} (hlive : W.live = l ::ₘ rest)
      (hrun : (l.relay.release (h l.owner)).on (W.session l.owner) = (result, t)) :
      Moves v h W (some (v.entryOf l)) { W.left l.owner t with live := rest }
  /-- A relay is dropped. -/
  | dropped {W : World σ π} {l : Live π} {rest : Multiset (Live π)} {t : Session σ}
      (hlive : W.live = l ::ₘ rest)
      (hrun : (l.relay.drop (h l.owner)).on (W.session l.owner) = ((), t)) :
      Moves v h W (some (v.entryOf l)) { W.left l.owner t with live := rest }
  /-- Others do anything to the machine, but they leave the relays alone. -/
  | others {W : World σ π} {m : σ}
      (hsame : ∀ l ∈ W.live, v.content m (v.entryOf l) = v.content W.machine (v.entryOf l) ∧
        v.cursor m l.handle = v.cursor W.machine l.handle) :
      Moves v h W none { W with machine := m }

/-- One world comes of another by steps. -/
def Reaches (v : Volume σ π ι) (h : π → Host σ) : World σ π → World σ π → Prop :=
  Relation.ReflTransGen fun W W' => ∃ x, Moves v h W x W'

end Moves

/-! ## What a step does to the files -/

namespace Volume

variable {σ π ι : Type}

/-- At most one entry and one handle are other than they were. -/
structure Touches (v : Volume σ π ι) (x : ι) (handle : π × Handle) (m m' : σ) : Prop where
  content : ∀ y ≠ x, v.content m' y = v.content m y
  cursor : ∀ k ≠ handle, v.cursor m' k = v.cursor m k

/-- The relay's file is there and contains what was written, and its handle stands
at the end. -/
structure Sound (v : Volume σ π ι) (m : σ) (l : Live π) : Prop where
  hasNul : l.relay.path.bytes.hasNul = false
  content : v.content m (v.entryOf l) = some l.written.flatten
  cursor : v.cursor m l.handle = some (v.entryOf l, l.written.flatten.length)

variable {v : Volume σ π ι} {l l' : Live π} {m m' m'' : σ} {x : ι} {handle : π × Handle}

theorem Touches.of_same (hsame : v.Same m m') : v.Touches x handle m m' :=
  ⟨fun y _ => congrFun hsame.content y, fun k _ => congrFun hsame.cursor k⟩

theorem Touches.trans (hab : v.Touches x handle m m') (hbc : v.Touches x handle m' m'') :
    v.Touches x handle m m'' :=
  ⟨fun y hy => (hbc.content y hy).trans (hab.content y hy),
    fun k hk => (hbc.cursor k hk).trans (hab.cursor k hk)⟩

theorem Touches.of_update [DecidableEq π] [DecidableEq ι] {content : Option Bytes}
    {place : Option (ι × Nat)} (hcontent : v.content m' = Function.update (v.content m) x content)
    (hcursor : v.cursor m' = Function.update (v.cursor m) handle place) :
    v.Touches x handle m m' where
  content y hy := by rw [hcontent, Function.update_of_ne hy]
  cursor k hk := by rw [hcursor, Function.update_of_ne hk]

/-- A relay whose file and handle are as they were is as it was. -/
theorem Sound.frame (hl : v.Sound m l)
    (hcontent : v.content m' (v.entryOf l) = v.content m (v.entryOf l))
    (hcursor : v.cursor m' l.handle = v.cursor m l.handle) : v.Sound m' l :=
  ⟨hl.hasNul, hcontent.trans hl.content, hcursor.trans hl.cursor⟩

/-- Handles on different entries are different. -/
theorem Sound.handle_ne (hl : v.Sound m l) (hl' : v.Sound m l')
    (hne : v.entryOf l ≠ v.entryOf l') : l.handle ≠ l'.handle := by
  intro heq
  have hcursor := hl.cursor
  rw [heq, hl'.cursor] at hcursor
  exact hne (Prod.mk.inj (Option.some.inj hcursor)).1.symm

namespace Lawful

variable [DecidableEq π] [DecidableEq ι] {h : π → Host σ} {p : π} {path : Path}
  {s t : Session σ}

theorem note (law : v.Lawful h) (p : π) (n : Notice) (s : Session σ) :
    v.Same s.machine (s.noted (h p) n).machine :=
  law.tell p (.notice n) s.machine

/-- A name that was free is a new and empty file now. -/
theorem made (law : v.Lawful h) {handle : Handle}
    (hrun : (Relay.onPath path (h p).createNew).on s = (.ok handle, t)) :
    path.bytes.hasNul = false ∧ v.content s.machine (v.entry p path) = none ∧
      v.cursor s.machine (p, handle) = none ∧
        v.content t.machine
          = Function.update (v.content s.machine) (v.entry p path) (some []) ∧
        v.cursor t.machine = Function.update (v.cursor s.machine) (p, handle)
          (some (v.entry p path, 0)) := by
  obtain ⟨hnul, hcall⟩ := of_onPath_ok hrun
  exact ⟨hnul, law.createNew_ok hcall⟩

/-- A name that was not free changes nothing. -/
theorem missed (law : v.Lawful h) {e : IoError}
    (hrun : (Relay.onPath path (h p).createNew).on s = (.error e, t)) :
    v.Same s.machine t.machine := by
  rcases of_onPath_error hrun with heq | ⟨errno, hcall⟩
  · rw [heq]
    exact ⟨rfl, rfl⟩
  · exact law.createNew_error hcall

/-- What is written through a relay is put behind what was written before. -/
theorem write (law : v.Lawful h) {output : Capture} {result : Except Failure Unit}
    (hl : v.Sound s.machine l)
    (hrun : (l.relay.write (h l.owner) output).on s = (result, t)) :
    ∃ part, part <+: output.bytes ∧ (result = .ok () → part = output.bytes) ∧
      v.content t.machine = Function.update (v.content s.machine) (v.entryOf l)
        (some (l.written.flatten ++ part)) ∧
      v.cursor t.machine = Function.update (v.cursor s.machine) l.handle
        (some (v.entryOf l, (l.written.flatten ++ part).length)) := by
  rcases happend : (h l.owner).append l.relay.handle output.bytes s.machine with ⟨answer, m⟩
  obtain ⟨part, hpart, hall, hcontent, hcursor⟩ :=
    law.append hl.cursor hl.content happend
  rw [Relay.on_write, happend] at hrun
  cases answer with
  | error e =>
      obtain ⟨rfl, rfl⟩ := Prod.mk.inj hrun
      exact ⟨part, hpart, by simp, hcontent, hcursor⟩
  | ok _ =>
      obtain ⟨rfl, rfl⟩ := Prod.mk.inj hrun
      have hnote := law.note l.owner (.relayWritten l.relay.path.display output.length)
        { s with machine := m }
      exact ⟨part, hpart, fun _ => hall rfl, hnote.content.trans hcontent,
        hnote.cursor.trans hcursor⟩

/-- **A relay that is opened is read from its start**, if the system opens a file that
is there. -/
theorem openForRead (law : v.Lawful h) {result : Except Failure Handle}
    (hl : v.Sound s.machine l)
    (hrun : (l.relay.openForRead (h l.owner)).on s = (result, t)) :
    (∃ handle, result = .ok handle ∧ v.cursor s.machine (l.owner, handle) = none ∧
      v.content t.machine = v.content s.machine ∧
      v.cursor t.machine = Function.update (v.cursor s.machine) (l.owner, handle)
        (some (v.entryOf l, 0))) ∨
    ∃ f errno, result = .error f ∧ errno ≠ .notFound ∧ v.Same s.machine t.machine ∧
      (h l.owner).openRead l.relay.path s.machine = (.error errno, t.machine) := by
  rw [Relay.on_openForRead, on_onPath hl.hasNul] at hrun
  rcases hcall : (h l.owner).openRead l.relay.path s.machine with ⟨answer, m⟩
  rw [hcall] at hrun
  cases answer with
  | ok handle =>
      obtain ⟨rfl, rfl⟩ := Prod.mk.inj hrun
      exact Or.inl ⟨handle, rfl, law.openRead_ok hcall⟩
  | error errno =>
      obtain ⟨rfl, rfl⟩ := Prod.mk.inj hrun
      obtain ⟨hsame, hfound⟩ := law.openRead_error hcall
      refine Or.inr ⟨_, errno, rfl, fun heq => ?_, hsame, rfl⟩
      have hnone := hfound heq
      rw [show v.entry l.owner l.relay.path = v.entryOf l from rfl, hl.content] at hnone
      cases hnone

/-- What is given back is closed, and nothing else is removed. -/
theorem dispose (law : v.Lawful h) {result : Except IoError Unit}
    (hrun : (l.relay.dispose (h l.owner)).on s = (result, t)) :
    v.Touches (v.entryOf l) l.handle s.machine t.machine := by
  obtain ⟨hcontent, hcursor⟩ := law.close l.owner l.relay.handle s.machine
  have hclose : v.Touches (v.entryOf l) l.handle s.machine
      ((h l.owner).close l.relay.handle s.machine) :=
    ⟨fun y _ => congrFun hcontent y, fun k hk => by
      rw [hcursor, Function.update_of_ne (show k ≠ (l.owner, l.relay.handle) from hk)]⟩
  rw [Relay.on_dispose] at hrun
  refine hclose.trans ?_
  cases result with
  | error e =>
      rcases of_onPath_error hrun with heq | ⟨errno, hcall⟩
      · rw [heq]
        exact .of_same ⟨rfl, rfl⟩
      · exact .of_same (law.remove_error hcall)
  | ok _ =>
      obtain ⟨hremoved, hsame⟩ := law.remove_ok (of_onPath_ok hrun).2
      exact ⟨fun y hy => (congrFun hremoved y).trans (Function.update_of_ne hy _ _),
        fun k _ => congrFun hsame k⟩

theorem release (law : v.Lawful h) {result : Except Failure Unit}
    (hrun : (l.relay.release (h l.owner)).on s = (result, t)) :
    v.Touches (v.entryOf l) l.handle s.machine t.machine := by
  rw [Relay.on_release] at hrun
  split at hrun
  · next u hdispose =>
      obtain ⟨-, rfl⟩ := Prod.mk.inj hrun
      exact (law.dispose hdispose).trans (.of_same (law.note _ _ u))
  · next hdispose =>
      obtain ⟨-, rfl⟩ := Prod.mk.inj hrun
      exact law.dispose hdispose

theorem drop (law : v.Lawful h) (hrun : (l.relay.drop (h l.owner)).on s = ((), t)) :
    v.Touches (v.entryOf l) l.handle s.machine t.machine := by
  rw [Relay.on_drop] at hrun
  split at hrun <;>
    next u hdispose =>
      obtain ⟨-, rfl⟩ := Prod.mk.inj hrun
      exact (law.dispose hdispose).trans (.of_same (law.note _ _ u))

/-! ## Making a relay -/

variable {W : World σ π} {store : RelayStore}

/-- A notice is a step of others. -/
theorem reaches_note (law : v.Lawful h) (W : World σ π) (p : π) (n : Notice) :
    Reaches v h W { W with machine := (h p).tell (.notice n) W.machine } := by
  have hsame := law.tell p (.notice n) W.machine
  exact .single ⟨none, .others fun l _ =>
    ⟨congrFun hsame.content _, congrFun hsame.cursor _⟩⟩

omit [DecidableEq ι] in
/-- A name is tried right after its number was taken. -/
private theorem reaches_onPath {answer : Except IoError Handle}
    (hcall : (Relay.onPath (store.pathOf (W.next p)) (h p).createNew).on
      { W.session p with nextRelay := W.next p + 1 } = (answer, t)) :
    Reaches v h W { W.left p t with
      live := Live.new p (answer.map (⟨W.next p, store.pathOf (W.next p), ·⟩)) + W.live } := by
  let taken : World σ π := { W.left p { W.session p with nextRelay := W.next p + 1 } with
    pending := (p, store, W.next p) ::ₘ W.pending }
  have htook : Moves v h W (some (v.entry p (store.pathOf (W.next p)))) taken := .took rfl
  have hsession : taken.session p = { W.session p with nextRelay := W.next p + 1 } :=
    W.session_left p _
  have hleft : taken.left p t = { W.left p t with pending := taken.pending } := by
    simp only [taken, World.left, Function.update_idem]
  rw [← hsession] at hcall
  refine .head ⟨_, htook⟩ (.single ⟨some (v.entry p (store.pathOf (W.next p))), ?_⟩)
  cases answer with
  | ok handle =>
      have hmade := Moves.made (v := v) (W := taken) rfl hcall
      rwa [hleft] at hmade
  | error e =>
      have hmissed := Moves.missed (v := v) (W := taken) rfl hcall
      rw [hleft] at hmissed
      simp only [Live.new, Except.map, Multiset.zero_add]
      exact hmissed

private theorem reaches_of_creates (law : v.Lawful h) {left tried : Nat}
    {result : Except Failure Relay}
    (hcreates : Relay.Creates (h p) store left tried s result t) :
    ∀ W : World σ π, W.session p = s →
      Reaches v h W { W.left p t with live := Live.new p result + W.live } := by
  induction hcreates with
  | made hcall =>
      rintro W rfl
      exact (reaches_onPath hcall).trans (law.reaches_note _ p _)
  | refused hcall _ =>
      rintro W rfl
      exact reaches_onPath hcall
  | @taken _ _ s t u _ result hcall _ _ ih =>
      rintro W rfl
      have hnoted := (reaches_onPath hcall).trans (law.reaches_note _ p
        (.relayTaken (store.pathOf (W.next p)).display))
      have hrest := ih (W.left p (t.noted (h p) (.relayTaken
        (store.pathOf (W.next p)).display))) (W.session_left p _)
      rw [World.left_left] at hrest
      simp only [Live.new, Except.map, Multiset.zero_add] at hnoted
      exact hnoted.trans hrest

/-- **A relay is made in steps**: those of the process that makes it, if no others
come between them. -/
theorem reaches_create (law : v.Lawful h) {result : Except Failure Relay}
    (hrun : (Relay.create (h p) store).on (W.session p) = (result, t)) :
    Reaches v h W { W.left p t with live := Live.new p result + W.live } :=
  law.reaches_of_creates (Relay.create_eq_iff.mp hrun) W rfl

end Lawful

end Volume

end CommandExpr
