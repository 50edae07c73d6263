import CommandExpr.Proofs.Lives
import CommandExpr.Proofs.RelayNames
import CommandExpr.Proofs.Supervision

/-!
# Relays that nobody looks at

Programs may do as they like, but not with relays: a program that is given a
relay reads it, and nothing that any program does depends on which other relays
there are, or changes one.  `Files.Discreet` says so of a host, by a relation
that holds between two states of the machine if they differ at most in the
relays, in the files that are open, and in what was logged.

On such a host two sessions stay **beside** each other in which the same is
done, if a relay is there in one of them that is not in the other.  The handles
of files need not be the same in both: what counts is on which file they are.

## Main results

* `Files.Beside.run` — a program does the same in both sessions, if it is given
  no relay, or one with the same content.
* `Files.Beside.create`, `Files.Beside.write` — a relay is made in both sessions or
  in none, under the same name, and so it is written.
* `Files.Beside.givesBack_left`, `Files.Beside.givesBack` — giving back the one relay
  in which they differ leaves sessions beside each other, and so does giving back
  another in both.
-/

namespace CommandExpr

variable {σ ι α : Type}

/-! ## Hosts -/

/-- Anything may be done to an entry that is none of a relay, and nothing to the
others. -/
def Files.outside (files : Files σ ι) (store : RelayStore) : Drift ι :=
  fun x a b => (∃ i, x = files.entry (store.pathOf i)) → a = b

/-- In states that are alike a call has the same answer, and leaves states that are
alike. -/
def Blind (alike : σ → σ → Prop) (f : σ → α × σ) : Prop :=
  ∀ m m', alike m m' → (f m).1 = (f m').1 ∧ alike (f m).2 (f m').2

/-- Watching over a process goes the same way on machines that are alike, and logging
leaves a machine alike.  Nothing is said of the clock. -/
structure Host.Steady (h : Host σ) (alike : σ → σ → Prop) : Prop where
  equivalence : Equivalence alike
  patience {m m' : σ} : alike m m' → h.patience m = h.patience m'
  readReport (pid : Pid) (count : Nat) : Blind alike (h.readReport pid count)
  readOutput (pid : Pid) (count : Nat) : Blind alike (h.readOutput pid count)
  pollOutput (pid : Pid) (millis : Nat) : Blind alike (h.pollOutput pid millis)
  wait (pid : Pid) (look : Bool) : Blind alike (h.wait pid look)
  kill (pid : Pid) (signal : Signal) : Blind alike (h.kill pid signal)
  hangUp (pid : Pid) {m m' : σ} : alike m m' → alike (h.hangUp pid m) (h.hangUp pid m')
  sleep (time : Nat) {m m' : σ} : alike m m' → alike (h.sleep time m) (h.sleep time m')
  tell (message : Message) (m : σ) : alike m (h.tell message m)

/-- Two answers are both the same failure, or no failures. -/
inductive SameFailure {ε : Type} : Except ε α → Except ε α → Prop where
  | ok (a b : α) : SameFailure (.ok a) (.ok b)
  | error (e : ε) : SameFailure (.error e) (.error e)

theorem SameFailure.mapError {ε ε' : Type} {a b : Except ε α} (hab : SameFailure a b)
    (f : ε → ε') : SameFailure (a.mapError f) (b.mapError f) := by
  cases hab with
  | ok a b => exact .ok a b
  | error e => exact .error (f e)

/-- What a program can know of relays, and what they are to the rest of the
machine: states that are `alike` differ at most in relays, in open files, and in
what was logged. -/
structure Files.Discreet (files : Files σ ι) (h : Host σ) (store : RelayStore)
    (alike : σ → σ → Prop) : Prop extends h.Steady alike where
  /-- The entries of different relays are different. -/
  entry_inj {p q : Path} :
    store.Names p → store.Names q → files.entry p = files.entry q → p = q
  /-- A program that is given no relay does not know of any, … -/
  spawn (argv : List Bytes) : Blind alike (h.spawn argv none)
  /-- … and one that is given a relay knows what it contains. -/
  spawn_relay (argv : List Bytes) {path : Path} {handle handle' : Handle} {m m' : σ} :
    store.Names path → alike m m' →
      files.cursor m handle = some (files.entry path, 0) →
      files.cursor m' handle' = some (files.entry path, 0) →
      files.content m (files.entry path) = files.content m' (files.entry path) →
        (h.spawn argv (some handle) m).1 = (h.spawn argv (some handle') m').1 ∧
          alike (h.spawn argv (some handle) m).2 (h.spawn argv (some handle') m').2
  /-- Whether a relay can be made depends on what there is in its place. -/
  createNew {path : Path} {m m' : σ} :
    store.Names path → alike m m' →
      files.content m (files.entry path) = files.content m' (files.entry path) →
        SameFailure (h.createNew path m).1 (h.createNew path m').1 ∧
          alike (h.createNew path m).2 (h.createNew path m').2
  openRead {path : Path} {m m' : σ} :
    store.Names path → alike m m' →
      files.content m (files.entry path) = files.content m' (files.entry path) →
        SameFailure (h.openRead path m).1 (h.openRead path m').1 ∧
          alike (h.openRead path m).2 (h.openRead path m').2
  append {path : Path} {handle handle' : Handle} {k : Nat} (bytes : Bytes) {m m' : σ} :
    store.Names path → alike m m' →
      files.cursor m handle = some (files.entry path, k) →
      files.cursor m' handle' = some (files.entry path, k) →
      files.content m (files.entry path) = files.content m' (files.entry path) →
        (h.append handle bytes m).1 = (h.append handle' bytes m').1 ∧
          alike (h.append handle bytes m).2 (h.append handle' bytes m').2 ∧
          files.content (h.append handle bytes m).2 (files.entry path)
            = files.content (h.append handle' bytes m').2 (files.entry path)
  close (handle : Handle) (m : σ) : alike m (h.close handle m)
  remove {path : Path} (m : σ) : store.Names path → alike m (h.remove path m).2

/-- Two sessions are alike but for the relay with a number: it may be there in one
of them and not in the other. -/
structure Files.Beside (files : Files σ ι) (store : RelayStore)
    (alike : σ → σ → Prop) (x : UInt64) (s t : Session σ) : Prop where
  next : t.nextRelay = s.nextRelay
  alike : alike s.machine t.machine
  contents : ∀ i ≠ x, files.content s.machine (files.entry (store.pathOf i))
    = files.content t.machine (files.entry (store.pathOf i))

/-- The relay with a number is removed, and nothing else is done. -/
structure Files.GivesBack (files : Files σ ι) (store : RelayStore)
    (alike : σ → σ → Prop) (y : UInt64) (s t : Session σ) [DecidableEq ι] : Prop where
  next : t.nextRelay = s.nextRelay
  alike : alike s.machine t.machine
  removes : files.Removes (files.entry (store.pathOf y)) s.machine t.machine

/-- Two relays that are one but for their handles, and that have another number. -/
structure Relay.Twins (store : RelayStore) (x : UInt64) (a b : Relay) : Prop where
  id : b.id = a.id
  left_path : a.path = store.pathOf a.id
  right_path : b.path = a.path
  ne : a.id ≠ x

/-- Two relays that were made so, or the same failure to make one. -/
inductive Relay.Pair (store : RelayStore) (x : UInt64) :
    Except Failure Relay → Except Failure Relay → Prop where
  | ok {a b : Relay} (hab : a.Twins store x b) : Pair store x (.ok a) (.ok b)
  | error (f : Failure) : Pair store x (.error f) (.error f)

/-- Two inputs that are one but for the handle of the relay. -/
inductive InputSource.Twins (store : RelayStore) (x : UInt64) :
    InputSource → InputSource → Prop where
  | inherited : Twins store x .inherited .inherited
  | relay {a b : Relay} (hab : a.Twins store x b) : Twins store x (.relay a) (.relay b)

namespace Files

variable {files : Files σ ι} {h : Host σ} {store : RelayStore}
  {alike : σ → σ → Prop} {x : UInt64} {s s' t : Session σ} {m m' m₁ m₁' : σ}

theorem Discreet.alike_of (d : files.Discreet h store alike) (hm : alike m m')
    (hleft : alike m m₁) (hright : alike m' m₁') : alike m₁ m₁' :=
  d.equivalence.trans (d.equivalence.symm hleft) (d.equivalence.trans hm hright)

theorem Discreet.pathOf_inj (d : files.Discreet h store alike) {i j : UInt64}
    (heq : files.entry (store.pathOf i) = files.entry (store.pathOf j)) : i = j :=
  RelayStore.pathOf_inj.mp
    (d.entry_inj (store.names_pathOf i) (store.names_pathOf j) heq)

/-- A write does nothing to the other entries, whether it fails or not. -/
theorem Lawful.others_of_append [DecidableEq ι] (w : files.Lawful h store) {relay : Relay}
    {bytes : Bytes} {answer : Except Errno Unit} (hmakes : files.Makes store relay m m')
    (happend : h.append relay.handle bytes m' = (answer, m₁)) :
    ∀ y ≠ files.entry relay.path, files.content m₁ y = files.content m' y := by
  cases answer with
  | error e => exact (w.append_error hmakes.cursor happend).1
  | ok _ =>
      intro y hy
      have hempty : files.content m' (files.entry relay.path) = some [] := by
        rw [hmakes.content, Function.update_self]
      obtain ⟨hset, -⟩ := w.append_ok hmakes.cursor hempty (Nat.le_refl 0) happend
      rw [hset, Function.update_of_ne hy]

/-- Nothing is done to a relay by what leaves relays alone. -/
theorem Leaves.content_eq (hl : files.Leaves (files.outside store) m m') (i : UInt64) :
    files.content m (files.entry (store.pathOf i))
      = files.content m' (files.entry (store.pathOf i)) :=
  hl.others _ ⟨i, rfl⟩

namespace Beside

theorem refl (d : files.Discreet h store alike) (x : UInt64) (s : Session σ) :
    files.Beside store alike x s s where
  next := rfl
  alike := d.equivalence.refl _
  contents _ _ := rfl

/-- What leaves relays alone, and is alike on both sides, keeps sessions beside each
other. -/
theorem of_leaves (hb : files.Beside store alike x s t) (halike : alike m m')
    (hleft : files.Leaves (files.outside store) s.machine m)
    (hright : files.Leaves (files.outside store) t.machine m') :
    files.Beside store alike x { s with machine := m } { t with machine := m' } where
  next := hb.next
  alike := halike
  contents i hi := by
    rw [← hleft.content_eq, ← hright.content_eq]
    exact hb.contents i hi

private theorem agree_call {f : σ → α × σ} (hf : Blind alike f)
    (hleaves : ∀ m, files.Leaves (files.outside store) m (f m).2) :
    Agree (files.Beside store alike x) (Host.call f) (Host.call f) := by
  intro s t hb
  obtain ⟨heq, halike⟩ := hf s.machine t.machine hb.alike
  exact ⟨heq, hb.of_leaves halike (hleaves s.machine) (hleaves t.machine)⟩

private theorem agree_change {f : σ → σ}
    (hf : ∀ {m m'}, alike m m' → alike (f m) (f m'))
    (hleaves : ∀ m, files.Leaves (files.outside store) m (f m)) :
    Agree (files.Beside store alike x) (Host.change f) (Host.change f) :=
  fun s t hb => ⟨rfl, hb.of_leaves (hf hb.alike) (hleaves s.machine) (hleaves t.machine)⟩

/-- A path is refused on both sides or on none. -/
private theorem onPath (hb : files.Beside store alike x s t) {path : Path}
    {f : Path → σ → Except Errno α × σ}
    (hsame : SameFailure (f path s.machine).1 (f path t.machine).1)
    (hafter : files.Beside store alike x { s with machine := (f path s.machine).2 }
      { t with machine := (f path t.machine).2 }) :
    SameFailure ((Relay.onPath path f).on s).1 ((Relay.onPath path f).on t).1 ∧
      files.Beside store alike x ((Relay.onPath path f).on s).2
        ((Relay.onPath path f).on t).2 := by
  cases hnul : path.bytes.hasNul with
  | true =>
      rw [on_onPath_refused f s hnul, on_onPath_refused f t hnul]
      exact ⟨.error _, hb⟩
  | false =>
      rw [on_onPath hnul, on_onPath hnul]
      exact ⟨hsame.mapError _, hafter⟩

/-- A relay that is there on both sides is opened on both sides or on none. -/
private theorem openRelay (d : files.Discreet h store alike)
    (o : files.Orderly h store (files.outside store))
    (hb : files.Beside store alike x s t) {a b : Relay} (hab : a.Twins store x b) :
    SameFailure ((Relay.onPath a.path h.openRead).on s).1
        ((Relay.onPath b.path h.openRead).on t).1 ∧
      files.Beside store alike x ((Relay.onPath a.path h.openRead).on s).2
        ((Relay.onPath b.path h.openRead).on t).2 := by
  have hnames : store.Names a.path := ⟨_, hab.left_path⟩
  have hcontent : files.content s.machine (files.entry a.path)
      = files.content t.machine (files.entry a.path) := by
    rw [hab.left_path]
    exact hb.contents _ hab.ne
  obtain ⟨hsame, halike⟩ := d.openRead hnames hb.alike hcontent
  rw [hab.right_path]
  exact hb.onPath hsame (hb.of_leaves halike (o.leaves_of_same (o.openRead _ _))
    (o.leaves_of_same (o.openRead _ _)))

section Calls

variable [DecidableEq ι] (d : files.Discreet h store alike)
  (w : files.Lawful h store) (o : files.Orderly h store (files.outside store))

include d w o in
/-- Other things may be logged on both sides. -/
theorem noted (hb : files.Beside store alike x s t) (n n' : Notice) :
    files.Beside store alike x (s.noted h n) (t.noted h n') :=
  hb.of_leaves (d.alike_of hb.alike (d.tell _ _) (d.tell _ _)) (o.note w n s)
    (o.note w n' t)

include d w o in
theorem closing_left (hb : files.Beside store alike x s t) (handle? : Option Handle) :
    files.Beside store alike x (Runner.closing h handle? s) t := by
  cases handle? with
  | none => exact hb
  | some handle =>
      exact hb.of_leaves (d.alike_of hb.alike (d.close handle _) (d.equivalence.refl _))
        (o.leaves_of_same (w.close handle _)) (o.since_refl _).leaves

include d w o in
theorem closing_right (hb : files.Beside store alike x s t) (handle? : Option Handle) :
    files.Beside store alike x s (Runner.closing h handle? t) := by
  cases handle? with
  | none => exact hb
  | some handle =>
      exact hb.of_leaves (d.alike_of hb.alike (d.equivalence.refl _) (d.close handle _))
        (o.since_refl _).leaves (o.leaves_of_same (w.close handle _))

include d w o in
/-- Supervising a child agrees in sessions beside each other, if reading a clock does. -/
private theorem supervised {now : σ → Instant × σ}
    (hnow : Agree (files.Beside store alike x) (Host.call now) (Host.call now)) :
    Supervised (files.Beside store alike x) { h with now } { h with now } where
  patience _ _ hb := d.patience hb.alike
  pollOutput pid millis := agree_call (d.pollOutput pid millis) (o.pollOutput pid millis)
  hangUp pid := agree_change (d.hangUp pid) (o.hangUp pid)
  now := hnow
  tell message _ _ hb := ⟨rfl, hb.of_leaves
    (d.alike_of hb.alike (d.tell message _) (d.tell message _))
    (o.leaves_of_same (w.tell message _)) (o.leaves_of_same (w.tell message _))⟩
  readReport pid count := agree_call (d.readReport pid count) (o.readReport pid count)
  wait pid look := agree_call (d.wait pid look) (o.wait pid look)
  kill pid signal := agree_call (d.kill pid signal) (o.kill pid signal)
  sleep time := agree_change (d.sleep time) (o.sleep time)
  readOutput pid count := agree_call (d.readOutput pid count) (o.readOutput pid count)

include d w o in
/-- So supervising it does, if clocks are alike or there is no deadline to look at one for. -/
private theorem guarded {r : Runner} (hclock : r.deadline = none ∨ Blind alike h.now)
    (program : String) (c : Child) :
    Agree (files.Beside store alike x) (c.guarding h (r.supervise h program))
      (c.guarding h (r.supervise h program)) := by
  rcases hclock with hnone | hnow
  · obtain ⟨cap, _⟩ := r
    obtain rfl := hnone
    have hstill : Agree (files.Beside store alike x) (Host.call h.stopped.now)
        (Host.call h.stopped.now) := fun _ _ hb => ⟨rfl, hb⟩
    rw [← Runner.guarding_stopped h cap]
    exact (supervised d w o hstill).guarded ⟨cap, none⟩ program c
  · exact (supervised d w o (agree_call hnow fun m => o.leaves_of_same (w.now m))).guarded r
      program c

include d w o in
/-- A process is launched alike if it is spawned so and its input is closed. -/
private theorem launch (hb : files.Beside store alike x s t) {r : Runner}
    (hclock : r.deadline = none ∨ Blind alike h.now) {program : String} {argv : List Bytes}
    {handle? handle?' : Option Handle}
    {result : Except Failure (Capture × Status)}
    (hspawn : (h.spawn argv handle? s.machine).1 = (h.spawn argv handle?' t.machine).1 ∧
      alike (h.spawn argv handle? s.machine).2 (h.spawn argv handle?' t.machine).2)
    (hrun : (r.launch h program argv handle?).on s = (result, s')) :
    ∃ t', (r.launch h program argv handle?').on t = (result, t') ∧
      files.Beside store alike x s' t' := by
  obtain ⟨heq, halike⟩ := hspawn
  have hspawned := hb.of_leaves halike (o.spawn argv handle? s.machine)
    (o.spawn argv handle?' t.machine)
  have hclosed : files.Beside store alike x
      (Runner.closing h handle?
        { s with machine := (h.spawn argv handle? s.machine).2 })
      (Runner.closing h handle?'
        { t with machine := (h.spawn argv handle?' t.machine).2 }) :=
    (hspawned.closing_left d w o handle?).closing_right d w o handle?'
  rw [Runner.on_launch] at hrun ⊢
  rw [← heq]
  cases hmade : (h.spawn argv handle? s.machine).1 with
  | error e =>
      rw [hmade] at hrun
      obtain ⟨rfl, rfl⟩ := Prod.mk.inj hrun
      exact ⟨_, rfl, hclosed⟩
  | ok pid =>
      rw [hmade] at hrun
      exact (guarded d w o hclock program ⟨pid, program, none⟩).exists_run
        (hclosed.noted d w o (.spawned program pid) (.spawned program pid)) hrun

omit [DecidableEq ι] w in
include d o in
private theorem openForRead_error (hb : files.Beside store alike x s t) {a b : Relay}
    (hab : a.Twins store x b) {f : Failure}
    (hopen : (a.openForRead h).on s = (.error f, s')) :
    ∃ t', (b.openForRead h).on t = (.error f, t') ∧
      files.Beside store alike x s' t' := by
  obtain ⟨hsame, hafter⟩ := openRelay d o hb hab
  rw [Relay.on_openForRead] at hopen ⊢
  rcases hs : (Relay.onPath a.path h.openRead).on s with ⟨answer, s₁⟩
  rcases ht : (Relay.onPath b.path h.openRead).on t with ⟨answer', t₁⟩
  rw [hs, ht] at hsame hafter
  rw [hs] at hopen
  cases hsame with
  | ok handle handle' => cases congrArg Prod.fst hopen
  | error e =>
      obtain ⟨hf, rfl⟩ := Prod.mk.inj hopen
      obtain rfl := Except.error.inj hf
      rw [hab.right_path]
      exact ⟨t₁, rfl, hafter⟩

include d w o in
private theorem openForRead_ok (hb : files.Beside store alike x s t) {a b : Relay}
    (hab : a.Twins store x b) {handle : Handle}
    (hopen : (a.openForRead h).on s = (.ok handle, s')) :
    ∃ handle' t', (b.openForRead h).on t = (.ok handle', t') ∧
      files.Beside store alike x s' t' ∧ ∀ argv,
        (h.spawn argv (some handle) s'.machine).1
            = (h.spawn argv (some handle') t'.machine).1 ∧
          alike (h.spawn argv (some handle) s'.machine).2
            (h.spawn argv (some handle') t'.machine).2 := by
  obtain ⟨hsame, hafter⟩ := openRelay d o hb hab
  have hnames : store.Names a.path := ⟨_, hab.left_path⟩
  have hopen₀ := Relay.openRead_of_openForRead hopen
  rw [Relay.on_openForRead] at hopen
  rcases hs : (Relay.onPath a.path h.openRead).on s with ⟨answer, s₁⟩
  rcases ht : (Relay.onPath b.path h.openRead).on t with ⟨answer', t₁⟩
  rw [hs, ht] at hsame hafter
  rw [hs] at hopen
  cases hsame with
  | error e => cases congrArg Prod.fst hopen
  | ok handle₀ handle' =>
      obtain ⟨hhandle, rfl⟩ := Prod.mk.inj hopen
      obtain rfl := Except.ok.inj hhandle
      have hopen' : (b.openForRead h).on t = (.ok handle', t₁) := by
        rw [Relay.on_openForRead, ht]
      have hcall := Relay.openRead_of_openForRead hopen'
      rw [hab.right_path] at hcall
      refine ⟨handle', t₁, hopen', hafter, fun argv => ?_⟩
      refine d.spawn_relay argv hnames hafter.alike (w.openRead_ok hnames hopen₀).2
        (w.openRead_ok hnames hcall).2 ?_
      rw [hab.left_path]
      exact hafter.contents _ hab.ne

include d w o in
/-- **A program does the same in sessions beside each other**, unless it is given
the relay in which they differ. -/
theorem run (hb : files.Beside store alike x s t) {r : Runner}
    (hclock : r.deadline = none ∨ Blind alike h.now) {argv : List Bytes}
    {input input' : InputSource} (hin : input.Twins store x input')
    {result : Except Failure (Capture × Status)}
    (hrun : (r.run h argv input).on s = (result, s')) :
    ∃ t', (r.run h argv input').on t = (result, t') ∧
      files.Beside store alike x s' t' := by
  cases Runner.runs_of_run hrun with
  | empty => exact ⟨t, Runner.Runs.empty.run_eq, hb⟩
  | refused hnul => exact ⟨t, (Runner.Runs.refused hnul).run_eq, hb⟩
  | inherited hnul hlaunch =>
      cases hin
      obtain ⟨t', hlaunch', hb'⟩ := hb.launch d w o hclock (d.spawn _ _ _ hb.alike) hlaunch
      exact ⟨t', (Runner.Runs.inherited hnul hlaunch').run_eq, hb'⟩
  | unopened hnul hopen =>
      cases hin with
      | relay hab =>
          obtain ⟨t', hopen', hb'⟩ := hb.openForRead_error d o hab hopen
          exact ⟨t', (Runner.Runs.unopened hnul hopen').run_eq, hb'⟩
  | fed hnul hopen hlaunch =>
      cases hin with
      | relay hab =>
          obtain ⟨handle', t₁, hopen', hb₁, hspawn⟩ := hb.openForRead_ok d w o hab hopen
          obtain ⟨t', hlaunch', hb'⟩ := hb₁.launch d w o hclock (hspawn _) hlaunch
          exact ⟨t', (Runner.Runs.fed hnul hopen' hlaunch').run_eq, hb'⟩

/-! ### Relays that both have -/

omit o in
include d w in
/-- A name is free on both sides or on none, unless it is that of the relay in which
they differ. -/
private theorem tryName (hb : files.Beside store alike x s t) (hne : s.nextRelay ≠ x) :
    SameFailure
        ((Relay.onPath (store.pathOf s.nextRelay) h.createNew).on
          { s with nextRelay := s.nextRelay + 1 }).1
        ((Relay.onPath (store.pathOf s.nextRelay) h.createNew).on
          { t with nextRelay := t.nextRelay + 1 }).1 ∧
      files.Beside store alike x
        ((Relay.onPath (store.pathOf s.nextRelay) h.createNew).on
          { s with nextRelay := s.nextRelay + 1 }).2
        ((Relay.onPath (store.pathOf s.nextRelay) h.createNew).on
          { t with nextRelay := t.nextRelay + 1 }).2 := by
  have hnames := store.names_pathOf s.nextRelay
  have hcounted : files.Beside store alike x { s with nextRelay := s.nextRelay + 1 }
      { t with nextRelay := t.nextRelay + 1 } :=
    ⟨congrArg (· + 1) hb.next, hb.alike, hb.contents⟩
  obtain ⟨hsame, halike⟩ := d.createNew hnames hb.alike (hb.contents _ hne)
  refine hcounted.onPath hsame ⟨hcounted.next, halike, fun i hi => ?_⟩
  change files.content (h.createNew _ s.machine).2 _
    = files.content (h.createNew _ t.machine).2 _
  rcases hs : h.createNew (store.pathOf s.nextRelay) s.machine with ⟨answer, m⟩
  rcases ht : h.createNew (store.pathOf s.nextRelay) t.machine with ⟨answer', m'⟩
  rw [hs, ht] at hsame
  cases hsame with
  | ok handle handle' =>
      obtain ⟨-, hset, -⟩ := w.createNew_ok hnames hs
      obtain ⟨-, hset', -⟩ := w.createNew_ok hnames ht
      rw [hset, hset', Function.update_apply, Function.update_apply, hb.contents i hi]
  | error e =>
      rw [(w.createNew_error hnames hs).content, (w.createNew_error hnames ht).content]
      exact hb.contents i hi

include d w o in
private theorem creates (hb : files.Beside store alike x s t) {left tried : Nat}
    {result : Except Failure Relay} (hfresh : Fresh x (left + 1) s.nextRelay)
    (hc : Relay.Creates h store left tried s result s') :
    ∃ result' t', Relay.Creates h store left tried t result' t' ∧
      Relay.Pair store x result result' ∧ files.Beside store alike x s' t' := by
  induction hc generalizing t with
  | @made left tried s s₁ handle hcall =>
      obtain ⟨hsame, hafter⟩ := hb.tryName d w hfresh.ne
      rcases hcall' : (Relay.onPath (store.pathOf s.nextRelay) h.createNew).on
        { t with nextRelay := t.nextRelay + 1 } with ⟨answer, t₁⟩
      rw [hcall, hcall'] at hsame hafter
      rw [← hb.next] at hcall'
      cases hsame with
      | ok _ handle' =>
          exact ⟨_, _, .made hcall', .ok ⟨hb.next, rfl, by rw [hb.next], hfresh.ne⟩,
            hafter.noted d w o _ _⟩
  | @refused left tried s s₁ e hcall hlast =>
      obtain ⟨hsame, hafter⟩ := hb.tryName d w hfresh.ne
      rcases hcall' : (Relay.onPath (store.pathOf s.nextRelay) h.createNew).on
        { t with nextRelay := t.nextRelay + 1 } with ⟨answer, t₁⟩
      rw [hcall, hcall'] at hsame hafter
      rw [← hb.next] at hcall'
      cases hsame with
      | error _ =>
          refine ⟨_, _, .refused hcall' hlast, ?_, hafter⟩
          rw [hb.next]
          exact .error _
  | @taken left tried s s₁ u e result hcall htaken hrest ih =>
      obtain ⟨hsame, hafter⟩ := hb.tryName d w hfresh.ne
      have hone : s.Takes 1
          (s₁.noted h (.relayTaken (store.pathOf s.nextRelay).display)) :=
        ⟨1, Nat.le_refl 1, nextRelay_of_onPath hcall⟩
      rcases hcall' : (Relay.onPath (store.pathOf s.nextRelay) h.createNew).on
        { t with nextRelay := t.nextRelay + 1 } with ⟨answer, t₁⟩
      rw [hcall, hcall'] at hsame hafter
      rw [← hb.next] at hcall'
      cases hsame with
      | error _ =>
          have hleft : Fresh x (left + 1)
              (s₁.noted h (.relayTaken (store.pathOf s.nextRelay).display)).nextRelay := by
            refine Fresh.after ?_ hone
            rwa [Nat.add_comm]
          obtain ⟨result', t', hrest', hpair, hb'⟩ := ih
            (hafter.noted d w o _ (.relayTaken (store.pathOf t.nextRelay).display)) hleft
          exact ⟨result', t', .taken hcall' htaken hrest', hpair, hb'⟩

include d w o in
/-- **A relay is made in both sessions or in none**, and then it has the same name. -/
theorem create (hb : files.Beside store alike x s t) {result : Except Failure Relay}
    (hfresh : Fresh x Relay.maxAttempts s.nextRelay)
    (hcreate : (Relay.create h store).on s = (result, s')) :
    ∃ result' t', (Relay.create h store).on t = (result', t') ∧
      Relay.Pair store x result result' ∧ files.Beside store alike x s' t' := by
  obtain ⟨result', t', hcreate', hpair, hb'⟩ :=
    hb.creates d w o hfresh (Relay.create_eq_iff.mp hcreate)
  exact ⟨result', t', Relay.create_eq_iff.mpr hcreate', hpair, hb'⟩

include d w o in
/-- **It is written in both, or in none.** -/
theorem write (hb : files.Beside store alike x s t) {a b : Relay} (hab : a.Twins store x b)
    {output output' : Capture} (hbytes : output.bytes = output'.bytes) {m m' : σ}
    (hmakes : files.Makes store a m s.machine) (hmakes' : files.Makes store b m' t.machine)
    {result : Except Failure Unit} (hwrite : (a.write h output).on s = (result, s')) :
    ∃ t', (b.write h output').on t = (result, t') ∧ files.Beside store alike x s' t' := by
  have hnames : store.Names a.path := ⟨_, hab.left_path⟩
  have hcontent : files.content s.machine (files.entry a.path)
      = files.content t.machine (files.entry a.path) := by
    rw [hab.left_path]
    exact hb.contents _ hab.ne
  have hcursor := hmakes'.cursor
  rw [hab.right_path] at hcursor
  obtain ⟨hanswer, halike, hown⟩ :=
    d.append output.bytes hnames hb.alike hmakes.cursor hcursor hcontent
  rw [hbytes] at hanswer halike hown
  rcases hs : h.append a.handle output'.bytes s.machine with ⟨answer, m₁⟩
  rcases ht : h.append b.handle output'.bytes t.machine with ⟨answer', m₁'⟩
  rw [hs, ht] at hanswer halike hown
  obtain rfl : answer = answer' := hanswer
  have hwritten : files.Beside store alike x { s with machine := m₁ }
      { t with machine := m₁' } := by
    refine ⟨hb.next, halike, fun i hi => ?_⟩
    by_cases hia : i = a.id
    · rw [hia, ← hab.left_path]
      exact hown
    · have hne : files.entry (store.pathOf i) ≠ files.entry a.path := by
        rw [hab.left_path]
        exact fun heq => hia (d.pathOf_inj heq)
      have hright := w.others_of_append hmakes' ht _ (hab.right_path ▸ hne)
      exact (w.others_of_append hmakes hs _ hne).trans ((hb.contents i hi).trans hright.symm)
  rw [Relay.on_write, hbytes, hs] at hwrite
  rw [Relay.on_write, ht, hab.right_path]
  cases answer with
  | error e =>
      obtain ⟨rfl, rfl⟩ := Prod.mk.inj hwrite
      exact ⟨_, rfl, hwritten⟩
  | ok _ =>
      obtain ⟨rfl, rfl⟩ := Prod.mk.inj hwrite
      exact ⟨_, rfl, hwritten.noted d w o _ _⟩

end Calls

/-! ### Relays that are given back -/

section Giving

variable [DecidableEq ι] (d : files.Discreet h store alike) {y : UInt64}
  {s₁ t₁ : Session σ}

include d in
private theorem contents_of_removes {m m' : σ} {i : UInt64}
    (hremoves : files.Removes (files.entry (store.pathOf y)) m m') (hi : i ≠ y) :
    files.content m' (files.entry (store.pathOf i))
      = files.content m (files.entry (store.pathOf i)) := by
  rw [hremoves.content, Function.update_of_ne fun heq => hi (d.pathOf_inj heq)]

include d in
/-- If it is given back in the one session in which it is there, the sessions are
still beside each other, … -/
theorem givesBack_left (hb : files.Beside store alike x s t)
    (hg : files.GivesBack store alike x s s₁) : files.Beside store alike x s₁ t where
  next := hb.next.trans hg.next.symm
  alike := d.equivalence.trans (d.equivalence.symm hg.alike) hb.alike
  contents i hi := (contents_of_removes d hg.removes hi).trans (hb.contents i hi)

include d in
theorem givesBack_right (hb : files.Beside store alike x s t)
    (hg : files.GivesBack store alike x t t₁) : files.Beside store alike x s t₁ where
  next := hg.next.trans hb.next
  alike := d.equivalence.trans hb.alike hg.alike
  contents i hi := (hb.contents i hi).trans (contents_of_removes d hg.removes hi).symm

include d in
/-- … and so they are if another one is given back in both. -/
theorem givesBack (hb : files.Beside store alike x s t)
    (hg : files.GivesBack store alike y s s₁) (hg' : files.GivesBack store alike y t t₁) :
    files.Beside store alike x s₁ t₁ where
  next := hg'.next.trans (hb.next.trans hg.next.symm)
  alike := d.alike_of hb.alike hg.alike hg'.alike
  contents i hi := by
    by_cases hy : i = y
    · rw [hy, hg.removes.content, hg'.removes.content, Function.update_self,
        Function.update_self]
    · exact (contents_of_removes d hg.removes hy).trans
        ((hb.contents i hi).trans (contents_of_removes d hg'.removes hy).symm)

end Giving

end Beside

/-! ## Giving relays back -/

section Disposal

variable (d : files.Discreet h store alike) {relay : Relay}

include d in
private theorem Discreet.dispose (hnames : store.Names relay.path) {answer : Except IoError Unit}
    (hdispose : (relay.dispose h).on s = (answer, t)) : alike s.machine t.machine := by
  rw [Relay.on_dispose] at hdispose
  refine d.equivalence.trans (d.close relay.handle _) ?_
  cases hnul : relay.path.bytes.hasNul with
  | true =>
      rw [on_onPath_refused _ _ hnul] at hdispose
      obtain ⟨-, rfl⟩ := Prod.mk.inj hdispose
      exact d.equivalence.refl _
  | false =>
      rw [on_onPath hnul] at hdispose
      obtain ⟨-, rfl⟩ := Prod.mk.inj hdispose
      exact d.remove _ hnames

include d in
private theorem Discreet.release (hnames : store.Names relay.path)
    {result : Except Failure Unit} (hrelease : (relay.release h).on s = (result, t)) :
    alike s.machine t.machine := by
  rw [Relay.on_release] at hrelease
  split at hrelease
  · next hdispose =>
      obtain ⟨-, rfl⟩ := Prod.mk.inj hrelease
      exact d.equivalence.trans (d.dispose hnames hdispose) (d.tell _ _)
  · next hdispose =>
      obtain ⟨-, rfl⟩ := Prod.mk.inj hrelease
      exact d.dispose hnames hdispose

include d in
private theorem Discreet.drop (hnames : store.Names relay.path)
    (hdrop : (relay.drop h).on s = ((), t)) : alike s.machine t.machine := by
  rw [Relay.on_drop] at hdrop
  split at hdrop <;>
    next hdispose =>
      obtain ⟨-, rfl⟩ := Prod.mk.inj hdrop
      exact d.equivalence.trans (d.dispose hnames hdispose) (d.tell _ _)

variable [DecidableEq ι] (w : files.Lawful h store)
  (o : files.Orderly h store (files.outside store)) {m m' : σ}
  (hmakes : files.Makes store relay m m') (hpath : relay.path = store.pathOf relay.id)
  (hs : files.Since (files.outside store) m [files.entry relay.path] s.machine)

include d w o hmakes hpath hs

/-- A relay in hand can be given back, … -/
theorem Discreet.givesBack_of_release {result : Except Failure Unit}
    (hrelease : (relay.release h).on s = (result, t)) :
    result = .ok () ∧ files.GivesBack store alike relay.id s t := by
  obtain ⟨hok, hremoves⟩ := Evaluator.removes_of_release o w hmakes hs hrelease
  rw [hpath] at hremoves
  exact ⟨hok, Relay.nextRelay_of_release hrelease, d.release hmakes.names hrelease, hremoves⟩

/-- … or given up. -/
theorem Discreet.givesBack_of_drop (hdrop : (relay.drop h).on s = ((), t)) :
    files.GivesBack store alike relay.id s t := by
  have hremoves := Evaluator.removes_of_drop o w hmakes hs hdrop
  rw [hpath] at hremoves
  exact ⟨Relay.nextRelay_of_drop hdrop, d.drop hmakes.names hdrop, hremoves⟩

end Disposal

end Files

end CommandExpr
