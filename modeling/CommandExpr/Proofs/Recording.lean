import CommandExpr.Proofs.Agreement
import CommandExpr.Proofs.Files

/-!
# A host that keeps a record

`Host.recorded` answers like the host that it is made from and keeps a record
of every call with its answer.  The record is there for statements only: it
never changes what happens (`dispatch_recorded`), so what is proved of recorded
evaluations is so of all (`dispatch_recording`).

A statement looks at the record through a *view*, which picks some of the
exchanges: the files that were opened for reading (`Exchange.opening?`), or
what was read of the outputs of programs (`Exchange.received?`).  What makes
no exchange that a view picks leaves the view as it is (`watched_view`).

## Main results

* `dispatch_recorded` — an evaluation comes to the same on a recorded host.
* `Host.recorded_spawn` — what the making of a process puts on record.
* `watched_view` — watching over a child makes no other exchanges than those
  of its kind.
-/

namespace CommandExpr

variable {σ α γ : Type}

/-- A call of the host and its answer. -/
inductive Exchange where
  | createNew (path : Path) (answer : Except Errno Handle)
  | openRead (path : Path) (answer : Except Errno Handle)
  | append (handle : Handle) (bytes : Bytes) (answer : Except Errno Unit)
  | close (handle : Handle)
  | remove (path : Path) (answer : Except Errno Unit)
  | makePipe (answer : Except Errno Unit)
  | fork (argv : List Bytes) (input : Option Handle) (answer : Except Errno Pid)
  | readReport (pid : Pid) (count : Nat) (answer : Except Errno Bytes)
  | readOutput (pid : Pid) (count : Nat) (answer : Except Errno Bytes)
  | pollOutput (pid : Pid) (millis : Nat) (answer : Except Errno Bool)
  | hangUp (pid : Pid)
  | wait (pid : Pid) (look : Bool) (answer : Except Errno WaitReport)
  | kill (pid : Pid) (signal : Signal) (answer : Except Errno Unit)
  | now (answer : Instant)
  | sleep (nanoseconds : Nat)
  | writeOut (bytes : Bytes) (answer : Except Errno Nat)
  | tell (message : Message)

/-- The state of a machine with the record of its exchanges. -/
abbrev Recorded (σ : Type) := σ × List Exchange

namespace Host

/-- A call that goes on record. -/
def recordCall (f : σ → α × σ) (exchange : α → Exchange) (m : Recorded σ) :
    α × Recorded σ :=
  ((f m.1).1, (f m.1).2, m.2 ++ [exchange (f m.1).1])

/-- A change that goes on record. -/
def recordChange (f : σ → σ) (exchange : Exchange) (m : Recorded σ) : Recorded σ :=
  (f m.1, m.2 ++ [exchange])

/-- The host with a record. -/
def recorded (h : Host σ) : Host (Recorded σ) where
  patience m := h.patience m.1
  createNew path := recordCall (h.createNew path) (.createNew path)
  openRead path := recordCall (h.openRead path) (.openRead path)
  append handle bytes := recordCall (h.append handle bytes) (.append handle bytes)
  close handle := recordChange (h.close handle) (.close handle)
  remove path := recordCall (h.remove path) (.remove path)
  makePipe := recordCall h.makePipe .makePipe
  fork argv input := recordCall (h.fork argv input) (.fork argv input)
  readReport pid count := recordCall (h.readReport pid count) (.readReport pid count)
  readOutput pid count := recordCall (h.readOutput pid count) (.readOutput pid count)
  pollOutput pid millis :=
    recordCall (h.pollOutput pid millis) (.pollOutput pid millis)
  hangUp pid := recordChange (h.hangUp pid) (.hangUp pid)
  wait pid look := recordCall (h.wait pid look) (.wait pid look)
  kill pid signal := recordCall (h.kill pid signal) (.kill pid signal)
  now := recordCall h.now .now
  sleep time := recordChange (h.sleep time) (.sleep time)
  writeOut bytes := recordCall (h.writeOut bytes) (.writeOut bytes)
  tell message := recordChange (h.tell message) (.tell message)

end Host

namespace Session

/-- The session without the record. -/
def plain (s : Session (Recorded σ)) : Session σ := ⟨s.nextRelay, s.machine.1⟩

/-- The record of a session. -/
def record (s : Session (Recorded σ)) : List Exchange := s.machine.2

/-- The session with an empty record. -/
def recording (s : Session σ) : Session (Recorded σ) := ⟨s.nextRelay, s.machine, []⟩

/-- What a view picks from the record. -/
def view (f : Exchange → Option γ) (s : Session (Recorded σ)) : List γ :=
  s.record.filterMap f

end Session

/-! ## A record changes nothing -/

/-- The second session is the first one without its record. -/
def IsPlain (s : Session (Recorded σ)) (t : Session σ) : Prop := s.plain = t

private theorem agree_recordCall (f : σ → α × σ) (exchange : α → Exchange) :
    Agree IsPlain (Host.call (Host.recordCall f exchange)) (Host.call f) := by
  rintro s _ rfl
  exact ⟨rfl, rfl⟩

private theorem agree_recordChange (f : σ → σ) (exchange : Exchange) :
    Agree IsPlain (Host.change (Host.recordChange f exchange)) (Host.change f) := by
  rintro s _ rfl
  exact ⟨rfl, rfl⟩

/-- A recorded host is in step with the host that it is made from. -/
theorem recorded_inStep (h : Host σ) : InStep IsPlain h.recorded h where
  patience := by
    rintro s _ rfl
    rfl
  readReport _ _ := agree_recordCall _ _
  pollOutput _ _ := agree_recordCall _ _
  hangUp _ := agree_recordChange _ _
  wait _ _ := agree_recordCall _ _
  kill _ _ := agree_recordCall _ _
  now := agree_recordCall _ _
  sleep _ := agree_recordChange _ _
  tell _ := agree_recordChange _ _
  readOutput _ _ := agree_recordCall _ _
  spawn _ _ := .spawn (agree_recordCall _ _) (agree_recordCall _ _)
  close _ := agree_recordChange _ _
  createNew _ := agree_recordCall _ _
  openRead _ := agree_recordCall _ _
  append _ _ := agree_recordCall _ _
  remove _ := agree_recordCall _ _
  takeId := by
    rintro s _ rfl
    exact ⟨rfl, rfl⟩

/-- **A record changes nothing.**  On a recorded host an evaluation comes to
the same, and but for the record it leaves the same session. -/
theorem dispatch_recorded (h : Host σ) (relays : RelayStore) (r : Runner)
    (e : Expression) (input : InputSource) (s : Session (Recorded σ)) :
    ((Evaluator.dispatch h.recorded relays r e input).on s).1
        = ((Evaluator.dispatch h relays r e input).on s.plain).1 ∧
      ((Evaluator.dispatch h.recorded relays r e input).on s).2.plain
        = ((Evaluator.dispatch h relays r e input).on s.plain).2 :=
  (recorded_inStep h).dispatch relays r e input s s.plain rfl

/-- So every evaluation can be recorded. -/
theorem dispatch_recording {h : Host σ} {relays : RelayStore} {r : Runner}
    {e : Expression} {input : InputSource} {s t : Session σ}
    {result : Except Failure Capture}
    (hrun : (Evaluator.dispatch h relays r e input).on s = (result, t)) :
    ∃ t' : Session (Recorded σ), t'.plain = t ∧
      (Evaluator.dispatch h.recorded relays r e input).on s.recording
        = (result, t') := by
  obtain ⟨hresult, hplain⟩ := dispatch_recorded h relays r e input s.recording
  have hstart : s.recording.plain = s := rfl
  rw [hstart, hrun] at hresult hplain
  exact ⟨_, hplain, Prod.ext hresult rfl⟩

/-! ## What is put on record -/

theorem Host.recordCall_eq {f : σ → α × σ} {exchange : α → Exchange} {a : α}
    {m : Recorded σ} {m' : σ} (hcall : f m.1 = (a, m')) :
    Host.recordCall f exchange m = (a, m', m.2 ++ [exchange a]) := by
  rw [Host.recordCall, hcall]

/-- What the making of a process puts on record: its pipes as far as they can be made, and the
process once both are there. -/
inductive Making (argv : List Bytes) (input : Option Handle) :
    Except Errno Pid → List Exchange → Prop where
  /-- There is no pipe for its output, … -/
  | unheard {e : Errno} : Making argv input (.error e) [.makePipe (.error e)]
  /-- … or none for its report. -/
  | unreported {e : Errno} :
      Making argv input (.error e) [.makePipe (.ok ()), .makePipe (.error e)]
  | forked {answer : Except Errno Pid} :
      Making argv input answer
        [.makePipe (.ok ()), .makePipe (.ok ()), .fork argv input answer]

/-- A recorded host makes the same of a process, and puts that on record. -/
theorem Host.recorded_spawn (h : Host σ) (argv : List Bytes) (input : Option Handle)
    (m : Recorded σ) :
    ∃ made, Making argv input (h.spawn argv input m.1).1 made ∧
      h.recorded.spawn argv input m
        = ((h.spawn argv input m.1).1, (h.spawn argv input m.1).2, m.2 ++ made) := by
  obtain ⟨m, record⟩ := m
  simp only [Host.spawn, Host.recorded, Host.recordCall]
  rcases hfirst : h.makePipe m with ⟨e | _, m₁⟩
  · exact ⟨_, .unheard, rfl⟩
  · rcases hsecond : h.makePipe m₁ with ⟨e | _, m₂⟩
    · simp only [hsecond, List.append_assoc]
      exact ⟨_, .unreported, rfl⟩
    · simp only [hsecond, List.append_assoc]
      exact ⟨_, .forked, rfl⟩

/-- But for the record it is the same. -/
theorem Host.spawn_recorded (h : Host σ) (argv : List Bytes) (input : Option Handle)
    (m : Recorded σ) :
    h.spawn argv input m.1
      = ((h.recorded.spawn argv input m).1, (h.recorded.spawn argv input m).2.1) := by
  obtain ⟨_, _, hcall⟩ := h.recorded_spawn argv input m
  rw [hcall]

/-- A call on a path goes on record if the path can be handed over. -/
theorem record_onPath {path : Path} {f : Path → σ → Except Errno α × σ}
    {g : Path → Except Errno α → Exchange} {s t : Session (Recorded σ)}
    {answer : Except IoError α}
    (hcall : (Relay.onPath path fun p => Host.recordCall (f p) (g p)).on s = (answer, t)) :
    ∃ given, t.record = s.record ++ if path.bytes.hasNul then [] else [g path given] := by
  cases hnul : path.bytes.hasNul with
  | true =>
      rw [on_onPath_refused _ s hnul] at hcall
      obtain ⟨-, rfl⟩ := Prod.mk.inj hcall
      exact ⟨.error .invalidArgument, (List.append_nil _).symm⟩
  | false =>
      rw [on_onPath hnul] at hcall
      obtain ⟨-, rfl⟩ := Prod.mk.inj hcall
      exact ⟨_, rfl⟩

theorem record_noted (h : Host σ) (s : Session (Recorded σ)) (n : Notice) :
    (s.noted h.recorded n).record = s.record ++ [.tell (.notice n)] := rfl

/-! ## Views of a record -/

namespace Exchange

/-- What a file was opened for reading, and whether it could be. -/
def opening? : Exchange → Option (Path × Bool)
  | openRead path answer => some (path, answer.isOk)
  | _ => none

/-- What was read of the output of a program. -/
def received? : Exchange → Option Bytes
  | readOutput _ _ (.ok bytes) => some bytes
  | _ => none

/-- Is it an exchange by which a child is watched over? -/
def IsWatching : Exchange → Prop
  | readReport .. | pollOutput .. | hangUp _ | wait .. | kill .. | now _ | sleep _
  | tell _ => True
  | _ => False

/-- Is it an exchange by which a child is made, read or watched over? -/
def IsLaunching : Exchange → Prop
  | makePipe _ | fork .. | close _ | readOutput .. => True
  | x => x.IsWatching

/-- Is it an exchange by which relays are made, written or given back? -/
def IsStoring : Exchange → Prop
  | createNew .. | append .. | close _ | remove .. | tell _ => True
  | _ => False

end Exchange

section View

variable {f : Exchange → Option γ}

theorem view_recordCall (g : σ → α × σ) (exchange : α → Exchange)
    (s : Session (Recorded σ)) :
    ((Host.call (Host.recordCall g exchange)).on s).2.view f
      = s.view f ++ (f (exchange (g s.machine.1).1)).toList := by
  simp only [Action.on_call, Host.recordCall, Session.view, Session.record,
    List.filterMap_append]
  rfl

/-- A call that was made adds to a view what the view picks of it. -/
theorem view_of_recordCall {g : σ → α × σ} {exchange : α → Exchange}
    {s t : Session (Recorded σ)} {a : α}
    (hcall : (Host.call (Host.recordCall g exchange)).on s = (a, t)) :
    t.view f = s.view f ++ (f (exchange a)).toList := by
  have hview := view_recordCall (f := f) g exchange s
  obtain ⟨rfl, rfl⟩ := Prod.mk.inj hcall
  exact hview

/-- The making of a process adds what the view picks of its record. -/
theorem view_of_spawn {h : Host σ} {argv : List Bytes} {input : Option Handle}
    {s t : Session (Recorded σ)} {answer : Except Errno Pid}
    (hspawn : (Host.call (h.recorded.spawn argv input)).on s = (answer, t)) :
    ∃ made, Making argv input answer made ∧ t.view f = s.view f ++ made.filterMap f := by
  obtain ⟨made, hmade, hcall⟩ := h.recorded_spawn argv input s.machine
  rw [Action.on_call, hcall] at hspawn
  obtain ⟨rfl, rfl⟩ := Prod.mk.inj hspawn
  exact ⟨made, hmade, List.filterMap_append⟩

theorem keeps_recordCall (g : σ → α × σ) {exchange : α → Exchange}
    (hf : ∀ a, f (exchange a) = none) (seen : List γ) :
    Agree (Same fun s => s.view f = seen)
      (Host.call (Host.recordCall g exchange))
      (Host.call (Host.recordCall g exchange)) := by
  refine Keeps.agree fun s hs => ?_
  rw [view_recordCall, hf, Option.toList_none, List.append_nil, hs]

theorem keeps_recordChange (g : σ → σ) {exchange : Exchange}
    (hf : f exchange = none) (seen : List γ) :
    Agree (Same fun s => s.view f = seen)
      (Host.change (Host.recordChange g exchange))
      (Host.change (Host.recordChange g exchange)) := by
  refine Keeps.agree fun s hs => ?_
  simp only [Action.on_change, Host.recordChange, Session.view, Session.record,
    List.filterMap_append, List.filterMap_cons, hf, List.filterMap_nil,
    List.append_nil]
  exact hs

/-- Watching over a child leaves a view alone that picks nothing of it. -/
theorem watched_view (h : Host σ) (hf : ∀ x : Exchange, x.IsWatching → f x = none)
    (seen : List γ) :
    Watched (Same fun s => s.view f = seen) h.recorded h.recorded where
  patience := by
    rintro s _ ⟨rfl, -⟩
    rfl
  readReport pid count :=
    keeps_recordCall _ (fun a => hf (.readReport pid count a) trivial) seen
  pollOutput pid millis :=
    keeps_recordCall _ (fun a => hf (.pollOutput pid millis a) trivial) seen
  hangUp pid := keeps_recordChange _ (hf (.hangUp pid) trivial) seen
  wait pid look := keeps_recordCall _ (fun a => hf (.wait pid look a) trivial) seen
  kill pid signal :=
    keeps_recordCall _ (fun a => hf (.kill pid signal a) trivial) seen
  now := keeps_recordCall _ (fun a => hf (.now a) trivial) seen
  sleep time := keeps_recordChange _ (hf (.sleep time) trivial) seen
  tell m := keeps_recordChange _ (hf (.tell m) trivial) seen

/-- So does all of a child's life. -/
theorem launched_view (h : Host σ)
    (hf : ∀ x : Exchange, x.IsLaunching → f x = none) (seen : List γ) :
    Launched (Same fun s => s.view f = seen) h.recorded h.recorded where
  toWatched := watched_view h (fun x hx => hf x (by cases x <;> trivial)) seen
  readOutput pid count :=
    keeps_recordCall _ (fun a => hf (.readOutput pid count a) trivial) seen
  spawn argv input := .spawn (keeps_recordCall _ (fun a => hf (.makePipe a) trivial) seen)
    (keeps_recordCall _ (fun a => hf (.fork argv input a) trivial) seen)
  close handle := keeps_recordChange _ (hf (.close handle) trivial) seen

/-- So does what is done with relays, but for reading them. -/
theorem storing_view (h : Host σ) (hf : ∀ x : Exchange, x.IsStoring → f x = none)
    (seen : List γ) :
    Storing (Same fun s => s.view f = seen) h.recorded h.recorded where
  createNew path := keeps_recordCall _ (fun a => hf (.createNew path a) trivial) seen
  append handle bytes :=
    keeps_recordCall _ (fun a => hf (.append handle bytes a) trivial) seen
  close handle := keeps_recordChange _ (hf (.close handle) trivial) seen
  remove path := keeps_recordCall _ (fun a => hf (.remove path a) trivial) seen
  tell m := keeps_recordChange _ (hf (.tell m) trivial) seen
  takeId := Keeps.agree fun _ hs => hs

/-- What leaves a view alone, whatever it is, leaves it as it was. -/
theorem view_eq_of_agree {x : Action (Recorded σ) α} {s t : Session (Recorded σ)}
    {a : α} (hx : ∀ seen, Agree (Same fun s => s.view f = seen) x x)
    (hrun : x.on s = (a, t)) : t.view f = s.view f := by
  have hkept := (hx (s.view f)).keeps s rfl
  rw [hrun] at hkept
  exact hkept

theorem view_noted (h : Host σ) (hf : ∀ m, f (.tell m) = none)
    (s : Session (Recorded σ)) (n : Notice) :
    (s.noted h.recorded n).view f = s.view f :=
  (keeps_recordChange (h.tell (.notice n)) (hf (.notice n)) (s.view f)).keeps s rfl

end View

/-! ## Files of a recorded host -/

theorem Host.of_recordCall {f : σ → α × σ} {exchange : α → Exchange} {a : α}
    {m m' : Recorded σ} (hcall : Host.recordCall f exchange m = (a, m')) :
    f m.1 = (a, m'.1) := by
  obtain ⟨rfl, rfl⟩ := Prod.mk.inj hcall
  rfl

/-- The files, seen past the record. -/
def Files.recorded {ι : Type} (files : Files σ ι) : Files (Recorded σ) ι where
  entry := files.entry
  content m := files.content m.1
  held m := files.held m.1
  cursor m := files.cursor m.1

/-- A record does nothing to the files. -/
theorem Files.Lawful.recorded {ι : Type} [DecidableEq ι] {files : Files σ ι}
    {h : Host σ} {store : RelayStore} (w : files.Lawful h store) :
    files.recorded.Lawful h.recorded store where
  exists_of_held := w.exists_of_held
  createNew_ok hnames hcall := w.createNew_ok hnames (Host.of_recordCall hcall)
  createNew_error hnames hcall :=
    ⟨(w.createNew_error hnames (Host.of_recordCall hcall)).content,
      (w.createNew_error hnames (Host.of_recordCall hcall)).held⟩
  openRead_ok hnames hcall := by
    obtain ⟨hsame, hcursor⟩ := w.openRead_ok hnames (Host.of_recordCall hcall)
    exact ⟨⟨hsame.content, hsame.held⟩, hcursor⟩
  openRead_error hnames hcall :=
    ⟨(w.openRead_error hnames (Host.of_recordCall hcall)).content,
      (w.openRead_error hnames (Host.of_recordCall hcall)).held⟩
  append_ok hcursor hcontent hle hcall :=
    w.append_ok hcursor hcontent hle (Host.of_recordCall hcall)
  append_error hcursor hcall := w.append_error hcursor (Host.of_recordCall hcall)
  remove_ok hnames hcall := w.remove_ok hnames (Host.of_recordCall hcall)
  remove_error hnames hcall :=
    ⟨(w.remove_error hnames (Host.of_recordCall hcall)).content,
      (w.remove_error hnames (Host.of_recordCall hcall)).held⟩
  close handle m := ⟨(w.close handle m.1).content, (w.close handle m.1).held⟩
  now m := ⟨(w.now m.1).content, (w.now m.1).held⟩
  writeOut bytes m := ⟨(w.writeOut bytes m.1).content, (w.writeOut bytes m.1).held⟩
  tell message m := ⟨(w.tell message m.1).content, (w.tell message m.1).held⟩
  cursor_tell message m := w.cursor_tell message m.1

end CommandExpr
