import CommandExpr.Proofs.Runs

/-!
# Supervision of a process

How the life of a process can go, from its making to its end.  Either the
program could not be started, or it was read to its end and then waited for;
any other course ends the evaluation.

What is read of a program's output goes on record, so on a recorded host it
can be said how the capture of a run stands to what was read: nothing that was
read is lost but for the bytes that do not fit, and the output was read to its
end.

## Main results

* `Runner.guarding_stopped` — without a deadline the clock does not matter.
* `Runner.supervises_of_supervise` — the courses that supervision can take.
* `Runner.run_received` — the capture of what was read, and nothing is read of
  a program that could not be started.
-/

namespace CommandExpr

variable {σ α β : Type}

/-! ## Failures that end the evaluation -/

/-- The failures with which the watch over a process breaks off. -/
inductive Failure.IsBreakdown : Failure → Prop where
  | stalled : IsBreakdown .stalled
  | os (e : Errno) : IsBreakdown (.ofErrno e)
  | io (e : IoError) : IsBreakdown (.ofIoError e)
  | report : IsBreakdown .brokenStartReport
  | writing (program : String) : IsBreakdown (.stillWriting program)
  | running (program : String) : IsBreakdown (.stillRunning program)

theorem Failure.IsBreakdown.isFatal {f : Failure} (hf : f.IsBreakdown) :
    f.isFatal = true := by
  cases hf <;> rfl

theorem Failure.IsBreakdown.ne_emptyArgv {f : Failure} (hf : f.IsBreakdown) :
    f ≠ .emptyArgv := by
  cases hf with
  | report => decide
  | _ =>
      intro heq
      cases congrArg Failure.kind heq

/-- If the result is a failure, it is a breakdown, and so ends the evaluation. -/
def EndsAll (result : Except Failure α) : Prop :=
  ∀ f, result = .error f → f.IsBreakdown

/-- Whatever the session, the action returns what has the property. -/
def Returns (P : α → Prop) (x : Action σ α) : Prop := ∀ s, P (x.on s).1

theorem endsAll_ok (a : α) : EndsAll (.ok a : Except Failure α) := by
  intro f hf
  cases hf

theorem endsAll_error {f : Failure} (hf : f.IsBreakdown) :
    EndsAll (.error f : Except Failure α) := by
  intro g hg
  cases hg
  exact hf

namespace Returns

variable {P : α → Prop}

protected theorem pure {a : α} (ha : P a) : Returns P (pure a : Action σ α) :=
  fun _ => ha

protected theorem bind {x : Action σ β} {f : β → Action σ α}
    (hf : ∀ b, Returns P (f b)) : Returns P (x >>= f) :=
  fun s => hf (x.on s).1 (x.on s).2

/-- A bind of which the first half is known to return something. -/
theorem bind_of {Q : β → Prop} {x : Action σ β} {f : β → Action σ α}
    (hx : Returns Q x) (hf : ∀ b, Q b → Returns P (f b)) : Returns P (x >>= f) :=
  fun s => hf (x.on s).1 (hx s) (x.on s).2

end Returns

namespace Runner

variable {h : Host σ} {r : Runner} {program : String} {pid : Pid}

theorem endsAll_readReportFrom (fuel : Nat) :
    ∀ seen : Bytes, Returns EndsAll (readReportFrom h pid fuel seen) := by
  induction fuel with
  | zero =>
      intro seen
      exact Returns.pure (endsAll_error .stalled)
  | succ fuel ih =>
      intro seen
      by_cases hseen : Errno.byteCount ≤ seen.length
      · simp only [readReportFrom, hseen, if_true]
        exact Returns.pure (endsAll_ok _)
      · simp only [readReportFrom, hseen, if_false]
        refine Returns.bind fun answer => ?_
        rcases answer with e | _ | ⟨b, more⟩
        · by_cases he : e = .interrupted
          · simp only [he, if_true]
            exact ih seen
          · simp only [he, if_false]
            exact Returns.pure (endsAll_error (.io _))
        · exact Returns.pure (endsAll_ok _)
        · exact ih _

theorem endsAll_startError : Returns EndsAll (startError h pid) := by
  refine Returns.bind fun fuel => ?_
  refine Returns.bind_of (endsAll_readReportFrom fuel []) fun read hread => ?_
  rcases read with f | _ | ⟨b, more⟩
  · exact Returns.pure (endsAll_error (hread f rfl))
  · exact Returns.pure (endsAll_ok _)
  · cases hreport : Errno.ofBytes? (b :: more) with
    | some e =>
        simp only [hreport]
        exact Returns.pure (endsAll_ok _)
    | none =>
        simp only [hreport]
        exact Returns.pure (endsAll_error .report)

theorem endsAll_waitReadable (fuel : Nat) :
    Returns EndsAll (r.waitReadable h pid fuel) := by
  induction fuel with
  | zero => exact Returns.pure (endsAll_error .stalled)
  | succ fuel ih =>
      cases hdeadline : r.deadline with
      | none =>
          simp only [waitReadable, hdeadline]
          exact Returns.pure (endsAll_ok _)
      | some deadline =>
          simp only [waitReadable, hdeadline]
          refine Returns.bind fun now => ?_
          by_cases hleft : deadline - now = 0
          · simp only [hleft, if_true]
            exact Returns.pure (endsAll_ok _)
          · simp only [hleft, if_false]
            refine Returns.bind fun answer => ?_
            rcases answer with e | _ | _
            · by_cases he : e = .interrupted
              · simp only [he, if_true]
                exact ih
              · simp only [he, if_false]
                exact Returns.pure (endsAll_error (.os e))
            · exact ih
            · exact Returns.pure (endsAll_ok _)

theorem endsAll_awaitOutput : Returns EndsAll (r.awaitOutput h pid) := by
  cases hdeadline : r.deadline with
  | none =>
      simp only [awaitOutput, hdeadline]
      exact Returns.pure (endsAll_ok _)
  | some deadline =>
      simp only [awaitOutput, hdeadline]
      exact Returns.bind fun fuel => endsAll_waitReadable fuel

theorem endsAll_drainInto (fuel : Nat) :
    ∀ output : Capture, Returns EndsAll (r.drainInto h program pid fuel output) := by
  induction fuel with
  | zero =>
      intro output
      exact Returns.pure (endsAll_error .stalled)
  | succ fuel ih =>
      intro output
      refine Returns.bind_of endsAll_awaitOutput fun ready hready => ?_
      rcases ready with f | _ | _
      · exact Returns.pure (endsAll_error (hready f rfl))
      · exact Returns.pure (endsAll_error (.writing _))
      · refine Returns.bind fun answer => ?_
        rcases answer with e | _ | ⟨b, more⟩
        · by_cases he : e = .interrupted
          · simp only [he, if_true]
            exact ih output
          · simp only [he, if_false]
            exact Returns.pure (endsAll_error (.io _))
        · exact Returns.pure (endsAll_ok _)
        · exact ih _

theorem endsAll_drain : Returns EndsAll (r.drain h program pid) := by
  refine Returns.bind fun fuel => ?_
  refine Returns.bind_of (endsAll_drainInto fuel _) fun result hresult => ?_
  cases result with
  | error f => exact Returns.pure hresult
  | ok output =>
      by_cases hcut : output.isTruncated = true
      · simp only [hcut, if_true]
        exact Returns.bind fun _ => Returns.pure hresult
      · simp only [hcut]
        exact Returns.pure hresult

end Runner

theorem Child.endsAll_pollUntil {h : Host σ} (deadline : Instant) (fuel : Nat) :
    ∀ c : Child, Returns (fun p => EndsAll p.1) (c.pollUntil h deadline fuel) := by
  induction fuel with
  | zero =>
      intro c
      exact Returns.pure (endsAll_error .stalled)
  | succ fuel ih =>
      intro c
      refine Returns.bind fun tried => ?_
      obtain ⟨result, c'⟩ := tried
      rcases result with e | _ | status
      · exact Returns.pure (endsAll_error (.os e))
      · refine Returns.bind fun now => ?_
        by_cases hleft : deadline - now = 0
        · simp only [hleft, if_true]
          exact Returns.bind fun _ => Returns.pure (endsAll_error (.running _))
        · simp only [hleft, if_false]
          exact Returns.bind fun _ => ih c'
      · exact Returns.pure (endsAll_ok _)

theorem Child.endsAll_waitUntil {h : Host σ} (deadline : Option Instant) (c : Child) :
    Returns (fun p => EndsAll p.1) (c.waitUntil h deadline) := by
  cases deadline with
  | none =>
      refine Returns.bind fun waited => ?_
      obtain ⟨result, c'⟩ := waited
      cases result with
      | ok status => exact Returns.pure (endsAll_ok _)
      | error e => exact Returns.pure (endsAll_error (.os e))
  | some deadline =>
      exact Returns.bind fun fuel => Child.endsAll_pollUntil deadline fuel c

/-! ## Without a deadline -/

/-- The host with a clock that stands still. -/
def Host.stopped (h : Host σ) : Host σ := { h with now := fun m => (0, m) }

namespace Runner

section Stopped

-- The equations of these functions have the clock in them: only their bodies are the same.
variable (h : Host σ) (cap : Nat)

private theorem readReportFrom_stopped :
    readReportFrom h.stopped = readReportFrom h := by
  delta readReportFrom
  rfl

private theorem drainInto_stopped :
    drainInto h.stopped ⟨cap, none⟩ = drainInto h ⟨cap, none⟩ := by
  delta drainInto
  rfl

private theorem awaitEnd_stopped : Child.awaitEnd h.stopped = Child.awaitEnd h := by
  delta Child.awaitEnd
  rfl

private theorem childWait_stopped : Child.wait h.stopped = Child.wait h := by
  delta Child.wait
  rw [awaitEnd_stopped]
  rfl

private theorem killAndReap_stopped : Child.killAndReap h.stopped = Child.killAndReap h := by
  delta Child.killAndReap
  rw [childWait_stopped]
  rfl

private theorem supervise_stopped (program : String) :
    supervise h.stopped ⟨cap, none⟩ program = supervise h ⟨cap, none⟩ program := by
  have hstart : startError h.stopped = startError h := by
    delta startError
    rw [readReportFrom_stopped]
    rfl
  have hdrain : drain h.stopped ⟨cap, none⟩ = drain h ⟨cap, none⟩ := by
    delta drain
    rw [drainInto_stopped]
    rfl
  have huntil : ∀ c : Child, c.waitUntil h.stopped none = c.waitUntil h none := by
    intro c
    rw [Child.waitUntil, childWait_stopped]
    rfl
  funext c
  simp only [supervise, hstart, hdrain, huntil, childWait_stopped]
  rfl

/-- Whoever watches over a process without a deadline does not look at the clock. -/
theorem guarding_stopped (program : String) (c : Child) :
    c.guarding h.stopped (supervise h.stopped ⟨cap, none⟩ program)
      = c.guarding h (supervise h ⟨cap, none⟩ program) := by
  rw [Child.guarding, killAndReap_stopped, supervise_stopped]
  rfl

theorem launch_stopped (program : String) (argv : List Bytes) (handle? : Option Handle) :
    launch h.stopped ⟨cap, none⟩ program argv handle?
      = launch h ⟨cap, none⟩ program argv handle? := by
  simp only [launch, guarding_stopped]
  rfl

end Stopped

end Runner

/-! ## The course of supervision -/

namespace Runner

/-- Supervision of a child, from a session, comes to the result and leaves the
child and the last session. -/
inductive Supervises (h : Host σ) (r : Runner) (program : String) (c : Child)
    (s : Session σ) : Except Failure (Capture × Status) → Child → Session σ →
      Prop where
  /-- The watch breaks off. -/
  | broke {f : Failure} {c' : Child} {t : Session σ} (hf : f.IsBreakdown) :
      Supervises h r program c s (.error f) c' t
  /-- The program could not be started. -/
  | refused {errno : Errno} {status : Status} {c' : Child} {s₁ t : Session σ}
      (hstart : (startError h c.pid).on s = (.ok (some errno), s₁))
      (hwait : (c.wait h).on s₁ = ((.ok status, c'), t)) :
      Supervises h r program c s (.error (.notStarted program errno)) c'
        (t.noted h (.notStarted program errno status))
  /-- The program was read to its end and waited for. -/
  | ended {output : Capture} {status : Status} {c' : Child} {s₁ s₂ t : Session σ}
      (hstart : (startError h c.pid).on s = (.ok none, s₁))
      (hdrain : (r.drain h program c.pid).on s₁ = (.ok output, s₂))
      (hwait : (c.waitUntil h r.deadline).on
        ((Host.change (h.hangUp c.pid)).on s₂).2 = ((.ok status, c'), t)) :
      Supervises h r program c s (.ok (output, status)) c'
        (t.noted h (.ended program status output.length))

theorem supervises_of_supervise {h : Host σ} {r : Runner} {program : String}
    {c c' : Child} {s t : Session σ} {result : Except Failure (Capture × Status)}
    (hrun : (r.supervise h program c).on s = ((result, c'), t)) :
    Supervises h r program c s result c' t := by
  rcases hstart : (startError h c.pid).on s with ⟨started, s₁⟩
  have hendsStart : EndsAll ((startError h c.pid).on s).1 := endsAll_startError s
  rw [hstart] at hendsStart
  rw [supervise, Action.on_bind_of _ hstart] at hrun
  rcases started with f | _ | errno
  · obtain ⟨hpair, rfl⟩ := Prod.mk.inj hrun
    obtain ⟨rfl, rfl⟩ := Prod.mk.inj hpair
    exact .broke (hendsStart f rfl)
  · rcases hdrain : (r.drain h program c.pid).on s₁ with ⟨drained, s₂⟩
    have hendsDrain : EndsAll ((r.drain h program c.pid).on s₁).1 :=
      endsAll_drain s₁
    rw [hdrain] at hendsDrain
    rw [Action.on_bind_of _ hdrain, Action.on_bind] at hrun
    cases drained with
    | error f =>
        obtain ⟨hpair, rfl⟩ := Prod.mk.inj hrun
        obtain ⟨rfl, rfl⟩ := Prod.mk.inj hpair
        exact .broke (hendsDrain f rfl)
    | ok output =>
        rcases hwait : (c.waitUntil h r.deadline).on
          ((Host.change (h.hangUp c.pid)).on s₂).2 with ⟨⟨waited, c₁⟩, s₃⟩
        have hendsWait := Child.endsAll_waitUntil (h := h) r.deadline c
          ((Host.change (h.hangUp c.pid)).on s₂).2
        rw [hwait] at hendsWait
        rw [Action.on_bind_of _ hwait] at hrun
        cases waited with
        | error f =>
            obtain ⟨hpair, rfl⟩ := Prod.mk.inj hrun
            obtain ⟨rfl, rfl⟩ := Prod.mk.inj hpair
            exact .broke (hendsWait f rfl)
        | ok status =>
            rw [Action.on_bind_of _ (Action.on_note h _ s₃)] at hrun
            obtain ⟨hpair, rfl⟩ := Prod.mk.inj hrun
            obtain ⟨rfl, rfl⟩ := Prod.mk.inj hpair
            exact .ended hstart hdrain hwait
  · rcases hwait : (c.wait h).on s₁ with ⟨⟨waited, c₁⟩, s₂⟩
    rw [Action.on_bind_of _ hwait] at hrun
    cases waited with
    | error e =>
        obtain ⟨hpair, rfl⟩ := Prod.mk.inj hrun
        obtain ⟨rfl, rfl⟩ := Prod.mk.inj hpair
        exact .broke (.os e)
    | ok status =>
        rw [Action.on_bind_of _ (Action.on_note h _ s₂)] at hrun
        obtain ⟨hpair, rfl⟩ := Prod.mk.inj hrun
        obtain ⟨rfl, rfl⟩ := Prod.mk.inj hpair
        exact .refused hstart hwait

/-- The session after the input of a program was closed, if it was open. -/
def closing (h : Host σ) (handle? : Option Handle) (s : Session σ) : Session σ :=
  match handle? with
  | some handle => { s with machine := h.close handle s.machine }
  | none => s

/-- A process is spawned and its input closed; then it is supervised, if it is
there. -/
theorem on_launch (h : Host σ) (r : Runner) (program : String)
    (argv : List Bytes) (handle? : Option Handle) (s : Session σ) :
    (r.launch h program argv handle?).on s =
      match (h.spawn argv handle? s.machine).1 with
      | .error e => (.error (.ofErrno e),
          closing h handle? { s with machine := (h.spawn argv handle? s.machine).2 })
      | .ok pid => (Child.guarding h ⟨pid, program, none⟩ (r.supervise h program)).on
          ((closing h handle?
            { s with machine := (h.spawn argv handle? s.machine).2 }).noted h
              (.spawned program pid)) := by
  rw [launch, Attempt.on_bind_ok _ (Attempt.on_ask _ s)]
  cases (h.spawn argv handle? s.machine).1 <;> cases handle? <;> rfl

/-- It cannot be made, … -/
theorem on_launch_error {h : Host σ} (r : Runner) (program : String) {argv : List Bytes}
    {handle? : Option Handle} {e : Errno} {s s₁ : Session σ}
    (hspawn : (Host.call (h.spawn argv handle?)).on s = (.error e, s₁)) :
    (r.launch h program argv handle?).on s = (.error (.ofErrno e), closing h handle? s₁) := by
  rw [Action.on_call] at hspawn
  obtain ⟨hanswer, rfl⟩ := Prod.mk.inj hspawn
  rw [on_launch, hanswer]

/-- … or it is watched over. -/
theorem on_launch_ok {h : Host σ} (r : Runner) (program : String) {argv : List Bytes}
    {handle? : Option Handle} {pid : Pid} {s s₁ : Session σ}
    (hspawn : (Host.call (h.spawn argv handle?)).on s = (.ok pid, s₁)) :
    (r.launch h program argv handle?).on s
      = (Child.guarding h ⟨pid, program, none⟩ (r.supervise h program)).on
          ((closing h handle? s₁).noted h (.spawned program pid)) := by
  rw [Action.on_call] at hspawn
  obtain ⟨hanswer, rfl⟩ := Prod.mk.inj hspawn
  rw [on_launch, hanswer]

/-- A view of no close sees nothing of it. -/
theorem view_closing {γ : Type} {f : Exchange → Option γ}
    (hclose : ∀ handle, f (.close handle) = none) (h : Host σ) (handle? : Option Handle)
    (s : Session (Recorded σ)) : (closing h.recorded handle? s).view f = s.view f := by
  cases handle? with
  | none => rfl
  | some handle => exact (keeps_recordChange _ (hclose handle) _).keeps s rfl

/-- A view of no pipe, fork, close or message sees nothing of how a process is made. -/
theorem view_spawned {γ : Type} {f : Exchange → Option γ} {h : Host σ}
    (hpipe : ∀ answer, f (.makePipe answer) = none)
    (hfork : ∀ argv input answer, f (.fork argv input answer) = none)
    (hclose : ∀ handle, f (.close handle) = none) (htell : ∀ m, f (.tell m) = none)
    {argv : List Bytes} {handle? : Option Handle} {pid : Pid}
    {s s₁ : Session (Recorded σ)} (n : Notice)
    (hspawn : (Host.call (h.recorded.spawn argv handle?)).on s = (.ok pid, s₁)) :
    ((closing h.recorded handle? s₁).noted h.recorded n).view f = s.view f := by
  have hspawned : s₁.view f = s.view f :=
    view_eq_of_agree (fun seen => .spawn (keeps_recordCall _ hpipe seen)
      (keeps_recordCall _ (hfork _ _) seen)) hspawn
  rw [view_noted h htell, view_closing hclose, hspawned]

/-- The life of a process, from a session, comes to the result and leaves the
last session. -/
inductive Launches (h : Host σ) (r : Runner) (program : String)
    (argv : List Bytes) (handle? : Option Handle) (s : Session σ) :
    Except Failure (Capture × Status) → Session σ → Prop where
  /-- There is no process. -/
  | broke {f : Failure} {t : Session σ} (hf : f.IsBreakdown) :
      Launches h r program argv handle? s (.error f) t
  /-- The process is watched over, and given up if it has not ended. -/
  | supervised {pid : Pid} {c : Child} {s₁ t : Session σ}
      {result : Except Failure (Capture × Status)}
      (hspawn : (Host.call (h.spawn argv handle?)).on s = (.ok pid, s₁))
      (hsupervised : Supervises h r program ⟨pid, program, none⟩
        ((closing h handle? s₁).noted h (.spawned program pid)) result c t) :
      Launches h r program argv handle? s result ((c.killAndReap h).on t).2

private theorem on_guarding {h : Host σ} {r : Runner} {program : String} {pid : Pid}
    {argv : List Bytes} {handle? : Option Handle} {s s₁ t : Session σ}
    {result : Except Failure (Capture × Status)}
    (hspawn : (Host.call (h.spawn argv handle?)).on s = (.ok pid, s₁))
    (hrun : (Child.guarding h ⟨pid, program, none⟩ (r.supervise h program)).on
      ((closing h handle? s₁).noted h (.spawned program pid)) = (result, t)) :
    Launches h r program argv handle? s result t := by
  rcases hbody : (r.supervise h program ⟨pid, program, none⟩).on
    ((closing h handle? s₁).noted h (.spawned program pid)) with ⟨⟨done, c⟩, s₂⟩
  rw [Child.guarding, Action.on_bind_of _ hbody] at hrun
  obtain ⟨rfl, rfl⟩ := Prod.mk.inj hrun
  exact .supervised hspawn (supervises_of_supervise hbody)

theorem launches_of_launch {h : Host σ} {r : Runner} {program : String}
    {argv : List Bytes} {handle? : Option Handle} {s t : Session σ}
    {result : Except Failure (Capture × Status)}
    (hrun : (r.launch h program argv handle?).on s = (result, t)) :
    Launches h r program argv handle? s result t := by
  rcases hspawn : (Host.call (h.spawn argv handle?)).on s with ⟨answer, s₁⟩
  cases answer with
  | error e =>
      rw [on_launch_error r program hspawn] at hrun
      obtain ⟨rfl, -⟩ := Prod.mk.inj hrun
      exact .broke (.os e)
  | ok pid =>
      rw [on_launch_ok r program hspawn] at hrun
      exact on_guarding hspawn hrun

/-! ## What is read -/

/-- Is it an exchange that reads nothing of an output? -/
private theorem received?_eq_none {x : Exchange} (hx : x.IsWatching) :
    x.received? = none := by
  cases x with
  | readOutput pid count answer => exact absurd hx (by simp [Exchange.IsWatching])
  | _ => rfl

private theorem watched_received (h : Host σ) (seen : List Bytes) :
    Watched (Same fun s => s.view Exchange.received? = seen) h.recorded h.recorded :=
  watched_view h (fun _ hx => received?_eq_none hx) seen

theorem received_noted (h : Host σ) (s : Session (Recorded σ)) (n : Notice) :
    (s.noted h.recorded n).view Exchange.received? = s.view Exchange.received? :=
  view_noted h (fun _ => rfl) s n

section Received

variable {h : Host σ} {r : Runner} {program : String} {pid : Pid}

/-- Reading goes on until there is nothing more, and all that was read was
appended to the buffer. -/
theorem drainInto_received (fuel : Nat) :
    ∀ (output : Capture) (s : Session (Recorded σ)) {t : Session (Recorded σ)}
      {final : Capture},
      (r.drainInto h.recorded program pid fuel output).on s = (.ok final, t) →
        ∃ chunks : List Bytes, (∀ chunk ∈ chunks, chunk ≠ []) ∧
          t.view Exchange.received?
            = s.view Exchange.received? ++ (chunks ++ [[]]) ∧
          final = output.append chunks.flatten := by
  induction fuel with
  | zero =>
      intro output s t final hrun
      obtain ⟨hresult, -⟩ := Prod.mk.inj hrun
      cases hresult
  | succ fuel ih =>
      intro output s t final hrun
      rcases hready : (r.awaitOutput h.recorded pid).on s with ⟨ready, s₁⟩
      have hview₁ : s₁.view Exchange.received? = s.view Exchange.received? :=
        view_eq_of_agree (fun seen => (watched_received h seen).awaitOutput r pid)
          hready
      rw [drainInto, Action.on_bind_of _ hready] at hrun
      rcases ready with f | _ | _
      · obtain ⟨hresult, -⟩ := Prod.mk.inj hrun
        cases hresult
      · obtain ⟨hresult, -⟩ := Prod.mk.inj hrun
        cases hresult
      · rcases hcall : (Host.call (h.recorded.readOutput pid readChunk)).on s₁ with
          ⟨answer, s₂⟩
        have hview₂ := view_of_recordCall (f := Exchange.received?) hcall
        rw [hview₁] at hview₂
        dsimp only at hrun
        rw [Action.on_bind_of _ hcall] at hrun
        rcases answer with e | _ | ⟨b, more⟩
        · by_cases he : e = .interrupted
          · simp only [he, if_true] at hrun
            obtain ⟨chunks, hne, hview, hfinal⟩ := ih output s₂ hrun
            refine ⟨chunks, hne, ?_, hfinal⟩
            rw [hview, hview₂]
            simp [Exchange.received?]
          · simp only [he, if_false] at hrun
            obtain ⟨hresult, -⟩ := Prod.mk.inj hrun
            cases hresult
        · obtain ⟨hresult, rfl⟩ := Prod.mk.inj hrun
          obtain rfl := Except.ok.inj hresult
          exact ⟨[], by simp, hview₂, (Capture.append_nil output).symm⟩
        · obtain ⟨chunks, hne, hview, hfinal⟩ := ih _ s₂ hrun
          refine ⟨(b :: more) :: chunks, ?_, ?_, ?_⟩
          · simpa using hne
          · rw [hview, hview₂]
            simp [Exchange.received?]
          · rw [hfinal, Capture.append_append, List.flatten_cons]

/-- How the result of a run stands to what was read in it: a program that ran
was read to its end, and its capture is that of all that was read; nothing was
read of one that could not be started. -/
def Received (r : Runner) (s t : Session (Recorded σ)) :
    Except Failure (Capture × Status) → Prop
  | .ok (output, _) => ∃ chunks : List Bytes, (∀ chunk ∈ chunks, chunk ≠ []) ∧
      t.view Exchange.received? = s.view Exchange.received? ++ (chunks ++ [[]]) ∧
      output = Capture.ofBytes chunks.flatten r.cap
  | .error f => f.isFatal = false →
      t.view Exchange.received? = s.view Exchange.received?

/-- Only the view matters. -/
theorem Received.of_view {s s' t t' : Session (Recorded σ)}
    {result : Except Failure (Capture × Status)} (hr : Received r s t result)
    (hs : s.view Exchange.received? = s'.view Exchange.received?)
    (ht : t'.view Exchange.received? = t.view Exchange.received?) :
    Received r s' t' result := by
  cases result with
  | ok p =>
      obtain ⟨chunks, hne, hview, houtput⟩ := hr
      exact ⟨chunks, hne, by rw [ht, hview, hs], houtput⟩
  | error f =>
      intro hf
      rw [ht, hr hf, hs]

theorem drain_received {s t : Session (Recorded σ)} {output : Capture}
    {status : Status}
    (hrun : (r.drain h.recorded program pid).on s = (.ok output, t)) :
    Received r s t (.ok (output, status)) := by
  rcases hread : (r.drainInto h.recorded program pid
    (h.recorded.patience s.machine) (.empty r.cap)).on s with ⟨result, s₁⟩
  rw [drain, Action.on_bind_of _ (Action.on_budget _ s), Action.on_bind_of _ hread]
    at hrun
  cases result with
  | error f =>
      obtain ⟨hresult, -⟩ := Prod.mk.inj hrun
      cases hresult
  | ok final =>
      have hread := drainInto_received _ _ s hread
      by_cases hcut : final.isTruncated = true
      · simp only [hcut, if_true] at hrun
        rw [Action.on_bind_of _ (Action.on_note _ _ s₁)] at hrun
        obtain ⟨hresult, rfl⟩ := Prod.mk.inj hrun
        obtain rfl := Except.ok.inj hresult
        obtain ⟨chunks, hne, hview, hfinal⟩ := hread
        exact ⟨chunks, hne, by rw [received_noted, hview], hfinal⟩
      · simp only [hcut] at hrun
        obtain ⟨hresult, rfl⟩ := Prod.mk.inj hrun
        obtain rfl := Except.ok.inj hresult
        exact hread

theorem Supervises.received {c c' : Child} {s t : Session (Recorded σ)}
    {result : Except Failure (Capture × Status)}
    (hs : Supervises h.recorded r program c s result c' t) :
    Received r s t result := by
  cases hs with
  | broke hf =>
      intro hgoes
      rw [hf.isFatal] at hgoes
      cases hgoes
  | refused hstart hwait =>
      intro _
      have hview₁ := view_eq_of_agree
        (fun seen => (watched_received h seen).startError c.pid) hstart
      have hview₂ := view_eq_of_agree
        (fun seen => (watched_received h seen).childWait c) hwait
      rw [received_noted, hview₂, hview₁]
  | @ended output status _ s₁ s₂ t hstart hdrain hwait =>
      have hview₁ := view_eq_of_agree
        (fun seen => (watched_received h seen).startError c.pid) hstart
      have hhung : ((Host.change (h.recorded.hangUp c.pid)).on s₂).2.view
          Exchange.received? = s₂.view Exchange.received? :=
        view_eq_of_agree (fun seen => (watched_received h seen).hangUp c.pid) rfl
      have hview₂ := view_eq_of_agree
        (fun seen => (watched_received h seen).waitUntil r.deadline c) hwait
      refine (drain_received hdrain).of_view hview₁ ?_
      rw [received_noted, hview₂, hhung]

theorem launch_received {argv : List Bytes} {handle? : Option Handle}
    {s t : Session (Recorded σ)} {result : Except Failure (Capture × Status)}
    (hrun : (r.launch h.recorded program argv handle?).on s = (result, t)) :
    Received r s t result := by
  cases launches_of_launch hrun with
  | broke hf =>
      intro hgoes
      rw [hf.isFatal] at hgoes
      cases hgoes
  | @supervised pid c s₁ t _ hspawn hsupervised =>
      have hview : ((closing h.recorded handle? s₁).noted h.recorded
          (.spawned program pid)).view Exchange.received? = s.view Exchange.received? :=
        view_spawned (fun _ => rfl) (fun _ _ _ => rfl) (fun _ => rfl) (fun _ => rfl) _ hspawn
      have hgiven : ((c.killAndReap h.recorded).on t).2.view Exchange.received?
          = t.view Exchange.received? :=
        view_eq_of_agree (fun seen => (watched_received h seen).killAndReap c) rfl
      exact hsupervised.received.of_view hview hgiven

/-- **What a run answers stands to what was read in it as it should.** -/
theorem run_received {argv : List Bytes} {input : InputSource}
    {s t : Session (Recorded σ)} {result : Except Failure (Capture × Status)}
    (hrun : (r.run h.recorded argv input).on s = (result, t)) :
    Received r s t result := by
  cases runs_of_run hrun with
  | empty =>
      intro hgoes
      cases hgoes
  | refused _ => exact fun _ => rfl
  | inherited _ hlaunch => exact launch_received hlaunch
  | unopened _ hopen =>
      intro hgoes
      rw [Relay.isFatal_of_openForRead hopen] at hgoes
      cases hgoes
  | @fed _ _ relay _ _ _ _ _ _ hopen hlaunch =>
      refine (launch_received hlaunch).of_view ?_ rfl
      exact view_eq_of_agree (fun seen => Agree.openForRead relay
        (keeps_recordCall _ (fun _ => rfl) seen)) hopen

end Received

end Runner

end CommandExpr
