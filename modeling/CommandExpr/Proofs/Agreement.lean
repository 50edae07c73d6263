import CommandExpr.Evaluator
import CommandExpr.Proofs.Computation

/-!
# Runs on two hosts

The library is written against a host that it knows nothing about.  So if two
hosts answer alike in related sessions and keep the sessions related, then
whatever the library does on them comes to the same and leaves related
sessions.  This module proves that once for every function between the calls
of the host and an evaluation.

The conditions come in parts, because many functions use only some of the
calls: `Awaited` has the calls by which a child's output is waited for,
`Drained` also those that read it, `Watched` those by which a child is watched
over, `Supervised` all of these, `Launched` those by which it is made,
`Running` the one by which its input is opened, `Storing` those that make,
write and remove relays, and `InStep` has all.

A run on one host is a run on two that are the same: `Agree.keeps` turns a
statement of this module into one on what a run preserves.

## Main results

* `Watched.waitUntil`, `Watched.killAndReap`, `Watched.startError` — watching
  over a child agrees, whatever its output is.
* `Launched.launch`, `Running.run` — so does a child's whole life.
* `InStep.dispatch` — an evaluation agrees if all calls do.
-/

namespace CommandExpr

variable {σ τ α β : Type}

/-- Two actions agree: in related sessions they return the same and leave
related sessions. -/
def Agree (R : Session σ → Session τ → Prop) (x : Action σ α) (y : Action τ α) :
    Prop :=
  ∀ s t, R s t → (x.on s).1 = (y.on t).1 ∧ R (x.on s).2 (y.on t).2

/-- An action preserves a property of sessions. -/
def Keeps (P : Session σ → Prop) (x : Action σ α) : Prop :=
  ∀ s, P s → P (x.on s).2

/-- The same session twice, with a property. -/
def Same (P : Session σ → Prop) (s t : Session σ) : Prop := s = t ∧ P s

namespace Agree

variable {R : Session σ → Session τ → Prop}

protected theorem pure (a : α) :
    Agree R (pure a : Action σ α) (pure a : Action τ α) :=
  fun _ _ hR => ⟨rfl, hR⟩

protected theorem bind {x : Action σ α} {y : Action τ α} {f : α → Action σ β}
    {g : α → Action τ β} (hx : Agree R x y) (hf : ∀ a, Agree R (f a) (g a)) :
    Agree R (x >>= f) (y >>= g) := by
  intro s t hR
  obtain ⟨heq, hR'⟩ := hx s t hR
  rw [Action.on_bind, Action.on_bind, heq]
  exact hf _ _ _ hR'

/-- Attempts agree part by part: the rest matters after a success only. -/
theorem attempt {x : Attempt σ α} {y : Attempt τ α} {f : α → Attempt σ β}
    {g : α → Attempt τ β} (hx : Agree R x.run y.run)
    (hf : ∀ a, Agree R (f a).run (g a).run) :
    Agree R (x >>= f).run (y >>= g).run := by
  rw [ExceptT.run_bind, ExceptT.run_bind]
  refine Agree.bind hx fun result => ?_
  cases result with
  | ok a => exact hf a
  | error e => exact Agree.pure _

theorem lift {x : Action σ α} {y : Action τ α} (hx : Agree R x y) :
    Agree R (ExceptT.lift x : Attempt σ α).run (ExceptT.lift y : Attempt τ α).run :=
  Agree.bind hx fun _ => Agree.pure _

theorem ofExcept (x : Except Failure α) :
    Agree R (liftM x : Attempt σ α).run (liftM x : Attempt τ α).run := by
  cases x <;> exact Agree.pure _

theorem keeps {P : Session σ → Prop} {x : Action σ α}
    (hx : Agree (Same P) x x) : Keeps P x :=
  fun s hs => (hx s s ⟨rfl, hs⟩).2.2

/-- What was run in one of two related sessions can be run in the other. -/
theorem exists_run {x : Action σ α} {y : Action τ α} (hxy : Agree R x y)
    {s s' : Session σ} {t : Session τ} {result : α} (hR : R s t)
    (hrun : x.on s = (result, s')) : ∃ t', y.on t = (result, t') ∧ R s' t' := by
  obtain ⟨hresult, hR'⟩ := hxy s t hR
  rw [hrun] at hresult hR'
  exact ⟨(y.on t).2, Prod.ext hresult.symm rfl, hR'⟩

end Agree

/-- What is kept by an action agrees with itself. -/
theorem Keeps.agree {P : Session σ → Prop} {x : Action σ α} (hx : Keeps P x) :
    Agree (Same P) x x := by
  rintro s _ ⟨rfl, hs⟩
  exact ⟨rfl, rfl, hx s hs⟩

/-! ## Reading the output of a child -/

/-- The calls by which output is waited for agree. -/
structure Awaited (R : Session σ → Session τ → Prop) (h : Host σ) (k : Host τ) :
    Prop where
  patience : ∀ s t, R s t → h.patience s.machine = k.patience t.machine
  pollOutput : ∀ pid millis,
    Agree R (Host.call (h.pollOutput pid millis)) (Host.call (k.pollOutput pid millis))
  hangUp : ∀ pid, Agree R (Host.change (h.hangUp pid)) (Host.change (k.hangUp pid))
  now : Agree R (Host.call h.now) (Host.call k.now)
  tell : ∀ m, Agree R (Host.change (h.tell m)) (Host.change (k.tell m))

namespace Awaited

variable {R : Session σ → Session τ → Prop} {h : Host σ} {k : Host τ}

theorem note (w : Awaited R h k) (n : Notice) : Agree R (h.note n) (k.note n) :=
  w.tell (.notice n)

theorem budget (w : Awaited R h k) : Agree R h.budget k.budget :=
  fun s t hR => ⟨w.patience s t hR, hR⟩

theorem waitReadable (w : Awaited R h k) (r : Runner) (pid : Pid) (fuel : Nat) :
    Agree R (r.waitReadable h pid fuel) (r.waitReadable k pid fuel) := by
  induction fuel with
  | zero => exact Agree.pure _
  | succ fuel ih =>
      cases hdeadline : r.deadline with
      | none =>
          simp only [Runner.waitReadable, hdeadline]
          exact Agree.pure _
      | some deadline =>
          simp only [Runner.waitReadable, hdeadline]
          refine Agree.bind w.now fun now => ?_
          by_cases hleft : deadline - now = 0
          · simp only [hleft, if_true]
            exact Agree.pure _
          · simp only [hleft, if_false]
            refine Agree.bind (w.pollOutput pid _) fun answer => ?_
            rcases answer with e | _ | _
            · by_cases he : e = .interrupted
              · simp only [he, if_true]
                exact ih
              · simp only [he, if_false]
                exact Agree.pure _
            · exact ih
            · exact Agree.pure _

theorem awaitOutput (w : Awaited R h k) (r : Runner) (pid : Pid) :
    Agree R (r.awaitOutput h pid) (r.awaitOutput k pid) := by
  cases hdeadline : r.deadline with
  | none =>
      simp only [Runner.awaitOutput, hdeadline]
      exact Agree.pure _
  | some deadline =>
      simp only [Runner.awaitOutput, hdeadline]
      exact Agree.bind w.budget fun fuel => w.waitReadable r pid fuel

end Awaited

/-- The calls by which output is waited for agree, and those that read it. -/
structure Drained (R : Session σ → Session τ → Prop) (h : Host σ) (k : Host τ) :
    Prop extends Awaited R h k where
  readOutput : ∀ pid count,
    Agree R (Host.call (h.readOutput pid count)) (Host.call (k.readOutput pid count))

namespace Drained

variable {R : Session σ → Session τ → Prop} {h : Host σ} {k : Host τ}

theorem drainInto (w : Drained R h k) (r : Runner) (program : String)
    (pid : Pid) (fuel : Nat) :
    ∀ output : Capture,
      Agree R (r.drainInto h program pid fuel output)
        (r.drainInto k program pid fuel output) := by
  induction fuel with
  | zero => intro output; exact Agree.pure _
  | succ fuel ih =>
      intro output
      refine Agree.bind (w.awaitOutput r pid) fun ready => ?_
      rcases ready with f | _ | _
      · exact Agree.pure _
      · exact Agree.pure _
      · refine Agree.bind (w.readOutput pid _) fun answer => ?_
        rcases answer with e | _ | ⟨b, more⟩
        · by_cases he : e = .interrupted
          · simp only [he, if_true]
            exact ih output
          · simp only [he, if_false]
            exact Agree.pure _
        · exact Agree.pure _
        · exact ih _

theorem drain (w : Drained R h k) (r : Runner) (program : String) (pid : Pid) :
    Agree R (r.drain h program pid) (r.drain k program pid) := by
  refine Agree.bind w.budget fun fuel => ?_
  refine Agree.bind (w.drainInto r program pid fuel _) fun result => ?_
  cases result with
  | error f => exact Agree.pure _
  | ok output =>
      by_cases hcut : output.isTruncated = true
      · simp only [hcut, if_true]
        exact Agree.bind (w.note _) fun _ => Agree.pure _
      · simp only [hcut]
        exact Agree.pure _

end Drained

/-! ## Reading the report of a child -/

section Report

variable {R : Session σ → Session τ → Prop} {h : Host σ} {k : Host τ}

theorem Agree.readReportFrom {pid : Pid}
    (hread : ∀ count,
      Agree R (Host.call (h.readReport pid count)) (Host.call (k.readReport pid count)))
    (fuel : Nat) :
    ∀ seen : Bytes,
      Agree R (Runner.readReportFrom h pid fuel seen)
        (Runner.readReportFrom k pid fuel seen) := by
  induction fuel with
  | zero => intro seen; exact Agree.pure _
  | succ fuel ih =>
      intro seen
      by_cases hseen : Errno.byteCount ≤ seen.length
      · simp only [Runner.readReportFrom, hseen, if_true]
        exact Agree.pure _
      · simp only [Runner.readReportFrom, hseen, if_false]
        refine Agree.bind (hread _) fun answer => ?_
        rcases answer with e | _ | ⟨b, more⟩
        · by_cases he : e = .interrupted
          · simp only [he, if_true]
            exact ih seen
          · simp only [he, if_false]
            exact Agree.pure _
        · exact Agree.pure _
        · exact ih _

/-- Nothing but the report is asked for, however the child is watched over. -/
theorem Agree.startError {pid : Pid}
    (hpatience : ∀ s t, R s t → h.patience s.machine = k.patience t.machine)
    (hread : ∀ count,
      Agree R (Host.call (h.readReport pid count)) (Host.call (k.readReport pid count))) :
    Agree R (Runner.startError h pid) (Runner.startError k pid) := by
  refine Agree.bind (fun s t hR => ⟨hpatience s t hR, hR⟩) fun fuel => ?_
  refine Agree.bind (Agree.readReportFrom hread fuel []) fun read => ?_
  rcases read with f | _ | ⟨b, more⟩
  · exact Agree.pure _
  · exact Agree.pure _
  · cases hreport : Errno.ofBytes? (b :: more) with
    | some e =>
        simp only [hreport]
        exact Agree.pure _
    | none =>
        simp only [hreport]
        exact Agree.pure _

end Report

/-! ## Waiting for the end of a child -/

section End

variable {R : Session σ → Session τ → Prop} {h : Host σ} {k : Host τ}

theorem Agree.awaitEnd {pid : Pid}
    (hwait : Agree R (Host.call (h.wait pid false)) (Host.call (k.wait pid false)))
    (fuel : Nat) : Agree R (Child.awaitEnd h pid fuel) (Child.awaitEnd k pid fuel) := by
  induction fuel with
  | zero => exact Agree.pure _
  | succ fuel ih =>
      refine Agree.bind hwait ?_
      intro answer
      cases answer with
      | ok report =>
          cases hreport : report.status? with
          | some status =>
              simp only [hreport]
              exact Agree.pure _
          | none =>
              simp only [hreport]
              exact ih
      | error e =>
          by_cases he : e = .interrupted
          · simp only [he, if_true]
            exact ih
          · simp only [he, if_false]
            exact Agree.pure _

/-- Nothing but the end of the one child is asked for. -/
theorem Agree.childWait {c : Child}
    (hpatience : ∀ s t, R s t → h.patience s.machine = k.patience t.machine)
    (hwait : Agree R (Host.call (h.wait c.pid false)) (Host.call (k.wait c.pid false))) :
    Agree R (c.wait h) (c.wait k) := by
  cases hc : c.status with
  | some status =>
      simp only [Child.wait, hc]
      exact Agree.pure _
  | none =>
      simp only [Child.wait, hc]
      refine Agree.bind (fun s t hR => ⟨hpatience s t hR, hR⟩) fun fuel => ?_
      refine Agree.bind (Agree.awaitEnd hwait fuel) fun result => ?_
      cases result <;> exact Agree.pure _

/-- Giving a child up does no more than that and sending it the signal, with a word
about each. -/
theorem Agree.killAndReap {c : Child}
    (hpatience : ∀ s t, R s t → h.patience s.machine = k.patience t.machine)
    (hkill : Agree R (Host.call (h.kill c.pid .kill)) (Host.call (k.kill c.pid .kill)))
    (hwait : Agree R (Host.call (h.wait c.pid false)) (Host.call (k.wait c.pid false)))
    (htell : ∀ m, Agree R (Host.change (h.tell m)) (Host.change (k.tell m))) :
    Agree R (c.killAndReap h) (c.killAndReap k) := by
  by_cases hc : c.isReaped = true
  · simp only [Child.killAndReap, hc, if_true]
    exact Agree.pure _
  · simp only [Child.killAndReap, hc]
    have hkilled : Agree R (c.kill h .kill) (c.kill k .kill) := by
      refine Agree.bind hkill fun result => ?_
      cases result <;> exact Agree.pure _
    refine Agree.bind hkilled fun killed => ?_
    cases killed with
    | ok _ =>
        refine Agree.bind (Agree.childWait hpatience hwait) fun waited => ?_
        obtain ⟨result, c'⟩ := waited
        cases result <;> exact Agree.bind (htell _) fun _ => Agree.pure _
    | error f =>
        refine Agree.bind (htell _) fun _ => ?_
        refine Agree.bind (Agree.childWait hpatience hwait) fun waited => ?_
        obtain ⟨result, c'⟩ := waited
        cases result <;> exact Agree.bind (htell _) fun _ => Agree.pure _

end End

/-! ## Watching over a child -/

/-- The calls by which a child is watched over agree, those that read its
output left aside. -/
structure Watched (R : Session σ → Session τ → Prop) (h : Host σ) (k : Host τ) :
    Prop extends Awaited R h k where
  readReport : ∀ pid count,
    Agree R (Host.call (h.readReport pid count)) (Host.call (k.readReport pid count))
  wait : ∀ pid look,
    Agree R (Host.call (h.wait pid look)) (Host.call (k.wait pid look))
  kill : ∀ pid signal,
    Agree R (Host.call (h.kill pid signal)) (Host.call (k.kill pid signal))
  sleep : ∀ time, Agree R (Host.change (h.sleep time)) (Host.change (k.sleep time))

namespace Watched

variable {R : Session σ → Session τ → Prop} {h : Host σ} {k : Host τ}

theorem childWait (w : Watched R h k) (c : Child) : Agree R (c.wait h) (c.wait k) :=
  Agree.childWait w.patience (w.wait c.pid false)

theorem lookForEnd (w : Watched R h k) (pid : Pid) (fuel : Nat) :
    Agree R (Child.lookForEnd h pid fuel) (Child.lookForEnd k pid fuel) := by
  induction fuel with
  | zero => exact Agree.pure _
  | succ fuel ih =>
      refine Agree.bind (w.wait pid true) fun answer => ?_
      cases answer with
      | ok report => exact Agree.pure _
      | error e =>
          by_cases he : e = .interrupted
          · simp only [he, if_true]
            exact ih
          · simp only [he, if_false]
            exact Agree.pure _

theorem tryWait (w : Watched R h k) (c : Child) :
    Agree R (c.tryWait h) (c.tryWait k) := by
  by_cases hc : c.isReaped = true
  · simp only [Child.tryWait, hc, if_true]
    exact Agree.pure _
  · simp only [Child.tryWait, hc]
    refine Agree.bind w.budget fun fuel => ?_
    refine Agree.bind (w.lookForEnd c.pid fuel) fun result => ?_
    cases result <;> exact Agree.pure _

theorem killAndReap (w : Watched R h k) (c : Child) :
    Agree R (c.killAndReap h) (c.killAndReap k) :=
  Agree.killAndReap w.patience (w.kill c.pid .kill) (w.wait c.pid false) w.tell

theorem pollUntil (w : Watched R h k) (deadline : Instant) (fuel : Nat) :
    ∀ c : Child, Agree R (c.pollUntil h deadline fuel) (c.pollUntil k deadline fuel) := by
  induction fuel with
  | zero => intro c; exact Agree.pure _
  | succ fuel ih =>
      intro c
      refine Agree.bind (w.tryWait c) fun tried => ?_
      obtain ⟨result, c'⟩ := tried
      rcases result with e | _ | status
      · exact Agree.pure _
      · refine Agree.bind w.now fun now => ?_
        by_cases hleft : deadline - now = 0
        · simp only [hleft, if_true]
          exact Agree.bind (w.killAndReap c') fun _ => Agree.pure _
        · simp only [hleft, if_false]
          exact Agree.bind (w.sleep _) fun _ => ih c'
      · exact Agree.pure _

theorem waitUntil (w : Watched R h k) (deadline : Option Instant) (c : Child) :
    Agree R (c.waitUntil h deadline) (c.waitUntil k deadline) := by
  cases deadline with
  | none => exact Agree.bind (w.childWait c) fun _ => Agree.pure _
  | some deadline => exact Agree.bind w.budget fun fuel => w.pollUntil deadline fuel c

/-- A child that was made is given up alike after bodies that agree. -/
theorem guarding (w : Watched R h k) (c : Child)
    {x : Child → Action σ (Except Failure α × Child)}
    {y : Child → Action τ (Except Failure α × Child)} (hxy : Agree R (x c) (y c)) :
    Agree R (c.guarding h x) (c.guarding k y) := by
  refine Agree.bind hxy fun done => ?_
  obtain ⟨result, c'⟩ := done
  exact Agree.bind (w.killAndReap c') fun _ => Agree.pure _

theorem startError (w : Watched R h k) (pid : Pid) :
    Agree R (Runner.startError h pid) (Runner.startError k pid) :=
  Agree.startError w.patience (w.readReport pid)

end Watched

/-! ## Supervising a child -/

/-- The calls by which a child is watched over agree, and those that read its
output. -/
structure Supervised (R : Session σ → Session τ → Prop) (h : Host σ)
    (k : Host τ) : Prop extends Watched R h k, Drained R h k

namespace Supervised

variable {R : Session σ → Session τ → Prop} {h : Host σ} {k : Host τ}

theorem supervise (w : Supervised R h k) (r : Runner) (program : String)
    (c : Child) : Agree R (r.supervise h program c) (r.supervise k program c) := by
  refine Agree.bind (w.startError c.pid) fun started => ?_
  rcases started with f | _ | errno
  · exact Agree.pure _
  · refine Agree.bind (w.drain r program c.pid) fun drained => ?_
    refine Agree.bind (w.hangUp c.pid) fun _ => ?_
    cases drained with
    | error f => exact Agree.pure _
    | ok output =>
        refine Agree.bind (w.waitUntil r.deadline c) fun waited => ?_
        obtain ⟨result, c'⟩ := waited
        cases result with
        | error f => exact Agree.pure _
        | ok status => exact Agree.bind (w.note _) fun _ => Agree.pure _
  · refine Agree.bind (w.childWait c) fun waited => ?_
    obtain ⟨result, c'⟩ := waited
    cases result with
    | error e => exact Agree.pure _
    | ok status => exact Agree.bind (w.note _) fun _ => Agree.pure _

/-- A child is supervised alike to its end. -/
theorem guarded (w : Supervised R h k) (r : Runner) (program : String) (c : Child) :
    Agree R (c.guarding h (r.supervise h program))
      (c.guarding k (r.supervise k program)) :=
  w.guarding c (w.supervise r program c)

end Supervised

/-! ## Making a child -/

/-- A process is made by three calls, and the first one that fails is the last. -/
theorem Host.call_spawn (h : Host σ) (argv : List Bytes) (input : Option Handle) :
    Host.call (h.spawn argv input) = (do
      match ← Host.call h.makePipe with
      | .error e => return .error e
      | .ok () =>
        match ← Host.call h.makePipe with
        | .error e => return .error e
        | .ok () => Host.call (h.fork argv input)) := by
  funext s
  rcases hfirst : h.makePipe s.machine with ⟨e | _, m⟩
  · simp only [Host.call, Host.spawn, bind, StateT.bind, hfirst]
    rfl
  · rcases hsecond : h.makePipe m with ⟨e | _, m'⟩
    · simp only [Host.call, Host.spawn, bind, StateT.bind, hfirst, hsecond]
      rfl
    · simp only [Host.call, Host.spawn, bind, StateT.bind, hfirst, hsecond]

/-- So making it agrees if these calls do. -/
theorem Agree.spawn {R : Session σ → Session τ → Prop} {h : Host σ} {k : Host τ}
    {argv : List Bytes} {input : Option Handle}
    (hpipe : Agree R (Host.call h.makePipe) (Host.call k.makePipe))
    (hfork : Agree R (Host.call (h.fork argv input)) (Host.call (k.fork argv input))) :
    Agree R (Host.call (h.spawn argv input)) (Host.call (k.spawn argv input)) := by
  rw [Host.call_spawn, Host.call_spawn]
  refine Agree.bind hpipe fun first => ?_
  rcases first with e | _
  · exact Agree.pure _
  · refine Agree.bind hpipe fun second => ?_
    rcases second with e | _
    · exact Agree.pure _
    · exact hfork

/-- The calls from the making of a child to its end agree. -/
structure Launched (R : Session σ → Session τ → Prop) (h : Host σ) (k : Host τ) :
    Prop extends Supervised R h k where
  spawn : ∀ argv input,
    Agree R (Host.call (h.spawn argv input)) (Host.call (k.spawn argv input))
  close : ∀ handle,
    Agree R (Host.change (h.close handle)) (Host.change (k.close handle))

namespace Launched

variable {R : Session σ → Session τ → Prop} {h : Host σ} {k : Host τ}

theorem attemptNote (w : Launched R h k) (n : Notice) :
    Agree R (liftM (h.note n) : Attempt σ Unit).run
      (liftM (k.note n) : Attempt τ Unit).run :=
  Agree.lift (w.note n)

theorem launch (w : Launched R h k) (r : Runner) (program : String)
    (argv : List Bytes) (handle? : Option Handle) :
    Agree R (r.launch h program argv handle?).run
      (r.launch k program argv handle?).run := by
  refine Agree.attempt (Agree.lift (w.spawn _ handle?)) fun made => ?_
  cases handle? with
  | none =>
      cases made with
      | error e => exact Agree.pure _
      | ok pid => exact Agree.attempt (w.attemptNote _) fun _ => w.guarded r _ _
  | some handle =>
      refine Agree.attempt (Agree.lift (w.close handle)) fun _ => ?_
      cases made with
      | error e => exact Agree.pure _
      | ok pid => exact Agree.attempt (w.attemptNote _) fun _ => w.guarded r _ _

end Launched

/-! ## Relays -/

/-- A call on a path agrees if the call of the host does. -/
theorem Agree.onPath {R : Session σ → Session τ → Prop} {path : Path}
    {f : Path → σ → Except Errno α × σ} {g : Path → τ → Except Errno α × τ}
    (hfg : Agree R (Host.call (f path)) (Host.call (g path))) :
    Agree R (Relay.onPath path f) (Relay.onPath path g) := by
  by_cases hnul : path.bytes.hasNul = true
  · simp only [Relay.onPath, hnul, if_true]
    exact Agree.pure _
  · simp only [Relay.onPath, hnul]
    refine Agree.bind hfg fun answer => ?_
    cases answer <;> exact Agree.pure _

theorem Agree.openForRead {R : Session σ → Session τ → Prop} {h : Host σ}
    {k : Host τ} (relay : Relay)
    (hopen : Agree R (Host.call (h.openRead relay.path))
      (Host.call (k.openRead relay.path))) :
    Agree R (relay.openForRead h).run (relay.openForRead k).run := by
  refine Agree.attempt (Agree.lift (Agree.onPath hopen)) fun opened => ?_
  cases opened <;> exact Agree.pure _

/-- The calls by which relays are made, written and given back agree, and so
do their numbers. -/
structure Storing (R : Session σ → Session τ → Prop) (h : Host σ) (k : Host τ) :
    Prop where
  createNew : ∀ path,
    Agree R (Host.call (h.createNew path)) (Host.call (k.createNew path))
  append : ∀ handle bytes,
    Agree R (Host.call (h.append handle bytes)) (Host.call (k.append handle bytes))
  close : ∀ handle,
    Agree R (Host.change (h.close handle)) (Host.change (k.close handle))
  remove : ∀ path, Agree R (Host.call (h.remove path)) (Host.call (k.remove path))
  tell : ∀ m, Agree R (Host.change (h.tell m)) (Host.change (k.tell m))
  takeId : Agree R (Relay.takeId : Action σ UInt64) (Relay.takeId : Action τ UInt64)

namespace Storing

variable {R : Session σ → Session τ → Prop} {h : Host σ} {k : Host τ}

theorem note (w : Storing R h k) (n : Notice) : Agree R (h.note n) (k.note n) :=
  w.tell (.notice n)

theorem createFrom (w : Storing R h k) (store : RelayStore) (left : Nat) :
    ∀ tried : Nat, Agree R (Relay.createFrom h store left tried)
      (Relay.createFrom k store left tried) := by
  induction left with
  | zero =>
      intro tried
      rw [Relay.createFrom, Relay.createFrom]
      refine Agree.bind w.takeId fun id => ?_
      refine Agree.bind (Agree.onPath (w.createNew _)) fun made => ?_
      cases made with
      | ok handle => exact Agree.bind (w.note _) fun _ => Agree.pure _
      | error e => exact Agree.pure _
  | succ left ih =>
      intro tried
      rw [Relay.createFrom, Relay.createFrom]
      refine Agree.bind w.takeId fun id => ?_
      refine Agree.bind (Agree.onPath (w.createNew _)) fun made => ?_
      cases made with
      | ok handle => exact Agree.bind (w.note _) fun _ => Agree.pure _
      | error e =>
          by_cases he : e.kind = .alreadyExists
          · simp only [he, if_true]
            exact Agree.bind (w.note _) fun _ => ih _
          · simp only [he, if_false]
            exact Agree.pure _

theorem write (w : Storing R h k) (relay : Relay) (output : Capture) :
    Agree R (relay.write h output).run (relay.write k output).run := by
  refine Agree.attempt (Agree.lift (w.append _ _)) fun answer => ?_
  cases answer with
  | ok _ => exact Agree.lift (w.note _)
  | error e => exact Agree.pure _

theorem dispose (w : Storing R h k) (relay : Relay) :
    Agree R (relay.dispose h) (relay.dispose k) :=
  Agree.bind (w.close _) fun _ => Agree.onPath (w.remove _)

theorem release (w : Storing R h k) (relay : Relay) :
    Agree R (relay.release h).run (relay.release k).run := by
  refine Agree.attempt (Agree.lift (w.dispose relay)) fun removed => ?_
  cases removed with
  | ok _ => exact Agree.lift (w.note _)
  | error e => exact Agree.pure _

theorem drop (w : Storing R h k) (relay : Relay) :
    Agree R (relay.drop h) (relay.drop k) := by
  refine Agree.bind (w.dispose relay) fun removed => ?_
  cases removed <;> exact w.note _

end Storing

/-! ## Running a program -/

/-- The calls that run a program agree. -/
structure Running (R : Session σ → Session τ → Prop) (h : Host σ) (k : Host τ) :
    Prop extends Launched R h k where
  openRead : ∀ path,
    Agree R (Host.call (h.openRead path)) (Host.call (k.openRead path))

namespace Running

variable {R : Session σ → Session τ → Prop} {h : Host σ} {k : Host τ}

theorem openInput (w : Running R h k) (input : InputSource) :
    Agree R (Runner.openInput h input).run (Runner.openInput k input).run := by
  cases input with
  | inherited => exact Agree.pure _
  | relay relay =>
      exact Agree.attempt (Agree.openForRead relay (w.openRead _)) fun _ => Agree.pure _

theorem run (w : Running R h k) (r : Runner) (argv : List Bytes)
    (input : InputSource) :
    Agree R (r.run h argv input).run (r.run k argv input).run := by
  cases argv with
  | nil => exact Agree.pure _
  | cons first rest =>
      by_cases hnul : (first :: rest).any Bytes.hasNul = true
      · simp only [Runner.run, hnul, if_true]
        exact Agree.pure _
      · simp only [Runner.run, hnul]
        exact Agree.attempt (w.openInput input) fun handle? =>
          w.launch r _ _ handle?

end Running

/-! ## Writing -/

/-- Writing agrees if every attempt at it does. -/
theorem Agree.writeFrom {R : Session σ → Session τ → Prop} {h : Host σ} {k : Host τ}
    (hout : ∀ bytes, Agree R (Host.call (h.writeOut bytes))
      (Host.call (k.writeOut bytes))) (fuel : Nat) :
    ∀ bytes : Bytes,
      Agree R (Output.writeFrom h fuel bytes) (Output.writeFrom k fuel bytes) := by
  induction fuel with
  | zero =>
      intro bytes
      cases bytes <;> exact Agree.pure _
  | succ fuel ih =>
      intro bytes
      cases bytes with
      | nil => exact Agree.pure _
      | cons b rest =>
          refine Agree.bind (hout _) fun answer => ?_
          rcases answer with e | _ | n
          · by_cases he : e = .interrupted
            · simp only [he, if_true]
              exact ih _
            · simp only [he, if_false]
              exact Agree.pure _
          · exact Agree.pure _
          · exact ih _

theorem Awaited.writeAll {R : Session σ → Session τ → Prop} {h : Host σ} {k : Host τ}
    (w : Awaited R h k) (hout : ∀ bytes, Agree R (Host.call (h.writeOut bytes))
      (Host.call (k.writeOut bytes))) (bytes : Bytes) :
    Agree R (Output.writeAll h bytes) (Output.writeAll k bytes) :=
  Agree.bind w.budget fun fuel => Agree.writeFrom hout fuel bytes

/-! ## Whole evaluations -/

/-- All calls of an evaluation agree, and so do the numbers of the relays. -/
structure InStep (R : Session σ → Session τ → Prop) (h : Host σ) (k : Host τ) :
    Prop extends Running R h k, Storing R h k

namespace InStep

variable {R : Session σ → Session τ → Prop} {h : Host σ} {k : Host τ}

theorem holding (w : InStep R h k) (relay : Relay) {x : Attempt σ α}
    {y : Attempt τ α} (hxy : Agree R x.run y.run) :
    Agree R (relay.holding h x).run (relay.holding k y).run := by
  refine Agree.bind hxy fun result => ?_
  cases result with
  | ok a => exact Agree.pure _
  | error e => exact Agree.bind (w.drop relay) fun _ => Agree.pure _

theorem runCommand (w : InStep R h k) (r : Runner) (c : Command)
    (input : InputSource) :
    Agree R (Evaluator.runCommand h r c input).run
      (Evaluator.runCommand k r c input).run := by
  refine Agree.attempt (Agree.ofExcept _) fun argv => ?_
  refine Agree.attempt (w.attemptNote _) fun _ => ?_
  refine Agree.attempt (Agree.lift (w.run r argv input)) fun result => ?_
  cases result with
  | ok p => exact Agree.pure _
  | error f =>
      by_cases hf : f.isFatal = true
      · simp only [hf, if_true]
        exact Agree.pure _
      · simp only [hf]
        exact Agree.attempt (w.attemptNote _) fun _ => Agree.pure _

/-- **Evaluations on two hosts in step agree.** -/
theorem dispatch (w : InStep R h k) (relays : RelayStore) (r : Runner)
    (e : Expression) :
    ∀ input : InputSource,
      Agree R (Evaluator.dispatch h relays r e input).run
        (Evaluator.dispatch k relays r e input).run := by
  induction e with
  | simple c =>
      intro input
      rw [Evaluator.dispatch, Evaluator.dispatch]
      exact w.runCommand r c input
  | binary op left right ihl ihr =>
      intro input
      cases op with
      | concat =>
          rw [Evaluator.dispatch, Evaluator.dispatch]
          exact Agree.attempt (ihl input) fun _ =>
            Agree.attempt (ihr .inherited) fun _ => Agree.pure _
      | sequence =>
          rw [Evaluator.dispatch, Evaluator.dispatch]
          exact Agree.attempt (ihl input) fun _ =>
            Agree.attempt (ihr .inherited) fun _ => Agree.pure _
      | pipe =>
          rw [Evaluator.dispatch, Evaluator.dispatch]
          refine Agree.attempt (ihl input) fun upstream => ?_
          refine Agree.attempt (w.createFrom relays _ _) fun relay => ?_
          refine Agree.attempt (w.holding relay ?_) fun output => ?_
          · exact Agree.attempt (w.write relay upstream) fun _ =>
              Agree.attempt (w.attemptNote _) fun _ => ihr (.relay relay)
          · exact Agree.attempt (w.release relay) fun _ => Agree.pure _

end InStep

end CommandExpr
