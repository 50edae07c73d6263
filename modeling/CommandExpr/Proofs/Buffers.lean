import CommandExpr.Proofs.Discretion
import CommandExpr.Proofs.PipeRegrouping

/-!
# A program whose output is read into two buffers

The same program is run twice, on machines that are alike, and its output is read into
buffers of different capacities.  Both runs make the same calls and get the same answers:
what does not fit is read all the same, so a full buffer changes nothing but what is kept,
and what is logged of it.

This is so on a host on which watching over a process goes the same way on machines that
are alike (`Host.Steady`).  The clock is left aside, since nothing looks at it unless there
is a deadline.

## Main results

* `Capture.Twins.append`, `Capture.Twins.join` — two buffers for one output stay so.
* `Host.Steady.launch` — the life of a process is the same with both buffers.
-/

namespace CommandExpr

variable {σ τ α β γ δ : Type}

/-! ## Two buffers -/

namespace Capture

/-- Two captures of one output, each as far as it fits. -/
structure Twins (cap cap' : Nat) (a b : Capture) : Prop where
  whole : ∃ whole, a.Holds cap whole ∧ b.Holds cap' whole
  status : a.status = b.status
  faults : a.faults = b.faults

variable {cap cap' : Nat} {a b c d : Capture}

namespace Twins

theorem empty (cap cap' : Nat) : (Capture.empty cap).Twins cap cap' (Capture.empty cap') :=
  ⟨⟨[], holds_empty cap, holds_empty cap'⟩, rfl, rfl⟩

theorem append (hab : a.Twins cap cap' b) (more : Bytes) :
    (a.append more).Twins cap cap' (b.append more) := by
  obtain ⟨whole, ha, hb⟩ := hab.whole
  exact ⟨⟨whole ++ more, ha.append more, hb.append more⟩, hab.status, hab.faults⟩

/-- What an operator makes of two outputs fits as far as they did. -/
theorem join (hab : a.Twins cap cap' b) (hcd : c.Twins cap cap' d) (op : Operator) :
    (op.join a c).Twins cap cap' (op.join b d) := by
  obtain ⟨first, ha, hb⟩ := hab.whole
  obtain ⟨second, hc, hd⟩ := hcd.whole
  refine ⟨?_, ?_, ?_⟩
  · cases op with
    | concat => exact ⟨first ++ second, ha.concat hc, hb.concat hd⟩
    | sequence => exact ⟨second, hc.of_eq rfl rfl rfl, hd.of_eq rfl rfl rfl⟩
    | pipe => exact ⟨second, hc.of_eq rfl rfl rfl, hd.of_eq rfl rfl rfl⟩
  · rw [op.status_join, op.status_join, hcd.status]
  · rw [op.faults_join, op.faults_join, hab.faults, hcd.faults]

theorem outcome (hab : a.Twins cap cap' b) (path : String) (status : Status) :
    (Evaluator.outcome path a status).Twins cap cap' (Evaluator.outcome path b status) := by
  obtain ⟨whole, ha, hb⟩ := hab.whole
  refine ⟨⟨whole, Evaluator.holds_outcome ha, Evaluator.holds_outcome hb⟩, ?_, ?_⟩
  · cases hstatus : status.isSuccess <;> simp only [Evaluator.outcome, hstatus] <;> rfl
  · cases hstatus : status.isSuccess <;> simp only [Evaluator.outcome, hstatus]
    · exact congrArg (· ++ _) hab.faults
    · exact hab.faults

theorem absent (cap cap' : Nat) (path : String) (errno : Errno) :
    (Evaluator.absent path cap errno).Twins cap cap' (Evaluator.absent path cap' errno) :=
  ⟨⟨[], (holds_empty cap).of_eq rfl rfl rfl, (holds_empty cap').of_eq rfl rfl rfl⟩, rfl, rfl⟩

/-- Buffers of one capacity keep the same. -/
theorem eq (hab : a.Twins cap cap b) : a = b := by
  obtain ⟨_, ha, hb⟩ := hab.whole
  exact ha.eq_of_status_faults hb hab.status hab.faults

/-- The smaller one keeps the first bytes of what the larger one keeps, … -/
theorem bytes_eq_take (hle : cap ≤ cap') (hab : a.Twins cap cap' b) :
    a.bytes = b.bytes.take cap := by
  obtain ⟨whole, ha, hb⟩ := hab.whole
  rw [ha.bytes, hb.bytes, List.take_take, Nat.min_eq_left hle]

/-- … and it drops something if that one does, or if that one keeps more than fits. -/
theorem isTruncated_iff (hle : cap ≤ cap') (hab : a.Twins cap cap' b) :
    a.isTruncated = true ↔ b.isTruncated = true ∨ cap < b.bytes.length := by
  obtain ⟨whole, ha, hb⟩ := hab.whole
  rw [ha.isTruncated, hb.isTruncated, hb.bytes, List.length_take]
  omega

/-- Both keep the same if the smaller one drops nothing. -/
theorem bytes_eq (hle : cap ≤ cap') (hab : a.Twins cap cap' b) (hall : a.isTruncated = false) :
    a.bytes = b.bytes := by
  have hfits : ¬cap < b.bytes.length := fun hlt => by
    rw [(hab.isTruncated_iff hle).mpr (Or.inr hlt)] at hall
    cases hall
  rw [hab.bytes_eq_take hle, List.take_of_length_le (Nat.le_of_not_lt hfits)]

end Twins

end Capture

/-! ## Two results -/

/-- Two results that are both good, or both failures, and related as such. -/
inductive Matches {ε ε' : Type} (F : ε → ε' → Prop) (P : α → β → Prop) :
    Except ε α → Except ε' β → Prop where
  | ok {a : α} {b : β} (hab : P a b) : Matches F P (.ok a) (.ok b)
  | error {e : ε} {e' : ε'} (he : F e e') : Matches F P (.error e) (.error e')

theorem Matches.mono {ε ε' : Type} {F G : ε → ε' → Prop} {P Q : α → β → Prop}
    {x : Except ε α} {y : Except ε' β} (hxy : Matches F P x y)
    (hF : ∀ e e', F e e' → G e e') (hP : ∀ a b, P a b → Q a b) : Matches G Q x y := by
  cases hxy with
  | ok hab => exact .ok (hP _ _ hab)
  | error he => exact .error (hF _ _ he)

/-- Two actions agree up to a relation between what they return. -/
def AgreeUpTo (R : Session σ → Session τ → Prop) (V : α → β → Prop) (x : Action σ α)
    (y : Action τ β) : Prop :=
  ∀ s t, R s t → V (x.on s).1 (y.on t).1 ∧ R (x.on s).2 (y.on t).2

namespace AgreeUpTo

variable {R : Session σ → Session τ → Prop} {V : α → β → Prop} {W : γ → δ → Prop}

protected theorem pure {a : α} {b : β} (hab : V a b) :
    AgreeUpTo R V (pure a : Action σ α) (pure b : Action τ β) :=
  fun _ _ hR => ⟨hab, hR⟩

protected theorem bind {x : Action σ α} {y : Action τ β} {f : α → Action σ γ}
    {g : β → Action τ δ} (hxy : AgreeUpTo R V x y)
    (hfg : ∀ a b, V a b → AgreeUpTo R W (f a) (g b)) :
    AgreeUpTo R W (x >>= f) (y >>= g) := by
  intro s t hR
  obtain ⟨hV, hR'⟩ := hxy s t hR
  exact hfg _ _ hV _ _ hR'

/-- What agrees returns the same. -/
protected theorem bind_agree {x : Action σ α} {y : Action τ α} {f : α → Action σ γ}
    {g : α → Action τ δ} (hxy : Agree R x y) (hfg : ∀ a, AgreeUpTo R W (f a) (g a)) :
    AgreeUpTo R W (x >>= f) (y >>= g) := by
  intro s t hR
  obtain ⟨heq, hR'⟩ := hxy s t hR
  rw [Action.on_bind, Action.on_bind, heq]
  exact hfg _ _ _ hR'

end AgreeUpTo

/-! ## Hosts -/

/-- The machines of two sessions are alike. -/
def Session.Alike (alike : σ → σ → Prop) (s t : Session σ) : Prop :=
  alike s.machine t.machine

namespace Host.Steady

variable {h : Host σ} {alike : σ → σ → Prop}

theorem stopped (hs : h.Steady alike) : h.stopped.Steady alike where
  equivalence := hs.equivalence
  patience := hs.patience
  readReport := hs.readReport
  readOutput := hs.readOutput
  pollOutput := hs.pollOutput
  wait := hs.wait
  kill := hs.kill
  hangUp := hs.hangUp
  sleep := hs.sleep
  tell := hs.tell

private theorem agree_of_blind {f : σ → α × σ} (hf : Blind alike f) :
    Agree (Session.Alike alike) (Host.call f) (Host.call f) :=
  fun s t halike => hf s.machine t.machine halike

/-- Different things may be logged, … -/
theorem noted (hs : h.Steady alike) {s t : Session σ} (halike : s.Alike alike t)
    (n n' : Notice) : (s.noted h n).Alike alike (t.noted h n') :=
  hs.equivalence.trans (hs.equivalence.symm (hs.tell _ _))
    (hs.equivalence.trans halike (hs.tell _ _))

/-- … or something on one side only. -/
theorem noted_left (hs : h.Steady alike) {s t : Session σ} (halike : s.Alike alike t)
    (n : Notice) : (s.noted h n).Alike alike t :=
  hs.equivalence.trans (hs.equivalence.symm (hs.tell _ _)) halike

theorem noted_right (hs : h.Steady alike) {s t : Session σ} (halike : s.Alike alike t)
    (n : Notice) : s.Alike alike (t.noted h n) :=
  hs.equivalence.trans halike (hs.tell _ _)

theorem supervised (hs : h.Steady alike) (hnow : Blind alike h.now) :
    Supervised (Session.Alike alike) h h where
  patience _ _ halike := hs.patience halike
  pollOutput pid millis := agree_of_blind (hs.pollOutput pid millis)
  hangUp pid _ _ halike := ⟨rfl, hs.hangUp pid halike⟩
  now := agree_of_blind hnow
  tell message _ _ halike := ⟨rfl, hs.equivalence.trans
    (hs.equivalence.symm (hs.tell message _)) (hs.equivalence.trans halike (hs.tell message _))⟩
  readReport pid count := agree_of_blind (hs.readReport pid count)
  wait pid look := agree_of_blind (hs.wait pid look)
  kill pid signal := agree_of_blind (hs.kill pid signal)
  sleep time _ _ halike := ⟨rfl, hs.sleep time halike⟩
  readOutput pid count := agree_of_blind (hs.readOutput pid count)

end Host.Steady

/-! ## The same program, two buffers -/

section Programs

variable {h : Host σ} {alike : σ → σ → Prop} {cap cap' : Nat} {deadline : Option Instant}

/-- The outputs of a program that ran, with the same end. -/
def SameRun (cap cap' : Nat) (a b : Capture × Status) : Prop :=
  a.1.Twins cap cap' b.1 ∧ a.2 = b.2

private theorem waitReadable_eq (cap cap' : Nat) (fuel : Nat) (pid : Pid) :
    Runner.waitReadable h ⟨cap, deadline⟩ pid fuel
      = Runner.waitReadable h ⟨cap', deadline⟩ pid fuel := by
  induction fuel with
  | zero => rfl
  | succ fuel ih => simp only [Runner.waitReadable, ih]

private theorem awaitOutput_eq (cap cap' : Nat) (pid : Pid) :
    Runner.awaitOutput h ⟨cap, deadline⟩ pid = Runner.awaitOutput h ⟨cap', deadline⟩ pid := by
  cases deadline with
  | none => rfl
  | some time => simp only [Runner.awaitOutput, waitReadable_eq cap cap']

variable (w : Supervised (Session.Alike alike) h h) (hs : h.Steady alike)

include w in
/-- A buffer that is full is no reason to read less. -/
private theorem agree_drainInto (program : String) (pid : Pid) (fuel : Nat) :
    ∀ {a b : Capture}, a.Twins cap cap' b →
      AgreeUpTo (Session.Alike alike) (Matches Eq (Capture.Twins cap cap'))
        (Runner.drainInto h ⟨cap, deadline⟩ program pid fuel a)
        (Runner.drainInto h ⟨cap', deadline⟩ program pid fuel b) := by
  induction fuel with
  | zero => exact fun _ => AgreeUpTo.pure (.error rfl)
  | succ fuel ih =>
      intro a b hab
      have hawait := w.awaitOutput ⟨cap, deadline⟩ pid
      nth_rewrite 2 [awaitOutput_eq cap cap'] at hawait
      refine AgreeUpTo.bind_agree hawait fun ready => ?_
      rcases ready with f | _ | _
      · exact AgreeUpTo.pure (.error rfl)
      · exact AgreeUpTo.pure (.error rfl)
      · refine AgreeUpTo.bind_agree (w.readOutput pid _) fun answer => ?_
        rcases answer with e | _ | ⟨byte, more⟩
        · by_cases he : e = .interrupted
          · simp only [he, if_true]
            exact ih hab
          · simp only [he, if_false]
            exact AgreeUpTo.pure (.error rfl)
        · exact AgreeUpTo.pure (.ok hab)
        · exact ih (hab.append _)

include hs in
/-- Only one of the buffers may be too small, and then this is logged. -/
private theorem agree_logged {a b : Capture} (hab : a.Twins cap cap' b) (program : String) :
    AgreeUpTo (Session.Alike alike) (Matches Eq (Capture.Twins cap cap'))
      (do
        if a.isTruncated then h.note (.truncated program cap)
        return (.ok a : Except Failure Capture))
      (do
        if b.isTruncated then h.note (.truncated program cap')
        return (.ok b : Except Failure Capture)) := by
  intro s t halike
  refine ⟨?_, ?_⟩
  · cases a.isTruncated <;> cases b.isTruncated <;> exact .ok hab
  · cases a.isTruncated <;> cases b.isTruncated
    · exact halike
    · exact hs.noted_right halike _
    · exact hs.noted_left halike _
    · exact hs.noted halike _ _

include w hs in
private theorem agree_drain (program : String) (pid : Pid) :
    AgreeUpTo (Session.Alike alike) (Matches Eq (Capture.Twins cap cap'))
      (Runner.drain h ⟨cap, deadline⟩ program pid)
      (Runner.drain h ⟨cap', deadline⟩ program pid) := by
  refine AgreeUpTo.bind_agree w.budget fun fuel => ?_
  refine AgreeUpTo.bind (agree_drainInto w program pid fuel (.empty cap cap')) fun _ _ hread => ?_
  cases hread with
  | error he => exact AgreeUpTo.pure (.error he)
  | ok hab => exact agree_logged hs hab program

include w hs in
private theorem agree_supervise (program : String) (c : Child) :
    AgreeUpTo (Session.Alike alike)
      (fun a b => Matches Eq (SameRun cap cap') a.1 b.1 ∧ a.2 = b.2)
      (Runner.supervise h ⟨cap, deadline⟩ program c)
      (Runner.supervise h ⟨cap', deadline⟩ program c) := by
  refine AgreeUpTo.bind_agree (w.startError c.pid) fun started => ?_
  rcases started with f | _ | errno
  · exact AgreeUpTo.pure ⟨.error rfl, rfl⟩
  · refine AgreeUpTo.bind (agree_drain w hs program c.pid) fun drained drained' hdrained => ?_
    refine AgreeUpTo.bind_agree (w.hangUp c.pid) fun _ => ?_
    cases hdrained with
    | error he => exact AgreeUpTo.pure ⟨.error he, rfl⟩
    | ok hab =>
        refine AgreeUpTo.bind_agree (w.waitUntil deadline c) fun waited => ?_
        obtain ⟨result, c'⟩ := waited
        cases result with
        | error f => exact AgreeUpTo.pure ⟨.error rfl, rfl⟩
        | ok status =>
            refine AgreeUpTo.bind (V := fun _ _ => True) ?_ fun _ _ _ =>
              AgreeUpTo.pure ⟨.ok ⟨hab, rfl⟩, rfl⟩
            exact fun s t halike => ⟨trivial, hs.noted halike _ _⟩
  · refine AgreeUpTo.bind_agree (w.childWait c) fun waited => ?_
    obtain ⟨result, c'⟩ := waited
    cases result with
    | error e => exact AgreeUpTo.pure ⟨.error rfl, rfl⟩
    | ok status =>
        exact AgreeUpTo.bind_agree (w.note _) fun _ => AgreeUpTo.pure ⟨.error rfl, rfl⟩

include w hs in
private theorem agree_guarded (program : String) (c : Child) :
    AgreeUpTo (Session.Alike alike) (Matches Eq (SameRun cap cap'))
      (c.guarding h (Runner.supervise h ⟨cap, deadline⟩ program))
      (c.guarding h (Runner.supervise h ⟨cap', deadline⟩ program)) := by
  refine AgreeUpTo.bind (agree_supervise w hs program c) ?_
  rintro ⟨result, c'⟩ ⟨result', _⟩ ⟨hresult, rfl⟩
  exact AgreeUpTo.bind_agree (w.killAndReap c') fun _ => AgreeUpTo.pure hresult

include w hs in
private theorem launch_of_supervised {program : String} {argv : List Bytes}
    {handle? handle?' : Option Handle} {s t : Session σ}
    (hanswer : (h.spawn argv handle? s.machine).1 = (h.spawn argv handle?' t.machine).1)
    (hafter : Session.Alike alike
      (Runner.closing h handle? { s with machine := (h.spawn argv handle? s.machine).2 })
      (Runner.closing h handle?' { t with machine := (h.spawn argv handle?' t.machine).2 })) :
    Matches Eq (SameRun cap cap')
        ((Runner.launch h ⟨cap, deadline⟩ program argv handle?).on s).1
        ((Runner.launch h ⟨cap', deadline⟩ program argv handle?').on t).1 ∧
      Session.Alike alike
        ((Runner.launch h ⟨cap, deadline⟩ program argv handle?).on s).2
        ((Runner.launch h ⟨cap', deadline⟩ program argv handle?').on t).2 := by
  rw [Runner.on_launch, Runner.on_launch, ← hanswer]
  cases (h.spawn argv handle? s.machine).1 with
  | error e => exact ⟨.error rfl, hafter⟩
  | ok pid => exact agree_guarded w hs program _ _ _ (hs.noted hafter _ _)

/-- **The life of a process is the same with both buffers**, if it is made alike.  The
clock may go as it likes if there is no deadline. -/
theorem Host.Steady.launch (hs : h.Steady alike)
    (hclock : deadline = none ∨ Blind alike h.now) {program : String} {argv : List Bytes}
    {handle? handle?' : Option Handle} {s t : Session σ}
    (hanswer : (h.spawn argv handle? s.machine).1 = (h.spawn argv handle?' t.machine).1)
    (hafter : Session.Alike alike
      (Runner.closing h handle? { s with machine := (h.spawn argv handle? s.machine).2 })
      (Runner.closing h handle?' { t with machine := (h.spawn argv handle?' t.machine).2 })) :
    Matches Eq (SameRun cap cap')
        ((Runner.launch h ⟨cap, deadline⟩ program argv handle?).on s).1
        ((Runner.launch h ⟨cap', deadline⟩ program argv handle?').on t).1 ∧
      Session.Alike alike
        ((Runner.launch h ⟨cap, deadline⟩ program argv handle?).on s).2
        ((Runner.launch h ⟨cap', deadline⟩ program argv handle?').on t).2 := by
  rcases hclock with rfl | hnow
  · rw [← Runner.launch_stopped h cap, ← Runner.launch_stopped h cap']
    exact launch_of_supervised (hs.stopped.supervised fun m m' halike => ⟨rfl, halike⟩)
      hs.stopped hanswer hafter
  · exact launch_of_supervised (hs.supervised hnow) hs hanswer hafter

end Programs

end CommandExpr
