import CommandExpr.Proofs.Outlook
import CommandExpr.Proofs.Supervision

/-!
# A child is waited for once

The number of a process is free for another one as soon as a wait has told of
its end, so that neither a wait nor a signal may follow.  A child takes care of
that: whatever is done with it, and in whatever order, one end is collected, and
from then on the child answers from memory and asks the host nothing.

The runner gives up every child it has made, so that however a run goes on after
the process was made, its end has been collected once when the run is over.

`Exchange.life?` picks from a record what is done to processes: they are made,
waited for or sent a signal in vain (*touched*), and end.

## Main definitions

* `Child.Use`, `Child.useAll` — what may be done with a child, in any order
* `Outlook.Pending` — the end of a process is still to be told
* `Host.Reaps` — a host on which programs that are made come to an end

## Main results

* `Child.use_ended` — a child that knows its end answers from memory.
* `Child.use_pending` — and any other one gets to know its end, or is looked at in vain.
* `Child.reaped_once` — one end is collected in the end.
-/

namespace CommandExpr

variable {σ : Type}

/-! ## Uses of a child -/

namespace Child

/-- Something that can be done with a child. -/
inductive Use where
  | wait
  | tryWait
  | waitUntil (deadline : Option Instant)
  | killAndReap
  deriving DecidableEq

/-- What comes of it. -/
inductive Reply where
  | waited (result : Except Errno Status)
  | looked (result : Except Errno (Option Status))
  | waitedUntil (result : Except Failure Status)
  | givenUp

/-- Use a child. -/
def use (h : Host σ) (c : Child) : Use → Action σ (Reply × Child)
  | .wait => do
    let (result, c) ← c.wait h
    return (.waited result, c)
  | .tryWait => do
    let (result, c) ← c.tryWait h
    return (.looked result, c)
  | .waitUntil deadline => do
    let (result, c) ← c.waitUntil h deadline
    return (.waitedUntil result, c)
  | .killAndReap => do
    let c ← c.killAndReap h
    return (.givenUp, c)

/-- Use a child time and again. -/
def useAll (h : Host σ) : List Use → Child → Action σ (List Reply × Child)
  | [], c => return ([], c)
  | u :: uses, c => do
    let (reply, c) ← c.use h u
    let (replies, c) ← useAll h uses c
    return (reply :: replies, c)

/-- What a child replies that knows its end. -/
def Use.recall (status : Status) : Use → Reply
  | wait => .waited (.ok status)
  | tryWait => .looked (.ok (some status))
  | waitUntil _ => .waitedUntil (.ok status)
  | killAndReap => .givenUp

/-- What a child replies that gets to know its end.  If the deadline has passed then
that is all that is said. -/
def Use.Learns (u : Use) (c : Child) (status : Status) (reply : Reply) : Prop :=
  reply = u.recall status ∨
    ∃ deadline, u = .waitUntil (some deadline)
      ∧ reply = .waitedUntil (.error (.stillRunning c.program))

section UseAll

variable {h : Host σ} {u : Use} {uses : List Use} {c c₁ c₂ : Child} {s s₁ s₂ : Session σ}
  {reply : Reply} {replies : List Reply}

theorem useAll_cons (hu : (c.use h u).on s = ((reply, c₁), s₁))
    (huses : (useAll h uses c₁).on s₁ = ((replies, c₂), s₂)) :
    (useAll h (u :: uses) c).on s = ((reply :: replies, c₂), s₂) := by
  rw [useAll, Action.on_bind_of _ hu, Action.on_bind_of _ huses]
  rfl

/-- **A child that knows its end answers from memory**: nothing is asked of the host. -/
theorem use_ended {status : Status} (hpatience : 0 < h.patience s.machine)
    (hc : c.status = some status) : (c.use h u).on s = ((u.recall status, c), s) := by
  cases u with
  | wait => rw [use, Action.on_bind_of _ (on_wait_known hc)]; rfl
  | tryWait => rw [use, Action.on_bind_of _ (on_tryWait_known hc)]; rfl
  | waitUntil deadline =>
      rw [use, Action.on_bind_of _ (on_waitUntil_known hpatience hc deadline)]
      rfl
  | killAndReap =>
      have hreaped : c.isReaped = true := by simp [isReaped, hc]
      rw [use, Action.on_bind_of _ (on_killAndReap hreaped)]
      rfl

theorem useAll_ended {status : Status} (hpatience : 0 < h.patience s.machine)
    (hc : c.status = some status) :
    (useAll h uses c).on s = ((uses.map (Use.recall status), c), s) := by
  induction uses with
  | nil => rfl
  | cons u uses ih => exact useAll_cons (use_ended hpatience hc) ih

end UseAll

end Child

/-! ## Ends that are still to be told -/

/-- The end of a process is still to be told, and will be. -/
structure Outlook.Pending (o : Outlook σ) (m : σ) : Prop where
  left : ∃ n, o.left m = some n
  ends : ∀ v, o.ends m v → v.isOk = true

namespace Outlook.Pending

variable {o : Outlook σ} {m m' : σ}

theorem onward (hp : o.Pending m) (hm : o.Onward m m') : o.Pending m' := by
  obtain ⟨⟨n, hn⟩, hends⟩ := hp
  obtain ⟨⟨k, -, hk⟩, hsame⟩ := hm n hn
  exact ⟨⟨k, hk⟩, fun v hv => hends v (hsame v hv)⟩

theorem exists_eq_ok {v : Except Errno Status} (hp : o.Pending m) (hv : o.ends m v) :
    ∃ status, v = .ok status := by
  have hok := hp.ends v hv
  cases v with
  | ok status => exact ⟨status, rfl⟩
  | error e => cases hok

end Outlook.Pending

namespace Child

variable {h : Host σ} {o : Outlook σ} {u : Use} {c c' : Child} {s t : Session σ} {reply : Reply}

theorem wait_pending (ha : h.Attends c.pid o) (hc : c.status = none)
    (hp : o.Pending s.machine) {result : Except Errno Status}
    (hrun : (c.wait h).on s = ((result, c'), t)) :
    ∃ status, result = .ok status ∧ c' = c.ended status := by
  obtain ⟨n, hn⟩ := hp.left
  obtain ⟨rfl, hends⟩ := ha.childWait hn hc hrun
  obtain ⟨status, rfl⟩ := hp.exists_eq_ok hends
  exact ⟨status, rfl, rfl⟩

theorem killAndReap_pending (ha : h.Attends c.pid o) (hc : c.status = none)
    (hp : o.Pending s.machine) (hrun : (c.killAndReap h).on s = (c', t)) :
    ∃ status, c' = c.ended status := by
  obtain ⟨n, hn⟩ := hp.left
  obtain ⟨v, rfl, hv⟩ := ha.killAndReap hn hc hrun
  have hok : v.isOk = true := hv.elim (hp.ends v) id
  cases v with
  | ok status => exact ⟨status, rfl⟩
  | error e => cases hok

/-- Even when the deadline has passed the end of the child is known in the end. -/
theorem waitUntil_pending (ha : h.Attends c.pid o) (hc : c.status = none)
    (hp : o.Pending s.machine) {deadline : Option Instant} {result : Except Failure Status}
    (hrun : (c.waitUntil h deadline).on s = ((result, c'), t)) :
    ∃ status, c' = c.ended status
      ∧ (result = .ok status
        ∨ (deadline.isSome = true ∧ result = .error (.stillRunning c.program))) := by
  obtain ⟨n, hn⟩ := hp.left
  rcases ha.waitUntil hn hc hrun with ⟨v, rfl, rfl, hends⟩ | ⟨rfl, due, hdue, u, now, u',
    honward, -, -, hgive⟩
  · obtain ⟨status, rfl⟩ := hp.exists_eq_ok hends
    exact ⟨status, rfl, .inl rfl⟩
  · obtain ⟨status, rfl⟩ := killAndReap_pending ha hc (hp.onward honward) hgive
    exact ⟨status, rfl, .inr ⟨Option.isSome_iff_exists.mpr ⟨due, hdue⟩, rfl⟩⟩

/-- **A child whose end is still to be told gets to know it**, unless it is just
looked at and nothing is to be seen yet. -/
theorem use_pending (ha : h.Attends c.pid o) (hc : c.status = none)
    (hp : o.Pending s.machine) (hrun : (c.use h u).on s = ((reply, c'), t)) :
    (∃ status, c' = c.ended status ∧ u.Learns c status reply) ∨
      (u = .tryWait ∧ reply = .looked (.ok none) ∧ c' = c ∧ o.Pending t.machine) := by
  cases u with
  | wait =>
      rcases hwait : (c.wait h).on s with ⟨⟨result, c₁⟩, s₁⟩
      obtain ⟨status, rfl, rfl⟩ := wait_pending ha hc hp hwait
      rw [use, Action.on_bind_of _ hwait] at hrun
      obtain ⟨hpair, rfl⟩ := Prod.mk.inj hrun
      obtain ⟨rfl, rfl⟩ := Prod.mk.inj hpair
      exact .inl ⟨status, rfl, .inl rfl⟩
  | tryWait =>
      rcases htry : (c.tryWait h).on s with ⟨⟨result, c₁⟩, s₁⟩
      obtain ⟨n, hn⟩ := hp.left
      obtain ⟨v?, rfl, rfl, hafter⟩ := ha.tryWait hn hc htry
      rw [use, Action.on_bind_of _ htry] at hrun
      obtain ⟨hpair, rfl⟩ := Prod.mk.inj hrun
      obtain ⟨rfl, rfl⟩ := Prod.mk.inj hpair
      cases v? with
      | none => exact .inr ⟨rfl, rfl, by rw [Option.bind_none, ← hc], hp.onward hafter.onward⟩
      | some v =>
          obtain ⟨status, rfl⟩ := hp.exists_eq_ok hafter
          exact .inl ⟨status, rfl, .inl rfl⟩
  | waitUntil deadline =>
      rcases huntil : (c.waitUntil h deadline).on s with ⟨⟨result, c₁⟩, s₁⟩
      obtain ⟨status, rfl, hresult⟩ := waitUntil_pending ha hc hp huntil
      rw [use, Action.on_bind_of _ huntil] at hrun
      obtain ⟨hpair, rfl⟩ := Prod.mk.inj hrun
      obtain ⟨rfl, rfl⟩ := Prod.mk.inj hpair
      refine .inl ⟨status, rfl, ?_⟩
      rcases hresult with rfl | ⟨hdue, rfl⟩
      · exact .inl rfl
      · obtain ⟨due, rfl⟩ := Option.isSome_iff_exists.mp hdue
        exact .inr ⟨due, rfl, rfl⟩
  | killAndReap =>
      rcases hgive : (c.killAndReap h).on s with ⟨c₁, s₁⟩
      obtain ⟨status, rfl⟩ := killAndReap_pending ha hc hp hgive
      rw [use, Action.on_bind_of _ hgive] at hrun
      obtain ⟨hpair, rfl⟩ := Prod.mk.inj hrun
      obtain ⟨rfl, rfl⟩ := Prod.mk.inj hpair
      exact .inl ⟨status, rfl, .inl rfl⟩

end Child

/-! ## Lives of processes -/

/-- Something that is done to a process. -/
inductive Life where
  /-- It is made. -/
  | made (pid : Pid)
  /-- It is waited for or sent a signal, and nothing is told of its end. -/
  | touched (pid : Pid)
  /-- A wait tells of its end. -/
  | ended (pid : Pid) (status : Status)
  deriving DecidableEq

/-- What is done to a process by a call. -/
def Exchange.life? : Exchange → Option Life
  | fork _ _ (.ok pid) => some (.made pid)
  | wait pid _ answer => some ((toldEnd? answer).elim (.touched pid) (.ended pid))
  | kill pid _ _ => some (.touched pid)
  | _ => none

/-- What was done to processes, in order. -/
def Session.lives (s : Session (Recorded σ)) : List Life := s.view Exchange.life?

theorem shows_life (pid : Pid) :
    Exchange.Shows Exchange.life? pid (· = .touched pid) (.ended pid) where
  now _ := rfl
  sleep _ := rfl
  tell _ := rfl
  kill _ _ _ hx := (Option.some.inj hx).symm
  idle _ answer htold x hx := by
    rw [Exchange.life?, htold] at hx
    exact (Option.some.inj hx).symm
  ending _ answer status htold := by rw [Exchange.life?, htold, Option.elim_some]

namespace Child

variable {h : Host σ} {u : Use} {c c' : Child} {s t : Session (Recorded σ)} {reply : Reply}

/-- Whatever is done with a child, what it remembers is what was told of its end. -/
theorem use_tends (hc : c.status = none)
    (hrun : (c.use h.recorded u).on s = ((reply, c'), t)) :
    Tends Exchange.life? (· = .touched c.pid) (.ended c.pid) c s c' t := by
  cases u with
  | wait =>
      rcases hwait : (c.wait h.recorded).on s with ⟨⟨result, c₁⟩, s₁⟩
      rw [use, Action.on_bind_of _ hwait] at hrun
      obtain ⟨hpair, rfl⟩ := Prod.mk.inj hrun
      obtain ⟨rfl, rfl⟩ := Prod.mk.inj hpair
      exact (tends_wait (shows_life c.pid) hc hwait).1
  | tryWait =>
      rcases htry : (c.tryWait h.recorded).on s with ⟨⟨result, c₁⟩, s₁⟩
      rw [use, Action.on_bind_of _ htry] at hrun
      obtain ⟨hpair, rfl⟩ := Prod.mk.inj hrun
      obtain ⟨rfl, rfl⟩ := Prod.mk.inj hpair
      exact (tends_tryWait (shows_life c.pid) hc htry).1
  | waitUntil deadline =>
      rcases huntil : (c.waitUntil h.recorded deadline).on s with ⟨⟨result, c₁⟩, s₁⟩
      rw [use, Action.on_bind_of _ huntil] at hrun
      obtain ⟨hpair, rfl⟩ := Prod.mk.inj hrun
      obtain ⟨rfl, rfl⟩ := Prod.mk.inj hpair
      exact (tends_waitUntil (shows_life c.pid) hc huntil).1
  | killAndReap =>
      rcases hgive : (c.killAndReap h.recorded).on s with ⟨c₁, s₁⟩
      rw [use, Action.on_bind_of _ hgive] at hrun
      obtain ⟨hpair, rfl⟩ := Prod.mk.inj hrun
      obtain ⟨rfl, rfl⟩ := Prod.mk.inj hpair
      exact tends_killAndReap (shows_life c.pid) hc hgive

/-- Some uses first look at the child in vain, then one gets to know its end, which is
told in the meantime, once and last; all others come to what the child remembers,
and leave the session as it is. -/
def CollectsOnce (h : Host σ) (c : Child) (s : Session (Recorded σ)) (uses : List Use) : Prop :=
  ∃ before u after reply status s₁ t, uses = before ++ u :: after
    ∧ (∀ look ∈ before, look = .tryWait)
    ∧ (useAll h.recorded before c).on s = ((before.map fun _ => .looked (.ok none), c), s₁)
    ∧ (c.use h.recorded u).on s₁ = ((reply, c.ended status), t)
    ∧ u.Learns c status reply
    ∧ (useAll h.recorded after (c.ended status)).on t
        = ((after.map (Use.recall status), c.ended status), t)
    ∧ ∃ touches, (∀ x ∈ touches, x = .touched c.pid)
        ∧ t.lives = s.lives ++ (touches ++ [.ended c.pid status])

theorem useAll_pending {o : Outlook σ} (ha : h.Attends c.pid o) (hc : c.status = none)
    (uses : List Use) :
    ∀ {s : Session (Recorded σ)}, o.Pending s.machine.1 →
      c.CollectsOnce h s (uses ++ [.killAndReap]) := by
  have collects : ∀ {s t : Session (Recorded σ)} {u : Use} {reply : Reply} {status : Status}
      (after : List Use), (c.use h.recorded u).on s = ((reply, c.ended status), t) →
        u.Learns c status reply → c.CollectsOnce h s (u :: after) := by
    intro s t u reply status after hrun hlearns
    obtain ⟨touches, htouches, hlives⟩ := (use_tends hc hrun).view
    exact ⟨[], u, after, reply, status, s, t, rfl, List.forall_mem_nil _, rfl, hrun, hlearns,
      useAll_ended (ha.recorded.patience_pos _) rfl, touches, htouches, hlives⟩
  induction uses with
  | nil =>
      intro s hp
      rcases hrun : (c.use h.recorded .killAndReap).on s with ⟨⟨reply, c₁⟩, t⟩
      rcases use_pending (o := o.recorded) ha.recorded hc ⟨hp.left, hp.ends⟩ hrun with
        ⟨status, rfl, hlearns⟩ | ⟨hlook, -⟩
      · exact collects [] hrun hlearns
      · cases hlook
  | cons u uses ih =>
      intro s hp
      rcases hrun : (c.use h.recorded u).on s with ⟨⟨reply, c₁⟩, s₁⟩
      rcases use_pending (o := o.recorded) ha.recorded hc ⟨hp.left, hp.ends⟩ hrun with
        ⟨status, rfl, hlearns⟩ | ⟨rfl, rfl, rfl, hp₁⟩
      · exact collects _ hrun hlearns
      · obtain ⟨before, w, after, reply, status, s₂, t, huses, hlooks, hbefore, hw, hlearns,
          hafter, touches, htouches, hlives⟩ := ih ⟨hp₁.left, hp₁.ends⟩
        obtain ⟨seen, hseen, hviewed⟩ := (use_tends hc hrun).view
        rw [hc, Option.map_none, Option.toList_none, List.append_nil] at hviewed
        refine ⟨.tryWait :: before, w, after, reply, status, s₂, t, congrArg (_ :: ·) huses,
          List.forall_mem_cons.mpr ⟨rfl, hlooks⟩, useAll_cons hrun hbefore, hw, hlearns, hafter,
          seen ++ touches, List.forall_mem_append.mpr ⟨hseen, htouches⟩, ?_⟩
        rw [hlives, Session.lives, hviewed]
        simp only [Session.lives, List.append_assoc]

end Child

/-! ## Runs -/

/-- A host on which programs that are made come to an end, and a wait tells of it. -/
structure Host.Reaps (h : Host σ) (o : Pid → Outlook σ) : Prop where
  attends (pid : Pid) : h.Attends pid (o pid)
  undisturbed (pid : Pid) : (o pid).Undisturbed h
  spawn {argv : List Bytes} {input : Option Handle} {pid : Pid} {m : σ} :
    (h.spawn argv input m).1 = .ok pid → (o pid).Pending (h.spawn argv input m).2

namespace Runner

variable {h : Host σ} {o : Pid → Outlook σ} {r : Runner} {program : String} {c c' : Child}
  {s t : Session (Recorded σ)}

/-- Nothing was done to processes since, and the end of one is still to be told. -/
def Awaits (o : Outlook σ) (lives : List Life) (s : Session (Recorded σ)) : Prop :=
  s.lives = lives ∧ o.Pending s.machine.1

private theorem agree_awaits_call {α : Type} {f : σ → α × σ} {exchange : α → Exchange}
    {o : Outlook σ} {lives : List Life} (hlife : ∀ a, (exchange a).life? = none)
    (honward : ∀ m, o.Onward m (f m).2) :
    Agree (Same (Awaits o lives)) (Host.call (Host.recordCall f exchange))
      (Host.call (Host.recordCall f exchange)) := by
  refine Keeps.agree ?_
  rintro s ⟨hlives, hp⟩
  refine ⟨?_, hp.onward (honward s.machine.1)⟩
  exact (keeps_recordCall f hlife lives).keeps s hlives

private theorem agree_awaits_change {f : σ → σ} {exchange : Exchange} {o : Outlook σ}
    {lives : List Life} (hlife : exchange.life? = none) (honward : ∀ m, o.Onward m (f m)) :
    Agree (Same (Awaits o lives)) (Host.change (Host.recordChange f exchange))
      (Host.change (Host.recordChange f exchange)) := by
  refine Keeps.agree ?_
  rintro s ⟨hlives, hp⟩
  refine ⟨?_, hp.onward (honward s.machine.1)⟩
  exact (keeps_recordChange f hlife lives).keeps s hlives

/-- Reading the output of a program does nothing to processes. -/
private theorem drained_awaits (hr : h.Reaps o) (pid : Pid) (lives : List Life) :
    CommandExpr.Drained (Same (Awaits (o pid) lives)) h.recorded h.recorded where
  patience := by
    rintro s _ ⟨rfl, -⟩
    rfl
  pollOutput other millis :=
    agree_awaits_call (fun _ => rfl) ((hr.undisturbed pid).pollOutput other millis)
  hangUp other := agree_awaits_change rfl ((hr.undisturbed pid).hangUp other)
  now := agree_awaits_call (fun _ => rfl) (hr.attends pid).now
  tell m := agree_awaits_change rfl ((hr.attends pid).tell m)
  readOutput other count :=
    agree_awaits_call (fun _ => rfl) ((hr.undisturbed pid).readOutput other count)

/-- Neither does reading its report. -/
private theorem startError_awaits (hr : h.Reaps o) (pid : Pid) (lives : List Life) :
    Keeps (Awaits (o pid) lives) (startError h.recorded pid) := by
  refine Agree.keeps (Agree.startError (drained_awaits hr pid lives).patience ?_)
  intro count
  exact agree_awaits_call (fun _ => rfl) ((hr.undisturbed pid).readReport pid count)

private theorem tends_of_awaits {o : Outlook σ} (hc : c.status = none)
    (ht : Awaits o s.lives t) :
    Child.Tends Exchange.life? (· = .touched c.pid) (.ended c.pid) c s c t :=
  ⟨rfl, by rw [hc]; exact .of_view_eq ht.1⟩

/-- A child whose end has been told is given back with it, whatever is said of that. -/
private theorem tends_told {o : Outlook σ} {u : Session (Recorded σ)} {status : Status}
    (n : Notice) (hc : c.status = none) (hu : Awaits o s.lives u)
    (htends : Child.Tends Exchange.life? (· = .touched c.pid) (.ended c.pid) c u c' t)
    (hended : c' = c.ended status) :
    Child.Tends Exchange.life? (· = .touched c.pid) (.ended c.pid) c s c' (t.noted h.recorded n)
      ∧ (c'.status = none → o.Pending (t.noted h.recorded n).machine.1) := by
  subst hended
  have hwhole := (tends_of_awaits hc hu).trans hc hc htends
  refine ⟨⟨hwhole.child, hwhole.view.trans_view_eq (view_noted h (fun _ => rfl) t n)⟩, ?_⟩
  intro hnone
  cases hnone

/-- **A child that is watched over** is given back with its end, or else its end is
still to be told. -/
theorem supervise_tends (hr : h.Reaps o) (hc : c.status = none)
    (hp : (o c.pid).Pending s.machine.1) {result : Except Failure (Capture × Status)}
    (hrun : (r.supervise h.recorded program c).on s = ((result, c'), t)) :
    Child.Tends Exchange.life? (· = .touched c.pid) (.ended c.pid) c s c' t
      ∧ (c'.status = none → (o c.pid).Pending t.machine.1) := by
  have hattends := (hr.attends c.pid).recorded
  have hdrained := drained_awaits hr c.pid s.lives
  rcases hstart : (startError h.recorded c.pid).on s with ⟨started, s₁⟩
  have hs₁ := startError_awaits hr c.pid s.lives s ⟨rfl, hp⟩
  rw [hstart] at hs₁
  rw [supervise, Action.on_bind_of _ hstart] at hrun
  rcases started with f | _ | errno
  · obtain ⟨hpair, rfl⟩ := Prod.mk.inj hrun
    obtain ⟨-, rfl⟩ := Prod.mk.inj hpair
    exact ⟨tends_of_awaits hc hs₁, fun _ => hs₁.2⟩
  · rcases hdrain : (r.drain h.recorded program c.pid).on s₁ with ⟨drained, s₂⟩
    have hs₂ := (hdrained.drain r program c.pid).keeps s₁ hs₁
    rw [hdrain] at hs₂
    have hs₃ := (hdrained.hangUp c.pid).keeps s₂ hs₂
    rw [Action.on_bind_of _ hdrain, Action.on_bind] at hrun
    cases drained with
    | error f =>
        obtain ⟨hpair, rfl⟩ := Prod.mk.inj hrun
        obtain ⟨-, rfl⟩ := Prod.mk.inj hpair
        exact ⟨tends_of_awaits hc hs₃, fun _ => hs₃.2⟩
    | ok output =>
        rcases huntil : (c.waitUntil h.recorded r.deadline).on
          ((Host.change (h.recorded.hangUp c.pid)).on s₂).2 with ⟨⟨waited, c₁⟩, s₃⟩
        obtain ⟨status, hc₁, hresult⟩ :=
          Child.waitUntil_pending hattends hc ⟨hs₃.2.left, hs₃.2.ends⟩ huntil
        have htends := (Child.tends_waitUntil (shows_life c.pid) hc huntil).1
        rw [Action.on_bind_of _ huntil] at hrun
        rcases hresult with rfl | ⟨-, rfl⟩
        · obtain ⟨hpair, rfl⟩ := Prod.mk.inj hrun
          obtain ⟨-, rfl⟩ := Prod.mk.inj hpair
          exact tends_told _ hc hs₃ htends hc₁
        · obtain ⟨hpair, rfl⟩ := Prod.mk.inj hrun
          obtain ⟨-, rfl⟩ := Prod.mk.inj hpair
          refine ⟨(tends_of_awaits hc hs₃).trans hc hc htends, ?_⟩
          intro hnone
          rw [hc₁] at hnone
          cases hnone
  · rcases hwait : (c.wait h.recorded).on s₁ with ⟨⟨waited, c₁⟩, s₂⟩
    obtain ⟨status, rfl, hc₁⟩ :=
      Child.wait_pending hattends hc ⟨hs₁.2.left, hs₁.2.ends⟩ hwait
    have htends := (Child.tends_wait (shows_life c.pid) hc hwait).1
    rw [Action.on_bind_of _ hwait] at hrun
    obtain ⟨hpair, rfl⟩ := Prod.mk.inj hrun
    obtain ⟨-, rfl⟩ := Prod.mk.inj hpair
    exact tends_told _ hc hs₁ htends hc₁

/-- Since a session, no process was made, or one was that has ended since, and
nothing was done to it after that. -/
def LeavesNone (s t : Session (Recorded σ)) : Prop :=
  t.lives = s.lives ∨ ∃ pid status touches, (∀ x ∈ touches, x = .touched pid)
    ∧ t.lives = s.lives ++ .made pid :: (touches ++ [.ended pid status])

/-- A child that is watched over and then given up has ended, once. -/
theorem guarded_lives (hr : h.Reaps o) (hc : c.status = none)
    (hp : (o c.pid).Pending s.machine.1) {result : Except Failure (Capture × Status)}
    (hrun : (Child.guarding h.recorded c (r.supervise h.recorded program)).on s = (result, t)) :
    ∃ status touches, (∀ x ∈ touches, x = .touched c.pid)
      ∧ t.lives = s.lives ++ (touches ++ [.ended c.pid status]) := by
  rcases hwatch : (r.supervise h.recorded program c).on s with ⟨⟨watched, c₁⟩, s₁⟩
  rcases hgive : (c₁.killAndReap h.recorded).on s₁ with ⟨c₂, s₂⟩
  obtain ⟨htends, hpending⟩ := supervise_tends hr hc hp hwatch
  rw [Child.guarding, Action.on_bind_of _ hwatch, Action.on_bind_of _ hgive] at hrun
  obtain ⟨-, rfl⟩ := Prod.mk.inj hrun
  cases hc₁ : c₁.status with
  | some status =>
      -- the end is known, and nothing more is done
      rw [Child.on_killAndReap (by simp [Child.isReaped, hc₁])] at hgive
      obtain ⟨-, rfl⟩ := Prod.mk.inj hgive
      obtain ⟨touches, htouches, hview⟩ := htends.view
      rw [hc₁] at hview
      exact ⟨status, touches, htouches, hview⟩
  | none =>
      obtain rfl := htends.eq_of_status_eq hc hc₁
      obtain ⟨status, rfl⟩ := Child.killAndReap_pending (hr.attends c₁.pid).recorded hc
        ⟨(hpending hc).left, (hpending hc).ends⟩ hgive
      have hgiven := htends.trans hc hc (Child.tends_killAndReap (shows_life _) hc hgive)
      obtain ⟨touches, htouches, hview⟩ := hgiven.view
      exact ⟨status, touches, htouches, hview⟩

/-- Closing the input of a program does nothing to processes, and a word about it
neither. -/
private theorem awaits_spawned (hr : h.Reaps o) (pid : Pid) (handle? : Option Handle)
    (n : Notice) (hp : (o pid).Pending s.machine.1) :
    Awaits (o pid) s.lives ((closing h.recorded handle? s).noted h.recorded n) := by
  have hclosed : Awaits (o pid) s.lives (closing h.recorded handle? s) := by
    cases handle? with
    | none => exact ⟨rfl, hp⟩
    | some handle =>
        have hagree : Agree (Same (Awaits (o pid) s.lives)) (Host.change (h.recorded.close handle))
            (Host.change (h.recorded.close handle)) :=
          agree_awaits_change rfl ((hr.undisturbed pid).close handle)
        exact hagree.keeps s ⟨rfl, hp⟩
  exact ((drained_awaits hr pid s.lives).note n).keeps _ hclosed

/-- **A process that is made is waited for to its end**, however its run goes on. -/
theorem launch_lives (hr : h.Reaps o) {argv : List Bytes} {handle? : Option Handle}
    {result : Except Failure (Capture × Status)}
    (hrun : (r.launch h.recorded program argv handle?).on s = (result, t)) :
    LeavesNone s t := by
  rcases hspawn : (Host.call (h.recorded.spawn argv handle?)).on s with ⟨answer, s₁⟩
  obtain ⟨made, hmade, hlives⟩ := view_of_spawn (f := Exchange.life?) hspawn
  cases answer with
  | error e =>
      rw [on_launch_error r program hspawn] at hrun
      obtain ⟨-, rfl⟩ := Prod.mk.inj hrun
      have hclosed : (closing h.recorded handle? s₁).lives = s₁.lives :=
        view_closing (fun _ => rfl) h handle? s₁
      have hnone : made.filterMap Exchange.life? = [] := by cases hmade <;> rfl
      rw [hnone, List.append_nil] at hlives
      exact .inl (hclosed.trans hlives)
  | ok pid =>
      rw [on_launch_ok r program hspawn] at hrun
      have hp : (o pid).Pending s₁.machine.1 := by
        have hplain := h.spawn_recorded argv handle? s.machine
        obtain ⟨hanswer, rfl⟩ := Prod.mk.inj hspawn
        have hpending := hr.spawn ((congrArg Prod.fst hplain).trans hanswer)
        rw [hplain] at hpending
        exact hpending
      have hmake : made.filterMap Exchange.life? = [.made pid] := by cases hmade; rfl
      obtain ⟨hkept, hp'⟩ := awaits_spawned hr pid handle? (.spawned program pid) hp
      obtain ⟨status, touches, htouches, hended⟩ := guarded_lives hr rfl hp' hrun
      refine .inr ⟨pid, status, touches, htouches, ?_⟩
      rw [hended, hkept, Session.lives, hlives, hmake, List.append_assoc]
      rfl

private theorem lives_openForRead {relay : Relay} {result : Except Failure Handle}
    (hopen : (relay.openForRead h.recorded).on s = (result, t)) : t.lives = s.lives :=
  view_eq_of_agree (fun seen => Agree.openForRead relay
    (keeps_recordCall _ (fun _ => rfl) seen)) hopen

/-- **A run leaves no process behind.** -/
theorem run_lives (hr : h.Reaps o) {argv : List Bytes} {input : InputSource}
    {result : Except Failure (Capture × Status)}
    (hrun : (r.run h.recorded argv input).on s = (result, t)) : LeavesNone s t := by
  cases runs_of_run hrun with
  | empty => exact .inl rfl
  | refused _ => exact .inl rfl
  | inherited _ hlaunch => exact launch_lives hr hlaunch
  | unopened _ hopen => exact .inl (lives_openForRead hopen)
  | fed _ hopen hlaunch =>
      have hlives := launch_lives hr hlaunch
      rwa [LeavesNone, lives_openForRead hopen] at hlives

end Runner

/-! ## One end for every child -/

/-- **A child is waited for once.**  Whatever is done with it until it is given up, if
the waits for it come to nothing only so often before one tells of its end, then
one end is collected: everything that comes after answers from memory, without a
wait and without a signal, and even a wait that says no more than that the deadline
has passed leaves the child with its end.  If its end is known from the start, then
nothing is done at all.  So a run of the runner, whatever it comes to, has collected
the end of the process that it has made, if it has made one. -/
theorem Child.reaped_once {h : Host σ} {c : Child} {o : Outlook σ}
    (ha : h.Attends c.pid o) (s : Session (Recorded σ)) (uses : List Use) :
    (∀ status, c.status = some status →
        (useAll h.recorded (uses ++ [Use.killAndReap]) c).on s
          = (((uses ++ [Use.killAndReap]).map (Use.recall status), c), s))
      ∧ (c.status = none → o.Pending s.machine.1 →
          c.CollectsOnce h s (uses ++ [Use.killAndReap]))
      ∧ ∀ all : Pid → Outlook σ, h.Reaps all → ∀ (r : Runner) (argv : List Bytes)
          (input : InputSource) (result : Except Failure (Capture × Status))
          (t : Session (Recorded σ)), (r.run h.recorded argv input).on s = (result, t) →
            Runner.LeavesNone s t := by
  refine ⟨?_, ?_, ?_⟩
  · intro status hc
    exact useAll_ended (ha.recorded.patience_pos _) hc
  · intro hc hp
    exact useAll_pending ha hc uses hp
  · intro all hr r argv input result t hrun
    exact Runner.run_lives hr hrun

/-! ## A process that takes its time -/

namespace Rehearsal

/-- Programs come to an end if that is laid down for them. -/
theorem reaps {script : List (Except Errno WaitReport)} {n : Nat} {status : Status}
    (hscript : promise script = some (n, .ok status)) (hn : n < 8) :
    (host script).Reaps outlook where
  attends pid := attends script pid
  undisturbed pid := undisturbed script pid
  spawn := by
    intro argv input pid m hspawn
    obtain rfl : 1 = pid := Except.ok.inj hspawn
    refine ⟨⟨n, left_eq_some_iff.mpr ⟨hn, .ok status, ?_⟩⟩, ?_⟩
    · exact (congrArg promise (answers_promising m 1 script)).trans hscript
    · rintro v ⟨k, hk⟩
      rw [show ((host script).spawn argv input m).2 = m.promising 1 script from rfl,
        answers_promising, hscript] at hk
      obtain ⟨-, rfl⟩ := Prod.mk.inj (Option.some.inj hk)
      rfl

/-- A program is interrupted, stopped and continued before it returns three. -/
def slow : List (Except Errno WaitReport) :=
  [.ok .stillAlive, .error .interrupted, .ok (.stopped .stop), .ok .continued, .ok (.exited 3)]

/-- The process of the program is there. -/
def slowly : Session (Recorded Rehearsal) :=
  Session.recording ⟨0, ⟨fun _ => slow, [], [], 0⟩⟩

end Rehearsal

open Rehearsal in
/-- The process is looked at three times, and waited for with a deadline that has
passed.  That kills it; after that it is waited for no more. -/
theorem Child.reaped_once_sample :
    ((host slow).Attends 1 (outlook 1) ∧ (outlook 1).Pending slowly.machine.1
        ∧ (host slow).Reaps outlook)
      ∧ (⟨1, "program", none⟩ : Child).CollectsOnce (host slow) slowly
          [.tryWait, .tryWait, .tryWait, .waitUntil (some 0), .wait, .killAndReap]
      ∧ ∀ result t, (Runner.run (host slow).recorded ⟨80, none⟩ [[120]] .inherited).on slowly
          = (result, t) → Runner.LeavesNone slowly t :=
  have hscript : promise slow = some (4, .ok (.exited 3)) := rfl
  have hpending : (outlook 1).Pending slowly.machine.1 :=
    ⟨⟨4, rfl⟩, by
      rintro v ⟨n, hn⟩
      obtain ⟨-, rfl⟩ := Prod.mk.inj (Option.some.inj hn)
      rfl⟩
  have hreaps := reaps hscript (by decide)
  have honce := Child.reaped_once (c := ⟨1, "program", none⟩) (attends slow 1) slowly
    [.tryWait, .tryWait, .tryWait, .waitUntil (some 0), .wait]
  ⟨⟨attends slow 1, hpending, hreaps⟩, honce.2.1 rfl hpending,
    honce.2.2 outlook hreaps ⟨80, none⟩ [[120]] .inherited⟩

end CommandExpr
