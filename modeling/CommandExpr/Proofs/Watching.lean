import CommandExpr.Child
import CommandExpr.Proofs.Computation

/-!
# How a child is watched

A child is waited for, looked at and given up by calls of the host in a certain order, whatever the
host answers.  This module says once what each of these operations can have done, given what it
came to; no later proof opens them.

An operation on a child whose end is known does nothing.  On another child it repeats calls, and
what is said is about one turn: a look that is interrupted is taken again (`lookForEnd_cases`), and
a look that sees no end is followed by a reading of the clock (`Round`).

## Main definitions

* `Child.Round` — one turn of looking and sleeping up to a deadline

## Main results

* `Child.round_of_pollUntil` — every turn is one of these.
* `Child.waitUntil_cases`, `Child.killAndReap_cases` — the operations made of others.
-/

namespace CommandExpr.Child

variable {σ : Type} {h : Host σ} {pid : Pid} {c c' : Child} {s t : Session σ}

/-! ## Children whose end is known -/

section Known

variable {status : Status}

/-- A child whose end is known is left alone. -/
theorem on_killAndReap (hc : c.isReaped = true) : (c.killAndReap h).on s = (c, s) := by
  simp only [killAndReap, hc, if_true]
  rfl

theorem on_wait_known (hc : c.status = some status) :
    (c.wait h).on s = ((.ok status, c), s) := by
  simp only [wait, hc]
  rfl

theorem on_tryWait_known (hc : c.status = some status) :
    (c.tryWait h).on s = ((.ok (some status), c), s) := by
  have hreaped : c.isReaped = true := by simp [isReaped, hc]
  simp only [tryWait, hreaped, if_true, hc]
  rfl

/-- One look is enough, whether or not the deadline has passed. -/
theorem on_waitUntil_known (hpatience : 0 < h.patience s.machine) (hc : c.status = some status)
    (deadline? : Option Instant) :
    (c.waitUntil h deadline?).on s = ((.ok status, c), s) := by
  cases deadline? with
  | none => rw [waitUntil, Action.on_bind_of _ (on_wait_known hc)]; rfl
  | some deadline =>
      obtain ⟨fuel, hfuel⟩ := Nat.exists_eq_succ_of_ne_zero (Nat.ne_of_gt hpatience)
      rw [waitUntil, Action.on_bind_of _ (Action.on_budget h s), hfuel, pollUntil,
        Action.on_bind_of _ (on_tryWait_known hc)]
      rfl

end Known

/-! ## Children whose end is not known -/

/-- A look that is interrupted is taken again; any other tells what it has seen. -/
theorem lookForEnd_cases {fuel : Nat} {result : Except Errno (Option Status)}
    (hrun : (lookForEnd h pid (fuel + 1)).on s = (result, t)) :
    ∃ answer u, (Host.call (h.wait pid true)).on s = (answer, u) ∧
      (answer = .error .interrupted ∧ (lookForEnd h pid fuel).on u = (result, t) ∨
        answer ≠ .error .interrupted ∧ result = answer.map WaitReport.status? ∧ t = u) := by
  rcases hcall : (Host.call (h.wait pid true)).on s with ⟨answer, u⟩
  refine ⟨answer, u, rfl, ?_⟩
  rw [lookForEnd, Action.on_bind_of _ hcall] at hrun
  cases answer with
  | ok report =>
      obtain ⟨rfl, rfl⟩ := Prod.mk.inj hrun
      exact .inr ⟨by rintro ⟨⟩, rfl, rfl⟩
  | error e =>
      by_cases he : e = .interrupted
      · simp only [he, if_true] at hrun
        exact .inl ⟨congrArg _ he, hrun⟩
      · simp only [he, if_false] at hrun
        obtain ⟨rfl, rfl⟩ := Prod.mk.inj hrun
        exact .inr ⟨fun heq => he (Except.error.inj heq), rfl, rfl⟩

/-- A child that is waited for remembers the answer. -/
theorem wait_cases {result : Except Errno Status} (hc : c.status = none)
    (hrun : (c.wait h).on s = ((result, c'), t)) :
    (awaitEnd h c.pid (h.patience s.machine)).on s = (result, t) ∧
      c' = { c with status := result.toOption } := by
  rcases hawait : (awaitEnd h c.pid (h.patience s.machine)).on s with ⟨answer, u⟩
  simp only [wait, hc] at hrun
  rw [Action.on_bind_of _ (Action.on_budget _ s), Action.on_bind_of _ hawait] at hrun
  cases answer <;>
    · obtain ⟨hpair, rfl⟩ := Prod.mk.inj hrun
      obtain ⟨rfl, rfl⟩ := Prod.mk.inj hpair
      simp only [Except.toOption, ← hc, ended, and_self]

/-- A child that is looked at remembers what was seen. -/
theorem tryWait_cases {result : Except Errno (Option Status)} (hc : c.status = none)
    (hrun : (c.tryWait h).on s = ((result, c'), t)) :
    (lookForEnd h c.pid (h.patience s.machine)).on s = (result, t) ∧
      c' = { c with status := result.toOption.join } := by
  have hreaped : c.isReaped = false := by simp [isReaped, hc]
  rcases hlook : (lookForEnd h c.pid (h.patience s.machine)).on s with ⟨seen, u⟩
  simp only [tryWait, hreaped, Bool.false_eq_true, if_false] at hrun
  rw [Action.on_bind_of _ (Action.on_budget _ s), Action.on_bind_of _ hlook] at hrun
  cases seen <;>
    · obtain ⟨hpair, rfl⟩ := Prod.mk.inj hrun
      obtain ⟨rfl, rfl⟩ := Prod.mk.inj hpair
      simp only [Except.toOption, Option.join_some, Option.join_none, ← hc, and_self]

/-- A child whose end is not known is sent the signal and waited for, with a word about each. -/
theorem killAndReap_cases (hc : c.status = none) (hrun : (c.killAndReap h).on s = (c', t)) :
    ∃ killed result s₁ s₂ s₃ n, (c.kill h .kill).on s = (killed, s₁)
      ∧ (s₂ = s₁ ∨ ∃ n, s₂ = s₁.noted h n) ∧ (c.wait h).on s₂ = ((result, c'), s₃)
      ∧ t = s₃.noted h n := by
  have hreaped : c.isReaped = false := by simp [isReaped, hc]
  rcases hkill : (c.kill h .kill).on s with ⟨killed, s₁⟩
  simp only [killAndReap, hreaped, Bool.false_eq_true, if_false] at hrun
  rw [Action.on_bind_of _ hkill] at hrun
  cases killed with
  | ok _ =>
      rcases hwait : (c.wait h).on s₁ with ⟨⟨result, c₁⟩, s₂⟩
      simp only at hrun
      rw [Action.on_bind_of _ hwait] at hrun
      cases result <;>
        · obtain ⟨rfl, rfl⟩ := Prod.mk.inj hrun
          exact ⟨_, _, s₁, s₁, s₂, _, rfl, .inl rfl, hwait, rfl⟩
  | error f =>
      rcases hwait : (c.wait h).on (s₁.noted h (.notKilled c.program c.pid f))
        with ⟨⟨result, c₁⟩, s₂⟩
      simp only at hrun
      rw [Action.on_bind_of _ (Action.on_note h _ s₁), Action.on_bind_of _ hwait] at hrun
      cases result <;>
        · obtain ⟨rfl, rfl⟩ := Prod.mk.inj hrun
          exact ⟨_, _, s₁, _, s₂, _, rfl, .inr ⟨_, rfl⟩, hwait, rfl⟩

/-! ## Up to a deadline -/

/-- One turn of looking and sleeping: a look, and if that has seen no end, a reading of the clock,
after which the child is given up or slept for and looked at again. -/
inductive Round (h : Host σ) (deadline : Instant) (fuel : Nat) (c : Child) (s : Session σ) :
    Except Failure Status → Child → Session σ → Prop where
  | failed {e : Errno} {c' : Child} {t : Session σ}
      (htry : (c.tryWait h).on s = ((.error e, c'), t)) :
      Round h deadline fuel c s (.error (.ofErrno e)) c' t
  | ended {status : Status} {c' : Child} {t : Session σ}
      (htry : (c.tryWait h).on s = ((.ok (some status), c'), t)) :
      Round h deadline fuel c s (.ok status) c' t
  | late {c₁ c' : Child} {s₁ s₂ t : Session σ} {now : Instant}
      (htry : (c.tryWait h).on s = ((.ok none, c₁), s₁))
      (hnow : (Host.call h.now).on s₁ = (now, s₂)) (hlate : deadline ≤ now)
      (hgive : (c₁.killAndReap h).on s₂ = (c', t)) :
      Round h deadline fuel c s (.error (.stillRunning c'.program)) c' t
  | again {c₁ c' : Child} {s₁ s₂ t : Session σ} {now : Instant} {result : Except Failure Status}
      (htry : (c.tryWait h).on s = ((.ok none, c₁), s₁))
      (hnow : (Host.call h.now).on s₁ = (now, s₂)) (hleft : now < deadline)
      (hrest : (c₁.pollUntil h deadline fuel).on
        { s₂ with machine := h.sleep (min (deadline - now) pollInterval) s₂.machine }
          = ((result, c'), t)) :
      Round h deadline fuel c s result c' t

/-- **Every turn of looking and sleeping** is one of these. -/
theorem round_of_pollUntil {deadline : Instant} {fuel : Nat} {result : Except Failure Status}
    (hrun : (c.pollUntil h deadline (fuel + 1)).on s = ((result, c'), t)) :
    Round h deadline fuel c s result c' t := by
  rcases htry : (c.tryWait h).on s with ⟨⟨tried, c₁⟩, s₁⟩
  rw [pollUntil, Action.on_bind_of _ htry] at hrun
  rcases tried with e | _ | status
  · obtain ⟨hpair, rfl⟩ := Prod.mk.inj hrun
    obtain ⟨rfl, rfl⟩ := Prod.mk.inj hpair
    exact .failed htry
  · rcases hnow : (Host.call h.now).on s₁ with ⟨now, s₂⟩
    simp only at hrun
    rw [Action.on_bind_of _ hnow] at hrun
    by_cases hleft : deadline - now = 0
    · simp only [hleft, if_true] at hrun
      rcases hgive : (c₁.killAndReap h).on s₂ with ⟨c₂, s₃⟩
      rw [Action.on_bind_of _ hgive] at hrun
      obtain ⟨hpair, rfl⟩ := Prod.mk.inj hrun
      obtain ⟨rfl, rfl⟩ := Prod.mk.inj hpair
      exact .late htry hnow (Nat.le_of_sub_eq_zero hleft) hgive
    · simp only [hleft, if_false] at hrun
      exact .again htry hnow (Nat.lt_of_sub_ne_zero hleft) hrun
  · obtain ⟨hpair, rfl⟩ := Prod.mk.inj hrun
    obtain ⟨rfl, rfl⟩ := Prod.mk.inj hpair
    exact .ended htry

/-- Without a deadline the child is waited for, and up to a deadline it is looked at in turns. -/
theorem waitUntil_cases {deadline? : Option Instant} {result : Except Failure Status}
    (hrun : (c.waitUntil h deadline?).on s = ((result, c'), t)) :
    (deadline? = none ∧ ∃ answer, (c.wait h).on s = ((answer, c'), t) ∧
        result = answer.mapError .ofErrno) ∨
      ∃ deadline, deadline? = some deadline ∧
        (c.pollUntil h deadline (h.patience s.machine)).on s = ((result, c'), t) := by
  cases deadline? with
  | none =>
      rcases hwait : (c.wait h).on s with ⟨⟨answer, c₁⟩, s₁⟩
      rw [waitUntil, Action.on_bind_of _ hwait] at hrun
      obtain ⟨hpair, rfl⟩ := Prod.mk.inj hrun
      obtain ⟨rfl, rfl⟩ := Prod.mk.inj hpair
      exact .inl ⟨rfl, answer, rfl, rfl⟩
  | some deadline =>
      rw [waitUntil, Action.on_bind_of _ (Action.on_budget _ s)] at hrun
      exact .inr ⟨deadline, rfl, hrun⟩

end CommandExpr.Child
