import CommandExpr.Relay

/-!
# How computations come out

Actions and attempts are functions on sessions behind two monads.  This
module names their value on a session, and says once what each way of
building a computation does to it, so that no later proof unfolds a monad.

An attempt is taken apart by cases on its first half: `Attempt.on_bind_ok`
goes on after a success, `Attempt.on_bind_error` stops at a failure.
-/

namespace CommandExpr

variable {σ α β : Type}

/-- What an action returns when it starts in a session, and the session that
it leaves. -/
def Action.on (x : Action σ α) (s : Session σ) : α × Session σ := x s

/-- What an attempt comes to when it starts in a session, and the session
that it leaves. -/
def Attempt.on (x : Attempt σ α) (s : Session σ) :
    Except Failure α × Session σ := x s

namespace Action

theorem on_pure (a : α) (s : Session σ) : (pure a : Action σ α).on s = (a, s) :=
  rfl

theorem on_bind (x : Action σ α) (f : α → Action σ β) (s : Session σ) :
    (x >>= f).on s = (f (x.on s).1).on (x.on s).2 := rfl

/-- A bind whose first half is known. -/
theorem on_bind_of {x : Action σ α} {s s' : Session σ} {a : α}
    (f : α → Action σ β) (hx : x.on s = (a, s')) :
    (x >>= f).on s = (f a).on s' := by
  rw [on_bind, hx]

theorem on_call (f : σ → α × σ) (s : Session σ) :
    (Host.call f).on s = ((f s.machine).1, { s with machine := (f s.machine).2 }) :=
  rfl

theorem on_change (f : σ → σ) (s : Session σ) :
    (Host.change f).on s = ((), { s with machine := f s.machine }) := rfl

theorem on_budget (h : Host σ) (s : Session σ) :
    h.budget.on s = (h.patience s.machine, s) := rfl

end Action

/-- The session after a message was logged. -/
def Session.noted (s : Session σ) (h : Host σ) (n : Notice) : Session σ :=
  { s with machine := h.tell (.notice n) s.machine }

theorem Action.on_note (h : Host σ) (n : Notice) (s : Session σ) :
    (h.note n).on s = ((), s.noted h n) := rfl

namespace Attempt

theorem on_throw (f : Failure) (s : Session σ) :
    (throw f : Attempt σ α).on s = (.error f, s) := rfl

/-- After a success the rest starts in the session that was left. -/
theorem on_bind_ok {x : Attempt σ α} {s s' : Session σ} {a : α}
    (f : α → Attempt σ β) (hx : x.on s = (.ok a, s')) :
    (x >>= f).on s = (f a).on s' := by
  simp only [Attempt.on] at *
  simp only [bind, ExceptT.bind, ExceptT.mk, StateT.bind]
  rw [hx]
  rfl

/-- After a failure the rest is never begun. -/
theorem on_bind_error {x : Attempt σ α} {s s' : Session σ} {e : Failure}
    (f : α → Attempt σ β) (hx : x.on s = (.error e, s')) :
    (x >>= f).on s = (.error e, s') := by
  simp only [Attempt.on] at *
  simp only [bind, ExceptT.bind, ExceptT.mk, StateT.bind]
  rw [hx]
  rfl

theorem on_lift (x : Action σ α) (s : Session σ) :
    Attempt.on (ExceptT.lift x) s = (.ok (x.on s).1, (x.on s).2) := rfl

theorem on_except (x : Except Failure α) (s : Session σ) :
    (liftM x : Attempt σ α).on s = (x, s) := by
  cases x <;> rfl

theorem on_settle (x : Action σ (Except Failure α)) (s : Session σ) :
    (Host.settle x).on s = x.on s := rfl

theorem on_run (x : Attempt σ α) (s : Session σ) :
    Action.on x.run s = x.on s := rfl

theorem on_ask (f : σ → α × σ) (s : Session σ) :
    (Host.ask f).on s
      = (.ok (f s.machine).1, { s with machine := (f s.machine).2 }) := rfl

/-- A notice within an attempt: the rest starts after it. -/
theorem on_note_bind (h : Host σ) (n : Notice) (f : Unit → Attempt σ β)
    (s : Session σ) :
    ((liftM (h.note n) : Attempt σ Unit) >>= f).on s
      = (f ()).on (s.noted h n) := rfl

end Attempt

/-! ## Calls on a path -/

section OnPath

variable {path : Path} {f : Path → σ → Except Errno α × σ}
  {s t : Session σ}

/-- A path with a NUL byte is refused before the host sees it. -/
theorem on_onPath_refused (f : Path → σ → Except Errno α × σ) (s : Session σ)
    (hnul : path.bytes.hasNul = true) :
    (Relay.onPath path f).on s = (.error .nulInPath, s) := by
  simp only [Relay.onPath, hnul, if_true, Action.on_pure]

theorem on_onPath (hnul : path.bytes.hasNul = false) :
    (Relay.onPath path f).on s
      = (((f path s.machine).1.mapError .ofErrno),
          { s with machine := (f path s.machine).2 }) := by
  simp only [Relay.onPath, hnul]
  rw [if_neg (by decide), Action.on_bind_of _ (Action.on_call (f path) s)]
  cases (f path s.machine).1 <;> rfl

/-- No number is taken by a call on a path. -/
theorem nextRelay_of_onPath {answer : Except IoError α}
    (hcall : (Relay.onPath path f).on s = (answer, t)) : t.nextRelay = s.nextRelay := by
  cases hnul : path.bytes.hasNul with
  | true =>
      rw [on_onPath_refused f s hnul] at hcall
      rw [← (Prod.mk.inj hcall).2]
  | false =>
      rw [on_onPath hnul] at hcall
      rw [← (Prod.mk.inj hcall).2]

/-- A call that was made has no NUL byte in its path. -/
theorem of_onPath_ok {a : α} (hcall : (Relay.onPath path f).on s = (.ok a, t)) :
    path.bytes.hasNul = false ∧ f path s.machine = (.ok a, t.machine) := by
  cases hnul : path.bytes.hasNul with
  | true =>
      rw [on_onPath_refused f s hnul] at hcall
      cases congrArg Prod.fst hcall
  | false =>
      rw [on_onPath hnul] at hcall
      rcases hf : f path s.machine with ⟨answer, m⟩
      rw [hf] at hcall
      obtain ⟨hresult, rfl⟩ := Prod.mk.inj hcall
      cases answer with
      | error e =>
          change Except.error (IoError.ofErrno e) = .ok a at hresult
          cases hresult
      | ok b =>
          obtain rfl : b = a := Except.ok.inj hresult
          exact ⟨rfl, rfl⟩

/-- A call that failed may not have been made at all. -/
theorem of_onPath_error {e : IoError}
    (hcall : (Relay.onPath path f).on s = (.error e, t)) :
    t.machine = s.machine ∨
      ∃ errno, f path s.machine = (.error errno, t.machine) := by
  cases hnul : path.bytes.hasNul with
  | true =>
      rw [on_onPath_refused f s hnul] at hcall
      exact Or.inl (congrArg (·.2.machine) hcall).symm
  | false =>
      rw [on_onPath hnul] at hcall
      rcases hf : f path s.machine with ⟨answer, m⟩
      rw [hf] at hcall
      obtain ⟨hresult, rfl⟩ := Prod.mk.inj hcall
      cases answer with
      | error errno => exact Or.inr ⟨errno, rfl⟩
      | ok b =>
          change Except.ok b = .error e at hresult
          cases hresult

end OnPath

end CommandExpr
