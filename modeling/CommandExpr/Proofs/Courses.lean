import CommandExpr.Proofs.Derivation

/-!
# An evaluation, cut after its left side

A `Course` is an evaluation with its steps, whether it returns or fails.  That
of two sides is that of the left one, and then what `Follows` for the operator
and for what the left side came to.  What follows depends on the left side only
through the bytes that a pipe hands on, through what the operator does with its
output, and through the places: so courses can be cut there and put together
again.

## Main results

* `dispatch_eq_iff` — an evaluation comes to a result just when there is a
  course to it.
* `course_binary_iff` — a course ends with the left side, or goes on after it.
-/

namespace CommandExpr

variable {σ : Type}

namespace Evaluator

section Definitions

variable (h : Host σ) (relays : RelayStore) (r : Runner)

/-- The evaluation of a composition that stands after `n` commands, with an
input and from a session, makes the steps, comes to the result and leaves the
last session. -/
inductive Course (n : Nat) (e : Expression) (input : InputSource) (s : Session σ)
    (steps : List (Step σ)) : Except Failure Capture → Session σ → Prop where
  | completes {output : Capture} {t : Session σ}
      (he : Completes h relays r n e input s steps output t) :
      Course n e input s steps (.ok output) t
  | fails {f : Failure} {t : Session σ}
      (he : Fails h relays r n e input s steps f t) :
      Course n e input s steps (.error f) t

/-- What happens with an operator after its left side has come to an output: the
steps, the result of both sides together, and the last session. -/
inductive Follows : Operator → Pipe → Capture → Session σ → List (Step σ) →
    Except Failure Capture → Session σ → Prop where
  /-- The right side is evaluated. -/
  | joined {op : Operator} {p : Pipe} {first : Capture} {s t : Session σ}
      {steps : List (Step σ)} {result : Except Failure Capture} (hop : op ≠ .pipe)
      (hr : Course h relays r p.middle p.right .inherited s steps result t) :
      Follows op p first s steps (result.map (op.join first)) t
  /-- There is no relay. -/
  | uncreated {p : Pipe} {upstream : Capture} {s t : Session σ} {f : Failure}
      (hcreate : (Relay.create h relays).on s = (.error f, t)) :
      Follows .pipe p upstream s [⟨s, .create p (.error f), t⟩] (.error f) t
  /-- The relay cannot be written. -/
  | unwritten {p : Pipe} {upstream : Capture} {s s₁ s₂ t : Session σ} {relay : Relay}
      {f : Failure}
      (hcreate : (Relay.create h relays).on s = (.ok relay, s₁))
      (hwrite : (relay.write h upstream).on s₁ = (.error f, s₂))
      (hdrop : (relay.drop h).on s₂ = ((), t)) :
      Follows .pipe p upstream s
        [⟨s, .create p (.ok relay), s₁⟩,
          ⟨s₁, .write p relay upstream (.error f), s₂⟩, ⟨s₂, .drop p relay, t⟩]
        (.error f) t
  /-- The right side fails, and the relay is given up. -/
  | downstream {p : Pipe} {upstream : Capture} {s s₁ s₂ s₃ t : Session σ}
      {steps : List (Step σ)} {relay : Relay} {f : Failure}
      (hcreate : (Relay.create h relays).on s = (.ok relay, s₁))
      (hwrite : (relay.write h upstream).on s₁ = (.ok (), s₂))
      (hr : Course h relays r p.middle p.right (.relay relay)
        (s₂.noted h (feedNotice relay p.right)) steps (.error f) s₃)
      (hdrop : (relay.drop h).on s₃ = ((), t)) :
      Follows .pipe p upstream s
        (handOver h p s s₁ s₂ relay upstream ++ (steps ++ [⟨s₃, .drop p relay, t⟩]))
        (.error f) t
  /-- The right side returns, and the relay is given back or cannot be. -/
  | released {p : Pipe} {upstream output : Capture} {s s₁ s₂ s₃ t : Session σ}
      {steps : List (Step σ)} {relay : Relay} {released : Except Failure Unit}
      (hcreate : (Relay.create h relays).on s = (.ok relay, s₁))
      (hwrite : (relay.write h upstream).on s₁ = (.ok (), s₂))
      (hr : Course h relays r p.middle p.right (.relay relay)
        (s₂.noted h (feedNotice relay p.right)) steps (.ok output) s₃)
      (hrelease : (relay.release h).on s₃ = (released, t)) :
      Follows .pipe p upstream s
        (handOver h p s s₁ s₂ relay upstream
          ++ (steps ++ [⟨s₃, .release p relay released, t⟩]))
        (released.map fun _ => Operator.pipe.join upstream output) t

end Definitions

variable {h : Host σ} {relays : RelayStore} {r : Runner} {n : Nat}
  {input : InputSource} {s t : Session σ} {steps : List (Step σ)}
  {result : Except Failure Capture}

theorem course_ok_iff {e : Expression} {output : Capture} :
    Course h relays r n e input s steps (.ok output) t ↔
      Completes h relays r n e input s steps output t :=
  ⟨fun hc => by cases hc; assumption, .completes⟩

theorem course_error_iff {e : Expression} {f : Failure} :
    Course h relays r n e input s steps (.error f) t ↔
      Fails h relays r n e input s steps f t :=
  ⟨fun hc => by cases hc; assumption, .fails⟩

/-- **An evaluation comes to a result just when there is a course to it.** -/
theorem dispatch_eq_iff (n : Nat) {e : Expression} :
    (dispatch h relays r e input).on s = (result, t) ↔
      ∃ steps, Course h relays r n e input s steps result t := by
  cases result with
  | ok output => simp only [dispatch_eq_ok_iff n, course_ok_iff]
  | error f => simp only [dispatch_eq_error_iff n, course_error_iff]

/-- Once the left side has returned, the evaluation goes on as it follows. -/
theorem Follows.course {op : Operator} {left right : Expression} {first : Capture}
    {tl tr : List (Step σ)} {u : Session σ}
    (hf : Follows h relays r op ⟨left, right, n⟩ first t tr result u)
    (hl : Completes h relays r n left input s tl first t) :
    Course h relays r n (.binary op left right) input s (tl ++ tr) result u := by
  cases hf with
  | joined hop hr =>
      cases hr with
      | completes hr => exact .completes (.joined hop hl hr)
      | fails hr => exact .fails (.right hop hl hr)
  | uncreated hcreate => exact .fails (.uncreated hl hcreate)
  | unwritten hcreate hwrite hdrop => exact .fails (.unwritten hl hcreate hwrite hdrop)
  | downstream hcreate hwrite hr hdrop =>
      exact .fails (.downstream hl hcreate hwrite (course_error_iff.mp hr) hdrop)
  | @released _ _ _ _ _ _ _ _ _ _ released hcreate hwrite hr hrelease =>
      cases released with
      | ok _ => exact .completes (.piped hl hcreate hwrite (course_ok_iff.mp hr) hrelease)
      | error f =>
          exact .fails (.unreleased hl hcreate hwrite (course_ok_iff.mp hr) hrelease)

/-- **A course ends with the failure of the left side, or goes on after its
output.** -/
theorem course_binary_iff {op : Operator} {left right : Expression} {u : Session σ} :
    Course h relays r n (.binary op left right) input s steps result u ↔
      (∃ f, Fails h relays r n left input s steps f u ∧ result = .error f) ∨
        ∃ tl first t tr, Completes h relays r n left input s tl first t ∧
          Follows h relays r op ⟨left, right, n⟩ first t tr result u ∧
            steps = tl ++ tr := by
  constructor
  · rintro (he | he)
    · cases he with
      | joined hop hl hr =>
          exact Or.inr ⟨_, _, _, _, hl, .joined hop (.completes hr), rfl⟩
      | piped hl hcreate hwrite hr hrelease =>
          exact Or.inr ⟨_, _, _, _, hl,
            .released hcreate hwrite (.completes hr) hrelease, rfl⟩
    · cases he with
      | left hl => exact Or.inl ⟨_, hl, rfl⟩
      | right hop hl hr =>
          exact Or.inr ⟨_, _, _, _, hl, .joined hop (.fails hr), rfl⟩
      | uncreated hl hcreate =>
          exact Or.inr ⟨_, _, _, _, hl, .uncreated hcreate, rfl⟩
      | unwritten hl hcreate hwrite hdrop =>
          exact Or.inr ⟨_, _, _, _, hl, .unwritten hcreate hwrite hdrop, rfl⟩
      | downstream hl hcreate hwrite hr hdrop =>
          exact Or.inr ⟨_, _, _, _, hl,
            .downstream hcreate hwrite (.fails hr) hdrop, rfl⟩
      | unreleased hl hcreate hwrite hr hrelease =>
          exact Or.inr ⟨_, _, _, _, hl,
            .released hcreate hwrite (.completes hr) hrelease, rfl⟩
  · rintro (⟨f, hl, rfl⟩ | ⟨tl, first, t, tr, hl, hf, rfl⟩)
    · exact .fails (.left hl)
    · exact hf.course hl

end Evaluator

end CommandExpr
