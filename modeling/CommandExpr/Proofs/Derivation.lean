import CommandExpr.Evaluator
import CommandExpr.Proofs.Computation
import CommandExpr.Proofs.Places

/-!
# Evaluations, step by step

`Evaluator.dispatch` returns what an evaluation comes to; this module says
what happens on the way.  `Completes` and `Fails` derive an evaluation from
the evaluations of its parts and collect its **steps**: every command that is
prepared, every call of the runner, everything done with a relay, and every
notice of the evaluator itself.  A call says for the command at which place it
is made, and what is done with a relay says for which pipe; places are counted
from the number of commands that stand before the composition.

Nothing is left out of the steps: each one starts in the session that the one
before it left, and together they lead from the session in which the
evaluation starts to the one in which it ends (`Completes.linked`,
`Fails.linked`).

## Main results

* `dispatch_eq_ok_iff`, `dispatch_eq_error_iff` — an evaluation returns an
  output, or a failure, just when it can be derived that it does.
-/

namespace CommandExpr

/-! ## Steps -/

/-- Something that an evaluation does, and what it comes to. -/
inductive Event where
  /-- A command's argument vector is built. -/
  | prepare (command : Command) (result : Except Failure (List Bytes))
  /-- Something is logged. -/
  | note (notice : Notice)
  /-- The runner is called for the command at a place. -/
  | call (place : Nat) (command : Command) (argv : List Bytes)
      (input : InputSource) (result : Except Failure (Capture × Status))
  /-- A relay is made for a pipe. -/
  | create (pipe : Pipe) (result : Except Failure Relay)
  /-- The output of a pipe's left side goes into its relay. -/
  | write (pipe : Pipe) (relay : Relay) (output : Capture)
      (result : Except Failure Unit)
  /-- The relay of a pipe is given back after its use. -/
  | release (pipe : Pipe) (relay : Relay) (result : Except Failure Unit)
  /-- The relay of a pipe is given up. -/
  | drop (pipe : Pipe) (relay : Relay)

/-- An event between two sessions. -/
structure Step (σ : Type) where
  /-- The session in which it starts. -/
  before : Session σ
  /-- What is done. -/
  event : Event
  /-- The session that it leaves. -/
  after : Session σ

variable {σ : Type}

/-- Does an event lead from one session to the other? -/
def Event.Leads (h : Host σ) (relays : RelayStore) (r : Runner) :
    Event → Session σ → Session σ → Prop
  | prepare c result, s, t => Argv.ofCommand c = result ∧ t = s
  | note n, s, t => t = s.noted h n
  | call _ _ argv input result, s, t =>
      (r.run h argv input).on s = (result, t)
  | create _ result, s, t => (Relay.create h relays).on s = (result, t)
  | write _ relay output result, s, t =>
      (relay.write h output).on s = (result, t)
  | release _ relay result, s, t => (relay.release h).on s = (result, t)
  | drop _ relay, s, t => (relay.drop h).on s = ((), t)

/-- The steps lead from one session to the other, each of them from where the
one before it ended. -/
def Linked (h : Host σ) (relays : RelayStore) (r : Runner) :
    Session σ → List (Step σ) → Session σ → Prop
  | s, [], t => s = t
  | s, step :: rest, t =>
      step.before = s ∧ step.event.Leads h relays r s step.after
        ∧ Linked h relays r step.after rest t

section Linked

variable {h : Host σ} {relays : RelayStore} {r : Runner}

theorem Linked.append {s t u : Session σ} {a b : List (Step σ)}
    (ha : Linked h relays r s a t) (hb : Linked h relays r t b u) :
    Linked h relays r s (a ++ b) u := by
  induction a generalizing s with
  | nil =>
      have hst : s = t := ha
      rw [hst]
      exact hb
  | cons step rest ih =>
      obtain ⟨hbefore, hleads, hrest⟩ := ha
      exact ⟨hbefore, hleads, ih hrest⟩

/-- One step more at the end. -/
theorem Linked.snoc {s t u : Session σ} {a : List (Step σ)} {event : Event}
    (ha : Linked h relays r s a t) (he : event.Leads h relays r t u) :
    Linked h relays r s (a ++ [⟨t, event, u⟩]) u :=
  ha.append ⟨rfl, he, rfl⟩

/-- Every step of a linked list is made as it says. -/
theorem Linked.leads {s t : Session σ} {a : List (Step σ)}
    (ha : Linked h relays r s a t) {step : Step σ} (hstep : step ∈ a) :
    step.event.Leads h relays r step.before step.after := by
  induction a generalizing s with
  | nil => cases hstep
  | cons first rest ih =>
      obtain ⟨hbefore, hleads, hrest⟩ := ha
      rcases List.mem_cons.mp hstep with rfl | hstep
      · rw [hbefore]
        exact hleads
      · exact ih hrest hstep

end Linked

/-! ## What the operators make of two outputs -/

/-- The output of two sides, of which the right one ran last. -/
def Operator.join : Operator → Capture → Capture → Capture
  | concat, left, right => left.concat right
  | sequence, left, right => right.prependFaults left.faults
  | pipe, left, right => right.prependFaults left.faults

namespace Operator

/-- No operator drops a fault, … -/
theorem faults_join (op : Operator) (first second : Capture) :
    (op.join first second).faults = first.faults ++ second.faults := by
  cases op <;> rfl

/-- … and the status is that of the right side. -/
theorem status_join (op : Operator) (first second : Capture) :
    (op.join first second).status = second.status := by
  cases op <;> rfl

end Operator

namespace Evaluator

/-! ## Derivations -/

/-- The steps up to the runner's answer for the command at place `n`. -/
def callSteps (h : Host σ) (n : Nat) (s : Session σ) (c : Command)
    (argv : List Bytes) (input : InputSource)
    (result : Except Failure (Capture × Status)) (t : Session σ) :
    List (Step σ) :=
  [⟨s, .prepare c (.ok argv), s⟩,
    ⟨s, .note (.argv argv), s.noted h (.argv argv)⟩,
    ⟨s.noted h (.argv argv), .call n c argv input result, t⟩]

/-- The notice that a relay has its reader. -/
def feedNotice (relay : Relay) (right : Expression) : Notice :=
  .relayFeeds relay.path.display right.leftmost.path

/-- The steps between the two sides of a pipe. -/
def handOver (h : Host σ) (p : Pipe) (t t₁ t₂ : Session σ) (relay : Relay)
    (upstream : Capture) : List (Step σ) :=
  [⟨t, .create p (.ok relay), t₁⟩, ⟨t₁, .write p relay upstream (.ok ()), t₂⟩,
    ⟨t₂, .note (feedNotice relay p.right),
      t₂.noted h (feedNotice relay p.right)⟩]

variable (h : Host σ) (relays : RelayStore) (r : Runner)

/-- The evaluation of a composition that stands after `n` commands, with an
input and from a session, makes the steps, returns the output and leaves the
last session. -/
inductive Completes : Nat → Expression → InputSource → Session σ →
    List (Step σ) → Capture → Session σ → Prop where
  /-- A program ran to its end. -/
  | ran {n : Nat} {c : Command} {input : InputSource} {s t : Session σ}
      {argv : List Bytes} {output : Capture} {status : Status}
      (hargv : Argv.ofCommand c = .ok argv)
      (hrun : (r.run h argv input).on (s.noted h (.argv argv))
        = (.ok (output, status), t)) :
      Completes n (.simple c) input s
        (callSteps h n s c argv input (.ok (output, status)) t)
        (outcome c.path output status) t
  /-- A program could not be started. -/
  | skipped {n : Nat} {c : Command} {input : InputSource} {s t : Session σ}
      {argv : List Bytes} {f : Failure}
      (hargv : Argv.ofCommand c = .ok argv)
      (hrun : (r.run h argv input).on (s.noted h (.argv argv)) = (.error f, t))
      (hf : f.isFatal = false) :
      Completes n (.simple c) input s
        (callSteps h n s c argv input (.error f) t
          ++ [⟨t, .note (.skipped f), t.noted h (.skipped f)⟩])
        (absent c.path r.cap (spawnErrno f)) (t.noted h (.skipped f))
  /-- Two sides ran one after the other. -/
  | joined {n : Nat} {op : Operator} {left right : Expression}
      {input : InputSource} {s t u : Session σ} {tl tr : List (Step σ)}
      {first second : Capture} (hop : op ≠ .pipe)
      (hl : Completes n left input s tl first t)
      (hr : Completes (n + left.size) right .inherited t tr second u) :
      Completes n (.binary op left right) input s (tl ++ tr)
        (op.join first second) u
  /-- The right side ran on the output of the left one. -/
  | piped {n : Nat} {left right : Expression} {input : InputSource}
      {s t t₁ t₂ t₃ u : Session σ} {tl tr : List (Step σ)}
      {upstream output : Capture} {relay : Relay}
      (hl : Completes n left input s tl upstream t)
      (hcreate : (Relay.create h relays).on t = (.ok relay, t₁))
      (hwrite : (relay.write h upstream).on t₁ = (.ok (), t₂))
      (hr : Completes (n + left.size) right (.relay relay)
        (t₂.noted h (feedNotice relay right)) tr output t₃)
      (hrelease : (relay.release h).on t₃ = (.ok (), u)) :
      Completes n (.binary .pipe left right) input s
        (tl ++ (handOver h ⟨left, right, n⟩ t t₁ t₂ relay upstream
          ++ (tr ++ [⟨t₃, .release ⟨left, right, n⟩ relay (.ok ()), u⟩])))
        (Operator.pipe.join upstream output) u

/-- The evaluation of a composition that stands after `n` commands, with an
input and from a session, makes the steps, ends with the failure and leaves
the last session. -/
inductive Fails : Nat → Expression → InputSource → Session σ →
    List (Step σ) → Failure → Session σ → Prop where
  /-- An argument is of no known kind. -/
  | unprepared {n : Nat} {c : Command} {input : InputSource} {s : Session σ}
      {f : Failure} (hargv : Argv.ofCommand c = .error f) :
      Fails n (.simple c) input s [⟨s, .prepare c (.error f), s⟩] f s
  /-- The runner gave up. -/
  | aborted {n : Nat} {c : Command} {input : InputSource} {s t : Session σ}
      {argv : List Bytes} {f : Failure}
      (hargv : Argv.ofCommand c = .ok argv)
      (hrun : (r.run h argv input).on (s.noted h (.argv argv)) = (.error f, t))
      (hf : f.isFatal = true) :
      Fails n (.simple c) input s (callSteps h n s c argv input (.error f) t) f t
  /-- The left side failed. -/
  | left {n : Nat} {op : Operator} {left right : Expression}
      {input : InputSource} {s t : Session σ} {tl : List (Step σ)} {f : Failure}
      (hl : Fails n left input s tl f t) :
      Fails n (.binary op left right) input s tl f t
  /-- The right side failed. -/
  | right {n : Nat} {op : Operator} {left right : Expression}
      {input : InputSource} {s t u : Session σ} {tl tr : List (Step σ)}
      {first : Capture} {f : Failure} (hop : op ≠ .pipe)
      (hl : Completes h relays r n left input s tl first t)
      (hr : Fails (n + left.size) right .inherited t tr f u) :
      Fails n (.binary op left right) input s (tl ++ tr) f u
  /-- There is no relay for the output of the left side. -/
  | uncreated {n : Nat} {left right : Expression} {input : InputSource}
      {s t u : Session σ} {tl : List (Step σ)} {upstream : Capture} {f : Failure}
      (hl : Completes h relays r n left input s tl upstream t)
      (hcreate : (Relay.create h relays).on t = (.error f, u)) :
      Fails n (.binary .pipe left right) input s
        (tl ++ [⟨t, .create ⟨left, right, n⟩ (.error f), u⟩]) f u
  /-- The output of the left side did not go into its relay. -/
  | unwritten {n : Nat} {left right : Expression} {input : InputSource}
      {s t t₁ t₂ u : Session σ} {tl : List (Step σ)} {upstream : Capture}
      {relay : Relay} {f : Failure}
      (hl : Completes h relays r n left input s tl upstream t)
      (hcreate : (Relay.create h relays).on t = (.ok relay, t₁))
      (hwrite : (relay.write h upstream).on t₁ = (.error f, t₂))
      (hdrop : (relay.drop h).on t₂ = ((), u)) :
      Fails n (.binary .pipe left right) input s
        (tl ++ [⟨t, .create ⟨left, right, n⟩ (.ok relay), t₁⟩,
          ⟨t₁, .write ⟨left, right, n⟩ relay upstream (.error f), t₂⟩,
          ⟨t₂, .drop ⟨left, right, n⟩ relay, u⟩]) f u
  /-- The right side of a pipe failed. -/
  | downstream {n : Nat} {left right : Expression} {input : InputSource}
      {s t t₁ t₂ t₃ u : Session σ} {tl tr : List (Step σ)} {upstream : Capture}
      {relay : Relay} {f : Failure}
      (hl : Completes h relays r n left input s tl upstream t)
      (hcreate : (Relay.create h relays).on t = (.ok relay, t₁))
      (hwrite : (relay.write h upstream).on t₁ = (.ok (), t₂))
      (hr : Fails (n + left.size) right (.relay relay)
        (t₂.noted h (feedNotice relay right)) tr f t₃)
      (hdrop : (relay.drop h).on t₃ = ((), u)) :
      Fails n (.binary .pipe left right) input s
        (tl ++ (handOver h ⟨left, right, n⟩ t t₁ t₂ relay upstream
          ++ (tr ++ [⟨t₃, .drop ⟨left, right, n⟩ relay, u⟩]))) f u
  /-- A relay could not be given back. -/
  | unreleased {n : Nat} {left right : Expression} {input : InputSource}
      {s t t₁ t₂ t₃ u : Session σ} {tl tr : List (Step σ)}
      {upstream output : Capture} {relay : Relay} {f : Failure}
      (hl : Completes h relays r n left input s tl upstream t)
      (hcreate : (Relay.create h relays).on t = (.ok relay, t₁))
      (hwrite : (relay.write h upstream).on t₁ = (.ok (), t₂))
      (hr : Completes h relays r (n + left.size) right (.relay relay)
        (t₂.noted h (feedNotice relay right)) tr output t₃)
      (hrelease : (relay.release h).on t₃ = (.error f, u)) :
      Fails n (.binary .pipe left right) input s
        (tl ++ (handOver h ⟨left, right, n⟩ t t₁ t₂ relay upstream
          ++ (tr ++ [⟨t₃, .release ⟨left, right, n⟩ relay (.error f), u⟩]))) f u

/-! ## Derivations and results -/

section Adequacy

variable {h : Host σ} {relays : RelayStore} {r : Runner}

theorem on_runCommand_unprepared {c : Command} {f : Failure}
    (input : InputSource) (s : Session σ) (hargv : Argv.ofCommand c = .error f) :
    (runCommand h r c input).on s = (.error f, s) := by
  rw [runCommand, hargv]
  exact Attempt.on_bind_error _ (Attempt.on_except _ s)

theorem on_runCommand {c : Command} {argv : List Bytes}
    {input : InputSource} {s t : Session σ}
    {result : Except Failure (Capture × Status)}
    (hargv : Argv.ofCommand c = .ok argv)
    (hrun : (r.run h argv input).on (s.noted h (.argv argv)) = (result, t)) :
    (runCommand h r c input).on s =
      match result with
      | .ok (output, status) => (.ok (outcome c.path output status), t)
      | .error f =>
          if f.isFatal then (.error f, t)
          else (.ok (absent c.path r.cap (spawnErrno f)),
            t.noted h (.skipped f)) := by
  have hlift : Attempt.on (ExceptT.lift (r.run h argv input).run)
      (s.noted h (.argv argv)) = (.ok result, t) := by
    rw [Attempt.on_lift, Attempt.on_run, hrun]
  rw [runCommand, hargv, Attempt.on_bind_ok _ (Attempt.on_except _ s),
    Attempt.on_note_bind, Attempt.on_bind_ok _ hlift]
  cases result with
  | ok p => rfl
  | error f =>
      by_cases hf : f.isFatal = true
      · simp only [hf, if_true]
        rfl
      · simp only [hf]
        rfl

/-- The part of a pipe's evaluation that has its relay at hand. -/
private def feeding (h : Host σ) (relays : RelayStore) (r : Runner)
    (relay : Relay) (upstream : Capture) (right : Expression) :
    Attempt σ Capture := do
  relay.write h upstream
  h.note (feedNotice relay right)
  dispatch h relays r right (.relay relay)

private theorem dispatch_pipe (left right : Expression) (input : InputSource) :
    dispatch h relays r (.binary .pipe left right) input = (do
      let upstream ← dispatch h relays r left input
      let relay ← Relay.create h relays
      let output ← relay.holding h (feeding h relays r relay upstream right)
      relay.release h
      return output.prependFaults upstream.faults) := by
  rw [dispatch]
  rfl

private theorem on_feeding {relay : Relay} {upstream : Capture}
    {s t : Session σ} (right : Expression)
    (hwrite : (relay.write h upstream).on s = (.ok (), t)) :
    (feeding h relays r relay upstream right).on s
      = (dispatch h relays r right (.relay relay)).on
          (t.noted h (feedNotice relay right)) := by
  rw [feeding, Attempt.on_bind_ok _ hwrite, Attempt.on_note_bind]

private theorem on_feeding_unwritten {relay : Relay} {upstream : Capture}
    {s t : Session σ} {f : Failure} (right : Expression)
    (hwrite : (relay.write h upstream).on s = (.error f, t)) :
    (feeding h relays r relay upstream right).on s = (.error f, t) := by
  rw [feeding, Attempt.on_bind_error _ hwrite]

/-- A relay that is held is given up if the work on it fails. -/
private theorem on_holding {α : Type} {relay : Relay} {body : Attempt σ α}
    {s t : Session σ} {result : Except Failure α}
    (hbody : body.on s = (result, t)) :
    (relay.holding h body).on s =
      match result with
      | .ok a => (.ok a, t)
      | .error f => (.error f, ((relay.drop h).on t).2) := by
  rw [Relay.holding, Attempt.on_settle]
  rw [← Attempt.on_run] at hbody
  rw [Action.on_bind_of _ hbody]
  cases result with
  | ok a => rfl
  | error f => rfl

/-- What an evaluation derives, it returns. -/
theorem Completes.dispatch_eq {n : Nat} {e : Expression} {input : InputSource}
    {s t : Session σ} {steps : List (Step σ)} {output : Capture}
    (he : Completes h relays r n e input s steps output t) :
    (dispatch h relays r e input).on s = (.ok output, t) := by
  induction he with
  | ran hargv hrun =>
      rw [dispatch, on_runCommand hargv hrun]
  | skipped hargv hrun hf =>
      rw [dispatch, on_runCommand hargv hrun]
      simp only [hf]
      rfl
  | @joined _ op _ _ _ _ _ _ _ _ _ _ hop _ _ ihl ihr =>
      cases op with
      | concat =>
          rw [dispatch, Attempt.on_bind_ok _ ihl, Attempt.on_bind_ok _ ihr]
          rfl
      | sequence =>
          rw [dispatch, Attempt.on_bind_ok _ ihl, Attempt.on_bind_ok _ ihr]
          rfl
      | pipe => exact absurd rfl hop
  | piped _ hcreate hwrite _ hrelease ihl ihr =>
      have hfed := (on_feeding _ hwrite).trans ihr
      rw [dispatch_pipe, Attempt.on_bind_ok _ ihl, Attempt.on_bind_ok _ hcreate,
        Attempt.on_bind_ok _ (on_holding hfed), Attempt.on_bind_ok _ hrelease]
      rfl

/-- The failure that an evaluation derives is the one with which it ends. -/
theorem Fails.dispatch_eq {n : Nat} {e : Expression} {input : InputSource}
    {s t : Session σ} {steps : List (Step σ)} {f : Failure}
    (he : Fails h relays r n e input s steps f t) :
    (dispatch h relays r e input).on s = (.error f, t) := by
  induction he with
  | unprepared hargv =>
      rw [dispatch, on_runCommand_unprepared _ _ hargv]
  | aborted hargv hrun hf =>
      rw [dispatch, on_runCommand hargv hrun]
      simp only [hf, if_true]
  | @left _ op _ _ _ _ _ _ _ _ ihl =>
      cases op <;> rw [dispatch, Attempt.on_bind_error _ ihl]
  | @right _ op _ _ _ _ _ _ _ _ _ _ hop hl _ ihr =>
      cases op with
      | concat =>
          rw [dispatch, Attempt.on_bind_ok _ hl.dispatch_eq,
            Attempt.on_bind_error _ ihr]
      | sequence =>
          rw [dispatch, Attempt.on_bind_ok _ hl.dispatch_eq,
            Attempt.on_bind_error _ ihr]
      | pipe => exact absurd rfl hop
  | uncreated hl hcreate =>
      rw [dispatch, Attempt.on_bind_ok _ hl.dispatch_eq,
        Attempt.on_bind_error _ hcreate]
  | unwritten hl hcreate hwrite hdrop =>
      rw [dispatch_pipe, Attempt.on_bind_ok _ hl.dispatch_eq,
        Attempt.on_bind_ok _ hcreate,
        Attempt.on_bind_error _ (on_holding (on_feeding_unwritten _ hwrite)),
        hdrop]
  | downstream hl hcreate hwrite _ hdrop ihr =>
      have hfed := (on_feeding _ hwrite).trans ihr
      rw [dispatch_pipe, Attempt.on_bind_ok _ hl.dispatch_eq,
        Attempt.on_bind_ok _ hcreate,
        Attempt.on_bind_error _ (on_holding hfed), hdrop]
  | unreleased hl hcreate hwrite hr hrelease =>
      have hfed := (on_feeding _ hwrite).trans hr.dispatch_eq
      rw [dispatch_pipe, Attempt.on_bind_ok _ hl.dispatch_eq,
        Attempt.on_bind_ok _ hcreate, Attempt.on_bind_ok _ (on_holding hfed),
        Attempt.on_bind_error _ hrelease]

/-- The evaluation can be derived, up to its output or its failure. -/
private def Derivable (h : Host σ) (relays : RelayStore) (r : Runner) (n : Nat)
    (e : Expression) (input : InputSource) (s : Session σ) : Prop :=
  (∃ steps output t, Completes h relays r n e input s steps output t) ∨
    ∃ steps f t, Fails h relays r n e input s steps f t

private theorem derivable_simple (n : Nat) (c : Command) (input : InputSource)
    (s : Session σ) : Derivable h relays r n (.simple c) input s := by
  cases hargv : Argv.ofCommand c with
  | error f => exact Or.inr ⟨_, _, _, .unprepared hargv⟩
  | ok argv =>
      rcases hrun : (r.run h argv input).on (s.noted h (.argv argv)) with
        ⟨result, t⟩
      cases result with
      | ok p => exact Or.inl ⟨_, _, _, .ran hargv hrun⟩
      | error f =>
          cases hf : f.isFatal with
          | false => exact Or.inl ⟨_, _, _, .skipped hargv hrun hf⟩
          | true => exact Or.inr ⟨_, _, _, .aborted hargv hrun hf⟩

/-- After the left side of a pipe each of four further stages may fail. -/
private theorem derivable_pipe {n : Nat} {left right : Expression}
    {input : InputSource} {s t : Session σ} {steps : List (Step σ)}
    {upstream : Capture} (hl : Completes h relays r n left input s steps upstream t)
    (hright : ∀ (input : InputSource) (s : Session σ),
      Derivable h relays r (n + left.size) right input s) :
    Derivable h relays r n (.binary .pipe left right) input s := by
  rcases hcreate : (Relay.create h relays).on t with ⟨created, t₁⟩
  cases created with
  | error f => exact Or.inr ⟨_, _, _, .uncreated hl hcreate⟩
  | ok relay =>
      rcases hwrite : (relay.write h upstream).on t₁ with ⟨written, t₂⟩
      cases written with
      | error f => exact Or.inr ⟨_, _, _, .unwritten hl hcreate hwrite rfl⟩
      | ok _ =>
          rcases hright (.relay relay) (t₂.noted h (feedNotice relay right)) with
            ⟨_, _, t₃, hr⟩ | ⟨_, _, _, hr⟩
          · rcases hrelease : (relay.release h).on t₃ with ⟨released, u⟩
            cases released with
            | error f =>
                exact Or.inr ⟨_, _, _, .unreleased hl hcreate hwrite hr hrelease⟩
            | ok _ =>
                exact Or.inl ⟨_, _, _, .piped hl hcreate hwrite hr hrelease⟩
          · exact Or.inr ⟨_, _, _, .downstream hl hcreate hwrite hr rfl⟩

private theorem derivable (h : Host σ) (relays : RelayStore) (r : Runner)
    (e : Expression) :
    ∀ (n : Nat) (input : InputSource) (s : Session σ),
      Derivable h relays r n e input s := by
  induction e with
  | simple c =>
      intro n
      exact derivable_simple n c
  | binary op left right ihl ihr =>
      intro n input s
      rcases ihl n input s with ⟨_, _, t, hl⟩ | ⟨_, _, _, hl⟩
      · by_cases hop : op = .pipe
        · subst hop
          exact derivable_pipe hl (ihr _)
        · rcases ihr _ .inherited t with ⟨_, _, _, hr⟩ | ⟨_, _, _, hr⟩
          · exact Or.inl ⟨_, _, _, .joined hop hl hr⟩
          · exact Or.inr ⟨_, _, _, .right hop hl hr⟩
      · exact Or.inr ⟨_, _, _, .left hl⟩

/-- **An evaluation returns an output just when its steps derive it.** -/
theorem dispatch_eq_ok_iff (n : Nat) {e : Expression} {input : InputSource}
    {s t : Session σ} {output : Capture} :
    (dispatch h relays r e input).on s = (.ok output, t) ↔
      ∃ steps, Completes h relays r n e input s steps output t := by
  refine ⟨fun hrun => ?_, fun ⟨_, he⟩ => he.dispatch_eq⟩
  rcases derivable h relays r e n input s with
    ⟨steps, _, _, he⟩ | ⟨_, _, _, he⟩
  · have heq := he.dispatch_eq.symm.trans hrun
    simp only [Prod.mk.injEq, Except.ok.injEq] at heq
    obtain ⟨rfl, rfl⟩ := heq
    exact ⟨steps, he⟩
  · have heq := he.dispatch_eq.symm.trans hrun
    simp at heq

/-- **An evaluation fails just when its steps derive the failure.** -/
theorem dispatch_eq_error_iff (n : Nat) {e : Expression} {input : InputSource}
    {s t : Session σ} {f : Failure} :
    (dispatch h relays r e input).on s = (.error f, t) ↔
      ∃ steps, Fails h relays r n e input s steps f t := by
  refine ⟨fun hrun => ?_, fun ⟨_, he⟩ => he.dispatch_eq⟩
  rcases derivable h relays r e n input s with
    ⟨_, _, _, he⟩ | ⟨steps, _, _, he⟩
  · have heq := he.dispatch_eq.symm.trans hrun
    simp at heq
  · have heq := he.dispatch_eq.symm.trans hrun
    simp only [Prod.mk.injEq, Except.error.injEq] at heq
    obtain ⟨rfl, rfl⟩ := heq
    exact ⟨steps, he⟩

end Adequacy

/-! ## Nothing happens between the steps -/

section Linked

variable {h : Host σ} {relays : RelayStore} {r : Runner}

private theorem linked_callSteps {n : Nat} {c : Command} {argv : List Bytes}
    {input : InputSource} {s t : Session σ}
    {result : Except Failure (Capture × Status)}
    (hargv : Argv.ofCommand c = .ok argv)
    (hrun : (r.run h argv input).on (s.noted h (.argv argv)) = (result, t)) :
    Linked h relays r s (callSteps h n s c argv input result t) t :=
  ⟨rfl, ⟨hargv, rfl⟩, rfl, rfl, rfl, hrun, rfl⟩

/-- Both sides of a pipe, the work between them, and a last step. -/
private theorem linked_pipe {p : Pipe} {s t t₁ t₂ t₃ u : Session σ}
    {tl tr : List (Step σ)} {relay : Relay} {upstream : Capture} {event : Event}
    (hl : Linked h relays r s tl t)
    (hcreate : (Relay.create h relays).on t = (.ok relay, t₁))
    (hwrite : (relay.write h upstream).on t₁ = (.ok (), t₂))
    (hr : Linked h relays r (t₂.noted h (feedNotice relay p.right)) tr t₃)
    (hlast : event.Leads h relays r t₃ u) :
    Linked h relays r s
      (tl ++ (handOver h p t t₁ t₂ relay upstream ++ (tr ++ [⟨t₃, event, u⟩])))
      u := by
  have hfed : Linked h relays r t (handOver h p t t₁ t₂ relay upstream)
      (t₂.noted h (feedNotice relay p.right)) :=
    ⟨rfl, hcreate, rfl, hwrite, rfl, rfl, rfl⟩
  exact hl.append (hfed.append (hr.snoc hlast))

/-- **The steps of an evaluation that returns lead from its first session to
its last.** -/
theorem Completes.linked {n : Nat} {e : Expression} {input : InputSource}
    {s t : Session σ} {steps : List (Step σ)} {output : Capture}
    (he : Completes h relays r n e input s steps output t) :
    Linked h relays r s steps t := by
  induction he with
  | ran hargv hrun => exact linked_callSteps hargv hrun
  | skipped hargv hrun _ => exact (linked_callSteps hargv hrun).snoc rfl
  | joined _ _ _ ihl ihr => exact ihl.append ihr
  | piped _ hcreate hwrite _ hrelease ihl ihr =>
      exact linked_pipe ihl hcreate hwrite ihr hrelease

/-- **The steps of an evaluation that fails lead from its first session to
its last.** -/
theorem Fails.linked {n : Nat} {e : Expression} {input : InputSource}
    {s t : Session σ} {steps : List (Step σ)} {f : Failure}
    (he : Fails h relays r n e input s steps f t) :
    Linked h relays r s steps t := by
  induction he with
  | unprepared hargv => exact ⟨rfl, ⟨hargv, rfl⟩, rfl⟩
  | aborted hargv hrun _ => exact linked_callSteps hargv hrun
  | left _ ihl => exact ihl
  | right _ hl _ ihr => exact hl.linked.append ihr
  | uncreated hl hcreate => exact hl.linked.snoc hcreate
  | unwritten hl hcreate hwrite hdrop =>
      exact hl.linked.append ⟨rfl, hcreate, rfl, hwrite, rfl, hdrop, rfl⟩
  | downstream hl hcreate hwrite _ hdrop ihr =>
      exact linked_pipe hl.linked hcreate hwrite ihr hdrop
  | unreleased hl hcreate hwrite hr hrelease =>
      exact linked_pipe hl.linked hcreate hwrite hr.linked hrelease

end Linked

end Evaluator

end CommandExpr
