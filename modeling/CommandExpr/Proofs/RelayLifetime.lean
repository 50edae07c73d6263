import CommandExpr.Proofs.Grammar
import CommandExpr.Proofs.Lives
import CommandExpr.Proofs.Sandbox

/-!
# The life of relays

An evaluator reads the clock, evaluates a composition, and may write its output.
Whatever comes of it, a failure of the last write included, every relay that was
made is there as long as commands of its right side are called and is gone in
the end, and to other files nothing is done but by others.

How many relays there may be at a time is known from the composition.  One that
is written as a word list needs one, since there no pipe is in the right side of
another.

## Main results

* `Words.pipeDepth_parse` — a word list has no pipe in the right side of another.
* `Evaluator.evaluate_lifetime` — the life of the relays, for every evaluation.
-/

namespace CommandExpr

variable {σ τ ι : Type}

/-! ## Word lists -/

/-- Where every operator has the right grouping, no pipe stands in the right side of
another. -/
theorem Expression.IsNormal.pipeDepth_le {e : Expression} (hnormal : e.IsNormal) :
    e.pipeDepth ≤ 1 := by
  induction e with
  | simple c => exact Nat.zero_le 1
  | binary op left right ihl ihr =>
      obtain ⟨-, htighter, hl, hr⟩ := hnormal
      have hleft := ihl hl
      have hright := ihr hr
      by_cases hop : op = .pipe
      · subst hop
        -- Only a command binds tighter than a pipe.
        cases right with
        | simple c => exact Nat.max_le.mpr ⟨hleft, Nat.le_refl 1⟩
        | binary inner _ _ =>
            have hpos := inner.looseness_pos
            have hlt : inner.looseness < 1 := htighter
            omega
      · rw [pipeDepth_join hop]
        exact Nat.max_le.mpr ⟨hleft, hright⟩

/-- **In a composition that is written as a word list, no pipe stands in the
right side of another.** -/
theorem Words.pipeDepth_parse {isTyped : Bool} {words : List String} {e : Expression}
    (hparse : parse isTyped words = .ok e) : e.pipeDepth ≤ 1 :=
  (parse_eq_ok_iff.mp hparse).1.pipeDepth_le

namespace Evaluator

variable [DecidableEq ι] {files : Files σ ι} {drift : Drift ι} {h : Host σ}
  {ev : Evaluator}

/-! ## Whole evaluations -/

/-- The session in which the first command is prepared: the clock has been
read. -/
def started (h : Host σ) (s : Session σ) : Session σ :=
  { s with machine := (h.now s.machine).2 }

/-- What is done with an output. -/
def finishing (h : Host σ) (ev : Evaluator) (e : Expression) (start : Instant)
    (output : Capture) : Attempt σ Capture := do
  h.note (.evaluated e.display ((← Host.ask h.now) - start))
  if ev.isEchoing then
    match ← ExceptT.lift (Output.writeAll h output.bytes) with
    | .ok () => pure ()
    | .error f => throw (f.withNote echoNote)
  return output

theorem evaluate_eq (h : Host σ) (ev : Evaluator) (e : Expression) :
    ev.evaluate h e = (do
      let start ← Host.ask h.now
      let output ← dispatch h ev.relays (ev.runner start) e .inherited
      finishing h ev e start output) := rfl

omit [DecidableEq ι] in
theorem agree_finishing {R : Session σ → Session τ → Prop} {h : Host σ} {k : Host τ}
    (w : Running R h k) (hout : ∀ bytes, Agree R (Host.call (h.writeOut bytes))
      (Host.call (k.writeOut bytes))) (ev : Evaluator) (e : Expression) (start : Instant)
    (output : Capture) :
    Agree R (finishing h ev e start output).run (finishing k ev e start output).run := by
  refine Agree.attempt (Agree.lift w.now) fun now => ?_
  refine Agree.attempt (w.attemptNote _) fun _ => ?_
  by_cases hecho : ev.isEchoing = true
  · simp only [hecho, if_true]
    refine Agree.attempt (Agree.lift (w.writeAll hout _)) fun written => ?_
    cases written with
    | ok _ => exact Agree.pure _
    | error f => exact Agree.attempt (Agree.pure _) fun _ => Agree.pure _
  · simp only [hecho]
    exact Agree.pure _

omit [DecidableEq ι] in
/-- **Whole evaluations on two hosts in step agree**, if writing their output does. -/
theorem agree_evaluate {R : Session σ → Session τ → Prop} {h : Host σ} {k : Host τ}
    (w : InStep R h k) (hout : ∀ bytes, Agree R (Host.call (h.writeOut bytes))
      (Host.call (k.writeOut bytes))) (ev : Evaluator) (e : Expression) :
    Agree R (ev.evaluate h e).run (ev.evaluate k e).run := by
  rw [evaluate_eq, evaluate_eq]
  refine Agree.attempt (Agree.lift w.now) fun start => ?_
  refine Agree.attempt (w.dispatch _ _ e _) fun output => ?_
  exact agree_finishing w.toRunning hout ev e start output

private theorem leaves_finishing (o : files.Orderly h ev.relays drift)
    (w : files.Lawful h ev.relays) {e : Expression} {start : Instant}
    {output : Capture} {s t : Session σ} {result : Except Failure Capture}
    (hrun : (finishing h ev e start output).on s = (result, t)) :
    files.Leaves drift s.machine t.machine := by
  have hrunning := o.running w s.machine []
  have hout : ∀ bytes, Agree (Same fun u => files.Since drift s.machine [] u.machine)
      (Host.call (h.writeOut bytes)) (Host.call (h.writeOut bytes)) :=
    fun bytes => Keeps.agree fun u hu =>
      hu.trans_leaves o (o.leaves_of_same (w.writeOut bytes u.machine))
  have hkept := (agree_finishing hrunning hout ev e start output).keeps s
    (o.since_refl s.machine)
  rw [Attempt.on_run, hrun] at hkept
  exact hkept.leaves

/-- The life of the relays of an evaluation from one session to another that
made the steps. -/
structure Lifetime (files : Files σ ι) (drift : Drift ι) (e : Expression)
    (s : Session σ) (steps : List (Step σ)) (t : Session σ) : Prop
    extends InOrder 0 e steps where
  /-- When a command is called, a relay has been made for every pipe that has the
  command on its right side. -/
  covering : ∀ turn ∈ turns steps,
    (live steps turn.place).map Creation.pipe = e.covering 0 turn.place
  /-- Those relays are in hand then, and no others. -/
  calls : ∀ turn ∈ turns steps,
    files.Since drift s.machine (files.entries (live steps turn.place))
      turn.before.machine
  /-- They are there, … -/
  exist : ∀ turn ∈ turns steps, ∀ made ∈ live steps turn.place,
    files.content turn.before.machine (files.entry made.relay.path) ≠ none
  /-- … and still in hand, alone, when the call is over. -/
  stay : ∀ turn ∈ turns steps,
    files.Leaves drift turn.before.machine turn.after.machine
  /-- At no time there are more relays than pipes in right sides of pipes. -/
  always : ∀ step ∈ steps,
    files.Within drift s.machine e.pipeDepth step.before.machine ∧
      files.Within drift s.machine e.pipeDepth step.after.machine
  /-- At no time there is more than one if the composition is that of a word
  list. -/
  single : ∀ (isTyped : Bool) (words : List String),
    Words.parse isTyped words = .ok e → ∀ step ∈ steps,
      files.Within drift s.machine 1 step.before.machine ∧
        files.Within drift s.machine 1 step.after.machine
  /-- In the end none of them is there: what is in its place is what others have
  put there. -/
  gone : ∀ made ∈ creations steps,
    files.entry made.relay.path ∉ files.held t.machine ∧
      drift (files.entry made.relay.path) none
        (files.content t.machine (files.entry made.relay.path))
  /-- The same entries are held in the end as at the start, and nothing was done
  to the files but by others. -/
  leaves : files.Leaves drift s.machine t.machine

private theorem lifetime_of_lives (o : files.Orderly h ev.relays drift)
    (w : files.Lawful h ev.relays) {r : Runner} {e : Expression}
    {s s₁ t u : Session σ} {steps : List (Step σ)}
    (hlives : Lives files drift 0 e s₁ steps u) (horder : InOrder 0 e steps)
    (hlinked : Linked h ev.relays r s₁ steps u)
    (hs : files.Leaves drift s.machine s₁.machine)
    (ht : files.Leaves drift u.machine t.machine) :
    Lifetime files drift e s steps t := by
  have hwithin : ∀ {most : Nat} {m : σ}, files.Within drift s₁.machine most m →
      files.Within drift s.machine most m := by
    rintro most m ⟨own, hown, hsince⟩
    exact ⟨own, hown, hs.trans_since o hsince⟩
  have hcalls : ∀ turn ∈ turns steps,
      files.Since drift s.machine (files.entries (live steps turn.place))
        turn.before.machine :=
    fun turn hturn => hs.trans_since o (hlives.calls turn hturn)
  have halways : ∀ step ∈ steps,
      files.Within drift s.machine e.pipeDepth step.before.machine ∧
        files.Within drift s.machine e.pipeDepth step.after.machine := by
    intro step hstep
    obtain ⟨hbefore, hafter⟩ := hlives.always step hstep
    exact ⟨hwithin hbefore, hwithin hafter⟩
  have hleaves := hs.trans o (hlives.leaves.trans o ht)
  refine ⟨horder, hlives.covering, hcalls, ?_, ?_, halways, ?_, ?_, hleaves⟩
  · intro turn hturn made hmade
    refine w.exists_of_held ?_
    rw [(hcalls turn hturn).held]
    exact Or.inr (List.mem_map.mpr ⟨made, hmade, rfl⟩)
  · intro turn hturn
    exact o.run w (hlinked.leads (exists_step_of_mem_turns hturn))
  · intro isTyped words hparse step hstep
    have hle := Words.pipeDepth_parse hparse
    obtain ⟨hbefore, hafter⟩ := halways step hstep
    exact ⟨hbefore.mono hle, hafter.mono hle⟩
  · intro made hmade
    have hmem := exists_step_of_mem_creations hmade
    refine ⟨fun hheld => ?_, o.trans (hlives.gone made hmade) (ht.others _)⟩
    obtain ⟨⟨own, -, hsince⟩, -⟩ := halways _ hmem
    refine w.not_held_of_makes (w.create_ok (hlinked.leads hmem)) ?_
    rw [hsince.held]
    rw [hleaves.held] at hheld
    exact Or.inl hheld

/-- **Every relay is there while its right side runs, and is gone in the end.**
This is so for every composition, whether its evaluation returns or fails, if
the files of the host are lawful and others are orderly. -/
theorem evaluate_lifetime (ev : Evaluator) (w : files.Lawful h ev.relays)
    (o : files.Orderly h ev.relays drift) (e : Expression) {s t : Session σ}
    {result : Except Failure Capture}
    (hrun : (ev.evaluate h e).on s = (result, t)) :
    ∃ (steps : List (Step σ)) (u : Session σ),
      ((∃ output, Completes h ev.relays (ev.runner (h.now s.machine).1) 0 e .inherited
          (started h s) steps output u) ∨
        ∃ f, result = .error f ∧
          Fails h ev.relays (ev.runner (h.now s.machine).1) 0 e .inherited
            (started h s) steps f u) ∧
        Lifetime files drift e s steps t := by
  have hs : files.Leaves drift s.machine (started h s).machine :=
    o.leaves_of_same (w.now s.machine)
  rcases hdispatch : (dispatch h ev.relays (ev.runner (h.now s.machine).1) e
    .inherited).on (started h s) with ⟨dispatched, u⟩
  have hstart : (Host.ask h.now).on s = (.ok (h.now s.machine).1, started h s) := rfl
  rw [evaluate_eq, Attempt.on_bind_ok _ hstart] at hrun
  cases dispatched with
  | error f =>
      rw [Attempt.on_bind_error _ hdispatch] at hrun
      obtain ⟨rfl, rfl⟩ := Prod.mk.inj hrun
      obtain ⟨steps, he⟩ := (dispatch_eq_error_iff 0).mp hdispatch
      exact ⟨steps, u, Or.inr ⟨f, rfl, he⟩, lifetime_of_lives o w (he.lives o w)
        he.inOrder he.linked hs (o.since_refl u.machine).leaves⟩
  | ok output =>
      rw [Attempt.on_bind_ok _ hdispatch] at hrun
      obtain ⟨steps, he⟩ := (dispatch_eq_ok_iff 0).mp hdispatch
      exact ⟨steps, u, Or.inl ⟨output, he⟩, lifetime_of_lives o w (he.lives o w)
        he.whole.toInOrder he.linked hs (leaves_finishing o w hrun)⟩

open Sandbox Sandbox.Sample in
/-- The sample composition, with a pipe in the right side of a pipe. -/
theorem evaluate_lifetime_sample :
    ((evaluator.evaluate (host oracle) composition).on start).1 = .ok Sample.output ∧
      ∃ (steps : List (Step State)) (u : Session State),
        ((∃ output, Completes (host oracle) store
            (evaluator.runner ((host oracle).now start.machine).1) 0 composition
            .inherited (started (host oracle) start) steps output u) ∨
          ∃ f, (.ok Sample.output : Except Failure Capture) = .error f ∧
            Fails (host oracle) store
              (evaluator.runner ((host oracle).now start.machine).1) 0 composition
              .inherited (started (host oracle) start) steps f u) ∧
          Lifetime Sandbox.files (fun _ a b => a = b) composition start steps
            ((evaluator.evaluate (host oracle) composition).on start).2 :=
  ⟨Sample.evaluate_eq, evaluate_lifetime evaluator (lawful oracle store)
    Sample.orderly_eq composition (Prod.ext Sample.evaluate_eq rfl)⟩

end Evaluator

end CommandExpr
