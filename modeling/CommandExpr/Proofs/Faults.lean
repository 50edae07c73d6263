import CommandExpr.Proofs.Routing
import CommandExpr.Proofs.Signs

/-!
# Faults and status

Every command contributes to the faults of an evaluation: nothing if its
program ended with zero, and otherwise one fault, which names the program and
says how it ended or why it could not be started.  The faults of an evaluation
are the contributions of all its commands, from left to right, also of those
whose output is dropped or went into a relay.  Its status is that of the last
command.

## Main results

* `Completes.faults`, `Completes.status` — by induction on the evaluation.
* `Evaluator.dispatch_faults` — all of it, for every evaluation that returns.
-/

namespace CommandExpr

variable {σ : Type}

namespace Turn

/-- What a call contributes to the faults. -/
def faults (turn : Turn σ) : List Fault :=
  match turn.result with
  | .ok (_, status) =>
      if status = .exited 0 then [] else [.unsuccessful turn.command.path status]
  | .error ⟨.spawn errno, _⟩ => [.notSpawned turn.command.path errno]
  | .error _ => []

/-- How the program of a call ended, if it could be started. -/
def status (turn : Turn σ) : Option Status :=
  match turn.result with
  | .ok (_, status) => some status
  | .error _ => none

/-- The signs that the host gave in a call. -/
def signs (turn : Turn (Recorded σ)) : List Sign :=
  turn.after.signs.drop turn.before.signs.length

/-- What the runner answers is what the host told.  The program of a call was
started and ended with the status, or it could not be started, for the reason
that the process reported or because an argument has a byte that no argument
can have. -/
def IsTold (turn : Turn (Recorded σ)) : Prop :=
  match turn.result with
  | .ok (_, status) => ∃ chunks : List Bytes, Runner.Says chunks.flatten none ∧
      turn.signs = chunks.map Sign.report ++ [.ended status]
  | .error f => ∃ errno, f.kind = .spawn errno ∧
      ((∃ (chunks : List Bytes) (status : Status),
          Runner.Says chunks.flatten (some errno) ∧
            turn.signs = chunks.map Sign.report ++ [.ended status]) ∨
        (errno = .invalidArgument ∧ turn.argv.any Bytes.hasNul = true ∧
          turn.signs = []))

end Turn

namespace Runner

private theorem Tells.signs_eq {turn : Turn (Recorded σ)} {errno? : Option Errno}
    {status : Status} (ht : Tells turn.before turn.after errno? status) :
    ∃ chunks : List Bytes, Says chunks.flatten errno? ∧
      turn.signs = chunks.map Sign.report ++ [.ended status] := by
  obtain ⟨chunks, hsays, hsigns⟩ := ht
  refine ⟨chunks, hsays, ?_⟩
  rw [Turn.signs, hsigns, List.drop_left]

theorem Told.isTold {turn : Turn (Recorded σ)}
    (ht : Told turn.argv turn.before turn.after turn.result)
    (hgoes : ∀ f, turn.result = .error f → f.isFatal = false) : turn.IsTold := by
  unfold Turn.IsTold
  cases hresult : turn.result with
  | ok p =>
      rw [hresult] at ht
      exact Tells.signs_eq ht
  | error f =>
      rw [hresult] at ht
      obtain ⟨errno, hkind, htold⟩ := ht (hgoes f hresult)
      refine ⟨errno, hkind, ?_⟩
      rcases htold with ⟨status, htells⟩ | ⟨herrno, hnul, hsigns⟩
      · obtain ⟨chunks, hsays, heq⟩ := htells.signs_eq
        exact Or.inl ⟨chunks, status, hsays, heq⟩
      · refine Or.inr ⟨herrno, hnul, ?_⟩
        rw [Turn.signs, hsigns, List.drop_length]

end Runner

namespace Evaluator

variable {h : Host σ} {relays : RelayStore} {r : Runner}

/-! ## One command -/

/-- The capture of a program that ran has no faults of its own. -/
private theorem faults_of_run {argv : List Bytes} {input : InputSource}
    {s t : Session (Recorded σ)} {output : Capture} {status : Status}
    (hrun : (r.run h.recorded argv input).on s = (.ok (output, status), t)) :
    output.faults = [] := by
  obtain ⟨chunks, -, -, houtput⟩ := Runner.run_received hrun
  rw [houtput]
  rfl

private theorem faults_outcome (turn : Turn σ) {output : Capture} {status : Status}
    (hresult : turn.result = .ok (output, status)) (hfaults : output.faults = []) :
    (outcome turn.command.path output status).faults = turn.faults := by
  unfold Turn.faults
  rw [hresult]
  by_cases hstatus : status = .exited 0
  · simp only [outcome, Status.isSuccess, hstatus, decide_true, if_true]
    exact hfaults
  · simp only [outcome, Status.isSuccess, hstatus, decide_false, if_false]
    change output.faults ++ [_] = [_]
    rw [hfaults, List.nil_append]

private theorem faults_absent (turn : Turn σ) {f : Failure}
    (hresult : turn.result = .error f) (hf : f.isFatal = false) (cap : Nat) :
    (absent turn.command.path cap (spawnErrno f)).faults = turn.faults := by
  obtain ⟨kind, notes⟩ := f
  cases kind with
  | spawn errno =>
      unfold Turn.faults
      rw [hresult]
      rfl
  | _ => cases hf

theorem status_outcome (path : String) (output : Capture) (status : Status) :
    (outcome path output status).status = some status := by
  cases hstatus : status.isSuccess <;> simp only [outcome, hstatus] <;> rfl

/-! ## Whole evaluations -/

/-- **No fault is lost, duplicated or reordered.** -/
theorem Completes.faults {n : Nat} {e : Expression} {input : InputSource}
    {s t : Session (Recorded σ)} {steps : List (Step (Recorded σ))}
    {output : Capture}
    (he : Completes h.recorded relays r n e input s steps output t) :
    output.faults = (turns steps).flatMap Turn.faults := by
  induction he with
  | @ran n c input s t argv output status _ hrun =>
      rw [turns_callSteps, List.flatMap_singleton]
      exact faults_outcome ⟨n, c, argv, input, _, s.noted h.recorded (.argv argv), t⟩
        rfl (faults_of_run hrun)
  | @skipped n c input s t argv f _ _ hf =>
      rw [turns_append, turns_note, List.append_nil, turns_callSteps,
        List.flatMap_singleton]
      exact faults_absent
        ⟨n, c, argv, input, .error f, s.noted h.recorded (.argv argv), t⟩ rfl hf r.cap
  | joined _ _ _ ihl ihr =>
      rw [turns_append, List.flatMap_append, ← ihl, ← ihr, Operator.faults_join]
  | piped _ _ _ _ _ ihl ihr =>
      rw [turns_pipe (isQuiet_release _ _ _ _ _), List.flatMap_append, ← ihl, ← ihr,
        Operator.faults_join]

/-- The status is that of the last command. -/
theorem Completes.status {n : Nat} {e : Expression} {input : InputSource}
    {s t : Session σ} {steps : List (Step σ)} {output : Capture}
    (he : Completes h relays r n e input s steps output t) :
    ∃ last, (turns steps).getLast? = some last ∧ output.status = last.status := by
  induction he with
  | @ran n c input s t argv output status _ _ =>
      refine ⟨_, rfl, ?_⟩
      rw [status_outcome]
      rfl
  | skipped _ _ _ => exact ⟨_, rfl, rfl⟩
  | joined _ _ _ _ ihr =>
      obtain ⟨last, hlast, hstatus⟩ := ihr
      refine ⟨last, ?_, ?_⟩
      · rw [turns_append, List.getLast?_append, hlast, Option.some_or]
      · rw [Operator.status_join, hstatus]
  | piped _ _ _ _ _ _ ihr =>
      obtain ⟨last, hlast, hstatus⟩ := ihr
      refine ⟨last, ?_, ?_⟩
      · rw [turns_pipe (isQuiet_release _ _ _ _ _), List.getLast?_append, hlast,
          Option.some_or]
      · rw [Operator.status_join, hstatus]

theorem Completes.isTold {n : Nat} {e : Expression} {input : InputSource}
    {s t : Session (Recorded σ)} {steps : List (Step (Recorded σ))}
    {output : Capture}
    (he : Completes h.recorded relays r n e input s steps output t) :
    ∀ turn ∈ turns steps, turn.IsTold := by
  intro turn hturn
  have hanswered := he.answered turn hturn
  exact (Runner.run_signs hanswered.answer).isTold hanswered.goes

end Evaluator

/-- A call that did not end the evaluation contributes nothing just when its
program ended with zero. -/
theorem Turn.faults_eq_nil_iff {turn : Turn (Recorded σ)} (ht : turn.IsTold) :
    turn.faults = [] ↔ turn.status = some (.exited 0) := by
  unfold Turn.IsTold at ht
  unfold Turn.faults Turn.status
  cases hresult : turn.result with
  | ok p =>
      obtain ⟨output, status⟩ := p
      by_cases hstatus : status = .exited 0
      · simp [hstatus]
      · simp [hstatus]
  | error f =>
      rw [hresult] at ht
      obtain ⟨errno, hkind, -⟩ := ht
      obtain ⟨kind, notes⟩ := f
      subst hkind
      simp

namespace Evaluator

/-- What an evaluation that made the steps says of its commands. -/
structure FaultLog (e : Expression) (steps : List (Step (Recorded σ)))
    (output : Capture) : Prop where
  /-- The runner is called once for every command, from left to right. -/
  commands : (turns steps).map Turn.command = e.leaves
  /-- The calls are counted from zero. -/
  places : (turns steps).map Turn.place = List.range' 0 e.size
  /-- Its answers are what the host told. -/
  told : ∀ turn ∈ turns steps, turn.IsTold
  /-- The faults are the contributions of all commands, in their order. -/
  faults : output.faults = (turns steps).flatMap Turn.faults
  /-- The status is that of the last command, none if its program could not be
  started, and zero just if it contributes no fault. -/
  last : ∃ last, (turns steps).getLast? = some last ∧
    e.leaves.getLast? = some last.command ∧ output.status = last.status ∧
      (output.status = none ↔ ∃ f, last.result = .error f) ∧
        (output.status = some (.exited 0) ↔ last.faults = [])

/-- **The faults of an evaluation are those of all its commands, in order, and
its status is that of the last one.**  This is so for every composition, every
input that is given from outside, and every host, whatever the programs do. -/
theorem dispatch_faults (h : Host σ) (relays : RelayStore) (r : Runner)
    (e : Expression) (input : InputSource) {s t : Session σ} {output : Capture}
    (hrun : (dispatch h relays r e input).on s = (.ok output, t)) :
    ∃ (steps : List (Step (Recorded σ))) (t' : Session (Recorded σ)),
      t'.plain = t ∧
        Completes h.recorded relays r 0 e input s.recording steps output t' ∧
          FaultLog e steps output := by
  obtain ⟨t', hplain, hrecorded⟩ := dispatch_recording hrun
  obtain ⟨steps, he⟩ := (dispatch_eq_ok_iff 0).mp hrecorded
  have hwhole := he.whole
  obtain ⟨last, hlast, hstatus⟩ := he.status
  refine ⟨steps, t', hplain, he, hwhole.commands_eq, hwhole.places_eq, he.isTold,
    he.faults, last, hlast, ?_, hstatus, ?_, ?_⟩
  · rw [← hwhole.commands_eq, List.getLast?_map, hlast, Option.map_some]
  · rw [hstatus, Turn.status]
    cases last.result <;> simp
  · rw [hstatus]
    exact (Turn.faults_eq_nil_iff
      (he.isTold last (List.mem_of_getLast? hlast))).symm

open Sandbox Sandbox.Sample in
/-- The sample composition, with a program that is not there and one that
fails. -/
theorem dispatch_faults_sample :
    (dispatch (host oracle) store Sample.runner composition .inherited).on start
        = (.ok Sample.output, finish) ∧
      ∃ (steps : List (Step (Recorded State))) (t' : Session (Recorded State)),
        t'.plain = finish ∧
          Completes (host oracle).recorded store Sample.runner 0 composition .inherited
            start.recording steps Sample.output t' ∧
          FaultLog composition steps Sample.output :=
  ⟨dispatch_eq, dispatch_faults (host oracle) store Sample.runner composition
    .inherited dispatch_eq⟩

end Evaluator

end CommandExpr
