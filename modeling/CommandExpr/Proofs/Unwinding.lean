import CommandExpr.Proofs.Offers
import CommandExpr.Proofs.RelayLifetime
import CommandExpr.Proofs.Routing
import CommandExpr.Proofs.Supervision

/-!
# Where an evaluation ends

An evaluation goes through **stages**, any of which may end it: for every command
its argument vector is built and the runner is called, for every pipe a relay is
made, written and given back, and in the end the output may be echoed.  The
**plan** of a composition lists them in the order of evaluation, and a **trial**
is a stage that was tried, with the failure that ended the evaluation there, if
one did.

The trials are read off the steps of an evaluation.  They follow the plan to its
end or up to the first that failed, and the failure of that one is the
evaluation's: what comes after it only gives relays up, and does not change the
failure, whatever it comes to.

## Main results

* `Completes.trials_eq`, `Fails.stopsAt` — the trials of an evaluation follow the
  plan.
* `Evaluator.evaluate_unwinds` — an evaluation fails just when a stage does, with
  the failure of the first one.
-/

namespace CommandExpr

variable {σ α : Type}

/-! ## Stages -/

/-- Something that an evaluation has to do, and that may end it. -/
inductive Stage where
  /-- The argument vector of a command is built. -/
  | prepare (command : Command)
  /-- The runner is called for the command at a place. -/
  | call (place : Nat) (command : Command)
  /-- The relay of a pipe is made. -/
  | create (pipe : Pipe)
  /-- The output of a pipe's left side goes into its relay. -/
  | write (pipe : Pipe)
  /-- The relay of a pipe is given back. -/
  | release (pipe : Pipe)
  /-- The output is written to the host's standard output. -/
  | echo

/-- The command for which a stage calls the runner, with its place. -/
def Stage.call? : Stage → Option (Command × Nat)
  | call place command => some (command, place)
  | _ => none

/-- The stages of a composition that stands after `n` commands, in the order of
evaluation. -/
def Expression.stagesFrom (n : Nat) : Expression → List Stage
  | simple c => [.prepare c, .call n c]
  | binary .pipe left right =>
      left.stagesFrom n ++ .create ⟨left, right, n⟩ :: .write ⟨left, right, n⟩ ::
        (right.stagesFrom (n + left.size) ++ [.release ⟨left, right, n⟩])
  | binary _ left right => left.stagesFrom n ++ right.stagesFrom (n + left.size)

namespace Expression

theorem stagesFrom_join {op : Operator} (hop : op ≠ .pipe) (n : Nat)
    (left right : Expression) :
    (binary op left right).stagesFrom n
      = left.stagesFrom n ++ right.stagesFrom (n + left.size) := by
  cases op with
  | concat => rfl
  | sequence => rfl
  | pipe => exact absurd rfl hop

/-- Whatever the operator, the left side comes first. -/
theorem exists_stagesFrom_binary (op : Operator) (n : Nat) (left right : Expression) :
    ∃ more, (binary op left right).stagesFrom n = left.stagesFrom n ++ more := by
  cases op <;> exact ⟨_, rfl⟩

/-- The commands are called in their order. -/
theorem filterMap_call?_stagesFrom (e : Expression) :
    ∀ n, (e.stagesFrom n).filterMap Stage.call? = e.leaves.zipIdx n := by
  induction e with
  | simple c => exact fun n => rfl
  | binary op left right ihl ihr =>
      intro n
      have hright := ihr (n + left.size)
      rw [leaves, List.zipIdx_append, length_leaves, ← ihl n, ← hright]
      cases op with
      | concat => exact List.filterMap_append
      | sequence => exact List.filterMap_append
      | pipe =>
          rw [stagesFrom, List.filterMap_append, List.filterMap_cons_none rfl,
            List.filterMap_cons_none rfl, List.filterMap_append]
          exact congrArg (_ ++ ·) (List.append_nil _)

end Expression

/-- The stages of an evaluation. -/
def Evaluator.plan (ev : Evaluator) (e : Expression) : List Stage :=
  e.stagesFrom 0 ++ if ev.isEchoing then [.echo] else []

/-! ## Trials -/

/-- A stage that was tried. -/
structure Trial where
  /-- The stage. -/
  stage : Stage
  /-- The failure that ended the evaluation there, if one did. -/
  failure : Option Failure

namespace Trial

/-- A stage that did not end the evaluation. -/
def passed (stage : Stage) : Trial := ⟨stage, none⟩

/-- A stage that came to a result. -/
def of (stage : Stage) : Except Failure α → Trial
  | .ok _ => ⟨stage, none⟩
  | .error f => ⟨stage, if f.isFatal then some f else none⟩

theorem of_fatal {stage : Stage} {f : Failure} (hf : f.isFatal = true) :
    of stage (.error f : Except Failure α) = ⟨stage, some f⟩ := by
  simp only [of, hf, if_true]

theorem of_goes {stage : Stage} {f : Failure} (hf : f.isFatal = false) :
    of stage (.error f : Except Failure α) = passed stage := by
  simp [of, hf, passed]

end Trial

namespace Step

/-- The stage that a step tries; the others log something, or give a relay up. -/
def trial? (step : Step σ) : Option Trial :=
  match step.event with
  | .prepare command result => some (.of (.prepare command) result)
  | .note _ => none
  | .call place command _ _ result => some (.of (.call place command) result)
  | .create pipe result => some (.of (.create pipe) result)
  | .write pipe _ _ result => some (.of (.write pipe) result)
  | .release pipe _ result => some (.of (.release pipe) result)
  | .drop _ _ => none

/-- Does the step give a relay up? -/
def IsDrop (step : Step σ) : Prop := ∃ pipe relay, step.event = .drop pipe relay

/-- Does the stage that the step tries end the evaluation? -/
def Fails (step : Step σ) : Prop := ∃ stage f, step.trial? = some ⟨stage, some f⟩

theorem IsDrop.trial?_eq {step : Step σ} (hdrop : step.IsDrop) : step.trial? = none := by
  obtain ⟨pipe, relay, hevent⟩ := hdrop
  simp only [trial?, hevent]

end Step

/-- The stages that were tried, in order. -/
def trials (steps : List (Step σ)) : List Trial := steps.filterMap Step.trial?

@[simp]
theorem trials_append (a b : List (Step σ)) : trials (a ++ b) = trials a ++ trials b :=
  List.filterMap_append

theorem trials_drops {steps : List (Step σ)} (hdrops : ∀ step ∈ steps, step.IsDrop) :
    trials steps = [] :=
  List.filterMap_eq_nil_iff.mpr fun step hstep => (hdrops step hstep).trial?_eq

/-- The calls of the runner are those of the stages that were tried. -/
theorem filterMap_call?_trials (steps : List (Step σ)) :
    (trials steps).filterMap (fun trial => trial.stage.call?)
      = (turns steps).map fun turn => (turn.command, turn.place) := by
  induction steps with
  | nil => rfl
  | cons step rest ih =>
      have hsplit : step :: rest = [step] ++ rest := rfl
      rw [hsplit, trials_append, turns_append, List.filterMap_append, List.map_append, ih]
      congr 1
      obtain ⟨before, event, after⟩ := step
      rcases event with ⟨_, _ | _⟩ | _ | ⟨_, _, _, _, _ | _⟩ | ⟨_, _ | _⟩ |
        ⟨_, _, _, _ | _⟩ | ⟨_, _, _ | _⟩ | _ <;> rfl

/-- The calls for stages that were passed are those for the stages. -/
theorem filterMap_call?_passed (stages : List Stage) :
    (stages.map Trial.passed).filterMap (fun trial => trial.stage.call?)
      = stages.filterMap Stage.call? :=
  List.filterMap_map

/-- No step fails if all stages that were tried were passed. -/
theorem not_fails_of_passed {steps : List (Step σ)} {done : List Stage}
    (hpassed : trials steps = done.map Trial.passed) : ∀ step ∈ steps, ¬ step.Fails := by
  rintro step hstep ⟨stage, f, htrial⟩
  have hmem : (⟨stage, some f⟩ : Trial) ∈ trials steps :=
    List.mem_filterMap.mpr ⟨step, hstep, htrial⟩
  rw [hpassed] at hmem
  obtain ⟨other, -, heq⟩ := List.mem_map.mp hmem
  cases congrArg Trial.failure heq

/-- What follows on a failure does not matter if nothing fails. -/
theorem pairwise_of_not_fails {steps : List (Step σ)} {R : Step σ → Prop}
    (hpassed : ∀ step ∈ steps, ¬ step.Fails) :
    steps.Pairwise fun first later => first.Fails → R later :=
  List.pairwise_iff_forall_sublist.mpr fun hsub hfails =>
    absurd hfails (hpassed _ (hsub.subset List.mem_cons_self))

/-- The steps pass some of the stages in their order, fail at the next one, and
after that do nothing but give relays up. -/
inductive StopsAt (stages : List Stage) (steps : List (Step σ)) (f : Failure) :
    Prop where
  | intro {done todo : List Stage} {stage : Stage} {before after : List (Step σ)}
      {last : Step σ} (hstages : stages = done ++ stage :: todo)
      (hsteps : steps = before ++ last :: after)
      (hbefore : trials before = done.map Trial.passed)
      (hlast : last.trial? = some ⟨stage, some f⟩)
      (hafter : ∀ step ∈ after, step.IsDrop) : StopsAt stages steps f

namespace StopsAt

variable {stages : List Stage} {steps : List (Step σ)} {f : Failure}

/-- The first stage fails. -/
theorem here {stage : Stage} {step : Step σ} (todo : List Stage)
    (hstep : step.trial? = some ⟨stage, some f⟩) : StopsAt (stage :: todo) [step] f :=
  .intro (List.nil_append _).symm (List.nil_append _).symm rfl hstep
    (List.forall_mem_nil _)

/-- One stage more may have been passed before, … -/
theorem cons {stage : Stage} {step : Step σ} (hs : StopsAt stages steps f)
    (hstep : step.trial? = some (.passed stage)) :
    StopsAt (stage :: stages) (step :: steps) f := by
  obtain ⟨rfl, rfl, hbefore, hlast, hafter⟩ := hs
  refine .intro (List.cons_append ..).symm (List.cons_append ..).symm ?_ hlast hafter
  rw [trials, List.filterMap_cons_some hstep]
  exact congrArg (_ :: ·) hbefore

/-- … or something else may have been done. -/
theorem cons_other {step : Step σ} (hs : StopsAt stages steps f)
    (hstep : step.trial? = none) : StopsAt stages (step :: steps) f := by
  obtain ⟨rfl, rfl, hbefore, hlast, hafter⟩ := hs
  refine .intro rfl (List.cons_append ..).symm ?_ hlast hafter
  rw [trials, List.filterMap_cons_none hstep]
  exact hbefore

/-- More stages may be left. -/
theorem append_stages (hs : StopsAt stages steps f) (more : List Stage) :
    StopsAt (stages ++ more) steps f := by
  obtain ⟨rfl, rfl, hbefore, hlast, hafter⟩ := hs
  exact .intro (List.append_assoc _ _ _) rfl hbefore hlast hafter

/-- All stages of another composition may have been passed before. -/
theorem prepend {done : List Stage} {before : List (Step σ)}
    (hs : StopsAt stages steps f) (hbefore : trials before = done.map Trial.passed) :
    StopsAt (done ++ stages) (before ++ steps) f := by
  obtain ⟨rfl, rfl, hmore, hlast, hafter⟩ := hs
  refine .intro (List.append_assoc _ _ _).symm (List.append_assoc _ _ _).symm ?_ hlast hafter
  rw [trials_append, List.map_append, hbefore, hmore]

/-- Relays may be given up. -/
theorem append_drop (hs : StopsAt stages steps f) (s t : Session σ) (p : Pipe)
    (relay : Relay) : StopsAt stages (steps ++ [⟨s, .drop p relay, t⟩]) f := by
  obtain ⟨rfl, rfl, hbefore, hlast, hafter⟩ := hs
  have hdrops := List.forall_mem_append.mpr
    ⟨hafter, List.forall_mem_singleton.mpr (⟨p, relay, rfl⟩ : Step.IsDrop ⟨s, _, t⟩)⟩
  exact .intro rfl (List.append_assoc _ _ _) hbefore hlast hdrops

/-- The trials end with the one that failed. -/
theorem trials_eq (hs : StopsAt stages steps f) :
    ∃ done stage todo, stages = done ++ stage :: todo ∧
      trials steps = done.map Trial.passed ++ [⟨stage, some f⟩] := by
  obtain ⟨rfl, rfl, hbefore, hlast, hafter⟩ := hs
  refine ⟨_, _, _, rfl, ?_⟩
  rw [trials_append, hbefore, trials, List.filterMap_cons_some hlast]
  exact congrArg (_ ++ _ :: ·) (trials_drops hafter)

/-- Only relays are given up after a step that failed. -/
theorem pairwise (hs : StopsAt stages steps f) :
    steps.Pairwise fun first later => first.Fails → later.IsDrop := by
  obtain ⟨rfl, rfl, hbefore, hlast, hafter⟩ := hs
  have hpassed := not_fails_of_passed hbefore
  rw [List.pairwise_append, List.pairwise_cons]
  refine ⟨pairwise_of_not_fails hpassed,
    ⟨fun step hstep _ => hafter step hstep, pairwise_of_not_fails ?_⟩, ?_⟩
  · rintro step hstep ⟨stage, f, htrial⟩
    rw [(hafter step hstep).trial?_eq] at htrial
    cases htrial
  · exact fun step hstep _ _ hfails => absurd hfails (hpassed step hstep)

end StopsAt

/-! ## Failures that end an evaluation -/

/-- The failure ends an evaluation, and is not that of a missing program. -/
structure Failure.Ends (f : Failure) : Prop where
  isFatal : f.isFatal = true
  ne_emptyArgv : f ≠ .emptyArgv

theorem Failure.Ends.ne_spawn {f : Failure} (hf : f.Ends) {errno : Errno} :
    f.kind ≠ .spawn errno := by
  intro hkind
  have hfatal := hf.isFatal
  rw [Failure.isFatal, hkind] at hfatal
  cases hfatal

theorem Failure.Ends.of_kind {f : Failure} (hkind : f.kind = .relay) : f.Ends where
  isFatal := by rw [Failure.isFatal, hkind]
  ne_emptyArgv := by
    rintro rfl
    cases hkind

namespace Argv

theorem ends_of_renderFrom {path : String} {f : Failure} {args : List Argument} :
    ∀ {place : Nat}, renderFrom path place args = .error f → f.Ends := by
  induction args with
  | nil =>
      intro place hrender
      cases hrender
  | cons a rest ih =>
      intro place hrender
      cases a with
      | typed v =>
          rw [renderFrom] at hrender
          cases hrest : renderFrom path (place + 1) rest with
          | ok vector =>
              rw [hrest] at hrender
              cases hrender
          | error g =>
              rw [hrest] at hrender
              obtain rfl := Except.error.inj hrender
              exact ih hrest
      | unrecognized tag =>
          obtain rfl := Except.error.inj hrender
          exact ⟨rfl, fun heq => by cases congrArg Failure.kind heq⟩

/-- An argument of no known kind ends the evaluation. -/
theorem ends_of_ofCommand {c : Command} {f : Failure} (hargv : ofCommand c = .error f) :
    f.Ends := by
  rw [ofCommand] at hargv
  cases hrender : renderFrom c.path 1 c.args with
  | ok vector =>
      rw [hrender] at hargv
      cases hargv
  | error g =>
      rw [hrender] at hargv
      obtain rfl := Except.error.inj hargv
      exact ends_of_renderFrom hrender

/-- An argument vector begins with the program. -/
theorem ne_nil_of_ofCommand {c : Command} {argv : List Bytes}
    (hargv : ofCommand c = .ok argv) : argv ≠ [] := by
  rw [ofCommand] at hargv
  cases hrender : renderFrom c.path 1 c.args with
  | ok vector =>
      rw [hrender] at hargv
      obtain rfl := Except.ok.inj hargv
      exact List.cons_ne_nil _ _
  | error g =>
      rw [hrender] at hargv
      cases hargv

end Argv

namespace Relay

variable {h : Host σ} {relay : Relay} {s t : Session σ} {f : Failure}

private theorem Creates.kind {store : RelayStore} {left tried : Nat}
    {result : Except Failure Relay} (hc : Creates h store left tried s result t) :
    ∀ f, result = .error f → f.kind = .relay := by
  induction hc with
  | made _ => exact fun f hf => by cases hf
  | refused _ _ =>
      rintro _ ⟨⟩
      rfl
  | taken _ _ _ ih => exact ih

/-- A relay that cannot be made ends the evaluation, … -/
theorem ends_of_create {store : RelayStore}
    (hcreate : (create h store).on s = (.error f, t)) : f.Ends :=
  .of_kind ((create_eq_iff.mp hcreate).kind f rfl)

/-- … so does one that cannot be written, … -/
theorem ends_of_write {output : Capture}
    (hwrite : (relay.write h output).on s = (.error f, t)) : f.Ends := by
  rw [on_write] at hwrite
  split at hwrite
  · cases congrArg Prod.fst hwrite
  · obtain rfl := Except.error.inj (congrArg Prod.fst hwrite)
    exact .of_kind rfl

/-- … one that cannot be opened, … -/
theorem ends_of_openForRead (hopen : (relay.openForRead h).on s = (.error f, t)) :
    f.Ends := by
  rw [on_openForRead] at hopen
  split at hopen
  · cases congrArg Prod.fst hopen
  · obtain rfl := Except.error.inj (congrArg Prod.fst hopen)
    exact .of_kind rfl

/-- … and one that cannot be given back. -/
theorem ends_of_release (hrelease : (relay.release h).on s = (.error f, t)) :
    f.Ends := by
  rw [on_release] at hrelease
  split at hrelease
  · cases congrArg Prod.fst hrelease
  · obtain rfl := Except.error.inj (congrArg Prod.fst hrelease)
    exact .of_kind rfl

end Relay

namespace Runner

variable {h : Host σ} {r : Runner} {s t : Session σ} {f : Failure}

private theorem ends_of_launch {program : String} {argv : List Bytes}
    {handle? : Option Handle}
    (hrun : (r.launch h program argv handle?).on s = (.error f, t))
    (hf : f.isFatal = true) : f.Ends := by
  generalize hresult : (Except.error f : Except Failure (Capture × Status)) = result
    at hrun
  cases launches_of_launch hrun with
  | broke hbroke =>
      obtain rfl := Except.error.inj hresult
      exact ⟨hf, hbroke.ne_emptyArgv⟩
  | supervised _ hsupervised =>
      cases hsupervised with
      | broke hbroke =>
          obtain rfl := Except.error.inj hresult
          exact ⟨hf, hbroke.ne_emptyArgv⟩
      | refused _ _ =>
          obtain rfl := Except.error.inj hresult
          cases hf
      | ended _ _ _ => cases hresult

/-- A run of a program that ends the evaluation does not do so for want of a
program. -/
theorem ends_of_run {argv : List Bytes} {input : InputSource} (hargv : argv ≠ [])
    (hrun : (r.run h argv input).on s = (.error f, t)) (hf : f.isFatal = true) :
    f.Ends := by
  generalize hresult : (Except.error f : Except Failure (Capture × Status)) = result
    at hrun
  cases runs_of_run hrun with
  | empty => exact absurd rfl hargv
  | refused _ =>
      obtain rfl := Except.error.inj hresult
      cases hf
  | inherited _ hlaunch => exact ends_of_launch (hresult ▸ hlaunch) hf
  | unopened _ hopen =>
      obtain rfl := Except.error.inj hresult
      exact Relay.ends_of_openForRead hopen
  | fed _ _ hlaunch => exact ends_of_launch (hresult ▸ hlaunch) hf

/-- If its relay cannot be opened, a run comes to that. -/
theorem eq_of_unopened {argv : List Bytes} {relay : Relay} {u : Session σ}
    {result : Except Failure (Capture × Status)} (hargv : argv ≠ [])
    (hnul : argv.any Bytes.hasNul = false)
    (hopen : (relay.openForRead h).on s = (.error f, u))
    (hrun : (r.run h argv (.relay relay)).on s = (result, t)) :
    result = .error f ∧ t = u := by
  cases runs_of_run hrun with
  | empty => exact absurd rfl hargv
  | refused hrefused =>
      rw [hrefused] at hnul
      cases hnul
  | unopened _ hunopened =>
      obtain ⟨heq, rfl⟩ := Prod.mk.inj (hunopened.symm.trans hopen)
      obtain rfl := Except.error.inj heq
      exact ⟨rfl, rfl⟩
  | fed _ hopened _ => cases congrArg Prod.fst (hopened.symm.trans hopen)

end Runner

namespace Output

variable {h : Host σ} {s : Session σ} {f : Failure}

/-- An output that cannot be written ends the evaluation, whatever is noted
about it. -/
theorem ends_of_writeAll {bytes : Bytes}
    (hwrite : ((writeAll h bytes).on s).1 = .error f) (note : String) :
    (f.withNote note).Ends := by
  rw [on_writeAll] at hwrite
  obtain ⟨-, offers, ho⟩ := on_writeFrom_iff.mp (Prod.ext hwrite rfl)
  have hkind : f = .writeZero ∨ (∃ e, f = .ofErrno e) ∨ f = .stalled := by
    obtain ⟨before, o, -, hrefused⟩ | ⟨hstalled, -⟩ := ho.failed rfl
    · exact or_assoc.mp (.inl (Offer.eq_of_refusal? hrefused))
    · exact .inr (.inr hstalled)
  obtain rfl | ⟨e, rfl⟩ | rfl := hkind
  · exact ⟨rfl, fun heq => nomatch congrArg Failure.kind heq⟩
  · exact ⟨rfl, fun heq => nomatch congrArg Failure.kind heq⟩
  · exact ⟨rfl, fun heq => nomatch congrArg Failure.kind heq⟩

end Output

/-! ## Stages of an evaluation -/

namespace Evaluator

variable {h : Host σ} {relays : RelayStore} {r : Runner} {n : Nat} {e : Expression}
  {input : InputSource} {s t : Session σ} {steps : List (Step σ)} {f : Failure}

/-- **An evaluation that returns has passed all its stages.** -/
theorem Completes.trials_eq {output : Capture}
    (he : Completes h relays r n e input s steps output t) :
    trials steps = (e.stagesFrom n).map Trial.passed := by
  induction he with
  | ran _ _ => rfl
  | skipped _ _ hf =>
      rw [trials_append]
      exact congrArg (fun trial => [_, trial]) (Trial.of_goes hf)
  | joined hop _ _ ihl ihr =>
      rw [trials_append, ihl, ihr, Expression.stagesFrom_join hop, List.map_append]
  | piped _ _ _ _ _ ihl ihr =>
      rw [trials_append, trials_append, trials_append, ihl, ihr, Expression.stagesFrom,
        List.map_append]
      simp only [List.map_cons, List.map_append]
      rfl

/-- The failure of an evaluation is none of those that never end one. -/
theorem Fails.ends (he : Fails h relays r n e input s steps f t) : f.Ends := by
  induction he with
  | unprepared hargv => exact Argv.ends_of_ofCommand hargv
  | aborted hargv hrun hf =>
      exact Runner.ends_of_run (Argv.ne_nil_of_ofCommand hargv) hrun hf
  | left _ ihl => exact ihl
  | right _ _ _ ihr => exact ihr
  | uncreated _ hcreate => exact Relay.ends_of_create hcreate
  | unwritten _ _ hwrite _ => exact Relay.ends_of_write hwrite
  | downstream _ _ _ _ _ ihr => exact ihr
  | unreleased _ _ _ _ hrelease => exact Relay.ends_of_release hrelease

/-- A pipe's relay is made and written before its right side is begun. -/
private theorem stopsAt_handOver {p : Pipe} {stages : List Stage} {t₁ t₂ : Session σ}
    {relay : Relay} (upstream : Capture) (hs : StopsAt stages steps f) :
    StopsAt (.create p :: .write p :: stages)
      (handOver h p t t₁ t₂ relay upstream ++ steps) f :=
  ((hs.cons_other rfl).cons rfl).cons rfl

/-- **An evaluation that fails has passed its stages up to one, and fails as that
one does**; the relays around it are given up. -/
theorem Fails.stopsAt (he : Fails h relays r n e input s steps f t) :
    StopsAt (e.stagesFrom n) steps f := by
  induction he with
  | @unprepared n c input s f hargv =>
      have hf := (Argv.ends_of_ofCommand hargv).isFatal
      exact .here _ (congrArg some (Trial.of_fatal hf))
  | @aborted n c input s t argv f hargv hrun hf =>
      have hlast : Step.trial? ⟨s.noted h (.argv argv),
          .call n c argv input (.error f), t⟩ = some ⟨.call n c, some f⟩ :=
        congrArg some (Trial.of_fatal hf)
      exact ((StopsAt.here [] hlast).cons_other rfl).cons rfl
  | @left n op left right _ _ _ _ _ _ ihl =>
      obtain ⟨more, hstages⟩ := Expression.exists_stagesFrom_binary op n left right
      rw [hstages]
      exact ihl.append_stages more
  | right hop hl _ ihr =>
      rw [Expression.stagesFrom_join hop]
      exact ihr.prepend hl.trials_eq
  | @uncreated n left right _ _ t u _ _ f hl hcreate =>
      have hf := (Relay.ends_of_create hcreate).isFatal
      have hlast : Step.trial? ⟨t, .create ⟨left, right, n⟩ (.error f), u⟩
          = some ⟨.create ⟨left, right, n⟩, some f⟩ := congrArg some (Trial.of_fatal hf)
      exact (StopsAt.here _ hlast).prepend hl.trials_eq
  | @unwritten n left right _ _ t t₁ t₂ u _ upstream relay f hl hcreate hwrite _ =>
      have hf := (Relay.ends_of_write hwrite).isFatal
      have hlast : Step.trial? ⟨t₁, .write ⟨left, right, n⟩ relay upstream (.error f), t₂⟩
          = some ⟨.write ⟨left, right, n⟩, some f⟩ := congrArg some (Trial.of_fatal hf)
      have hright := ((StopsAt.here (right.stagesFrom (n + left.size)
        ++ [.release ⟨left, right, n⟩]) hlast).append_drop t₂ u ⟨left, right, n⟩ relay)
      have hcreated : Step.trial? ⟨t, .create ⟨left, right, n⟩ (.ok relay), t₁⟩
          = some (.passed (.create ⟨left, right, n⟩)) := rfl
      exact (hright.cons hcreated).prepend hl.trials_eq
  | @downstream n left right _ _ _ _ _ t₃ u _ _ upstream relay f hl _ _ _ _ ihr =>
      have hright := (ihr.append_stages [.release ⟨left, right, n⟩]).append_drop t₃ u
        ⟨left, right, n⟩ relay
      exact (stopsAt_handOver upstream hright).prepend hl.trials_eq
  | @unreleased n left right _ _ _ _ _ t₃ u _ _ upstream _ relay f hl _ _ hr hrelease =>
      have hf := (Relay.ends_of_release hrelease).isFatal
      have hlast : Step.trial? ⟨t₃, .release ⟨left, right, n⟩ relay (.error f), u⟩
          = some ⟨.release ⟨left, right, n⟩, some f⟩ := congrArg some (Trial.of_fatal hf)
      have hright := (StopsAt.here [] hlast).prepend hr.trials_eq
      exact (stopsAt_handOver upstream hright).prepend hl.trials_eq

/-! ## Whole evaluations -/

/-- The session after it was logged that a composition has been evaluated. -/
def evaluated (h : Host σ) (e : Expression) (start : Instant) (s : Session σ) :
    Session σ :=
  Session.noted { s with machine := (h.now s.machine).2 } h
    (.evaluated e.display ((h.now s.machine).1 - start))

/-- The result of an echo. -/
def echoed (written : Except Failure Unit) : Except Failure Unit :=
  written.mapError (·.withNote echoNote)

/-- A whole evaluation makes the steps, tries the stages, comes to the result and
leaves the last session. -/
inductive Evaluates (h : Host σ) (ev : Evaluator) (e : Expression) (s : Session σ) :
    List (Step σ) → List Trial → Except Failure Capture → Session σ → Prop where
  | failed {steps : List (Step σ)} {f : Failure} {t : Session σ}
      (he : Fails h ev.relays (ev.runner (h.now s.machine).1) 0 e .inherited
        (started h s) steps f t) :
      Evaluates h ev e s steps (trials steps) (.error f) t
  | quiet {steps : List (Step σ)} {output : Capture} {t : Session σ}
      (he : Completes h ev.relays (ev.runner (h.now s.machine).1) 0 e .inherited
        (started h s) steps output t) (hecho : ev.isEchoing = false) :
      Evaluates h ev e s steps (trials steps) (.ok output)
        (evaluated h e (h.now s.machine).1 t)
  | echoing {steps : List (Step σ)} {output : Capture} {t u : Session σ}
      {written : Except Failure Unit}
      (he : Completes h ev.relays (ev.runner (h.now s.machine).1) 0 e .inherited
        (started h s) steps output t) (hecho : ev.isEchoing = true)
      (hwrite : (Output.writeAll h output.bytes).on
        (evaluated h e (h.now s.machine).1 t) = (written, u)) :
      Evaluates h ev e s steps (trials steps ++ [.of .echo (echoed written)])
        ((echoed written).map fun _ => output) u

theorem evaluates_of_evaluate {ev : Evaluator} {result : Except Failure Capture}
    (hrun : (ev.evaluate h e).on s = (result, t)) :
    ∃ steps tried, Evaluates h ev e s steps tried result t := by
  rcases hdispatch : (dispatch h ev.relays (ev.runner (h.now s.machine).1) e
    .inherited).on (started h s) with ⟨dispatched, u⟩
  have hstart : (Host.ask h.now).on s = (.ok (h.now s.machine).1, started h s) := rfl
  rw [evaluate_eq, Attempt.on_bind_ok _ hstart] at hrun
  cases dispatched with
  | error f =>
      rw [Attempt.on_bind_error _ hdispatch] at hrun
      obtain ⟨rfl, rfl⟩ := Prod.mk.inj hrun
      obtain ⟨steps, he⟩ := (dispatch_eq_error_iff 0).mp hdispatch
      exact ⟨steps, _, .failed he⟩
  | ok output =>
      obtain ⟨steps, he⟩ := (dispatch_eq_ok_iff 0).mp hdispatch
      rw [Attempt.on_bind_ok _ hdispatch, finishing,
        Attempt.on_bind_ok _ (Attempt.on_ask h.now u), Attempt.on_note_bind] at hrun
      cases hecho : ev.isEchoing with
      | false =>
          rw [hecho] at hrun
          obtain ⟨rfl, rfl⟩ := Prod.mk.inj hrun
          exact ⟨steps, _, .quiet he hecho⟩
      | true =>
          rcases hwrite : (Output.writeAll h output.bytes).on
            (evaluated h e (h.now s.machine).1 u) with ⟨written, v⟩
          have hlift : Attempt.on (ExceptT.lift (Output.writeAll h output.bytes))
              (evaluated h e (h.now s.machine).1 u) = (.ok written, v) := by
            rw [Attempt.on_lift, hwrite]
          rw [evaluated] at hlift
          rw [hecho, if_pos rfl, Attempt.on_bind_ok _ hlift] at hrun
          cases written with
          | ok _ =>
              obtain ⟨rfl, rfl⟩ := Prod.mk.inj hrun
              exact ⟨steps, _, .echoing he hecho hwrite⟩
          | error f =>
              obtain ⟨rfl, rfl⟩ := Prod.mk.inj hrun
              exact ⟨steps, _, .echoing he hecho hwrite⟩

/-- How an evaluation that made the steps and tried the stages came to its
result. -/
structure Unwinding (h : Host σ) (ev : Evaluator) (e : Expression)
    (steps : List (Step σ)) (tried : List Trial) (result : Except Failure Capture) :
    Prop where
  /-- The plan has the calls for the commands from left to right. -/
  order : (ev.plan e).filterMap Stage.call? = e.leaves.zipIdx
  /-- An evaluation that returns has passed the whole plan, … -/
  returned : ∀ output, result = .ok output →
    tried = (ev.plan e).map Trial.passed ∧
      (turns steps).map (fun turn => (turn.command, turn.place)) = e.leaves.zipIdx
  /-- … and one that fails has passed the stages before one that ends it.  The
  commands called are those whose calls come up to that stage. -/
  stopped : ∀ f, result = .error f → ∃ done stage todo,
    ev.plan e = done ++ stage :: todo ∧
      tried = done.map Trial.passed ++ [⟨stage, some f⟩] ∧
        (turns steps).map (fun turn => (turn.command, turn.place))
          = (done ++ [stage]).filterMap Stage.call?
  /-- So it fails just when a stage does, with the failure of the first. -/
  error_iff : ∀ f, result = .error f ↔ tried.findSome? Trial.failure = some f
  /-- After a step that failed, relays are given up and nothing else is done. -/
  cleanup : steps.Pairwise fun first later => first.Fails → later.IsDrop
  /-- No evaluation ends because a program could not be started, or for want of
  one. -/
  ends : ∀ f, result = .error f → (∀ errno, f.kind ≠ .spawn errno) ∧ f ≠ .emptyArgv
  /-- The fault of a program that could not be started has the error code of the
  failure. -/
  skipped : ∀ turn ∈ turns steps, ∀ f, turn.result = .error f → f.isFatal = false →
    f.kind = .spawn (spawnErrno f)
  /-- A relay that cannot be opened fails the call, and nothing is started. -/
  opening : ∀ turn ∈ turns steps, ∀ relay, turn.input = .relay relay →
    turn.argv.any Bytes.hasNul = false → ∀ f u,
      (relay.openForRead h).on turn.before = (.error f, u) →
        turn.result = .error f ∧ turn.after = u

section Unwinding

variable {ev : Evaluator} {tried : List Trial} {done todo : List Stage} {stage : Stage}

theorem filterMap_call?_plan (ev : Evaluator) (e : Expression) :
    (ev.plan e).filterMap Stage.call? = e.leaves.zipIdx := by
  rw [plan, List.filterMap_append, e.filterMap_call?_stagesFrom]
  cases ev.isEchoing <;> exact List.append_nil _

theorem Fails.prepared (he : Fails h relays r n e input s steps f t) :
    ∀ turn ∈ turns steps, Argv.ofCommand turn.command = .ok turn.argv := by
  induction he with
  | unprepared _ => exact List.forall_mem_nil _
  | aborted hargv _ _ => exact List.forall_mem_singleton.mpr hargv
  | left _ ihl => exact ihl
  | right _ hl _ ihr =>
      rw [turns_append, List.forall_mem_append]
      exact ⟨fun turn hturn => (hl.answered turn hturn).prepared, ihr⟩
  | uncreated hl _ =>
      rw [turns_append, List.forall_mem_append]
      exact ⟨fun turn hturn => (hl.answered turn hturn).prepared, List.forall_mem_nil _⟩
  | unwritten hl _ _ _ =>
      rw [turns_append, List.forall_mem_append]
      exact ⟨fun turn hturn => (hl.answered turn hturn).prepared, List.forall_mem_nil _⟩
  | downstream hl _ _ _ _ ihr =>
      rw [turns_pipe (isQuiet_drop _ _ _ _), List.forall_mem_append]
      exact ⟨fun turn hturn => (hl.answered turn hturn).prepared, ihr⟩
  | unreleased hl _ _ hr _ =>
      rw [turns_pipe (isQuiet_release _ _ _ _ _), List.forall_mem_append]
      exact ⟨fun turn hturn => (hl.answered turn hturn).prepared,
        fun turn hturn => (hr.answered turn hturn).prepared⟩

/-- The one failure that does not end an evaluation is that of a program that
could not be started. -/
private theorem spawn_of_goes (turn : Turn σ) (_ : turn ∈ turns steps) (f : Failure)
    (_ : turn.result = .error f) (hf : f.isFatal = false) :
    f.kind = .spawn (spawnErrno f) := by
  unfold Failure.isFatal at hf
  unfold spawnErrno
  split at hf
  · next errno hkind => rw [hkind]
  · cases hf

/-- A call whose relay cannot be opened comes to that. -/
private theorem opening_of_linked (hlinked : Linked h relays r s steps t)
    (hprepared : ∀ turn ∈ turns steps, Argv.ofCommand turn.command = .ok turn.argv) :
    ∀ turn ∈ turns steps, ∀ relay, turn.input = .relay relay →
      turn.argv.any Bytes.hasNul = false → ∀ f u,
        (relay.openForRead h).on turn.before = (.error f, u) →
          turn.result = .error f ∧ turn.after = u := by
  intro turn hturn relay hinput hnul f u hopen
  have hrun := hlinked.leads (exists_step_of_mem_turns hturn)
  have hargv := Argv.ne_nil_of_ofCommand (hprepared turn hturn)
  simp only [Event.Leads, hinput] at hrun
  exact Runner.eq_of_unopened hargv hnul hopen hrun

/-- There is no failure among stages that were passed. -/
private theorem findSome?_passed (done : List Stage) :
    (done.map Trial.passed).findSome? Trial.failure = none := by
  rw [List.findSome?_eq_none_iff]
  intro trial htrial
  obtain ⟨stage, -, rfl⟩ := List.mem_map.mp htrial
  rfl

/-- An evaluation that has passed the whole plan. -/
private theorem unwinding_of_passed {output : Capture}
    (htried : tried = (ev.plan e).map Trial.passed)
    (hcalls : (turns steps).map (fun turn => (turn.command, turn.place))
      = e.leaves.zipIdx)
    (hsteps : trials steps = (e.stagesFrom 0).map Trial.passed)
    (hlinked : Linked h relays r s steps t)
    (hprepared : ∀ turn ∈ turns steps, Argv.ofCommand turn.command = .ok turn.argv) :
    Unwinding h ev e steps tried (.ok output) where
  order := filterMap_call?_plan ev e
  returned _ _ := ⟨htried, hcalls⟩
  stopped := by simp
  error_iff f := by
    simp [htried, findSome?_passed]
  cleanup := pairwise_of_not_fails (not_fails_of_passed hsteps)
  ends := by simp
  skipped := spawn_of_goes
  opening := opening_of_linked hlinked hprepared

/-- An evaluation that was ended by a stage. -/
private theorem unwinding_of_stopped (hplan : ev.plan e = done ++ stage :: todo)
    (htried : tried = done.map Trial.passed ++ [⟨stage, some f⟩])
    (hcalls : (turns steps).map (fun turn => (turn.command, turn.place))
      = (done ++ [stage]).filterMap Stage.call?)
    (hcleanup : steps.Pairwise fun first later => first.Fails → later.IsDrop)
    (hends : f.Ends) (hlinked : Linked h relays r s steps t)
    (hprepared : ∀ turn ∈ turns steps, Argv.ofCommand turn.command = .ok turn.argv) :
    Unwinding h ev e steps tried (.error f) where
  order := filterMap_call?_plan ev e
  returned := by simp
  stopped := by
    rintro _ ⟨⟩
    exact ⟨done, stage, todo, hplan, htried, hcalls⟩
  error_iff g := by
    rw [htried, List.findSome?_append, findSome?_passed]
    simp
  cleanup := hcleanup
  ends := by
    rintro _ ⟨⟩
    exact ⟨fun errno hkind => hends.ne_spawn hkind, hends.ne_emptyArgv⟩
  skipped := spawn_of_goes
  opening := opening_of_linked hlinked hprepared

theorem Evaluates.unwinding {result : Except Failure Capture}
    (he : Evaluates h ev e s steps tried result t) :
    Unwinding h ev e steps tried result := by
  cases he with
  | failed he =>
      have hstops : StopsAt (ev.plan e) steps _ := he.stopsAt.append_stages _
      obtain ⟨done, stage, todo, hplan, htrials⟩ := hstops.trials_eq
      have hcalls := filterMap_call?_trials steps
      rw [htrials, List.filterMap_append, filterMap_call?_passed] at hcalls
      refine unwinding_of_stopped hplan htrials ?_ hstops.pairwise he.ends he.linked
        he.prepared
      rw [← hcalls, List.filterMap_append]
      rfl
  | quiet he hecho =>
      have hcalls := filterMap_call?_trials steps
      rw [he.trials_eq, filterMap_call?_passed, e.filterMap_call?_stagesFrom] at hcalls
      refine unwinding_of_passed ?_ hcalls.symm he.trials_eq he.linked fun turn hturn =>
        (he.answered turn hturn).prepared
      rw [he.trials_eq, plan, hecho]
      exact congrArg _ (List.append_nil _).symm
  | @echoing output u _ written he hecho hwrite =>
      have hplan : ev.plan e = e.stagesFrom 0 ++ [.echo] := by
        rw [plan, hecho, if_pos rfl]
      have hcalls := filterMap_call?_trials steps
      rw [he.trials_eq, filterMap_call?_passed, e.filterMap_call?_stagesFrom] at hcalls
      have hprepared : ∀ turn ∈ turns steps,
          Argv.ofCommand turn.command = .ok turn.argv :=
        fun turn hturn => (he.answered turn hturn).prepared
      cases written with
      | ok _ =>
          refine unwinding_of_passed ?_ hcalls.symm he.trials_eq he.linked hprepared
          rw [he.trials_eq, hplan, List.map_append]
          rfl
      | error f =>
          have hends : (f.withNote echoNote).Ends :=
            Output.ends_of_writeAll (congrArg Prod.fst hwrite) _
          refine unwinding_of_stopped hplan ?_ ?_
            (pairwise_of_not_fails (not_fails_of_passed he.trials_eq)) hends he.linked
            hprepared
          · rw [he.trials_eq]
            exact congrArg (_ ++ [·]) (Trial.of_fatal hends.isFatal)
          · rw [← hcalls, List.filterMap_append, e.filterMap_call?_stagesFrom]
            exact (List.append_nil _).symm

/-- **An evaluation fails just when a stage does, with the failure of the first
one.**  This is so for every composition and every host, whatever it answers. -/
theorem evaluate_unwinds (h : Host σ) (ev : Evaluator) (e : Expression)
    (s : Session σ) :
    ∃ (steps : List (Step σ)) (tried : List Trial),
      Evaluates h ev e s steps tried ((ev.evaluate h e).on s).1
          ((ev.evaluate h e).on s).2 ∧
        Unwinding h ev e steps tried ((ev.evaluate h e).on s).1 := by
  obtain ⟨steps, tried, he⟩ := evaluates_of_evaluate (rfl : (ev.evaluate h e).on s = _)
  exact ⟨steps, tried, he, he.unwinding⟩

open Sandbox Sandbox.Sample in
/-- The second command of a pipe has an argument of no known kind, and the relay
that is given up for it cannot be removed either. -/
example :
    ((Sample.evaluator.evaluate
      { host oracle with remove := fun _ m => (.error .accessDenied, m) }
      (.binary .pipe (say "ab") (.simple ⟨"cat", [.unrecognized 7]⟩))).on start).1
        = .error (.unknownKind 1 "cat" 7) := by
  decide +kernel

end Unwinding

end Evaluator

end CommandExpr
