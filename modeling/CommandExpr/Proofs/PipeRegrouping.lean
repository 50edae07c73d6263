import CommandExpr.Proofs.Beside
import CommandExpr.Proofs.Regrouping
import CommandExpr.Proofs.Sandbox

/-!
# Pipes grouped otherwise

If `a` goes through a pipe to `b`, it does not matter whether what comes after `b` is
put next to the pipe, `(a | b) op c`, or into its right side, `a | (b op c)`.  The same
programs run on the same input, with relays of the same numbers, and the evaluation
comes to the same output or the same failure.  Only the relay of `a` is given back
later in the second case: not when `b` has ended but when `c` has.

This is so on hosts whose programs leave relays alone.  In the meantime the second
evaluation runs beside the first, in sessions in which one relay more is there.

## Main results

* `Course.regroup_pipe` — what a course of the one grouping is in the other.
* `dispatch_regroup_pipe` — the laws, for every operator.
-/

namespace CommandExpr

variable {σ ι : Type}

/-! ## Programs and relays of an evaluation -/

/-- A program that was run. -/
structure Execution where
  /-- The place of its command. -/
  place : Nat
  /-- The command. -/
  command : Command
  /-- Its argument vector. -/
  argv : List Bytes
  /-- The number of the relay that it reads and what this contains; none if it has the
  input of the host. -/
  stdin : Option (UInt64 × Option Bytes)
  /-- What came of it. -/
  result : Except Failure (Capture × Status)

/-- What there is to read for a program. -/
def InputSource.stdin (files : Files σ ι) (m : σ) :
    InputSource → Option (UInt64 × Option Bytes)
  | .inherited => none
  | .relay source => some (source.id, files.content m (files.entry source.path))

/-- The program that is run in a call. -/
def Turn.execution (files : Files σ ι) (turn : Turn σ) : Execution where
  place := turn.place
  command := turn.command
  argv := turn.argv
  stdin := turn.input.stdin files turn.before.machine
  result := turn.result

/-- The programs that were run, in order. -/
def executions (files : Files σ ι) (steps : List (Step σ)) : List Execution :=
  (turns steps).map (Turn.execution files)

/-- The numbers of the relays that were made, in order. -/
def relayIds (steps : List (Step σ)) : List UInt64 :=
  (creations steps).map fun made => made.relay.id

@[simp]
theorem executions_append (files : Files σ ι) (a b : List (Step σ)) :
    executions files (a ++ b) = executions files a ++ executions files b := by
  simp [executions]

@[simp]
theorem relayIds_append (a b : List (Step σ)) :
    relayIds (a ++ b) = relayIds a ++ relayIds b := by
  simp [relayIds]

section Same

variable {files : Files σ ι} {store : RelayStore} {alike : σ → σ → Prop} {x : UInt64}
  {a b : List (Step σ)}

/-- The calls and the relays can be told from the deeds. -/
private theorem executions_eq_of_deeds (hdeeds : deeds a = deeds b) :
    executions files a = executions files b := by
  have hturns : ∀ steps : List (Step σ), turns steps = (deeds steps).filterMap fun deed =>
      match deed.2.1 with
      | .call place command argv input result =>
          some ⟨place, command, argv, input, result, deed.1, deed.2.2⟩
      | _ => none := by
    intro steps
    rw [deeds, List.filterMap_map, turns]
    congr 1
    funext step
    obtain ⟨before, event, after⟩ := step
    cases event <;> rfl
  rw [executions, executions, hturns, hturns, hdeeds]

private theorem relayIds_eq_of_deeds (hdeeds : deeds a = deeds b) :
    relayIds a = relayIds b := by
  have hids : ∀ steps : List (Step σ), relayIds steps = (deeds steps).filterMap fun deed =>
      match deed.2.1 with
      | .create made => made.toOption.map Relay.id
      | _ => none := by
    intro steps
    rw [deeds, List.filterMap_map, relayIds, creations, List.map_filterMap]
    congr 1
    funext step
    obtain ⟨before, event, after⟩ := step
    rcases event with _ | _ | _ | ⟨_, _ | _⟩ | _ | _ | _ <;> rfl
  rw [hids, hids, hdeeds]

private theorem Abreast.filterMap_eq {γ : Type} {f : Step σ → Option γ}
    (hf : ∀ {p q : Step σ}, p.Beside files store alike x q → f p = f q)
    (hab : Abreast files store alike x a b) : a.filterMap f = b.filterMap f := by
  induction hab with
  | nil => rfl
  | cons hstep _ ih => rw [List.filterMap_cons, List.filterMap_cons, hf hstep, ih]

private theorem stdin_eq {s t : Session σ} {input input' : InputSource}
    (hin : input.Twins store x input') (hb : files.Beside store alike x s t) :
    input.stdin files s.machine = input'.stdin files t.machine := by
  cases hin with
  | inherited => rfl
  | relay hab =>
      rw [InputSource.stdin, InputSource.stdin, hab.right_path, hab.left_path, hab.id,
        hb.contents _ hab.ne]

theorem Abreast.executions_eq (hab : Abreast files store alike x a b) :
    executions files a = executions files b := by
  rw [executions, executions, turns, turns, List.map_filterMap, List.map_filterMap]
  refine hab.filterMap_eq fun {p q} hstep => ?_
  obtain ⟨before, event, after⟩ := p
  obtain ⟨before', event', after'⟩ := q
  have hbefore := hstep.before
  cases hstep.event with
  | call place command argv hin result =>
      simp only [Step.turn?, Option.map_some, Turn.execution, stdin_eq hin hbefore]
  | _ => rfl

theorem Abreast.relayIds_eq (hab : Abreast files store alike x a b) :
    relayIds a = relayIds b := by
  rw [relayIds, relayIds, creations, creations, List.map_filterMap, List.map_filterMap]
  refine hab.filterMap_eq fun {p q} hstep => ?_
  obtain ⟨before, event, after⟩ := p
  obtain ⟨before', event', after'⟩ := q
  cases hstep.event with
  | create p p' hpair =>
      cases hpair with
      | ok hab => simp only [Step.creation?, Option.map_some, hab.id]
      | error f => rfl
  | _ => rfl

end Same

/-! ## A relay that stays longer -/

/-- Two sessions are alike, and differ in no relay. -/
def Files.Coincide (files : Files σ ι) (store : RelayStore) (alike : σ → σ → Prop)
    (s t : Session σ) : Prop :=
  ∀ x, files.Beside store alike x s t

/-- The steps of two evaluations that differ only in that the relay for the output of a
composition is given back earlier in the first. -/
inductive Outlives (files : Files σ ι) (store : RelayStore) (alike : σ → σ → Prop)
    (source : Expression) : List (Step σ) → List (Step σ) → Prop where
  /-- It is given back at the same moment, or it was never made. -/
  | never {steps steps' : List (Step σ)} (hdeeds : deeds steps = deeds steps') :
      Outlives files store alike source steps steps'
  /-- The rest is done in the second evaluation before it is given back. -/
  | later {shared shared' rest rest' : List (Step σ)} {p p' : Pipe} {relay : Relay}
      {last : Event} {s s' t t' : Session σ} (hsource : p.left = source)
      (hsource' : p'.left = source) (hshared : deeds shared = deeds shared')
      (hrest : Abreast files store alike relay.id rest rest')
      (hlast : last = .release p' relay (.ok ()) ∨ last = .drop p' relay) :
      Outlives files store alike source (shared ++ ⟨s, .release p relay (.ok ()), t⟩ :: rest)
        (shared' ++ (rest' ++ [⟨s', last, t'⟩]))

section Outlives

variable {files : Files σ ι} {store : RelayStore} {alike : σ → σ → Prop}
  {source : Expression} {steps steps' : List (Step σ)}

/-- The same programs are run, on the same input, … -/
theorem Outlives.executions_eq (ho : Outlives files store alike source steps steps') :
    executions files steps = executions files steps' := by
  cases ho with
  | never hdeeds => exact executions_eq_of_deeds hdeeds
  | @later shared shared' rest rest' p _ relay last s s' t t' _ _ hshared hrest hlast =>
      have hgiven : executions files (⟨s, .release p relay (.ok ()), t⟩ :: rest)
          = executions files rest := rfl
      have hquiet : executions files [⟨s', last, t'⟩] = [] := by
        rcases hlast with rfl | rfl <;> rfl
      rw [executions_append, executions_append, executions_append, hgiven, hquiet,
        hrest.executions_eq, List.append_nil, executions_eq_of_deeds hshared]

/-- … and relays of the same numbers are made. -/
theorem Outlives.relayIds_eq (ho : Outlives files store alike source steps steps') :
    relayIds steps = relayIds steps' := by
  cases ho with
  | never hdeeds => exact relayIds_eq_of_deeds hdeeds
  | @later shared shared' rest rest' p _ relay last s s' t t' _ _ hshared hrest hlast =>
      have hgiven : relayIds (⟨s, .release p relay (.ok ()), t⟩ :: rest) = relayIds rest :=
        rfl
      have hquiet : relayIds [⟨s', last, t'⟩] = [] := by
        rcases hlast with rfl | rfl <;> rfl
      rw [relayIds_append, relayIds_append, relayIds_append, hgiven, hquiet,
        hrest.relayIds_eq, List.append_nil, relayIds_eq_of_deeds hshared]

end Outlives

/-! ## Courses grouped otherwise -/

namespace Evaluator

section Courses

variable [DecidableEq ι] {files : Files σ ι} {h : Host σ} {relays : RelayStore}
  {alike : σ → σ → Prop} {r : Runner} {n : Nat} {input : InputSource}
  {s t t₁ t₂ t₃ u : Session σ} {steps ta tb : List (Step σ)}
  {result : Except Failure Capture} {op : Operator} {a b c : Expression}

variable (d : files.Discreet h relays alike) (w : files.Lawful h relays)
  (o : files.Orderly h relays (files.outside relays))

omit [DecidableEq ι] in
include d in
private theorem coincide_refl (s : Session σ) : files.Coincide relays alike s s :=
  fun x => .refl d x s

include w o in
/-- Where relays are left alone they are in the end what they were at first. -/
private theorem coincide_of_beside {e e' : Expression} {steps' : List (Step σ)}
    {result' : Except Failure Capture} {x : UInt64}
    (hc : Course h relays r n e input s steps result t)
    (hc' : Course h relays r n e' input s steps' result' u)
    (hb : files.Beside relays alike x t u) : files.Coincide relays alike t u :=
  fun _ => ⟨hb.next, hb.alike, fun i _ =>
    ((hc.leaves o w).content_eq i).symm.trans ((hc'.leaves o w).content_eq i)⟩

omit d in
include w o in
/-- A failure in the first pipe comes before the groupings differ. -/
private theorem Follows.regroup_failed {upstream : Capture} {f : Failure}
    (ha : Completes h relays r n a input s ta upstream t₁)
    (hf : Follows h relays r .pipe ⟨a, b, n⟩ upstream t₁ tb (.error f) t) :
    ∃ tb', Course h relays r n (.binary .pipe a (.binary op b c)) input s (ta ++ tb')
      (.error f) t ∧ deeds tb = deeds tb' := by
  generalize hresult : (Except.error f : Except Failure Capture) = failed at hf
  cases hf with
  | joined hop => exact absurd rfl hop
  | uncreated hcreate => exact ⟨_, Follows.course (.uncreated hcreate) ha, rfl⟩
  | unwritten hcreate hwrite hdrop =>
      exact ⟨_, Follows.course (.unwritten hcreate hwrite hdrop) ha, rfl⟩
  | downstream hcreate hwrite hb hdrop =>
      have hleft : Course h relays r (n + a.size) (.binary op b c) _ _ _ _ _ :=
        .fails (.left (course_error_iff.mp hb))
      exact ⟨_, Follows.course (.downstream hcreate hwrite hleft hdrop) ha,
        deeds_pipe rfl rfl rfl⟩
  | @released _ _ _ _ _ _ _ _ _ _ released hcreate hwrite hb hrelease =>
      obtain ⟨rfl, -⟩ := removes_of_release o w (w.create_ok hcreate)
        (since_course w o hcreate hwrite hb) hrelease
      cases hresult

include d w o in
/-- Once the first pipe has returned, what comes next runs beside itself, and the relay is
given back after it. -/
private theorem Follows.regroup_returned (hclock : r.deadline = none ∨ Blind alike h.now)
    {upstream middle : Capture} {relay : Relay} {tr : List (Step σ)}
    (ha : Completes h relays r n a input s ta upstream t)
    (hcreate : (Relay.create h relays).on t = (.ok relay, t₁))
    (hwrite : (relay.write h upstream).on t₁ = (.ok (), t₂))
    (hb : Completes h relays r (n + a.size) b (.relay relay)
      (t₂.noted h (feedNotice relay b)) tb middle t₃)
    {s₁ : Session σ} (hrelease : (relay.release h).on t₃ = (.ok (), s₁))
    (hcount : Relay.maxAttempts * (Expression.binary op b c).pipeCount < 2 ^ 64)
    (hf : Follows h relays r op ⟨.binary .pipe a b, c, n⟩
      (Operator.pipe.join upstream middle) s₁ tr result u) :
    ∃ (tr' : List (Step σ)) (last : Event) (u₁ u' : Session σ),
      Course h relays r n (.binary .pipe a (.binary op b c)) input s
          (ta ++ (handOver h ⟨a, .binary op b c, n⟩ t t₁ t₂ relay upstream
            ++ ((tb ++ tr') ++ [⟨u₁, last, u'⟩]))) result u' ∧
        Abreast files relays alike relay.id tr tr' ∧
        (last = .release ⟨a, .binary op b c, n⟩ relay (.ok ()) ∨
          last = .drop ⟨a, .binary op b c, n⟩ relay) ∧
        files.Beside relays alike relay.id u u' := by
  obtain ⟨hpath, hnext⟩ := (Relay.create_eq_iff.mp hcreate).takes.2 relay rfl
  have hmakes := w.create_ok hcreate
  have hfed : (t₂.noted h (feedNotice relay b)).nextRelay = relay.id + 1 :=
    (Relay.nextRelay_of_write hwrite).trans hnext
  have hfresh := Fresh.of_lt relay.id hcount
  rw [Expression.pipeCount, Nat.mul_add, ← hfed] at hfresh
  have hrest := hfresh.after (Course.takes (.completes hb))
  rw [← Relay.nextRelay_of_release hrelease] at hrest
  have hgives := (d.givesBack_of_release w o hmakes hpath
    (since_course w o hcreate hwrite (.completes hb)) hrelease).2
  have hbeside := (Files.Beside.refl d relay.id t₃).givesBack_left d hgives
  have hplace : n + (Expression.binary .pipe a b).size = (n + a.size) + b.size :=
    (Nat.add_assoc n a.size b.size).symm
  have hbytes : op = .pipe → (Operator.pipe.join upstream middle).bytes = middle.bytes :=
    fun _ => rfl
  obtain ⟨tr', second, u₁, hf', rfl, habreast, hb'⟩ := Follows.beside d w o
    (Course.beside d w o hclock relay.id c) hplace hbytes hbeside hrest hf
  have hright := hf'.course hb
  have hhand := since_course w o hcreate hwrite hright
  cases second with
  | error f =>
      rcases hdrop : (relay.drop h).on u₁ with ⟨⟨⟩, u'⟩
      exact ⟨tr', _, u₁, u', Follows.course (.downstream hcreate hwrite hright hdrop) ha,
        habreast, Or.inr rfl,
        hb'.givesBack_right d (d.givesBack_of_drop w o hmakes hpath hhand hdrop)⟩
  | ok output =>
      rcases hgiven : (relay.release h).on u₁ with ⟨released, u'⟩
      obtain ⟨rfl, hgives'⟩ := d.givesBack_of_release w o hmakes hpath hhand hgiven
      have hwhole := Follows.course (.released hcreate hwrite hright hgiven) ha
      have hjoin : op.join (Operator.pipe.join upstream middle) output
          = Operator.pipe.join upstream (op.join middle output) :=
        op.join_sequence upstream middle output
      refine ⟨tr', _, u₁, u', ?_, habreast, Or.inl rfl, hb'.givesBack_right d hgives'⟩
      rw [Except.map, hjoin]
      exact hwhole

include d w o in
/-- **What `(a | b) op c` does, `a | (b op c)` does too**, but for when the relay of `a` is
given back. -/
theorem Course.regroup_pipe (hclock : r.deadline = none ∨ Blind alike h.now)
    (hcount : Relay.maxAttempts * (Expression.binary op b c).pipeCount < 2 ^ 64)
    (hc : Course h relays r n (.binary op (.binary .pipe a b) c) input s steps result t) :
    ∃ (steps' : List (Step σ)) (u : Session σ),
      Course h relays r n (.binary .pipe a (.binary op b c)) input s steps' result u ∧
        Outlives files relays alike a steps steps' ∧ files.Coincide relays alike t u := by
  rcases course_binary_iff.mp hc with
    ⟨f, hleft, rfl⟩ | ⟨tl, first, t₂, tr, hleft, hf, rfl⟩
  · rcases course_binary_iff.mp (.fails hleft) with
      ⟨_, ha, hfail⟩ | ⟨ta, upstream, t₁, tb, ha, hf, rfl⟩
    · obtain rfl := Except.error.inj hfail
      exact ⟨steps, t, .fails (.left ha), .never rfl, coincide_refl d t⟩
    · obtain ⟨tb', hc', hdeeds⟩ := Follows.regroup_failed w o ha hf
      refine ⟨_, t, hc', .never ?_, coincide_refl d t⟩
      rw [deeds_append, deeds_append, hdeeds]
  · cases hleft with
    | joined hop => exact absurd rfl hop
    | @piped _ _ _ _ _ t₁ s₁ s₂ t₃ _ ta tb upstream middle relay ha hcreate hwrite hb
        hrelease =>
        obtain ⟨tr', last, u₁, u, hc', habreast, hlast, hbeside⟩ :=
          Follows.regroup_returned d w o hclock ha hcreate hwrite hb hrelease hcount hf
        have hover : deeds (handOver h ⟨a, b, n⟩ t₁ s₁ s₂ relay upstream)
            = deeds (handOver h ⟨a, .binary op b c, n⟩ t₁ s₁ s₂ relay upstream) :=
          deeds_handOver rfl rfl
        have hshared : deeds (ta ++ (handOver h ⟨a, b, n⟩ t₁ s₁ s₂ relay upstream ++ tb))
            = deeds (ta ++
                (handOver h ⟨a, .binary op b c, n⟩ t₁ s₁ s₂ relay upstream ++ tb)) := by
          rw [deeds_append, deeds_append, deeds_append, deeds_append, hover]
        have houtlives : Outlives files relays alike a
            ((ta ++ (handOver h ⟨a, b, n⟩ t₁ s₁ s₂ relay upstream ++ tb)) ++
              ⟨t₃, .release ⟨a, b, n⟩ relay (.ok ()), t₂⟩ :: tr)
            ((ta ++ (handOver h ⟨a, .binary op b c, n⟩ t₁ s₁ s₂ relay upstream ++ tb)) ++
              (tr' ++ [⟨u₁, last, u⟩])) :=
          .later rfl rfl hshared habreast hlast
        refine ⟨_, u, hc', ?_, coincide_of_beside w o hc hc' hbeside⟩
        simpa only [List.append_assoc, List.cons_append, List.nil_append] using houtlives

end Courses

/-! ## The laws -/

/-- In a session the evaluations of two compositions do the same and come to the same,
but for the relay for the output of a third one, which is given back earlier in the
first evaluation. -/
structure SameFlow (files : Files σ ι) (h : Host σ) (relays : RelayStore)
    (alike : σ → σ → Prop) (r : Runner) (source e e' : Expression) (input : InputSource)
    (s : Session σ) : Prop where
  /-- They come to the same output or the same failure. -/
  result : ((dispatch h relays r e input).on s).1 = ((dispatch h relays r e' input).on s).1
  /-- They run the same programs on the same input, in the same order, … -/
  course : ∃ (steps steps' : List (Step σ)) (result : Except Failure Capture)
    (t t' : Session σ), Course h relays r 0 e input s steps result t ∧
      Course h relays r 0 e' input s steps' result t' ∧
      executions files steps = executions files steps' ∧
      /- … make relays of the same numbers, … -/
      relayIds steps = relayIds steps' ∧
      /- … differ only in how long one of these stays, … -/
      Outlives files relays alike source steps steps' ∧
      /- … and leave sessions with the same relays and the same next number. -/
      files.Coincide relays alike t t'

/-- **The right side of a pipe may take in what comes after it.**  This is so for all
operators and compositions, inputs and capacities, wherever the evaluation fails, on
every host whose programs leave relays alone and know only of the one they are given;
a relay in hand can be removed.  The clock may go as it likes if there is no deadline;
with one, reading it must not tell of relays either.  Relays are numbered with 64 bits,
so there are not as many pipes that the numbers come round while the first relay stays. -/
theorem dispatch_regroup_pipe [DecidableEq ι] {files : Files σ ι} {h : Host σ}
    {relays : RelayStore} {alike : σ → σ → Prop} (d : files.Discreet h relays alike)
    (w : files.Lawful h relays) (o : files.Orderly h relays (files.outside relays))
    (r : Runner) (hclock : r.deadline = none ∨ Blind alike h.now) (op : Operator)
    (a : Expression) {b c : Expression}
    (hcount : Relay.maxAttempts * (Expression.binary op b c).pipeCount < 2 ^ 64)
    (input : InputSource) (s : Session σ) :
    SameFlow files h relays alike r a (.binary op (.binary .pipe a b) c)
      (.binary .pipe a (.binary op b c)) input s := by
  obtain ⟨steps, hc⟩ := (dispatch_eq_iff 0).mp
    (rfl : (dispatch h relays r (.binary op (.binary .pipe a b) c) input).on s = _)
  obtain ⟨steps', t', hc', houtlives, hcoincide⟩ := hc.regroup_pipe d w o hclock hcount
  refine ⟨?_, steps, steps', _, _, t', hc, hc', houtlives.executions_eq,
    houtlives.relayIds_eq, houtlives, hcoincide⟩
  rw [(dispatch_eq_iff 0).mpr ⟨steps', hc'⟩]
  rfl

open Sandbox Sandbox.Sample in
/-- Two words go through a pipe, and what comes of it through another, on whose right side
a program is not there. -/
theorem dispatch_regroup_pipe_sample :
    SameFlow Sandbox.files (host oracle) store (State.Alike store) Sample.runner
      (.binary .concat (say "ab") (say "cd"))
      (.binary .pipe (.binary .pipe (.binary .concat (say "ab") (say "cd")) (call "cat"))
        (.binary .concat (call "cat") (.binary .pipe (call "gone") (call "cat"))))
      (.binary .pipe (.binary .concat (say "ab") (say "cd")) (.binary .pipe (call "cat")
        (.binary .concat (call "cat") (.binary .pipe (call "gone") (call "cat")))))
      .inherited start :=
  dispatch_regroup_pipe (discreet ignores) (lawful oracle store) (orderly_outside ignores)
    Sample.runner (.inl rfl) .pipe _ (by decide) .inherited start

end Evaluator

end CommandExpr
