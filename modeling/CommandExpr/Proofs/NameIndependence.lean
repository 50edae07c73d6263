import CommandExpr.Proofs.NarrowSandbox
import CommandExpr.Proofs.Unwinding

/-!
# What an evaluation comes to, whatever its relays are called

An evaluation numbers its relays from where the session stands, and passes over names that
are taken.  None of this can be seen from outside, as long as all names of relays are shorter
than what the host allows: neither in the result, nor in what is written to the standard
output, nor in the programs that are started.  So an evaluation can be repeated in a session,
although its relays have other names then.

If the limit lies within the names of relays it can be seen: some of them can be made, and
others cannot.

## Main results

* `Evaluator.evaluate_renamed` — two sessions that differ in relays are indistinguishable.
* `Evaluator.evaluate_too_long` — they are not if names can be too long.
-/

namespace CommandExpr

variable {σ ι α : Type}

/-! ## What is echoed -/

/-- What was offered to the standard output, and how much of it was accepted. -/
def Exchange.echo? : Exchange → Option (Bytes × Except Errno Nat)
  | writeOut bytes answer => some (bytes, answer)
  | _ => none

/-- The machines are alike, and the same was offered and accepted. -/
structure Echoing (alike : σ → σ → Prop) (m m' : Recorded σ) : Prop where
  alike : alike m.1 m'.1
  echo : m.2.filterMap Exchange.echo? = m'.2.filterMap Exchange.echo?

namespace Files

variable {files : Files σ ι} {h : Host σ} {store : RelayStore} {alike : σ → σ → Prop}
  {drift : Drift ι} {limit : Nat}

section Recorded

variable {f g : σ → α × σ} {x y : α → Exchange} {m m' : Recorded σ}

private theorem echo_recordCall (hx : ∀ a, (x a).echo? = none) (m : Recorded σ) :
    (Host.recordCall f x m).2.2.filterMap Exchange.echo? = m.2.filterMap Exchange.echo? := by
  simp [Host.recordCall, hx]

private theorem echo_recordChange {f : σ → σ} {x : Exchange} (hx : x.echo? = none)
    (m : Recorded σ) :
    (Host.recordChange f x m).2.filterMap Exchange.echo? = m.2.filterMap Exchange.echo? := by
  simp [Host.recordChange, hx]

/-- Calls that echo nothing leave alike what they leave alike without a record. -/
private theorem echoing_calls (hm : Echoing alike m m') (hx : ∀ a, (x a).echo? = none)
    (hy : ∀ a, (y a).echo? = none) (halike : alike (f m.1).2 (g m'.1).2) :
    Echoing alike (Host.recordCall f x m).2 (Host.recordCall g y m').2 where
  alike := halike
  echo := (echo_recordCall hx m).trans (hm.echo.trans (echo_recordCall hy m').symm)

private theorem blind_recordCall (hf : Blind alike f) (hx : ∀ a, (x a).echo? = none) :
    Blind (Echoing alike) (Host.recordCall f x) := fun m m' hm =>
  ⟨(hf m.1 m'.1 hm.alike).1, echoing_calls hm hx hx (hf m.1 m'.1 hm.alike).2⟩

private theorem echoing_changes {f : σ → σ} {x : Exchange} (hm : Echoing alike m m')
    (hx : x.echo? = none) (halike : alike (f m.1) (f m'.1)) :
    Echoing alike (Host.recordChange f x m) (Host.recordChange f x m') where
  alike := halike
  echo := (echo_recordChange hx m).trans (hm.echo.trans (echo_recordChange hx m').symm)

private theorem echo_spawn (h : Host σ) (argv : List Bytes) (input : Option Handle)
    (m : Recorded σ) :
    (h.recorded.spawn argv input m).2.2.filterMap Exchange.echo? = m.2.filterMap Exchange.echo? := by
  obtain ⟨made, hmade, hcall⟩ := h.recorded_spawn argv input m
  have hnone : made.filterMap Exchange.echo? = [] := by
    generalize (h.spawn argv input m.1).1 = answer at hmade
    cases hmade <;> rfl
  rw [hcall, List.filterMap_append, hnone, List.append_nil]

/-- Nor does the making of a process echo anything. -/
private theorem echoing_spawn {argv : List Bytes} {input input' : Option Handle}
    (hm : Echoing alike m m')
    (hsame : (h.spawn argv input m.1).1 = (h.spawn argv input' m'.1).1 ∧
      alike (h.spawn argv input m.1).2 (h.spawn argv input' m'.1).2) :
    (h.recorded.spawn argv input m).1 = (h.recorded.spawn argv input' m').1 ∧
      Echoing alike (h.recorded.spawn argv input m).2 (h.recorded.spawn argv input' m').2 := by
  rw [h.spawn_recorded argv input m, h.spawn_recorded argv input' m'] at hsame
  refine ⟨hsame.1, hsame.2, ?_⟩
  rw [echo_spawn, echo_spawn, hm.echo]

end Recorded

/-- A record does not make programs less orderly. -/
theorem Orderly.recorded (o : files.Orderly h store drift) :
    files.recorded.Orderly h.recorded store drift where
  refl := o.refl
  trans := o.trans
  spawn argv input m := by
    have hspawned := o.spawn argv input m.1
    rw [h.spawn_recorded argv input m] at hspawned
    exact ⟨hspawned.held, hspawned.others⟩
  readReport pid count m :=
    ⟨(o.readReport pid count m.1).held, (o.readReport pid count m.1).others⟩
  readOutput pid count m :=
    ⟨(o.readOutput pid count m.1).held, (o.readOutput pid count m.1).others⟩
  pollOutput pid millis m :=
    ⟨(o.pollOutput pid millis m.1).held, (o.pollOutput pid millis m.1).others⟩
  hangUp pid m := ⟨(o.hangUp pid m.1).held, (o.hangUp pid m.1).others⟩
  wait pid look m := ⟨(o.wait pid look m.1).held, (o.wait pid look m.1).others⟩
  kill pid signal m := ⟨(o.kill pid signal m.1).held, (o.kill pid signal m.1).others⟩
  sleep time m := ⟨(o.sleep time m.1).held, (o.sleep time m.1).others⟩
  openRead path m := ⟨(o.openRead path m.1).content, (o.openRead path m.1).held⟩
  remove hnames hheld := o.remove hnames hheld

/-- It takes no names. -/
theorem Roomy.recorded {n : Nat} {s : Session σ} (hr : files.Roomy store n s) :
    files.recorded.Roomy store n s.recording := by
  obtain ⟨ahead, hlength, ha⟩ := hr
  exact ⟨ahead, hlength, ha.size, ha.taken⟩

/-- Nor is a host with a record concerned with the names of relays. -/
theorem Nameless.recorded (nm : files.Nameless h store alike limit) :
    files.recorded.Nameless h.recorded store (Echoing alike) limit where
  equivalence := {
    refl m := ⟨nm.equivalence.refl _, rfl⟩
    symm hm := ⟨nm.equivalence.symm hm.alike, hm.echo.symm⟩
    trans hm hm' := ⟨nm.equivalence.trans hm.alike hm'.alike, hm.echo.trans hm'.echo⟩ }
  patience hm := nm.patience hm.alike
  readReport pid count := blind_recordCall (nm.readReport pid count) fun _ => rfl
  readOutput pid count := blind_recordCall (nm.readOutput pid count) fun _ => rfl
  pollOutput pid millis := blind_recordCall (nm.pollOutput pid millis) fun _ => rfl
  wait pid look := blind_recordCall (nm.wait pid look) fun _ => rfl
  kill pid signal := blind_recordCall (nm.kill pid signal) fun _ => rfl
  hangUp pid _ _ hm := echoing_changes hm rfl (nm.hangUp pid hm.alike)
  sleep time _ _ hm := echoing_changes hm rfl (nm.sleep time hm.alike)
  tell message m := ⟨nm.tell message m.1, (echo_recordChange rfl m).symm⟩
  entry_inj := nm.entry_inj
  now hm := echoing_calls hm (fun _ => rfl) (fun _ => rfl) (nm.now hm.alike)
  writeOut bytes m m' hm := by
    obtain ⟨hanswer, halike⟩ := nm.writeOut bytes m.1 m'.1 hm.alike
    refine ⟨hanswer, halike, ?_⟩
    have hanswer' : (h.writeOut bytes m.1).1 = (h.writeOut bytes m'.1).1 := hanswer
    simp only [Host.recorded, Host.recordCall, List.filterMap_append, hm.echo, hanswer']
  spawn argv _ _ hm := echoing_spawn hm (nm.spawn argv _ _ hm.alike)
  spawn_relay argv _ _ _ _ _ _ hp hq hm hcursor hcursor' hcontent :=
    echoing_spawn hm (nm.spawn_relay argv hp hq hm.alike hcursor hcursor' hcontent)
  createNew_taken {_ m} hp htaken := by
    obtain ⟨e, hanswer, hkind, halike⟩ := nm.createNew_taken hp htaken
    exact ⟨e, hanswer, hkind, halike, (echo_recordCall (fun _ => rfl) m).symm⟩
  createNew_vacant hp hfree := nm.createNew_vacant hp hfree
  createNew_free hp hq hm hfree hfree' := by
    obtain ⟨hsame, halike⟩ := nm.createNew_free hp hq hm.alike hfree hfree'
    exact ⟨hsame, echoing_calls hm (fun _ => rfl) (fun _ => rfl) halike⟩
  openRead hp hq hm hcontent := by
    obtain ⟨hsame, halike⟩ := nm.openRead hp hq hm.alike hcontent
    exact ⟨hsame, echoing_calls hm (fun _ => rfl) (fun _ => rfl) halike⟩
  append bytes _ _ hp hq hm hcursor hcursor' hcontent := by
    obtain ⟨hanswer, halike, hown⟩ :=
      nm.append bytes hp hq hm.alike hcursor hcursor' hcontent
    exact ⟨hanswer, echoing_calls hm (fun _ => rfl) (fun _ => rfl) halike, hown⟩
  close handle m := ⟨nm.close handle m.1, (echo_recordChange rfl m).symm⟩
  remove {_} m hp := ⟨nm.remove m.1 hp, (echo_recordCall (fun _ => rfl) m).symm⟩

end Files

/-! ## Whole evaluations -/

namespace Evaluator

/-- What makes the steps comes to the result. -/
theorem Evaluates.evaluate_eq {h : Host σ} {ev : Evaluator} {e : Expression} {s t : Session σ}
    {steps : List (Step σ)} {tried : List Trial} {result : Except Failure Capture}
    (hev : Evaluates h ev e s steps tried result t) :
    (ev.evaluate h e).on s = (result, t) := by
  have hstart : (Host.ask h.now).on s = (.ok (h.now s.machine).1, started h s) := rfl
  rw [Evaluator.evaluate_eq, Attempt.on_bind_ok _ hstart]
  cases hev with
  | failed he => exact Attempt.on_bind_error _ ((dispatch_eq_error_iff 0).mpr ⟨steps, he⟩)
  | @quiet output u he hecho =>
      rw [Attempt.on_bind_ok _ ((dispatch_eq_ok_iff 0).mpr ⟨steps, he⟩), finishing,
        Attempt.on_bind_ok _ (Attempt.on_ask h.now u), Attempt.on_note_bind, hecho]
      rfl
  | @echoing output u _ written he hecho hwrite =>
      have hlift : Attempt.on (ExceptT.lift (Output.writeAll h output.bytes))
          (evaluated h e (h.now s.machine).1 u) = (.ok written, t) := by
        rw [Attempt.on_lift, hwrite]
      rw [evaluated] at hlift
      rw [Attempt.on_bind_ok _ ((dispatch_eq_ok_iff 0).mpr ⟨steps, he⟩), finishing,
        Attempt.on_bind_ok _ (Attempt.on_ask h.now u), Attempt.on_note_bind, hecho, if_pos rfl,
        Attempt.on_bind_ok _ hlift]
      cases written <;> rfl

/-- Every evaluation makes some steps. -/
private theorem evaluates_on (h : Host σ) (ev : Evaluator) (e : Expression) (s : Session σ) :
    ∃ steps tried, Evaluates h ev e s steps tried ((ev.evaluate h e).on s).1
      ((ev.evaluate h e).on s).2 :=
  evaluates_of_evaluate rfl

section Renamed

variable [DecidableEq ι] {files : Files σ ι} {h : Host σ} {ev : Evaluator}
  {alike : σ → σ → Prop} {limit : Nat} {e : Expression} {s s' t : Session σ}
  {steps : List (Step σ)} {tried : List Trial} {result : Except Failure Capture}

/-- Buffers of one capacity are handed on alike. -/
private theorem undamaged_self (r : Runner) (steps : List (Step σ)) : Undamaged r r steps :=
  fun _ _ _ htwins => congrArg Capture.bytes htwins.eq

variable (nm : files.Nameless h ev.relays alike limit) (w : files.Lawful h ev.relays)
  (o : files.Orderly h ev.relays (files.outside ev.relays))
  (hshort : ∀ i, (ev.relays.pathOf i).bytes.length < limit)
  (hclock : ev.config.timeout = none ∨ Blind alike h.now)

omit [DecidableEq ι] in
include hclock in
/-- The same deadline is kept. -/
private theorem runner_eq (halike : s.Alike alike t) :
    ev.runner (h.now t.machine).1 = ev.runner (h.now s.machine).1 := by
  rcases hclock with hnone | hnow
  · rw [runner, runner, hnone, Option.map_none, Option.map_none]
  · rw [(hnow _ _ halike).1]

include w o in
/-- Reading the clock leaves the directory of the relays as it is. -/
private theorem housed_started {n : Nat} (hroomy : files.Roomy ev.relays n s) :
    files.Housed ev.relays n [] (started h s) where
  named := by simp
  hasNul := by simp
  held := by simp
  nodup := List.nodup_nil
  roomy := hroomy.keep rfl (o.leaves_of_same (w.now s.machine)).taken

omit [DecidableEq ι] in
include nm in
private theorem alike_evaluated (halike : s.Alike alike t) (start start' : Instant) :
    (evaluated h e start s).Alike alike (evaluated h e start' t) :=
  nm.toSteady.noted (s := started h s) (t := started h t) (nm.now halike) _ _

omit [DecidableEq ι] in
include nm in
private theorem agree_writeAll (bytes : Bytes) :
    Agree (Session.Alike alike) (Output.writeAll h bytes) (Output.writeAll h bytes) :=
  Agree.bind (fun _ _ halike => ⟨nm.patience halike, halike⟩) fun fuel =>
    Agree.writeFrom (fun bytes _ _ halike => nm.writeOut bytes _ _ halike) fuel bytes

include nm w o hshort hclock in
/-- The composition of an evaluation is gone through in the same way … -/
private theorem exists_renamed_course (halike : s.Alike alike t)
    (hroomy : files.Roomy ev.relays e.pipeCount s)
    (hroomy' : files.Roomy ev.relays e.pipeCount t)
    (hc : Course h ev.relays (ev.runner (h.now s.machine).1) 0 e .inherited (started h s) steps
      result s') :
    ∃ steps' result' t', Course h ev.relays (ev.runner (h.now t.machine).1) 0 e .inherited
        (started h t) steps' result' t' ∧
      starts files steps = starts files steps' ∧
      Matches Failure.SameKind Eq result result' ∧ s'.Alike alike t' := by
  have hR : files.Renamed ev.relays alike (0 + e.pipeCount) [] (started h s) (started h t) := by
    rw [Nat.zero_add]
    exact ⟨nm.now halike, housed_started w o hroomy, housed_started w o hroomy', by simp⟩
  have hdeadline : (ev.runner (h.now s.machine).1).deadline = none ∨ Blind alike h.now :=
    hclock.imp_left fun hnone => by rw [runner, hnone, Option.map_none]
  obtain ⟨steps', result', t', ⟨hcourse, hstarts, hresult⟩, hR'⟩ :=
    Course.parallel (nm.parallel w o hshort hdeadline) e hR .inherited (undamaged_self _ steps) hc
  rw [← runner_eq hclock halike] at hcourse
  exact ⟨steps', result', t', hcourse, hstarts,
    hresult.mono (fun _ _ hkind => hkind) fun _ _ htwins => htwins.eq, hR'.alike⟩

include nm w o hshort hclock in
/-- … **and so is all of it, where its relays have other names.** -/
theorem Evaluates.renamed (halike : s.Alike alike t)
    (hroomy : files.Roomy ev.relays e.pipeCount s)
    (hroomy' : files.Roomy ev.relays e.pipeCount t)
    (hev : Evaluates h ev e s steps tried result s') :
    ∃ steps' tried' result' t', Evaluates h ev e t steps' tried' result' t' ∧
      starts files steps = starts files steps' ∧
      Matches Failure.SameKind Eq result result' ∧ s'.Alike alike t' := by
  cases hev with
  | failed he =>
      obtain ⟨steps', result', t', hcourse, hstarts, hresult, hafter⟩ :=
        exists_renamed_course nm w o hshort hclock halike hroomy hroomy' (.fails he)
      cases hresult with
      | error hkind =>
          exact ⟨steps', _, _, t', .failed (course_error_iff.mp hcourse), hstarts,
            .error hkind, hafter⟩
  | @quiet output u he hecho =>
      obtain ⟨steps', result', t', hcourse, hstarts, hresult, hafter⟩ :=
        exists_renamed_course nm w o hshort hclock halike hroomy hroomy' (.completes he)
      cases hresult with
      | ok hsame =>
          subst hsame
          exact ⟨steps', _, _, _, .quiet (course_ok_iff.mp hcourse) hecho, hstarts, .ok rfl,
            alike_evaluated nm hafter _ _⟩
  | @echoing output u _ written he hecho hwrite =>
      obtain ⟨steps', result', t', hcourse, hstarts, hresult, hafter⟩ :=
        exists_renamed_course nm w o hshort hclock halike hroomy hroomy' (.completes he)
      cases hresult with
      | ok hsame =>
          subst hsame
          obtain ⟨v, hwrite', hwritten⟩ := (agree_writeAll nm output.bytes).exists_run
            (alike_evaluated nm hafter (h.now s.machine).1 (h.now t.machine).1) hwrite
          refine ⟨steps', _, _, v, .echoing (course_ok_iff.mp hcourse) hecho hwrite', hstarts,
            ?_, hwritten⟩
          cases written with
          | ok _ => exact .ok rfl
          | error f => exact .error rfl

include w o in
/-- What is in the place of a relay from the start stays there. -/
private theorem kept_during (hev : Evaluates h ev e s steps tried result s') {step : Step σ}
    (hstep : step ∈ steps) {i : UInt64} (htaken : files.Taken ev.relays s.machine i) :
    files.content step.before.machine (files.entry (ev.relays.pathOf i))
        = files.content s.machine (files.entry (ev.relays.pathOf i)) ∧
      files.content step.after.machine (files.entry (ev.relays.pathOf i))
        = files.content s.machine (files.entry (ev.relays.pathOf i)) := by
  obtain ⟨u, hlives⟩ : ∃ u, Lives files (files.outside ev.relays) 0 e (started h s) steps u := by
    cases hev with
    | failed he => exact ⟨_, he.lives o w⟩
    | quiet he _ => exact ⟨_, he.lives o w⟩
    | echoing he _ _ => exact ⟨_, he.lives o w⟩
  have hstart := (w.now s.machine).content
  have hkept : ∀ {most : Nat} {m : σ},
      files.Within (files.outside ev.relays) (started h s).machine most m →
        files.content m (files.entry (ev.relays.pathOf i))
          = files.content s.machine (files.entry (ev.relays.pathOf i)) := by
    rintro most m ⟨own, -, hsince⟩
    rw [← hstart]
    by_cases hown : files.entry (ev.relays.pathOf i) ∈ own
    · -- A relay was made in its place, so there was nothing.
      refine absurd (hsince.vacant _ hown ⟨i, rfl⟩) fun hnone => htaken ?_
      rw [← hstart]
      exact hnone
    · exact (hsince.others _ hown ⟨i, rfl⟩).symm
  obtain ⟨hbefore, hafter⟩ := hlives.always step hstep
  exact ⟨hkept hbefore, hkept hafter⟩

/-- An evaluation from a session makes the steps, and leaves the directory of the relays as
it finds it. -/
structure Enacts (files : Files σ ι) (h : Host σ) (ev : Evaluator) (e : Expression)
    (s : Session σ) (steps : List (Step σ)) : Prop where
  evaluates : ∃ tried, Evaluates h ev e s steps tried ((ev.evaluate h e).on s).1
    ((ev.evaluate h e).on s).2
  /-- What was in the place of a relay is there all the time, and as it was. -/
  during : ∀ step ∈ steps, ∀ i, files.Taken ev.relays s.machine i →
    files.content step.before.machine (files.entry (ev.relays.pathOf i))
        = files.content s.machine (files.entry (ev.relays.pathOf i)) ∧
      files.content step.after.machine (files.entry (ev.relays.pathOf i))
        = files.content s.machine (files.entry (ev.relays.pathOf i))
  /-- In the end nothing was done to any file but by the programs. -/
  leaves : ∀ drift, files.Orderly h ev.relays drift →
    files.Leaves drift s.machine ((ev.evaluate h e).on s).2.machine

/-- From outside the evaluations from two sessions are the same. -/
structure Indistinct (files : Files σ ι) (h : Host σ) (ev : Evaluator) (e : Expression)
    (alike : σ → σ → Prop) (s t : Session σ) : Prop where
  /-- Both come to the same output, or to failures of the same kind. -/
  result : Matches Failure.SameKind Eq ((ev.evaluate h e).on s).1 ((ev.evaluate h e).on t).1
  /-- The same programs are called for, one after the other, with the same arguments and the
  same input. -/
  starts : ∃ steps steps', Enacts files h ev e s steps ∧ Enacts files h ev e t steps' ∧
    CommandExpr.starts files steps = CommandExpr.starts files steps'
  /-- The same is offered to the standard output, and as much of it is accepted. -/
  echo : ((ev.evaluate h.recorded e).on s.recording).2.view Exchange.echo?
    = ((ev.evaluate h.recorded e).on t.recording).2.view Exchange.echo?
  machine : Session.Alike alike ((ev.evaluate h e).on s).2 ((ev.evaluate h e).on t).2

omit o in
include w in
private theorem leaves_evaluate {drift : Drift ι} (o : files.Orderly h ev.relays drift)
    (e : Expression) (s : Session σ) :
    files.Leaves drift s.machine ((ev.evaluate h e).on s).2.machine := by
  obtain ⟨_, _, _, hlife⟩ := evaluate_lifetime ev w o e (s := s) rfl
  exact hlife.leaves

include w o in
private theorem enacts (hev : Evaluates h ev e s steps tried result s') :
    Enacts files h ev e s steps where
  evaluates := ⟨tried, by rwa [hev.evaluate_eq]⟩
  during _ hstep _ htaken := kept_during w o hev hstep htaken
  leaves _ o' := leaves_evaluate w o' e s

include nm w o hshort hclock in
private theorem indistinct (halike : s.Alike alike t)
    (hroomy : files.Roomy ev.relays e.pipeCount s)
    (hroomy' : files.Roomy ev.relays e.pipeCount t) :
    Indistinct files h ev e alike s t := by
  obtain ⟨steps, tried, hev⟩ := evaluates_on h ev e s
  obtain ⟨steps', tried', result', t', hev', hstarts, hresult, hafter⟩ :=
    hev.renamed nm w o hshort hclock halike hroomy hroomy'
  have hrecording : s.recording.Alike (Echoing alike) t.recording := ⟨halike, rfl⟩
  obtain ⟨_, _, hrec⟩ := evaluates_on h.recorded ev e s.recording
  obtain ⟨_, _, _, _, hrec', -, -, hecho⟩ :=
    hrec.renamed nm.recorded w.recorded o.recorded hshort
      (hclock.imp_right fun hnow => Files.blind_recordCall hnow fun _ => rfl) hrecording
      hroomy.recorded hroomy'.recorded
  have heq := hev'.evaluate_eq
  have hreceq := hrec'.evaluate_eq
  refine ⟨?_, ⟨steps, steps', enacts w o hev, enacts w o hev', hstarts⟩, ?_, ?_⟩
  · rwa [heq]
  · rw [hreceq]
    exact hecho.echo
  · rwa [heq]

include nm w o hshort hclock in
/-- **Nobody can tell what the relays are called.**  Let the numbers of relays stand anywhere,
and fewer names be taken than attempts are made, in each of two sessions: then the same
evaluation comes to the same in both.  So it does if it is repeated in the session that it
leaves, if the programs leave the machine alike. -/
theorem evaluate_renamed {taken taken' : List UInt64}
    (hsize : e.pipeCount + Relay.maxAttempts ≤ 2 ^ 64) (halike : s.Alike alike t)
    (hcount : taken.length < Relay.maxAttempts)
    (htaken : ∀ i, files.Taken ev.relays s.machine i → i ∈ taken)
    (hcount' : taken'.length < Relay.maxAttempts)
    (htaken' : ∀ i, files.Taken ev.relays t.machine i → i ∈ taken') :
    Indistinct files h ev e alike s t ∧
      (s.Alike alike ((ev.evaluate h e).on s).2 →
        Indistinct files h ev e alike s ((ev.evaluate h e).on s).2) := by
  have hroomy : files.Roomy ev.relays e.pipeCount s := .of_taken hcount htaken hsize
  refine ⟨indistinct nm w o hshort hclock halike hroomy (.of_taken hcount' htaken' hsize),
    fun hagain => indistinct nm w o hshort hclock hagain hroomy (.of_taken hcount ?_ hsize)⟩
  exact fun i hi => htaken i ((leaves_evaluate w o e s).taken i hi)

end Renamed

section Samples

open Sandbox Sandbox.Sample

/-- An evaluation in which no output is come to has failed. -/
private theorem isOk_of_dispatch {h : Host σ} {ev : Evaluator} {e : Expression} {s : Session σ}
    (hfails : ((dispatch h ev.relays (ev.runner (h.now s.machine).1) e .inherited).on
      (started h s)).1.isOk = false) : ((ev.evaluate h e).on s).1.isOk = false := by
  rcases hdispatch : (dispatch h ev.relays (ev.runner (h.now s.machine).1) e .inherited).on
    (started h s) with ⟨answer, u⟩
  rw [hdispatch] at hfails
  cases answer with
  | ok _ => cases hfails
  | error f =>
      obtain ⟨steps, he⟩ := (dispatch_eq_error_iff 0).mp hdispatch
      rw [(Evaluates.failed he).evaluate_eq]
      rfl

/-- No failure is like an output. -/
private theorem not_matches {r r' : Except Failure Capture} (hr : r.isOk = true)
    (hr' : r'.isOk = false) : ¬Matches Failure.SameKind Eq r r' := by
  intro hmatches
  cases hmatches with
  | ok _ => cases hr'
  | error _ => cases hr

set_option maxRecDepth 20000 in
/-- If names can be too long it matters where the numbers of relays stand: the first relay can
be made, and the eleventh cannot. -/
theorem evaluate_too_long :
    Oracle.Ignores oracle deep ∧
      (taking deep [] 0).machine.Resembles deep (taking deep [] 10).machine ∧
      ¬Matches Failure.SameKind Eq
        ((deepEvaluator.evaluate (narrow oracle pathMax) relaying).on (taking deep [] 0)).1
        ((deepEvaluator.evaluate (narrow oracle pathMax) relaying).on (taking deep [] 10)).1 :=
  ⟨ignores, resembles_taking deep [] [] 0 10,
    not_matches (by decide +kernel) (isOk_of_dispatch (by decide +kernel))⟩

/-- The sample composition: in one session the name of the first relay is taken, in the other
one those of the eighth and the tenth, and seven numbers have been used; and so once more
after it. -/
theorem evaluate_renamed_sample :
    Indistinct Sandbox.files (narrow oracle pathMax) evaluator composition
        (State.Resembles store) (taking store [0] 0) (taking store [7, 9] 7) ∧
      Indistinct Sandbox.files (narrow oracle pathMax) evaluator composition
        (State.Resembles store) (taking store [0] 0)
        ((evaluator.evaluate (narrow oracle pathMax) composition).on (taking store [0] 0)).2 := by
  have hshort : ∀ i, (store.pathOf i).bytes.length < pathMax := fun i =>
    Nat.lt_of_le_of_lt (store.length_pathOf_le i) (by decide +kernel)
  have hagain : (taking store [0] 0).Alike (State.Resembles store)
      ((evaluator.evaluate (narrow oracle pathMax) composition).on (taking store [0] 0)).2 := by
    have hleaves : Sandbox.files.Leaves (fun _ a b => a = b) (taking store [0] 0).machine
        ((evaluator.evaluate (narrow oracle pathMax) composition).on
          (taking store [0] 0)).2.machine :=
      leaves_evaluate (lawful_narrow oracle pathMax store) (orderly_narrow orderly_eq pathMax) _ _
    refine ⟨fun path _ => congrFun (files_eq_of_leaves hleaves) path, ?_, ?_, ?_⟩
    · decide +kernel
    · decide +kernel
    · decide +kernel
  have hboth : Indistinct Sandbox.files (narrow oracle pathMax) evaluator composition
      (State.Resembles store) (taking store [0] 0) (taking store [7, 9] 7) ∧ _ :=
    evaluate_renamed (nameless ignores pathMax) (lawful_narrow oracle pathMax store)
      (orderly_narrow (orderly_outside ignores) pathMax) hshort (Or.inl rfl)
      (by decide +kernel) (resembles_taking store [0] [7, 9] 0 7) (by decide)
      (fun _ => taken_taking) (by decide) fun _ => taken_taking
  exact ⟨hboth.1, hboth.2 hagain⟩

end Samples

end Evaluator

end CommandExpr
