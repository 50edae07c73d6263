import CommandExpr.Proofs.Bounded
import CommandExpr.Proofs.Courses

/-!
# Compositions grouped otherwise

Two compositions with the same commands in the same order may be grouped
differently.  After a sequence the grouping does not matter, whatever operator
comes next, and neither does it within a concatenation: every program is started
with the same arguments and the same input, every relay is made, written and
given back at the same moment, and the evaluation comes to the same, be it an
output or a failure.

What is done in a step is its **deed**.  It leaves out only the pipe for which
the step is made, since that names the two sides, and keeps the bytes alone of
what is written into a relay.

## Main results

* `Operator.Regroups.join_join` — what is put together comes to the same in both
  groupings.
* `dispatch_regroup` — the four laws, for every host.
-/

namespace CommandExpr

variable {σ : Type}

/-! ## Outputs grouped otherwise -/

namespace Capture

/-- The first bytes of a whole are known, and so is whether there are more. -/
theorem Holds.eq_of_status_faults {first second : Capture} {cap : Nat} {whole : Bytes}
    (hfirst : first.Holds cap whole) (hsecond : second.Holds cap whole)
    (hstatus : first.status = second.status) (hfaults : first.faults = second.faults) :
    first = second := by
  have hbytes : first.bytes = second.bytes := hfirst.bytes.trans hsecond.bytes.symm
  have hcap : first.cap = second.cap := hfirst.cap.trans hsecond.cap.symm
  have hcut : first.isTruncated = second.isTruncated :=
    Bool.eq_iff_iff.mpr (hfirst.isTruncated.trans hsecond.isTruncated.symm)
  cases first
  cases second
  simp only at hbytes hcap hcut hstatus hfaults
  rw [hbytes, hcap, hcut, hstatus, hfaults]

end Capture

namespace Operator

/-- What a sequence drops of its left side does not matter to what comes next. -/
theorem join_sequence (op : Operator) (first second third : Capture) :
    op.join (sequence.join first second) third
      = sequence.join first (op.join second third) := by
  have hfaults := List.append_assoc first.faults second.faults third.faults
  cases op with
  | concat => exact congrArg (fun fs => { second.concat third with faults := fs }) hfaults
  | sequence => exact congrArg (fun fs => { third with faults := fs }) hfaults
  | pipe => exact congrArg (fun fs => { third with faults := fs }) hfaults

/-- May `(a inner b) outer c` be grouped as `a inner (b outer c)`? -/
inductive Regroups : Operator → Operator → Prop where
  | sequence (outer : Operator) : Regroups .sequence outer
  | concat : Regroups .concat .concat

theorem Regroups.ne_pipe {inner outer : Operator} (hops : inner.Regroups outer) :
    inner ≠ .pipe := by
  cases hops <;> decide

/-- What goes on through a pipe is in both groupings what the middle wrote. -/
theorem Regroups.bytes_join {inner : Operator} (hops : inner.Regroups .pipe)
    (first second : Capture) : (inner.join first second).bytes = second.bytes := by
  cases hops
  rfl

/-- Buffers of one capacity are put together in any grouping, also if one of
them is full before the last is added. -/
theorem Regroups.join_join {inner outer : Operator} (hops : inner.Regroups outer)
    {first second : Capture} (third : Capture) (hcap : first.cap = second.cap) :
    outer.join (inner.join first second) third
      = inner.join first (outer.join second third) := by
  cases hops with
  | sequence => exact outer.join_sequence first second third
  | concat => exact Capture.concat_assoc third (Nat.le_of_eq hcap)

end Operator

/-! ## Deeds -/

/-- What is done in a step, whatever pipe it is done for. -/
inductive Deed where
  | prepare (command : Command) (result : Except Failure (List Bytes))
  | note (notice : Notice)
  | call (place : Nat) (command : Command) (argv : List Bytes) (input : InputSource)
      (result : Except Failure (Capture × Status))
  | create (result : Except Failure Relay)
  | write (relay : Relay) (bytes : Bytes) (result : Except Failure Unit)
  | release (relay : Relay) (result : Except Failure Unit)
  | drop (relay : Relay)

/-- The deed of an event. -/
def Event.deed : Event → Deed
  | prepare command result => .prepare command result
  | note notice => .note notice
  | call place command argv input result => .call place command argv input result
  | create _ result => .create result
  | write _ relay output result => .write relay output.bytes result
  | release _ relay result => .release relay result
  | drop _ relay => .drop relay

/-- All that is done in the steps, each deed between two sessions. -/
def deeds (steps : List (Step σ)) : List (Session σ × Deed × Session σ) :=
  steps.map fun step => (step.before, step.event.deed, step.after)

@[simp]
theorem deeds_append (a b : List (Step σ)) : deeds (a ++ b) = deeds a ++ deeds b :=
  List.map_append

/-- Of what is written into a relay only the bytes matter. -/
theorem Relay.write_of_bytes (h : Host σ) (relay : Relay) {output other : Capture}
    (hbytes : output.bytes = other.bytes) : relay.write h output = relay.write h other := by
  rw [write, write, Capture.length, Capture.length, hbytes]

namespace Evaluator

variable {h : Host σ} {relays : RelayStore} {r : Runner} {n : Nat}
  {input : InputSource} {s t : Session σ} {steps : List (Step σ)}
  {result : Except Failure Capture}

/-- Of the two sides of a pipe only the command that reads the relay is known when it is
handed over. -/
theorem deeds_handOver {p p' : Pipe} {s s₁ s₂ : Session σ} {relay : Relay}
    {upstream other : Capture} (hreader : p.right.leftmost = p'.right.leftmost)
    (hbytes : upstream.bytes = other.bytes) :
    deeds (handOver h p s s₁ s₂ relay upstream)
      = deeds (handOver h p' s s₁ s₂ relay other) := by
  simp only [handOver, deeds, List.map_cons, List.map_nil, Event.deed, feedNotice, hreader,
    hbytes]

/-- Neither the left side of a pipe matters nor what is known of its output
besides the bytes. -/
theorem deeds_pipe {p p' : Pipe} {s s₁ s₂ s₃ t : Session σ} {relay : Relay}
    {upstream other : Capture} {event event' : Event}
    (hreader : p.right.leftmost = p'.right.leftmost)
    (hbytes : upstream.bytes = other.bytes) (hevent : event.deed = event'.deed) :
    deeds (handOver h p s s₁ s₂ relay upstream ++ (steps ++ [⟨s₃, event, t⟩]))
      = deeds (handOver h p' s s₁ s₂ relay other ++ (steps ++ [⟨s₃, event', t⟩])) := by
  have hlast : deeds [⟨s₃, event, t⟩] = deeds [⟨s₃, event', t⟩] := by
    simp only [deeds, List.map_cons, List.map_nil, hevent]
  rw [deeds_append, deeds_append, deeds_append, deeds_append,
    deeds_handOver hreader hbytes, hlast]

/-! ## Courses grouped otherwise -/

/-- An output has the first bytes of something. -/
theorem Completes.exists_holds {e : Expression} {output : Capture}
    (he : Completes h relays r n e input s steps output t) :
    ∃ whole, output.Holds r.cap whole := by
  obtain ⟨t', -, hrecorded⟩ := dispatch_recording he.dispatch_eq
  obtain ⟨steps', he'⟩ := (dispatch_eq_ok_iff n).mp hrecorded
  exact ⟨_, he'.holds⟩

/-- What follows a left side follows another one that ends at the same place and
hands on the same bytes. -/
theorem Follows.regroup {op : Operator} {left left' right : Expression} {n' : Nat}
    {first first' : Capture}
    (hf : Follows h relays r op ⟨left, right, n⟩ first s steps result t)
    (hplace : n + left.size = n' + left'.size)
    (hbytes : op = .pipe → first.bytes = first'.bytes) :
    ∃ (steps' : List (Step σ)) (second : Except Failure Capture),
      Follows h relays r op ⟨left', right, n'⟩ first' s steps'
          (second.map (op.join first')) t ∧
        deeds steps = deeds steps' ∧ result = second.map (op.join first) := by
  have hmiddle : (⟨left, right, n⟩ : Pipe).middle = (⟨left', right, n'⟩ : Pipe).middle :=
    hplace
  cases hf with
  | @joined _ _ _ _ _ _ second hop hr =>
      exact ⟨steps, second, .joined hop (hmiddle ▸ hr), rfl, rfl⟩
  | uncreated hcreate =>
      exact ⟨_, .error _, .uncreated hcreate, rfl, rfl⟩
  | @unwritten _ _ _ _ _ _ relay f hcreate hwrite hdrop =>
      rw [Relay.write_of_bytes h relay (hbytes rfl)] at hwrite
      refine ⟨_, .error f, .unwritten hcreate hwrite hdrop, ?_, rfl⟩
      simp only [deeds, List.map_cons, Event.deed, hbytes rfl]
  | downstream hcreate hwrite hr hdrop =>
      rw [Relay.write_of_bytes h _ (hbytes rfl)] at hwrite
      exact ⟨_, .error _, .downstream hcreate hwrite (hmiddle ▸ hr) hdrop,
        deeds_pipe rfl (hbytes rfl) rfl, rfl⟩
  | @released _ _ output _ _ _ _ _ _ _ released hcreate hwrite hr hrelease =>
      rw [Relay.write_of_bytes h _ (hbytes rfl)] at hwrite
      cases released with
      | error f =>
          exact ⟨_, .error f, .released hcreate hwrite (hmiddle ▸ hr) hrelease,
            deeds_pipe rfl (hbytes rfl) rfl, rfl⟩
      | ok _ =>
          exact ⟨_, .ok output, .released hcreate hwrite (hmiddle ▸ hr) hrelease,
            deeds_pipe rfl (hbytes rfl) rfl, rfl⟩

/-- **A course of one grouping is a course of the other**, with the same deeds. -/
theorem Course.regroup {inner outer : Operator} (hops : inner.Regroups outer)
    {a b c : Expression}
    (hc : Course h relays r n (.binary outer (.binary inner a b) c) input s steps
      result t) :
    ∃ steps' : List (Step σ),
      Course h relays r n (.binary inner a (.binary outer b c)) input s steps' result t ∧
        deeds steps = deeds steps' := by
  rcases course_binary_iff.mp hc with
    ⟨f, hleft, rfl⟩ | ⟨tl, first, t₂, tr, hleft, hf, rfl⟩
  · rcases course_binary_iff.mp (.fails hleft) with
      ⟨_, ha, hfail⟩ | ⟨ta, outa, t₁, tb, ha, hf, rfl⟩
    · obtain rfl := Except.error.inj hfail
      exact ⟨_, .fails (.left ha), rfl⟩
    · generalize hresult : (Except.error f : Except Failure Capture) = failed at hf
      cases hf with
      | @joined _ _ _ _ _ _ second hop hb =>
          cases hb with
          | completes hb => cases hresult
          | fails hb =>
              obtain rfl := Except.error.inj hresult
              exact ⟨_, .fails (.right hop ha (.left hb)), rfl⟩
      | _ => exact absurd rfl hops.ne_pipe
  · cases hleft with
    | piped => exact absurd rfl hops.ne_pipe
    | @joined _ _ _ _ _ _ t₁ _ ta tb outa outb hop ha hb =>
        obtain ⟨tr', second, hf', hdeeds, rfl⟩ :=
          hf.regroup (Nat.add_assoc n a.size b.size).symm
            fun hpipe => (hpipe ▸ hops).bytes_join outa outb
        have hinner : Follows h relays r inner ⟨a, .binary outer b c, n⟩ outa t₁
            (tb ++ tr') ((second.map (outer.join outb)).map (inner.join outa)) t :=
          .joined hop (hf'.course hb)
        have hresult : second.map (outer.join (inner.join outa outb))
            = (second.map (outer.join outb)).map (inner.join outa) := by
          cases second with
          | error f => rfl
          | ok output =>
              obtain ⟨_, hwholea⟩ := ha.exists_holds
              obtain ⟨_, hwholeb⟩ := hb.exists_holds
              have hcap : outa.cap = outb.cap := hwholea.cap.trans hwholeb.cap.symm
              exact congrArg Except.ok (hops.join_join output hcap)
        rw [hresult]
        refine ⟨_, hinner.course ha, ?_⟩
        rw [deeds_append, deeds_append, deeds_append, deeds_append, hdeeds,
          List.append_assoc]

/-! ## The laws -/

/-- In a session the evaluations of two compositions do the same and come to the
same. -/
structure SameCourse (h : Host σ) (relays : RelayStore) (r : Runner)
    (e e' : Expression) (input : InputSource) (s : Session σ) : Prop where
  /-- They come to the same output or the same failure, and leave the same
  session. -/
  result : (dispatch h relays r e input).on s = (dispatch h relays r e' input).on s
  /-- They make the same calls of the host with the same answers. -/
  record : (dispatch h.recorded relays r e input).on s.recording
    = (dispatch h.recorded relays r e' input).on s.recording
  /-- They run the same programs with the same inputs and do the same with the
  same relays, all in the same sessions. -/
  course : ∃ (steps steps' : List (Step σ)) (result : Except Failure Capture)
    (t : Session σ), Course h relays r 0 e input s steps result t ∧
      Course h relays r 0 e' input s steps' result t ∧ deeds steps = deeds steps'

section Laws

variable (h : Host σ) (relays : RelayStore) (r : Runner) {inner outer : Operator}
  (hops : inner.Regroups outer) (a b c : Expression) (input : InputSource)
  (s : Session σ)

include hops

private theorem exists_courses :
    ∃ (steps steps' : List (Step σ)) (result : Except Failure Capture)
      (t : Session σ),
      Course h relays r 0 (.binary outer (.binary inner a b) c) input s steps result t ∧
        Course h relays r 0 (.binary inner a (.binary outer b c)) input s steps' result
          t ∧ deeds steps = deeds steps' := by
  obtain ⟨steps, hc⟩ := (dispatch_eq_iff 0).mp
    (rfl : (dispatch h relays r (.binary outer (.binary inner a b) c) input).on s = _)
  obtain ⟨steps', hc', hdeeds⟩ := hc.regroup hops
  exact ⟨steps, steps', _, _, hc, hc', hdeeds⟩

private theorem dispatch_eq_of_regroups :
    (dispatch h relays r (.binary outer (.binary inner a b) c) input).on s
      = (dispatch h relays r (.binary inner a (.binary outer b c)) input).on s := by
  obtain ⟨steps, steps', result, t, hc, hc', -⟩ :=
    exists_courses h relays r hops a b c input s
  rw [(dispatch_eq_iff 0).mpr ⟨steps, hc⟩, (dispatch_eq_iff 0).mpr ⟨steps', hc'⟩]

private theorem sameCourse_of_regroups :
    SameCourse h relays r (.binary outer (.binary inner a b) c)
      (.binary inner a (.binary outer b c)) input s where
  result := dispatch_eq_of_regroups h relays r hops a b c input s
  record := dispatch_eq_of_regroups h.recorded relays r hops a b c input s.recording
  course := exists_courses h relays r hops a b c input s

end Laws

/-- **After a sequence, and within a concatenation, the grouping does not
matter.**  This is so for all compositions and inputs, every capacity, every
host, whatever it answers, and every session. -/
theorem dispatch_regroup (h : Host σ) (relays : RelayStore) (r : Runner)
    (a b c : Expression) (input : InputSource) (s : Session σ) :
    (∀ op : Operator, SameCourse h relays r (.binary op (.binary .sequence a b) c)
      (.binary .sequence a (.binary op b c)) input s) ∧
      SameCourse h relays r (.binary .concat (.binary .concat a b) c)
        (.binary .concat a (.binary .concat b c)) input s :=
  ⟨fun op => sameCourse_of_regroups h relays r (.sequence op) a b c input s,
    sameCourse_of_regroups h relays r .concat a b c input s⟩

end Evaluator

end CommandExpr
