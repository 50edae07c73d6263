import CommandExpr.Proofs.Routing
import CommandExpr.Proofs.Supervision

/-!
# Bounded outputs

Every buffer of an evaluation has the same capacity: those into which the
outputs of the programs are read, and those in which they are put together.
This module says what an evaluation would have come to without any bound, from
what was read of each program, and proves that the bounded evaluation has the
first bytes of it.  It has lost something just when there was more.

A command is **heard** in a composition if it is in no left side of a sequence
or a pipe; what the heard commands wrote, one after the other, is the unbounded
output.

## Main results

* `Capture.Holds.concat` — two bounded buffers put together are the bounded
  whole, also if one of them is full.
* `Evaluator.dispatch_bounded` — a bounded evaluation has the first bytes of the
  unbounded output, and so has every relay.
-/

namespace CommandExpr

variable {σ ι : Type}

/-! ## Buffers -/

namespace Capture

/-- The buffer has the first bytes of the whole, and knows if that is all. -/
structure Holds (output : Capture) (cap : Nat) (whole : Bytes) : Prop where
  bytes : output.bytes = whole.take cap
  isTruncated : output.isTruncated = true ↔ cap < whole.length
  cap : output.cap = cap

theorem holds_ofBytes (whole : Bytes) (cap : Nat) :
    (ofBytes whole cap).Holds cap whole where
  bytes := List.nil_append _
  isTruncated := by
    change (false || decide (cap - 0 < whole.length)) = true ↔ _
    rw [Bool.false_or, decide_eq_true_iff, Nat.sub_zero]
  cap := rfl

theorem holds_empty (cap : Nat) : (empty cap).Holds cap [] where
  bytes := by simp [empty]
  isTruncated := by simp [empty]
  cap := rfl

/-- Status and faults do not matter. -/
theorem Holds.of_eq {output other : Capture} {cap : Nat} {whole : Bytes}
    (ho : output.Holds cap whole) (hbytes : other.bytes = output.bytes)
    (hcut : other.isTruncated = output.isTruncated) (hcap : other.cap = output.cap) :
    other.Holds cap whole where
  bytes := hbytes.trans ho.bytes
  isTruncated := by
    rw [hcut]
    exact ho.isTruncated
  cap := hcap.trans ho.cap

/-- What is added is kept as far as it belongs to the first bytes. -/
theorem Holds.append {output : Capture} {cap : Nat} {whole : Bytes}
    (ho : output.Holds cap whole) (more : Bytes) :
    (output.append more).Holds cap (whole ++ more) := by
  have hroom : output.room = cap - whole.length := by
    rw [room, ho.cap, ho.bytes, List.length_take]
    omega
  refine ⟨?_, ?_, ho.cap⟩
  · change output.bytes ++ more.take output.room = _
    rw [hroom, ho.bytes, ← List.take_append]
  · simp only [Capture.append, Bool.or_eq_true, decide_eq_true_eq, ho.isTruncated, hroom,
      List.length_append]
    omega

/-- Nothing is missing of what is put into a buffer, if it comes from one that is at least as
large. -/
theorem Holds.concat_of_le {first second : Capture} {cap cap' : Nat} {a b : Bytes}
    (hle : cap ≤ cap') (hfirst : first.Holds cap a) (hsecond : second.Holds cap' b) :
    (first.concat second).Holds cap (a ++ b) := by
  have hroom : first.room = cap - a.length := by
    rw [room, hfirst.cap, hfirst.bytes, List.length_take]
    omega
  have hmin : min (cap - a.length) cap' = cap - a.length := by omega
  refine ⟨?_, ?_, hfirst.cap⟩
  · change first.bytes ++ second.bytes.take first.room = _
    rw [hroom, hfirst.bytes, hsecond.bytes, List.take_take, hmin, ← List.take_append]
  · have hlength : second.bytes.length = min cap' b.length := by
      rw [hsecond.bytes, List.length_take]
    simp only [Capture.concat, Capture.append, Bool.or_eq_true, decide_eq_true_eq,
      hfirst.isTruncated, hsecond.isTruncated, hroom, hlength, List.length_append]
    omega

/-- **Bounding two outputs and then the two together is bounding the whole.** -/
theorem Holds.concat {first second : Capture} {cap : Nat} {a b : Bytes}
    (hfirst : first.Holds cap a) (hsecond : second.Holds cap b) :
    (first.concat second).Holds cap (a ++ b) :=
  hfirst.concat_of_le (Nat.le_refl cap) hsecond

end Capture

/-! ## What was read of the programs -/

namespace Turn

/-- What the reads of a program's output gave, in order. -/
def answers (turn : Turn (Recorded σ)) : List Bytes :=
  (turn.after.view Exchange.received?).drop
    (turn.before.view Exchange.received?).length

/-- All that was read of a program's output, whether it was kept or not. -/
def raw (turn : Turn (Recorded σ)) : Bytes := turn.answers.flatten

/-- The output of a program that ran was read to its end; nothing was read of
one that could not be started. -/
def IsDrained (turn : Turn (Recorded σ)) : Prop :=
  match turn.result with
  | .ok _ => ∃ chunks : List Bytes, (∀ chunk ∈ chunks, chunk ≠ []) ∧
      turn.answers = chunks ++ [[]]
  | .error _ => turn.answers = []

end Turn

namespace Runner

variable {r : Runner}

/-- The capture of a program that ran is that of all that was read of it. -/
theorem Received.output_eq (turn : Turn (Recorded σ)) {output : Capture}
    {status : Status} (hr : Received r turn.before turn.after turn.result)
    (hresult : turn.result = .ok (output, status)) :
    output = Capture.ofBytes turn.raw r.cap := by
  rw [hresult] at hr
  obtain ⟨chunks, -, hview, houtput⟩ := hr
  have hraw : turn.raw = chunks.flatten := by
    rw [Turn.raw, Turn.answers, hview, List.drop_left]
    simp
  rw [hraw, houtput]

/-- Nothing was read of a program that could not be started. -/
theorem Received.raw_eq_nil (turn : Turn (Recorded σ)) {f : Failure}
    (hr : Received r turn.before turn.after turn.result)
    (hresult : turn.result = .error f) (hf : f.isFatal = false) :
    turn.raw = [] := by
  rw [hresult] at hr
  rw [Turn.raw, Turn.answers, hr hf, List.drop_length, List.flatten_nil]

theorem Received.isDrained {turn : Turn (Recorded σ)}
    (hr : Received r turn.before turn.after turn.result)
    (hgoes : ∀ f, turn.result = .error f → f.isFatal = false) : turn.IsDrained := by
  unfold Turn.IsDrained
  cases hresult : turn.result with
  | ok p =>
      rw [hresult] at hr
      obtain ⟨chunks, hne, hview, -⟩ := hr
      refine ⟨chunks, hne, ?_⟩
      rw [Turn.answers, hview, List.drop_left]
  | error f =>
      rw [hresult] at hr
      simp only
      rw [Turn.answers, hr (hgoes f hresult), List.drop_length]

end Runner

/-! ## What is heard -/

namespace Expression

/-- The left sides of the sequences and pipes, each by its first place and the
place after its last. -/
def silenced (n : Nat) : Expression → List (Nat × Nat)
  | simple _ => []
  | binary .concat left right => left.silenced n ++ right.silenced (n + left.size)
  | binary _ left right =>
      (n, n + left.size) :: (left.silenced n ++ right.silenced (n + left.size))

/-- Does the command at a place belong to the composition that stands after `n`
commands, and to no left side of a sequence or a pipe in it? -/
def Heard (e : Expression) (n i : Nat) : Prop :=
  (n ≤ i ∧ i < n + e.size) ∧ ∀ span ∈ e.silenced n, ¬(span.1 ≤ i ∧ i < span.2)

instance (e : Expression) (n i : Nat) : Decidable (e.Heard n i) :=
  inferInstanceAs (Decidable (_ ∧ _))

theorem mem_silenced_binary {op : Operator} {n : Nat} {left right : Expression}
    {span : Nat × Nat} :
    span ∈ (binary op left right).silenced n ↔
      (op ≠ .concat ∧ span = (n, n + left.size)) ∨ span ∈ left.silenced n ∨
        span ∈ right.silenced (n + left.size) := by
  cases op <;> simp [silenced]

theorem bounds_of_mem_silenced {e : Expression} :
    ∀ {n : Nat} {span : Nat × Nat}, span ∈ e.silenced n →
      n ≤ span.1 ∧ span.2 ≤ n + e.size := by
  induction e with
  | simple c =>
      intro n span hspan
      cases hspan
  | binary op left right ihl ihr =>
      intro n span hspan
      rw [size]
      rcases mem_silenced_binary.mp hspan with ⟨-, rfl⟩ | hspan | hspan
      · simp only
        omega
      · have := ihl hspan
        omega
      · have := ihr hspan
        omega

variable {op : Operator} {left right : Expression} {n i : Nat}

/-- The right side is heard whatever the operator. -/
theorem heard_right (hle : n + left.size ≤ i) :
    (binary op left right).Heard n i ↔ right.Heard (n + left.size) i := by
  constructor
  · rintro ⟨⟨-, hlt⟩, hspans⟩
    rw [size] at hlt
    refine ⟨⟨hle, by omega⟩, fun span hspan => ?_⟩
    exact hspans span (mem_silenced_binary.mpr (Or.inr (Or.inr hspan)))
  · rintro ⟨⟨-, hlt⟩, hspans⟩
    refine ⟨⟨by omega, by rw [size]; omega⟩, fun span hspan => ?_⟩
    rcases mem_silenced_binary.mp hspan with ⟨-, rfl⟩ | hspan | hspan
    · simp only
      omega
    · have := bounds_of_mem_silenced hspan
      omega
    · exact hspans span hspan

/-- The left side is heard under a concatenation, … -/
theorem heard_left (hlt : i < n + left.size) :
    (binary .concat left right).Heard n i ↔ left.Heard n i := by
  constructor
  · rintro ⟨⟨hle, -⟩, hspans⟩
    refine ⟨⟨hle, hlt⟩, fun span hspan => ?_⟩
    exact hspans span (mem_silenced_binary.mpr (Or.inr (Or.inl hspan)))
  · rintro ⟨⟨hle, -⟩, hspans⟩
    refine ⟨⟨hle, by rw [size]; omega⟩, fun span hspan => ?_⟩
    rcases mem_silenced_binary.mp hspan with ⟨hop, -⟩ | hspan | hspan
    · exact absurd rfl hop
    · exact hspans span hspan
    · have := bounds_of_mem_silenced hspan
      omega

/-- … and under no other operator. -/
theorem not_heard_left (hop : op ≠ .concat) (hlt : i < n + left.size) :
    ¬(binary op left right).Heard n i := by
  rintro ⟨⟨hle, -⟩, hspans⟩
  exact hspans (n, n + left.size) (mem_silenced_binary.mpr (Or.inl ⟨hop, rfl⟩))
    ⟨hle, hlt⟩

end Expression

/-- What the composition that stands after `n` commands would have come to
without any bound. -/
def unbounded (e : Expression) (n : Nat) (steps : List (Step (Recorded σ))) : Bytes :=
  ((turns steps).filter fun turn => e.Heard n turn.place).flatMap Turn.raw

section Halves

variable {n : Nat} {left right : Expression} {steps tl tr : List (Step (Recorded σ))}
  {mid : List (Creation (Recorded σ))}

private theorem unbounded_binary {op : Operator}
    (hh : Halves n left right steps tl mid tr) :
    unbounded (.binary op left right) n steps
      = ((turns tl).filter fun turn =>
            (Expression.binary op left right).Heard n turn.place).flatMap Turn.raw
          ++ unbounded right (n + left.size) tr := by
  rw [unbounded, hh.turns_eq, List.filter_append, List.flatMap_append, unbounded]
  congr 2
  refine List.filter_congr fun turn hturn => ?_
  have hbounds := hh.right_inOrder.place_bounds hturn
  exact decide_eq_decide.mpr (Expression.heard_right hbounds.1)

/-- Both sides of a concatenation are heard, … -/
theorem unbounded_concat (hh : Halves n left right steps tl mid tr) :
    unbounded (.binary .concat left right) n steps
      = unbounded left n tl ++ unbounded right (n + left.size) tr := by
  rw [unbounded_binary hh, unbounded]
  congr 2
  refine List.filter_congr fun turn hturn => ?_
  have hbounds := hh.left_whole.place_bounds hturn
  exact decide_eq_decide.mpr (Expression.heard_left hbounds.2)

/-- … and only the right side of all else. -/
theorem unbounded_other {op : Operator} (hop : op ≠ .concat)
    (hh : Halves n left right steps tl mid tr) :
    unbounded (.binary op left right) n steps
      = unbounded right (n + left.size) tr := by
  have hnone : ((turns tl).filter fun turn =>
      (Expression.binary op left right).Heard n turn.place) = [] := by
    refine List.filter_eq_nil_iff.mpr fun turn hturn => ?_
    have hbounds := hh.left_whole.place_bounds hturn
    simpa using Expression.not_heard_left hop hbounds.2
  rw [unbounded_binary hh, hnone, List.flatMap_nil, List.nil_append]

/-- What a part comes to is a matter of the calls for its places. -/
theorem unbounded_eq_of_turnsIn {e : Expression} {inner : List (Step (Recorded σ))}
    (hturns : turns inner = turnsIn n (n + e.size) steps) :
    unbounded e n inner = unbounded e n steps := by
  rw [unbounded, unbounded, hturns, turnsIn, List.filter_filter]
  congr 1
  refine List.filter_congr fun turn _ => ?_
  rw [← Bool.decide_and]
  exact decide_eq_decide.mpr ⟨fun hboth => hboth.1, fun hheard => ⟨hheard, hheard.1⟩⟩

end Halves

namespace Evaluator

variable {h : Host σ} {relays : RelayStore} {r : Runner}

theorem holds_outcome {path : String} {output : Capture} {status : Status}
    {cap : Nat} {whole : Bytes} (ho : output.Holds cap whole) :
    (outcome path output status).Holds cap whole := by
  cases hstatus : status.isSuccess with
  | true =>
      rw [outcome, hstatus]
      exact ho.of_eq rfl rfl rfl
  | false =>
      rw [outcome, hstatus]
      exact ho.of_eq rfl rfl rfl

private theorem unbounded_simple {n : Nat} {c : Command} {turn : Turn (Recorded σ)}
    {steps : List (Step (Recorded σ))} (hturns : turns steps = [turn])
    (hplace : turn.place = n) : unbounded (.simple c) n steps = turn.raw := by
  have hheard : (Expression.simple c).Heard n turn.place := by
    rw [hplace]
    refine ⟨⟨Nat.le_refl n, Nat.lt_succ_self n⟩, fun span hspan => ?_⟩
    cases hspan
  rw [unbounded, hturns, List.filter_cons_of_pos (by simpa using hheard),
    List.filter_nil, List.flatMap_singleton]

/-- **An evaluation has the first bytes of what it would have come to without
any bound.** -/
theorem Completes.holds {n : Nat} {e : Expression} {input : InputSource}
    {s t : Session (Recorded σ)} {steps : List (Step (Recorded σ))}
    {output : Capture}
    (he : Completes h.recorded relays r n e input s steps output t) :
    output.Holds r.cap (unbounded e n steps) := by
  induction he with
  | @ran n c input s t argv output status _ hrun =>
      rw [unbounded_simple (turns_callSteps n s c argv input _ t) rfl,
        Runner.Received.output_eq ⟨n, c, argv, input, _, _, t⟩
          (Runner.run_received hrun) rfl]
      exact holds_outcome (Capture.holds_ofBytes _ _)
  | @skipped n c input s t argv f _ hrun hf =>
      have hturns : turns (callSteps h.recorded n s c argv input (.error f) t
          ++ [⟨t, .note (.skipped f), t.noted h.recorded (.skipped f)⟩])
          = [⟨n, c, argv, input, .error f, s.noted h.recorded (.argv argv), t⟩] := by
        rw [turns_append, turns_note, List.append_nil, turns_callSteps]
      have hnothing := Runner.Received.raw_eq_nil
        ⟨n, c, argv, input, .error f, s.noted h.recorded (.argv argv), t⟩
        (Runner.run_received hrun) rfl hf
      rw [unbounded_simple hturns rfl, hnothing]
      exact (Capture.holds_empty r.cap).of_eq rfl rfl rfl
  | @joined _ op _ _ _ _ _ _ _ _ _ _ hop hl hr ihl ihr =>
      have hh := Halves.join hl.whole hr.whole.toInOrder
      cases op with
      | concat =>
          rw [unbounded_concat hh]
          exact ihl.concat ihr
      | sequence =>
          rw [unbounded_other (by decide) hh]
          exact ihr.of_eq rfl rfl rfl
      | pipe => exact absurd rfl hop
  | piped hl _ _ hr _ ihl ihr =>
      rw [unbounded_other (by decide) (halves_pipe hl.whole hr.whole.toInOrder
        (isQuiet_release _ _ _ _ _))]
      exact ihr.of_eq rfl rfl rfl

/-! ## Every evaluation that returns -/

theorem Completes.isDrained {n : Nat} {e : Expression} {input : InputSource}
    {s t : Session (Recorded σ)} {steps : List (Step (Recorded σ))}
    {output : Capture}
    (he : Completes h.recorded relays r n e input s steps output t) :
    ∀ turn ∈ turns steps, turn.IsDrained := by
  intro turn hturn
  have hanswered := he.answered turn hturn
  exact (Runner.run_received hanswered.answer).isDrained hanswered.goes

/-- What goes through a pipe is bounded as well. -/
theorem holds_of_passage {steps : List (Step (Recorded σ))}
    {made : Creation (Recorded σ)} {upstream : Capture}
    {written : Session (Recorded σ)}
    (hp : Passage h.recorded relays r steps made upstream written) :
    upstream.Holds r.cap (unbounded made.pipe.left made.pipe.first steps) := by
  obtain ⟨input, s, inner, he, hturns⟩ := hp.evaluated
  rw [← unbounded_eq_of_turnsIn hturns]
  exact he.holds

/-- How the bounded output of an evaluation that made the steps stands to what
was read of its programs. -/
structure Bounded (files : Files σ ι) (h : Host σ) (r : Runner) (e : Expression)
    (steps : List (Step (Recorded σ))) (output : Capture) : Prop where
  /-- The runner is called once for every command, from left to right. -/
  commands : (turns steps).map Turn.command = e.leaves
  /-- The calls are counted from zero. -/
  places : (turns steps).map Turn.place = List.range' 0 e.size
  /-- One relay is made for every pipe. -/
  pipes : (creations steps).map Creation.pipe = e.pipesFrom 0
  /-- Every program that ran is read to its end. -/
  drained : ∀ turn ∈ turns steps, turn.IsDrained
  /-- The output has the first bytes of the unbounded one, and says whether
  there were more. -/
  holds : output.Holds r.cap (unbounded e 0 steps)
  /-- So has every relay when its reader is called, for the left side of its
  pipe. -/
  handed : ∀ made ∈ creations steps, ∃ upstream : Capture,
    upstream.Holds r.cap (unbounded made.pipe.left made.pipe.first steps) ∧
      ∀ turn ∈ turns steps, turn.place = made.pipe.middle →
        Reads files.recorded h.recorded turn made upstream

/-- **A bounded evaluation refines the unbounded one.**  This is so for every
composition, every capacity, every host whose files are lawful, and whatever the
programs do. -/
theorem dispatch_bounded [DecidableEq ι] {files : Files σ ι} {h : Host σ}
    {relays : RelayStore} (w : files.Lawful h relays) (r : Runner)
    (e : Expression) (input : InputSource) {s t : Session σ} {output : Capture}
    (hrun : (dispatch h relays r e input).on s = (.ok output, t)) :
    ∃ (steps : List (Step (Recorded σ))) (t' : Session (Recorded σ)),
      t'.plain = t ∧
        Completes h.recorded relays r 0 e input s.recording steps output t' ∧
          Bounded files h r e steps output := by
  obtain ⟨t', hplain, hrecorded⟩ := dispatch_recording hrun
  obtain ⟨steps, he⟩ := (dispatch_eq_ok_iff 0).mp hrecorded
  have hwhole := he.whole
  refine ⟨steps, t', hplain, he, hwhole.commands_eq, hwhole.places_eq,
    hwhole.pipes_eq, he.isDrained, he.holds, ?_⟩
  intro made hmade
  obtain ⟨upstream, written, hp⟩ := he.passages made hmade
  exact ⟨upstream, holds_of_passage hp, fun turn hturn hplace =>
    he.reads w.recorded hmade hp hturn hplace⟩

open Sandbox Sandbox.Sample in
/-- The sample composition, with three bytes for each output. -/
theorem dispatch_bounded_sample :
    (dispatch (host oracle) store Sample.runner composition .inherited).on start
        = (.ok Sample.output, finish) ∧
      ∃ (steps : List (Step (Recorded State))) (t' : Session (Recorded State)),
        t'.plain = finish ∧
          Completes (host oracle).recorded store Sample.runner 0 composition .inherited
            start.recording steps Sample.output t' ∧
          Bounded Sandbox.files (host oracle) Sample.runner composition steps
            Sample.output :=
  ⟨dispatch_eq, dispatch_bounded (lawful oracle store) Sample.runner
    composition .inherited dispatch_eq⟩

end Evaluator

end CommandExpr
