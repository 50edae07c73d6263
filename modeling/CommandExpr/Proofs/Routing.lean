import CommandExpr.Proofs.Files
import CommandExpr.Proofs.Runs
import CommandExpr.Proofs.Sandbox
import CommandExpr.Proofs.Turns

/-!
# Where every command's input comes from

An evaluation is given one input.  Its first command receives it; the command
at the middle of a pipe receives the relay of the pipe, which at that time
contains the output of the pipe's left side and nothing else; every other
command receives what the host was given.

The induction on a composition is over its steps.  `Routed` is what it proves
of the calls for an input that is given from outside, and `Passage` of a relay.

## Main results

* `Evaluator.dispatch_routing` — all of it, for every evaluation that returns.
-/

namespace CommandExpr

variable {σ ι : Type}

/-- Every call has its input from where it should, if the composition stands
after `n` commands and is given the input. -/
structure Routed (n : Nat) (input : InputSource) (steps : List (Step σ)) : Prop where
  /-- The first command has the input that is given. -/
  head : ∀ turn ∈ turns steps, turn.place = n → turn.input = input
  /-- The command at the middle of a pipe has the relay of the pipe. -/
  fed : ∀ turn ∈ turns steps, ∀ made ∈ creations steps,
    turn.place = made.pipe.middle → turn.input = .relay made.relay
  /-- All others have what the host was given. -/
  others : ∀ turn ∈ turns steps, turn.place ≠ n →
    (∀ made ∈ creations steps, turn.place ≠ made.pipe.middle) →
      turn.input = .inherited

/-- The left side of a pipe was evaluated just before its relay was made, its
output was written to the relay, and then the reader of the relay was called
with nothing in between but notices. -/
structure Passage (h : Host σ) (relays : RelayStore) (r : Runner)
    (steps : List (Step σ)) (made : Creation σ) (upstream : Capture)
    (written : Session σ) : Prop where
  /-- The left side has come to the output, by the calls for its places. -/
  evaluated : ∃ input s tl,
    Evaluator.Completes h relays r made.pipe.first made.pipe.left input s tl
        upstream made.before ∧
      turns tl = turnsIn made.pipe.first made.pipe.middle steps
  /-- The output went into the relay. -/
  write : ⟨made.after, .write made.pipe made.relay upstream (.ok ()), written⟩
    ∈ steps
  /-- From there the reader is called. -/
  read : ∀ turn ∈ turns steps, turn.place = made.pipe.middle →
    turn.before = (written.noted h
      (Evaluator.feedNotice made.relay made.pipe.right)).noted h (.argv turn.argv)

/-! ## The sides of a composition -/

section Halves

variable {n : Nat} {left right : Expression} {steps tl tr : List (Step σ)}
  {mid : List (Creation σ)}

theorem Routed.halves {input next : InputSource}
    (hh : Halves n left right steps tl mid tr) (hl : Routed n input tl)
    (hr : Routed (n + left.size) next tr)
    (hmid : ∀ made ∈ mid, next = .relay made.relay)
    (hnone : mid = [] → next = .inherited) : Routed n input steps where
  head := by
    intro turn hturn hplace
    exact hl.head turn (hh.turn_first hturn hplace) hplace
  fed := by
    intro turn hturn made hmade hplace
    rcases hh.mem_creations.mp hmade with hmade | hmade | hmade
    · have := hh.middle_left hmade
      exact hl.fed turn (hh.turn_left hturn (by omega)) made hmade hplace
    · have hmiddle := hh.middle_mid hmade
      have hturn := hh.turn_right hturn (by omega)
      rw [hr.head turn hturn (by omega), hmid made hmade]
    · have := hh.middle_right hmade
      exact hr.fed turn (hh.turn_right hturn (by omega)) made hmade hplace
  others := by
    intro turn hturn hplace hother
    have hof : ∀ {made : Creation σ}, made ∈ creations tl ∨ made ∈ mid ∨
        made ∈ creations tr → turn.place ≠ made.pipe.middle :=
      fun hmade => hother _ (hh.mem_creations.mpr hmade)
    by_cases hlt : turn.place < n + left.size
    · exact hl.others turn (hh.turn_left hturn hlt) hplace
        fun made hmade => hof (Or.inl hmade)
    · have hturn := hh.turn_right hturn (by omega)
      by_cases hstart : turn.place = n + left.size
      · have hmidNil : mid = [] := by
          refine List.eq_nil_iff_forall_not_mem.mpr fun made hmade => ?_
          have := hh.middle_mid hmade
          exact hof (Or.inr (Or.inl hmade)) (by omega)
        rw [hr.head turn hturn hstart, hnone hmidNil]
      · exact hr.others turn hturn hstart
          fun made hmade => hof (Or.inr (Or.inr hmade))

variable {h : Host σ} {relays : RelayStore} {r : Runner} {made : Creation σ}
  {upstream : Capture} {written : Session σ}

theorem Passage.of_left (hp : Passage h relays r tl made upstream written)
    (hh : Halves n left right steps tl mid tr) (hmade : made ∈ creations tl) :
    Passage h relays r steps made upstream written where
  evaluated := by
    have hmiddle := hh.middle_left hmade
    obtain ⟨input, s, inner, he, hturns⟩ := hp.evaluated
    refine ⟨input, s, inner, he, ?_⟩
    rw [hh.turnsIn_left (Nat.le_of_lt hmiddle), hturns]
  write := hh.left_subset hp.write
  read turn hturn hplace := by
    have hmiddle := hh.middle_left hmade
    exact hp.read turn (hh.turn_left hturn (by omega)) hplace

theorem Passage.of_right (hp : Passage h relays r tr made upstream written)
    (hh : Halves n left right steps tl mid tr) (hmade : made ∈ creations tr) :
    Passage h relays r steps made upstream written where
  evaluated := by
    obtain ⟨input, s, inner, he, hturns⟩ := hp.evaluated
    refine ⟨input, s, inner, he, ?_⟩
    rw [hh.turnsIn_right (hh.first_right hmade), hturns]
  write := hh.right_subset hp.write
  read turn hturn hplace := by
    have hmiddle := hh.middle_right hmade
    exact hp.read turn (hh.turn_right hturn (by omega)) hplace

end Halves

namespace Evaluator

variable {h : Host σ} {relays : RelayStore} {r : Runner}

/-- The first call of an evaluation. -/
theorem Completes.first {n : Nat} {e : Expression} {input : InputSource}
    {s t : Session σ} {steps : List (Step σ)} {output : Capture}
    (he : Completes h relays r n e input s steps output t) :
    ∀ turn ∈ turns steps, turn.place = n →
      turn.input = input ∧ turn.before = s.noted h (.argv turn.argv) := by
  induction he with
  | ran _ _ =>
      intro turn hturn _
      obtain rfl := List.mem_singleton.mp hturn
      exact ⟨rfl, rfl⟩
  | skipped _ _ _ =>
      intro turn hturn _
      obtain rfl := List.mem_singleton.mp hturn
      exact ⟨rfl, rfl⟩
  | joined _ hl hr ihl _ =>
      intro turn hturn hplace
      have hh := Halves.join hl.whole hr.whole.toInOrder
      exact ihl turn (hh.turn_first hturn hplace) hplace
  | piped hl _ _ hr _ ihl _ =>
      intro turn hturn hplace
      refine ihl turn ?_ hplace
      exact (halves_pipe hl.whole hr.whole.toInOrder
        (isQuiet_release _ _ _ _ _)).turn_first hturn hplace

private theorem routed_simple {n : Nat} {input : InputSource} {turn : Turn σ}
    {steps : List (Step σ)} (hturns : turns steps = [turn])
    (hcreations : creations steps = []) (hplace : turn.place = n)
    (hinput : turn.input = input) : Routed n input steps where
  head := by
    rw [hturns]
    intro other hother _
    rw [List.mem_singleton.mp hother, hinput]
  fed := by
    rw [hcreations]
    intro _ _ made hmade
    cases hmade
  others := by
    rw [hturns]
    intro other hother hne
    rw [List.mem_singleton.mp hother] at hne
    exact absurd hplace hne

/-- Every command has its input from where it should. -/
theorem Completes.routed {n : Nat} {e : Expression} {input : InputSource}
    {s t : Session σ} {steps : List (Step σ)} {output : Capture}
    (he : Completes h relays r n e input s steps output t) :
    Routed n input steps := by
  induction he with
  | ran _ _ => exact routed_simple rfl rfl rfl rfl
  | skipped _ _ _ => exact routed_simple rfl rfl rfl rfl
  | joined _ hl hr ihl ihr =>
      have hh := Halves.join hl.whole hr.whole.toInOrder
      exact ihl.halves hh ihr (by simp) (fun _ => rfl)
  | piped hl _ _ hr _ ihl ihr =>
      exact ihl.halves (halves_pipe hl.whole hr.whole.toInOrder
        (isQuiet_release _ _ _ _ _)) ihr (by simp) (by simp)

/-- Every relay is the passage of its pipe's left output. -/
theorem Completes.passages {n : Nat} {e : Expression} {input : InputSource}
    {s t : Session σ} {steps : List (Step σ)} {output : Capture}
    (he : Completes h relays r n e input s steps output t) :
    ∀ made ∈ creations steps,
      ∃ upstream written, Passage h relays r steps made upstream written := by
  induction he with
  | ran _ _ =>
      intro made hmade
      cases hmade
  | skipped _ _ _ =>
      intro made hmade
      cases hmade
  | joined _ hl hr ihl ihr =>
      intro made hmade
      have hh := Halves.join hl.whole hr.whole.toInOrder
      rcases hh.mem_creations.mp hmade with hmade | hmade | hmade
      · obtain ⟨upstream, written, hp⟩ := ihl made hmade
        exact ⟨upstream, written, hp.of_left hh hmade⟩
      · cases hmade
      · obtain ⟨upstream, written, hp⟩ := ihr made hmade
        exact ⟨upstream, written, hp.of_right hh hmade⟩
  | @piped n left right _ s t t₁ t₂ t₃ u tl tr upstream _ relay hl hcreate hwrite hr
      hrelease ihl ihr =>
      intro made hmade
      have hh : Halves n left right
          (tl ++ (handOver h ⟨left, right, n⟩ t t₁ t₂ relay upstream
            ++ (tr ++ [⟨t₃, .release ⟨left, right, n⟩ relay (.ok ()), u⟩])))
          tl [⟨⟨left, right, n⟩, relay, t, t₁⟩] tr :=
        halves_pipe hl.whole hr.whole.toInOrder (isQuiet_release _ _ _ _ _)
      rcases hh.mem_creations.mp hmade with hmade | hmade | hmade
      · obtain ⟨upstream, written, hp⟩ := ihl made hmade
        exact ⟨upstream, written, hp.of_left hh hmade⟩
      · obtain rfl := List.mem_singleton.mp hmade
        refine ⟨upstream, t₂, ?_, ?_, ?_⟩
        · refine ⟨_, s, tl, hl, ?_⟩
          rw [Pipe.middle, hh.turnsIn_left (Nat.le_refl _),
            hl.whole.turnsIn_eq]
        · simp [handOver]
        · intro turn hturn hplace
          have hturn := hh.turn_right hturn (Nat.le_of_eq hplace.symm)
          exact (hr.first turn hturn hplace).2
      · obtain ⟨upstream, written, hp⟩ := ihr made hmade
        exact ⟨upstream, written, hp.of_right hh hmade⟩

/-- A call was made with the argument vector of its command, and the runner's
answer to it did not end the evaluation. -/
structure Answered (h : Host σ) (r : Runner) (turn : Turn σ) : Prop where
  prepared : Argv.ofCommand turn.command = .ok turn.argv
  answer : (r.run h turn.argv turn.input).on turn.before
    = (turn.result, turn.after)
  goes : ∀ f, turn.result = .error f → f.isFatal = false

theorem Completes.answered {n : Nat} {e : Expression} {input : InputSource}
    {s t : Session σ} {steps : List (Step σ)} {output : Capture}
    (he : Completes h relays r n e input s steps output t) :
    ∀ turn ∈ turns steps, Answered h r turn := by
  induction he with
  | ran hargv hrun =>
      intro turn hturn
      obtain rfl := List.mem_singleton.mp hturn
      exact ⟨hargv, hrun, by simp⟩
  | skipped hargv hrun hf =>
      intro turn hturn
      obtain rfl := List.mem_singleton.mp hturn
      exact ⟨hargv, hrun, by simp [hf]⟩
  | joined _ hl hr ihl ihr =>
      exact (Halves.join hl.whole hr.whole.toInOrder).forall_turns ihl ihr
  | piped hl _ _ hr _ ihl ihr =>
      exact (halves_pipe hl.whole hr.whole.toInOrder
        (isQuiet_release _ _ _ _ _)).forall_turns ihl ihr

/-! ## What a relay contains -/

/-- The reader of a relay is the command at the middle of the relay's pipe.  It
is called with the relay for its input, which contains the left output and
nothing else; unless one of its arguments is refused, it begins by opening the
relay, and reads it from its start. -/
structure Reads (files : Files σ ι) (h : Host σ) (turn : Turn σ)
    (made : Creation σ) (upstream : Capture) : Prop where
  command : turn.command = made.pipe.right.leftmost
  input : turn.input = .relay made.relay
  content : files.content turn.before.machine (files.entry made.relay.path)
    = some upstream.bytes
  opened : turn.argv.any Bytes.hasNul = false →
    ∃ handle m, h.openRead made.relay.path turn.before.machine = (.ok handle, m) ∧
      files.content m = files.content turn.before.machine ∧
        files.cursor m handle = some (files.entry made.relay.path, 0)

section Content

variable [DecidableEq ι] {files : Files σ ι} {s t : Session σ}
  {steps : List (Step σ)} {made : Creation σ} {upstream : Capture}
  {written : Session σ}

/-- When its reader is called, a relay contains the left output. -/
theorem content_of_passage (w : files.Lawful h relays)
    (hlinked : Linked h relays r s steps t) (hmade : made ∈ creations steps)
    (hp : Passage h relays r steps made upstream written) {turn : Turn σ}
    (hturn : turn ∈ turns steps) (hplace : turn.place = made.pipe.middle) :
    files.content turn.before.machine (files.entry made.relay.path)
      = some upstream.bytes := by
  have hcreate : (Relay.create h relays).on made.before
      = (.ok made.relay, made.after) :=
    hlinked.leads (exists_step_of_mem_creations hmade)
  have hwrite : (made.relay.write h upstream).on made.after = (.ok (), written) :=
    hlinked.leads hp.write
  obtain ⟨hcontent, -⟩ := w.write_ok (w.create_ok hcreate) hwrite
  have hfed := w.note (feedNotice made.relay made.pipe.right) written
  have hargv := w.note (.argv turn.argv)
    (written.noted h (feedNotice made.relay made.pipe.right))
  rw [hp.read turn hturn hplace, hargv.content, hfed.content, hcontent,
    Function.update_self]

/-- A run with a relay opens the relay first of all, and reads it from its
start, unless an argument is refused. -/
theorem opened_of_run (w : files.Lawful h relays) {argv : List Bytes}
    {relay : Relay} {result : Except Failure (Capture × Status)}
    (hrun : (r.run h argv (.relay relay)).on s = (result, t))
    (hgoes : ∀ f, result = .error f → f.isFatal = false)
    (hnames : relays.Names relay.path) (hnul : argv.any Bytes.hasNul = false) :
    ∃ handle m, h.openRead relay.path s.machine = (.ok handle, m) ∧
      files.content m = files.content s.machine ∧
        files.cursor m handle = some (files.entry relay.path, 0) := by
  cases Runner.runs_of_run hrun with
  | empty => exact absurd (hgoes _ rfl) (by decide)
  | refused hrefused => simp [hrefused] at hnul
  | unopened _ hopen =>
      exact absurd (Relay.isFatal_of_openForRead hopen) (by simp [hgoes _ rfl])
  | fed _ hopen _ =>
      have hread := Relay.openRead_of_openForRead hopen
      obtain ⟨hsame, hcursor⟩ := w.openRead_ok hnames hread
      exact ⟨_, _, hread, hsame.content, hcursor⟩

/-- The reader of a passage reads what the left side came to. -/
theorem Completes.reads (w : files.Lawful h relays) {n : Nat} {e : Expression}
    {input : InputSource} {output : Capture}
    (he : Completes h relays r n e input s steps output t)
    (hmade : made ∈ creations steps)
    (hp : Passage h relays r steps made upstream written) {turn : Turn σ}
    (hturn : turn ∈ turns steps) (hplace : turn.place = made.pipe.middle) :
    Reads files h turn made upstream := by
  have hwhole := he.whole
  have hreader : (made.pipe.right.leftmost, turn.place) ∈ e.leaves.zipIdx n := by
    rw [hplace]
    exact Expression.leftmost_mem_zipIdx (hwhole.mem_pipesFrom hmade)
  have hinput := he.routed.fed turn hturn made hmade hplace
  have hanswered := he.answered turn hturn
  have hcreate : (Relay.create h relays).on made.before
      = (.ok made.relay, made.after) :=
    he.linked.leads (exists_step_of_mem_creations hmade)
  refine ⟨hwhole.command_eq hturn hreader, hinput,
    content_of_passage w he.linked hmade hp hturn hplace, ?_⟩
  intro hnul
  have hanswer := hanswered.answer
  rw [hinput] at hanswer
  exact opened_of_run w hanswer hanswered.goes (w.create_ok hcreate).names hnul

end Content

/-! ## What is opened -/

section Opening

variable {s t : Session (Recorded σ)}

private theorem create_opening {result : Except Failure Relay}
    (hrun : (Relay.create h.recorded relays).on s = (result, t)) :
    t.view Exchange.opening? = s.view Exchange.opening? :=
  view_eq_of_agree (fun seen => (storing_opening h seen).createFrom relays _ 0) hrun

private theorem write_opening {relay : Relay} {output : Capture}
    {result : Except Failure Unit}
    (hrun : (relay.write h.recorded output).on s = (result, t)) :
    t.view Exchange.opening? = s.view Exchange.opening? :=
  view_eq_of_agree (fun seen => (storing_opening h seen).write relay output) hrun

private theorem release_opening {relay : Relay} {result : Except Failure Unit}
    (hrun : (relay.release h.recorded).on s = (result, t)) :
    t.view Exchange.opening? = s.view Exchange.opening? :=
  view_eq_of_agree (fun seen => (storing_opening h seen).release relay) hrun

/-- An evaluation opens what its calls open, in their order. -/
theorem Completes.opening {n : Nat} {e : Expression} {input : InputSource}
    {steps : List (Step (Recorded σ))} {output : Capture}
    (he : Completes h.recorded relays r n e input s steps output t) :
    t.view Exchange.opening? = s.view Exchange.opening?
      ++ (turns steps).flatMap fun turn => Runner.opens turn.argv turn.input := by
  induction he with
  | ran _ hrun =>
      rw [Runner.run_opening hrun (by simp), opening_noted, turns_callSteps,
        List.flatMap_singleton]
  | skipped _ hrun hf =>
      rw [opening_noted, Runner.run_opening hrun (by simp [hf]), opening_noted,
        turns_append, turns_note, List.append_nil, turns_callSteps,
        List.flatMap_singleton]
  | joined _ _ _ ihl ihr =>
      rw [ihr, ihl, turns_append, List.flatMap_append, List.append_assoc]
  | piped _ hcreate hwrite _ hrelease ihl ihr =>
      rw [turns_pipe (isQuiet_release _ _ _ _ _), List.flatMap_append,
        release_opening hrelease, ihr, opening_noted, write_opening hwrite,
        create_opening hcreate, ihl, List.append_assoc]

end Opening

/-! ## Every evaluation that returns -/

/-- Where every command's input comes from in an evaluation that made the
steps.  What is opened for reading is seen in the record. -/
structure Routing (files : Files σ ι) (h : Host σ) (relays : RelayStore)
    (r : Runner) (e : Expression) (input : InputSource)
    (s : Session σ) (t : Session (Recorded σ)) (steps : List (Step (Recorded σ))) :
    Prop where
  /-- The steps lead from one session to the other, and nothing else happens. -/
  linked : Linked h.recorded relays r s.recording steps t
  /-- The runner is called once for every command, from left to right. -/
  commands : (turns steps).map Turn.command = e.leaves
  /-- The calls are counted from zero. -/
  places : (turns steps).map Turn.place = List.range' 0 e.size
  /-- One relay is made for every pipe. -/
  pipes : (creations steps).map Creation.pipe = e.pipesFrom 0
  /-- It is made after the calls of the left side and before all later ones. -/
  moments : (moments steps).Pairwise (· < ·)
  /-- Each call is made with the command's argument vector. -/
  answered : ∀ turn ∈ turns steps, Answered h.recorded r turn
  /-- The leftmost command has the input of the whole. -/
  head : ∀ turn ∈ turns steps, turn.place = 0 →
    turn.command = e.leftmost ∧ turn.input = input
  /-- The relay of every pipe is filled with the output of the left side and
  handed to the leftmost command of the right side. -/
  fed : ∀ made ∈ creations steps, ∃ upstream written,
    Passage h.recorded relays r steps made upstream written ∧
      ∀ turn ∈ turns steps, turn.place = made.pipe.middle →
        Reads files.recorded h.recorded turn made upstream
  /-- All other commands have what the host was given. -/
  others : ∀ turn ∈ turns steps, turn.place ≠ 0 →
    (∀ p ∈ e.pipesFrom 0, turn.place ≠ p.middle) → turn.input = .inherited
  /-- Each call opens the relay that is its input, once, if its arguments can
  be passed on, and no other file is opened. -/
  opening : t.view Exchange.opening?
    = (turns steps).flatMap fun turn => Runner.opens turn.argv turn.input

/-- **Every command's input comes from where it should.**  This is so for every
composition, every input that is given from outside, and every host whose
files are lawful, whatever the programs do. -/
theorem dispatch_routing [DecidableEq ι] {files : Files σ ι} {h : Host σ}
    {relays : RelayStore} (w : files.Lawful h relays) (r : Runner)
    (e : Expression) (input : InputSource) {s t : Session σ} {output : Capture}
    (hrun : (dispatch h relays r e input).on s = (.ok output, t)) :
    ∃ (steps : List (Step (Recorded σ))) (t' : Session (Recorded σ)),
      t'.plain = t ∧
        Completes h.recorded relays r 0 e input s.recording steps output t' ∧
          Routing files h relays r e input s t' steps := by
  obtain ⟨t', hplain, hrecorded⟩ := dispatch_recording hrun
  obtain ⟨steps, he⟩ := (dispatch_eq_ok_iff 0).mp hrecorded
  have hwhole := he.whole
  have hrouted := he.routed
  refine ⟨steps, t', hplain, he, he.linked, hwhole.commands_eq, hwhole.places_eq,
    hwhole.pipes_eq, hwhole.moments, he.answered, ?_, ?_, ?_, he.opening⟩
  · intro turn hturn hplace
    have hhead : (e.leftmost, turn.place) ∈ e.leaves.zipIdx 0 := by
      rw [hplace]
      exact e.head_mem_zipIdx 0
    exact ⟨hwhole.command_eq hturn hhead, hrouted.head turn hturn hplace⟩
  · intro made hmade
    obtain ⟨upstream, written, hp⟩ := he.passages made hmade
    exact ⟨upstream, written, hp, fun turn hturn hplace =>
      he.reads w.recorded hmade hp hturn hplace⟩
  · intro turn hturn hplace hother
    refine hrouted.others turn hturn hplace fun made hmade => ?_
    exact hother _ (hwhole.mem_pipesFrom hmade)

open Sandbox Sandbox.Sample in
/-- The sample composition, with a pipe on the right side of a pipe. -/
theorem dispatch_routing_sample :
    (dispatch (host oracle) store Sample.runner composition .inherited).on start
        = (.ok Sample.output, finish) ∧
      ∃ (steps : List (Step (Recorded State))) (t' : Session (Recorded State)),
        t'.plain = finish ∧
          Completes (host oracle).recorded store Sample.runner 0 composition .inherited
            start.recording steps Sample.output t' ∧
          Routing Sandbox.files (host oracle) store Sample.runner composition .inherited
            start t' steps :=
  ⟨dispatch_eq, dispatch_routing (lawful oracle store) Sample.runner
    composition .inherited dispatch_eq⟩

end Evaluator

end CommandExpr
