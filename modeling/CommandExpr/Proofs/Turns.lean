import CommandExpr.Proofs.Derivation

/-!
# The calls and the relays of an evaluation

Statements on whole evaluations are about two kinds of steps: the calls of the
runner (`turns`) and the relays that were made (`creations`).  Both are listed
as they happened.

`InOrder` says how they stand to the composition, for an evaluation that may
have ended anywhere: the calls are made for the commands from left to right,
the relays for the pipes in the order in which their left sides end, and each
relay right before the call at its pipe's middle.  `Whole` says that no
command and no pipe is missing.

## Main results

* `Completes.whole`, `Fails.inOrder` — every evaluation is in order, and one
  that returns leaves nothing out.
-/

namespace CommandExpr

/-- A call of the runner. -/
structure Turn (σ : Type) where
  /-- The place of the command. -/
  place : Nat
  /-- The command. -/
  command : Command
  /-- Its argument vector. -/
  argv : List Bytes
  /-- Where its input comes from. -/
  input : InputSource
  /-- The runner's answer. -/
  result : Except Failure (Capture × Status)
  /-- The session in which the runner is called. -/
  before : Session σ
  /-- The session in which it answers. -/
  after : Session σ

/-- The making of a relay. -/
structure Creation (σ : Type) where
  /-- The pipe for which it is made. -/
  pipe : Pipe
  /-- The relay. -/
  relay : Relay
  /-- The session in which the left side has ended. -/
  before : Session σ
  /-- The session in which the relay is there. -/
  after : Session σ

variable {σ : Type}

namespace Step

/-- The call that a step makes. -/
def turn? (step : Step σ) : Option (Turn σ) :=
  match step.event with
  | .call place command argv input result =>
      some ⟨place, command, argv, input, result, step.before, step.after⟩
  | _ => none

/-- The relay that a step makes. -/
def creation? (step : Step σ) : Option (Creation σ) :=
  match step.event with
  | .create pipe (.ok relay) => some ⟨pipe, relay, step.before, step.after⟩
  | _ => none

/-- Where a step stands among the calls and the relays: the relay of a pipe
comes between the last command of the left side and the first of the right. -/
def moment? (step : Step σ) : Option Nat :=
  match step.event with
  | .call place .. => some (2 * place + 1)
  | .create pipe (.ok _) => some (2 * pipe.middle)
  | _ => none

end Step

/-- The calls of the runner, in order. -/
def turns (steps : List (Step σ)) : List (Turn σ) := steps.filterMap Step.turn?

/-- The relays that were made, in order. -/
def creations (steps : List (Step σ)) : List (Creation σ) :=
  steps.filterMap Step.creation?

/-- The moments of the calls and the relays, in the order in which they
happened. -/
def moments (steps : List (Step σ)) : List Nat := steps.filterMap Step.moment?

@[simp]
theorem turns_append (a b : List (Step σ)) : turns (a ++ b) = turns a ++ turns b :=
  List.filterMap_append

@[simp]
theorem creations_append (a b : List (Step σ)) :
    creations (a ++ b) = creations a ++ creations b :=
  List.filterMap_append

@[simp]
theorem moments_append (a b : List (Step σ)) :
    moments (a ++ b) = moments a ++ moments b :=
  List.filterMap_append

@[simp]
theorem turns_note (s t : Session σ) (n : Notice) : turns [⟨s, .note n, t⟩] = [] :=
  rfl

/-- A call stands in the steps as it was made. -/
theorem exists_step_of_mem_turns {steps : List (Step σ)} {turn : Turn σ}
    (hturn : turn ∈ turns steps) :
    ⟨turn.before, .call turn.place turn.command turn.argv turn.input turn.result,
      turn.after⟩ ∈ steps := by
  obtain ⟨⟨before, event, after⟩, hstep, hsome⟩ := List.mem_filterMap.mp hturn
  cases event <;> simp only [Step.turn?, reduceCtorEq, Option.some.injEq] at hsome
  subst hsome
  exact hstep

/-- A relay stands in the steps as it was made. -/
theorem exists_step_of_mem_creations {steps : List (Step σ)} {made : Creation σ}
    (hmade : made ∈ creations steps) :
    ⟨made.before, .create made.pipe (.ok made.relay), made.after⟩ ∈ steps := by
  obtain ⟨⟨before, event, after⟩, hstep, hsome⟩ := List.mem_filterMap.mp hmade
  unfold Step.creation? at hsome
  split at hsome
  · next heq =>
      simp only at heq
      simp only [Option.some.injEq] at hsome
      subst hsome heq
      exact hstep
  · simp at hsome

/-- Every moment is that of a call or of a relay. -/
theorem moment_cases {steps : List (Step σ)} {m : Nat} (hm : m ∈ moments steps) :
    (∃ turn ∈ turns steps, m = 2 * turn.place + 1) ∨
      ∃ made ∈ creations steps, m = 2 * made.pipe.middle := by
  obtain ⟨⟨before, event, after⟩, hstep, hsome⟩ := List.mem_filterMap.mp hm
  unfold Step.moment? at hsome
  split at hsome
  · next heq =>
      simp only at heq
      subst heq
      refine Or.inl ⟨_, List.mem_filterMap.mpr ⟨_, hstep, rfl⟩, ?_⟩
      exact (Option.some.inj hsome).symm
  · next heq =>
      simp only at heq
      subst heq
      refine Or.inr ⟨_, List.mem_filterMap.mpr ⟨_, hstep, rfl⟩, ?_⟩
      exact (Option.some.inj hsome).symm
  · simp at hsome

/-- The calls for the places from the first number to before the second. -/
def turnsIn (first stop : Nat) (steps : List (Step σ)) : List (Turn σ) :=
  (turns steps).filter fun turn => first ≤ turn.place ∧ turn.place < stop

/-! ## Order -/

/-- The calls and the relays follow the composition that stands after `n`
commands, as far as they go. -/
structure InOrder (n : Nat) (e : Expression) (steps : List (Step σ)) : Prop where
  /-- The calls are made for the commands from left to right. -/
  commands : (turns steps).map Turn.command <+: e.leaves
  /-- Each of them knows its place. -/
  places : (turns steps).map Turn.place = List.range' n (turns steps).length
  /-- The relays are made for the pipes as their left sides end. -/
  pipes : (creations steps).map Creation.pipe <+: e.pipesFrom n
  /-- A relay is made right before the call at the middle of its pipe. -/
  moments : (moments steps).Pairwise (· < ·)

/-- There is neither a call nor a new relay among the steps. -/
def IsQuiet (steps : List (Step σ)) : Prop :=
  turns steps = [] ∧ creations steps = [] ∧ moments steps = []

theorem isQuiet_release (p : Pipe) (relay : Relay) (result : Except Failure Unit)
    (s t : Session σ) : IsQuiet [⟨s, .release p relay result, t⟩] :=
  ⟨rfl, rfl, rfl⟩

theorem isQuiet_drop (p : Pipe) (relay : Relay) (s t : Session σ) :
    IsQuiet [⟨s, .drop p relay, t⟩] :=
  ⟨rfl, rfl, rfl⟩

/-- The calls and the relays follow the composition to its end. -/
structure Whole (n : Nat) (e : Expression) (steps : List (Step σ)) : Prop
    extends InOrder n e steps where
  /-- There is a call for every command. -/
  length_turns : (turns steps).length = e.size
  /-- There is a relay for every pipe. -/
  length_creations : (creations steps).length = (e.pipesFrom n).length

namespace InOrder

variable {n : Nat} {e left right : Expression} {steps tl tr : List (Step σ)}

/-- Other steps do not matter: after the end, … -/
theorem append_quiet {quiet : List (Step σ)} (ho : InOrder n e steps)
    (hquiet : IsQuiet quiet) : InOrder n e (steps ++ quiet) := by
  obtain ⟨hturns, hcreations, hmoments⟩ := hquiet
  refine ⟨?_, ?_, ?_, ?_⟩
  · rw [turns_append, hturns, List.append_nil]
    exact ho.commands
  · rw [turns_append, hturns, List.append_nil]
    exact ho.places
  · rw [creations_append, hcreations, List.append_nil]
    exact ho.pipes
  · rw [moments_append, hmoments, List.append_nil]
    exact ho.moments

/-- … or before the start. -/
theorem quiet_append {quiet : List (Step σ)} (ho : InOrder n e steps)
    (hquiet : IsQuiet quiet) : InOrder n e (quiet ++ steps) := by
  obtain ⟨hturns, hcreations, hmoments⟩ := hquiet
  refine ⟨?_, ?_, ?_, ?_⟩
  · rw [turns_append, hturns, List.nil_append]
    exact ho.commands
  · rw [turns_append, hturns, List.nil_append]
    exact ho.places
  · rw [creations_append, hcreations, List.nil_append]
    exact ho.pipes
  · rw [moments_append, hmoments, List.nil_append]
    exact ho.moments

theorem nil : InOrder n e ([] : List (Step σ)) :=
  ⟨List.nil_prefix, rfl, List.nil_prefix, List.Pairwise.nil⟩

/-- What follows the left side follows the whole. -/
theorem of_left {op : Operator} (ho : InOrder n left steps) :
    InOrder n (.binary op left right) steps where
  commands := by
    rw [Expression.leaves]
    exact ho.commands.trans (List.prefix_append _ _)
  places := ho.places
  pipes := by
    refine ho.pipes.trans ?_
    cases op <;> exact List.prefix_append _ _
  moments := ho.moments

/-- A call is made for a command of the composition. -/
theorem place_bounds (ho : InOrder n e steps) {turn : Turn σ}
    (hturn : turn ∈ turns steps) : n ≤ turn.place ∧ turn.place < n + e.size := by
  have hlen := ho.commands.length_le
  rw [List.length_map, Expression.length_leaves] at hlen
  have hmem : turn.place ∈ List.range' n (turns steps).length := by
    rw [← ho.places]
    exact List.mem_map_of_mem hturn
  rw [List.mem_range'_1] at hmem
  omega

/-- All calls are for places of the composition. -/
theorem turnsIn_eq (ho : InOrder n e steps) :
    turnsIn n (n + e.size) steps = turns steps := by
  refine List.filter_eq_self.mpr fun turn hturn => ?_
  exact decide_eq_true (ho.place_bounds hturn)

/-- There are none for places before it … -/
theorem turnsIn_before (ho : InOrder n e steps) {first stop : Nat}
    (hle : stop ≤ n) : turnsIn first stop steps = [] := by
  refine List.filter_eq_nil_iff.mpr fun turn hturn => ?_
  have := ho.place_bounds hturn
  simp only [decide_eq_true_eq]
  omega

/-- … or after it. -/
theorem turnsIn_after (ho : InOrder n e steps) {first stop : Nat}
    (hle : n + e.size ≤ first) : turnsIn first stop steps = [] := by
  refine List.filter_eq_nil_iff.mpr fun turn hturn => ?_
  have := ho.place_bounds hturn
  simp only [decide_eq_true_eq]
  omega

/-- A relay is made for a pipe of the composition. -/
theorem mem_pipesFrom (ho : InOrder n e steps) {made : Creation σ}
    (hmade : made ∈ creations steps) : made.pipe ∈ e.pipesFrom n :=
  ho.pipes.subset (List.mem_map_of_mem hmade)

/-- Where the relay of a pipe of the composition may be at hand. -/
theorem pipe_bounds (ho : InOrder n e steps) {made : Creation σ}
    (hmade : made ∈ creations steps) :
    n < made.pipe.middle ∧ made.pipe.stop ≤ n + e.size := by
  have hbounds := Expression.bounds_of_mem_pipesFrom (ho.mem_pipesFrom hmade)
  have := made.pipe.first_lt_middle
  omega

theorem moment_bounds (ho : InOrder n e steps) {m : Nat}
    (hm : m ∈ CommandExpr.moments steps) : 2 * n < m ∧ m < 2 * (n + e.size) := by
  rcases moment_cases hm with ⟨turn, hturn, rfl⟩ | ⟨made, hmade, rfl⟩
  · have := ho.place_bounds hturn
    omega
  · have := ho.pipe_bounds hmade
    have := made.pipe.middle_lt_stop
    omega

end InOrder

namespace Whole

variable {n : Nat} {e left right : Expression} {steps tl tr : List (Step σ)}

theorem commands_eq (hw : Whole n e steps) :
    (turns steps).map Turn.command = e.leaves := by
  refine hw.commands.eq_of_length ?_
  rw [List.length_map, hw.length_turns, Expression.length_leaves]

theorem places_eq (hw : Whole n e steps) :
    (turns steps).map Turn.place = List.range' n e.size := by
  rw [hw.places, hw.length_turns]

theorem pipes_eq (hw : Whole n e steps) :
    (creations steps).map Creation.pipe = e.pipesFrom n := by
  refine hw.pipes.eq_of_length ?_
  rw [List.length_map, hw.length_creations]

/-- The command of a call is the one at its place. -/
theorem mem_zipIdx (hw : Whole n e steps) {turn : Turn σ}
    (hturn : turn ∈ turns steps) :
    (turn.command, turn.place) ∈ e.leaves.zipIdx n := by
  have hzip : e.leaves.zipIdx n
      = (turns steps).map fun turn => (turn.command, turn.place) := by
    rw [List.zipIdx_eq_zip_range', Expression.length_leaves, ← hw.places_eq,
      ← hw.commands_eq, List.zip_map']
  rw [hzip]
  exact List.mem_map_of_mem hturn

/-- No two commands stand at one place. -/
theorem command_eq (hw : Whole n e steps) {turn : Turn σ} {c : Command}
    (hturn : turn ∈ turns steps) (hc : (c, turn.place) ∈ e.leaves.zipIdx n) :
    turn.command = c := by
  have hthis := hw.mem_zipIdx hturn
  rw [List.mk_mem_zipIdx_iff_le_and_getElem?_sub] at hthis hc
  exact Option.some.inj (hthis.2.symm.trans hc.2)

/-- The right side goes on where the left one ended. -/
theorem join {op : Operator} (hop : op ≠ .pipe) (hl : Whole n left tl)
    (hr : InOrder (n + left.size) right tr) :
    InOrder n (.binary op left right) (tl ++ tr) where
  commands := by
    rw [turns_append, List.map_append, hl.commands_eq, Expression.leaves]
    exact (List.prefix_append_right_inj _).mpr hr.commands
  places := by
    rw [turns_append, List.map_append, List.length_append, hl.places, hr.places,
      hl.length_turns, List.range'_append_1]
  pipes := by
    rw [creations_append, List.map_append, hl.pipes_eq,
      Expression.pipesFrom_join hop]
    exact (List.prefix_append_right_inj _).mpr hr.pipes
  moments := by
    rw [moments_append, List.pairwise_append]
    refine ⟨hl.moments, hr.moments, ?_⟩
    intro a ha b hb
    have := hl.moment_bounds ha
    have := hr.moment_bounds hb
    omega

/-- A relay is made, and the right side goes on. -/
theorem feed {relay : Relay} {t t₁ : Session σ} (hl : Whole n left tl)
    (hr : InOrder (n + left.size) right tr) :
    InOrder n (.binary .pipe left right)
      (tl ++ ⟨t, .create ⟨left, right, n⟩ (.ok relay), t₁⟩ :: tr) where
  commands := by
    have hturns : turns (⟨t, .create ⟨left, right, n⟩ (.ok relay), t₁⟩ :: tr)
        = turns tr := rfl
    rw [turns_append, hturns, List.map_append, hl.commands_eq, Expression.leaves]
    exact (List.prefix_append_right_inj _).mpr hr.commands
  places := by
    have hturns : turns (⟨t, .create ⟨left, right, n⟩ (.ok relay), t₁⟩ :: tr)
        = turns tr := rfl
    rw [turns_append, hturns, List.map_append, List.length_append, hl.places,
      hr.places, hl.length_turns, List.range'_append_1]
  pipes := by
    have hmade : creations (⟨t, .create ⟨left, right, n⟩ (.ok relay), t₁⟩ :: tr)
        = ⟨⟨left, right, n⟩, relay, t, t₁⟩ :: creations tr := rfl
    rw [creations_append, hmade, List.map_append, List.map_cons, hl.pipes_eq,
      Expression.pipesFrom_pipe, List.prefix_append_right_inj,
      List.cons_prefix_cons]
    exact ⟨rfl, hr.pipes⟩
  moments := by
    have hmade : CommandExpr.moments
        (⟨t, .create ⟨left, right, n⟩ (.ok relay), t₁⟩ :: tr)
        = 2 * (n + left.size) :: CommandExpr.moments tr := rfl
    rw [moments_append, hmade, List.pairwise_append, List.pairwise_cons]
    refine ⟨hl.moments, ⟨fun b hb => (hr.moment_bounds hb).1, hr.moments⟩, ?_⟩
    intro a ha b hb
    have := hl.moment_bounds ha
    rcases List.mem_cons.mp hb with rfl | hb
    · omega
    · have := hr.moment_bounds hb
      omega

end Whole

/-! ## Two sides -/

/-- The steps of a composition and those of its sides: the calls are those of
the sides, and so are the relays but for those in `mid`. -/
structure Halves (n : Nat) (left right : Expression) (steps tl : List (Step σ))
    (mid : List (Creation σ)) (tr : List (Step σ)) : Prop where
  left_whole : Whole n left tl
  right_inOrder : InOrder (n + left.size) right tr
  turns_eq : turns steps = turns tl ++ turns tr
  creations_eq : creations steps = creations tl ++ (mid ++ creations tr)
  left_subset : tl ⊆ steps
  right_subset : tr ⊆ steps
  mid_eq : ∀ made ∈ mid, made.pipe = ⟨left, right, n⟩

namespace Halves

variable {n : Nat} {left right : Expression} {steps tl tr : List (Step σ)}
  {mid : List (Creation σ)} {turn : Turn σ} {made : Creation σ}

theorem join (hl : Whole n left tl) (hr : InOrder (n + left.size) right tr) :
    Halves n left right (tl ++ tr) tl [] tr where
  left_whole := hl
  right_inOrder := hr
  turns_eq := turns_append tl tr
  creations_eq := creations_append tl tr
  left_subset := List.subset_append_left tl tr
  right_subset := List.subset_append_right tl tr
  mid_eq := by simp

/-- A call for a place of the left side is one of its calls. -/
theorem turn_left (hh : Halves n left right steps tl mid tr)
    (hturn : turn ∈ turns steps) (hlt : turn.place < n + left.size) :
    turn ∈ turns tl := by
  rw [hh.turns_eq, List.mem_append] at hturn
  rcases hturn with hturn | hturn
  · exact hturn
  · have := hh.right_inOrder.place_bounds hturn
    omega

/-- The first call is one of the left side's calls. -/
theorem turn_first (hh : Halves n left right steps tl mid tr)
    (hturn : turn ∈ turns steps) (hplace : turn.place = n) : turn ∈ turns tl := by
  have := left.size_pos
  exact hh.turn_left hturn (by omega)

/-- A call for a place after the left side is one of the right side's calls. -/
theorem turn_right (hh : Halves n left right steps tl mid tr)
    (hturn : turn ∈ turns steps) (hle : n + left.size ≤ turn.place) :
    turn ∈ turns tr := by
  rw [hh.turns_eq, List.mem_append] at hturn
  rcases hturn with hturn | hturn
  · have := hh.left_whole.place_bounds hturn
    omega
  · exact hturn

theorem mem_creations (hh : Halves n left right steps tl mid tr) :
    made ∈ creations steps ↔
      made ∈ creations tl ∨ made ∈ mid ∨ made ∈ creations tr := by
  rw [hh.creations_eq, List.mem_append, List.mem_append]

/-- The calls for places of the left side are among its calls, … -/
theorem turnsIn_left (hh : Halves n left right steps tl mid tr) {first stop : Nat}
    (hle : stop ≤ n + left.size) :
    turnsIn first stop steps = turnsIn first stop tl := by
  rw [turnsIn, hh.turns_eq, List.filter_append]
  exact (congrArg _ (hh.right_inOrder.turnsIn_before hle)).trans
    (List.append_nil _)

/-- … and those for places after it among the right side's. -/
theorem turnsIn_right (hh : Halves n left right steps tl mid tr) {first stop : Nat}
    (hle : n + left.size ≤ first) :
    turnsIn first stop steps = turnsIn first stop tr := by
  rw [turnsIn, hh.turns_eq, List.filter_append]
  exact congrArg (· ++ _) (hh.left_whole.turnsIn_after hle)

theorem forall_turns (hh : Halves n left right steps tl mid tr)
    {P : Turn σ → Prop} (hl : ∀ turn ∈ turns tl, P turn)
    (hr : ∀ turn ∈ turns tr, P turn) : ∀ turn ∈ turns steps, P turn := by
  intro turn hturn
  rw [hh.turns_eq, List.mem_append] at hturn
  rcases hturn with hturn | hturn
  · exact hl turn hturn
  · exact hr turn hturn

/-- The pipes of the right side come after the left side. -/
theorem first_right (hh : Halves n left right steps tl mid tr)
    (hmade : made ∈ creations tr) : n + left.size ≤ made.pipe.first :=
  (Expression.bounds_of_mem_pipesFrom
    (hh.right_inOrder.mem_pipesFrom hmade)).1

/-- The relays of the left side are read on the left side, … -/
theorem middle_left (hh : Halves n left right steps tl mid tr)
    (hmade : made ∈ creations tl) : made.pipe.middle < n + left.size := by
  have := hh.left_whole.pipe_bounds hmade
  have := made.pipe.middle_lt_stop
  omega

/-- … one in between at the start of the right side, … -/
theorem middle_mid (hh : Halves n left right steps tl mid tr)
    (hmade : made ∈ mid) : made.pipe.middle = n + left.size := by
  rw [hh.mid_eq made hmade]
  rfl

/-- … and those of the right side after it. -/
theorem middle_right (hh : Halves n left right steps tl mid tr)
    (hmade : made ∈ creations tr) : n + left.size < made.pipe.middle :=
  (hh.right_inOrder.pipe_bounds hmade).1

end Halves

namespace Evaluator

variable {h : Host σ} {relays : RelayStore} {r : Runner}

@[simp]
theorem turns_callSteps (n : Nat) (s : Session σ) (c : Command) (argv : List Bytes)
    (input : InputSource) (result : Except Failure (Capture × Status))
    (t : Session σ) :
    turns (callSteps h n s c argv input result t)
      = [⟨n, c, argv, input, result, s.noted h (.argv argv), t⟩] := rfl

@[simp]
theorem turns_handOver (p : Pipe) (t t₁ t₂ : Session σ) (relay : Relay)
    (upstream : Capture) : turns (handOver h p t t₁ t₂ relay upstream) = [] := rfl

@[simp]
theorem creations_handOver (p : Pipe) (t t₁ t₂ : Session σ) (relay : Relay)
    (upstream : Capture) :
    creations (handOver h p t t₁ t₂ relay upstream) = [⟨p, relay, t, t₁⟩] := rfl

/-- The calls of a pipe are those of its sides. -/
theorem turns_pipe {p : Pipe} {t t₁ t₂ : Session σ} {tl tr : List (Step σ)}
    {relay : Relay} {upstream : Capture} {last : Step σ}
    (hlast : IsQuiet [last]) :
    turns (tl ++ (handOver h p t t₁ t₂ relay upstream ++ (tr ++ [last])))
      = turns tl ++ turns tr := by
  rw [turns_append, turns_append, turns_append, turns_handOver, hlast.1,
    List.nil_append, List.append_nil]

/-- The relays of a pipe are those of its sides, with its own in between. -/
theorem creations_pipe {p : Pipe} {t t₁ t₂ : Session σ} {tl tr : List (Step σ)}
    {relay : Relay} {upstream : Capture} {last : Step σ}
    (hlast : IsQuiet [last]) :
    creations (tl ++ (handOver h p t t₁ t₂ relay upstream ++ (tr ++ [last])))
      = creations tl ++ ⟨p, relay, t, t₁⟩ :: creations tr := by
  rw [creations_append, creations_append, creations_append, creations_handOver,
    hlast.2.1, List.append_nil, List.singleton_append]

/-- One call, for the only command. -/
private theorem inOrder_callSteps {n : Nat} {s t : Session σ} {c : Command}
    {argv : List Bytes} {input : InputSource}
    {result : Except Failure (Capture × Status)} :
    InOrder n (.simple c) (callSteps h n s c argv input result t) :=
  ⟨List.prefix_rfl, rfl, List.nil_prefix, List.pairwise_singleton _ _⟩

/-- The steps of a pipe, its right side followed by a quiet step. -/
private theorem inOrder_pipe {n : Nat} {left right : Expression}
    {t t₁ t₂ : Session σ} {tl tr : List (Step σ)} {relay : Relay}
    {upstream : Capture} {last : Step σ} (hl : Whole n left tl)
    (hr : InOrder (n + left.size) right tr) (hlast : IsQuiet [last]) :
    InOrder n (.binary .pipe left right)
      (tl ++ (handOver h ⟨left, right, n⟩ t t₁ t₂ relay upstream
        ++ (tr ++ [last]))) :=
  hl.feed ((hr.append_quiet hlast).quiet_append ⟨rfl, rfl, rfl⟩)

/-- The halves of a pipe, its right side followed by a quiet step. -/
theorem halves_pipe {n : Nat} {left right : Expression} {t t₁ t₂ : Session σ}
    {tl tr : List (Step σ)} {relay : Relay} {upstream : Capture} {last : Step σ}
    (hl : Whole n left tl) (hr : InOrder (n + left.size) right tr)
    (hlast : IsQuiet [last]) :
    Halves n left right
      (tl ++ (handOver h ⟨left, right, n⟩ t t₁ t₂ relay upstream
        ++ (tr ++ [last])))
      tl [⟨⟨left, right, n⟩, relay, t, t₁⟩] tr where
  left_whole := hl
  right_inOrder := hr
  turns_eq := turns_pipe hlast
  creations_eq := creations_pipe hlast
  left_subset := List.subset_append_left _ _
  right_subset := by
    intro step hstep
    simp only [List.mem_append]
    exact Or.inr (Or.inr (Or.inl hstep))
  mid_eq := by simp

/-- **An evaluation that returns calls the runner once for every command, from
left to right, and makes one relay for every pipe, when its left side ends.** -/
theorem Completes.whole {n : Nat} {e : Expression} {input : InputSource}
    {s t : Session σ} {steps : List (Step σ)} {output : Capture}
    (he : Completes h relays r n e input s steps output t) :
    Whole n e steps := by
  induction he with
  | ran _ _ => exact ⟨inOrder_callSteps, rfl, rfl⟩
  | skipped _ _ _ =>
      exact ⟨inOrder_callSteps.append_quiet ⟨rfl, rfl, rfl⟩, rfl, rfl⟩
  | joined hop _ _ ihl ihr =>
      refine ⟨ihl.join hop ihr.toInOrder, ?_, ?_⟩
      · rw [turns_append, List.length_append, ihl.length_turns,
          ihr.length_turns, Expression.size]
      · rw [creations_append, List.length_append, ihl.length_creations,
          ihr.length_creations, Expression.pipesFrom_join hop,
          List.length_append]
  | piped _ _ _ _ _ ihl ihr =>
      refine ⟨inOrder_pipe ihl ihr.toInOrder (isQuiet_release _ _ _ _ _), ?_, ?_⟩
      · rw [turns_pipe (isQuiet_release _ _ _ _ _), List.length_append, ihl.length_turns,
          ihr.length_turns, Expression.size]
      · rw [creations_pipe (isQuiet_release _ _ _ _ _), List.length_append,
          List.length_cons, ihl.length_creations, ihr.length_creations,
          Expression.pipesFrom_pipe, List.length_append, List.length_cons]

/-- **An evaluation that fails follows the composition as far as it goes.** -/
theorem Fails.inOrder {n : Nat} {e : Expression} {input : InputSource}
    {s t : Session σ} {steps : List (Step σ)} {f : Failure}
    (he : Fails h relays r n e input s steps f t) : InOrder n e steps := by
  induction he with
  | unprepared _ => exact InOrder.nil.append_quiet ⟨rfl, rfl, rfl⟩
  | aborted _ _ _ => exact inOrder_callSteps
  | left _ ihl => exact ihl.of_left
  | right hop hl _ ihr => exact hl.whole.join hop ihr
  | uncreated hl _ => exact hl.whole.of_left.append_quiet ⟨rfl, rfl, rfl⟩
  | unwritten hl _ _ _ =>
      exact hl.whole.feed (InOrder.nil.append_quiet ⟨rfl, rfl, rfl⟩)
  | downstream hl _ _ _ _ ihr => exact inOrder_pipe hl.whole ihr (isQuiet_drop _ _ _ _)
  | unreleased hl _ _ hr _ =>
      exact inOrder_pipe hl.whole hr.whole.toInOrder (isQuiet_release _ _ _ _ _)

end Evaluator

end CommandExpr
