import CommandExpr.Proofs.Custody
import CommandExpr.Proofs.Turns

/-!
# Relays in hand

A relay is there from the end of its pipe's left side to the end of the right
side.  So the relays that are there when a command is called are those of the
pipes whose right side contains it, the outer ones first, and at the end of an
evaluation there are none, however it ends.  A relay is given back by the pipe
that made it: after the right side has returned, or on the way out if the right
side, or the writing of the relay, has failed.

The invariant of an evaluation is `Lives`.  It says which relays are in hand at
every call, how many at every step, and that none are in the end; it is put
together from those of the two sides, the second of which begins with what the
pipe has in hand.

## Main results

* `Lives.join`, `Lives.pipe` — how the courses of two sides make up that of the
  whole.
* `Completes.lives`, `Fails.lives` — by induction on the evaluation.
-/

namespace CommandExpr

variable {σ ι : Type}

/-- The relays of the pipes whose right side contains the command at a place. -/
def live (steps : List (Step σ)) (i : Nat) : List (Creation σ) :=
  (creations steps).filter fun made => made.pipe.Covers i

/-- The entries of relays. -/
def Files.entries (files : Files σ ι) (made : List (Creation σ)) : List ι :=
  made.map fun made => files.entry made.relay.path

/-- At most so many entries were made that are still there. -/
def Files.Within (files : Files σ ι) (drift : Drift ι) (m : σ) (most : Nat) (m' : σ) :
    Prop :=
  ∃ own : List ι, own.length ≤ most ∧ files.Since drift m own m'

/-- What is in hand in the course of an evaluation from one session to another,
that stands after `n` commands and makes the steps. -/
structure Lives (files : Files σ ι) (drift : Drift ι) (n : Nat) (e : Expression)
    (s : Session σ) (steps : List (Step σ)) (t : Session σ) : Prop where
  /-- Every pipe that has a command on its right side has a relay when the command
  is called. -/
  covering : ∀ turn ∈ turns steps,
    (live steps turn.place).map Creation.pipe = e.covering n turn.place
  /-- Those are the relays that are in hand at a call. -/
  calls : ∀ turn ∈ turns steps,
    files.Since drift s.machine (files.entries (live steps turn.place))
      turn.before.machine
  /-- There are never more than pipes stand in right sides of pipes. -/
  always : ∀ step ∈ steps,
    files.Within drift s.machine e.pipeDepth step.before.machine ∧
      files.Within drift s.machine e.pipeDepth step.after.machine
  /-- Where a relay was, there is in the end what others have put there. -/
  gone : ∀ made ∈ creations steps,
    drift (files.entry made.relay.path) none
      (files.content t.machine (files.entry made.relay.path))
  /-- None is in hand in the end. -/
  leaves : files.Leaves drift s.machine t.machine

/-! ## The relays of both sides -/

namespace Halves

variable {n i : Nat} {left right : Expression} {steps tl tr : List (Step σ)}
  {mid : List (Creation σ)}

/-- At a command of the left side only relays of that side are there. -/
theorem live_left (hh : Halves n left right steps tl mid tr)
    (hlt : i < n + left.size) : live steps i = live tl i := by
  have hmid : (mid.filter fun made => made.pipe.Covers i) = [] := by
    refine List.filter_eq_nil_iff.mpr fun made hmade hcovers => ?_
    have := hh.middle_mid hmade
    obtain ⟨hmiddle, -⟩ := of_decide_eq_true hcovers
    omega
  have hright : live tr i = [] := by
    refine List.filter_eq_nil_iff.mpr fun made hmade hcovers => ?_
    have := hh.middle_right hmade
    obtain ⟨hmiddle, -⟩ := of_decide_eq_true hcovers
    omega
  unfold live at *
  rw [hh.creations_eq, List.filter_append, List.filter_append, hmid, hright]
  simp

/-- At a command of the right side the relay in between is there, if there is
one, and then those of the right side. -/
theorem live_right (hh : Halves n left right steps tl mid tr)
    (hle : n + left.size ≤ i) (hlt : i < n + left.size + right.size) :
    live steps i = mid ++ live tr i := by
  have hleft : live tl i = [] := by
    refine List.filter_eq_nil_iff.mpr fun made hmade hcovers => ?_
    have := hh.left_whole.pipe_bounds hmade
    obtain ⟨-, hstop⟩ := of_decide_eq_true hcovers
    omega
  have hmid : (mid.filter fun made => made.pipe.Covers i) = mid := by
    refine List.filter_eq_self.mpr fun made hmade => ?_
    rw [hh.mid_eq made hmade]
    exact decide_eq_true ⟨hle, hlt⟩
  unfold live at *
  rw [hh.creations_eq, List.filter_append, List.filter_append, hleft, hmid,
    List.nil_append]

end Halves

/-! ## Putting courses together -/

section Courses

open Evaluator

variable {files : Files σ ι} {h : Host σ} {store : RelayStore} {drift : Drift ι}
  {n : Nat} {op : Operator} {left right : Expression} {s t t' u : Session σ}
  {steps tl tr : List (Step σ)} {mid : List (Creation σ)}

theorem Files.Since.within {m m' : σ} {own : List ι} {most : Nat}
    (hs : files.Since drift m own m') (hle : own.length ≤ most) :
    files.Within drift m most m' :=
  ⟨own, hle, hs⟩

theorem Files.Within.mono {m m' : σ} {most more : Nat}
    (hw : files.Within drift m most m') (hle : most ≤ more) :
    files.Within drift m more m' := by
  obtain ⟨own, hown, hs⟩ := hw
  exact ⟨own, Nat.le_trans hown hle, hs⟩

theorem Files.Leaves.within {m m' : σ} (hl : files.Leaves drift m m') (most : Nat) :
    files.Within drift m most m' :=
  hl.since.within (Nat.zero_le most)

/-- What is in hand already counts. -/
theorem Files.Within.after (o : files.Orderly h store drift) {m m' m'' : σ}
    {own : List ι} {most : Nat} (hs : files.Since drift m own m')
    (hw : files.Within drift m' most m'') :
    files.Within drift m (own.length + most) m'' := by
  obtain ⟨more, hmore, hs'⟩ := hw
  refine ⟨own ++ more, ?_, hs.trans o hs'⟩
  rw [List.length_append]
  omega

/-- The calls of both sides, the right one beginning with what was made in
between. -/
private theorem calls_halves (o : files.Orderly h store drift)
    (hh : Halves n left right steps tl mid tr) (hl : Lives files drift n left s tl t)
    (hr : Lives files drift (n + left.size) right t' tr u)
    (hmid : files.Since drift s.machine (files.entries mid) t'.machine) :
    ∀ turn ∈ turns steps,
      files.Since drift s.machine (files.entries (live steps turn.place))
        turn.before.machine := by
  refine hh.forall_turns ?_ ?_
  · intro turn hturn
    rw [hh.live_left (hh.left_whole.place_bounds hturn).2]
    exact hl.calls turn hturn
  · intro turn hturn
    have hbounds := hh.right_inOrder.place_bounds hturn
    rw [hh.live_right hbounds.1 hbounds.2, Files.entries, List.map_append]
    exact hmid.trans o (hr.calls turn hturn)

private theorem covering_halves (hh : Halves n left right steps tl mid tr)
    (hl : Lives files drift n left s tl t)
    (hr : Lives files drift (n + left.size) right t' tr u)
    (hmid : ∀ i, n + left.size ≤ i → i < n + left.size + right.size →
      (Expression.binary op left right).covering n i
        = mid.map Creation.pipe ++ right.covering (n + left.size) i) :
    ∀ turn ∈ turns steps, (live steps turn.place).map Creation.pipe
      = (Expression.binary op left right).covering n turn.place := by
  refine hh.forall_turns ?_ ?_
  · intro turn hturn
    have hlt := (hh.left_whole.place_bounds hturn).2
    rw [hh.live_left hlt, Expression.covering_left hlt]
    exact hl.covering turn hturn
  · intro turn hturn
    obtain ⟨hle, hlt⟩ := hh.right_inOrder.place_bounds hturn
    rw [hh.live_right hle hlt, List.map_append, hr.covering turn hturn, hmid _ hle hlt]

/-- A command makes no relays. -/
theorem Lives.simple {c : Command} (hcreations : creations steps = [])
    (halways : ∀ step ∈ steps, files.Leaves drift s.machine step.before.machine ∧
      files.Leaves drift s.machine step.after.machine)
    (hleaves : files.Leaves drift s.machine t.machine) :
    Lives files drift n (.simple c) s steps t where
  covering := by
    intro turn _
    rw [live, hcreations]
    rfl
  calls := by
    intro turn hturn
    rw [live, hcreations]
    exact (halways _ (exists_step_of_mem_turns hturn)).1.since
  always := by
    intro step hstep
    obtain ⟨hbefore, hafter⟩ := halways step hstep
    exact ⟨hbefore.within _, hafter.within _⟩
  gone := by
    rw [hcreations]
    intro made hmade
    cases hmade
  leaves := hleaves

/-- The right side goes on where the left one ended. -/
theorem Lives.join (o : files.Orderly h store drift) (hop : op ≠ .pipe)
    (hh : Halves n left right (tl ++ tr) tl [] tr)
    (hl : Lives files drift n left s tl t)
    (hr : Lives files drift (n + left.size) right t tr u) :
    Lives files drift n (.binary op left right) s (tl ++ tr) u where
  covering := covering_halves hh hl hr fun i hle _ => Expression.covering_join hop hle
  calls := calls_halves o hh hl hr hl.leaves.since
  always := by
    intro step hstep
    rw [Expression.pipeDepth_join hop]
    rcases List.mem_append.mp hstep with hstep | hstep
    · obtain ⟨hbefore, hafter⟩ := hl.always step hstep
      exact ⟨hbefore.mono (Nat.le_max_left _ _), hafter.mono (Nat.le_max_left _ _)⟩
    · obtain ⟨hbefore, hafter⟩ := hr.always step hstep
      have hle : 0 + right.pipeDepth ≤ max left.pipeDepth right.pipeDepth := by omega
      exact ⟨(hbefore.after o hl.leaves.since).mono hle,
        (hafter.after o hl.leaves.since).mono hle⟩
  gone := by
    intro made hmade
    rcases hh.mem_creations.mp hmade with hmade | hmade | hmade
    · exact o.trans (hl.gone made hmade) (hr.leaves.others _)
    · cases hmade
    · exact hr.gone made hmade
  leaves := hl.leaves.trans o hr.leaves

/-- After the left side there are only steps that call nothing. -/
theorem Lives.append_rest (o : files.Orderly h store drift)
    {rest : List (Step σ)} (hw : InOrder n left tl)
    (hl : Lives files drift n left s tl t) (hturns : turns rest = [])
    (hmiddle : ∀ made ∈ creations rest, n + left.size ≤ made.pipe.middle)
    (halways : ∀ step ∈ rest,
      files.Within drift t.machine (Expression.binary op left right).pipeDepth
          step.before.machine ∧
        files.Within drift t.machine (Expression.binary op left right).pipeDepth
          step.after.machine)
    (hgone : ∀ made ∈ creations rest, drift (files.entry made.relay.path) none
      (files.content u.machine (files.entry made.relay.path)))
    (hleaves : files.Leaves drift t.machine u.machine) :
    Lives files drift n (.binary op left right) s (tl ++ rest) u := by
  have hlive : ∀ turn ∈ turns tl, live (tl ++ rest) turn.place = live tl turn.place := by
    intro turn hturn
    have hlt := (hw.place_bounds hturn).2
    have hnone : (creations rest).filter (fun made => made.pipe.Covers turn.place)
        = [] := by
      refine List.filter_eq_nil_iff.mpr fun made hmade hcovers => ?_
      have := hmiddle made hmade
      obtain ⟨hle, -⟩ := of_decide_eq_true hcovers
      omega
    rw [live, creations_append, List.filter_append, hnone, List.append_nil, live]
  have hmem : ∀ {turn : Turn σ}, turn ∈ turns (tl ++ rest) → turn ∈ turns tl := by
    intro turn hturn
    rwa [turns_append, hturns, List.append_nil] at hturn
  refine ⟨?_, ?_, ?_, ?_, hl.leaves.trans o hleaves⟩
  · intro turn hturn
    have hturn := hmem hturn
    rw [hlive turn hturn, Expression.covering_left (hw.place_bounds hturn).2]
    exact hl.covering turn hturn
  · intro turn hturn
    have hturn := hmem hturn
    rw [hlive turn hturn]
    exact hl.calls turn hturn
  · intro step hstep
    rcases List.mem_append.mp hstep with hstep | hstep
    · have hle := Expression.pipeDepth_left_le op left right
      obtain ⟨hbefore, hafter⟩ := hl.always step hstep
      exact ⟨hbefore.mono hle, hafter.mono hle⟩
    · obtain ⟨hbefore, hafter⟩ := halways step hstep
      exact ⟨(hbefore.after o hl.leaves.since).mono (by simp),
        (hafter.after o hl.leaves.since).mono (by simp)⟩
  · intro made hmade
    rw [creations_append, List.mem_append] at hmade
    rcases hmade with hmade | hmade
    · exact o.trans (hl.gone made hmade) (hleaves.others _)
    · exact hgone made hmade

/-- Other steps do not matter. -/
theorem Lives.append_quiet (o : files.Orderly h store drift)
    {quiet : List (Step σ)} (hw : InOrder n left tl)
    (hl : Lives files drift n left s tl t) (hquiet : IsQuiet quiet)
    (halways : ∀ step ∈ quiet, files.Leaves drift t.machine step.before.machine ∧
      files.Leaves drift t.machine step.after.machine)
    (hleaves : files.Leaves drift t.machine u.machine) :
    Lives files drift n (.binary op left right) s (tl ++ quiet) u := by
  obtain ⟨hturns, hcreations, -⟩ := hquiet
  refine hl.append_rest o hw hturns ?_ ?_ ?_ hleaves
  · rw [hcreations]
    exact fun _ hmade => absurd hmade List.not_mem_nil
  · intro step hstep
    obtain ⟨hbefore, hafter⟩ := halways step hstep
    exact ⟨hbefore.within _, hafter.within _⟩
  · rw [hcreations]
    exact fun _ hmade => absurd hmade List.not_mem_nil

/-- Where a relay was removed, there is in the end what others have put there,
and so it is where others were removed before. -/
private theorem gone_of_removes [DecidableEq ι] (o : files.Orderly h store drift)
    {x y : ι} {m m' : σ} (hremoves : files.Removes x m m')
    (hgone : y ≠ x → drift y none (files.content m y)) :
    drift y none (files.content m' y) := by
  rw [hremoves.content]
  by_cases hy : y = x
  · rw [hy, Function.update_self]
    exact o.refl x none
  · rw [Function.update_of_ne hy]
    exact hgone hy

/-- The relay of a pipe is in hand from its making to its removal, and on the
right side so are others. -/
private theorem always_pipe (o : files.Orderly h store drift)
    {t₁ t₂ t₃ : Session σ} {relay : Relay} {upstream : Capture} {last : Event}
    (hl : Lives files drift n left s tl t)
    (hmade : files.Since drift t.machine [files.entry relay.path] t₁.machine)
    (hwritten : files.Since drift t.machine [files.entry relay.path] t₂.machine)
    (hfed : files.Since drift t.machine [files.entry relay.path]
      (t₂.noted h (feedNotice relay right)).machine)
    (hr : Lives files drift (n + left.size) right (t₂.noted h (feedNotice relay right))
      tr t₃)
    (hleaves : files.Leaves drift t.machine u.machine) :
    ∀ step ∈ tl ++ (handOver h ⟨left, right, n⟩ t t₁ t₂ relay upstream
        ++ (tr ++ [⟨t₃, last, u⟩])),
      files.Within drift s.machine (Expression.binary .pipe left right).pipeDepth
          step.before.machine ∧
        files.Within drift s.machine (Expression.binary .pipe left right).pipeDepth
          step.after.machine := by
  have hone := Expression.one_le_pipeDepth left right
  have hbegun := (hl.leaves.trans_since o hmade).within hone
  have hfilled := (hl.leaves.trans_since o hwritten).within hone
  have hfull := hl.leaves.trans_since o hfed
  intro step hstep
  simp only [handOver, List.mem_append, List.mem_cons, List.not_mem_nil, or_false]
    at hstep
  rcases hstep with hstep | (rfl | rfl | rfl) | hstep | rfl
  · have hle := Expression.pipeDepth_left_le .pipe left right
    obtain ⟨hbefore, hafter⟩ := hl.always step hstep
    exact ⟨hbefore.mono hle, hafter.mono hle⟩
  · exact ⟨hl.leaves.within _, hbegun⟩
  · exact ⟨hbegun, hfilled⟩
  · exact ⟨hfilled, hfull.within hone⟩
  · have hle := Expression.pipeDepth_right_le left right
    obtain ⟨hbefore, hafter⟩ := hr.always step hstep
    exact ⟨(hbefore.after o hfull).mono hle, (hafter.after o hfull).mono hle⟩
  · exact ⟨(hfull.trans_leaves o hr.leaves).within hone,
      (hl.leaves.trans o hleaves).within _⟩

/-- The right side of a pipe begins with the relay in hand, which is removed
after it, whether it has returned or failed. -/
theorem Lives.pipe [DecidableEq ι] (o : files.Orderly h store drift)
    (w : files.Lawful h store) {t₁ t₂ t₃ : Session σ} {relay : Relay}
    {upstream : Capture} {last : Event}
    (hh : Halves n left right
      (tl ++ (handOver h ⟨left, right, n⟩ t t₁ t₂ relay upstream
        ++ (tr ++ [⟨t₃, last, u⟩])))
      tl [⟨⟨left, right, n⟩, relay, t, t₁⟩] tr)
    (hl : Lives files drift n left s tl t)
    (hmade : files.Since drift t.machine [files.entry relay.path] t₁.machine)
    (hwritten : files.Since drift t.machine [files.entry relay.path] t₂.machine)
    (hr : Lives files drift (n + left.size) right (t₂.noted h (feedNotice relay right))
      tr t₃)
    (hremoves : files.Removes (files.entry relay.path) t₃.machine u.machine) :
    Lives files drift n (.binary .pipe left right) s
      (tl ++ (handOver h ⟨left, right, n⟩ t t₁ t₂ relay upstream
        ++ (tr ++ [⟨t₃, last, u⟩]))) u := by
  have hfed : files.Since drift t.machine [files.entry relay.path]
      (t₂.noted h (feedNotice relay right)).machine :=
    hwritten.trans_leaves o (o.note w _ t₂)
  have hleaves := (hfed.trans_leaves o hr.leaves).leaves_of_removes hremoves
  refine ⟨?_, ?_, ?_, ?_, hl.leaves.trans o hleaves⟩
  · exact covering_halves hh hl hr fun i hle hlt => Expression.covering_pipe hle hlt
  · exact calls_halves o hh hl hr (hl.leaves.trans_since o hfed)
  · exact always_pipe o hl hmade hwritten hfed hr hleaves
  · intro made hmade
    rcases hh.mem_creations.mp hmade with hmade | hmade | hmade
    · exact o.trans (hl.gone made hmade) (hleaves.others _)
    · obtain rfl := List.mem_singleton.mp hmade
      exact gone_of_removes o hremoves fun hne => absurd rfl hne
    · exact gone_of_removes o hremoves fun _ => hr.gone made hmade

end Courses

namespace Evaluator

variable [DecidableEq ι] {files : Files σ ι} {h : Host σ} {relays : RelayStore}
  {drift : Drift ι} {r : Runner} {n : Nat} {e : Expression} {input : InputSource}
  {s t : Session σ} {steps : List (Step σ)}

/-- A relay that was made is in hand, also when its writing was tried. -/
theorem since_write (o : files.Orderly h relays drift)
    (w : files.Lawful h relays) {relay : Relay} {upstream : Capture}
    {t t₁ t₂ : Session σ} {result : Except Failure Unit}
    (hmakes : files.Makes relays relay t.machine t₁.machine)
    (hwrite : (relay.write h upstream).on t₁ = (result, t₂)) :
    files.Since drift t.machine [files.entry relay.path] t₂.machine := by
  have hmade := w.since_create o hmakes
  have hown := List.mem_singleton_self (files.entry relay.path)
  cases result with
  | ok _ =>
      obtain ⟨hcontent, hheld⟩ := w.write_ok hmakes hwrite
      refine hmade.of_own hown hheld fun y hy => ?_
      rw [hcontent, Function.update_of_ne hy]
  | error f =>
      obtain ⟨hcontent, hheld⟩ := w.write_error hmakes hwrite
      exact hmade.of_own hown hheld hcontent

/-- A relay in hand is removed when it is given back, and that does not fail. -/
theorem removes_of_release (o : files.Orderly h relays drift)
    (w : files.Lawful h relays) {relay : Relay} {m m' : σ} {t u : Session σ}
    {result : Except Failure Unit} (hmakes : files.Makes relays relay m m')
    (hs : files.Since drift m [files.entry relay.path] t.machine)
    (hrelease : (relay.release h).on t = (result, u)) :
    result = .ok () ∧ files.Removes (files.entry relay.path) t.machine u.machine := by
  obtain ⟨u', hrelease', hremoves⟩ := w.release_eq hmakes.names hmakes.hasNul
    (o.remove_closed w hmakes.names hs)
  rw [hrelease] at hrelease'
  obtain ⟨rfl, rfl⟩ := Prod.mk.inj hrelease'
  exact ⟨rfl, hremoves⟩

theorem removes_of_drop (o : files.Orderly h relays drift)
    (w : files.Lawful h relays) {relay : Relay} {m m' : σ} {t u : Session σ}
    (hmakes : files.Makes relays relay m m')
    (hs : files.Since drift m [files.entry relay.path] t.machine)
    (hdrop : (relay.drop h).on t = ((), u)) :
    files.Removes (files.entry relay.path) t.machine u.machine := by
  have hremoves := w.drop_eq hmakes.names hmakes.hasNul
    (o.remove_closed w hmakes.names hs)
  rw [hdrop] at hremoves
  exact hremoves

/-- Nothing is made in a call, nor by the notices around it. -/
private theorem leaves_callSteps (o : files.Orderly h relays drift)
    (w : files.Lawful h relays) {c : Command} {argv : List Bytes}
    {result : Except Failure (Capture × Status)}
    (hrun : (r.run h argv input).on (s.noted h (.argv argv)) = (result, t)) :
    files.Leaves drift s.machine t.machine ∧
      ∀ step ∈ callSteps h n s c argv input result t,
        files.Leaves drift s.machine step.before.machine ∧
          files.Leaves drift s.machine step.after.machine := by
  have hstart := (o.since_refl s.machine).leaves
  have hnoted := o.note w (.argv argv) s
  have hran := hnoted.trans o (o.run w hrun)
  refine ⟨hran, fun step hstep => ?_⟩
  simp only [callSteps, List.mem_cons, List.not_mem_nil, or_false] at hstep
  rcases hstep with rfl | rfl | rfl
  · exact ⟨hstart, hstart⟩
  · exact ⟨hstart, hnoted⟩
  · exact ⟨hnoted, hran⟩

/-- **In an evaluation that returns, the relays in hand are those that should
be.** -/
theorem Completes.lives (o : files.Orderly h relays drift)
    (w : files.Lawful h relays) {output : Capture}
    (he : Completes h relays r n e input s steps output t) :
    Lives files drift n e s steps t := by
  induction he with
  | ran _ hrun =>
      obtain ⟨hran, halways⟩ := leaves_callSteps o w hrun
      exact Lives.simple rfl halways hran
  | @skipped n c input s t argv f _ hrun _ =>
      obtain ⟨hran, halways⟩ := leaves_callSteps (n := n) (c := c) o w hrun
      have hskipped := hran.trans o (o.note w (.skipped f) t)
      refine Lives.simple rfl ?_ hskipped
      intro step hstep
      rcases List.mem_append.mp hstep with hstep | hstep
      · exact halways step hstep
      · obtain rfl := List.mem_singleton.mp hstep
        exact ⟨hran, hskipped⟩
  | joined hop hl hr ihl ihr =>
      exact Lives.join o hop (Halves.join hl.whole hr.whole.toInOrder) ihl ihr
  | piped hl hcreate hwrite hr hrelease ihl ihr =>
      have hmakes := w.create_ok hcreate
      have hwritten := since_write o w hmakes hwrite
      have hreturned :=
        (hwritten.trans_leaves o (o.note w _ _)).trans_leaves o ihr.leaves
      obtain ⟨-, hremoves⟩ := removes_of_release o w hmakes hreturned hrelease
      exact Lives.pipe o w (halves_pipe hl.whole hr.whole.toInOrder
        (isQuiet_release _ _ _ _ _)) ihl (w.since_create o hmakes) hwritten ihr hremoves

/-- The steps of a pipe whose relay was made but not written. -/
private theorem lives_unwritten (o : files.Orderly h relays drift)
    (w : files.Lawful h relays) {left right : Expression} {tl : List (Step σ)}
    {t t₁ t₂ u : Session σ} {relay : Relay} {upstream : Capture} {f : Failure}
    (hleft : InOrder n left tl) (hl : Lives files drift n left s tl t)
    (hcreate : (Relay.create h relays).on t = (.ok relay, t₁))
    (hwrite : (relay.write h upstream).on t₁ = (.error f, t₂))
    (hdrop : (relay.drop h).on t₂ = ((), u)) :
    Lives files drift n (.binary .pipe left right) s
      (tl ++ [⟨t, .create ⟨left, right, n⟩ (.ok relay), t₁⟩,
        ⟨t₁, .write ⟨left, right, n⟩ relay upstream (.error f), t₂⟩,
        ⟨t₂, .drop ⟨left, right, n⟩ relay, u⟩]) u := by
  have hmakes := w.create_ok hcreate
  have hmade := w.since_create o hmakes
  have hwritten := since_write o w hmakes hwrite
  have hremoves := removes_of_drop o w hmakes hwritten hdrop
  have hleaves := hwritten.leaves_of_removes hremoves
  have hone := Expression.one_le_pipeDepth left right
  refine hl.append_rest o hleft rfl ?_ ?_ ?_ hleaves
  · intro made hmade
    obtain rfl := List.mem_singleton.mp hmade
    exact Nat.le_refl _
  · intro step hstep
    simp only [List.mem_cons, List.not_mem_nil, or_false] at hstep
    rcases hstep with rfl | rfl | rfl
    · exact ⟨(o.since_refl t.machine).leaves.within _, hmade.within hone⟩
    · exact ⟨hmade.within hone, hwritten.within hone⟩
    · exact ⟨hwritten.within hone, hleaves.within _⟩
  · intro made hmade
    obtain rfl := List.mem_singleton.mp hmade
    exact gone_of_removes o hremoves fun hne => absurd rfl hne

/-- **So they are in one that fails, and none is left behind, wherever it
fails.** -/
theorem Fails.lives (o : files.Orderly h relays drift) (w : files.Lawful h relays)
    {f : Failure} (he : Fails h relays r n e input s steps f t) :
    Lives files drift n e s steps t := by
  induction he with
  | @unprepared _ _ _ s _ _ =>
      have hstart := (o.since_refl s.machine).leaves
      refine Lives.simple rfl ?_ hstart
      intro step hstep
      obtain rfl := List.mem_singleton.mp hstep
      exact ⟨hstart, hstart⟩
  | aborted _ hrun _ =>
      obtain ⟨hran, halways⟩ := leaves_callSteps o w hrun
      exact Lives.simple rfl halways hran
  | @left _ _ _ _ _ _ t tl _ hl ihl =>
      rw [← List.append_nil tl]
      exact ihl.append_quiet o hl.inOrder ⟨rfl, rfl, rfl⟩ (by simp)
        (o.since_refl t.machine).leaves
  | right hop hl hr ihr =>
      exact Lives.join o hop (Halves.join hl.whole hr.inOrder) (hl.lives o w) ihr
  | @uncreated _ _ _ _ _ t u _ _ _ hl hcreate =>
      have hsame := o.leaves_of_same (w.create_error hcreate)
      refine (hl.lives o w).append_quiet o hl.whole.toInOrder ⟨rfl, rfl, rfl⟩ ?_ hsame
      intro step hstep
      obtain rfl := List.mem_singleton.mp hstep
      exact ⟨(o.since_refl t.machine).leaves, hsame⟩
  | unwritten hl hcreate hwrite hdrop =>
      exact lives_unwritten o w hl.whole.toInOrder (hl.lives o w) hcreate hwrite hdrop
  | downstream hl hcreate hwrite hr hdrop ihr =>
      have hmakes := w.create_ok hcreate
      have hwritten := since_write o w hmakes hwrite
      have hreturned :=
        (hwritten.trans_leaves o (o.note w _ _)).trans_leaves o ihr.leaves
      exact Lives.pipe o w (halves_pipe hl.whole hr.inOrder (isQuiet_drop _ _ _ _))
        (hl.lives o w) (w.since_create o hmakes) hwritten ihr
        (removes_of_drop o w hmakes hreturned hdrop)
  | unreleased hl hcreate hwrite hr hrelease =>
      have hmakes := w.create_ok hcreate
      have hwritten := since_write o w hmakes hwrite
      have hreturned :=
        (hwritten.trans_leaves o (o.note w _ _)).trans_leaves o (hr.lives o w).leaves
      obtain ⟨hok, -⟩ := removes_of_release o w hmakes hreturned hrelease
      cases hok

end Evaluator

end CommandExpr
