import CommandExpr.Proofs.Courses
import CommandExpr.Proofs.Discretion

/-!
# Evaluations beside each other

In two sessions that differ in one relay at most, an evaluation takes the same
course: each step is answered by the same step, in sessions that are still beside
each other, and it comes to the same output or the same failure.  The relays that it
makes have the same numbers on both sides, as long as the number of the one in which
the sessions differ does not come round again.

What follows the left side of an operator does so too, and it does not matter for
which pipe the steps are made, nor what is known of the left side's output besides the
bytes.

## Main results

* `Course.takes` — how many numbers of relays an evaluation takes.
* `Course.beside`, `Follows.beside` — the same is done on both sides.
-/

namespace CommandExpr

variable {σ ι : Type}

/-! ## How many relays there are -/

/-- How many relays an operator needs. -/
def Operator.relays : Operator → Nat
  | pipe => 1
  | _ => 0

/-- How many pipes there are. -/
def Expression.pipeCount : Expression → Nat
  | simple _ => 0
  | binary op left right => left.pipeCount + (op.relays + right.pipeCount)

/-! ## Steps beside each other -/

/-- Two events that are one, but for the handles of relays and for the pipes. -/
inductive Event.Twins (store : RelayStore) (x : UInt64) : Event → Event → Prop where
  | prepare (command : Command) (result : Except Failure (List Bytes)) :
      Twins store x (.prepare command result) (.prepare command result)
  | note (notice : Notice) : Twins store x (.note notice) (.note notice)
  | call (place : Nat) (command : Command) (argv : List Bytes) {input input' : InputSource}
      (hin : input.Twins store x input') (result : Except Failure (Capture × Status)) :
      Twins store x (.call place command argv input result)
        (.call place command argv input' result)
  | create (p p' : Pipe) {result result' : Except Failure Relay}
      (hpair : Relay.Pair store x result result') :
      Twins store x (.create p result) (.create p' result')
  | write (p p' : Pipe) {a b : Relay} (hab : a.Twins store x b) {output output' : Capture}
      (hbytes : output.bytes = output'.bytes) (result : Except Failure Unit) :
      Twins store x (.write p a output result) (.write p' b output' result)
  | release (p p' : Pipe) {a b : Relay} (hab : a.Twins store x b)
      (result : Except Failure Unit) :
      Twins store x (.release p a result) (.release p' b result)
  | drop (p p' : Pipe) {a b : Relay} (hab : a.Twins store x b) :
      Twins store x (.drop p a) (.drop p' b)

/-- The same is done in sessions beside each other. -/
structure Step.Beside (files : Files σ ι) (store : RelayStore) (alike : σ → σ → Prop)
    (x : UInt64) (a b : Step σ) : Prop where
  event : a.event.Twins store x b.event
  before : files.Beside store alike x a.before b.before
  after : files.Beside store alike x a.after b.after

/-- The same is done step by step. -/
def Abreast (files : Files σ ι) (store : RelayStore) (alike : σ → σ → Prop) (x : UInt64) :
    List (Step σ) → List (Step σ) → Prop :=
  List.Forall₂ (Step.Beside files store alike x)

theorem Relay.Twins.right_names {store : RelayStore} {x : UInt64} {a b : Relay}
    (hab : a.Twins store x b) : b.path = store.pathOf b.id := by
  rw [hab.right_path, hab.left_path, hab.id]

namespace Evaluator

/-! ## Numbers that are taken -/

section Numbers

variable {h : Host σ} {relays : RelayStore} {r : Runner} {n : Nat} {op : Operator}
  {p : Pipe} {first : Capture} {input : InputSource} {s s₁ s₂ t : Session σ}
  {steps : List (Step σ)} {result : Except Failure Capture}

theorem takes_of_create {made : Except Failure Relay}
    (hcreate : (Relay.create h relays).on s = (made, t)) : s.Takes Relay.maxAttempts t :=
  (Relay.create_eq_iff.mp hcreate).takes.1

/-- Between the two sides of a pipe only the relay takes numbers. -/
private theorem takes_of_handOver {relay : Relay} {written : Except Failure Unit}
    (hcreate : (Relay.create h relays).on s = (.ok relay, s₁))
    (hwrite : (relay.write h first).on s₁ = (written, s₂)) :
    s.Takes Relay.maxAttempts s₂ :=
  (takes_of_create hcreate).trans (.of_eq (Relay.nextRelay_of_write hwrite) 0)

/-- What the right side takes is taken after what the relay does. -/
private theorem takes_pipe {right : Expression} {u : Session σ}
    (hfed : s.Takes Relay.maxAttempts s₁)
    (hr : s₁.Takes (Relay.maxAttempts * right.pipeCount) s₂)
    (hlast : u.nextRelay = s₂.nextRelay) :
    s.Takes (Relay.maxAttempts * (Operator.pipe.relays + right.pipeCount)) u := by
  rw [Nat.mul_add, Operator.relays, Nat.mul_one]
  exact hfed.trans (hr.trans (.of_eq hlast 0))

private theorem Follows.takes
    (hright : ∀ {n : Nat} {input : InputSource} {s t : Session σ} {steps : List (Step σ)}
      {result : Except Failure Capture},
      Course h relays r n p.right input s steps result t →
        s.Takes (Relay.maxAttempts * p.right.pipeCount) t)
    (hf : Follows h relays r op p first s steps result t) :
    s.Takes (Relay.maxAttempts * (op.relays + p.right.pipeCount)) t := by
  cases hf with
  | joined hop hr =>
      exact (hright hr).mono (Nat.mul_le_mul_left _ (Nat.le_add_left _ _))
  | uncreated hcreate =>
      exact (takes_of_create hcreate).mono
        (Nat.le_mul_of_pos_right _ (Nat.add_pos_left Nat.one_pos _))
  | unwritten hcreate hwrite hdrop =>
      refine takes_pipe (takes_of_handOver hcreate hwrite) (.of_eq rfl _) ?_
      exact Relay.nextRelay_of_drop hdrop
  | downstream hcreate hwrite hr hdrop =>
      exact takes_pipe (takes_of_handOver hcreate hwrite) (hright hr :)
        (Relay.nextRelay_of_drop hdrop)
  | released hcreate hwrite hr hrelease =>
      exact takes_pipe (takes_of_handOver hcreate hwrite) (hright hr :)
        (Relay.nextRelay_of_release hrelease)

/-- **Each pipe takes as many numbers as names are tried, at most**, and nothing else
takes any. -/
theorem Course.takes {e : Expression} (hc : Course h relays r n e input s steps result t) :
    s.Takes (Relay.maxAttempts * e.pipeCount) t := by
  induction e generalizing n input s steps result t with
  | simple c =>
      cases hc with
      | completes he =>
          cases he with
          | ran _ hrun => exact .of_eq (Runner.nextRelay_of_run hrun :) _
          | skipped _ hrun _ => exact .of_eq (Runner.nextRelay_of_run hrun :) _
      | fails he =>
          cases he with
          | unprepared _ => exact .of_eq rfl _
          | aborted _ hrun _ => exact .of_eq (Runner.nextRelay_of_run hrun :) _
  | binary op left right ihl ihr =>
      rw [Expression.pipeCount, Nat.mul_add]
      rcases course_binary_iff.mp hc with
        ⟨f, hl, rfl⟩ | ⟨tl, first, s₁, tr, hl, hf, rfl⟩
      · exact (ihl (.fails hl)).mono (Nat.le_add_right _ _)
      · exact (ihl (.completes hl)).trans (hf.takes ihr)

end Numbers

/-! ## The same on both sides -/

section Beside

variable [DecidableEq ι] {files : Files σ ι} {h : Host σ} {relays : RelayStore}
  {alike : σ → σ → Prop} {r : Runner} {x : UInt64} {n : Nat}
  {s s' s₁ s₂ t : Session σ} {steps : List (Step σ)} {result : Except Failure Capture}

/-- Whatever an evaluation does, it does in a session beside the first one as well. -/
def Tracks (files : Files σ ι) (h : Host σ) (relays : RelayStore) (alike : σ → σ → Prop)
    (r : Runner) (x : UInt64) (e : Expression) : Prop :=
  ∀ ⦃n : Nat⦄ ⦃input input' : InputSource⦄ ⦃s s' t : Session σ⦄ ⦃steps : List (Step σ)⦄
    ⦃result : Except Failure Capture⦄,
    files.Beside relays alike x s t → input.Twins relays x input' →
      Fresh x (Relay.maxAttempts * e.pipeCount) s.nextRelay →
      Course h relays r n e input s steps result s' →
        ∃ steps' t', Course h relays r n e input' t steps' result t' ∧
          Abreast files relays alike x steps steps' ∧ files.Beside relays alike x s' t'

theorem Course.leaves {drift : Drift ι} (o : files.Orderly h relays drift)
    (w : files.Lawful h relays) {e : Expression} {input : InputSource}
    (hc : Course h relays r n e input s steps result t) :
    files.Leaves drift s.machine t.machine := by
  cases hc with
  | completes he => exact (he.lives o w).leaves
  | fails he => exact (he.lives o w).leaves

variable (d : files.Discreet h relays alike) (w : files.Lawful h relays)
  (o : files.Orderly h relays (files.outside relays))

include d w o

private theorem tracks_simple (hclock : r.deadline = none ∨ Blind alike h.now) (c : Command) :
    Tracks files h relays alike r x (.simple c) := by
  intro n input input' s s' t steps result hb hin _ hc
  have hcall : ∀ {argv : List Bytes} {answer : Except Failure (Capture × Status)} {u},
      (r.run h argv input).on (s.noted h (.argv argv)) = (answer, u) →
        ∃ u', (r.run h argv input').on (t.noted h (.argv argv)) = (answer, u') ∧
          Abreast files relays alike x (callSteps h n s c argv input answer u)
            (callSteps h n t c argv input' answer u') ∧
          files.Beside relays alike x u u' := by
    intro argv answer u hrun
    have hnoted := hb.noted d w o (.argv argv) (.argv argv)
    obtain ⟨u', hrun', hb'⟩ := hnoted.run d w o hclock hin hrun
    exact ⟨u', hrun', .cons ⟨.prepare _ _, hb, hb⟩ (.cons ⟨.note _, hb, hnoted⟩
      (.cons ⟨.call _ _ _ hin _, hnoted, hb'⟩ .nil)), hb'⟩
  cases hc with
  | completes he =>
      cases he with
      | ran hargv hrun =>
          obtain ⟨t', hrun', habreast, hb'⟩ := hcall hrun
          exact ⟨_, t', .completes (.ran hargv hrun'), habreast, hb'⟩
      | @skipped _ _ _ _ u _ f hargv hrun hf =>
          obtain ⟨t', hrun', habreast, hb'⟩ := hcall hrun
          have hnoted := hb'.noted d w o (.skipped f) (.skipped f)
          exact ⟨_, _, .completes (.skipped hargv hrun' hf),
            List.rel_append habreast (.cons ⟨.note _, hb', hnoted⟩ .nil), hnoted⟩
  | fails he =>
      cases he with
      | unprepared hargv =>
          exact ⟨_, t, .fails (.unprepared hargv), .cons ⟨.prepare _ _, hb, hb⟩ .nil, hb⟩
      | aborted hargv hrun hf =>
          obtain ⟨t', hrun', habreast, hb'⟩ := hcall hrun
          exact ⟨_, t', .fails (.aborted hargv hrun' hf), habreast, hb'⟩

/-- A relay is made and written on both sides, or it is not. -/
private theorem besideHandOver (hb : files.Beside relays alike x s t) {a : Relay}
    {output output' : Capture} {written : Except Failure Unit}
    (hbytes : output.bytes = output'.bytes)
    (hfresh : Fresh x Relay.maxAttempts s.nextRelay)
    (hcreate : (Relay.create h relays).on s = (.ok a, s₁))
    (hwrite : (a.write h output).on s₁ = (written, s₂)) :
    ∃ b t₁ t₂, (Relay.create h relays).on t = (.ok b, t₁) ∧
      (b.write h output').on t₁ = (written, t₂) ∧ a.Twins relays x b ∧
      files.Beside relays alike x s₁ t₁ ∧ files.Beside relays alike x s₂ t₂ := by
  obtain ⟨made, t₁, hcreate', hpair, hb₁⟩ := hb.create d w o hfresh hcreate
  cases hpair with
  | ok hab =>
      obtain ⟨t₂, hwrite', hb₂⟩ := hb₁.write d w o hab hbytes (w.create_ok hcreate)
        (w.create_ok hcreate') hwrite
      exact ⟨_, t₁, t₂, hcreate', hwrite', hab, hb₁, hb₂⟩

omit d in
/-- The relay of a pipe is in hand when the right side has ended. -/
theorem since_course {relay : Relay} {output : Capture} {e : Expression}
    {notice : Notice} {written : Except Failure Unit}
    (hcreate : (Relay.create h relays).on s = (.ok relay, s₁))
    (hwrite : (relay.write h output).on s₁ = (written, s₂))
    (hc : Course h relays r n e (.relay relay) (s₂.noted h notice) steps result t) :
    files.Since (files.outside relays) s.machine [files.entry relay.path] t.machine :=
  ((since_write o w (w.create_ok hcreate) hwrite).trans_leaves o
    (o.note w notice s₂)).trans_leaves o (hc.leaves o w)

private theorem besideDrop (hb : files.Beside relays alike x s t) {a b : Relay}
    (hab : a.Twins relays x b) {m₀ m₁ m₀' m₁' : σ}
    (hmakes : files.Makes relays a m₀ m₁) (hmakes' : files.Makes relays b m₀' m₁')
    (hs : files.Since (files.outside relays) m₀ [files.entry a.path] s.machine)
    (ht : files.Since (files.outside relays) m₀' [files.entry b.path] t.machine)
    (hdrop : (a.drop h).on s = ((), s')) :
    ∃ t', (b.drop h).on t = ((), t') ∧ files.Beside relays alike x s' t' := by
  have hgives := d.givesBack_of_drop w o hmakes hab.left_path hs hdrop
  have hgives' := d.givesBack_of_drop w o hmakes' hab.right_names ht
    (rfl : (b.drop h).on t = ((), ((b.drop h).on t).2))
  rw [hab.id] at hgives'
  exact ⟨_, rfl, hb.givesBack d hgives hgives'⟩

private theorem besideRelease (hb : files.Beside relays alike x s t) {a b : Relay}
    (hab : a.Twins relays x b) {m₀ m₁ m₀' m₁' : σ}
    (hmakes : files.Makes relays a m₀ m₁) (hmakes' : files.Makes relays b m₀' m₁')
    (hs : files.Since (files.outside relays) m₀ [files.entry a.path] s.machine)
    (ht : files.Since (files.outside relays) m₀' [files.entry b.path] t.machine)
    {released : Except Failure Unit} (hrelease : (a.release h).on s = (released, s')) :
    released = .ok () ∧ ∃ t', (b.release h).on t = (.ok (), t') ∧
      files.Beside relays alike x s' t' := by
  obtain ⟨hok, hgives⟩ := d.givesBack_of_release w o hmakes hab.left_path hs hrelease
  rcases hrelease' : (b.release h).on t with ⟨released', t'⟩
  obtain ⟨rfl, hgives'⟩ := d.givesBack_of_release w o hmakes' hab.right_names ht hrelease'
  rw [hab.id] at hgives'
  exact ⟨hok, t', rfl, hb.givesBack d hgives hgives'⟩

/-- Once the relay is written, the right side runs on it on both sides. -/
private theorem besideFed {left left' right : Expression} {n' : Nat}
    (hright : Tracks files h relays alike r x right)
    (hplace : n + left.size = n' + left'.size) (hb : files.Beside relays alike x s t)
    {a : Relay} {output output' : Capture} (hbytes : output.bytes = output'.bytes)
    (hfresh : Fresh x (Relay.maxAttempts * (1 + right.pipeCount)) s.nextRelay)
    (hcreate : (Relay.create h relays).on s = (.ok a, s₁))
    (hwrite : (a.write h output).on s₁ = (.ok (), s₂))
    (hr : Course h relays r (n + left.size) right (.relay a)
      (s₂.noted h (feedNotice a right)) steps result s') :
    ∃ b t₁ t₂ t' steps', (Relay.create h relays).on t = (.ok b, t₁) ∧
      (b.write h output').on t₁ = (.ok (), t₂) ∧ a.Twins relays x b ∧
      Course h relays r (n' + left'.size) right (.relay b)
        (t₂.noted h (feedNotice b right)) steps' result t' ∧
      Abreast files relays alike x (handOver h ⟨left, right, n⟩ s s₁ s₂ a output)
        (handOver h ⟨left', right, n'⟩ t t₁ t₂ b output') ∧
      Abreast files relays alike x steps steps' ∧ files.Beside relays alike x s' t' := by
  rw [Nat.mul_add, Nat.mul_one] at hfresh
  obtain ⟨b, t₁, t₂, hcreate', hwrite', hab, hb₁, hb₂⟩ := besideHandOver d w o hb hbytes
    (hfresh.mono (Nat.le_add_right _ _)) hcreate hwrite
  have hnotice : feedNotice b right = feedNotice a right := by
    rw [feedNotice, hab.right_path, feedNotice]
  have hfed := hb₂.noted d w o (feedNotice a right) (feedNotice b right)
  obtain ⟨steps', t', hr', habreast, hb'⟩ := hright hfed (.relay hab)
    (hfresh.after (takes_of_handOver hcreate hwrite) :) hr
  refine ⟨b, t₁, t₂, t', steps', hcreate', hwrite', hab, hplace ▸ hr', ?_, habreast, hb'⟩
  refine .cons ⟨.create _ _ (.ok hab), hb, hb₁⟩ (.cons ⟨.write _ _ hab hbytes _, hb₁, hb₂⟩
    (.cons ⟨?_, hb₂, hfed⟩ .nil))
  change Event.Twins relays x (.note (feedNotice a right)) (.note (feedNotice b right))
  rw [hnotice]
  exact .note _

/-- **What follows the left side of an operator is the same on both sides.** -/
theorem Follows.beside {op : Operator} {left left' right : Expression} {n' : Nat}
    {first first' : Capture} (hright : Tracks files h relays alike r x right)
    (hplace : n + left.size = n' + left'.size)
    (hbytes : op = .pipe → first.bytes = first'.bytes)
    (hb : files.Beside relays alike x s t)
    (hfresh : Fresh x (Relay.maxAttempts * (op.relays + right.pipeCount)) s.nextRelay)
    (hf : Follows h relays r op ⟨left, right, n⟩ first s steps result s') :
    ∃ (steps' : List (Step σ)) (second : Except Failure Capture) (t' : Session σ),
      Follows h relays r op ⟨left', right, n'⟩ first' t steps'
          (second.map (op.join first')) t' ∧
        result = second.map (op.join first) ∧
        Abreast files relays alike x steps steps' ∧
        files.Beside relays alike x s' t' := by
  have hmiddle : (⟨left, right, n⟩ : Pipe).middle = (⟨left', right, n'⟩ : Pipe).middle :=
    hplace
  have hone : op = .pipe → Fresh x Relay.maxAttempts s.nextRelay := by
    rintro rfl
    exact hfresh.mono (Nat.le_mul_of_pos_right _ (Nat.add_pos_left Nat.one_pos _))
  cases hf with
  | @joined _ _ _ _ _ _ second hop hr =>
      obtain ⟨steps', t', hr', habreast, hb'⟩ := hright hb .inherited
        (hfresh.mono (Nat.mul_le_mul_left _ (Nat.le_add_left _ _))) hr
      exact ⟨steps', second, t', .joined hop (hmiddle ▸ hr'), rfl, habreast, hb'⟩
  | @uncreated _ _ _ _ f hcreate =>
      obtain ⟨made, t', hcreate', hpair, hb'⟩ := hb.create d w o (hone rfl) hcreate
      cases hpair with
      | error _ =>
          exact ⟨_, .error f, t', .uncreated hcreate', rfl,
            .cons ⟨.create _ _ (.error f), hb, hb'⟩ .nil, hb'⟩
  | @unwritten _ _ _ _ _ _ a f hcreate hwrite hdrop =>
      obtain ⟨b, t₁, t₂, hcreate', hwrite', hab, hb₁, hb₂⟩ :=
        besideHandOver d w o hb (hbytes rfl) (hone rfl) hcreate hwrite
      obtain ⟨t', hdrop', hb'⟩ := besideDrop d w o hb₂ hab (w.create_ok hcreate)
        (w.create_ok hcreate') (since_write o w (w.create_ok hcreate) hwrite)
        (since_write o w (w.create_ok hcreate') hwrite') hdrop
      exact ⟨_, .error f, t', .unwritten hcreate' hwrite' hdrop', rfl,
        .cons ⟨.create _ _ (.ok hab), hb, hb₁⟩
          (.cons ⟨.write _ _ hab (hbytes rfl) _, hb₁, hb₂⟩
            (.cons ⟨.drop _ _ hab, hb₂, hb'⟩ .nil)), hb'⟩
  | @downstream _ _ _ _ _ _ _ _ a f hcreate hwrite hr hdrop =>
      obtain ⟨b, t₁, t₂, t₃, steps', hcreate', hwrite', hab, hr', hover, habreast, hb₃⟩ :=
        besideFed d w o hright hplace hb (hbytes rfl) hfresh hcreate hwrite hr
      obtain ⟨t', hdrop', hb'⟩ := besideDrop d w o hb₃ hab (w.create_ok hcreate)
        (w.create_ok hcreate') (since_course w o hcreate hwrite hr)
        (since_course w o hcreate' hwrite' hr') hdrop
      exact ⟨_, .error f, t', .downstream hcreate' hwrite' hr' hdrop', rfl,
        List.rel_append hover (List.rel_append habreast (.cons ⟨.drop _ _ hab, hb₃, hb'⟩ .nil)),
        hb'⟩
  | @released _ _ output _ _ _ _ _ _ a released hcreate hwrite hr hrelease =>
      obtain ⟨b, t₁, t₂, t₃, steps', hcreate', hwrite', hab, hr', hover, habreast, hb₃⟩ :=
        besideFed d w o hright hplace hb (hbytes rfl) hfresh hcreate hwrite hr
      obtain ⟨rfl, t', hrelease', hb'⟩ := besideRelease d w o hb₃ hab (w.create_ok hcreate)
        (w.create_ok hcreate') (since_course w o hcreate hwrite hr)
        (since_course w o hcreate' hwrite' hr') hrelease
      exact ⟨_, .ok output, t', .released hcreate' hwrite' hr' hrelease', rfl,
        List.rel_append hover
          (List.rel_append habreast (.cons ⟨.release _ _ hab _, hb₃, hb'⟩ .nil)), hb'⟩

/-- **An evaluation does the same in sessions beside each other.**  The clock may go as it
likes if there is no deadline. -/
theorem Course.beside (hclock : r.deadline = none ∨ Blind alike h.now) (x : UInt64)
    (e : Expression) : Tracks files h relays alike r x e := by
  induction e with
  | simple c => exact tracks_simple d w o hclock c
  | binary op left right ihl ihr =>
      intro n input input' s s' t steps result hb hin hfresh hc
      rw [Expression.pipeCount, Nat.mul_add] at hfresh
      have hbefore := hfresh.mono (Nat.le_add_right _ _)
      rcases course_binary_iff.mp hc with
        ⟨f, hl, rfl⟩ | ⟨tl, first, s₁, tr, hl, hf, rfl⟩
      · obtain ⟨steps', t', hl', habreast, hb'⟩ := ihl hb hin hbefore (.fails hl)
        exact ⟨steps', t', .fails (.left (course_error_iff.mp hl')), habreast, hb'⟩
      · obtain ⟨tl', t₁, hl', habreast, hb₁⟩ := ihl hb hin hbefore (.completes hl)
        obtain ⟨tr', second, t', hf', rfl, habreast', hb'⟩ := hf.beside d w o ihr rfl
          (fun _ => rfl) hb₁ (hfresh.after (Course.takes (.completes hl)))
        exact ⟨tl' ++ tr', t', hf'.course (course_ok_iff.mp hl'),
          List.rel_append habreast habreast', hb'⟩

end Beside

end Evaluator

end CommandExpr
