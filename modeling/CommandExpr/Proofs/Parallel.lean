import CommandExpr.Proofs.Buffers
import CommandExpr.Proofs.PipeRegrouping

/-!
# Two evaluations in parallel

The same composition is evaluated twice, from sessions that are not the same but are in a
relation: the relays may have other names, or the buffers another capacity.  `Parallel` says
what the relation must survive, one operation of the evaluator at a time.  Then it survives
the whole evaluation, and both come to the same as far as it tells: they start the same
programs with the same arguments on the same input, and come to outputs of the same whole or
to failures of the same kind.

The relation knows how many relays may still be made, and which pairs of relays are there
that belong to each other.

## Main results

* `Course.parallel` — the course of one evaluation is matched by one of the other.
-/

namespace CommandExpr

variable {σ ι α β : Type}

/-! ## What is seen of an evaluation -/

/-- A program that is called for. -/
structure Start where
  /-- The place of its command. -/
  place : Nat
  /-- The command. -/
  command : Command
  /-- Its argument vector. -/
  argv : List Bytes
  /-- What the relay contains that it reads; none if it has the input of the host. -/
  stdin : Option (Option Bytes)
  /-- Why it did not run to its end, if it did not. -/
  failure : Option FailureKind

/-- The program for which the runner is called. -/
def Turn.start (files : Files σ ι) (turn : Turn σ) : Start where
  place := turn.place
  command := turn.command
  argv := turn.argv
  stdin := (turn.input.stdin files turn.before.machine).map Prod.snd
  failure :=
    match turn.result with
    | .ok _ => none
    | .error f => some f.kind

/-- The programs that are called for, in order. -/
def starts (files : Files σ ι) (steps : List (Step σ)) : List Start :=
  (turns steps).map (Turn.start files)

/-- The output that a step hands on to a pipe. -/
def Step.handed? (step : Step σ) : Option Capture :=
  match step.event with
  | .write _ _ output _ => some output
  | _ => none

/-- The outputs of left sides of pipes that were handed on, in order. -/
def handed (steps : List (Step σ)) : List Capture := steps.filterMap Step.handed?

@[simp]
theorem starts_append (files : Files σ ι) (a b : List (Step σ)) :
    starts files (a ++ b) = starts files a ++ starts files b := by
  simp [starts]

@[simp]
theorem handed_append (a b : List (Step σ)) : handed (a ++ b) = handed a ++ handed b :=
  List.filterMap_append

/-! ## Failures of one kind -/

theorem Failure.isFatal_of_kind {f f' : Failure} (hkind : f.kind = f'.kind) :
    f.isFatal = f'.isFatal := by
  rw [isFatal, isFatal, hkind]

theorem Evaluator.spawnErrno_of_kind {f f' : Failure} (hkind : f.kind = f'.kind) :
    spawnErrno f = spawnErrno f' := by
  rw [spawnErrno, spawnErrno, hkind]

theorem Matches.map {γ δ ε ε' : Type} {F : ε → ε' → Prop} {P : α → β → Prop}
    {Q : γ → δ → Prop} {x : Except ε α} {y : Except ε' β} (hxy : Matches F P x y)
    {f : α → γ} {g : β → δ} (hfg : ∀ a b, P a b → Q (f a) (g b)) :
    Matches F Q (x.map f) (y.map g) := by
  cases hxy with
  | ok hab => exact .ok (hfg _ _ hab)
  | error he => exact .error he

/-! ## The relation -/

/-- Two inputs that are both the host's, or relays that belong to each other. -/
inductive InputSource.Paired (live : List (Relay × Relay)) :
    InputSource → InputSource → Prop where
  | inherited : Paired live .inherited .inherited
  | relay {a b : Relay} (hlive : (a, b) ∈ live) : Paired live (.relay a) (.relay b)

/-- A relay is made in both sessions and then written in both or in none, or it is made in
none. -/
inductive Relay.Handed (h : Host σ) (F : Failure → Failure → Prop)
    (R : List (Relay × Relay) → Session σ → Session σ → Prop) (live : List (Relay × Relay)) :
    Except Failure Relay × Session σ → Except Failure Relay × Session σ → Prop where
  | ok {a b : Relay} {s t : Session σ}
      (hwrite : ∀ {output output' : Capture}, output.bytes = output'.bytes →
        Matches F (fun _ _ => True) ((a.write h output).on s).1 ((b.write h output').on t).1 ∧
          R ((a, b) :: live) ((a.write h output).on s).2 ((b.write h output').on t).2) :
      Handed h F R live (.ok a, s) (.ok b, t)
  | error {f f' : Failure} {s t : Session σ} (hf : F f f') (hR : R live s t) :
      Handed h F R live (.error f, s) (.error f', t)

/-- The inputs are opened in both sessions, and then any program does the same with them, or
in none. -/
inductive Runner.Opened (h : Host σ) (r r' : Runner) (F : Failure → Failure → Prop)
    (alike : σ → σ → Prop) :
    Except Failure (Option Handle) × Session σ →
      Except Failure (Option Handle) × Session σ → Prop where
  | ok {handle? handle?' : Option Handle} {s t : Session σ}
      (hlaunch : ∀ program argv,
        Matches F (SameRun r.cap r'.cap) ((r.launch h program argv handle?).on s).1
            ((r'.launch h program argv handle?').on t).1 ∧
          Session.Alike alike ((r.launch h program argv handle?).on s).2
            ((r'.launch h program argv handle?').on t).2) :
      Opened h r r' F alike (.ok handle?, s) (.ok handle?', t)
  | error {f f' : Failure} {s t : Session σ} (hf : F f f') (halike : s.Alike alike t) :
      Opened h r r' F alike (.error f, s) (.error f', t)

/-- A relation between sessions that every operation of an evaluator with the one runner and
of one with the other keeps; `F` relates the failures to which they come. -/
structure Parallel (files : Files σ ι) (h : Host σ) (store : RelayStore) (r r' : Runner)
    (F : Failure → Failure → Prop)
    (R : Nat → List (Relay × Relay) → Session σ → Session σ → Prop) : Prop where
  refl (f : Failure) : F f f
  kind {f f' : Failure} : F f f' → f.kind = f'.kind
  /-- Fewer relays may be made as well. -/
  mono {n m : Nat} {live : List (Relay × Relay)} {s t : Session σ} :
    m ≤ n → R n live s t → R m live s t
  /-- Different things may be logged. -/
  noted {n : Nat} {live : List (Relay × Relay)} {s t : Session σ} (x y : Notice) :
    R n live s t → R n live (s.noted h x) (t.noted h y)
  /-- Relays that belong to each other contain the same. -/
  content {n : Nat} {live : List (Relay × Relay)} {s t : Session σ} {a b : Relay} :
    R n live s t → (a, b) ∈ live →
      files.content s.machine (files.entry a.path)
        = files.content t.machine (files.entry b.path)
  /-- A program does the same. -/
  run {n : Nat} {live : List (Relay × Relay)} {s t : Session σ} (argv : List Bytes)
      {input input' : InputSource} :
    R n live s t → input.Paired live input' →
      Matches F (SameRun r.cap r'.cap) ((r.run h argv input).on s).1
          ((r'.run h argv input').on t).1 ∧
        R n live ((r.run h argv input).on s).2 ((r'.run h argv input').on t).2
  create {n : Nat} {live : List (Relay × Relay)} {s t : Session σ} :
    R (n + 1) live s t →
      Relay.Handed h F (R n) live ((Relay.create h store).on s) ((Relay.create h store).on t)
  release {n : Nat} {live : List (Relay × Relay)} {s t : Session σ} {a b : Relay} :
    R n ((a, b) :: live) s t →
      Matches F (fun _ _ => True) ((a.release h).on s).1 ((b.release h).on t).1 ∧
        R n live ((a.release h).on s).2 ((b.release h).on t).2
  drop {n : Nat} {live : List (Relay × Relay)} {s t : Session σ} {a b : Relay} :
    R n ((a, b) :: live) s t → R n live ((a.drop h).on s).2 ((b.drop h).on t).2

/-- A program does the same on inputs that are opened. -/
theorem Runner.Opened.run {h : Host σ} {r r' : Runner} {F : Failure → Failure → Prop}
    {alike : σ → σ → Prop} {input input' : InputSource} {s t : Session σ}
    (hrefl : ∀ f, F f f) (halike : s.Alike alike t)
    (hopened : Opened h r r' F alike ((openInput h input).on s) ((openInput h input').on t))
    (argv : List Bytes) :
    Matches F (SameRun r.cap r'.cap) ((r.run h argv input).on s).1
        ((r'.run h argv input').on t).1 ∧
      Session.Alike alike ((r.run h argv input).on s).2 ((r'.run h argv input').on t).2 := by
  cases argv with
  | nil => exact ⟨.error (hrefl _), halike⟩
  | cons first rest =>
      cases hnul : (first :: rest).any Bytes.hasNul with
      | true =>
          simp only [Runner.run, hnul, if_true, Attempt.on_throw]
          exact ⟨.error (hrefl _), halike⟩
      | false =>
          simp only [Runner.run, hnul]
          rw [if_neg (by decide), if_neg (by decide)]
          rcases hs : (openInput h input).on s with ⟨opened, s₁⟩
          rcases ht : (openInput h input').on t with ⟨opened', t₁⟩
          rw [hs, ht] at hopened
          cases hopened with
          | ok hlaunch =>
              rw [Attempt.on_bind_ok _ hs, Attempt.on_bind_ok _ ht]
              exact hlaunch _ _
          | error hf hafter =>
              rw [Attempt.on_bind_error _ hs, Attempt.on_bind_error _ ht]
              exact ⟨.error hf, hafter⟩

/-- The input of a relay is opened if its file is. -/
theorem Runner.on_openInput_relay (h : Host σ) (relay : Relay) (s : Session σ) :
    (openInput h (.relay relay)).on s =
      match (relay.openForRead h).on s with
      | (.ok handle, t) => (.ok (some handle), t)
      | (.error f, t) => (.error f, t) := by
  rcases hopen : (relay.openForRead h).on s with ⟨opened, t⟩
  cases opened with
  | ok handle => exact Attempt.on_bind_ok _ hopen
  | error f => exact Attempt.on_bind_error _ hopen

namespace Evaluator

variable {files : Files σ ι} {h : Host σ} {store : RelayStore} {r r' : Runner}
  {F : Failure → Failure → Prop}
  {R : Nat → List (Relay × Relay) → Session σ → Session σ → Prop}
  {k n : Nat} {live : List (Relay × Relay)} {s s' s₁ s₂ t : Session σ}
  {steps : List (Step σ)} {result : Except Failure Capture}

/-- What is handed on through a pipe is the same in both buffers. -/
def Undamaged (r r' : Runner) (steps : List (Step σ)) : Prop :=
  ∀ output ∈ handed steps, ∀ output' : Capture,
    output.Twins r.cap r'.cap output' → output.bytes = output'.bytes

theorem Undamaged.of_append {a b : List (Step σ)} (hall : Undamaged r r' (a ++ b)) :
    Undamaged r r' a ∧ Undamaged r r' b := by
  rw [Undamaged, handed_append] at hall
  exact ⟨fun output houtput => hall output (List.mem_append_left _ houtput),
    fun output houtput => hall output (List.mem_append_right _ houtput)⟩

/-- The other evaluation does the same from a session in the relation, and leaves one in
the relation. -/
structure Matched (files : Files σ ι) (h : Host σ) (store : RelayStore) (r r' : Runner)
    (F : Failure → Failure → Prop) (n : Nat) (e : Expression) (input' : InputSource)
    (t : Session σ) (steps : List (Step σ)) (result : Except Failure Capture)
    (steps' : List (Step σ)) (result' : Except Failure Capture) (t' : Session σ) : Prop where
  course : Course h store r' n e input' t steps' result' t'
  starts : starts files steps = CommandExpr.starts files steps'
  result : Matches F (Capture.Twins r.cap r'.cap) result result'

/-- Whatever the one evaluation does, the other one does as well. -/
def Pairs (files : Files σ ι) (h : Host σ) (store : RelayStore) (r r' : Runner)
    (F : Failure → Failure → Prop)
    (R : Nat → List (Relay × Relay) → Session σ → Session σ → Prop) (e : Expression) : Prop :=
  ∀ ⦃k n : Nat⦄ ⦃live : List (Relay × Relay)⦄ ⦃input input' : InputSource⦄
    ⦃s s' t : Session σ⦄ ⦃steps : List (Step σ)⦄ ⦃result : Except Failure Capture⦄,
    R (k + e.pipeCount) live s t → input.Paired live input' → Undamaged r r' steps →
      Course h store r n e input s steps result s' →
        ∃ steps' result' t',
          Matched files h store r r' F n e input' t steps result steps' result' t' ∧
            R k live s' t'

variable (p : Parallel files h store r r' F R)

include p

private theorem stdin_of_paired (hR : R k live s t) {input input' : InputSource}
    (hin : input.Paired live input') :
    (input.stdin files s.machine).map Prod.snd
      = (input'.stdin files t.machine).map Prod.snd := by
  cases hin with
  | inherited => rfl
  | relay hlive => exact congrArg some (p.content hR hlive)

/-- The call for a command is matched. -/
private theorem parallel_call (c : Command) {argv : List Bytes} {input input' : InputSource}
    {answer : Except Failure (Capture × Status)} (hR : R k live s t)
    (hin : input.Paired live input')
    (hrun : (r.run h argv input).on (s.noted h (.argv argv)) = (answer, s')) :
    ∃ answer' t', (r'.run h argv input').on (t.noted h (.argv argv)) = (answer', t') ∧
      Matches F (SameRun r.cap r'.cap) answer answer' ∧ R k live s' t' ∧
      starts files (callSteps h n s c argv input answer s')
        = starts files (callSteps h n t c argv input' answer' t') := by
  have hnoted := p.noted (.argv argv) (.argv argv) hR
  obtain ⟨hanswer, hR'⟩ := p.run argv hnoted hin
  rcases hrun' : (r'.run h argv input').on (t.noted h (.argv argv)) with ⟨answer', t'⟩
  rw [hrun, hrun'] at hanswer hR'
  refine ⟨answer', t', rfl, hanswer, hR', ?_⟩
  rw [starts, starts, turns_callSteps, turns_callSteps]
  simp only [List.map_cons, List.map_nil, Turn.start, stdin_of_paired p hnoted hin]
  cases hanswer with
  | ok _ => rfl
  | error hf => simp only [p.kind hf]

private theorem pairs_simple (c : Command) : Pairs files h store r r' F R (.simple c) := by
  intro k n live input input' s s' t steps result hR hin _ hc
  cases hc with
  | completes he =>
      cases he with
      | ran hargv hrun =>
          obtain ⟨answer', t', hrun', hanswer, hR', hstarts⟩ := parallel_call p c hR hin hrun
          cases hanswer with
          | @ok _ ran hab =>
              obtain ⟨output', status⟩ := ran
              obtain ⟨htwins, rfl⟩ := hab
              exact ⟨_, _, t', ⟨.completes (.ran hargv hrun'), hstarts,
                .ok (htwins.outcome _ _)⟩, hR'⟩
      | @skipped _ _ _ _ _ _ f hargv hrun hf =>
          obtain ⟨answer', t', hrun', hanswer, hR', hstarts⟩ := parallel_call p c hR hin hrun
          cases hanswer with
          | @error _ f' he =>
              have hkind := p.kind he
              have hf' : f'.isFatal = false := (Failure.isFatal_of_kind hkind).symm.trans hf
              refine ⟨_, _, _, ⟨.completes (.skipped hargv hrun' hf'), ?_, .ok ?_⟩,
                p.noted (.skipped f) (.skipped f') hR'⟩
              · rw [starts_append, starts_append, hstarts]
                rfl
              · rw [spawnErrno_of_kind hkind]
                exact .absent _ _ _ _
  | fails he =>
      cases he with
      | unprepared hargv =>
          exact ⟨_, _, t, ⟨.fails (.unprepared hargv), rfl, .error (p.refl _)⟩, hR⟩
      | aborted hargv hrun hf =>
          obtain ⟨answer', t', hrun', hanswer, hR', hstarts⟩ := parallel_call p c hR hin hrun
          cases hanswer with
          | error he =>
              have hf' := (Failure.isFatal_of_kind (p.kind he)).symm.trans hf
              exact ⟨_, _, t', ⟨.fails (.aborted hargv hrun' hf'), hstarts, .error he⟩, hR'⟩

/-- A relay is made and written in the other evaluation as well, or it is not. -/
private theorem parallel_handOver (hR : R (k + 1) live s t) {a : Relay}
    {output output' : Capture} {written : Except Failure Unit}
    (hbytes : output.bytes = output'.bytes)
    (hcreate : (Relay.create h store).on s = (.ok a, s₁))
    (hwrite : (a.write h output).on s₁ = (written, s₂)) :
    ∃ b t₁ written' t₂, (Relay.create h store).on t = (.ok b, t₁) ∧
      (b.write h output').on t₁ = (written', t₂) ∧
      Matches F (fun _ _ => True) written written' ∧ R k ((a, b) :: live) s₂ t₂ := by
  have hmade := p.create hR
  rcases hcreate' : (Relay.create h store).on t with ⟨made, t₁⟩
  rw [hcreate, hcreate'] at hmade
  cases hmade with
  | @ok _ b _ _ hboth =>
      obtain ⟨hwritten, hR'⟩ := hboth hbytes
      rw [hwrite] at hwritten hR'
      exact ⟨b, t₁, _, _, rfl, rfl, hwritten, hR'⟩

omit p in
private theorem bytes_of_undamaged {pipe : Pipe} {a : Relay} {first first' : Capture}
    {written : Except Failure Unit} {step : Step σ} {rest : List (Step σ)}
    (hall : Undamaged r r' (step :: ⟨s₁, .write pipe a first written, s₂⟩ :: rest))
    (hfirst : first.Twins r.cap r'.cap first') : first.bytes = first'.bytes := by
  have hlater : Undamaged r r' (⟨s₁, .write pipe a first written, s₂⟩ :: rest) :=
    (Undamaged.of_append (a := [step]) hall).2
  exact hlater first List.mem_cons_self first' hfirst

/-- Once the relays are written, the right sides run on them. -/
private theorem parallel_fed {left right : Expression} {a : Relay} {first first' : Capture}
    {last : List (Step σ)} (hright : Pairs files h store r r' F R right)
    (hfirst : first.Twins r.cap r'.cap first')
    (hall : Undamaged r r' (handOver h ⟨left, right, n⟩ s s₁ s₂ a first ++ (steps ++ last)))
    (hR : R (k + right.pipeCount + 1) live s t)
    (hcreate : (Relay.create h store).on s = (.ok a, s₁))
    (hwrite : (a.write h first).on s₁ = (.ok (), s₂))
    (hr : Course h store r (n + left.size) right (.relay a) (s₂.noted h (feedNotice a right))
      steps result s') :
    ∃ b t₁ t₂ steps' result' t', (Relay.create h store).on t = (.ok b, t₁) ∧
      (b.write h first').on t₁ = (.ok (), t₂) ∧
      Matched files h store r r' F (n + left.size) right (.relay b)
        (t₂.noted h (feedNotice b right)) steps result steps' result' t' ∧
      R k ((a, b) :: live) s' t' := by
  obtain ⟨hover, hafter⟩ := hall.of_append
  obtain ⟨b, t₁, written', t₂, hcreate', hwrite', hwritten, hR'⟩ :=
    parallel_handOver p hR (bytes_of_undamaged hover hfirst) hcreate hwrite
  cases hwritten with
  | ok _ =>
      obtain ⟨steps', result', t', hm, hR''⟩ := hright
        (p.noted (feedNotice a right) (feedNotice b right) hR') (.relay List.mem_cons_self)
        hafter.of_append.1 hr
      exact ⟨b, t₁, t₂, steps', result', t', hcreate', hwrite', hm, hR''⟩

/-- **What follows the left side of an operator is matched.** -/
theorem Follows.parallel {op : Operator} {left right : Expression} {first first' : Capture}
    (hright : Pairs files h store r r' F R right)
    (hfirst : first.Twins r.cap r'.cap first') (hall : Undamaged r r' steps)
    (hR : R (k + (op.relays + right.pipeCount)) live s t)
    (hf : Follows h store r op ⟨left, right, n⟩ first s steps result s') :
    ∃ (steps' : List (Step σ)) (result' : Except Failure Capture) (t' : Session σ),
      Follows h store r' op ⟨left, right, n⟩ first' t steps' result' t' ∧
        starts files steps = starts files steps' ∧
        Matches F (Capture.Twins r.cap r'.cap) result result' ∧ R k live s' t' := by
  have hone : op = .pipe → R (k + right.pipeCount + 1) live s t := by
    rintro rfl
    have hcount : k + (Operator.pipe.relays + right.pipeCount) = k + right.pipeCount + 1 := by
      rw [Operator.relays]
      omega
    rwa [hcount] at hR
  cases hf with
  | joined hop hr =>
      have hR' := p.mono (Nat.add_le_add_left (Nat.le_add_left _ _) k) hR
      obtain ⟨steps', result', t', hm, hR''⟩ := hright hR' .inherited hall hr
      exact ⟨steps', _, t', .joined hop hm.course, hm.starts,
        hm.result.map fun _ _ hsecond => hfirst.join hsecond op, hR''⟩
  | uncreated hcreate =>
      have hmade := p.create (hone rfl)
      rcases hcreate' : (Relay.create h store).on t with ⟨made, t'⟩
      rw [hcreate, hcreate'] at hmade
      cases hmade with
      | error hf hR' =>
          exact ⟨_, _, t', .uncreated hcreate', rfl, .error hf, p.mono (Nat.le_add_right _ _) hR'⟩
  | unwritten hcreate hwrite hdrop =>
      obtain ⟨b, t₁, written', t₂, hcreate', hwrite', hwritten, hR'⟩ :=
        parallel_handOver p (hone rfl) (bytes_of_undamaged hall hfirst) hcreate hwrite
      cases hwritten with
      | error hf =>
          have hdropped := p.drop (p.mono (Nat.le_add_right _ _) hR')
          rw [hdrop] at hdropped
          exact ⟨_, _, _, .unwritten hcreate' hwrite' rfl, rfl, .error hf, hdropped⟩
  | downstream hcreate hwrite hr hdrop =>
      obtain ⟨b, t₁, t₂, steps', result', t₃, hcreate', hwrite', hm, hR'⟩ :=
        parallel_fed p hright hfirst hall (hone rfl) hcreate hwrite hr
      obtain ⟨hcourse, hstarts, hresult⟩ := hm
      have hdropped := p.drop hR'
      rw [hdrop] at hdropped
      cases hresult with
      | error hf =>
          refine ⟨_, _, _, .downstream hcreate' hwrite' hcourse rfl, ?_, .error hf, hdropped⟩
          rw [starts_append, starts_append, starts_append, starts_append, hstarts]
          rfl
  | released hcreate hwrite hr hrelease =>
      obtain ⟨b, t₁, t₂, steps', result', t₃, hcreate', hwrite', hm, hR'⟩ :=
        parallel_fed p hright hfirst hall (hone rfl) hcreate hwrite hr
      obtain ⟨hcourse, hstarts, hresult⟩ := hm
      obtain ⟨hreleased, hR₃⟩ := p.release hR'
      rcases hrelease' : (b.release h).on t₃ with ⟨released', t'⟩
      rw [hrelease, hrelease'] at hreleased hR₃
      cases hresult with
      | ok houtput =>
          refine ⟨_, _, t', .released hcreate' hwrite' hcourse hrelease', ?_,
            hreleased.map fun _ _ _ => hfirst.join houtput .pipe, hR₃⟩
          rw [starts_append, starts_append, starts_append, starts_append, hstarts]
          rfl

/-- **The course of one evaluation is matched by one of the other.** -/
theorem Course.parallel (e : Expression) : Pairs files h store r r' F R e := by
  induction e with
  | simple c => exact pairs_simple p c
  | binary op left right ihl ihr =>
      intro k n live input input' s s' t steps result hR hin hall hc
      have hleft : R (k + (op.relays + right.pipeCount) + left.pipeCount) live s t := by
        rwa [Nat.add_assoc, Nat.add_comm (op.relays + right.pipeCount)]
      rcases course_binary_iff.mp hc with
        ⟨f, hl, rfl⟩ | ⟨tl, first, s₁, tr, hl, hf, rfl⟩
      · obtain ⟨steps', result', t', ⟨hcourse, hstarts, hresult⟩, hR'⟩ :=
          ihl hleft hin hall (.fails hl)
        cases hresult with
        | error hfailure =>
            exact ⟨steps', _, t', ⟨.fails (.left (course_error_iff.mp hcourse)), hstarts,
              .error hfailure⟩, p.mono (Nat.le_add_right _ _) hR'⟩
      · obtain ⟨tl', result', t₁, ⟨hcourse, hstarts, hresult⟩, hR'⟩ :=
          ihl hleft hin hall.of_append.1 (.completes hl)
        cases hresult with
        | ok hfirst =>
            obtain ⟨tr', result', t', hf', hstarts', hresult', hR''⟩ :=
              hf.parallel p ihr hfirst hall.of_append.2 hR'
            refine ⟨tl' ++ tr', result', t', ⟨hf'.course (course_ok_iff.mp hcourse), ?_,
              hresult'⟩, hR''⟩
            rw [starts_append, starts_append, hstarts, hstarts']

end Evaluator

end CommandExpr
