import CommandExpr.Proofs.Parallel

/-!
# A larger capacity

A capacity bounds what is kept of an output, and nothing else.  As long as nothing is cut
that goes through a pipe, an evaluation with a larger capacity starts the same programs on
the same input, fails where the other one fails, and leaves the same machine; its output
only goes on where the smaller one was cut.

The two evaluations do not log the same, so it is said of the host that nothing it does
depends on what was logged (`Files.Indifferent`).

## Main results

* `dispatch_capacity` — what an evaluation comes to with a larger capacity.
-/

namespace CommandExpr

variable {σ ι : Type}

/-- States of the machine that are `alike` differ at most in what was logged: every call has
the same answer in both, and leaves states that are alike. -/
structure Files.Indifferent (files : Files σ ι) (h : Host σ) (alike : σ → σ → Prop) : Prop
    extends h.Steady alike where
  content {m m' : σ} : alike m m' → files.content m = files.content m'
  spawn (argv : List Bytes) (input : Option Handle) : Blind alike (h.spawn argv input)
  createNew (path : Path) : Blind alike (h.createNew path)
  openRead (path : Path) : Blind alike (h.openRead path)
  append (handle : Handle) (bytes : Bytes) : Blind alike (h.append handle bytes)
  remove (path : Path) : Blind alike (h.remove path)
  close (handle : Handle) {m m' : σ} : alike m m' → alike (h.close handle m) (h.close handle m')

/-- The one capture is the other one, cut at a capacity. -/
structure Capture.CutAt (cap : Nat) (a b : Capture) : Prop where
  bytes : a.bytes = b.bytes.take cap
  isTruncated : a.isTruncated = true ↔ b.isTruncated = true ∨ cap < b.bytes.length
  status : a.status = b.status
  faults : a.faults = b.faults

theorem Capture.Twins.cutAt {cap cap' : Nat} {a b : Capture} (hab : a.Twins cap cap' b)
    (hle : cap ≤ cap') : a.CutAt cap b :=
  ⟨hab.bytes_eq_take hle, hab.isTruncated_iff hle, hab.status, hab.faults⟩

/-- The machines are alike, and the relays are numbered alike. -/
def Session.InStep (alike : σ → σ → Prop) (s t : Session σ) : Prop :=
  t.nextRelay = s.nextRelay ∧ s.Alike alike t

theorem Blind.of_eq {α : Type} (f : σ → α × σ) : Blind Eq f := by
  rintro m _ rfl
  exact ⟨rfl, rfl⟩

/-- Where nothing is logged all states differ in more than that. -/
theorem Files.indifferent_of_silent (files : Files σ ι) {h : Host σ}
    (hsilent : ∀ message m, h.tell message m = m) : files.Indifferent h Eq where
  equivalence := eq_equivalence
  patience := congrArg h.patience
  readReport _ _ := .of_eq _
  readOutput _ _ := .of_eq _
  pollOutput _ _ := .of_eq _
  wait _ _ := .of_eq _
  kill _ _ := .of_eq _
  hangUp pid _ _ := congrArg (h.hangUp pid)
  sleep time _ _ := congrArg (h.sleep time)
  tell message m := (hsilent message m).symm
  content := congrArg files.content
  spawn _ _ := .of_eq _
  createNew _ := .of_eq _
  openRead _ := .of_eq _
  append _ _ := .of_eq _
  remove _ := .of_eq _
  close handle _ _ := congrArg (h.close handle)

namespace Files.Indifferent

variable {files : Files σ ι} {h : Host σ} {alike : σ → σ → Prop} {c₁ c₂ : Nat}
  {s t : Session σ}

private theorem agree_call {α : Type} {f : σ → α × σ} (hf : Blind alike f) :
    Agree (Session.InStep alike) (Host.call f) (Host.call f) := by
  intro s t hR
  obtain ⟨heq, halike⟩ := hf s.machine t.machine hR.2
  exact ⟨heq, hR.1, halike⟩

theorem noted (i : files.Indifferent h alike) (hR : s.InStep alike t) (x y : Notice) :
    (s.noted h x).InStep alike (t.noted h y) :=
  ⟨hR.1, i.toSteady.noted hR.2 x y⟩

/-- Relays are made, written and given back in both sessions or in none. -/
theorem storing (i : files.Indifferent h alike) : Storing (Session.InStep alike) h h where
  createNew path := agree_call (i.createNew path)
  append handle bytes := agree_call (i.append handle bytes)
  close handle _ _ hR := ⟨rfl, hR.1, i.close handle hR.2⟩
  remove path := agree_call (i.remove path)
  tell message _ _ hR := ⟨rfl, hR.1, i.equivalence.trans
    (i.equivalence.symm (i.tell message _)) (i.equivalence.trans hR.2 (i.tell message _))⟩
  takeId _ _ hR := ⟨hR.1.symm, congrArg (· + 1) hR.1, hR.2⟩

private theorem launched (i : files.Indifferent h alike) (halike : s.Alike alike t)
    (handle? : Option Handle) (program : String) (argv : List Bytes) :
    Matches Eq (SameRun c₁ c₂) ((Runner.launch h ⟨c₁, none⟩ program argv handle?).on s).1
        ((Runner.launch h ⟨c₂, none⟩ program argv handle?).on t).1 ∧
      Session.Alike alike ((Runner.launch h ⟨c₁, none⟩ program argv handle?).on s).2
        ((Runner.launch h ⟨c₂, none⟩ program argv handle?).on t).2 := by
  obtain ⟨heq, hspawned⟩ := i.spawn argv handle? _ _ halike
  refine i.toSteady.launch (Or.inl rfl) heq ?_
  cases handle? with
  | none => exact hspawned
  | some handle => exact i.close handle hspawned

private theorem opened (i : files.Indifferent h alike) (halike : s.Alike alike t)
    (input : InputSource) :
    Runner.Opened h ⟨c₁, none⟩ ⟨c₂, none⟩ Eq alike ((Runner.openInput h input).on s)
      ((Runner.openInput h input).on t) := by
  cases input with
  | inherited => exact .ok fun program argv => i.launched halike none program argv
  | relay relay =>
      have hcall : Agree (Session.Alike alike) (Host.call (h.openRead relay.path))
          (Host.call (h.openRead relay.path)) :=
        fun s t halike => i.openRead relay.path s.machine t.machine halike
      obtain ⟨heq, hafter⟩ := Agree.openForRead relay hcall s t halike
      rw [Attempt.on_run, Attempt.on_run] at heq hafter
      rw [Runner.on_openInput_relay, Runner.on_openInput_relay]
      rcases hs : (relay.openForRead h).on s with ⟨answer, s₁⟩
      rcases ht : (relay.openForRead h).on t with ⟨answer', t₁⟩
      rw [hs, ht] at heq hafter
      obtain rfl : answer = answer' := heq
      cases answer with
      | ok handle => exact .ok fun program argv => i.launched hafter _ program argv
      | error f => exact .error rfl hafter

/-- The sessions are in step, and the relays that belong to each other are the same. -/
private def Shared (alike : σ → σ → Prop) (_ : Nat) (live : List (Relay × Relay))
    (s t : Session σ) : Prop :=
  s.InStep alike t ∧ ∀ pair ∈ live, pair.1 = pair.2

/-- Evaluations with two capacities stay in step. -/
theorem parallel (i : files.Indifferent h alike) (relays : RelayStore) (c₁ c₂ : Nat) :
    Parallel files h relays ⟨c₁, none⟩ ⟨c₂, none⟩ Eq (Shared alike) where
  refl _ := rfl
  kind := by
    rintro f _ rfl
    rfl
  mono _ hR := hR
  noted x y hR := ⟨i.noted hR.1 x y, hR.2⟩
  content {_ _ s t a b} hR hlive := by
    obtain rfl : a = b := hR.2 _ hlive
    rw [i.content hR.1.2]
  run {_ live s t} argv {input input'} hR hin := by
    have hsame : input = input' := by
      cases hin with
      | inherited => rfl
      | relay hlive => exact congrArg InputSource.relay (hR.2 _ hlive)
    subst hsame
    have hopened : Runner.Opened h ⟨c₁, none⟩ ⟨c₂, none⟩ Eq alike _ _ := i.opened hR.1.2 input
    obtain ⟨hmatches, halike⟩ := hopened.run (fun _ => rfl) hR.1.2 argv
    refine ⟨hmatches, ⟨?_, halike⟩, hR.2⟩
    exact (Runner.nextRelay_of_run rfl).trans
      (hR.1.1.trans (Runner.nextRelay_of_run rfl).symm)
  create {_ live s t} hR := by
    obtain ⟨heq, hafter⟩ := i.storing.createFrom relays (Relay.maxAttempts - 1) 0 s t hR.1
    change ((Relay.create h relays).on s).1 = ((Relay.create h relays).on t).1 at heq
    change Session.InStep alike ((Relay.create h relays).on s).2
      ((Relay.create h relays).on t).2 at hafter
    rcases hs : (Relay.create h relays).on s with ⟨made, s₁⟩
    rcases ht : (Relay.create h relays).on t with ⟨made', t₁⟩
    rw [hs, ht] at heq hafter
    obtain rfl : made = made' := heq
    cases made with
    | error f => exact .error rfl ⟨hafter, hR.2⟩
    | ok relay =>
        refine .ok fun {output output'} hbytes => ?_
        obtain ⟨hwritten, hstep⟩ := i.storing.write relay output s₁ t₁ hafter
        rw [Attempt.on_run, Attempt.on_run] at hwritten hstep
        rw [← Relay.write_of_bytes h relay hbytes, ← hwritten]
        refine ⟨?_, hstep, ?_⟩
        · cases ((relay.write h output).on s₁).1 with
          | ok _ => exact .ok trivial
          | error f => exact .error rfl
        · exact List.forall_mem_cons.mpr ⟨rfl, hR.2⟩
  release {_ live s t a b} hR := by
    obtain ⟨hsame, hlive⟩ := List.forall_mem_cons.mp hR.2
    obtain rfl : a = b := hsame
    obtain ⟨heq, hafter⟩ := i.storing.release a s t hR.1
    rw [Attempt.on_run, Attempt.on_run] at heq hafter
    refine ⟨?_, hafter, hlive⟩
    rw [← heq]
    cases ((a.release h).on s).1 with
    | ok _ => exact .ok trivial
    | error f => exact .error rfl
  drop {_ live s t a b} hR := by
    obtain ⟨hsame, hlive⟩ := List.forall_mem_cons.mp hR.2
    obtain rfl : a = b := hsame
    exact ⟨(i.storing.drop a s t hR.1).2, hlive⟩

end Files.Indifferent

namespace Evaluator

variable {files : Files σ ι} {h : Host σ} {relays : RelayStore} {alike : σ → σ → Prop}

/-- Nothing is handed on without a pipe. -/
theorem Course.handed_eq_nil {r : Runner} {e : Expression} {n : Nat} {input : InputSource}
    {s t : Session σ} {steps : List (Step σ)} {result : Except Failure Capture}
    (hc : Course h relays r n e input s steps result t) (hnone : e.pipeCount = 0) :
    handed steps = [] := by
  induction e generalizing n input s steps result t with
  | simple c =>
      cases hc with
      | completes he => cases he <;> rfl
      | fails he => cases he <;> rfl
  | binary op left right ihl ihr =>
      rw [Expression.pipeCount] at hnone
      rcases course_binary_iff.mp hc with
        ⟨f, hl, rfl⟩ | ⟨tl, first, s₁, tr, hl, hf, rfl⟩
      · exact ihl (.fails hl) (by omega)
      · rw [handed_append, ihl (.completes hl) (by omega), List.nil_append]
        cases hf with
        | joined hop hr => exact ihr hr (by omega)
        | _ => simp [Operator.relays] at hnone

/-- If nothing is cut that is handed on, a larger buffer has nothing more of it. -/
private theorem undamaged_of_whole {c₁ c₂ : Nat} (hle : c₁ ≤ c₂) {steps : List (Step σ)}
    (hwhole : ∀ output ∈ handed steps, output.isTruncated = false) :
    Undamaged ⟨c₁, none⟩ ⟨c₂, none⟩ steps :=
  fun output houtput _ htwins => htwins.bytes_eq hle (hwhole output houtput)

/-- How an evaluation with a larger capacity stands to one with a smaller one that made the
steps, came to the result and left the session. -/
structure OnlyCut (files : Files σ ι) (h : Host σ) (relays : RelayStore)
    (alike : σ → σ → Prop) (c₁ c₂ : Nat) (e : Expression) (input : InputSource) (s : Session σ)
    (steps : List (Step σ)) (result : Except Failure Capture) (s' : Session σ)
    (steps' : List (Step σ)) (result' : Except Failure Capture) (t' : Session σ) : Prop where
  /-- It comes to a result, … -/
  dispatch_eq : (dispatch h relays ⟨c₂, none⟩ e input).on s = (result', t')
  /-- … in these steps. -/
  course : Course h relays ⟨c₂, none⟩ 0 e input s steps' result' t'
  /-- The same programs are called for, with the same arguments and the same input, and those
  that cannot be started cannot be so in both. -/
  starts : starts files steps = CommandExpr.starts files steps'
  /-- Both end with the same failure, or the smaller output is the larger one, cut. -/
  result : Matches Eq (Capture.CutAt c₁) result result'
  /-- They leave the same machine, but for what was logged. -/
  machine : alike s'.machine t'.machine
  nextRelay : t'.nextRelay = s'.nextRelay

/-- **A capacity only cuts.**  This is so for every composition and every input, on every
host that does not look at what was logged, whatever it does otherwise, as long as nothing
is cut that is handed on through a pipe; without pipes nothing is handed on. -/
theorem dispatch_capacity (i : files.Indifferent h alike) (relays : RelayStore) {c₁ c₂ : Nat}
    (hle : c₁ ≤ c₂) {e : Expression} {input : InputSource} {s s' : Session σ}
    {steps : List (Step σ)} {result : Except Failure Capture}
    (hc : Course h relays ⟨c₁, none⟩ 0 e input s steps result s') :
    (e.pipeCount = 0 → handed steps = []) ∧
      ((∀ output ∈ handed steps, output.isTruncated = false) →
        ∃ steps' result' t',
          OnlyCut files h relays alike c₁ c₂ e input s steps result s' steps' result' t') := by
  refine ⟨hc.handed_eq_nil, fun hwhole => ?_⟩
  have hstart : s.InStep alike s := ⟨rfl, i.equivalence.refl _⟩
  have hpaired : ∃ live : List (Relay × Relay), (∀ pair ∈ live, pair.1 = pair.2) ∧
      input.Paired live input := by
    cases input with
    | inherited => exact ⟨[], by simp, .inherited⟩
    | relay relay => exact ⟨[(relay, relay)], by simp, .relay List.mem_cons_self⟩
  obtain ⟨live, hlive, hin⟩ := hpaired
  obtain ⟨steps', result', t', ⟨hcourse, hstarts, hresult⟩, hstep, -⟩ :=
    Course.parallel (i.parallel relays c₁ c₂) e (k := 0) ⟨hstart, hlive⟩ hin
      (undamaged_of_whole hle hwhole) hc
  exact ⟨steps', result', t', (dispatch_eq_iff 0).mpr ⟨steps', hcourse⟩, hcourse, hstarts,
    hresult.mono (fun _ _ hf => hf) fun _ _ htwins => htwins.cutAt hle, hstep.2, hstep.1⟩

/-- A program that ran, by what came of it alone. -/
private theorem ran_of_fst {r : Runner} {n : Nat} {c : Command} {input : InputSource}
    {s : Session σ} (argv : List Bytes) (output : Capture) (status : Status)
    (hargv : Argv.ofCommand c = .ok argv)
    (hrun : ((r.run h argv input).on (s.noted h (.argv argv))).1 = .ok (output, status)) :
    Completes h relays r n (.simple c) input s
      (callSteps h n s c argv input (.ok (output, status))
        ((r.run h argv input).on (s.noted h (.argv argv))).2)
      (outcome c.path output status) ((r.run h argv input).on (s.noted h (.argv argv))).2 :=
  .ran hargv (Prod.ext hrun rfl)

open Sandbox Sandbox.Sample in
/-- A word of two letters goes through a pipe, and another one is put behind it; of the four
letters three are kept, or all. -/
theorem dispatch_capacity_sample :
    ∃ (steps : List (Step State)) (result : Except Failure Capture) (s' : Session State),
      Course (host oracle) store ⟨3, none⟩ 0
          (.binary .concat (.binary .pipe (say "ab") (call "cat")) (say "cd")) .inherited start
          steps result s' ∧
        (∀ output ∈ handed steps, output.isTruncated = false) ∧
        ∃ steps' result' t', OnlyCut Sandbox.files (host oracle) store Eq 3 10
          (.binary .concat (.binary .pipe (say "ab") (call "cat")) (say "cd")) .inherited start
          steps result s' steps' result' t' := by
  have hab : Completes (host oracle) store ⟨3, none⟩ 0 (say "ab") .inherited start _ _ _ :=
    ran_of_fst (["say", "ab"].map Bytes.ofString) (.ofBytes (Bytes.ofString "ab") 3) (.exited 0)
      (by decide +kernel) (by decide +kernel)
  have hthrough := Completes.piped hab
    (Prod.ext (show _ = Except.ok (⟨1, store.pathOf 1, 0⟩ : Relay) by decide +kernel) rfl)
    (Prod.ext (by decide +kernel) rfl)
    (ran_of_fst (c := .bare "cat") (["cat"].map Bytes.ofString) (.ofBytes (Bytes.ofString "ab") 3)
      (.exited 0) (by decide +kernel) (by decide +kernel))
    (Prod.ext (by decide +kernel) rfl)
  have hc := Course.completes (.joined (show Operator.concat ≠ .pipe by decide) hthrough
    (ran_of_fst (c := ⟨"say", [.typed (.str "cd")]⟩) (["say", "cd"].map Bytes.ofString)
      (.ofBytes (Bytes.ofString "cd") 3) (.exited 0) (by decide +kernel) (by decide +kernel)))
  refine ⟨_, _, _, hc, ?_, (dispatch_capacity (files.indifferent_of_silent fun _ _ => rfl)
    store (by decide) hc).2 ?_⟩
  all_goals decide +kernel

end Evaluator

end CommandExpr
