import CommandExpr.Proofs.Computation
import CommandExpr.Runner

/-!
# Reading an output to its end

The output of a program comes in pieces, as the host hands it out, and a signal may come
before any of them.  What is kept does not depend on the pieces: it is that of the whole
stream, and the stream is read to its end even when nothing more is kept.

If there is a deadline, the output is waited for before every read.  Each such wait ends,
since time passes and signals are finite in number.  Then draining comes to the same, unless
the deadline passes first, and in that case there is no output at all.

`Host.Delivers` says that reading hands out some answers one after the other, and
`Host.Waits` how clock and signals stand to the calls by which output is waited for.

## Main results

* `Runner.waitReadable_ends` — a wait for output ends with output or with the deadline.
* `Runner.drain_stream` — draining depends on the stream alone.
-/

namespace CommandExpr

variable {σ : Type}

/-! ## Streams -/

/-- What a read may come to before the end of a stream. -/
inductive Arrival where
  /-- A signal came first. -/
  | interrupted
  /-- The next bytes of the stream, as many as a read asks for at most. -/
  | chunk (bytes : Bytes) (hne : bytes ≠ []) (hle : bytes.length ≤ Runner.readChunk)

namespace Arrival

/-- What the host answers. -/
def answer : Arrival → Except Errno Bytes
  | interrupted => .error .interrupted
  | chunk bytes _ _ => .ok bytes

/-- What comes of the stream. -/
def bytes : Arrival → Bytes
  | interrupted => []
  | chunk bytes _ _ => bytes

/-- The stream that arrives. -/
def stream (arrivals : List Arrival) : Bytes := arrivals.flatMap bytes

end Arrival

/-- How a stream stops. -/
inductive Ending where
  /-- The program has closed it. -/
  | closed
  /-- It cannot be read. -/
  | failed (e : Errno) (he : e ≠ .interrupted)

namespace Ending

/-- What the host answers. -/
def answer : Ending → Except Errno Bytes
  | closed => .ok []
  | failed e _ => .error e

/-- What draining comes to, if so much was kept. -/
def result (output : Capture) : Ending → Except Failure Capture
  | closed => .ok output
  | failed e _ => .error (.ofIoError (.ofErrno e))

end Ending

/-! ## Hosts -/

/-- The answers to reads of a process are those of a list, one after the other.  Waiting for
output takes none of them. -/
structure Host.Delivers (h : Host σ) (pid : Pid) (pending : σ → List (Except Errno Bytes)) :
    Prop where
  readOutput {m : σ} {answer : Except Errno Bytes} {rest : List (Except Errno Bytes)} :
    pending m = answer :: rest →
      (h.readOutput pid Runner.readChunk m).1 = answer ∧
        pending (h.readOutput pid Runner.readChunk m).2 = rest
  now (m : σ) : pending (h.now m).2 = pending m
  pollOutput (millis : Nat) (m : σ) : pending (h.pollOutput pid millis m).2 = pending m
  tell (message : Message) (m : σ) : pending (h.tell message m) = pending m

section Waiting

variable {h : Host σ} {pid : Pid} {clock signals : σ → Nat} {m m' m'' : σ}
  {deadline? : Option Instant}

/-- Time does not go back, and there will not be more signals than before. -/
structure Elapsed (clock signals : σ → Nat) (m m' : σ) : Prop where
  clock : clock m ≤ clock m'
  signals : signals m' ≤ signals m

theorem Elapsed.trans (hfirst : Elapsed clock signals m m')
    (hsecond : Elapsed clock signals m' m'') : Elapsed clock signals m m'' :=
  ⟨Nat.le_trans hfirst.clock hsecond.clock, Nat.le_trans hsecond.signals hfirst.signals⟩

/-- Time passes while output is waited for, and the signals that interrupt a wait are finite in
number. -/
structure Host.Waits (h : Host σ) (pid : Pid) (clock signals : σ → Nat) : Prop where
  readOutput (count : Nat) (m : σ) : Elapsed clock signals m (h.readOutput pid count m).2
  now (m : σ) : Elapsed clock signals m (h.now m).2
  /-- The clock is right when it is read. -/
  now_le (m : σ) : clock m ≤ (h.now m).1 ∧ (h.now m).1 ≤ clock (h.now m).2
  pollOutput (millis : Nat) (m : σ) : Elapsed clock signals m (h.pollOutput pid millis m).2
  /-- If there was nothing to read, all the time has passed. -/
  timedOut {millis : Nat} {m : σ} : (h.pollOutput pid millis m).1 = .ok false →
    clock m + millis * nanosPerMilli ≤ clock (h.pollOutput pid millis m).2
  /-- Nothing but a signal makes waiting fail. -/
  interrupted {millis : Nat} {m : σ} {e : Errno} : (h.pollOutput pid millis m).1 = .error e →
    e = .interrupted ∧ signals (h.pollOutput pid millis m).2 < signals m

/-- The same of a host on which a wait may also fail in another way. -/
structure Host.Polls (h : Host σ) (pid : Pid) (clock signals : σ → Nat) : Prop where
  now (m : σ) : Elapsed clock signals m (h.now m).2
  now_le (m : σ) : clock m ≤ (h.now m).1 ∧ (h.now m).1 ≤ clock (h.now m).2
  pollOutput (millis : Nat) (m : σ) : Elapsed clock signals m (h.pollOutput pid millis m).2
  timedOut {millis : Nat} {m : σ} : (h.pollOutput pid millis m).1 = .ok false →
    clock m + millis * nanosPerMilli ≤ clock (h.pollOutput pid millis m).2
  interrupted {millis : Nat} {m : σ} : (h.pollOutput pid millis m).1 = .error .interrupted →
    signals (h.pollOutput pid millis m).2 < signals m

theorem Host.Waits.polls (w : h.Waits pid clock signals) : h.Polls pid clock signals where
  now := w.now
  now_le := w.now_le
  pollOutput := w.pollOutput
  timedOut := w.timedOut
  interrupted hanswer := (w.interrupted hanswer).2

/-- How often waiting may come to nothing until a deadline: once for every millisecond that is
left, a part of one included, and once for every signal. -/
def vainWaits (clock signals : σ → Nat) (deadline : Nat) (m : σ) : Nat :=
  (deadline - clock m + (nanosPerMilli - 1)) / nanosPerMilli + signals m

theorem Elapsed.vainWaits_le (helapsed : Elapsed clock signals m m') (deadline : Nat) :
    vainWaits clock signals deadline m' ≤ vainWaits clock signals deadline m := by
  obtain ⟨hclock, hsignals⟩ := helapsed
  simp only [vainWaits, nanosPerMilli]
  omega

/-- After a wait that came to nothing there are fewer left, if the deadline had not passed when
the clock was read. -/
theorem Host.Polls.vainWaits_lt (w : h.Polls pid clock signals) {deadline millis : Nat}
    (helapsed : Elapsed clock signals m m') (hleft : clock m < deadline) (hpos : 1 ≤ millis)
    (hvain : (h.pollOutput pid millis m').1 = .ok false ∨
      (h.pollOutput pid millis m').1 = .error .interrupted) :
    vainWaits clock signals deadline (h.pollOutput pid millis m').2
      < vainWaits clock signals deadline m := by
  obtain ⟨hclock, hsignals⟩ := helapsed
  obtain ⟨hclock', hsignals'⟩ := w.pollOutput millis m'
  rcases hvain with hanswer | hanswer
  · have hpassed := w.timedOut hanswer
    simp only [vainWaits, nanosPerMilli] at *
    omega
  · have hfewer := w.interrupted hanswer
    simp only [vainWaits, nanosPerMilli]
    omega

/-- If there is a deadline, time passes, and no loop gives up before. -/
def Host.Timely (h : Host σ) (pid : Pid) (clock signals : σ → Nat) (m : σ) :
    Option Instant → Prop
  | none => True
  | some deadline => h.Waits pid clock signals ∧
      ∀ m', vainWaits clock signals deadline m < h.patience m'

theorem Host.Timely.elapsed (ht : h.Timely pid clock signals m deadline?)
    (helapsed : deadline? ≠ none → Elapsed clock signals m m') :
    h.Timely pid clock signals m' deadline? := by
  cases deadline? with
  | none => trivial
  | some deadline =>
      obtain ⟨w, hpatience⟩ := ht
      have hle := (helapsed (Option.some_ne_none deadline)).vainWaits_le deadline
      exact ⟨w, fun other => Nat.lt_of_le_of_lt hle (hpatience other)⟩

theorem Host.Timely.waits (ht : h.Timely pid clock signals m deadline?)
    (hsome : deadline? ≠ none) : h.Waits pid clock signals := by
  cases deadline? with
  | none => exact absurd rfl hsome
  | some deadline => exact ht.1

end Waiting

namespace Runner

variable {h : Host σ} {r : Runner} {program : String} {pid : Pid}
  {pending : σ → List (Except Errno Bytes)} {clock signals : σ → Nat}

/-! ## Waiting for output -/

/-- For how many milliseconds output is waited for when so much time is left. -/
def pollMillis (left : Nat) : Nat := max 1 (min (left / nanosPerMilli) longestPoll)

/-- One round of a wait: the clock is read, and if there is time left, output is waited for. -/
theorem on_waitReadable (h : Host σ) (pid : Pid) {deadline : Instant}
    (hdeadline : r.deadline = some deadline) (fuel : Nat) (s : Session σ) :
    (r.waitReadable h pid (fuel + 1)).on s =
      if deadline - (h.now s.machine).1 = 0 then
        (.ok false, { s with machine := (h.now s.machine).2 })
      else
        let millis := pollMillis (deadline - (h.now s.machine).1)
        let u : Session σ :=
          { s with machine := (h.pollOutput pid millis (h.now s.machine).2).2 }
        match (h.pollOutput pid millis (h.now s.machine).2).1 with
        | .ok true => (.ok true, u)
        | .ok false => (r.waitReadable h pid fuel).on u
        | .error e =>
          if e = .interrupted then (r.waitReadable h pid fuel).on u
          else (.error (.ofErrno e), u) := by
  simp only [waitReadable, hdeadline]
  rw [Action.on_bind_of _ (Action.on_call h.now s)]
  by_cases hleft : deadline - (h.now s.machine).1 = 0
  · simp only [hleft, if_true]
    rfl
  · simp only [hleft, if_false]
    rw [Action.on_bind_of _ (Action.on_call _ _)]
    simp only [pollMillis]
    rcases (h.pollOutput pid _ (h.now s.machine).2).1 with e | _ | _
    · by_cases he : e = .interrupted
      · simp only [he, if_true]
      · simp only [he, if_false]
        rfl
    · rfl
    · rfl

/-- What a wait for output has come to: there is some, or the deadline has passed, or the host
cannot wait for it. -/
inductive Settled (h : Host σ) (pid : Pid) (clock : σ → Nat) (deadline : Nat) :
    Except Failure Bool → σ → Prop where
  | ready {m : σ} : Settled h pid clock deadline (.ok true) m
  | late {m : σ} (hlate : deadline ≤ clock m) : Settled h pid clock deadline (.ok false) m
  | failed {millis : Nat} {m : σ} {e : Errno} (hanswer : (h.pollOutput pid millis m).1 = .error e)
      (he : e ≠ .interrupted) :
      Settled h pid clock deadline (.error (.ofErrno e)) (h.pollOutput pid millis m).2

/-- **A wait for output comes to one of these**, and what reading the clock and waiting keep is
kept. -/
theorem waitReadable_settles (w : h.Polls pid clock signals) {P : σ → Prop}
    (hnow : ∀ m, P m → P (h.now m).2) (hpoll : ∀ millis m, P m → P (h.pollOutput pid millis m).2)
    {deadline : Nat} (hdeadline : r.deadline = some deadline) (fuel : Nat) :
    ∀ s : Session σ, P s.machine → vainWaits clock signals deadline s.machine < fuel →
      ∃ result t, (r.waitReadable h pid fuel).on s = (result, t) ∧ P t.machine ∧
        Settled h pid clock deadline result t.machine := by
  induction fuel with
  | zero =>
      intro s _ hfuel
      exact absurd hfuel (Nat.not_lt_zero _)
  | succ fuel ih =>
      intro s hs hfuel
      obtain ⟨hsince, htime⟩ := w.now_le s.machine
      rw [on_waitReadable h pid hdeadline]
      by_cases hleft : deadline - (h.now s.machine).1 = 0
      · rw [if_pos hleft]
        have hlate : deadline ≤ clock (h.now s.machine).2 :=
          Nat.le_trans (Nat.le_of_sub_eq_zero hleft) htime
        exact ⟨.ok false, _, rfl, hnow _ hs, .late hlate⟩
      · rw [if_neg hleft]
        simp only
        have hbefore : clock s.machine < deadline := by omega
        have hkept := hpoll (pollMillis (deadline - (h.now s.machine).1)) _ (hnow _ hs)
        -- There are fewer vain waits to come after one.
        have hagain := fun hvain => ih ⟨s.nextRelay, _⟩ hkept
          (Nat.lt_of_lt_of_le (w.vainWaits_lt (w.now s.machine) hbefore (Nat.le_max_left _ _) hvain)
            (Nat.le_of_lt_succ hfuel))
        rcases hanswer : (h.pollOutput pid (pollMillis (deadline - (h.now s.machine).1))
          (h.now s.machine).2).1 with e | _ | _
        · by_cases he : e = .interrupted
          · simp only [he, if_true]
            exact hagain (.inr (he ▸ hanswer))
          · simp only [he, if_false]
            exact ⟨_, _, rfl, hkept, .failed hanswer he⟩
        · exact hagain (.inl hanswer)
        · exact ⟨.ok true, _, rfl, hkept, .ready⟩

/-- How a wait for output has ended: time has passed, nothing was read, and unless there is
something to read the deadline has passed. -/
structure Waited (pending : σ → List (Except Errno Bytes)) (clock signals : σ → Nat)
    (deadline : Nat) (ready : Bool) (m m' : σ) : Prop where
  elapsed : Elapsed clock signals m m'
  pending : pending m' = pending m
  late : ready = false → deadline ≤ clock m'

/-- **A wait for output ends**: there is some, or the deadline has passed. -/
theorem waitReadable_ends (hd : h.Delivers pid pending) (w : h.Waits pid clock signals)
    {deadline : Nat} (hdeadline : r.deadline = some deadline) (fuel : Nat) (s : Session σ)
    (hfuel : vainWaits clock signals deadline s.machine < fuel) :
    ∃ ready t, (r.waitReadable h pid fuel).on s = (.ok ready, t) ∧
      Waited pending clock signals deadline ready s.machine t.machine := by
  obtain ⟨result, ⟨next, m⟩, hrun, ⟨helapsed, hsame⟩, hsettled⟩ :=
    waitReadable_settles w.polls
      (P := fun m => Elapsed clock signals s.machine m ∧ pending m = pending s.machine)
      (fun m hm => ⟨hm.1.trans (w.now m), (hd.now m).trans hm.2⟩)
      (fun millis m hm => ⟨hm.1.trans (w.pollOutput millis m), (hd.pollOutput millis m).trans hm.2⟩)
      hdeadline fuel s ⟨⟨Nat.le_refl _, Nat.le_refl _⟩, rfl⟩ hfuel
  cases hsettled with
  | ready => exact ⟨true, _, hrun, helapsed, hsame, by rintro ⟨⟩⟩
  | late hlate => exact ⟨false, _, hrun, helapsed, hsame, fun _ => hlate⟩
  | failed hanswer he => exact absurd (w.interrupted hanswer).1 he

/-- Before a read the output is waited for if there is a deadline, and only then. -/
theorem awaitOutput_ends (hd : h.Delivers pid pending) (s : Session σ)
    (ht : h.Timely pid clock signals s.machine r.deadline) :
    ∃ ready t, (r.awaitOutput h pid).on s = (.ok ready, t) ∧
      pending t.machine = pending s.machine ∧
      h.Timely pid clock signals t.machine r.deadline ∧
      (ready = false → ∃ deadline, r.deadline = some deadline ∧ deadline ≤ clock t.machine) := by
  cases hdeadline : r.deadline with
  | none =>
      refine ⟨true, s, ?_, rfl, trivial, fun hfalse => by cases hfalse⟩
      simp only [awaitOutput, hdeadline]
      rfl
  | some deadline =>
      rw [hdeadline] at ht
      obtain ⟨ready, t, hrun, hwaited⟩ :=
        waitReadable_ends hd ht.1 hdeadline (h.patience s.machine) s (ht.2 s.machine)
      refine ⟨ready, t, ?_, hwaited.pending, ht.elapsed fun _ => hwaited.elapsed,
        fun hready => ⟨deadline, rfl, hwaited.late hready⟩⟩
      simp only [awaitOutput, hdeadline]
      rw [Action.on_bind_of _ (Action.on_budget h s), hrun]

/-! ## Draining -/

/-- One round of draining: the deadline passes, or the next answer is read. -/
theorem on_drainInto (hd : h.Delivers pid pending) (program : String) {s : Session σ}
    {answer : Except Errno Bytes} {rest : List (Except Errno Bytes)}
    (hpending : pending s.machine = answer :: rest)
    (ht : h.Timely pid clock signals s.machine r.deadline) (fuel : Nat) (output : Capture) :
    (∃ deadline t, r.deadline = some deadline ∧ deadline ≤ clock t.machine ∧
        (r.drainInto h program pid (fuel + 1) output).on s
          = (.error (.stillWriting program), t)) ∨
      ∃ t, pending t.machine = rest ∧ h.Timely pid clock signals t.machine r.deadline ∧
        (r.drainInto h program pid (fuel + 1) output).on s =
          match answer with
          | .ok [] => (.ok output, t)
          | .ok chunk => (r.drainInto h program pid fuel (output.append chunk)).on t
          | .error e =>
            if e = .interrupted then (r.drainInto h program pid fuel output).on t
            else (.error (.ofIoError (.ofErrno e)), t) := by
  obtain ⟨ready, u, hawait, hsame, htime, hlate⟩ := awaitOutput_ends hd s ht
  rw [drainInto, Action.on_bind_of _ hawait]
  cases ready with
  | false =>
      obtain ⟨deadline, hdeadline, hle⟩ := hlate rfl
      exact Or.inl ⟨deadline, u, hdeadline, hle, rfl⟩
  | true =>
      obtain ⟨hanswer, hrest⟩ := hd.readOutput (hsame.trans hpending)
      refine Or.inr ⟨⟨u.nextRelay, (h.readOutput pid readChunk u.machine).2⟩, hrest, ?_, ?_⟩
      · exact htime.elapsed fun hsome => (htime.waits hsome).readOutput _ _
      · simp only
        rw [Action.on_bind_of _ (Action.on_call _ u), hanswer]
        rcases answer with e | _ | ⟨byte, more⟩
        · by_cases he : e = .interrupted
          · simp only [he, if_true]
          · simp only [he, if_false]
            rfl
        · rfl
        · rfl

/-- What draining comes to: the whole, with all of it read, or a failure because the deadline
has passed. -/
def Drained (pending : σ → List (Except Errno Bytes)) (clock : σ → Nat)
    (later : List (Except Errno Bytes)) (whole late result : Except Failure Capture) (m : σ) :
    Option Instant → Prop
  | none => result = whole ∧ pending m = later
  | some deadline =>
      (result = whole ∧ pending m = later) ∨ (result = late ∧ deadline ≤ clock m)

section Drained

variable {later : List (Except Errno Bytes)} {whole late : Except Failure Capture} {m m' : σ}

theorem drained_whole (hpending : pending m = later) (deadline? : Option Instant) :
    Drained pending clock later whole late whole m deadline? := by
  cases deadline? with
  | none => exact ⟨rfl, hpending⟩
  | some deadline => exact Or.inl ⟨rfl, hpending⟩

theorem drained_late {deadline? : Option Instant} {deadline : Nat}
    (hdeadline : deadline? = some deadline) (hle : deadline ≤ clock m) :
    Drained pending clock later whole late late m deadline? := by
  rw [hdeadline]
  exact Or.inr ⟨rfl, hle⟩

theorem Drained.whole_or_late {result : Except Failure Capture} {deadline? : Option Instant}
    (hdrained : Drained pending clock later whole late result m deadline?) :
    result = whole ∨ ∃ due ∈ deadline?, due ≤ clock m ∧ result = late := by
  cases deadline? with
  | none => exact Or.inl hdrained.1
  | some deadline =>
      rcases hdrained with ⟨hwhole, -⟩ | ⟨hlate, hle⟩
      · exact Or.inl hwhole
      · exact Or.inr ⟨deadline, rfl, hle, hlate⟩

/-- With an output it does not matter what is done to the clock. -/
theorem Drained.of_ok {f : Failure} {output : Capture} {deadline? : Option Instant}
    (hdrained : Drained pending clock later whole (.error f) (.ok output) m deadline?)
    (hsame : pending m' = pending m) :
    Drained pending clock later whole (.error f) (.ok output) m' deadline? := by
  cases deadline? with
  | none => exact ⟨hdrained.1, hsame.trans hdrained.2⟩
  | some deadline =>
      rcases hdrained with ⟨hwhole, hlater⟩ | ⟨hlate, -⟩
      · exact Or.inl ⟨hwhole, hsame.trans hlater⟩
      · cases hlate

end Drained

/-- **What is read is added piece by piece, and signals add nothing.** -/
theorem drainInto_stream (hd : h.Delivers pid pending) (program : String) (ending : Ending)
    (later : List (Except Errno Bytes)) (arrivals : List Arrival) :
    ∀ (fuel : Nat) (output : Capture) (s : Session σ),
      pending s.machine = arrivals.map Arrival.answer ++ ending.answer :: later →
      arrivals.length < fuel → h.Timely pid clock signals s.machine r.deadline →
        ∃ result t, (r.drainInto h program pid fuel output).on s = (result, t) ∧
          Drained pending clock later
            (ending.result (output.append (Arrival.stream arrivals)))
            (.error (.stillWriting program)) result t.machine r.deadline := by
  induction arrivals with
  | nil =>
      intro fuel output s hpending hfuel ht
      obtain ⟨fuel, rfl⟩ := Nat.exists_eq_succ_of_ne_zero (Nat.ne_zero_of_lt hfuel)
      rcases on_drainInto hd program hpending ht fuel output with
        ⟨deadline, t, hdeadline, hle, hrun⟩ | ⟨t, hlater, -, hrun⟩
      · exact ⟨_, t, hrun, drained_late hdeadline hle⟩
      · have hnone : output.append (Arrival.stream []) = output := output.append_nil
        rw [hnone]
        cases ending with
        | closed => exact ⟨_, t, hrun, drained_whole hlater _⟩
        | failed e he =>
            simp only [Ending.answer, he, if_false] at hrun
            exact ⟨_, t, hrun, drained_whole hlater _⟩
  | cons arrival arrivals ih =>
      intro fuel output s hpending hfuel ht
      obtain ⟨fuel, rfl⟩ := Nat.exists_eq_succ_of_ne_zero (Nat.ne_zero_of_lt hfuel)
      have hmore : arrivals.length < fuel := Nat.lt_of_succ_lt_succ hfuel
      rcases on_drainInto hd program hpending ht fuel output with
        ⟨deadline, t, hdeadline, hle, hrun⟩ | ⟨u, hrest, htime, hrun⟩
      · exact ⟨_, t, hrun, drained_late hdeadline hle⟩
      · rw [hrun]
        cases arrival with
        | interrupted => exact ih fuel output u hrest hmore htime
        | chunk bytes hne hle =>
            have hwhole : output.append (Arrival.stream (.chunk bytes hne hle :: arrivals))
                = (output.append bytes).append (Arrival.stream arrivals) :=
              (output.append_append bytes _).symm
            rw [hwhole]
            obtain ⟨byte, more, rfl⟩ := List.exists_cons_of_ne_nil hne
            exact ih fuel (output.append (byte :: more)) u hrest hmore htime

/-- **Draining does not depend on the pieces.**  Whatever a program writes, however it is cut
into reads and interrupted, and whatever is kept of it, the stream is read to its end, and the
result is what the whole stream comes to.  With a deadline it is that, or a failure after the
deadline that says so. -/
theorem drain_stream (hd : h.Delivers pid pending) (r : Runner) (program : String)
    (arrivals : List Arrival) (ending : Ending) (later : List (Except Errno Bytes))
    {s : Session σ}
    (hpending : pending s.machine = arrivals.map Arrival.answer ++ ending.answer :: later)
    (hpatience : arrivals.length < h.patience s.machine)
    (ht : h.Timely pid clock signals s.machine r.deadline) :
    ∃ late result t, late.Says .timeout s!"'{program}' did not finish writing" ∧
      (r.drain h program pid).on s = (result, t) ∧
      Drained pending clock later
        (ending.result (.ofBytes (Arrival.stream arrivals) r.cap))
        (.error late) result t.machine r.deadline := by
  obtain ⟨result, t, hrun, hdrained⟩ :=
    drainInto_stream hd program ending later arrivals (h.patience s.machine) (.empty r.cap) s
      hpending hpatience ht
  rw [drain, Action.on_bind_of _ (Action.on_budget h s), Action.on_bind_of _ hrun]
  cases result with
  | error f => exact ⟨_, _, t, ⟨rfl, rfl⟩, rfl, hdrained⟩
  | ok output =>
      -- It is logged if something was dropped, and that reads nothing.
      by_cases hcut : output.isTruncated = true
      · simp only [hcut, if_true]
        exact ⟨_, _, t.noted h (.truncated program r.cap), ⟨rfl, rfl⟩, rfl,
          hdrained.of_ok (hd.tell _ _)⟩
      · simp only [hcut]
        exact ⟨_, _, t, ⟨rfl, rfl⟩, rfl, hdrained⟩

end Runner

/-! ## A script -/

/-- A machine with one program, whose output comes as a script says. -/
structure Script where
  /-- The answers to the next reads. -/
  reads : List (Except Errno Bytes)
  /-- How many signals come, each before any output. -/
  signals : Nat
  /-- How many waits pass after these without output. -/
  naps : Nat
  clock : Nat

namespace Script

/-- The calls of the machine; it has no files. -/
def host : Host Script where
  patience _ := 1000000
  createNew _ m := (.error .accessDenied, m)
  openRead _ m := (.error .accessDenied, m)
  append _ _ m := (.error .badDescriptor, m)
  close _ m := m
  remove _ m := (.error .accessDenied, m)
  makePipe m := (.ok (), m)
  fork _ _ m := (.ok 1, m)
  readReport _ _ m := (.ok [], m)
  readOutput _ _ m :=
    match m.reads with
    | [] => (.ok [], m)
    | answer :: rest => (answer, { m with reads := rest })
  pollOutput _ millis m :=
    match m.signals, m.naps with
    | signals + 1, _ => (.error .interrupted, { m with signals })
    | 0, naps + 1 => (.ok false, { m with naps, clock := m.clock + millis * nanosPerMilli })
    | 0, 0 => (.ok true, m)
  hangUp _ m := m
  wait _ _ m := (.ok (.exited 0), m)
  kill _ _ m := (.ok (), m)
  now m := (m.clock, m)
  sleep time m := { m with clock := m.clock + time }
  writeOut bytes m := (.ok bytes.length, m)
  tell _ m := m

theorem delivers (pid : Pid) : host.Delivers pid reads where
  readOutput := by
    intro m answer rest hreads
    simp only [host, hreads, and_self]
  now _ := rfl
  pollOutput millis m := by
    simp only [host]
    split <;> rfl
  tell _ _ := rfl

theorem waits (pid : Pid) : host.Waits pid clock signals where
  readOutput count m := by
    simp only [host]
    split <;> exact ⟨Nat.le_refl _, Nat.le_refl _⟩
  now m := ⟨Nat.le_refl _, Nat.le_refl _⟩
  now_le m := ⟨Nat.le_refl _, Nat.le_refl _⟩
  pollOutput millis m := by
    simp only [host]
    split
    · next k hsignals => exact ⟨Nat.le_refl _, hsignals ▸ Nat.le_succ k⟩
    · exact ⟨Nat.le_add_right _ _, Nat.le_refl _⟩
    · exact ⟨Nat.le_refl _, Nat.le_refl _⟩
  timedOut := by
    intro millis m
    simp only [host]
    split <;> simp
  interrupted := by
    intro millis m e
    simp only [host]
    split
    · next k hsignals =>
        rintro ⟨⟩
        exact ⟨rfl, hsignals ▸ Nat.lt_succ_self k⟩
    · simp
    · simp

/-- Five bytes come in two pieces with a signal between them; before that there is a signal
while they are waited for, and then nothing for as long as a wait may take. -/
def sample : Session Script where
  nextRelay := 0
  machine := ⟨[.ok [1, 2], .error .interrupted, .ok [3, 4, 5], .ok []], 1, 1, 0⟩

/-- What arrives before the end. -/
def arrivals : List Arrival :=
  [.chunk [1, 2] (by decide) (by decide), .interrupted, .chunk [3, 4, 5] (by decide) (by decide)]

/-- Two minutes are enough for the sample. -/
def runner : Runner := ⟨3, some (120000 * nanosPerMilli)⟩

end Script

namespace Runner

open Script in
/-- Three of the five bytes are kept. -/
theorem drain_stream_sample :
    (host.Delivers 1 reads ∧ host.Timely 1 clock signals sample.machine runner.deadline) ∧
      ∃ late result t, late.Says .timeout "'program' did not finish writing" ∧
        (runner.drain host "program" 1).on sample = (result, t) ∧
        Drained reads clock [] (.ok (.ofBytes [1, 2, 3, 4, 5] 3)) (.error late) result t.machine
          runner.deadline :=
  have htimely : host.Timely 1 clock signals sample.machine runner.deadline :=
    have hmost : vainWaits clock signals (120000 * nanosPerMilli) sample.machine < 1000000 := by
      decide
    ⟨waits 1, fun _ => hmost⟩
  ⟨⟨delivers 1, htimely⟩,
    drain_stream (delivers 1) runner "program" arrivals .closed [] rfl (by decide) htimely⟩

open Script in
/-- If the time runs out there is no output at all. -/
example :
    ((Runner.drain host ⟨3, some 100⟩ "program" 1).on ⟨0, ⟨[.ok [1], .ok []], 0, 1, 0⟩⟩).1
      = .error ⟨.timeout, ["'program' did not finish writing"]⟩ := by
  rfl

end Runner

end CommandExpr
