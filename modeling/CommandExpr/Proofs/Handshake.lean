import CommandExpr.Machine.World
import CommandExpr.Proofs.Draining
import CommandExpr.Proofs.Outlook
import CommandExpr.Proofs.Runs
import CommandExpr.Proofs.Supervision

/-!
# What a process says of its start

A process that was made either turns into its program, and then its report is closed
without a byte, or it cannot, and then the report carries the number of the error in
four bytes.  They come in pieces, with signals in between, and the runner puts them
together.  So it knows whether the program ran, whatever the process ends with: a
program that returns 127 is not one that could not be started, and one that a signal
has ended is not either.

There is one end that a run cannot tell: that by a signal which has no name.  A wait
for it fails, and so does the run.

## Main definitions

* `Outset` — how a process has fared, and what its report carries
* `Host.Handshakes`, `Foreseen` — a host, and a process whose course is foreseen

## Main results

* `Errno.ofBytes?_toBytes` — the number comes through.
* `Runner.readReportFrom_stream` — a report is put together from its pieces.
* `Runner.run_handshake` — what a run comes to.
-/

namespace CommandExpr

variable {σ : Type}

/-! ## The number of an error -/

namespace Errno

theorem code_lt (e : Errno) : e.code < errnoCount := by
  rcases e.valid with hzero | hcode
  · rw [hzero]
    decide
  · simp only [isErrorCode, Bool.and_eq_true, decide_eq_true_eq] at hcode
    exact hcode.1.1.2

theorem ofCode_of_isErrorCode {k : Nat} (hk : isErrorCode k = true) :
    (ofCode k).code = k := by
  simp [ofCode, hk]

theorem ofCode_eq_unknown {number : Int} (hnumber : ∀ k : Nat, isErrorCode k = true → number ≠ k) :
    ofCode number = unknown := by
  cases number with
  | ofNat k =>
      have hk : ¬isErrorCode k = true := fun hk => hnumber k hk rfl
      simp [ofCode, hk]
  | negSucc k => rfl

theorem ofCode_code (e : Errno) : ofCode e.code = e := by
  obtain ⟨code, hzero | hcode⟩ := e
  · subst hzero
    rfl
  · simp [ofCode, hcode]

/-- **The number of an error comes through** as four bytes. -/
theorem ofBytes?_toBytes (e : Errno) : ofBytes? e.toBytes = some e := by
  have hlt : e.code < 256 := Nat.lt_trans e.code_lt (by decide)
  have hnumber : e.code < 2 ^ 31 := Nat.lt_trans hlt (by decide)
  have hlow : (UInt8.ofNat e.code).toNat = e.code := by
    rw [UInt8.toNat_ofNat']
    exact Nat.mod_eq_of_lt hlt
  have hhigh : ∀ k, 8 ≤ k → (UInt8.ofNat (e.code / 2 ^ k)).toNat = 0 := by
    intro k hk
    rw [Nat.div_eq_of_lt (Nat.lt_of_lt_of_le hlt (Nat.pow_le_pow_right (show 0 < 2 by decide) hk))]
    rfl
  simp only [toBytes, ofBytes?, hlow, hhigh 8 (by decide), hhigh 16 (by decide),
    hhigh 24 (by decide), Nat.zero_mul, Nat.add_zero, hnumber, if_true]
  exact congrArg some e.ofCode_code

end Errno

/-- How a process has fared after it was made. -/
inductive Outset where
  /-- It could not turn into its program, with an error of that number. -/
  | refused (number : Int)
  /-- It turned into its program. -/
  | started
  deriving DecidableEq

namespace Outset

/-- The error for which the program was not started. -/
def errno? : Outset → Option Errno
  | refused number => some (.ofCode number)
  | started => none

/-- The bytes of the report. -/
def message : Outset → Bytes
  | refused number => (Errno.ofCode number).toBytes
  | started => []

theorem length_message_le (start : Outset) : start.message.length ≤ Errno.byteCount := by
  cases start with
  | refused number => exact (Errno.length_toBytes _).le
  | started => exact Nat.zero_le _

end Outset

/-! ## Hosts -/

/-- The report of a process is handed out answer by answer, and reading it takes
nothing of the output. -/
structure Host.Announces (h : Host σ) (pid : Pid)
    (reports outputs : σ → List (Except Errno Bytes)) : Prop where
  readReport {count : Nat} {m : σ} {answer : Except Errno Bytes}
    {rest : List (Except Errno Bytes)} : reports m = answer :: rest →
      (∀ bytes, answer = .ok bytes → bytes.length ≤ count) →
        (h.readReport pid count m).1 = answer ∧ reports (h.readReport pid count m).2 = rest
  leaves (count : Nat) (m : σ) : outputs (h.readReport pid count m).2 = outputs m
  close (handle : Handle) (m : σ) :
    reports (h.close handle m) = reports m ∧ outputs (h.close handle m) = outputs m
  tell (message : Message) (m : σ) : reports (h.tell message m) = reports m

/-- The next answer is read, if it is no longer than what is asked for. -/
theorem Host.Announces.on_readReport {h : Host σ} {pid : Pid}
    {reports outputs : σ → List (Except Errno Bytes)} (ha : h.Announces pid reports outputs)
    {s : Session σ} {answer : Except Errno Bytes} {rest : List (Except Errno Bytes)}
    (hreports : reports s.machine = answer :: rest) (count : Nat)
    (hfits : ∀ bytes, answer = .ok bytes → bytes.length ≤ count) :
    ∃ t, (Host.call (h.readReport pid count)).on s = (answer, t) ∧ reports t.machine = rest := by
  obtain ⟨hanswer, hrest⟩ := ha.readReport hreports hfits
  exact ⟨_, Prod.ext hanswer rfl, hrest⟩

/-- Time does not go back while a process is looked after. -/
structure Host.Passes (h : Host σ) (pid : Pid) (clock signals : σ → Nat) : Prop where
  readReport (count : Nat) (m : σ) : Elapsed clock signals m (h.readReport pid count m).2
  close (handle : Handle) (m : σ) : Elapsed clock signals m (h.close handle m)
  tell (message : Message) (m : σ) : Elapsed clock signals m (h.tell message m)
  hangUp (m : σ) : Elapsed clock signals m (h.hangUp pid m)
  wait (look : Bool) (m : σ) : Elapsed clock signals m (h.wait pid look m).2
  kill (signal : Signal) (m : σ) : Elapsed clock signals m (h.kill pid signal m).2

/-- What is known of a process that was made. -/
structure Watchpoint (σ : Type) where
  /-- The answers to the next reads of its report. -/
  reports : σ → List (Except Errno Bytes)
  /-- The answers to the next reads of its output. -/
  outputs : σ → List (Except Errno Bytes)
  /-- What waits will say. -/
  outlook : Outlook σ
  clock : σ → Nat
  /-- How many signals are to come. -/
  signals : σ → Nat

/-- A host keeps to what is known of a process. -/
structure Host.Handshakes (h : Host σ) (pid : Pid) (w : Watchpoint σ) : Prop where
  attends : h.Attends pid w.outlook
  undisturbed : w.outlook.Undisturbed h
  announces : h.Announces pid w.reports w.outputs
  delivers : h.Delivers pid w.outputs
  passes : h.Passes pid w.clock w.signals

/-- A stream is handed out in pieces, with signals in between, up to its end, and no
loop gives up before that. -/
def Host.HandsOut (h : Host σ) (answers : List (Except Errno Bytes)) (stream : Bytes) : Prop :=
  ∃ arrivals later, answers = arrivals.map Arrival.answer ++ Ending.closed.answer :: later
    ∧ Arrival.stream arrivals = stream ∧ ∀ m, arrivals.length < h.patience m

/-- The course of a process is foreseen: how it fares, what its program writes, and how
it ends. -/
structure Foreseen (h : Host σ) (r : Runner) (pid : Pid) (w : Watchpoint σ) (start : Outset)
    (stream : Bytes) (status : Status) (m : σ) : Prop where
  report : h.HandsOut (w.reports m) start.message
  output : start = .started → h.HandsOut (w.outputs m) stream
  left : ∃ n, w.outlook.left m = some n
  ends : ∀ v, w.outlook.ends m v → v = .ok status
  timely : h.Timely pid w.clock w.signals m r.deadline

namespace Runner

variable {h : Host σ} {r : Runner} {program : String} {pid : Pid} {w : Watchpoint σ}
  {reports outputs : σ → List (Except Errno Bytes)} {s t : Session σ}

/-! ## The report -/

section Round

variable {fuel : Nat} {seen : Bytes}

/-- No more is asked for when there is a whole number. -/
theorem on_readReportFrom_whole (hseen : Errno.byteCount ≤ seen.length) :
    (readReportFrom h pid (fuel + 1) seen).on s = (.ok seen, s) := by
  simp only [readReportFrom, hseen, if_true]
  rfl

variable (hseen : ¬Errno.byteCount ≤ seen.length)

include hseen

theorem on_readReportFrom_closed
    (hcall : (Host.call (h.readReport pid (Errno.byteCount - seen.length))).on s
      = (.ok [], t)) :
    (readReportFrom h pid (fuel + 1) seen).on s = (.ok seen, t) := by
  simp only [readReportFrom, hseen, if_false]
  rw [Action.on_bind_of _ hcall]
  rfl

theorem on_readReportFrom_chunk {byte : UInt8} {more : Bytes}
    (hcall : (Host.call (h.readReport pid (Errno.byteCount - seen.length))).on s
      = (.ok (byte :: more), t)) :
    (readReportFrom h pid (fuel + 1) seen).on s
      = (readReportFrom h pid fuel (seen ++ byte :: more)).on t := by
  simp only [readReportFrom, hseen, if_false]
  rw [Action.on_bind_of _ hcall]

theorem on_readReportFrom_interrupted
    (hcall : (Host.call (h.readReport pid (Errno.byteCount - seen.length))).on s
      = (.error .interrupted, t)) :
    (readReportFrom h pid (fuel + 1) seen).on s = (readReportFrom h pid fuel seen).on t := by
  simp only [readReportFrom, hseen, if_false]
  rw [Action.on_bind_of _ hcall]
  simp only [if_true]

end Round

/-- **A report is put together from its pieces**, however it is cut and interrupted.  It
is no longer than the number of an error, so that no piece is longer than what is
asked for. -/
theorem readReportFrom_stream (ha : h.Announces pid reports outputs)
    (later : List (Except Errno Bytes)) (arrivals : List Arrival) :
    ∀ (fuel : Nat) (seen : Bytes) (s : Session σ),
      reports s.machine = arrivals.map Arrival.answer ++ Ending.closed.answer :: later →
      seen.length + (Arrival.stream arrivals).length ≤ Errno.byteCount →
      arrivals.length < fuel →
        ((readReportFrom h pid fuel seen).on s).1 = .ok (seen ++ Arrival.stream arrivals) := by
  induction arrivals with
  | nil =>
      intro fuel seen s hreports _ hfuel
      obtain ⟨fuel, rfl⟩ := Nat.exists_eq_succ_of_ne_zero (Nat.ne_zero_of_lt hfuel)
      have hnone : seen ++ Arrival.stream [] = seen := List.append_nil seen
      rw [hnone]
      by_cases hseen : Errno.byteCount ≤ seen.length
      · rw [on_readReportFrom_whole hseen]
      · obtain ⟨t, hcall, -⟩ := ha.on_readReport hreports
          (Errno.byteCount - seen.length) (by
            rintro bytes heq
            obtain rfl := Except.ok.inj heq
            exact Nat.zero_le _)
        rw [on_readReportFrom_closed hseen hcall]
  | cons arrival arrivals ih =>
      intro fuel seen s hreports hlength hfuel
      obtain ⟨fuel, rfl⟩ := Nat.exists_eq_succ_of_ne_zero (Nat.ne_zero_of_lt hfuel)
      have hmore : arrivals.length < fuel := Nat.lt_of_succ_lt_succ hfuel
      have hsplit : Arrival.stream (arrival :: arrivals)
          = arrival.bytes ++ Arrival.stream arrivals := rfl
      rw [hsplit, List.length_append] at hlength
      rw [hsplit]
      by_cases hseen : Errno.byteCount ≤ seen.length
      · -- all that there is has been seen
        have hrest : arrival.bytes ++ Arrival.stream arrivals = [] :=
          List.eq_nil_of_length_eq_zero (by rw [List.length_append]; omega)
        rw [on_readReportFrom_whole hseen, hrest, List.append_nil]
      · cases arrival with
        | interrupted =>
            obtain ⟨t, hcall, hrest⟩ := ha.on_readReport hreports
              (Errno.byteCount - seen.length) (by rintro bytes ⟨⟩)
            rw [on_readReportFrom_interrupted hseen hcall]
            change seen.length + (0 + _) ≤ _ at hlength
            exact ih fuel seen t hrest (by omega) hmore
        | chunk bytes hne hle =>
            obtain ⟨byte, more, rfl⟩ := List.exists_cons_of_ne_nil hne
            change seen.length + ((byte :: more).length + _) ≤ _ at hlength
            obtain ⟨t, hcall, hrest⟩ := ha.on_readReport hreports
              (Errno.byteCount - seen.length) (by
                rintro bytes heq
                obtain rfl := Except.ok.inj heq
                omega)
            rw [on_readReportFrom_chunk hseen hcall, ← List.append_assoc]
            exact ih fuel _ t hrest (by rw [List.length_append]; omega) hmore

/-- **The report tells how a process has fared.** -/
theorem startError_stream (ha : h.Announces pid reports outputs) (start : Outset)
    (hreport : h.HandsOut (reports s.machine) start.message) :
    ((startError h pid).on s).1 = .ok start.errno? := by
  obtain ⟨arrivals, later, hreports, hstream, hpatience⟩ := hreport
  rcases hread : (readReportFrom h pid (h.patience s.machine) []).on s with ⟨read, u⟩
  have hresult := readReportFrom_stream ha later arrivals (h.patience s.machine) [] s hreports
    (by rw [hstream, List.length_nil, Nat.zero_add]; exact start.length_message_le)
    (hpatience s.machine)
  rw [hread, hstream, List.nil_append] at hresult
  obtain rfl : read = .ok start.message := hresult
  rw [startError, Action.on_bind_of _ (Action.on_budget h s), Action.on_bind_of _ hread]
  cases start with
  | started => rfl
  | refused number =>
      have hdecoded := (Errno.ofCode number).ofBytes?_toBytes
      simp only [Outset.message, Outset.errno?]
      rw [Errno.toBytes] at *
      simp only [hdecoded]
      rfl

/-! ## Quiet stretches -/

/-- Nothing has come of the output since, no end was told, and time has not gone back. -/
structure Calm (w : Watchpoint σ) (m m' : σ) : Prop where
  outputs : w.outputs m' = w.outputs m
  onward : w.outlook.Onward m m'
  elapsed : Elapsed w.clock w.signals m m'

theorem Calm.refl (w : Watchpoint σ) (m : σ) : Calm w m m :=
  ⟨rfl, .refl _ m, ⟨le_rfl, le_rfl⟩⟩

theorem Calm.trans {m m' m'' : σ} (hfirst : Calm w m m') (hsecond : Calm w m' m'') :
    Calm w m m'' :=
  ⟨hsecond.outputs.trans hfirst.outputs, hfirst.onward.trans hsecond.onward,
    hfirst.elapsed.trans hsecond.elapsed⟩

/-- A quiet stretch in which nothing was read of the report changes nothing about what is
foreseen. -/
theorem foreseen_calm {start : Outset} {stream : Bytes} {status : Status} {m m' : σ}
    (hf : Foreseen h r pid w start stream status m) (hcalm : Calm w m m')
    (hreports : w.reports m' = w.reports m) :
    Foreseen h r pid w start stream status m' := by
  obtain ⟨n, hn⟩ := hf.left
  obtain ⟨⟨k, -, hk⟩, hends⟩ := hcalm.onward n hn
  refine ⟨?_, fun hstart => ?_, ⟨k, hk⟩, fun v hv => hf.ends v (hends v hv), ?_⟩
  · rw [hreports]
    exact hf.report
  · rw [hcalm.outputs]
    exact hf.output hstart
  · exact hf.timely.elapsed fun _ => hcalm.elapsed

/-- All is quiet while the report is read. -/
theorem calm_startError (hs : h.Handshakes pid w) (s : Session σ) :
    Calm w s.machine ((startError h pid).on s).2.machine := by
  have hkeeps : Keeps (fun t => Calm w s.machine t.machine) (startError h pid) := by
    refine Agree.keeps (Agree.startError ?_ fun count => Keeps.agree ?_)
    · rintro t _ ⟨rfl, -⟩
      rfl
    · intro t ht
      exact ht.trans ⟨hs.announces.leaves count _, hs.undisturbed.readReport pid count _,
        hs.passes.readReport count _⟩
  exact hkeeps s (.refl w _)

/-- All is quiet while the input of a program is closed, and while it is logged that
its process was made, and neither takes anything of the report. -/
theorem calm_spawned (hs : h.Handshakes pid w) (handle? : Option Handle) (n : Notice)
    (s : Session σ) :
    Calm w s.machine ((closing h handle? s).noted h n).machine
      ∧ w.reports ((closing h handle? s).noted h n).machine = w.reports s.machine := by
  have hclosed : Calm w s.machine (closing h handle? s).machine
      ∧ w.reports (closing h handle? s).machine = w.reports s.machine := by
    cases handle? with
    | none => exact ⟨.refl w _, rfl⟩
    | some handle =>
        obtain ⟨hreports, houtputs⟩ := hs.announces.close handle s.machine
        exact ⟨⟨houtputs, hs.undisturbed.close handle _, hs.passes.close handle _⟩, hreports⟩
  refine ⟨hclosed.1.trans ⟨hs.delivers.tell _ _, hs.attends.noted _ n, hs.passes.tell _ _⟩, ?_⟩
  exact (hs.announces.tell _ _).trans hclosed.2

/-- Time does not go back while a child is given up. -/
theorem elapsed_killAndReap {c : Child} {clock signals : σ → Nat}
    (hp : h.Passes c.pid clock signals) (s : Session σ) :
    Elapsed clock signals s.machine ((c.killAndReap h).on s).2.machine := by
  have hkeeps : Keeps (fun t => Elapsed clock signals s.machine t.machine)
      (c.killAndReap h) := by
    refine Agree.keeps (Agree.killAndReap ?_ (Keeps.agree fun t ht => ?_)
      (Keeps.agree fun t ht => ?_) fun m => Keeps.agree fun t ht => ?_)
    · rintro t _ ⟨rfl, -⟩
      rfl
    · exact ht.trans (hp.kill .kill _)
    · exact ht.trans (hp.wait false _)
    · exact ht.trans (hp.tell m _)
  exact hkeeps s ⟨le_rfl, le_rfl⟩

/-! ## The output -/

/-- No end is told while the output is read. -/
theorem onward_drain (hs : h.Handshakes pid w) (r : Runner) (program : String)
    (s : Session σ) :
    w.outlook.Onward s.machine ((r.drain h program pid).on s).2.machine := by
  have hdrained : CommandExpr.Drained (Same fun t => w.outlook.Onward s.machine t.machine) h h := {
    patience := by
      rintro t _ ⟨rfl, -⟩
      rfl
    pollOutput := fun other millis =>
      Keeps.agree fun t ht => ht.trans (hs.undisturbed.pollOutput other millis _)
    hangUp := fun other => Keeps.agree fun t ht => ht.trans (hs.undisturbed.hangUp other _)
    now := Keeps.agree fun t ht => ht.trans (hs.attends.now _)
    tell := fun m => Keeps.agree fun t ht => ht.trans (hs.attends.tell m _)
    readOutput := fun other count =>
      Keeps.agree fun t ht => ht.trans (hs.undisturbed.readOutput other count _) }
  exact (hdrained.drain r program pid).keeps s (.refl _ _)

/-- **The output is that of the whole stream**, unless the deadline has passed. -/
theorem drain_handsOut (hs : h.Handshakes pid w) {stream : Bytes}
    (houtput : h.HandsOut (w.outputs s.machine) stream)
    (ht : h.Timely pid w.clock w.signals s.machine r.deadline)
    {drained : Except Failure Capture}
    (hrun : (r.drain h program pid).on s = (drained, t)) :
    drained = .ok (.ofBytes stream r.cap) ∨
      ∃ due ∈ r.deadline, due ≤ w.clock t.machine ∧ drained = .error (.stillWriting program) := by
  obtain ⟨arrivals, later, houtputs, hstream, hpatience⟩ := houtput
  obtain ⟨result, u, hinto, hdrained⟩ :=
    drainInto_stream hs.delivers program .closed later arrivals (h.patience s.machine)
      (.empty r.cap) s houtputs (hpatience s.machine) ht
  rw [drain, Action.on_bind_of _ (Action.on_budget h s), Action.on_bind_of _ hinto] at hrun
  rw [hstream] at hdrained
  rcases hdrained.whole_or_late with rfl | ⟨due, hdue, hlate, rfl⟩
  · have hkept : Ending.closed.result ((Capture.empty r.cap).append stream)
        = .ok (.ofBytes stream r.cap) := rfl
    simp only [hkept] at hrun
    left
    by_cases hcut : (Capture.ofBytes stream r.cap).isTruncated = true
    · simp only [hcut, if_true] at hrun
      exact (Prod.mk.inj hrun).1.symm
    · simp only [hcut] at hrun
      exact (Prod.mk.inj hrun).1.symm
  · obtain ⟨rfl, rfl⟩ := Prod.mk.inj hrun
    exact .inr ⟨due, hdue, hlate, rfl⟩

/-! ## The whole -/

/-- **What a run comes to**, for how the process has fared: that it was not started, and
for which error; or the output and the end of the program, unless the deadline has
passed. -/
def Fares (r : Runner) (program : String) (clock : σ → Nat) (stream : Bytes) (status : Status)
    (result : Except Failure (Capture × Status)) (m : σ) : Outset → Prop
  | .refused number => result = .error (.notStarted program (.ofCode number))
  | .started => result = .ok (.ofBytes stream r.cap, status) ∨
      ∃ due ∈ r.deadline, due ≤ clock m ∧
        (result = .error (.stillWriting program) ∨ result = .error (.stillRunning program))

variable {start : Outset} {stream : Bytes} {status : Status}
  {result : Except Failure (Capture × Status)}

theorem Fares.elapsed {clock signals : σ → Nat} {m m' : σ}
    (hf : r.Fares program clock stream status result m start)
    (helapsed : Elapsed clock signals m m') :
    r.Fares program clock stream status result m' start := by
  cases start with
  | refused number => exact hf
  | started =>
      refine hf.imp id ?_
      rintro ⟨due, hdue, hle, hlate⟩
      exact ⟨due, hdue, hle.trans helapsed.clock, hlate⟩

/-- **A program is said not to have been started just when it was not**, and the error is
the one that its process has reported. -/
theorem Fares.kind_iff {clock : σ → Nat} {m : σ}
    (hf : r.Fares program clock stream status result m start) (e : Errno) :
    (∃ f, result = .error f ∧ f.kind = .spawn e) ↔ start.errno? = some e := by
  cases start with
  | refused number =>
      obtain rfl := hf
      constructor
      · rintro ⟨f, heq, hkind⟩
        obtain rfl := Except.error.inj heq
        exact congrArg some (FailureKind.spawn.inj hkind)
      · intro he
        obtain rfl := Option.some.inj he
        exact ⟨_, rfl, rfl⟩
  | started =>
      refine iff_of_false ?_ (by rintro ⟨⟩)
      rintro ⟨f, heq, hkind⟩
      rcases hf with rfl | ⟨due, -, -, rfl | rfl⟩
      · cases heq
      · obtain rfl := Except.error.inj heq
        cases hkind
      · obtain rfl := Except.error.inj heq
        cases hkind

/-- The end of the program is waited for, unless the deadline has passed. -/
private theorem waitUntil_foreseen {m : σ} {c' : Child} {waited : Except Failure Status}
    (hs : h.Handshakes pid w) (hf : Foreseen h r pid w start stream status m)
    (honward : w.outlook.Onward m s.machine)
    (hrun : (Child.waitUntil h r.deadline ⟨pid, program, none⟩).on s = ((waited, c'), t)) :
    c'.pid = pid ∧ (waited = .ok status ∨
      ∃ due ∈ r.deadline, due ≤ w.clock t.machine ∧ waited = .error (.stillRunning program)) := by
  obtain ⟨n, hn⟩ := hf.left
  obtain ⟨⟨k, -, hk⟩, hends⟩ := honward n hn
  rcases hs.attends.waitUntil (c := ⟨pid, program, none⟩) hk rfl hrun with
    ⟨v, rfl, rfl, hv⟩ | ⟨rfl, due, hdue, s₁, now, s₂, hwaited, hnow, hle, hgive⟩
  · obtain rfl := hf.ends v (hends v hv)
    exact ⟨rfl, .inl rfl⟩
  · -- the clock was read after the deadline, and has not gone back since
    obtain ⟨⟨j, -, hj⟩, -⟩ := hwaited k hk
    obtain ⟨v, rfl, -⟩ := hs.attends.killAndReap (c := ⟨pid, program, none⟩) hj rfl hgive
    have hgiven := elapsed_killAndReap (c := ⟨pid, program, none⟩) hs.passes s₂
    rw [hgive] at hgiven
    have hwaits := hf.timely.waits (Option.ne_none_iff_exists'.mpr ⟨due, hdue⟩)
    obtain ⟨-, hread⟩ := hwaits.now_le s₁.machine
    obtain ⟨rfl, rfl⟩ := Prod.mk.inj hnow
    exact ⟨rfl, .inr ⟨due, hdue, hle.trans (hread.trans hgiven.clock), rfl⟩⟩

/-- The program is drained and waited for, if it was started. -/
private theorem fares_started (hs : h.Handshakes pid w)
    (hf : Foreseen h r pid w .started stream status s.machine)
    (hstart : (startError h pid).on s = (.ok none, t)) :
    ∃ result c' u, (r.supervise h program ⟨pid, program, none⟩).on s = ((result, c'), u)
      ∧ c'.pid = pid ∧ r.Fares program w.clock stream status result u.machine .started := by
  have hcalm := calm_startError hs s
  rw [hstart] at hcalm
  rcases hdrain : (r.drain h program pid).on t with ⟨drained, s₁⟩
  have hdrained := onward_drain hs r program t
  rw [hdrain] at hdrained
  have hoff : (Host.change (h.hangUp pid)).on s₁
      = ((), { s₁ with machine := h.hangUp pid s₁.machine }) := Action.on_change _ s₁
  have houtput : h.HandsOut (w.outputs t.machine) stream := hcalm.outputs ▸ hf.output rfl
  have htimely := hf.timely.elapsed fun _ => hcalm.elapsed
  rw [supervise, Action.on_bind_of _ hstart, Action.on_bind_of _ hdrain,
    Action.on_bind_of _ hoff]
  rcases drain_handsOut hs houtput htimely hdrain with rfl | ⟨due, hdue, hlate, rfl⟩
  · rcases huntil : (Child.waitUntil h r.deadline ⟨pid, program, none⟩).on
      { s₁ with machine := h.hangUp pid s₁.machine } with ⟨⟨waited, c'⟩, u⟩
    have honward := hcalm.onward.trans (hdrained.trans (hs.undisturbed.hangUp pid s₁.machine))
    obtain ⟨hpid, hwaited⟩ := waitUntil_foreseen hs hf honward huntil
    simp only
    rw [Action.on_bind_of _ huntil]
    rcases hwaited with rfl | ⟨due, hdue, hlate, rfl⟩
    · exact ⟨_, _, _, rfl, hpid, .inl rfl⟩
    · exact ⟨_, _, _, rfl, hpid, .inr ⟨due, hdue, hlate, .inr rfl⟩⟩
  · exact ⟨_, _, _, rfl, rfl,
      .inr ⟨due, hdue, hlate.trans (hs.passes.hangUp _).clock, .inl rfl⟩⟩

/-- The process is waited for, and its end does not count, if the program was not
started. -/
private theorem fares_refused (hs : h.Handshakes pid w) {number : Int}
    (hf : Foreseen h r pid w (.refused number) stream status s.machine)
    (hstart : (startError h pid).on s = (.ok (some (.ofCode number)), t)) :
    ∃ result c' u, (r.supervise h program ⟨pid, program, none⟩).on s = ((result, c'), u)
      ∧ c'.pid = pid
      ∧ r.Fares program w.clock stream status result u.machine (.refused number) := by
  have hcalm := calm_startError hs s
  rw [hstart] at hcalm
  obtain ⟨n, hn⟩ := hf.left
  obtain ⟨⟨k, -, hk⟩, hends⟩ := hcalm.onward n hn
  rcases hwait : (Child.wait h ⟨pid, program, none⟩).on t with ⟨⟨waited, c'⟩, u⟩
  obtain ⟨rfl, hv⟩ := hs.attends.childWait (c := ⟨pid, program, none⟩) hk rfl hwait
  obtain rfl := hf.ends waited (hends waited hv)
  rw [supervise, Action.on_bind_of _ hstart]
  simp only
  rw [Action.on_bind_of _ hwait]
  exact ⟨_, _, _, rfl, rfl, rfl⟩

/-- A process comes to what is foreseen, from its making on. -/
theorem launch_fares (hs : h.Handshakes pid w) (program : String) {argv : List Bytes}
    {handle? : Option Handle} {m : σ} (hmade : h.spawn argv handle? s.machine = (.ok pid, m))
    (hf : Foreseen h r pid w start stream status m) :
    ∃ result t, (r.launch h program argv handle?).on s = (result, t)
      ∧ r.Fares program w.clock stream status result t.machine start := by
  rw [on_launch, hmade]
  simp only
  obtain ⟨hcalm, hreports⟩ :=
    calm_spawned hs handle? (.spawned program pid) { s with machine := m }
  have hspawned := foreseen_calm hf hcalm hreports
  rcases hstart : (startError h pid).on
    ((closing h handle? { s with machine := m }).noted h (.spawned program pid)) with ⟨told, u⟩
  have htold := startError_stream hs.announces start hspawned.report
  rw [hstart] at htold
  obtain rfl := htold
  have hwatch : ∃ result c' t, (r.supervise h program ⟨pid, program, none⟩).on
      ((closing h handle? { s with machine := m }).noted h (.spawned program pid))
        = ((result, c'), t)
      ∧ c'.pid = pid ∧ r.Fares program w.clock stream status result t.machine start := by
    cases start with
    | refused number => exact fares_refused hs hspawned hstart
    | started => exact fares_started hs hspawned hstart
  obtain ⟨result, c', t, hwatched, rfl, hfares⟩ := hwatch
  rcases hgive : (c'.killAndReap h).on t with ⟨c'', t'⟩
  have hgiven := elapsed_killAndReap hs.passes t
  rw [hgive] at hgiven
  rw [Child.guarding, Action.on_bind_of _ hwatched, Action.on_bind_of _ hgive]
  exact ⟨result, t', rfl, hfares.elapsed hgiven⟩

/-- **A run tells whether its program was started.**  Once the process is made, and while
the deadline is not reached, the run fails with the error that the process has
reported, if it could not turn into its program, and otherwise comes to the output and
the end of the program, which may be any.  The report may come in any pieces, with
signals in between, and waits may say of the process that it was stopped or goes on.
The number of an error comes through, and a number that names none is an unknown
error. -/
theorem run_handshake (hs : h.Handshakes pid w) {first : Bytes} {rest : List Bytes}
    {input : InputSource} {handle? : Option Handle} {m : σ}
    (hnul : (first :: rest).any Bytes.hasNul = false)
    (hopen : (openInput h input).on s = (.ok handle?, t))
    (hmade : h.spawn (first :: rest) handle? t.machine = (.ok pid, m))
    (hf : Foreseen h r pid w start stream status m) :
    ∃ result u, (r.run h (first :: rest) input).on s = (result, u)
      ∧ r.Fares (Utf8.decodeLossy first) w.clock stream status result u.machine start
      ∧ (∀ e, (∃ f, result = .error f ∧ f.kind = .spawn e) ↔ start.errno? = some e)
      ∧ (∀ e : Errno, Errno.ofBytes? e.toBytes = some e)
      ∧ (∀ k : Nat, isErrorCode k = true → (Errno.ofCode k).code = k)
      ∧ ∀ number : Int, (∀ k : Nat, isErrorCode k = true → number ≠ k) →
          Errno.ofCode number = .unknown := by
  obtain ⟨result, u, hlaunch, hfares⟩ :=
    launch_fares hs (Utf8.decodeLossy first) hmade hf
  refine ⟨result, u, ?_, hfares, hfares.kind_iff, Errno.ofBytes?_toBytes, ?_, ?_⟩
  · simp only [run, hnul]
    rw [if_neg (by decide), Attempt.on_bind_ok _ hopen]
    exact hlaunch
  · intro k hk
    exact Errno.ofCode_of_isErrorCode hk
  · intro number hnumber
    exact Errno.ofCode_eq_unknown hnumber

end Runner

/-! ## A program that returns 127 -/

namespace Rehearsal

/-- What is known of the process of the machine. -/
def watchpoint : Watchpoint Rehearsal where
  reports := reports
  outputs := outputs
  outlook := outlook 1
  clock := clock
  signals _ := 0

theorem announces (script : List (Except Errno WaitReport)) (pid : Pid) :
    (host script).Announces pid reports outputs where
  readReport := by
    intro count m answer rest hreports _
    simp only [host, hreports, List.headD_cons, List.tail_cons, and_self]
  leaves _ _ := rfl
  close _ _ := ⟨rfl, rfl⟩
  tell _ _ := rfl

theorem delivers (script : List (Except Errno WaitReport)) (pid : Pid) :
    (host script).Delivers pid outputs where
  readOutput := by
    intro m answer rest houtputs
    simp only [host, houtputs, List.headD_cons, List.tail_cons, and_self]
  now _ := rfl
  pollOutput _ _ := rfl
  tell _ _ := rfl

theorem handshakes (script : List (Except Errno WaitReport)) :
    (host script).Handshakes 1 watchpoint where
  attends := attends script 1
  undisturbed := undisturbed script 1
  announces := announces script 1
  delivers := delivers script 1
  passes := {
    readReport := fun _ _ => ⟨le_rfl, le_rfl⟩
    close := fun _ _ => ⟨le_rfl, le_rfl⟩
    tell := fun _ _ => ⟨le_rfl, le_rfl⟩
    hangUp := fun _ => ⟨le_rfl, le_rfl⟩
    wait := fun _ _ => ⟨le_rfl, le_rfl⟩
    kill := fun _ _ => ⟨le_rfl, le_rfl⟩ }

theorem waits (script : List (Except Errno WaitReport)) (pid : Pid) :
    (host script).Waits pid clock fun _ => 0 where
  readOutput _ _ := ⟨le_rfl, le_rfl⟩
  now _ := ⟨le_rfl, le_rfl⟩
  now_le _ := ⟨le_rfl, le_rfl⟩
  pollOutput _ _ := ⟨le_rfl, le_rfl⟩
  timedOut hvain := by cases hvain
  interrupted hfailed := by cases hfailed

/-- A program is stopped and continued, and returns 127. -/
def returning : List (Except Errno WaitReport) :=
  [.ok (.stopped .stop), .ok .continued, .ok (.exited 127)]

/-- The report is closed after a signal, and three bytes come of the output. -/
def opened : Session Rehearsal where
  nextRelay := 0
  machine := ⟨fun _ => [], [.error .interrupted, .ok []],
    [.ok [1, 2], .error .interrupted, .ok [3], .ok []], 0⟩

/-- There are five nanoseconds left. -/
def runner : Runner := ⟨80, some 5⟩

theorem foreseen : Foreseen (host returning) runner 1 watchpoint .started [1, 2, 3]
    (.exited 127) (opened.machine.promising 1 returning) where
  report := ⟨[.interrupted], [], rfl, rfl, fun _ => (show 1 < 8 by decide)⟩
  output _ := ⟨[.chunk [1, 2] (by decide) (by decide), .interrupted,
    .chunk [3] (by decide) (by decide)], [], rfl, rfl, fun _ => (show 3 < 8 by decide)⟩
  left := ⟨2, rfl⟩
  ends := by
    rintro v ⟨n, hn⟩
    exact ((Prod.mk.inj (Option.some.inj hn)).2).symm
  timely := ⟨waits returning 1, fun _ => (show 1 < 8 by decide)⟩

end Rehearsal

namespace Runner

open Rehearsal in
theorem run_handshake_sample :
    ((host returning).Handshakes 1 watchpoint
        ∧ (openInput (host returning) .inherited).on opened = (.ok none, opened)
        ∧ (host returning).spawn [[120]] none opened.machine
            = (.ok 1, opened.machine.promising 1 returning)
        ∧ Foreseen (host returning) runner 1 watchpoint .started [1, 2, 3] (.exited 127)
            (opened.machine.promising 1 returning))
      ∧ ∃ result u, (runner.run (host returning) [[120]] .inherited).on opened
            = (result, u)
        ∧ runner.Fares (Utf8.decodeLossy [120]) watchpoint.clock [1, 2, 3] (.exited 127)
            result u.machine .started
        ∧ (∀ e, (∃ f, result = .error f ∧ f.kind = .spawn e) ↔ Outset.started.errno? = some e)
        ∧ (∀ e : Errno, Errno.ofBytes? e.toBytes = some e)
        ∧ (∀ k : Nat, isErrorCode k = true → (Errno.ofCode k).code = k)
        ∧ ∀ number : Int, (∀ k : Nat, isErrorCode k = true → number ≠ k) →
            Errno.ofCode number = .unknown :=
  ⟨⟨handshakes returning, rfl, rfl, foreseen⟩,
    run_handshake (handshakes returning) (by decide) rfl rfl foreseen⟩

open Rehearsal in
/-- If the program is not there, its process returns 127 as well. -/
example :
    ((runner.run (host [.ok (.exited 127)]) [[120]] .inherited).on
        ⟨0, ⟨fun _ => [], [.ok [2, 0], .error .interrupted, .ok [0, 0], .ok []], [], 0⟩⟩).1
      = .error (.notStarted (Utf8.decodeLossy [120]) .notFound) := by
  decide +kernel

end Runner

/-! ## A signal that has no name -/

namespace Machine

/-- A program that sends itself the first of the signals that have no names. -/
def unnamedEnd : Program :=
  .call .self fun
    | .number pid => .call (.kill pid 34) fun _ => .exit 0
    | _ => .exit 1

/-- A machine on which that is the program `/x`. -/
def lone : World where
  kernel :=
    { tree := ⟨#[.directory 0 [([120], 1)] 0o755, .image "x"]⟩
      files := #[{ target := .console, mode := { isWritable := true } }]
      pipes := #[], processes := [], clock := 0, nextPid := World.firstPid
      transcript := [], images := fun _ _ _ => unnamedEnd }
  cwd := FileTree.root
  stdin := 0
  console := 0
  env := []

/-- The machine with a process of the program. -/
def made : World := (World.host.spawn [[47, 120]] none lone).2

/-- **An end by a signal that has no name is lost.**  The program is started, and the signal
ends it, but the run fails. -/
theorem run_unnamed_signal :
    (World.host.spawn [[47, 120]] none lone).1 = .ok 100
      ∧ ((Runner.startError World.host 100).on ⟨0, made⟩).1 = .ok none
      ∧ (World.child? (made.settle 100).kernel 100).bind (·.ending) = some (.signal 34)
      ∧ ((Runner.run World.host ⟨80, none⟩ [[47, 120]] .inherited).on ⟨0, lone⟩).1
          = .error (.ofErrno .invalidArgument) := by
  decide +kernel

end Machine

end CommandExpr
