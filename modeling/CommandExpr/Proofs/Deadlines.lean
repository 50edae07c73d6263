import CommandExpr.Evaluator
import CommandExpr.Proofs.Pauses
import CommandExpr.Proofs.Reaping

/-!
# Deadlines

The deadline of an evaluation is its start and the time that is set for it, and
it stays within the range of a clock of 63 bits for seconds, however long the
time.  Up to the deadline a run may wait for output, and for the end of a child.

Both waits are loops of short pauses, and both end.  What they use up is the time
that is left: a pause that came to nothing has taken all of what it asked for,
which is either a unit that does not depend on the deadline or the whole rest.
Signals may come between, but they are finite in number.  In the end a child is
killed, and then its end is reported.

## Main results

* `Evaluator.deadline_in_range` — no deadline leaves the range of the clock.
* `Child.waitUntil_concludes` — looking and sleeping in turn ends.
* `Runner.punctual` — what waits with a deadline do, and that they end.
-/

namespace CommandExpr

variable {σ : Type}

/-! ## Sleeping -/

section Napping

variable {h : Host σ} {pid : Pid} {clock signals : σ → Nat} {m m' : σ}

/-- Time passes while a child is slept for, and the signals that interrupt a look at it are
finite in number. -/
structure Host.Naps (h : Host σ) (pid : Pid) (clock signals : σ → Nat) : Prop where
  now (m : σ) : Elapsed clock signals m (h.now m).2
  /-- The clock is right when it is read. -/
  now_le (m : σ) : clock m ≤ (h.now m).1 ∧ (h.now m).1 ≤ clock (h.now m).2
  look (m : σ) : Elapsed clock signals m (h.wait pid true m).2
  interrupted {m : σ} : (h.wait pid true m).1 = .error .interrupted →
    signals (h.wait pid true m).2 < signals m
  /-- All the time has passed. -/
  sleep (time : Nat) (m : σ) :
    clock m + time ≤ clock (h.sleep time m) ∧ signals (h.sleep time m) ≤ signals m

/-- How often a child is slept for until a deadline: once for every interval that is left, a part
of one included. -/
def napsLeft (clock : σ → Nat) (deadline : Nat) (m : σ) : Nat :=
  (deadline - clock m + (Child.pollInterval - 1)) / Child.pollInterval

private theorem intervals_lt {deadline before now after : Nat} (hsince : before ≤ now)
    (hleft : now < deadline) (hslept : now + min (deadline - now) Child.pollInterval ≤ after) :
    (deadline - after + (Child.pollInterval - 1)) / Child.pollInterval
      < (deadline - before + (Child.pollInterval - 1)) / Child.pollInterval := by
  simp only [Child.pollInterval, nanosPerMilli, Nat.reduceMul] at *
  omega

/-- After a sleep there are fewer left, if the deadline had not passed when the clock was read. -/
theorem Host.Naps.napsLeft_lt (w : h.Naps pid clock signals) {deadline : Nat}
    (hle : clock m ≤ clock m') (hleft : deadline - (h.now m').1 ≠ 0) :
    napsLeft clock deadline
        (h.sleep (min (deadline - (h.now m').1) Child.pollInterval) (h.now m').2)
      < napsLeft clock deadline m := by
  obtain ⟨hsince, htime⟩ := w.now_le m'
  obtain ⟨hslept, -⟩ := w.sleep (min (deadline - (h.now m').1) Child.pollInterval) (h.now m').2
  exact intervals_lt (hle.trans hsince) (Nat.lt_of_sub_ne_zero hleft)
    ((Nat.add_le_add_right htime _).trans hslept)

end Napping

namespace Child

variable {h : Host σ} {pid : Pid} {clock signals : σ → Nat} {c c' : Child} {o : Outlook σ}
  {s t : Session σ}

/-- A look ends, and is not given up because of signals. -/
theorem lookForEnd_ends (w : h.Naps pid clock signals) (fuel : Nat) :
    ∀ {s t : Session σ} {result : Except Errno (Option Status)}, signals s.machine < fuel →
      (lookForEnd h pid fuel).on s = (result, t) →
        result ≠ .error .interrupted ∧ Elapsed clock signals s.machine t.machine := by
  induction fuel with
  | zero =>
      intro s t result hfuel
      exact absurd hfuel (Nat.not_lt_zero _)
  | succ fuel ih =>
      intro s t result hfuel hrun
      obtain ⟨answer, u, hcall, hcases⟩ := lookForEnd_cases hrun
      obtain ⟨rfl, rfl⟩ := Prod.mk.inj hcall
      have helapsed := w.look s.machine
      rcases hcases with ⟨hanswer, hrest⟩ | ⟨hanswer, rfl, rfl⟩
      · have hfewer := w.interrupted hanswer
        have hleft := Nat.lt_of_lt_of_le hfewer (Nat.le_of_lt_succ hfuel)
        obtain ⟨hresult, hlater⟩ := ih hleft hrest
        exact ⟨hresult, helapsed.trans hlater⟩
      · refine ⟨?_, helapsed⟩
        cases hseen : (h.wait pid true s.machine).1 with
        | ok report => rintro ⟨⟩
        | error e => exact fun he => hanswer (hseen.trans (congrArg _ (Except.error.inj he)))

/-- What a look at a child comes to: it fails for a reason, or the child remembers what was
seen. -/
theorem tryWait_ends (w : h.Naps c.pid clock signals) (hc : c.status = none)
    (hpatience : signals s.machine < h.patience s.machine)
    {result : Except Errno (Option Status)} (hrun : (c.tryWait h).on s = ((result, c'), t)) :
    result ≠ .error .interrupted ∧ c' = { c with status := result.toOption.join } ∧
      Elapsed clock signals s.machine t.machine := by
  obtain ⟨hlook, rfl⟩ := tryWait_cases hc hrun
  obtain ⟨hresult, helapsed⟩ := lookForEnd_ends w _ hpatience hlook
  exact ⟨hresult, rfl, helapsed⟩

/-- What a wait for a child with a deadline comes to: its end, or a failure of the host, or the
deadline has passed and the child has been killed and reaped. -/
inductive Concluded (c : Child) : Except Failure Status → Child → Prop where
  | ended (status : Status) : Concluded c (.ok status) (c.ended status)
  | failed {e : Errno} (he : e ≠ .interrupted) : Concluded c (.error (.ofErrno e)) c
  | late (status : Status) : Concluded c (.error (.stillRunning c.program)) (c.ended status)

/-- A child that is killed is reaped. -/
theorem killAndReap_killed (ha : h.Attends c.pid o) (hc : c.status = none)
    (hkilled : o.Pending (h.kill c.pid .kill s.machine).2)
    (hrun : (c.killAndReap h).on s = (c', t)) : ∃ status, c' = c.ended status := by
  obtain ⟨n, hn⟩ := hkilled.left
  obtain ⟨v, rfl, hends⟩ := ha.killAndReap_of_left hn hc hrun
  obtain ⟨status, rfl⟩ := hkilled.exists_eq_ok hends
  exact ⟨status, rfl⟩

/-- **Looking and sleeping in turn ends**, since there are fewer sleeps to come after one. -/
theorem pollUntil_concludes (w : h.Naps c.pid clock signals) (ha : h.Attends c.pid o)
    (hkilled : ∀ m, o.Pending (h.kill c.pid .kill m).2) (hc : c.status = none)
    {deadline : Nat} (fuel : Nat) :
    ∀ {s t : Session σ} {result : Except Failure Status} {c' : Child},
      napsLeft clock deadline s.machine < fuel → (∀ m, signals s.machine < h.patience m) →
        (c.pollUntil h deadline fuel).on s = ((result, c'), t) → c.Concluded result c' := by
  induction fuel with
  | zero =>
      intro s t result c' hfuel
      exact absurd hfuel (Nat.not_lt_zero _)
  | succ fuel ih =>
      intro s t result c' hfuel hpatience hrun
      have hsame : ({ c with status := none } : Child) = c := by rw [← hc]
      cases round_of_pollUntil hrun with
      | failed htry =>
          obtain ⟨he, hc', -⟩ := tryWait_ends w hc (hpatience _) htry
          obtain rfl : c' = c := hc'.trans hsame
          exact .failed fun heq => he (congrArg _ heq)
      | ended htry =>
          obtain ⟨-, rfl, -⟩ := tryWait_ends w hc (hpatience _) htry
          exact .ended _
      | late htry hnow hlate hgive =>
          obtain ⟨-, hc₁, -⟩ := tryWait_ends w hc (hpatience _) htry
          obtain rfl := hc₁.trans hsame
          obtain ⟨status, rfl⟩ := killAndReap_killed ha hc (hkilled _) hgive
          exact .late status
      | @again _ _ s₁ _ _ _ _ htry hnow hleft hrest =>
          obtain ⟨-, hc₁, helapsed⟩ := tryWait_ends w hc (hpatience _) htry
          obtain rfl := hc₁.trans hsame
          obtain ⟨rfl, rfl⟩ := Prod.mk.inj hnow
          have hnaps := w.napsLeft_lt helapsed.clock (Nat.sub_ne_zero_of_lt hleft)
          have hsignals := (w.sleep (min (deadline - (h.now s₁.machine).1) pollInterval)
            (h.now s₁.machine).2).2
          refine ih (Nat.lt_of_lt_of_le hnaps (Nat.le_of_lt_succ hfuel)) (fun m => ?_) hrest
          exact Nat.lt_of_le_of_lt ((hsignals.trans (w.now s₁.machine).signals).trans
            helapsed.signals) (hpatience m)

/-- **A wait for a child with a deadline ends.** -/
theorem waitUntil_concludes (w : h.Naps c.pid clock signals) (ha : h.Attends c.pid o)
    (hkilled : ∀ m, o.Pending (h.kill c.pid .kill m).2) {deadline : Nat}
    (hnaps : napsLeft clock deadline s.machine < h.patience s.machine)
    (hpatience : ∀ m, signals s.machine < h.patience m) {result : Except Failure Status}
    (hrun : (c.waitUntil h (some deadline)).on s = ((result, c'), t)) : c.Concluded result c' := by
  cases hc : c.status with
  | some status =>
      rw [on_waitUntil_known (Nat.zero_lt_of_lt hnaps) hc] at hrun
      obtain ⟨hpair, -⟩ := Prod.mk.inj hrun
      obtain ⟨rfl, rfl⟩ := Prod.mk.inj hpair
      have hended : c = c.ended status := by rw [ended, ← hc]
      have hconcluded : c.Concluded (.ok status) (c.ended status) := .ended status
      rwa [← hended] at hconcluded
  | none =>
      rcases waitUntil_cases hrun with ⟨hnone, -⟩ | ⟨due, hdue, hpoll⟩
      · cases hnone
      · obtain rfl := Option.some.inj hdue
        exact pollUntil_concludes w ha hkilled hc _ hnaps hpatience hpoll

end Child

/-! ## Waits of an evaluation -/

/-- How many nanoseconds are in a second. -/
def nanosPerSecond : Nat := 1000 * nanosPerMilli

/-- **No deadline leaves the range of the clock.** -/
theorem Evaluator.deadline_in_range {ev : Evaluator} {start deadline : Nat}
    (hstart : start / nanosPerSecond < 2 ^ 62) (htimeout : ∀ ms ∈ ev.config.timeout, ms < 2 ^ 64)
    (hdeadline : (ev.runner start).deadline = some deadline) :
    deadline / nanosPerSecond < 2 ^ 63 := by
  obtain ⟨ms, hms, hsum⟩ := Option.map_eq_some_iff.mp hdeadline
  have hlt := htimeout ms hms
  have hdue : deadline = start + ms * 1000000 := hsum.symm
  simp only [nanosPerSecond, nanosPerMilli, Nat.reduceMul] at hstart ⊢
  omega

namespace Runner

variable {h : Host σ} {r : Runner} {c : Child} {s : Session σ} {pid : Pid}

/-- The record of a wait for output is that of the same wait without one. -/
theorem waitReadable_recording (h : Host σ) (r : Runner) (pid : Pid) (fuel : Nat)
    (s : Session σ) :
    ∃ t, (r.waitReadable h.recorded pid fuel).on s.recording
        = (((r.waitReadable h pid fuel).on s).1, t) ∧
      t.plain = ((r.waitReadable h pid fuel).on s).2 ∧
      PollsInTime r.deadline ((r.waitReadable h pid fuel).on s).1 t.record := by
  obtain ⟨hresult, hplain⟩ :=
    (recorded_inStep h).waitReadable r pid fuel s.recording s rfl
  have hrun : (r.waitReadable h.recorded pid fuel).on s.recording
      = (((r.waitReadable h pid fuel).on s).1,
        ((r.waitReadable h.recorded pid fuel).on s.recording).2) := Prod.ext hresult rfl
  obtain ⟨tail, hrecord, hintime⟩ := pollsInTime_of_waitReadable fuel hrun
  have htail : ((r.waitReadable h.recorded pid fuel).on s.recording).2.record = tail := hrecord
  exact ⟨_, hrun, hplain, htail ▸ hintime⟩

end Runner

/-- The record of a wait for a child is that of the same wait without one. -/
theorem Child.waitUntil_recording (h : Host σ) (c : Child) (deadline? : Option Instant)
    (s : Session σ) :
    ∃ t, (c.waitUntil h.recorded deadline?).on s.recording
        = (((c.waitUntil h deadline?).on s).1, t) ∧
      t.plain = ((c.waitUntil h deadline?).on s).2 ∧
      SleepsInTime deadline? c.pid ((c.waitUntil h deadline?).on s).1.1 t.record := by
  obtain ⟨hresult, hplain⟩ := (recorded_inStep h).waitUntil deadline? c s.recording s rfl
  have hrun : (c.waitUntil h.recorded deadline?).on s.recording
      = (((c.waitUntil h deadline?).on s).1,
        ((c.waitUntil h.recorded deadline?).on s.recording).2) := Prod.ext hresult rfl
  obtain ⟨tail, hrecord, hintime⟩ := sleepsInTime_of_waitUntil hrun
  have htail : ((c.waitUntil h.recorded deadline?).on s.recording).2.record = tail := hrecord
  exact ⟨_, hrun, hplain, htail ▸ hintime⟩

namespace Runner

/-- What waits up to the deadline of a runner do. -/
structure Punctual (h : Host σ) (r : Runner) (c : Child) (s : Session σ) : Prop where
  /-- Deadlines are within the range of the clock. -/
  deadline {ev : Evaluator} {start due : Nat} : start / nanosPerSecond < 2 ^ 62 →
    (∀ ms ∈ ev.config.timeout, ms < 2 ^ 64) → (ev.runner start).deadline = some due →
      due / nanosPerSecond < 2 ^ 63
  /-- A wait for output pauses for as long as fits, and says that there is none only if the
  deadline has passed, … -/
  polls (fuel : Nat) : ∃ t, (r.waitReadable h.recorded c.pid fuel).on s.recording
      = (((r.waitReadable h c.pid fuel).on s).1, t) ∧
    t.plain = ((r.waitReadable h c.pid fuel).on s).2 ∧
    PollsInTime r.deadline ((r.waitReadable h c.pid fuel).on s).1 t.record
  /-- … and a wait for the child sleeps for as long as fits, and says that the time is up only if
  the deadline has passed and the end of the child was not seen. -/
  sleeps : ∃ t, (c.waitUntil h.recorded r.deadline).on s.recording
      = (((c.waitUntil h r.deadline).on s).1, t) ∧
    t.plain = ((c.waitUntil h r.deadline).on s).2 ∧
    SleepsInTime r.deadline c.pid ((c.waitUntil h r.deadline).on s).1.1 t.record
  /-- An end that is known already is returned. -/
  known {status : Status} : 0 < h.patience s.machine → c.status = some status →
    (c.waitUntil h r.deadline).on s = ((.ok status, c), s)
  /-- A wait for output ends if time passes and signals are finite in number, and it is not given
  up before, … -/
  polls_end {clock signals : σ → Nat} {due fuel : Nat} : h.Polls c.pid clock signals →
    r.deadline = some due → vainWaits clock signals due s.machine < fuel →
      ∃ result t, (r.waitReadable h c.pid fuel).on s = (result, t) ∧
        Settled h c.pid clock due result t.machine
  /-- … and so does a wait for the child if, besides, the end of a child that is killed is
  reported. -/
  sleeps_end {clock signals : σ → Nat} {o : Outlook σ} {due : Nat} :
    h.Naps c.pid clock signals → h.Attends c.pid o →
    (∀ m, o.Pending (h.kill c.pid .kill m).2) → r.deadline = some due →
    napsLeft clock due s.machine < h.patience s.machine →
    (∀ m, signals s.machine < h.patience m) →
      ∃ result c' t, (c.waitUntil h r.deadline).on s = ((result, c'), t) ∧ c.Concluded result c'

/-- **Waits with a deadline keep to it, and end.**  This is so for every time that can be set,
and every host whose clock does not go back. -/
theorem punctual (h : Host σ) (r : Runner) (c : Child) (s : Session σ) : Punctual h r c s where
  deadline := Evaluator.deadline_in_range
  polls fuel := waitReadable_recording h r c.pid fuel s
  sleeps := c.waitUntil_recording h r.deadline s
  known hpatience hc := Child.on_waitUntil_known hpatience hc r.deadline
  polls_end w hdue hfuel := by
    obtain ⟨result, t, hrun, -, hsettled⟩ := waitReadable_settles w (P := fun _ => True)
      (fun _ _ => trivial) (fun _ _ _ => trivial) hdue _ s trivial hfuel
    exact ⟨result, t, hrun, hsettled⟩
  sleeps_end w ha hkilled hdue hnaps hpatience := by
    rw [hdue]
    rcases hrun : (c.waitUntil h (some _)).on s with ⟨⟨result, c'⟩, t⟩
    exact ⟨result, c', t, rfl, Child.waitUntil_concludes w ha hkilled hnaps hpatience hrun⟩

end Runner

/-! ## A program that does not end -/

namespace Rehearsal

/-- Is it an interruption? -/
def isInterruption : Except Errno WaitReport → Bool
  | .error e => e = .interrupted
  | .ok _ => false

/-- How many signals come while a process is waited for. -/
def interruptions (pid : Pid) (m : Rehearsal) : Nat :=
  ((m.answers pid).filter isInterruption).length

theorem polls (script : List (Except Errno WaitReport)) (pid : Pid) (signals : Rehearsal → Nat) :
    (host script).Polls pid clock signals where
  now _ := ⟨le_rfl, le_rfl⟩
  now_le _ := ⟨le_rfl, le_rfl⟩
  pollOutput _ _ := ⟨le_rfl, le_rfl⟩
  timedOut hvain := by cases hvain
  interrupted hfailed := by cases hfailed

theorem naps (script : List (Except Errno WaitReport)) (pid : Pid) :
    (host script).Naps pid clock (interruptions pid) where
  now _ := ⟨le_rfl, le_rfl⟩
  now_le _ := ⟨le_rfl, le_rfl⟩
  look m := by
    refine ⟨le_rfl, ?_⟩
    change ((m.promising pid (m.answers pid).tail).answers pid |>.filter isInterruption).length ≤ _
    rw [answers_promising]
    exact ((List.tail_sublist _).filter _).length_le
  interrupted {m} hanswer := by
    change (m.answers pid).headD (.error .noChild) = .error .interrupted at hanswer
    change ((m.promising pid (m.answers pid).tail).answers pid |>.filter isInterruption).length
      < ((m.answers pid).filter isInterruption).length
    rw [answers_promising]
    cases hanswers : m.answers pid with
    | nil =>
        rw [hanswers] at hanswer
        cases hanswer
    | cons answer rest =>
        rw [hanswers] at hanswer
        obtain rfl : answer = .error .interrupted := hanswer
        exact Nat.lt_succ_self _
  sleep _ _ := ⟨le_rfl, le_rfl⟩

/-- A process that is killed is reported. -/
theorem pending_kill (script : List (Except Errno WaitReport)) (pid : Pid) (m : Rehearsal) :
    (outlook pid).Pending ((host script).kill pid .kill m).2 := by
  have hpromise : promise ((m.promising pid [.ok (.signaled .kill false)]).answers pid)
      = some (0, .ok (.signaled .kill)) := by
    rw [answers_promising]
    rfl
  refine ⟨⟨0, left_eq_some_iff.mpr ⟨by decide, _, hpromise⟩⟩, ?_⟩
  rintro v ⟨n, hn⟩
  obtain ⟨-, rfl⟩ := Prod.mk.inj (Option.some.inj (hn.symm.trans hpromise))
  rfl

/-- The program goes on, and one look at it is interrupted. -/
def busy : Session Rehearsal where
  nextRelay := 0
  machine := ⟨fun _ => [.ok .stillAlive, .error .interrupted, .ok .stillAlive, .ok .stillAlive,
    .ok .stillAlive], [], [], 0⟩

/-- There are twelve milliseconds left. -/
def brief : Runner := ⟨80, some (12 * nanosPerMilli)⟩

end Rehearsal

namespace Runner

open Rehearsal in
theorem punctual_sample :
    ((host []).Polls 1 clock (interruptions 1) ∧ (host []).Naps 1 clock (interruptions 1) ∧
        (host []).Attends 1 (outlook 1) ∧ ∀ m, (outlook 1).Pending ((host []).kill 1 .kill m).2) ∧
      (∃ result t, (brief.waitReadable (host []) 1 20).on busy = (result, t) ∧
        Settled (host []) 1 clock (12 * nanosPerMilli) result t.machine) ∧
      ∃ result c' t, ((⟨1, "program", none⟩ : Child).waitUntil (host []) brief.deadline).on busy
        = ((result, c'), t) ∧ (⟨1, "program", none⟩ : Child).Concluded result c' :=
  have hpunctual := punctual (host []) brief ⟨1, "program", none⟩ busy
  ⟨⟨polls [] 1 _, naps [] 1, attends [] 1, pending_kill [] 1⟩,
    hpunctual.polls_end (polls [] 1 (interruptions 1)) rfl (by decide),
    hpunctual.sleeps_end (naps [] 1) (attends [] 1) (pending_kill [] 1) rfl (by decide)
      fun _ => (show 1 < 8 by decide)⟩

open Rehearsal in
/-- It is slept for three times, five, five and two milliseconds long. -/
example :
    let ended := ((⟨1, "program", none⟩ : Child).waitUntil (host []) brief.deadline).on busy
    ended.1 = (.error (.stillRunning "program"), ⟨1, "program", some (.signaled .kill)⟩) ∧
      ended.2.machine.clock = 12 * nanosPerMilli :=
  ⟨rfl, rfl⟩

end Runner

end CommandExpr
