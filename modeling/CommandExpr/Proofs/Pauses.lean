import CommandExpr.Proofs.Draining
import CommandExpr.Proofs.Tending

/-!
# Pauses before a deadline

Under a deadline a run pauses in two places: it waits for output, and it sleeps
between two looks at a child.  A record shows both, and shows that neither goes
past the deadline on its own account: every pause stands right behind a reading
of the clock that was before the deadline, and asks for no more time than that
reading leaves.  The time for output is in whole milliseconds, at least one, and
never more than sixteen bits hold.

The record also shows that nothing is given up early.  Where a run says that
the time is up, the last reading of the clock was not before the deadline, and
no look at the child had seen its end.

## Main definitions

* `Exchange.Fits`, `Timed` — pauses that keep to what the clock leaves
* `Overdue` — the last reading of the clock was not before the deadline

## Main results

* `Runner.pollsInTime_of_waitReadable`, `Child.sleepsInTime_of_waitUntil` — what
  the record of a wait for output, and of one for a child, shows.
-/

namespace CommandExpr

variable {σ : Type}

namespace Exchange

/-- Time is let pass. -/
def IsPause : Exchange → Prop
  | pollOutput .. | sleep _ => True
  | _ => False

/-- The clock is read. -/
def IsReading : Exchange → Prop
  | now _ => True
  | _ => False

/-- A pause at a time before the deadline asks for no more than is left; a wait for output
counts in milliseconds and asks for at least one. -/
def Fits (deadline now : Instant) : Exchange → Prop
  | pollOutput _ millis _ => now < deadline ∧ 1 ≤ millis ∧ millis < 2 ^ 16 ∧
      millis ≤ max 1 ((deadline - now) / nanosPerMilli)
  | sleep time => now < deadline ∧ time ≤ deadline - now
  | _ => True

/-- A child is sent a signal or waited for, or something is told. -/
def IsParting : Exchange → Prop
  | kill .. | tell _ => True
  | wait _ look _ => look = false
  | _ => False

variable {x : Exchange}

theorem IsParting.not_isPause (hx : x.IsParting) : ¬ x.IsPause := by
  cases x <;> first | exact id | exact absurd hx id

theorem IsParting.not_isReading (hx : x.IsParting) : ¬ x.IsReading := by
  cases x <;> first | exact id | exact absurd hx id

theorem IsParting.ne_look (hx : x.IsParting) (pid : Pid) (answer : Except Errno WaitReport) :
    x ≠ .wait pid true answer := by
  rintro rfl
  cases hx

end Exchange

/-! ## Records of pauses -/

/-- Every pause stands right behind a reading of the clock, and fits. -/
def Timed (deadline? : Option Instant) (tail : List Exchange) : Prop :=
  ∀ front x back, tail = front ++ x :: back → x.IsPause →
    ∃ deadline ∈ deadline?, ∃ earlier now, front = earlier ++ [.now now] ∧ x.Fits deadline now

/-- The last reading of the clock was not before the deadline. -/
def Overdue (deadline? : Option Instant) (tail : List Exchange) : Prop :=
  ∃ deadline ∈ deadline?, ∃ front now back, tail = front ++ .now now :: back ∧
    deadline ≤ now ∧ ∀ x ∈ back, ¬ x.IsReading

section Records

variable {deadline? : Option Instant} {deadline now : Instant} {xs ys : List Exchange}

theorem timed_of_calm (hxs : ∀ x ∈ xs, ¬ x.IsPause) : Timed deadline? xs := by
  rintro front x back rfl hx
  exact absurd hx (hxs x (by simp))

/-- A pause is behind a reading of its own part. -/
theorem Timed.append (hxs : Timed deadline? xs) (hys : Timed deadline? ys) :
    Timed deadline? (xs ++ ys) := by
  intro front x back happend hx
  rcases List.append_eq_append_iff.mp happend with ⟨mid, rfl, hys'⟩ | ⟨mid, rfl, hback⟩
  · obtain ⟨deadline, hdeadline, earlier, now, rfl, hfits⟩ := hys mid x back hys' hx
    exact ⟨deadline, hdeadline, xs ++ earlier, now, (List.append_assoc _ _ _).symm, hfits⟩
  · cases mid with
    | nil =>
        obtain ⟨_, _, earlier, now, hnil, _⟩ := hys [] x back hback.symm hx
        exact absurd hnil.symm (by simp)
    | cons y mid =>
        obtain ⟨rfl, -⟩ := List.cons.inj hback
        exact hxs front x mid rfl hx

theorem timed_pause {x : Exchange} (hx : x.Fits deadline now) :
    Timed (some deadline) [.now now, x] := by
  intro front y back hsplit hy
  rcases front with _ | ⟨first, _ | ⟨second, front⟩⟩
  · obtain ⟨rfl, -⟩ := List.cons.inj hsplit
    cases hy
  · obtain ⟨rfl, hrest⟩ := List.cons.inj hsplit
    obtain ⟨rfl, -⟩ := List.cons.inj hrest
    exact ⟨deadline, rfl, [], now, rfl, hx⟩
  · have hlength := congrArg List.length hsplit
    simp at hlength

theorem Overdue.append_left (h : Overdue deadline? ys) (xs : List Exchange) :
    Overdue deadline? (xs ++ ys) := by
  obtain ⟨deadline, hdeadline, front, now, back, rfl, hlate, hback⟩ := h
  exact ⟨deadline, hdeadline, xs ++ front, now, back, (List.append_assoc _ _ _).symm, hlate, hback⟩

theorem overdue_now (hlate : deadline ≤ now) (hxs : ∀ x ∈ xs, ¬ x.IsReading) :
    Overdue (some deadline) (.now now :: xs) :=
  ⟨deadline, rfl, [], now, xs, rfl, hlate, hxs⟩

end Records

/-- From one session to another the record grows by exchanges of a kind. -/
def Grows (P : Exchange → Prop) (s t : Session (Recorded σ)) : Prop :=
  ∃ tail, t.record = s.record ++ tail ∧ ∀ x ∈ tail, P x

namespace Grows

variable {P : Exchange → Prop} {s : Session (Recorded σ)} {α : Type}

theorem refl (P : Exchange → Prop) (s : Session (Recorded σ)) : Grows P s s :=
  ⟨[], (List.append_nil _).symm, List.forall_mem_nil _⟩

private theorem cons {x : Exchange} {t u : Session (Recorded σ)} (ht : Grows P s t) (hx : P x)
    (hu : u.record = t.record ++ [x]) : Grows P s u := by
  obtain ⟨tail, hrecord, htail⟩ := ht
  refine ⟨tail ++ [x], by rw [hu, hrecord, List.append_assoc], ?_⟩
  exact List.forall_mem_append.mpr ⟨htail, List.forall_mem_singleton.mpr hx⟩

theorem call {g : σ → α × σ} {exchange : α → Exchange} (hP : ∀ a, P (exchange a)) :
    Keeps (Grows P s) (Host.call (Host.recordCall g exchange)) :=
  fun _ ht => ht.cons (hP _) rfl

theorem change {g : σ → σ} {exchange : Exchange} (hP : P exchange) :
    Keeps (Grows P s) (Host.change (Host.recordChange g exchange)) :=
  fun _ ht => ht.cons hP rfl

end Grows

/-! ## Waiting for output -/

/-- What the record of a wait for output shows. -/
structure PollsInTime (deadline? : Option Instant) (result : Except Failure Bool)
    (tail : List Exchange) : Prop where
  timed : Timed deadline? tail
  late : result = .ok false → Overdue deadline? tail

namespace Runner

variable {h : Host σ} {r : Runner} {pid : Pid} {result : Except Failure Bool}

/-- The time for which output is waited for fits. -/
theorem fits_pollMillis {deadline now : Instant} (hleft : deadline - now ≠ 0) (pid : Pid)
    (answer : Except Errno Bool) :
    (Exchange.pollOutput pid (pollMillis (deadline - now)) answer).Fits deadline now := by
  refine ⟨Nat.lt_of_sub_ne_zero hleft, Nat.le_max_left _ _, ?_, ?_⟩
  · simp only [pollMillis, longestPoll]
    omega
  · simp only [pollMillis]
    omega

/-- **A wait for output keeps to the deadline.** -/
theorem pollsInTime_of_waitReadable (fuel : Nat) :
    ∀ {s t : Session (Recorded σ)}, (r.waitReadable h.recorded pid fuel).on s = (result, t) →
      ∃ tail, t.record = s.record ++ tail ∧ PollsInTime r.deadline result tail := by
  induction fuel with
  | zero =>
      intro s t hrun
      obtain ⟨rfl, rfl⟩ := Prod.mk.inj hrun
      exact ⟨[], (List.append_nil _).symm, timed_of_calm (List.forall_mem_nil _), by rintro ⟨⟩⟩
  | succ fuel ih =>
      intro s t hrun
      cases hdeadline : r.deadline with
      | none =>
          simp only [waitReadable, hdeadline] at hrun
          obtain ⟨rfl, rfl⟩ := Prod.mk.inj hrun
          exact ⟨[], (List.append_nil _).symm, timed_of_calm (List.forall_mem_nil _), by rintro ⟨⟩⟩
      | some deadline =>
          rw [hdeadline] at ih
          rw [on_waitReadable h.recorded pid hdeadline] at hrun
          by_cases hleft : deadline - (h.recorded.now s.machine).1 = 0
          · rw [if_pos hleft] at hrun
            obtain ⟨rfl, rfl⟩ := Prod.mk.inj hrun
            refine ⟨[.now (h.now s.machine.1).1], rfl, timed_of_calm ?_, fun _ => ?_⟩
            · exact List.forall_mem_singleton.mpr id
            · exact overdue_now (Nat.le_of_sub_eq_zero hleft) (List.forall_mem_nil _)
          · rw [if_neg hleft] at hrun
            simp only at hrun
            rcases hpoll : h.recorded.pollOutput pid
              (pollMillis (deadline - (h.recorded.now s.machine).1))
              (h.recorded.now s.machine).2 with ⟨answer, m⟩
            rw [hpoll] at hrun
            have hround : m.2 = s.record ++ [.now (h.now s.machine.1).1,
                .pollOutput pid (pollMillis (deadline - (h.now s.machine.1).1)) answer] := by
              obtain ⟨rfl, rfl⟩ := Prod.mk.inj hpoll
              exact List.append_assoc s.machine.2 _ _
            have htimed := timed_pause (fits_pollMillis hleft pid answer)
            -- what follows a pause that came to nothing is the record of another wait
            have hagain : (r.waitReadable h.recorded pid fuel).on ⟨s.nextRelay, m⟩ = (result, t) →
                ∃ tail, t.record = s.record ++ tail ∧ PollsInTime (some deadline) result tail := by
              intro hrest
              obtain ⟨tail, hrecord, hintime⟩ := ih hrest
              refine ⟨_, ?_, htimed.append hintime.timed,
                fun hfalse => (hintime.late hfalse).append_left _⟩
              rw [hrecord, Session.record, hround, List.append_assoc]
              rfl
            rcases answer with e | _ | _
            · by_cases he : e = .interrupted
              · simp only [he, if_true] at hrun
                exact hagain hrun
              · simp only [he, if_false] at hrun
                obtain ⟨rfl, rfl⟩ := Prod.mk.inj hrun
                exact ⟨_, hround, htimed, by rintro ⟨⟩⟩
            · exact hagain hrun
            · obtain ⟨rfl, rfl⟩ := Prod.mk.inj hrun
              exact ⟨_, hround, htimed, by rintro ⟨⟩⟩

end Runner

/-! ## Waiting for a child -/

/-- What the record of a wait for a child shows. -/
structure SleepsInTime (deadline? : Option Instant) (pid : Pid) (result : Except Failure Status)
    (tail : List Exchange) : Prop where
  timed : Timed deadline? tail
  late {f : Failure} : result = .error f → f.kind = .timeout → Overdue deadline? tail
  /-- No look has seen an end that is not returned. -/
  seen {answer : Except Errno WaitReport} {status : Status} :
    .wait pid true answer ∈ tail → toldEnd? answer = some status → result = .ok status

namespace Child

variable {h : Host σ} {pid : Pid} {c c' : Child} {s t : Session (Recorded σ)}

/-- A record of looks at a process; if one of them has seen an end, then that is what they have
come to. -/
def Looks (pid : Pid) (result : Except Errno (Option Status)) (tail : List Exchange) : Prop :=
  ∀ x ∈ tail, ∃ answer, x = .wait pid true answer ∧
    ∀ status, toldEnd? answer = some status → result = .ok (some status)

theorem looks_lookForEnd (fuel : Nat) :
    ∀ {s t : Session (Recorded σ)} {result : Except Errno (Option Status)},
      (lookForEnd h.recorded pid fuel).on s = (result, t) →
        ∃ tail, t.record = s.record ++ tail ∧ Looks pid result tail := by
  induction fuel with
  | zero =>
      intro s t result hrun
      obtain ⟨rfl, rfl⟩ := Prod.mk.inj hrun
      exact ⟨[], (List.append_nil _).symm, List.forall_mem_nil _⟩
  | succ fuel ih =>
      intro s t result hrun
      obtain ⟨answer, u, hcall, hcases⟩ := lookForEnd_cases hrun
      have hlook : u.record = s.record ++ [.wait pid true answer] := by
        obtain ⟨rfl, rfl⟩ := Prod.mk.inj hcall
        rfl
      rcases hcases with ⟨rfl, hrest⟩ | ⟨-, rfl, rfl⟩
      · obtain ⟨tail, hrecord, htail⟩ := ih hrest
        refine ⟨_ :: tail, by rw [hrecord, hlook, List.append_assoc]; rfl, ?_⟩
        exact List.forall_mem_cons.mpr ⟨⟨_, rfl, by rintro _ ⟨⟩⟩, htail⟩
      · refine ⟨_, hlook, List.forall_mem_singleton.mpr ⟨_, rfl, fun status htold => ?_⟩⟩
        cases answer with
        | ok report => exact congrArg Except.ok htold
        | error e => cases htold

/-- A child that no look has seen the end of is as it was. -/
theorem looks_tryWait {result : Except Errno (Option Status)} (hc : c.status = none)
    (hrun : (c.tryWait h.recorded).on s = ((result, c'), t)) :
    (∃ tail, t.record = s.record ++ tail ∧ Looks c.pid result tail) ∧
      (result = .ok none → c' = c) := by
  obtain ⟨hlook, rfl⟩ := tryWait_cases hc hrun
  refine ⟨looks_lookForEnd _ hlook, ?_⟩
  rintro rfl
  exact congrArg (fun status => { c with status := status }) hc.symm

section Parting

variable (h : Host σ) (c : Child) (s : Session (Recorded σ))

private theorem same_patience (u v : Session (Recorded σ))
    (huv : Same (Grows Exchange.IsParting s) u v) :
    h.recorded.patience u.machine = h.recorded.patience v.machine := by rw [huv.1]

private theorem keeps_parting :
    Agree (Same (Grows Exchange.IsParting s)) (Host.call (h.recorded.wait c.pid false))
      (Host.call (h.recorded.wait c.pid false)) :=
  Keeps.agree (Grows.call (P := Exchange.IsParting) fun _ => rfl)

/-- No more is done to give a child up than to send it the signal and to wait for it. -/
theorem grows_killAndReap : Grows Exchange.IsParting s ((c.killAndReap h.recorded).on s).2 :=
  Agree.keeps (Agree.killAndReap (same_patience h s)
    (Keeps.agree (Grows.call fun _ => trivial)) (keeps_parting h c s)
    fun _ => Keeps.agree (Grows.change trivial)) s (.refl _ s)

theorem grows_wait : Grows Exchange.IsParting s ((c.wait h.recorded).on s).2 :=
  Agree.keeps (Agree.childWait (same_patience h s) (keeps_parting h c s)) s (.refl _ s)

end Parting

/-- Looks let no time pass, and do not read the clock. -/
theorem Looks.timed {result : Except Errno (Option Status)} {tail : List Exchange}
    {deadline? : Option Instant} (htail : Looks pid result tail) : Timed deadline? tail := by
  refine timed_of_calm fun x hx => ?_
  obtain ⟨answer, rfl, -⟩ := htail x hx
  exact id

/-- What looks have seen is what they have come to. -/
theorem Looks.seen {result : Except Errno (Option Status)} {tail : List Exchange}
    {answer : Except Errno WaitReport} {status : Status} (htail : Looks pid result tail)
    (hmem : .wait pid true answer ∈ tail) (htold : toldEnd? answer = some status) :
    result = .ok (some status) := by
  obtain ⟨answer', heq, hresult⟩ := htail _ hmem
  obtain ⟨-, -, rfl⟩ := Exchange.wait.inj heq
  exact hresult status htold

/-- Nothing is shown by nothing, unless it is said that the time is up. -/
theorem sleepsInTime_nil {deadline? : Option Instant} {result : Except Failure Status}
    (hresult : ∀ f, result = .error f → f.kind ≠ .timeout) :
    SleepsInTime deadline? pid result [] where
  timed := timed_of_calm (List.forall_mem_nil _)
  late heq hkind := absurd hkind (hresult _ heq)
  seen hmem := absurd hmem List.not_mem_nil

section Turns

variable {deadline now : Instant} {result : Except Failure Status}
  {looks parting tail : List Exchange}

/-- A turn that goes on has looked, and then has read the clock. -/
theorem looks_read {c₁ : Child} {s₁ s₂ : Session (Recorded σ)} (hc : c.status = none)
    (htry : (c.tryWait h.recorded).on s = ((.ok none, c₁), s₁))
    (hnow : (Host.call h.recorded.now).on s₁ = (now, s₂)) :
    c₁ = c ∧ ∃ looks, Looks c.pid (.ok none) looks ∧
      s₂.record = s.record ++ (looks ++ [.now now]) := by
  obtain ⟨⟨looks, hlooked, hlooks⟩, hsame⟩ := looks_tryWait hc htry
  obtain ⟨rfl, rfl⟩ := Prod.mk.inj hnow
  refine ⟨hsame rfl, looks, hlooks, ?_⟩
  rw [← List.append_assoc, ← hlooked]
  rfl

/-- The turn in which the child is given up: the clock says that it is late. -/
theorem sleepsInTime_late (hlooks : Looks pid (.ok none) looks) (hlate : deadline ≤ now)
    (hparting : ∀ x ∈ parting, x.IsParting) :
    SleepsInTime (some deadline) pid result (looks ++ (.now now :: parting)) := by
  have hover : Overdue (some deadline) (.now now :: parting) :=
    overdue_now hlate fun x hx => (hparting x hx).not_isReading
  refine ⟨hlooks.timed.append (timed_of_calm ?_), fun _ _ => hover.append_left looks,
    fun hmem htold => ?_⟩
  · exact List.forall_mem_cons.mpr ⟨id, fun x hx => (hparting x hx).not_isPause⟩
  · rcases List.mem_append.mp hmem with hmem | hmem
    · cases hlooks.seen hmem htold
    · rcases List.mem_cons.mp hmem with heq | hmem
      · cases heq
      · exact absurd rfl ((hparting _ hmem).ne_look _ _)

/-- A turn in which the child is slept for: the sleep takes no longer than is left, and the turns
that follow show the rest. -/
theorem sleepsInTime_again (hlooks : Looks pid (.ok none) looks) (hleft : now < deadline)
    (htail : SleepsInTime (some deadline) pid result tail) :
    SleepsInTime (some deadline) pid result
      (looks ++ ([.now now, .sleep (min (deadline - now) pollInterval)] ++ tail)) := by
  have hfits : (Exchange.sleep (min (deadline - now) pollInterval)).Fits deadline now :=
    ⟨hleft, Nat.min_le_left _ _⟩
  refine ⟨hlooks.timed.append ((timed_pause hfits).append htail.timed),
    fun hresult hkind => ((htail.late hresult hkind).append_left _).append_left looks,
    fun hmem htold => ?_⟩
  rcases List.mem_append.mp hmem with hmem | hmem
  · cases hlooks.seen hmem htold
  · rcases List.mem_append.mp hmem with hmem | hmem
    · simp at hmem
    · exact htail.seen hmem htold

end Turns

/-- **Looking and sleeping in turn keeps to the deadline.**  Before every sleep and before the
child is given up, a look has seen no end. -/
theorem sleepsInTime_of_pollUntil {deadline : Instant} (hc : c.status = none) (fuel : Nat) :
    ∀ {s t : Session (Recorded σ)} {c' : Child} {result : Except Failure Status},
      (c.pollUntil h.recorded deadline fuel).on s = ((result, c'), t) →
        ∃ tail, t.record = s.record ++ tail ∧
          SleepsInTime (some deadline) c.pid result tail := by
  induction fuel with
  | zero =>
      intro s t c' result hrun
      obtain ⟨hpair, rfl⟩ := Prod.mk.inj hrun
      obtain ⟨rfl, rfl⟩ := Prod.mk.inj hpair
      exact ⟨[], (List.append_nil _).symm, sleepsInTime_nil (by rintro _ ⟨⟩ ⟨⟩)⟩
  | succ fuel ih =>
      intro s t c' result hrun
      cases round_of_pollUntil hrun with
      | failed htry =>
          obtain ⟨⟨looks, hlooked, hlooks⟩, -⟩ := looks_tryWait hc htry
          refine ⟨looks, hlooked, hlooks.timed, ?_, fun hmem htold => ?_⟩
          · rintro f ⟨⟩ hkind
            cases hkind
          · cases hlooks.seen hmem htold
      | ended htry =>
          obtain ⟨⟨looks, hlooked, hlooks⟩, -⟩ := looks_tryWait hc htry
          refine ⟨looks, hlooked, hlooks.timed, by rintro _ ⟨⟩, fun hmem htold => ?_⟩
          rw [Option.some.inj (Except.ok.inj (hlooks.seen hmem htold))]
      | late htry hnow hlate hgive =>
          obtain ⟨rfl, looks, hlooks, hrecord⟩ := looks_read hc htry hnow
          obtain ⟨parting, hparted, hparting⟩ := grows_killAndReap h _ _
          rw [hgive, hrecord, List.append_assoc, List.append_assoc] at hparted
          exact ⟨_, hparted, sleepsInTime_late hlooks hlate hparting⟩
      | @again _ _ _ s₂ _ now _ htry hnow hleft hrest =>
          obtain ⟨rfl, looks, hlooks, hrecord⟩ := looks_read hc htry hnow
          obtain ⟨tail, hrested, hintime⟩ := ih hrest
          have hslept : t.record = s₂.record ++ [.sleep (min (deadline - now) pollInterval)]
              ++ tail := hrested
          refine ⟨_, ?_, sleepsInTime_again hlooks hleft hintime⟩
          rw [hslept, hrecord]
          simp

/-- Without a deadline there are neither pauses nor looks. -/
private theorem sleepsInTime_of_wait {result : Except Errno Status}
    (hrun : (c.wait h.recorded).on s = ((result, c'), t)) :
    ∃ tail, t.record = s.record ++ tail ∧
      SleepsInTime none c.pid (result.mapError .ofErrno) tail := by
  obtain ⟨tail, hrecord, htail⟩ := grows_wait h c s
  rw [hrun] at hrecord
  refine ⟨tail, hrecord, timed_of_calm fun x hx => (htail x hx).not_isPause, ?_, fun hmem _ =>
    absurd rfl ((htail _ hmem).ne_look _ _)⟩
  intro f hresult hkind
  cases result with
  | ok status => cases hresult
  | error e =>
      obtain rfl := Except.error.inj hresult
      cases hkind

/-- **A wait for a child keeps to the deadline.** -/
theorem sleepsInTime_of_waitUntil {deadline? : Option Instant} {result : Except Failure Status}
    (hrun : (c.waitUntil h.recorded deadline?).on s = ((result, c'), t)) :
    ∃ tail, t.record = s.record ++ tail ∧ SleepsInTime deadline? c.pid result tail := by
  rcases waitUntil_cases hrun with ⟨rfl, answer, hwait, rfl⟩ | ⟨deadline, rfl, hpoll⟩
  · exact sleepsInTime_of_wait hwait
  · cases hc : c.status with
    | none => exact sleepsInTime_of_pollUntil hc _ hpoll
    | some status =>
        rcases Nat.eq_zero_or_pos (h.recorded.patience s.machine) with hzero | hpos
        · rw [hzero] at hpoll
          obtain ⟨hpair, rfl⟩ := Prod.mk.inj hpoll
          obtain ⟨rfl, rfl⟩ := Prod.mk.inj hpair
          exact ⟨[], (List.append_nil _).symm, sleepsInTime_nil (by rintro _ ⟨⟩ ⟨⟩)⟩
        · rw [on_waitUntil_known hpos hc] at hrun
          obtain ⟨hpair, rfl⟩ := Prod.mk.inj hrun
          obtain ⟨rfl, rfl⟩ := Prod.mk.inj hpair
          exact ⟨[], (List.append_nil _).symm, sleepsInTime_nil (by rintro _ ⟨⟩)⟩

end Child

end CommandExpr
