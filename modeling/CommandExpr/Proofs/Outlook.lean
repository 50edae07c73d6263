import CommandExpr.Proofs.Tending

/-!
# What waits will say

A host may answer a wait for a process with an interruption or with a change of
state that is no end, as often as it likes, and then tells of the end once.
After that nothing is known: the number of the process may be that of another.
An `Outlook` on a process says, of each state of the machine, how many more such
answers there may be and which ends may follow, and a host that `Attends` to the
process keeps to it.

What the host answers may depend on everything, the answers before included; the
outlook is a bound on it.  In particular a signal may change the end, as killing
a process does.

Operations on a child come to the end within the patience of the host, whether
they wait or look, and whatever is answered meanwhile.

## Main definitions

* `Outlook`, `Host.Attends` — what waits for a process will say

## Main results

* `Host.Attends.wait`, `Host.Attends.tryWait`, `Host.Attends.waitUntil`,
  `Host.Attends.killAndReap` — what operations on a child come to.
-/

namespace CommandExpr

variable {σ : Type}

/-- What the answer of a wait says for good: an end, or that the process cannot be
waited for. -/
def verdict? : Except Errno WaitReport → Option (Except Errno Status)
  | .ok report => report.status?.map .ok
  | .error e => if e = .interrupted then none else some (.error e)

/-- What is still to come of the waits for a process. -/
structure Outlook (σ : Type) where
  /-- How many waits may still say nothing for good; none if nothing is known of
  them, as when the end was told of already. -/
  left : σ → Option Nat
  /-- What may be said for good. -/
  ends : σ → Except Errno Status → Prop

namespace Outlook

/-- A wait is still to say something for good, and what has happened since has not
put it off or made more things possible. -/
def Onward (o : Outlook σ) (m m' : σ) : Prop :=
  ∀ n, o.left m = some n →
    (∃ k ≤ n, o.left m' = some k) ∧ ∀ v, o.ends m' v → o.ends m v

/-- What an answer makes of the outlook: what was said for good was to be expected,
and after any other answer there are fewer of those to come. -/
def After (o : Outlook σ) (m : σ) : Option (Except Errno Status) → σ → Prop
  | some v, _ => o.ends m v
  | none, m' => ∀ n, o.left m = some n →
      (∃ k < n, o.left m' = some k) ∧ ∀ v, o.ends m' v → o.ends m v

variable {o : Outlook σ} {m m' m'' : σ} {v? : Option (Except Errno Status)}

theorem Onward.refl (o : Outlook σ) (m : σ) : o.Onward m m :=
  fun n hn => ⟨⟨n, le_rfl, hn⟩, fun _ hv => hv⟩

theorem Onward.trans (hm : o.Onward m m') (hm' : o.Onward m' m'') : o.Onward m m'' := by
  intro n hn
  obtain ⟨⟨k, hk, hleft⟩, hends⟩ := hm n hn
  obtain ⟨⟨j, hj, hleft'⟩, hends'⟩ := hm' k hleft
  exact ⟨⟨j, hj.trans hk, hleft'⟩, fun v hv => hends v (hends' v hv)⟩

theorem After.onward (ha : o.After m none m') : o.Onward m m' := by
  intro n hn
  obtain ⟨⟨k, hk, hleft⟩, hends⟩ := ha n hn
  exact ⟨⟨k, hk.le, hleft⟩, hends⟩

/-- What goes before an answer and says nothing for good does not count. -/
theorem Onward.after {n : Nat} (hn : o.left m = some n) (hm : o.Onward m m')
    (ha : o.After m' v? m'') : o.After m v? m'' := by
  obtain ⟨⟨k, hk, hleft⟩, hends⟩ := hm n hn
  cases v? with
  | some v => exact hends v ha
  | none =>
      intro n' hn'
      obtain rfl := Option.some.inj (hn.symm.trans hn')
      obtain ⟨⟨j, hj, hleft'⟩, hends'⟩ := ha k hleft
      exact ⟨⟨j, hj.trans_le hk, hleft'⟩, fun v hv => hends v (hends' v hv)⟩

/-- Nothing else counts either. -/
theorem After.onward_right (ha : o.After m none m') (hm : o.Onward m' m'') :
    o.After m none m'' := by
  intro n hn
  obtain ⟨⟨k, hk, hleft⟩, hends⟩ := ha n hn
  obtain ⟨⟨j, hj, hleft'⟩, hends'⟩ := hm k hleft
  exact ⟨⟨j, hj.trans_lt hk, hleft'⟩, fun v hv => hends v (hends' v hv)⟩

end Outlook

/-- Waits for a process come out as the outlook says, and what is done besides
waiting for it leaves the outlook as it is; but when it is sent a signal, then
another end may follow. -/
structure Host.Attends (h : Host σ) (pid : Pid) (o : Outlook σ) : Prop where
  patience_pos (m : σ) : 0 < h.patience m
  patience {m : σ} {n : Nat} : o.left m = some n → n < h.patience m
  wait {m : σ} {n : Nat} (look : Bool) : o.left m = some n →
    o.After m (verdict? (h.wait pid look m).1) (h.wait pid look m).2
  kill {m : σ} {n : Nat} (signal : Signal) : o.left m = some n →
    (∃ k ≤ n, o.left (h.kill pid signal m).2 = some k) ∧
      ∀ v, o.ends (h.kill pid signal m).2 v → o.ends m v ∨ v.isOk = true
  now (m : σ) : o.Onward m (h.now m).2
  sleep (time : Nat) (m : σ) : o.Onward m (h.sleep time m)
  tell (message : Message) (m : σ) : o.Onward m (h.tell message m)

/-- None of the calls with which the runner looks after a program stands in the way of
an end that is still to be told. -/
structure Outlook.Undisturbed (o : Outlook σ) (h : Host σ) : Prop where
  readReport (pid : Pid) (count : Nat) (m : σ) : o.Onward m (h.readReport pid count m).2
  readOutput (pid : Pid) (count : Nat) (m : σ) : o.Onward m (h.readOutput pid count m).2
  pollOutput (pid : Pid) (millis : Nat) (m : σ) : o.Onward m (h.pollOutput pid millis m).2
  hangUp (pid : Pid) (m : σ) : o.Onward m (h.hangUp pid m)
  close (handle : Handle) (m : σ) : o.Onward m (h.close handle m)

namespace Host.Attends

variable {h : Host σ} {pid : Pid} {o : Outlook σ} {c c' : Child} {s t : Session σ} {n : Nat}

theorem noted (ha : h.Attends pid o) (s : Session σ) (n : Notice) :
    o.Onward s.machine (s.noted h n).machine := ha.tell (.notice n) s.machine

/-- The answer of one wait. -/
private theorem after_wait (ha : h.Attends pid o) {look : Bool}
    {answer : Except Errno WaitReport} (hn : o.left s.machine = some n)
    (hcall : (Host.call (h.wait pid look)).on s = (answer, t)) :
    o.After s.machine (verdict? answer) t.machine := by
  obtain ⟨rfl, rfl⟩ := Prod.mk.inj hcall
  exact ha.wait look hn

/-- Waiting comes to what is said for good. -/
theorem awaitEnd (ha : h.Attends pid o) (fuel : Nat) :
    ∀ {s t : Session σ} {n : Nat} {v : Except Errno Status}, o.left s.machine = some n →
      n < fuel → (Child.awaitEnd h pid fuel).on s = (v, t) →
        o.After s.machine (some v) t.machine := by
  induction fuel with
  | zero =>
      intro s t n v _ hfuel
      exact absurd hfuel (Nat.not_lt_zero n)
  | succ fuel ih =>
      intro s t n v hn hfuel hrun
      rcases hcall : (Host.call (h.wait pid false)).on s with ⟨answer, s₁⟩
      have hafter := ha.after_wait hn hcall
      rw [Child.awaitEnd, Action.on_bind_of _ hcall] at hrun
      -- what remains is waited for, if the answer says nothing for good
      have hloop : verdict? answer = none → (Child.awaitEnd h pid fuel).on s₁ = (v, t) →
          o.After s.machine (some v) t.machine := by
        intro hnone hrest
        rw [hnone] at hafter
        obtain ⟨⟨k, hk, hleft⟩, -⟩ := hafter n hn
        exact hafter.onward.after hn (ih hleft (by omega) hrest)
      cases answer with
      | ok report =>
          cases hreport : report.status? with
          | some status =>
              simp only [hreport] at hrun
              rw [verdict?, hreport] at hafter
              obtain ⟨rfl, rfl⟩ := Prod.mk.inj hrun
              exact hafter
          | none =>
              simp only [hreport] at hrun
              exact hloop (by rw [verdict?, hreport, Option.map_none]) hrun
      | error e =>
          by_cases he : e = .interrupted
          · simp only [he, if_true] at hrun
            exact hloop (by rw [verdict?, if_pos he]) hrun
          · simp only [he, if_false] at hrun
            rw [verdict?, if_neg he] at hafter
            obtain ⟨rfl, rfl⟩ := Prod.mk.inj hrun
            exact hafter

/-- A look comes to what is said for good, or to nothing yet. -/
theorem lookForEnd (ha : h.Attends pid o) (fuel : Nat) :
    ∀ {s t : Session σ} {n : Nat} {result : Except Errno (Option Status)},
      o.left s.machine = some n → n < fuel →
        (Child.lookForEnd h pid fuel).on s = (result, t) →
          ∃ v? : Option (Except Errno Status), result = v?.elim (.ok none) (·.map some)
            ∧ o.After s.machine v? t.machine := by
  induction fuel with
  | zero =>
      intro s t n result _ hfuel
      exact absurd hfuel (Nat.not_lt_zero n)
  | succ fuel ih =>
      intro s t n result hn hfuel hrun
      obtain ⟨answer, s₁, hcall, ⟨rfl, hrest⟩ | ⟨hanswer, rfl, rfl⟩⟩ := Child.lookForEnd_cases hrun
      · have hafter := ha.after_wait hn hcall
        rw [verdict?, if_pos rfl] at hafter
        obtain ⟨⟨k, hk, hleft⟩, -⟩ := hafter n hn
        obtain ⟨v?, hresult, hdone⟩ := ih hleft (by omega) hrest
        exact ⟨v?, hresult, hafter.onward.after hn hdone⟩
      · refine ⟨_, ?_, ha.after_wait hn hcall⟩
        cases answer with
        | ok report =>
            rw [verdict?, Except.map]
            cases report.status? <;> rfl
        | error e =>
            rw [verdict?, if_neg fun he => hanswer (congrArg _ he)]
            rfl

/-- **A wait comes to what is said for good.** -/
theorem childWait (ha : h.Attends c.pid o) (hn : o.left s.machine = some n)
    (hc : c.status = none) {result : Except Errno Status}
    (hrun : (c.wait h).on s = ((result, c'), t)) :
    c' = { c with status := result.toOption } ∧ o.ends s.machine result := by
  obtain ⟨hawait, rfl⟩ := Child.wait_cases hc hrun
  exact ⟨rfl, ha.awaitEnd _ hn (ha.patience hn) hawait⟩

/-- **A look comes to what is said for good, or to nothing yet.** -/
theorem tryWait (ha : h.Attends c.pid o) (hn : o.left s.machine = some n)
    (hc : c.status = none) {result : Except Errno (Option Status)}
    (hrun : (c.tryWait h).on s = ((result, c'), t)) :
    ∃ v? : Option (Except Errno Status), result = v?.elim (.ok none) (·.map some)
      ∧ c' = { c with status := v?.bind Except.toOption } ∧ o.After s.machine v? t.machine := by
  obtain ⟨hlook, rfl⟩ := Child.tryWait_cases hc hrun
  obtain ⟨v?, rfl, hafter⟩ := ha.lookForEnd _ hn (ha.patience hn) hlook
  refine ⟨v?, rfl, ?_, hafter⟩
  rcases v? with _ | _ | status <;> rfl

/-- Giving a child up comes to what is said for good after the signal. -/
theorem killAndReap_of_left (ha : h.Attends c.pid o)
    (hn : o.left (h.kill c.pid .kill s.machine).2 = some n) (hc : c.status = none)
    (hrun : (c.killAndReap h).on s = (c', t)) :
    ∃ v : Except Errno Status, c' = { c with status := v.toOption }
      ∧ o.ends (h.kill c.pid .kill s.machine).2 v := by
  obtain ⟨killed, result, s₁, s₂, s₃, notice, hkill, hnoted, hwait, rfl⟩ :=
    Child.killAndReap_cases hc hrun
  have hmachine : s₁.machine = (h.kill c.pid .kill s.machine).2 := by
    rcases hcall : (Host.call (h.kill c.pid .kill)).on s with ⟨answer, u⟩
    rw [Child.kill, Action.on_bind_of _ hcall] at hkill
    obtain ⟨rfl, rfl⟩ := Prod.mk.inj hcall
    cases hanswer : (h.kill c.pid .kill s.machine).1 <;>
      · rw [hanswer] at hkill
        rw [← (Prod.mk.inj hkill).2]
  rw [← hmachine] at hn ⊢
  have honward : o.Onward s₁.machine s₂.machine := by
    rcases hnoted with rfl | ⟨notice, rfl⟩
    · exact .refl o _
    · exact ha.noted s₁ notice
  obtain ⟨⟨j, -, hleft⟩, hends⟩ := honward n hn
  obtain ⟨rfl, hend⟩ := ha.childWait hleft hc hwait
  exact ⟨result, rfl, hends result hend⟩

/-- **Giving a child up comes to what is said for good**, which is what could be said
before, or the end that the signal has brought. -/
theorem killAndReap (ha : h.Attends c.pid o) (hn : o.left s.machine = some n)
    (hc : c.status = none) (hrun : (c.killAndReap h).on s = (c', t)) :
    ∃ v : Except Errno Status, c' = { c with status := v.toOption }
      ∧ (o.ends s.machine v ∨ v.isOk = true) := by
  obtain ⟨⟨k, -, hleft⟩, hends⟩ := ha.kill .kill hn
  obtain ⟨v, rfl, hv⟩ := ha.killAndReap_of_left hleft hc hrun
  exact ⟨v, rfl, hends v hv⟩

/-- After a look that sees nothing the child is as it was, and there are fewer of them left. -/
private theorem look_and_now (ha : h.Attends c.pid o) (hn : o.left s.machine = some n)
    (hc : c.status = none) {c₁ : Child} {s₁ s₂ : Session σ} {now : Instant}
    (htry : (c.tryWait h).on s = ((.ok none, c₁), s₁))
    (hnow : (Host.call h.now).on s₁ = (now, s₂)) :
    c₁ = c ∧ o.After s.machine none s₂.machine := by
  obtain ⟨v?, htold, rfl, hafter⟩ := ha.tryWait hn hc htry
  obtain ⟨-, rfl⟩ := Prod.mk.inj hnow
  rcases v? with _ | e | status
  · exact ⟨by rw [Option.bind_none, ← hc], hafter.onward_right (ha.now s₁.machine)⟩
  · cases htold
  · cases htold

/-- Looks and sleeps in turn come to what is said for good, unless the clock has
passed the deadline, when the child is given up. -/
theorem pollUntil (ha : h.Attends c.pid o) {deadline : Instant} (hc : c.status = none)
    (fuel : Nat) :
    ∀ {s t : Session σ} {n : Nat} {c' : Child} {result : Except Failure Status},
      o.left s.machine = some n → n < fuel →
        (c.pollUntil h deadline fuel).on s = ((result, c'), t) →
          (∃ v, result = v.mapError .ofErrno ∧ c' = { c with status := v.toOption }
            ∧ o.ends s.machine v) ∨
          (result = .error (.stillRunning c.program) ∧ ∃ s₁ now s₂,
            o.Onward s.machine s₂.machine ∧ (Host.call h.now).on s₁ = (now, s₂)
            ∧ deadline ≤ now ∧ (c.killAndReap h).on s₂ = (c', t)) := by
  induction fuel with
  | zero =>
      intro s t n c' result _ hfuel
      exact absurd hfuel (Nat.not_lt_zero n)
  | succ fuel ih =>
      intro s t n c' result hn hfuel hrun
      cases Child.round_of_pollUntil hrun with
      | failed htry =>
          obtain ⟨v?, htold, hc', hafter⟩ := ha.tryWait hn hc htry
          rcases v? with _ | e | status
          · cases htold
          · obtain rfl := Except.error.inj htold
            exact .inl ⟨.error _, rfl, hc', hafter⟩
          · cases htold
      | ended htry =>
          obtain ⟨v?, htold, hc', hafter⟩ := ha.tryWait hn hc htry
          rcases v? with _ | e | status
          · cases htold
          · cases htold
          · obtain rfl := Option.some.inj (Except.ok.inj htold)
            exact .inl ⟨.ok _, rfl, hc', hafter⟩
      | late htry hnow hlate hgive =>
          obtain ⟨rfl, hafter⟩ := ha.look_and_now hn hc htry hnow
          obtain ⟨⟨k, -, hleft⟩, -⟩ := hafter.onward n hn
          obtain ⟨v, rfl, -⟩ := ha.killAndReap hleft hc hgive
          exact .inr ⟨rfl, _, _, _, hafter.onward, hnow, hlate, hgive⟩
      | @again _ _ _ s₂ _ now _ htry hnow _ hrest =>
          obtain ⟨rfl, hafter⟩ := ha.look_and_now hn hc htry hnow
          have hslept := hafter.onward_right
            (ha.sleep (min (deadline - now) Child.pollInterval) s₂.machine)
          obtain ⟨⟨k, hk, hleft⟩, -⟩ := hslept n hn
          rcases ih hleft (by omega) hrest with ⟨v, hresult, hc', hends⟩ | ⟨hresult, u, now', u',
            honward, hlate⟩
          · exact .inl ⟨v, hresult, hc', (hslept n hn).2 v hends⟩
          · exact .inr ⟨hresult, u, now', u', hslept.onward.trans honward, hlate⟩

/-- **A wait up to a deadline comes to what is said for good**, unless the clock has
passed the deadline before, when the child is given up. -/
theorem waitUntil (ha : h.Attends c.pid o) (hn : o.left s.machine = some n)
    (hc : c.status = none) {deadline : Option Instant} {result : Except Failure Status}
    (hrun : (c.waitUntil h deadline).on s = ((result, c'), t)) :
    (∃ v, result = v.mapError .ofErrno ∧ c' = { c with status := v.toOption }
      ∧ o.ends s.machine v) ∨
    (result = .error (.stillRunning c.program) ∧ ∃ due ∈ deadline, ∃ s₁ now s₂,
      o.Onward s.machine s₂.machine ∧ (Host.call h.now).on s₁ = (now, s₂) ∧ due ≤ now
      ∧ (c.killAndReap h).on s₂ = (c', t)) := by
  rcases Child.waitUntil_cases hrun with ⟨rfl, answer, hwait, rfl⟩ | ⟨due, rfl, hpoll⟩
  · obtain ⟨rfl, hends⟩ := ha.childWait hn hc hwait
    exact .inl ⟨answer, rfl, rfl, hends⟩
  · rcases ha.pollUntil hc _ hn (ha.patience hn) hpoll with htold | ⟨hresult, hlate⟩
    · exact .inl htold
    · exact .inr ⟨hresult, due, rfl, hlate⟩

end Host.Attends

/-! ## On record -/

/-- The outlook, seen past the record. -/
def Outlook.recorded (o : Outlook σ) : Outlook (Recorded σ) where
  left m := o.left m.1
  ends m := o.ends m.1

theorem Outlook.After.recorded {o : Outlook σ} {m m' : Recorded σ}
    {v? : Option (Except Errno Status)} (ha : o.After m.1 v? m'.1) :
    o.recorded.After m v? m' := by
  cases v? <;> exact ha

/-- A record changes nothing about the outlook. -/
theorem Host.Attends.recorded {h : Host σ} {pid : Pid} {o : Outlook σ}
    (ha : h.Attends pid o) : h.recorded.Attends pid o.recorded where
  patience_pos m := ha.patience_pos m.1
  patience hn := ha.patience hn
  wait look hn := .recorded (ha.wait look hn)
  kill signal hn := ha.kill signal hn
  now m := ha.now m.1
  sleep time m := ha.sleep time m.1
  tell message m := ha.tell message m.1

/-! ## Answers that are laid down -/

/-- How many of the answers say nothing for good, and what the first one says that
does. -/
def promise : List (Except Errno WaitReport) → Option (Nat × Except Errno Status)
  | [] => none
  | answer :: rest =>
    match verdict? answer with
    | some v => some (0, v)
    | none => (promise rest).map fun (n, v) => (n + 1, v)

/-- A machine on which it is laid down what waits will answer, and what will be read
of the report and of the output of a program. -/
structure Rehearsal where
  /-- The answers to the next waits for each process. -/
  answers : Pid → List (Except Errno WaitReport)
  /-- The answers to the next reads of a report. -/
  reports : List (Except Errno Bytes)
  /-- The answers to the next reads of an output. -/
  outputs : List (Except Errno Bytes)
  clock : Nat

namespace Rehearsal

/-- The answers to the next waits for a process are these. -/
def promising (m : Rehearsal) (pid : Pid) (answers : List (Except Errno WaitReport)) :
    Rehearsal :=
  { m with answers := fun other => if other = pid then answers else m.answers other }

/-- The calls of the machine; it has no files.  Waits for the process that is made
are answered by a script, and a process that is killed has died of it. -/
def host (script : List (Except Errno WaitReport)) : Host Rehearsal where
  patience _ := 8
  createNew _ m := (.error .accessDenied, m)
  openRead _ m := (.error .accessDenied, m)
  append _ _ m := (.error .badDescriptor, m)
  close _ m := m
  remove _ m := (.error .accessDenied, m)
  makePipe m := (.ok (), m)
  fork _ _ m := (.ok 1, m.promising 1 script)
  readReport _ _ m := (m.reports.headD (.ok []), { m with reports := m.reports.tail })
  readOutput _ _ m := (m.outputs.headD (.ok []), { m with outputs := m.outputs.tail })
  pollOutput _ _ m := (.ok true, m)
  hangUp _ m := m
  wait pid _ m :=
    ((m.answers pid).headD (.error .noChild), m.promising pid (m.answers pid).tail)
  kill pid _ m := (.ok (), m.promising pid [.ok (.signaled .kill false)])
  now m := (m.clock, m)
  sleep time m := { m with clock := m.clock + time }
  writeOut bytes m := (.ok bytes.length, m)
  tell _ m := m

/-- What the answers that are laid down come to, if that is within the patience. -/
def outlook (pid : Pid) : Outlook Rehearsal where
  left m := ((promise (m.answers pid)).map Prod.fst).filter (· < 8)
  ends m v := ∃ n, promise (m.answers pid) = some (n, v)

variable {script : List (Except Errno WaitReport)} {pid other : Pid} {m : Rehearsal}

theorem left_eq_some_iff {n : Nat} :
    (outlook pid).left m = some n ↔ n < 8 ∧ ∃ v, promise (m.answers pid) = some (n, v) := by
  simp [outlook, Option.filter_eq_some_iff, and_comm]

theorem answers_promising (m : Rehearsal) (pid : Pid) (answers : List (Except Errno WaitReport)) :
    (m.promising pid answers).answers pid = answers := if_pos rfl

/-- What is promised of other processes does not count. -/
theorem onward_promising (hne : other ≠ pid) (answers : List (Except Errno WaitReport)) :
    (outlook pid).Onward m (m.promising other answers) := by
  have hsame : (m.promising other answers).answers pid = m.answers pid :=
    if_neg hne.symm
  intro n hn
  refine ⟨⟨n, le_rfl, ?_⟩, ?_⟩
  · rwa [left_eq_some_iff, hsame, ← left_eq_some_iff]
  · rintro v ⟨k, hk⟩
    exact ⟨k, hsame ▸ hk⟩

theorem after_promising {answer : Except Errno WaitReport}
    {rest : List (Except Errno WaitReport)} (hanswers : m.answers pid = answer :: rest) :
    (outlook pid).After m (verdict? answer) (m.promising pid rest) := by
  have hpromise : promise (m.answers pid) = match verdict? answer with
      | some v => some (0, v)
      | none => (promise rest).map fun (n, v) => (n + 1, v) := by rw [hanswers, promise]
  cases hverdict : verdict? answer with
  | some v =>
      rw [hverdict] at hpromise
      exact ⟨0, hpromise⟩
  | none =>
      simp only [hverdict] at hpromise
      intro n hn
      obtain ⟨hlt, v, hv⟩ := left_eq_some_iff.mp hn
      rw [hpromise, Option.map_eq_some_iff] at hv
      obtain ⟨⟨k, v⟩, hrest, hpair⟩ := hv
      obtain ⟨rfl, rfl⟩ := Prod.mk.inj hpair
      refine ⟨⟨k, k.lt_succ_self, left_eq_some_iff.mpr ⟨by omega, v, ?_⟩⟩, ?_⟩
      · rw [answers_promising, hrest]
      · rintro v' ⟨j, hj⟩
        rw [answers_promising] at hj
        exact ⟨j + 1, by rw [hpromise, hj, Option.map_some]⟩

/-- **Waits come out as it is laid down.** -/
theorem attends (script : List (Except Errno WaitReport)) (pid : Pid) :
    (host script).Attends pid (outlook pid) where
  patience_pos _ := Nat.succ_pos 7
  patience hn := (left_eq_some_iff.mp hn).1
  wait {m n} look hn := by
    obtain ⟨hlt, v, hv⟩ := left_eq_some_iff.mp hn
    change (outlook pid).After m (verdict? ((m.answers pid).headD (.error .noChild)))
      (m.promising pid (m.answers pid).tail)
    cases hanswers : m.answers pid with
    | nil =>
        rw [hanswers, promise] at hv
        cases hv
    | cons answer rest => exact after_promising hanswers
  kill {m n} signal _ := by
    change (∃ k ≤ n, (outlook pid).left (m.promising pid _) = some k) ∧
      ∀ v, (outlook pid).ends (m.promising pid _) v → _
    refine ⟨⟨0, Nat.zero_le n, ?_⟩, ?_⟩
    · exact left_eq_some_iff.mpr ⟨by decide, _, by rw [answers_promising]; rfl⟩
    · rintro v ⟨k, hk⟩
      rw [answers_promising] at hk
      obtain ⟨-, rfl⟩ := Prod.mk.inj (Option.some.inj hk)
      exact .inr rfl
  now m := .refl _ m
  sleep time m := .refl _ m
  tell message m := .refl _ m

theorem undisturbed (script : List (Except Errno WaitReport)) (pid : Pid) :
    (outlook pid).Undisturbed (host script) where
  readReport _ _ m := .refl _ m
  readOutput _ _ m := .refl _ m
  pollOutput _ _ m := .refl _ m
  hangUp _ m := .refl _ m
  close _ m := .refl _ m

end Rehearsal

end CommandExpr
