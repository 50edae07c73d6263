import CommandExpr.Proofs.Recording
import CommandExpr.Proofs.Watching

/-!
# What a record shows of a child

A child is waited for, looked at, killed or given up, and whichever it is, what
the host says of its end in the meantime is just what the child remembers.  A
view of the record that picks the ends of a process (`Exchange.Shows`) grows by
the end that the child has come to know, after what else it picks of the waits
and signals, and by nothing if the child does not know of an end yet.

That is so on every host, whatever it answers, and whether or not the operation
succeeds.  Hosts on which an operation is bound to succeed are not of interest
here.

## Main definitions

* `Exchange.Shows` — a view that picks the ends of a process
* `Child.Tends` — an operation on a child that a view shows

## Main results

* `Child.tends_wait`, `Child.tends_tryWait`, `Child.tends_waitUntil`,
  `Child.tends_killAndReap` — they all are.
-/

namespace CommandExpr

variable {σ γ : Type}

/-- The end that the answer of a wait tells of, if it tells of one. -/
def toldEnd? (answer : Except Errno WaitReport) : Option Status :=
  answer.toOption.bind WaitReport.status?

/-- A view picks the ends of a process, and of what else is done with it only what
are touches. -/
structure Exchange.Shows (f : Exchange → Option γ) (pid : Pid) (IsTouch : γ → Prop)
    (ended : Status → γ) : Prop where
  now : ∀ a, f (.now a) = none
  sleep : ∀ time, f (.sleep time) = none
  tell : ∀ m, f (.tell m) = none
  kill : ∀ signal answer, ∀ x ∈ f (.kill pid signal answer), IsTouch x
  idle : ∀ look answer, toldEnd? answer = none → ∀ x ∈ f (.wait pid look answer), IsTouch x
  ending : ∀ look answer status, toldEnd? answer = some status →
    f (.wait pid look answer) = some (ended status)

/-- From one session to another a view grows by touches, and then by the end if
there is one. -/
def Adds (f : Exchange → Option γ) (IsTouch : γ → Prop) (ended : Status → γ)
    (s : Session (Recorded σ)) (status? : Option Status) (t : Session (Recorded σ)) : Prop :=
  ∃ touches : List γ, (∀ x ∈ touches, IsTouch x) ∧
    t.view f = s.view f ++ (touches ++ (status?.map ended).toList)

namespace Adds

variable {f : Exchange → Option γ} {IsTouch : γ → Prop} {ended : Status → γ}
  {s s₁ t : Session (Recorded σ)} {status? : Option Status}

theorem of_view_eq (hview : t.view f = s.view f) : Adds f IsTouch ended s none t :=
  ⟨[], List.forall_mem_nil _, by simp [hview]⟩

/-- What touches are added first changes nothing about the end. -/
theorem trans (hs : Adds f IsTouch ended s none s₁) (ht : Adds f IsTouch ended s₁ status? t) :
    Adds f IsTouch ended s status? t := by
  obtain ⟨xs, hxs, hs⟩ := hs
  obtain ⟨ys, hys, ht⟩ := ht
  refine ⟨xs ++ ys, List.forall_mem_append.mpr ⟨hxs, hys⟩, ?_⟩
  rw [ht, hs]
  simp

/-- What leaves the view alone can follow. -/
theorem trans_view_eq (hs : Adds f IsTouch ended s status? s₁) (hview : t.view f = s₁.view f) :
    Adds f IsTouch ended s status? t := by
  obtain ⟨xs, hxs, hs⟩ := hs
  exact ⟨xs, hxs, hview.trans hs⟩

end Adds

namespace Child

/-- An operation leaves the child with the end that the view has grown by. -/
structure Tends (f : Exchange → Option γ) (IsTouch : γ → Prop) (ended : Status → γ) (c : Child)
    (s : Session (Recorded σ)) (c' : Child) (t : Session (Recorded σ)) : Prop where
  /-- It is the same process of the same program. -/
  child : c' = { c with status := c'.status }
  view : Adds f IsTouch ended s c'.status t

variable {f : Exchange → Option γ} {IsTouch : γ → Prop} {ended : Status → γ}
  {h : Host σ} {pid : Pid} {c c' : Child} {s t : Session (Recorded σ)}

/-- A child that knows of no end is as it was. -/
theorem Tends.eq_of_status_eq {c₁ : Child} {s₁ : Session (Recorded σ)} (hc : c.status = none)
    (ht : Tends f IsTouch ended c s c₁ s₁) (hc₁ : c₁.status = none) : c₁ = c := by
  rw [ht.child, hc₁, ← hc]

/-- What is done with a child whose end is not known yet can be what went before. -/
theorem Tends.trans {c₁ : Child} {s₁ : Session (Recorded σ)} (hc : c.status = none)
    (hs : Tends f IsTouch ended c s c₁ s₁) (hc₁ : c₁.status = none)
    (ht : Tends f IsTouch ended c₁ s₁ c' t) : Tends f IsTouch ended c s c' t := by
  obtain rfl := hs.eq_of_status_eq hc hc₁
  have hfirst := hs.view
  rw [hc₁] at hfirst
  exact ⟨ht.child, hfirst.trans ht.view⟩

section Views

variable (w : Exchange.Shows f c.pid IsTouch ended)

include w

/-- The answer of a wait adds the end that it tells of. -/
private theorem adds_wait {look : Bool} {answer : Except Errno WaitReport}
    (hcall : (Host.call (h.recorded.wait c.pid look)).on s = (answer, t)) :
    Adds f IsTouch ended s (toldEnd? answer) t := by
  have hview : t.view f = s.view f ++ (f (.wait c.pid look answer)).toList :=
    view_of_recordCall hcall
  cases htold : toldEnd? answer with
  | some status =>
      rw [w.ending look answer status htold] at hview
      exact ⟨[], List.forall_mem_nil _, hview⟩
  | none =>
      refine ⟨(f (.wait c.pid look answer)).toList, ?_, by simp [hview]⟩
      intro x hx
      exact w.idle look answer htold x (Option.mem_toList.mp hx)

private theorem view_note (n : Notice) : (s.noted h.recorded n).view f = s.view f :=
  view_noted h w.tell s n

/-- Waiting adds the end that it comes to. -/
theorem adds_awaitEnd (fuel : Nat) :
    ∀ {s t : Session (Recorded σ)} {result : Except Errno Status},
      (awaitEnd h.recorded c.pid fuel).on s = (result, t) →
        Adds f IsTouch ended s result.toOption t := by
  induction fuel with
  | zero =>
      intro s t result hrun
      obtain ⟨rfl, rfl⟩ := Prod.mk.inj hrun
      exact .of_view_eq rfl
  | succ fuel ih =>
      intro s t result hrun
      rcases hcall : (Host.call (h.recorded.wait c.pid false)).on s with ⟨answer, s₁⟩
      have hadds := adds_wait w hcall
      rw [awaitEnd, Action.on_bind_of _ hcall] at hrun
      cases answer with
      | ok report =>
          change Adds f IsTouch ended s report.status? s₁ at hadds
          cases hreport : report.status? with
          | some status =>
              simp only [hreport] at hrun hadds
              obtain ⟨rfl, rfl⟩ := Prod.mk.inj hrun
              exact hadds
          | none =>
              simp only [hreport] at hrun hadds
              exact hadds.trans (ih hrun)
      | error e =>
          by_cases he : e = .interrupted
          · simp only [he, if_true] at hrun
            exact hadds.trans (ih hrun)
          · simp only [he, if_false] at hrun
            obtain ⟨rfl, rfl⟩ := Prod.mk.inj hrun
            exact hadds

/-- A look adds the end that it sees, if it sees one. -/
theorem adds_lookForEnd (fuel : Nat) :
    ∀ {s t : Session (Recorded σ)} {result : Except Errno (Option Status)},
      (lookForEnd h.recorded c.pid fuel).on s = (result, t) →
        Adds f IsTouch ended s result.toOption.join t := by
  induction fuel with
  | zero =>
      intro s t result hrun
      obtain ⟨rfl, rfl⟩ := Prod.mk.inj hrun
      exact .of_view_eq rfl
  | succ fuel ih =>
      intro s t result hrun
      obtain ⟨answer, s₁, hcall, ⟨rfl, hrest⟩ | ⟨-, rfl, rfl⟩⟩ := lookForEnd_cases hrun
      · exact (adds_wait w hcall).trans (ih hrest)
      · have hadds := adds_wait w hcall
        cases answer with
        | ok report => exact hadds
        | error e => exact hadds

/-- **A child that is waited for** remembers what the wait answers with. -/
theorem tends_wait {result : Except Errno Status} (hc : c.status = none)
    (hrun : (c.wait h.recorded).on s = ((result, c'), t)) :
    Tends f IsTouch ended c s c' t ∧ c'.status = result.toOption := by
  obtain ⟨hawait, rfl⟩ := wait_cases hc hrun
  exact ⟨⟨rfl, adds_awaitEnd w _ hawait⟩, rfl⟩

/-- **A child that is looked at** remembers what the look has seen. -/
theorem tends_tryWait {result : Except Errno (Option Status)} (hc : c.status = none)
    (hrun : (c.tryWait h.recorded).on s = ((result, c'), t)) :
    Tends f IsTouch ended c s c' t ∧ c'.status = result.toOption.join := by
  obtain ⟨hlook, rfl⟩ := tryWait_cases hc hrun
  exact ⟨⟨rfl, adds_lookForEnd w _ hlook⟩, rfl⟩

/-- A signal adds nothing but touches, whether or not it could be sent. -/
private theorem adds_kill {signal : Signal} {result : Except Failure Unit}
    (hrun : (c.kill h.recorded signal).on s = (result, t)) :
    Adds f IsTouch ended s none t := by
  rcases hcall : (Host.call (h.recorded.kill c.pid signal)).on s with ⟨answer, s₁⟩
  have hview : s₁.view f = s.view f ++ (f (.kill c.pid signal answer)).toList :=
    view_of_recordCall hcall
  have hsession : t = s₁ := by
    rw [kill, Action.on_bind_of _ hcall] at hrun
    cases answer <;> exact (Prod.mk.inj hrun).2.symm
  refine ⟨(f (.kill c.pid signal answer)).toList, ?_, by simp [hsession, hview]⟩
  intro x hx
  exact w.kill signal answer x (Option.mem_toList.mp hx)

/-- **A child that is given up** before its end is known remembers what the wait for
it answers with. -/
theorem tends_killAndReap (hc : c.status = none)
    (hrun : (c.killAndReap h.recorded).on s = (c', t)) : Tends f IsTouch ended c s c' t := by
  obtain ⟨killed, result, s₁, s₂, s₃, n, hkill, hnoted, hwait, rfl⟩ :=
    killAndReap_cases hc hrun
  have hkilled : Adds f IsTouch ended s none s₂ := by
    rcases hnoted with rfl | ⟨n, rfl⟩
    · exact adds_kill w hkill
    · exact (adds_kill w hkill).trans_view_eq (view_note w n)
  obtain ⟨htends, -⟩ := tends_wait w hc hwait
  exact ⟨htends.child, (hkilled.trans htends.view).trans_view_eq (view_note w n)⟩

/-- A look that sees nothing leaves the child as it is, and reading the clock adds nothing. -/
private theorem adds_look_and_now {c₁ : Child} {s₁ s₂ : Session (Recorded σ)} {now : Instant}
    (hc : c.status = none) (htry : (c.tryWait h.recorded).on s = ((.ok none, c₁), s₁))
    (hnow : (Host.call h.recorded.now).on s₁ = (now, s₂)) :
    c₁ = c ∧ Adds f IsTouch ended s none s₂ := by
  obtain ⟨htends, hstatus₁⟩ := tends_tryWait w hc htry
  obtain rfl := htends.eq_of_status_eq hc hstatus₁
  have hview : s₂.view f = s₁.view f ++ (f (.now now)).toList := view_of_recordCall hnow
  rw [w.now, Option.toList_none, List.append_nil] at hview
  have hadds := htends.view
  rw [hc] at hadds
  exact ⟨rfl, hadds.trans_view_eq hview⟩

/-- Looks and sleeps in turn add what their last look does, or what giving the child
up does. -/
theorem tends_pollUntil {deadline : Instant} (hc : c.status = none) (fuel : Nat) :
    ∀ {c' : Child} {s t : Session (Recorded σ)} {result : Except Failure Status},
      (c.pollUntil h.recorded deadline fuel).on s = ((result, c'), t) →
        Tends f IsTouch ended c s c' t ∧ ∀ status, result = .ok status →
          c'.status = some status := by
  induction fuel with
  | zero =>
      intro c' s t result hrun
      obtain ⟨hpair, rfl⟩ := Prod.mk.inj hrun
      obtain ⟨rfl, rfl⟩ := Prod.mk.inj hpair
      refine ⟨⟨rfl, by rw [hc]; exact .of_view_eq rfl⟩, ?_⟩
      intro status hstatus
      cases hstatus
  | succ fuel ih =>
      intro c' s t result hrun
      cases round_of_pollUntil hrun with
      | failed htry =>
          refine ⟨(tends_tryWait w hc htry).1, ?_⟩
          intro status hstatus
          cases hstatus
      | ended htry =>
          obtain ⟨htends, hstatus₁⟩ := tends_tryWait w hc htry
          refine ⟨htends, ?_⟩
          intro status hstatus
          obtain rfl := Except.ok.inj hstatus
          exact hstatus₁
      | late htry hnow hlate hgive =>
          obtain ⟨rfl, hlooked⟩ := adds_look_and_now w hc htry hnow
          have hgiven := tends_killAndReap w hc hgive
          refine ⟨⟨hgiven.child, hlooked.trans hgiven.view⟩, ?_⟩
          intro status hstatus
          cases hstatus
      | @again _ _ _ s₂ _ now _ htry hnow hleft hrest =>
          obtain ⟨rfl, hlooked⟩ := adds_look_and_now w hc htry hnow
          obtain ⟨htends, hresult⟩ := ih hrest
          have hslept : Adds f IsTouch ended s none
              ((Host.change (h.recorded.sleep (min (deadline - now) pollInterval))).on s₂).2 :=
            hlooked.trans_view_eq
              ((keeps_recordChange _ (w.sleep _) (s₂.view f)).keeps s₂ rfl)
          exact ⟨⟨htends.child, hslept.trans htends.view⟩, hresult⟩

/-- **A child that is waited for up to a deadline** remembers what it came to; so it
does if it was given up. -/
theorem tends_waitUntil {deadline : Option Instant} {result : Except Failure Status}
    (hc : c.status = none)
    (hrun : (c.waitUntil h.recorded deadline).on s = ((result, c'), t)) :
    Tends f IsTouch ended c s c' t ∧ ∀ status, result = .ok status →
      c'.status = some status := by
  rcases waitUntil_cases hrun with ⟨rfl, answer, hwait, rfl⟩ | ⟨due, rfl, hpoll⟩
  · obtain ⟨htends, hstatus⟩ := tends_wait w hc hwait
    refine ⟨htends, ?_⟩
    intro status hresult
    cases answer with
    | error e => cases hresult
    | ok seen =>
        obtain rfl := Except.ok.inj hresult
        exact hstatus
  · exact tends_pollUntil w hc _ hpoll

end Views

end Child

end CommandExpr
