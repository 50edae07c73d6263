import CommandExpr.Proofs.Recording

/-!
# Runs of one program

How a call of the runner can go: the argument vector is refused before
anything is asked of the host, or the input is opened, if it is a relay, and
then the process is launched.

## Main results

* `Runner.runs_of_run`, `Runner.Runs.run_eq` — there is no other way, and each is one.
* `Runner.run_opening` — on a recorded host, a run that does not end the
  evaluation opens its relay once, and nothing else.
-/

namespace CommandExpr

variable {σ : Type}

namespace Runner

/-- A run with an argument vector and an input, from a session, comes to the
result and leaves the last session. -/
inductive Runs (h : Host σ) (r : Runner) : List Bytes → InputSource → Session σ →
    Except Failure (Capture × Status) → Session σ → Prop where
  /-- There is no program. -/
  | empty {input : InputSource} {s : Session σ} :
      Runs h r [] input s (.error .emptyArgv) s
  /-- An argument cannot be passed on. -/
  | refused {first : Bytes} {rest : List Bytes} {input : InputSource}
      {s : Session σ} (hnul : (first :: rest).any Bytes.hasNul = true) :
      Runs h r (first :: rest) input s
        (.error (.nulInArgument (Utf8.decodeLossy first))) s
  /-- The program runs on the input of the host. -/
  | inherited {first : Bytes} {rest : List Bytes} {s t : Session σ}
      {result : Except Failure (Capture × Status)}
      (hnul : (first :: rest).any Bytes.hasNul = false)
      (hlaunch : (r.launch h (Utf8.decodeLossy first) (first :: rest) none).on s
        = (result, t)) :
      Runs h r (first :: rest) .inherited s result t
  /-- The relay cannot be opened. -/
  | unopened {first : Bytes} {rest : List Bytes} {relay : Relay}
      {s t : Session σ} {f : Failure}
      (hnul : (first :: rest).any Bytes.hasNul = false)
      (hopen : (relay.openForRead h).on s = (.error f, t)) :
      Runs h r (first :: rest) (.relay relay) s (.error f) t
  /-- The program runs on the relay. -/
  | fed {first : Bytes} {rest : List Bytes} {relay : Relay} {handle : Handle}
      {s s₁ t : Session σ} {result : Except Failure (Capture × Status)}
      (hnul : (first :: rest).any Bytes.hasNul = false)
      (hopen : (relay.openForRead h).on s = (.ok handle, s₁))
      (hlaunch : (r.launch h (Utf8.decodeLossy first) (first :: rest)
        (some handle)).on s₁ = (result, t)) :
      Runs h r (first :: rest) (.relay relay) s result t

variable {h : Host σ} {r : Runner} {argv : List Bytes} {input : InputSource}

theorem runs_of_run {s t : Session σ} {result : Except Failure (Capture × Status)}
    (hrun : (r.run h argv input).on s = (result, t)) :
    Runs h r argv input s result t := by
  cases argv with
  | nil =>
      obtain ⟨rfl, rfl⟩ := Prod.mk.inj hrun
      exact .empty
  | cons first rest =>
      cases hnul : (first :: rest).any Bytes.hasNul with
      | true =>
          simp only [Runner.run, hnul, if_true, Attempt.on_throw] at hrun
          obtain ⟨rfl, rfl⟩ := Prod.mk.inj hrun
          exact .refused hnul
      | false =>
          simp only [Runner.run, hnul] at hrun
          cases input with
          | inherited => exact .inherited hnul hrun
          | relay relay =>
              rcases hopen : (relay.openForRead h).on s with ⟨opened, s₁⟩
              cases opened with
              | error f =>
                  have hinput : (openInput h (.relay relay)).on s = (.error f, s₁) :=
                    Attempt.on_bind_error _ hopen
                  rw [if_neg (by decide), Attempt.on_bind_error _ hinput] at hrun
                  obtain ⟨rfl, rfl⟩ := Prod.mk.inj hrun
                  exact .unopened hnul hopen
              | ok handle =>
                  have hinput : (openInput h (.relay relay)).on s
                      = (.ok (some handle), s₁) := Attempt.on_bind_ok _ hopen
                  rw [if_neg (by decide), Attempt.on_bind_ok _ hinput] at hrun
                  exact .fed hnul hopen hrun

/-- Each of the ways is that of a run. -/
theorem Runs.run_eq {s t : Session σ} {result : Except Failure (Capture × Status)}
    (hr : Runs h r argv input s result t) : (r.run h argv input).on s = (result, t) := by
  cases hr with
  | empty => rfl
  | refused hnul => simp only [run, hnul, if_true, Attempt.on_throw]
  | inherited hnul hlaunch =>
      simp only [run, hnul]
      exact hlaunch
  | @unopened _ _ relay _ t f hnul hopen =>
      have hinput : (openInput h (.relay relay)).on s = (.error f, t) :=
        Attempt.on_bind_error _ hopen
      simp only [run, hnul]
      exact Attempt.on_bind_error _ hinput
  | @fed _ _ relay handle _ s₁ _ _ hnul hopen hlaunch =>
      have hinput : (openInput h (.relay relay)).on s = (.ok (some handle), s₁) :=
        Attempt.on_bind_ok _ hopen
      simp only [run, hnul]
      exact (Attempt.on_bind_ok _ hinput).trans hlaunch

end Runner

/-! ## Files that are opened -/

namespace Relay

variable {relay : Relay} {s t : Session σ}

theorem on_openForRead (h : Host σ) (relay : Relay) (s : Session σ) :
    (relay.openForRead h).on s =
      match (onPath relay.path h.openRead).on s with
      | (.ok handle, t) => (.ok handle, t)
      | (.error e, t) => (.error (.relayNotOpened relay.path.display e), t) := by
  rcases hcall : (onPath relay.path h.openRead).on s with ⟨answer, t⟩
  have hlift : Attempt.on (ExceptT.lift (onPath relay.path h.openRead)) s
      = (.ok answer, t) := by
    rw [Attempt.on_lift, hcall]
  rw [openForRead, Attempt.on_bind_ok _ hlift]
  cases answer <;> rfl

/-- A relay that cannot be opened ends the evaluation. -/
theorem isFatal_of_openForRead {h : Host σ} {f : Failure}
    (hopen : (relay.openForRead h).on s = (.error f, t)) : f.isFatal = true := by
  rw [on_openForRead] at hopen
  split at hopen
  · simp at hopen
  · simp only [Prod.mk.injEq, Except.error.injEq] at hopen
    obtain ⟨rfl, -⟩ := hopen
    rfl

/-- A relay that is open was opened by its path. -/
theorem openRead_of_openForRead {h : Host σ} {handle : Handle}
    (hopen : (relay.openForRead h).on s = (.ok handle, t)) :
    h.openRead relay.path s.machine = (.ok handle, t.machine) := by
  rw [on_openForRead] at hopen
  split at hopen
  · next heq =>
      simp only [Prod.mk.injEq, Except.ok.injEq] at hopen
      obtain ⟨rfl, rfl⟩ := hopen
      exact (of_onPath_ok heq).2
  · simp at hopen

end Relay

/-- Is it no exchange by which a file is opened for reading? -/
private theorem opening?_eq_none {x : Exchange}
    (hx : x.IsLaunching ∨ x.IsStoring) : x.opening? = none := by
  cases x with
  | openRead path answer => exact absurd hx (by simp [Exchange.IsLaunching,
      Exchange.IsWatching, Exchange.IsStoring])
  | _ => rfl

/-- What is done with relays, but for reading them, opens nothing. -/
theorem storing_opening (h : Host σ) (seen : List (Path × Bool)) :
    Storing (Same fun s => s.view Exchange.opening? = seen) h.recorded h.recorded :=
  storing_view h (fun _ hx => opening?_eq_none (Or.inr hx)) seen

theorem opening_noted (h : Host σ) (s : Session (Recorded σ)) (n : Notice) :
    (s.noted h.recorded n).view Exchange.opening? = s.view Exchange.opening? :=
  view_noted h (fun _ => rfl) s n

namespace Runner

/-- What a run with an argument vector and an input opens. -/
def opens (argv : List Bytes) : InputSource → List (Path × Bool)
  | .inherited => []
  | .relay relay => if argv.any Bytes.hasNul then [] else [(relay.path, true)]

variable {h : Host σ} {r : Runner} {argv : List Bytes} {input : InputSource}
  {s t : Session (Recorded σ)}

private theorem launch_opening {program : String} {handle? : Option Handle}
    {result : Except Failure (Capture × Status)}
    (hlaunch : (r.launch h.recorded program argv handle?).on s = (result, t)) :
    t.view Exchange.opening? = s.view Exchange.opening? :=
  view_eq_of_agree (fun seen =>
    (launched_view h (fun _ hx => opening?_eq_none (Or.inl hx)) seen).launch
      r program argv handle?) hlaunch

private theorem view_openForRead {relay : Relay} {handle : Handle}
    (hopen : (relay.openForRead h.recorded).on s = (.ok handle, t)) :
    t.view Exchange.opening? = s.view Exchange.opening? ++ [(relay.path, true)] := by
  have hread := Relay.openRead_of_openForRead hopen
  obtain ⟨hanswer, hmachine⟩ := Prod.mk.inj hread
  have hview := view_recordCall (f := Exchange.opening?) (h.openRead relay.path)
    (.openRead relay.path) s
  rw [hanswer] at hview
  rw [Session.view, Session.record, ← hmachine]
  exact hview

/-- A run that does not end the evaluation opens its relay once, unless an
argument is refused before, and nothing else. -/
theorem run_opening {result : Except Failure (Capture × Status)}
    (hrun : (r.run h.recorded argv input).on s = (result, t))
    (hgoes : ∀ f, result = .error f → f.isFatal = false) :
    t.view Exchange.opening? = s.view Exchange.opening? ++ opens argv input := by
  cases runs_of_run hrun with
  | empty => exact absurd (hgoes _ rfl) (by decide)
  | refused hnul => cases input <;> simp [opens, hnul]
  | inherited _ hlaunch => rw [launch_opening hlaunch, opens, List.append_nil]
  | unopened hnul hopen =>
      exact absurd (Relay.isFatal_of_openForRead hopen) (by simp [hgoes _ rfl])
  | fed hnul hopen hlaunch =>
      rw [launch_opening hlaunch, view_openForRead hopen, opens, hnul]
      rfl

end Runner

end CommandExpr
