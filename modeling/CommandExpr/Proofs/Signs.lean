import CommandExpr.Proofs.Supervision
import CommandExpr.Proofs.Tending

/-!
# What the host tells of a process

The host tells two things of a process that was made: by its report whether it
turned into the program, and why not, and by the answers of waits how it ended.
`Exchange.sign?` picks these **signs** from a record.

The runner's answer is what the signs say.  A program ran just when the report
of its process was empty; the process ended once, and its end is the status that
the runner answers with.

## Main results

* `Child.waitUntil_signs` — a wait sees one end, and answers with it.
* `Runner.run_signs` — what the signs of a whole run are.
-/

namespace CommandExpr

variable {σ : Type}

/-- Something that the host tells of the course of a process. -/
inductive Sign where
  /-- A part of the report on whether it could be started. -/
  | report (bytes : Bytes)
  /-- Its end. -/
  | ended (status : Status)

/-- What the host tells of the course of a process by an answer. -/
def Exchange.sign? : Exchange → Option Sign
  | readReport _ _ (.ok bytes) => some (.report bytes)
  | wait _ _ (.ok report) => report.status?.map .ended
  | _ => none

/-- The signs in the record of a session. -/
def Session.signs (s : Session (Recorded σ)) : List Sign := s.view Exchange.sign?

/-! ## What gives no sign -/

private theorem drained_signs (h : Host σ) (seen : List Sign) :
    Drained (Same fun s => s.view Exchange.sign? = seen) h.recorded h.recorded where
  patience := by
    rintro s _ ⟨rfl, -⟩
    rfl
  pollOutput _ _ := keeps_recordCall _ (fun _ => rfl) seen
  hangUp _ := keeps_recordChange _ rfl seen
  now := keeps_recordCall _ (fun _ => rfl) seen
  tell _ := keeps_recordChange _ rfl seen
  readOutput _ _ := keeps_recordCall _ (fun _ => rfl) seen

variable {h : Host σ} {r : Runner} {program : String} {pid : Pid}
  {s t : Session (Recorded σ)}

theorem signs_noted (n : Notice) : (s.noted h.recorded n).signs = s.signs :=
  view_noted h (fun _ => rfl) s n

private theorem signs_drain {result : Except Failure Capture}
    (hrun : (r.drain h.recorded program pid).on s = (result, t)) :
    t.signs = s.signs :=
  view_eq_of_agree (fun seen => (drained_signs h seen).drain r program pid) hrun

private theorem signs_hangUp :
    ((Host.change (h.recorded.hangUp pid)).on s).2.signs = s.signs :=
  view_eq_of_agree (fun seen => (drained_signs h seen).hangUp pid) rfl

/-! ## Waiting -/

/-- The signs show the ends of a process, and nothing else of what is done with it. -/
private theorem shows_signs :
    Exchange.Shows Exchange.sign? pid (fun _ => False) Sign.ended where
  now _ := rfl
  sleep _ := rfl
  tell _ := rfl
  kill _ _ _ hx := nomatch hx
  idle _ answer htold x hx := by
    cases answer with
    | error e => cases hx
    | ok report =>
        change report.status? = none at htold
        simp [Exchange.sign?, htold] at hx
  ending _ answer status htold := by
    cases answer with
    | error e => cases htold
    | ok report => exact congrArg (Option.map Sign.ended) htold

namespace Child

/-- The end that a child has come to know is one sign. -/
private theorem signs_of_tends {c c' : Child} {status : Status}
    (ht : Tends Exchange.sign? (fun _ => False) Sign.ended c s c' t)
    (hstatus : c'.status = some status) :
    t.signs = s.signs ++ [.ended status] ∧ c'.isReaped = true := by
  obtain ⟨touches, hnone, hview⟩ := ht.view
  obtain rfl := List.eq_nil_iff_forall_not_mem.mpr hnone
  rw [hstatus] at hview
  exact ⟨hview, by simp [isReaped, hstatus]⟩

theorem wait_signs {c c' : Child} {status : Status} (hc : c.status = none)
    (hrun : (c.wait h.recorded).on s = ((.ok status, c'), t)) :
    t.signs = s.signs ++ [.ended status] ∧ c'.isReaped = true := by
  obtain ⟨htends, hstatus⟩ := tends_wait shows_signs hc hrun
  exact signs_of_tends htends hstatus

/-- **A wait with or without a deadline sees one end, and answers with it.** -/
theorem waitUntil_signs {c c' : Child} {deadline : Option Instant} {status : Status}
    (hc : c.status = none)
    (hrun : (c.waitUntil h.recorded deadline).on s = ((.ok status, c'), t)) :
    t.signs = s.signs ++ [.ended status] ∧ c'.isReaped = true := by
  obtain ⟨htends, hstatus⟩ := tends_waitUntil shows_signs hc hrun
  exact signs_of_tends htends (hstatus status rfl)

end Child

/-! ## The report -/

namespace Runner

/-- Does a report say that the process turned into its program, or else why it
could not? -/
def Says (report : Bytes) : Option Errno → Prop
  | none => report = []
  | some errno => Errno.ofBytes? report = some errno

theorem readReportFrom_signs (fuel : Nat) :
    ∀ {seen report : Bytes} {s t : Session (Recorded σ)},
      (readReportFrom h.recorded pid fuel seen).on s = (.ok report, t) →
        ∃ chunks : List Bytes, report = seen ++ chunks.flatten ∧
          t.signs = s.signs ++ chunks.map Sign.report := by
  induction fuel with
  | zero =>
      intro seen report s t hrun
      obtain ⟨hresult, -⟩ := Prod.mk.inj hrun
      cases hresult
  | succ fuel ih =>
      intro seen report s t hrun
      by_cases hseen : Errno.byteCount ≤ seen.length
      · simp only [readReportFrom, hseen, if_true] at hrun
        obtain ⟨hresult, rfl⟩ := Prod.mk.inj hrun
        obtain rfl := Except.ok.inj hresult
        exact ⟨[], by simp, by simp⟩
      · simp only [readReportFrom, hseen, if_false] at hrun
        rcases hcall : (Host.call (h.recorded.readReport pid
          (Errno.byteCount - seen.length))).on s with ⟨answer, s₁⟩
        have hsigns : s₁.signs = s.signs ++ (Exchange.readReport pid
            (Errno.byteCount - seen.length) answer).sign?.toList :=
          view_of_recordCall hcall
        rw [Action.on_bind_of _ hcall] at hrun
        rcases answer with e | _ | ⟨b, more⟩
        · by_cases he : e = .interrupted
          · simp only [he, if_true] at hrun
            obtain ⟨chunks, hreport, hrest⟩ := ih hrun
            refine ⟨chunks, hreport, ?_⟩
            rw [hrest, hsigns]
            simp [Exchange.sign?]
          · simp only [he, if_false] at hrun
            obtain ⟨hresult, -⟩ := Prod.mk.inj hrun
            cases hresult
        · obtain ⟨hresult, rfl⟩ := Prod.mk.inj hrun
          obtain rfl := Except.ok.inj hresult
          exact ⟨[[]], by simp, hsigns⟩
        · obtain ⟨chunks, hreport, hrest⟩ := ih hrun
          refine ⟨(b :: more) :: chunks, ?_, ?_⟩
          · rw [hreport, List.flatten_cons, List.append_assoc]
          · rw [hrest, hsigns]
            simp [Exchange.sign?]

theorem startError_signs {errno? : Option Errno}
    (hrun : (startError h.recorded pid).on s = (.ok errno?, t)) :
    ∃ chunks : List Bytes, Says chunks.flatten errno? ∧
      t.signs = s.signs ++ chunks.map Sign.report := by
  rcases hread : (readReportFrom h.recorded pid
    (h.recorded.patience s.machine) []).on s with ⟨read, s₁⟩
  rw [startError, Action.on_bind_of _ (Action.on_budget _ s),
    Action.on_bind_of _ hread] at hrun
  rcases read with f | _ | ⟨b, more⟩
  · obtain ⟨hresult, -⟩ := Prod.mk.inj hrun
    cases hresult
  · obtain ⟨hresult, rfl⟩ := Prod.mk.inj hrun
    obtain rfl := Except.ok.inj hresult
    obtain ⟨chunks, hreport, hsigns⟩ := readReportFrom_signs _ hread
    exact ⟨chunks, hreport.symm, hsigns⟩
  · obtain ⟨chunks, hreport, hsigns⟩ := readReportFrom_signs _ hread
    cases herrno : Errno.ofBytes? (b :: more) with
    | none =>
        simp only [herrno] at hrun
        obtain ⟨hresult, -⟩ := Prod.mk.inj hrun
        cases hresult
    | some errno =>
        simp only [herrno] at hrun
        obtain ⟨hresult, rfl⟩ := Prod.mk.inj hrun
        obtain rfl := Except.ok.inj hresult
        refine ⟨chunks, ?_, hsigns⟩
        rw [List.nil_append] at hreport
        rw [← hreport]
        exact herrno

/-! ## Whole runs -/

/-- What the signs that were given since say of a process: whether its program
could be started, and how it ended. -/
def Tells (s t : Session (Recorded σ)) (errno? : Option Errno) (status : Status) :
    Prop :=
  ∃ chunks : List Bytes, Says chunks.flatten errno? ∧
    t.signs = s.signs ++ (chunks.map Sign.report ++ [.ended status])

/-- How the result of a run stands to the signs that were given in it. -/
def Told (argv : List Bytes) (s t : Session (Recorded σ)) :
    Except Failure (Capture × Status) → Prop
  | .ok (_, status) => Tells s t none status
  | .error f => f.isFatal = false → ∃ errno, f.kind = .spawn errno ∧
      ((∃ status, Tells s t (some errno) status) ∨
        (errno = .invalidArgument ∧ argv.any Bytes.hasNul = true ∧
          t.signs = s.signs))

/-- Only the signs matter. -/
theorem Tells.of_signs {s' t' : Session (Recorded σ)} {errno? : Option Errno}
    {status : Status} (ht : Tells s t errno? status) (hs : s'.signs = s.signs)
    (ht' : t'.signs = t.signs) : Tells s' t' errno? status := by
  obtain ⟨chunks, hsays, hsigns⟩ := ht
  exact ⟨chunks, hsays, by rw [ht', hsigns, hs]⟩

/-- A failure that ends the evaluation is not for the signs to explain. -/
theorem told_of_isFatal {argv : List Bytes} {f : Failure} (hf : f.isFatal = true) :
    Told argv s t (.error f) := by
  intro hgoes
  rw [hf] at hgoes
  cases hgoes

/-- What supervision answers is what the signs say, and the end of the child has
been seen. -/
theorem Supervises.told (argv : List Bytes) {c c' : Child}
    {result : Except Failure (Capture × Status)} (hc : c.status = none)
    (hs : Supervises h.recorded r program c s result c' t) :
    (∃ f, result = .error f ∧ f.isFatal = true) ∨
      (Told argv s t result ∧ c'.isReaped = true) := by
  cases hs with
  | broke hf => exact Or.inl ⟨_, rfl, hf.isFatal⟩
  | @refused errno status _ s₁ s₂ hstart hwait =>
      obtain ⟨chunks, hsays, hreport⟩ := startError_signs hstart
      obtain ⟨hended, hreaped⟩ := Child.wait_signs hc hwait
      refine Or.inr ⟨fun _ => ⟨errno, rfl, Or.inl ⟨status, chunks, hsays, ?_⟩⟩, hreaped⟩
      rw [signs_noted, hended, hreport, List.append_assoc]
  | @ended output status _ s₁ s₂ s₃ hstart hdrain hwait =>
      obtain ⟨chunks, hsays, hreport⟩ := startError_signs hstart
      obtain ⟨hended, hreaped⟩ := Child.waitUntil_signs hc hwait
      refine Or.inr ⟨⟨chunks, hsays, ?_⟩, hreaped⟩
      rw [signs_noted, hended, signs_hangUp, signs_drain hdrain, hreport,
        List.append_assoc]

/-- Only the signs matter. -/
theorem Told.of_signs {argv : List Bytes} {s' t' : Session (Recorded σ)}
    {result : Except Failure (Capture × Status)} (ht : Told argv s t result)
    (hs : s'.signs = s.signs) (ht' : t'.signs = t.signs) :
    Told argv s' t' result := by
  cases result with
  | ok p => exact Tells.of_signs ht hs ht'
  | error f =>
      intro hgoes
      obtain ⟨errno, hkind, htold⟩ := ht hgoes
      refine ⟨errno, hkind, ?_⟩
      rcases htold with ⟨status, htells⟩ | ⟨herrno, hnul, hsigns⟩
      · exact Or.inl ⟨status, htells.of_signs hs ht'⟩
      · exact Or.inr ⟨herrno, hnul, by rw [ht', hsigns, hs]⟩

theorem launch_signs {argv : List Bytes} {handle? : Option Handle}
    {result : Except Failure (Capture × Status)}
    (hrun : (r.launch h.recorded program argv handle?).on s = (result, t)) :
    Told argv s t result := by
  cases launches_of_launch hrun with
  | broke hf => exact told_of_isFatal hf.isFatal
  | @supervised pid c s₁ t _ hspawn hsupervised =>
      have hspawned : ((closing h.recorded handle? s₁).noted h.recorded
          (.spawned program pid)).signs = s.signs :=
        view_spawned (fun _ => rfl) (fun _ _ _ => rfl) (fun _ => rfl) (fun _ => rfl) _ hspawn
      rcases hsupervised.told argv rfl with ⟨f, rfl, hf⟩ | ⟨htold, hreaped⟩
      · exact told_of_isFatal hf
      · rw [Child.on_killAndReap hreaped]
        exact htold.of_signs hspawned.symm rfl

/-- **The runner answers what the signs say.** -/
theorem run_signs {argv : List Bytes} {input : InputSource}
    {result : Except Failure (Capture × Status)}
    (hrun : (r.run h.recorded argv input).on s = (result, t)) :
    Told argv s t result := by
  cases runs_of_run hrun with
  | empty => exact told_of_isFatal rfl
  | refused hnul =>
      intro _
      exact ⟨.invalidArgument, rfl, Or.inr ⟨rfl, hnul, rfl⟩⟩
  | inherited _ hlaunch => exact launch_signs hlaunch
  | unopened _ hopen => exact told_of_isFatal (Relay.isFatal_of_openForRead hopen)
  | @fed _ _ relay _ _ _ _ _ _ hopen hlaunch =>
      refine (launch_signs hlaunch).of_signs ?_ rfl
      exact (view_eq_of_agree (fun seen => Agree.openForRead relay
        (keeps_recordCall _ (fun _ => rfl) seen)) hopen).symm

end Runner

end CommandExpr
