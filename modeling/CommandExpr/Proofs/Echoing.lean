import CommandExpr.CommandLine
import CommandExpr.Proofs.Bounded
import CommandExpr.Proofs.Unwinding

/-!
# What is written, and when

An evaluation writes to the host's standard output in one place only: after the last program,
if every stage has returned and the flag is set, the output is written once, in pieces if the
host takes no more at a time.  An evaluation in which a stage fails writes nothing.

The command line evaluates with the flag set, and all else that it tells goes to the standard
error output: the failure if there is one, and otherwise the report if it is asked for.  A report
has a line on the status, one more if the output was cut, and one on each fault (`Reports`).
Neither the status nor the faults of an output matter to the exit code.

What was written is read off the record of a host that keeps one, on which everything comes to
the same.

## Main results

* `Output.writes_of_writeFrom` — writing that succeeds has written all bytes, in pieces of any
  size.
* `Evaluator.echoes_of_ok`, `Evaluator.evaluate_echoes` — what an evaluation writes.
* `CommandLine.reports_reportLines` — which lines a report has.
* `CommandLine.perform_writes` — what the whole program writes and returns.
-/

namespace CommandExpr

variable {σ α : Type}

/-! ## Messages -/

/-- The session after some messages, one after the other. -/
def Session.saying (s : Session σ) (h : Host σ) (messages : List Message) : Session σ :=
  { s with machine := messages.foldl (fun m message => h.tell message m) s.machine }

/-- A loop in which every round tells a message. -/
theorem Action.on_forIn_say (h : Host σ) (message : α → Message)
    {body : α → PUnit → Action σ (ForInStep PUnit)}
    (hbody : ∀ x, body x ⟨⟩ = (do h.say (message x); pure (.yield ⟨⟩))) (xs : List α) :
    ∀ s : Session σ, Action.on (forIn xs PUnit.unit body) s
      = (⟨⟩, s.saying h (xs.map message)) := by
  induction xs with
  | nil => exact fun s => rfl
  | cons x xs ih =>
      intro s
      rw [List.forIn_cons, hbody]
      exact ih { s with machine := h.tell (message x) s.machine }

theorem Session.record_saying (s : Session (Recorded σ)) (h : Host σ)
    (messages : List Message) :
    (s.saying h.recorded messages).record = s.record ++ messages.map .tell := by
  induction messages generalizing s with
  | nil => exact (List.append_nil _).symm
  | cons message messages ih =>
      have hrest := ih { s with machine := h.recorded.tell message s.machine }
      exact hrest.trans (List.append_assoc s.record [.tell message] _)

theorem Session.plain_saying (s : Session (Recorded σ)) (h : Host σ)
    (messages : List Message) :
    (s.saying h.recorded messages).plain = s.plain.saying h messages := by
  induction messages generalizing s with
  | nil => rfl
  | cons message messages ih =>
      exact ih { s with machine := h.recorded.tell message s.machine }

/-! ## The standard output -/

/-- What the standard output took of what it was offered. -/
def Exchange.written? : Exchange → Option Bytes
  | writeOut bytes (.ok count) => some (bytes.take count)
  | writeOut _ (.error _) => some []
  | _ => none

/-- A line that the user is told. -/
def Exchange.line? : Exchange → Option String
  | tell (.line text) => some text
  | _ => none

/-- The standard output takes something of whatever it is offered, and a loop waits for so many
answers at least. -/
structure Host.Accepts (h : Host σ) (size : Nat) : Prop where
  writeOut {bytes : Bytes} (m : σ) : bytes ≠ [] →
    ∃ count, (h.writeOut bytes m).1 = .ok count ∧ 0 < count ∧ count ≤ bytes.length
  patience (m : σ) : size ≤ h.patience m

theorem Host.Accepts.recorded {h : Host σ} {size : Nat} (ha : h.Accepts size) :
    h.recorded.Accepts size where
  writeOut m := ha.writeOut m.1
  patience m := ha.patience m.1

/-- Some bytes were written between two sessions, and nothing else was done. -/
structure Writes (bytes : Bytes) (s t : Session (Recorded σ)) (tail : List Exchange) : Prop where
  record : t.record = s.record ++ tail
  only : ∀ x ∈ tail, x.written?.isSome = true
  written : (tail.filterMap Exchange.written?).flatten = bytes

namespace Output

variable {h : Host σ} {size : Nat}

@[simp] theorem Offer.written?_exchange (o : Offer) : o.exchange.written? = some o.taken := by
  obtain ⟨bytes, e | count⟩ := o
  · rfl
  · rfl

/-- **If writing succeeds, all bytes were written**, in pieces of any size. -/
theorem writes_of_writeFrom (fuel : Nat) (bytes : Bytes) (s t : Session (Recorded σ))
    (hrun : (writeFrom h.recorded fuel bytes).on s = (.ok (), t)) :
    ∃ tail, Writes bytes s t tail := by
  obtain ⟨offers, result, m', ho, hoffers⟩ := on_writeFrom_recorded h fuel bytes s
  rw [hoffers] at hrun
  obtain ⟨rfl, rfl⟩ := Prod.mk.inj hrun
  refine ⟨offers.map Offer.exchange, rfl, by simp, ?_⟩
  have htaken : (offers.map Offer.exchange).filterMap Exchange.written?
      = offers.map Offer.taken := by
    simp [List.filterMap_map]
  rw [htaken, ← List.flatMap_def]
  exact ho.ok_iff.mp rfl

/-- All bytes are written if the standard output takes them. -/
theorem writeFrom_accepted (ha : h.Accepts size) {fuel : Nat} {bytes : Bytes}
    (hfuel : bytes.length ≤ fuel) (s : Session σ) :
    ((writeFrom h fuel bytes).on s).1 = .ok () := by
  rcases hrun : (writeFrom h fuel bytes).on s with ⟨result, t⟩
  obtain ⟨-, offers, ho⟩ := on_writeFrom_iff.mp hrun
  have htaken : ∀ o ∈ offers, ∃ k, o.answer = .ok (k + 1) := by
    intro o hmem
    obtain ⟨hne, m, hanswer⟩ := ho.answered o hmem
    obtain ⟨count, hcount, hpos, -⟩ := ha.writeOut m hne
    obtain ⟨k, rfl⟩ := Nat.exists_eq_succ_of_ne_zero (Nat.ne_of_gt hpos)
    exact ⟨k, hanswer.symm.trans hcount⟩
  cases result with
  | ok _ => rfl
  | error f =>
      exfalso
      obtain ⟨before, o, rfl, hrefused⟩ | ⟨rfl, -⟩ := ho.failed rfl
      · obtain ⟨k, hk⟩ := htaken o (by simp)
        simp [Offer.refusal?, hk] at hrefused
      · have hcalm : interruptions (offers.map Offer.exchange) = 0 := by
          rw [interruptions_exchange, List.countP_eq_zero]
          intro answer hmem
          obtain ⟨o, ho, rfl⟩ := List.mem_map.mp hmem
          obtain ⟨k, hk⟩ := htaken o ho
          simp [hk]
        have hlt := ho.stalled_lt rfl
        omega

theorem writes_of_writeAll {bytes : Bytes} {s t : Session (Recorded σ)}
    (hrun : (writeAll h.recorded bytes).on s = (.ok (), t)) : ∃ tail, Writes bytes s t tail :=
  writes_of_writeFrom _ bytes s t hrun

theorem writeAll_accepted (ha : h.Accepts size) {bytes : Bytes} (hle : bytes.length ≤ size)
    (s : Session σ) : ((writeAll h bytes).on s).1 = .ok () := by
  rw [on_writeAll]
  exact writeFrom_accepted ha (Nat.le_trans hle (ha.patience s.machine)) s

end Output

/-! ## Evaluations -/

namespace Evaluator

variable {h : Host σ} {ev : Evaluator} {e : Expression} {s t : Session (Recorded σ)}

/-- No call but one writes to the standard output, and no part of a composition makes that. -/
private theorem inStep_written (h : Host σ) (seen : List Bytes) :
    InStep (Same fun s => s.view Exchange.written? = seen) h.recorded h.recorded :=
  have hlaunching : ∀ x : Exchange, x.IsLaunching → x.written? = none := by
    intro x hx
    cases x <;> first | rfl | cases hx
  have hstoring : ∀ x : Exchange, x.IsStoring → x.written? = none := by
    intro x hx
    cases x <;> first | rfl | cases hx
  { launched_view h hlaunching seen, storing_view h hstoring seen with
    openRead := fun _ => keeps_recordCall _ (fun _ => rfl) seen }

theorem written_dispatch {relays : RelayStore} {r : Runner} {input : InputSource}
    {result : Except Failure Capture}
    (hrun : (dispatch h.recorded relays r e input).on s = (result, t)) :
    t.view Exchange.written? = s.view Exchange.written? :=
  view_eq_of_agree (x := (dispatch h.recorded relays r e input).run)
    (fun seen => (inStep_written h seen).dispatch relays r e input) hrun

theorem written_started (h : Host σ) (s : Session (Recorded σ)) :
    (started h.recorded s).view Exchange.written? = s.view Exchange.written? :=
  (inStep_written h _).now.keeps s rfl

theorem written_evaluated (h : Host σ) (e : Expression) (start : Instant)
    (s : Session (Recorded σ)) :
    (evaluated h.recorded e start s).view Exchange.written? = s.view Exchange.written? :=
  (view_noted h (fun _ => rfl) _ _).trans (written_started h s)

/-- What a whole evaluation writes to the standard output, by how its composition ends. -/
inductive Echoes (h : Host σ) (ev : Evaluator) (e : Expression) (s : Session (Recorded σ)) :
    Except Failure Capture → Session (Recorded σ) → Prop where
  /-- A stage has ended the evaluation, and nothing is written. -/
  | failed {f : Failure} {t : Session (Recorded σ)}
      (hrun : (dispatch h.recorded ev.relays (ev.runner (h.now s.machine.1).1) e
        .inherited).on (started h.recorded s) = (.error f, t))
      (hnothing : t.view Exchange.written? = s.view Exchange.written?) :
      Echoes h ev e s (.error f) t
  /-- All stages have returned, but nothing is to be written. -/
  | quiet {output : Capture} {u t : Session (Recorded σ)}
      (hrun : (dispatch h.recorded ev.relays (ev.runner (h.now s.machine.1).1) e
        .inherited).on (started h.recorded s) = (.ok output, u))
      (hflag : ev.isEchoing = false)
      (hnothing : t.view Exchange.written? = s.view Exchange.written?) :
      Echoes h ev e s (.ok output) t
  /-- All stages have returned, and after that the output is written. -/
  | echoed {output : Capture} {u t : Session (Recorded σ)} {tail : List Exchange}
      (hrun : (dispatch h.recorded ev.relays (ev.runner (h.now s.machine.1).1) e
        .inherited).on (started h.recorded s) = (.ok output, u))
      (hflag : ev.isEchoing = true)
      (hbefore : u.view Exchange.written? = s.view Exchange.written?)
      (hafter : Writes output.bytes
        (evaluated h.recorded e (h.now s.machine.1).1 u) t tail) :
      Echoes h ev e s (.ok output) t

/-- There is no echo of a part. -/
theorem Echoes.of_error {f : Failure} (he : Echoes h ev e s (.error f) t) :
    t.view Exchange.written? = s.view Exchange.written? := by
  cases he with
  | failed _ hnothing => exact hnothing

/-- **An output that is returned was written once, at the end**, or not at all if it was not to
be. -/
theorem echoes_of_ok {output : Capture}
    (hrun : (ev.evaluate h.recorded e).on s = (.ok output, t)) :
    Echoes h ev e s (.ok output) t := by
  obtain ⟨steps, tried, hev⟩ := evaluates_of_evaluate hrun
  generalize hresult : (Except.ok output : Except Failure Capture) = result at hev
  cases hev with
  | failed he => cases hresult
  | quiet he hflag =>
      cases hresult
      refine .quiet he.dispatch_eq hflag ?_
      rw [written_evaluated, written_dispatch he.dispatch_eq, written_started]
  | @echoing output' u _ written he hflag hwrite =>
      cases written with
      | error f => cases hresult
      | ok _ =>
          cases hresult
          obtain ⟨tail, hafter⟩ := Output.writes_of_writeAll hwrite
          refine .echoed he.dispatch_eq hflag ?_ hafter
          rw [written_dispatch he.dispatch_eq, written_started]

/-- **An evaluation writes its output once, at its end, or nothing**, if the standard output
takes it. -/
theorem evaluate_echoes (ha : h.Accepts ev.config.captureCap)
    {result : Except Failure Capture} (hrun : (ev.evaluate h.recorded e).on s = (result, t)) :
    Echoes h ev e s result t := by
  cases result with
  | ok output => exact echoes_of_ok hrun
  | error f =>
      obtain ⟨steps, tried, hev⟩ := evaluates_of_evaluate hrun
      generalize hresult : (Except.error f : Except Failure Capture) = result at hev
      cases hev with
      | failed he =>
          cases hresult
          refine .failed he.dispatch_eq ?_
          rw [written_dispatch he.dispatch_eq, written_started]
      | quiet he hflag => cases hresult
      | @echoing output u _ written he hflag hwrite =>
          have hle : output.bytes.length ≤ ev.config.captureCap := by
            rw [he.holds.bytes, List.length_take]
            exact Nat.min_le_left _ _
          have hwritten := Output.writeAll_accepted ha.recorded hle
            (evaluated h.recorded e (h.recorded.now s.machine).1 u)
          rw [hwrite] at hwritten
          obtain rfl : written = .ok () := hwritten
          cases hresult

/-- A record changes nothing. -/
theorem evaluate_recorded (h : Host σ) (ev : Evaluator) (e : Expression)
    (s : Session (Recorded σ)) :
    ((ev.evaluate h.recorded e).on s).1 = ((ev.evaluate h e).on s.plain).1 ∧
      ((ev.evaluate h.recorded e).on s).2.plain = ((ev.evaluate h e).on s.plain).2 := by
  have hout : ∀ bytes, Agree IsPlain (Host.call (h.recorded.writeOut bytes))
      (Host.call (h.writeOut bytes)) := by
    rintro bytes s _ rfl
    exact ⟨rfl, rfl⟩
  exact agree_evaluate (recorded_inStep h) hout ev e s s.plain rfl

end Evaluator

/-! ## Reports -/

/-- What is told of how a program ended. -/
inductive Status.Told : Status → String → Prop where
  | done : Told (.exited 0) "done"
  | failed {code : Int} (hcode : code ≠ 0) : Told (.exited code) s!"failed: {code}"
  | signaled {signal : Signal} : Told (.signaled signal) s!"signaled: {signal.name}"

/-- What is told of a fault: the program, and what was wrong with it. -/
inductive Fault.Told : Fault → String → Prop where
  | notSpawned {program : String} {errno : Errno} :
      Told (.notSpawned program errno) s!"{program}: failed to spawn: {errno.desc}"
  | unsuccessful {program text : String} {status : Status} (htext : status.Told text) :
      Told (.unsuccessful program status) s!"{program}: {text}"

theorem Status.told_display (status : Status) : status.Told status.display := by
  unfold display
  split
  · exact .done
  · next code hcode => exact .failed fun heq => hcode heq
  · exact .signaled

theorem Fault.told_display (fault : Fault) : fault.Told fault.display := by
  cases fault with
  | notSpawned program errno => exact .notSpawned
  | unsuccessful program status => exact .unsuccessful status.told_display

namespace CommandLine

/-- The line on how the last program ended. -/
inductive StatusLine : Option Status → String → Prop where
  | absent : StatusLine none "status: not spawned"
  | ended {status : Status} {text : String} (htext : status.Told text) :
      StatusLine (some status) s!"status: {text}"

/-- The line on a fault. -/
inductive FaultLine : Fault → String → Prop where
  | met {fault : Fault} {text : String} (htext : fault.Told text) :
      FaultLine fault s!"fault: {text}"

/-- The lines of a report on an output: one on the status, one more if the output was cut, and
one on each fault, in their order. -/
inductive Reports (output : Capture) : List String → Prop where
  | whole {status : String} {faults : List String} (hwhole : output.isTruncated = false)
      (hstatus : StatusLine output.status status)
      (hfaults : List.Forall₂ FaultLine output.faults faults) :
      Reports output (status :: faults)
  | cut {status : String} {faults : List String} (hcut : output.isTruncated = true)
      (hstatus : StatusLine output.status status)
      (hfaults : List.Forall₂ FaultLine output.faults faults) :
      Reports output (status :: s!"output truncated to {output.cap} bytes" :: faults)

/-- **A report has these lines and no others.** -/
theorem reports_reportLines (output : Capture) : Reports output (reportLines output) := by
  have hfaults : List.Forall₂ FaultLine output.faults
      (output.faults.map fun fault => s!"fault: {fault.display}") := by
    rw [List.forall₂_map_right_iff, List.forall₂_same]
    exact fun fault _ => .met fault.told_display
  obtain ⟨line, hline, hlines⟩ : ∃ line, StatusLine output.status line ∧
      reportLines output = line :: (if output.isTruncated then
        [s!"output truncated to {output.cap} bytes"] else []) ++
        output.faults.map fun fault => s!"fault: {fault.display}" := by
    unfold reportLines
    cases output.status with
    | none => exact ⟨_, .absent, rfl⟩
    | some status => exact ⟨_, .ended status.told_display, rfl⟩
  rw [hlines]
  cases hcut : output.isTruncated with
  | true => exact .cut hcut hline hfaults
  | false => exact .whole hcut hline hfaults

end CommandLine

/-! ## The program -/

namespace CommandLine

open Evaluator

/-- The settings with which the words of a command line are evaluated. -/
def settings (env : Environment) (o : Options) : Configuration :=
  (Configuration.ofEnvironment env).override o.captureCap o.relayDir o.timeout

/-- What is logged of the settings that an environment makes. -/
def warnings (env : Environment) : List Message :=
  (Configuration.warnings env).map fun (name, raw) => .notice (.unusableVariable name raw)

/-- What the user is told of an output, if a report is asked for. -/
def report (o : Options) (output : Capture) : List Message :=
  if o.isReporting then (reportLines output).map .line else []

/-- That is the lines of a report, or nothing. -/
theorem exists_report (o : Options) (output : Capture) :
    ∃ told, report o output = told.map .line ∧ (o.isReporting = true → Reports output told) ∧
      (o.isReporting = false → told = []) := by
  cases hasked : o.isReporting with
  | true => exact ⟨reportLines output, if_pos hasked, fun _ => reports_reportLines output, nofun⟩
  | false => exact ⟨[], by simp [report, hasked], nofun, fun _ => rfl⟩

theorem on_showFailure (h : Host σ) (f : Failure) (s : Session σ) :
    (showFailure h f).on s = ((), s.saying h (f.diagnostic.map .line)) := by
  rw [showFailure, Action.on_bind_of _ (Action.on_forIn_say h .line (fun _ => rfl) _ s)]
  rfl

theorem on_configure (h : Host σ) (env : Environment) (s : Session σ) :
    (configure h env).on s = (.ofEnvironment env, s.saying h (warnings env)) := by
  rw [configure, Action.on_bind_of _ (Action.on_forIn_say h
    (fun (name, raw) => .notice (.unusableVariable name raw)) (fun _ => rfl) _ s)]
  rfl

/-- Words that make no composition are not evaluated. -/
theorem on_evaluateWords_error {env : Environment} {o : Options} {f : Failure}
    (hparse : Words.parse o.isTyped o.words = .error f) (h : Host σ) (s : Session σ) :
    (evaluateWords h env o).on s = (failureCode,
      s.saying h (.notice (.options o) :: f.diagnostic.map .line)) := by
  rw [evaluateWords, Action.on_bind_of _ (Action.on_note h _ s), hparse]
  simp only
  rw [Action.on_bind_of _ (on_showFailure h f _)]
  rfl

/-- The code depends on whether the evaluation returns, and what it returns is only told. -/
theorem on_evaluateWords_ok {env : Environment} {o : Options} {e : Expression}
    (hparse : Words.parse o.isTyped o.words = .ok e) (h : Host σ) (s : Session σ) :
    (evaluateWords h env o).on s =
      match ((ofConfiguration (settings env o)).evaluate h e).on
        (s.saying h (.notice (.options o) :: warnings env)) with
      | (.error f, t) => (failureCode, t.saying h (f.diagnostic.map .line))
      | (.ok output, t) => (0, t.saying h (report o output)) := by
  rw [evaluateWords, Action.on_bind_of _ (Action.on_note h _ s), hparse]
  simp only
  rw [Action.on_bind_of _ (on_configure h env _)]
  rcases hrun : ((ofConfiguration (settings env o)).evaluate h e).on
    (s.saying h (.notice (.options o) :: warnings env)) with ⟨result, t⟩
  have hafter : Action.on ((ofConfiguration ((Configuration.ofEnvironment env).override
      o.captureCap o.relayDir o.timeout)).evaluate h e).run
      ((s.noted h (.options o)).saying h (warnings env)) = (result, t) := hrun
  rw [Action.on_bind_of _ hafter]
  cases result with
  | error f =>
      simp only
      rw [Action.on_bind_of _ (on_showFailure h f t)]
      rfl
  | ok output =>
      by_cases hreport : o.isReporting = true
      · simp only [report, hreport, if_true]
        rw [Action.on_bind_of _ (Action.on_forIn_say h .line (fun _ => rfl) _ t)]
        rfl
      · simp only [report, hreport]
        rfl

/-- What the evaluation of the words of a command line returns and writes. -/
inductive Performs (h : Host σ) (env : Environment) (o : Options) (s : Session (Recorded σ)) :
    UInt32 → Session (Recorded σ) → Prop where
  /-- The words make no composition.  The user is told, and nothing else is done. -/
  | unparsed {f : Failure} {t : Session (Recorded σ)}
      (hparse : Words.parse o.isTyped o.words = .error f)
      (hrecord : t.record = s.record ++
        (.notice (.options o) :: f.diagnostic.map .line).map .tell) :
      Performs h env o s 1 t
  /-- The evaluation fails, and nothing is echoed if an echo cannot fail.  The user is told. -/
  | failed {e : Expression} {f : Failure} {u v t : Session (Recorded σ)}
      (hparse : Words.parse o.isTyped o.words = .ok e)
      (hbegin : u.record = s.record ++ (.notice (.options o) :: warnings env).map .tell)
      (hrun : ((ofConfiguration (settings env o)).evaluate h.recorded e).on u = (.error f, v))
      (hecho : h.Accepts (settings env o).captureCap →
        v.view Exchange.written? = u.view Exchange.written?)
      (hend : t.record = v.record ++ (f.diagnostic.map .line).map .tell) :
      Performs h env o s 1 t
  /-- The evaluation returns an output that it has echoed.  The user is told of it, in the
  lines of a report, if that is asked for, and of nothing otherwise. -/
  | returned {e : Expression} {output : Capture} {told : List String}
      {u v t : Session (Recorded σ)}
      (hparse : Words.parse o.isTyped o.words = .ok e)
      (hbegin : u.record = s.record ++ (.notice (.options o) :: warnings env).map .tell)
      (hrun : ((ofConfiguration (settings env o)).evaluate h.recorded e).on u = (.ok output, v))
      (hecho : Echoes h (ofConfiguration (settings env o)) e u (.ok output) v)
      (hreport : o.isReporting = true → Reports output told)
      (hquiet : o.isReporting = false → told = [])
      (hend : t.record = v.record ++ (told.map .line).map .tell) :
      Performs h env o s 0 t

theorem perform_evaluate {h : Host σ} {env : Environment} {o : Options}
    {s t : Session (Recorded σ)} {code : UInt32}
    (hrun : (perform h.recorded env (.evaluate o)).on s = (code, t)) :
    Performs h env o s code t := by
  rw [perform] at hrun
  cases hparse : Words.parse o.isTyped o.words with
  | error f =>
      rw [on_evaluateWords_error hparse] at hrun
      obtain ⟨rfl, rfl⟩ := Prod.mk.inj hrun
      exact .unparsed hparse (s.record_saying h _)
  | ok e =>
      rw [on_evaluateWords_ok hparse] at hrun
      rcases hevaluate : ((ofConfiguration (settings env o)).evaluate h.recorded e).on
        (s.saying h.recorded (.notice (.options o) :: warnings env)) with ⟨result, v⟩
      rw [hevaluate] at hrun
      cases result with
      | error f =>
          obtain ⟨rfl, rfl⟩ := Prod.mk.inj hrun
          exact .failed hparse (s.record_saying h _) hevaluate
            (fun ha => (evaluate_echoes ha hevaluate).of_error) (v.record_saying h _)
      | ok output =>
          obtain ⟨rfl, rfl⟩ := Prod.mk.inj hrun
          obtain ⟨told, htold, hreport, hquiet⟩ := exists_report o output
          refine .returned hparse (s.record_saying h _) hevaluate (echoes_of_ok hevaluate)
            hreport hquiet ?_
          rw [← htold]
          exact v.record_saying h _

/-- A record changes nothing here either. -/
theorem perform_recorded (h : Host σ) (env : Environment) (o : Options)
    (s : Session (Recorded σ)) :
    ((perform h.recorded env (.evaluate o)).on s).1
        = ((perform h env (.evaluate o)).on s.plain).1 ∧
      ((perform h.recorded env (.evaluate o)).on s).2.plain
        = ((perform h env (.evaluate o)).on s.plain).2 := by
  rw [perform, perform]
  cases hparse : Words.parse o.isTyped o.words with
  | error f =>
      rw [on_evaluateWords_error hparse, on_evaluateWords_error hparse]
      exact ⟨rfl, s.plain_saying h _⟩
  | ok e =>
      obtain ⟨hresult, hplain⟩ := evaluate_recorded h (ofConfiguration (settings env o)) e
        (s.saying h.recorded (.notice (.options o) :: warnings env))
      rw [s.plain_saying] at hresult hplain
      rw [on_evaluateWords_ok hparse, on_evaluateWords_ok hparse]
      revert hresult hplain
      rcases ((ofConfiguration (settings env o)).evaluate h.recorded e).on
        (s.saying h.recorded (.notice (.options o) :: warnings env)) with ⟨result, v⟩
      rcases ((ofConfiguration (settings env o)).evaluate h e).on
        (s.plain.saying h (.notice (.options o) :: warnings env)) with ⟨_, _⟩
      rintro rfl rfl
      cases result with
      | error f => exact ⟨rfl, v.plain_saying h _⟩
      | ok output => exact ⟨rfl, v.plain_saying h _⟩

/-- What an evaluation and a command line write, with a record of it. -/
structure EchoesOnce (h : Host σ) (ev : Evaluator) (e : Expression) (env : Environment)
    (o : Options) (s : Session σ) : Prop where
  evaluation : ∃ t, (ev.evaluate h.recorded e).on s.recording
      = (((ev.evaluate h e).on s).1, t) ∧
    t.plain = ((ev.evaluate h e).on s).2 ∧
    (h.Accepts ev.config.captureCap → Echoes h ev e s.recording ((ev.evaluate h e).on s).1 t)
  program : ∃ t, (perform h.recorded env (.evaluate o)).on s.recording
      = (((perform h env (.evaluate o)).on s).1, t) ∧
    t.plain = ((perform h env (.evaluate o)).on s).2 ∧
    Performs h env o s.recording ((perform h env (.evaluate o)).on s).1 t

/-- **An output is echoed once and only if all stages have returned, and failures and reports go
elsewhere.**  This is so for every evaluator and composition, every command line and environment,
and every host.  What an evaluation echoes rests on a standard output that takes what it is
offered; what is reported and the exit code do not. -/
theorem perform_writes (h : Host σ) (ev : Evaluator) (e : Expression) (env : Environment)
    (o : Options) (s : Session σ) : EchoesOnce h ev e env o s where
  evaluation := by
    obtain ⟨hresult, hplain⟩ := evaluate_recorded h ev e s.recording
    have hrun : (ev.evaluate h.recorded e).on s.recording
        = (((ev.evaluate h e).on s).1, ((ev.evaluate h.recorded e).on s.recording).2) :=
      Prod.ext hresult rfl
    exact ⟨_, hrun, hplain, fun ha => evaluate_echoes ha hrun⟩
  program := by
    obtain ⟨hresult, hplain⟩ := perform_recorded h env o s.recording
    have hrun : (perform h.recorded env (.evaluate o)).on s.recording
        = (((perform h env (.evaluate o)).on s).1,
          ((perform h.recorded env (.evaluate o)).on s.recording).2) :=
      Prod.ext hresult rfl
    exact ⟨_, hrun, hplain, perform_evaluate hrun⟩

/-! ## A sample -/

section Sample

open Sandbox Sandbox.Sample

/-- The sandbox, with a standard output that takes one byte at a time. -/
def trickling (oracle : Oracle) : Host State :=
  { host oracle with
    writeOut := fun bytes m => (.ok 1, { m with written := m.written ++ bytes.take 1 }) }

theorem accepts_trickling (oracle : Oracle) {size : Nat} (hsize : size ≤ 1000) :
    (trickling oracle).Accepts size where
  writeOut _ hne := ⟨1, rfl, Nat.one_pos, List.length_pos_of_ne_nil hne⟩
  patience _ := hsize

/-- A program that fails, and one whose output does not fit. -/
def options : Options where
  captureCap := some 3
  isReporting := true
  words := ["fail", "+", "say", "xyz"]

theorem perform_writes_sample :
    ((trickling oracle).Accepts Sample.evaluator.config.captureCap ∧
        (trickling oracle).Accepts (settings [] options).captureCap) ∧
      EchoesOnce (trickling oracle) Sample.evaluator composition [] options start ∧
      ((perform (trickling oracle).recorded [] (.evaluate options)).on start.recording).2.view
          Exchange.line?
        = ["status: done", "output truncated to 3 bytes", "fault: fail: failed: 3"] :=
  ⟨⟨accepts_trickling oracle (by decide), accepts_trickling oracle (by decide)⟩,
    perform_writes (trickling oracle) Sample.evaluator composition [] options start,
    by decide +kernel⟩

/-- The fault and the missing bytes do not matter to the exit code. -/
example :
    ((perform (trickling oracle) [] (.evaluate options)).on start).1 = 0 ∧
      ((perform (trickling oracle) [] (.evaluate options)).on start).2.machine.written
        = Bytes.ofString "nox" := by
  decide +kernel

end Sample

end CommandLine

end CommandExpr
