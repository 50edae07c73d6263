import CommandExpr.Machine.World
import CommandExpr.Proofs.Draining
import CommandExpr.Proofs.Recording
import Mathlib.Data.Finset.Card

/-!
# Writing without loss

The standard output may take fewer bytes than it is offered, and a signal may come before it
takes any.  What is left is offered again, until nothing is left or the standard output refuses.
So at any moment it has taken a beginning of the bytes, each of them once and in order.

`Offering` is the loop with the offers that it makes.  What is said of writing is read off this
relation: an offer is always of all that is left (`Offering.rest`), and a refusal is the last
answer (`Offering.refused_last`).  Writing ends because an offer that is not refused uses something
up, which is a byte or a signal (`Offering.stalled_lt`); beyond that it does not depend on how
many answers it waits for (`Offering.of_le`).

## Main definitions

* `Offer` — some bytes that are offered, and the answer
* `Offering` — a run of the loop, with its offers
* `Host.Gathers` — an account of what the standard output holds
* `Host.replying` — a host whose standard output answers by a sequence

## Main results

* `on_writeFrom_iff` — the relation is the loop.
* `Offering.conveys` — what the offers of a run come to.
* `writeAll_lossless` — writing loses nothing, repeats nothing, and ends.
-/

namespace CommandExpr

variable {σ : Type}

/-- Was it an attempt to write that a signal interrupted? -/
def Exchange.isInterruptedWrite : Exchange → Bool
  | writeOut _ (.error e) => e = .interrupted
  | _ => false

namespace Output

/-! ## Offers -/

/-- Some bytes that the standard output is offered, and what it answers. -/
structure Offer where
  bytes : Bytes
  /-- How many of the bytes are taken, or why none is. -/
  answer : Except Errno Nat
  deriving DecidableEq

namespace Offer

/-- The exchange in which the offer is made. -/
def exchange (o : Offer) : Exchange := .writeOut o.bytes o.answer

/-- The bytes that are taken. -/
def taken (o : Offer) : Bytes :=
  match o.answer with
  | .ok count => o.bytes.take count
  | .error _ => []

/-- The bytes that are left. -/
def left (o : Offer) : Bytes :=
  match o.answer with
  | .ok count => o.bytes.drop count
  | .error _ => o.bytes

/-- What writing fails with if the answer is a refusal: nothing was taken, and no signal was the
reason. -/
def refusal? (o : Offer) : Option Failure :=
  match o.answer with
  | .ok 0 => some .writeZero
  | .ok (_ + 1) => none
  | .error e => if e = .interrupted then none else some (.ofErrno e)

variable {o : Offer} {f : Failure}

@[simp] theorem taken_append_left (o : Offer) : o.taken ++ o.left = o.bytes := by
  obtain ⟨bytes, e | count⟩ := o
  · rfl
  · exact List.take_append_drop count bytes

/-- Nothing is taken by a refusal. -/
theorem taken_of_refusal? (hrefused : o.refusal? = some f) : o.taken = [] := by
  obtain ⟨bytes, e | _ | count⟩ := o
  · rfl
  · rfl
  · cases hrefused

/-- What a refusal makes writing fail with. -/
theorem eq_of_refusal? (hrefused : o.refusal? = some f) :
    f = .writeZero ∨ ∃ e, f = .ofErrno e := by
  obtain ⟨bytes, e | _ | count⟩ := o
  · simp only [refusal?] at hrefused
    split at hrefused
    · cases hrefused
    · exact .inr ⟨e, (Option.some.inj hrefused).symm⟩
  · exact .inl (Option.some.inj hrefused).symm
  · cases hrefused

/-- It is not the failure of a loop that is given up. -/
theorem ne_stalled_of_refusal? (hrefused : o.refusal? = some f) : f ≠ .stalled := by
  obtain rfl | ⟨e, rfl⟩ := eq_of_refusal? hrefused
  · exact fun heq => nomatch congrArg Failure.kind heq
  · exact fun heq => nomatch congrArg Failure.kind heq

end Offer

/-- How often a signal came before anything was taken. -/
def interruptions (record : List Exchange) : Nat := record.countP Exchange.isInterruptedWrite

/-- All that is taken of some offers. -/
def taken (offers : List Offer) : Bytes := offers.flatMap Offer.taken

@[simp] theorem taken_nil : taken [] = [] := rfl

@[simp] theorem taken_cons (o : Offer) (offers : List Offer) :
    taken (o :: offers) = o.taken ++ taken offers := rfl

theorem taken_append (offers more : List Offer) :
    taken (offers ++ more) = taken offers ++ taken more := List.flatMap_append

theorem interruptions_append (record more : List Exchange) :
    interruptions (record ++ more) = interruptions record + interruptions more :=
  List.countP_append

/-- The signals are the answers that are interruptions. -/
theorem interruptions_exchange (offers : List Offer) :
    interruptions (offers.map Offer.exchange)
      = (offers.map Offer.answer).countP (· = .error .interrupted) := by
  rw [interruptions, List.countP_map, List.countP_map]
  congr 1
  funext o
  obtain ⟨bytes, e | count⟩ := o
  · simp [Offer.exchange, Exchange.isInterruptedWrite]
  · simp [Offer.exchange, Exchange.isInterruptedWrite]

/-- **An offer that is not refused uses something up**: a byte, or a signal. -/
theorem Offer.length_left_lt {o : Offer} (hne : o.bytes ≠ []) (hgoes : o.refusal? = none) :
    o.left.length < o.bytes.length + interruptions [o.exchange] := by
  have hpos : 0 < o.bytes.length := List.length_pos_iff.mpr hne
  obtain ⟨bytes, e | _ | count⟩ := o
  · simp only [refusal?] at hgoes
    split at hgoes
    · next he => simp [left, interruptions, exchange, Exchange.isInterruptedWrite, he]
    · cases hgoes
  · cases hgoes
  · show (bytes.drop (count + 1)).length < bytes.length + 0
    simp only [List.length_drop] at hpos ⊢
    omega

/-! ## Runs -/

/-- The loop that writes some bytes waits for so many answers at most: which offers it makes, what
it comes to, and the machine before and after it. -/
inductive Offering (h : Host σ) :
    Nat → Bytes → σ → List Offer → Except Failure Unit → σ → Prop where
  /-- Nothing is left. -/
  | done {fuel : Nat} {m : σ} : Offering h fuel [] m [] (.ok ()) m
  /-- Something is left, but no more answers are waited for. -/
  | stalled {bytes : Bytes} {m : σ} (hne : bytes ≠ []) :
      Offering h 0 bytes m [] (.error .stalled) m
  /-- What is left is offered, and refused. -/
  | refused {fuel : Nat} {bytes : Bytes} {m m' : σ} {answer : Except Errno Nat} {f : Failure}
      (hne : bytes ≠ []) (hcall : h.writeOut bytes m = (answer, m'))
      (hrefused : Offer.refusal? ⟨bytes, answer⟩ = some f) :
      Offering h (fuel + 1) bytes m [⟨bytes, answer⟩] (.error f) m'
  /-- What is left is offered, and then what is left after that. -/
  | offered {fuel : Nat} {bytes : Bytes} {m m' m'' : σ} {answer : Except Errno Nat}
      {offers : List Offer} {result : Except Failure Unit}
      (hne : bytes ≠ []) (hcall : h.writeOut bytes m = (answer, m'))
      (hgoes : Offer.refusal? ⟨bytes, answer⟩ = none)
      (hrest : Offering h fuel (Offer.left ⟨bytes, answer⟩) m' offers result m'') :
      Offering h (fuel + 1) bytes m (⟨bytes, answer⟩ :: offers) result m''

variable {h : Host σ} {fuel : Nat} {bytes : Bytes} {m m' : σ} {offers : List Offer}
  {result : Except Failure Unit}

/-- One round of the loop. -/
theorem on_writeFrom_succ {answer : Except Errno Nat} (hne : bytes ≠ [])
    (hcall : h.writeOut bytes m = (answer, m')) (fuel : Nat) (n : UInt64) :
    (writeFrom h (fuel + 1) bytes).on ⟨n, m⟩ =
      match Offer.refusal? ⟨bytes, answer⟩ with
      | some f => (.error f, ⟨n, m'⟩)
      | none => (writeFrom h fuel (Offer.left ⟨bytes, answer⟩)).on ⟨n, m'⟩ := by
  have hoffer : (Host.call (h.writeOut bytes)).on ⟨n, m⟩ = (answer, ⟨n, m'⟩) := by
    rw [Action.on_call, hcall]
  rw [writeFrom, Action.on_bind_of _ hoffer]
  · obtain e | _ | count := answer
    · by_cases he : e = .interrupted
      · simp only [Offer.refusal?, he, if_true, Offer.left]
      · simp only [Offer.refusal?, he, if_false]
        rfl
    · rfl
    · rfl
  · exact hne

/-- There is always such a run. -/
theorem exists_offering (h : Host σ) (fuel : Nat) :
    ∀ (bytes : Bytes) (m : σ), ∃ offers result m', Offering h fuel bytes m offers result m' := by
  induction fuel with
  | zero =>
      intro bytes m
      by_cases hne : bytes = []
      · subst hne
        exact ⟨_, _, _, .done⟩
      · exact ⟨_, _, _, .stalled hne⟩
  | succ fuel ih =>
      intro bytes m
      by_cases hne : bytes = []
      · subst hne
        exact ⟨_, _, _, .done⟩
      · rcases hcall : h.writeOut bytes m with ⟨answer, m'⟩
        cases hrefusal : Offer.refusal? ⟨bytes, answer⟩ with
        | some f => exact ⟨_, _, _, .refused hne hcall hrefusal⟩
        | none =>
            obtain ⟨offers, result, m'', hrest⟩ := ih (Offer.left ⟨bytes, answer⟩) m'
            exact ⟨_, _, _, .offered hne hcall hrefusal hrest⟩

namespace Offering

/-- It is the run of the loop. -/
theorem on_writeFrom (ho : Offering h fuel bytes m offers result m') (n : UInt64) :
    (writeFrom h fuel bytes).on ⟨n, m⟩ = (result, ⟨n, m'⟩) := by
  induction ho with
  | done =>
      rw [writeFrom]
      rfl
  | stalled hne =>
      rw [writeFrom]
      · rfl
      · exact hne
  | refused hne hcall hrefused => rw [on_writeFrom_succ hne hcall, hrefused]
  | offered hne hcall hgoes _ ih =>
      rw [on_writeFrom_succ hne hcall, hgoes]
      exact ih

/-- What is offered is not nothing, and the answer is one of the host's. -/
theorem answered (ho : Offering h fuel bytes m offers result m') :
    ∀ o ∈ offers, o.bytes ≠ [] ∧ ∃ n, (h.writeOut o.bytes n).1 = o.answer := by
  induction ho with
  | done => exact List.forall_mem_nil _
  | stalled => exact List.forall_mem_nil _
  | refused hne hcall =>
      exact List.forall_mem_singleton.mpr ⟨hne, _, congrArg Prod.fst hcall⟩
  | offered hne hcall _ _ ih =>
      exact List.forall_mem_cons.mpr ⟨⟨hne, _, congrArg Prod.fst hcall⟩, ih⟩

/-- All that was not taken before is offered, whenever something is. -/
theorem rest (ho : Offering h fuel bytes m offers result m') :
    ∀ {before after : List Offer} {o : Offer}, offers = before ++ o :: after →
      taken before ++ o.bytes = bytes := by
  induction ho with
  | done => simp
  | stalled => simp
  | refused =>
      intro before after o heq
      cases before with
      | nil =>
          obtain ⟨rfl, -⟩ := List.cons.inj heq
          rfl
      | cons first before => simp at heq
  | @offered _ bytes _ _ _ answer _ _ _ _ _ _ ih =>
      intro before after o heq
      cases before with
      | nil =>
          obtain ⟨rfl, -⟩ := List.cons.inj heq
          rfl
      | cons first before =>
          -- a later offer is of what the first one has left
          obtain ⟨rfl, hrest⟩ := List.cons.inj heq
          rw [taken_cons, List.append_assoc, ih hrest, Offer.taken_append_left]

/-- What is taken is a beginning of the bytes, … -/
theorem beginning (ho : Offering h fuel bytes m offers result m') : taken offers <+: bytes := by
  induction ho with
  | done => exact List.prefix_refl []
  | stalled => exact List.nil_prefix
  | refused _ _ hrefused =>
      rw [taken_cons, Offer.taken_of_refusal? hrefused]
      exact List.nil_prefix
  | @offered _ bytes _ _ _ answer _ _ _ _ _ _ ih =>
      have hsplit : Offer.taken ⟨bytes, answer⟩ ++ Offer.left ⟨bytes, answer⟩ = bytes :=
        Offer.taken_append_left _
      have hmore : Offer.taken ⟨bytes, answer⟩ ++ taken _ <+: _ :=
        (List.prefix_append_right_inj _).mpr ih
      rwa [hsplit] at hmore

/-- … and it is all of them exactly if writing succeeds. -/
theorem ok_iff (ho : Offering h fuel bytes m offers result m') :
    result = .ok () ↔ taken offers = bytes := by
  induction ho with
  | done => simp
  | stalled hne => simpa using hne.symm
  | refused hne _ hrefused =>
      simp only [taken_cons, Offer.taken_of_refusal? hrefused]
      simpa using hne.symm
  | @offered _ bytes _ _ _ answer _ _ _ _ _ _ ih =>
      have hsplit : Offer.taken ⟨bytes, answer⟩ ++ Offer.left ⟨bytes, answer⟩ = bytes :=
        Offer.taken_append_left _
      rw [ih, taken_cons]
      constructor
      · intro heq
        rw [heq, hsplit]
      · intro heq
        exact List.append_cancel_left (heq.trans hsplit.symm)

/-- A refusal is the last answer, and writing fails with it. -/
theorem refused_last (ho : Offering h fuel bytes m offers result m') :
    ∀ {before after : List Offer} {o : Offer} {f : Failure}, offers = before ++ o :: after →
      o.refusal? = some f → after = [] ∧ result = .error f := by
  induction ho with
  | done => simp
  | stalled => simp
  | refused _ _ hrefused =>
      intro before after o f heq hf
      cases before with
      | nil =>
          obtain ⟨rfl, rfl⟩ := List.cons.inj heq
          obtain rfl := Option.some.inj (hrefused.symm.trans hf)
          exact ⟨rfl, rfl⟩
      | cons first before => simp at heq
  | offered _ _ hgoes _ ih =>
      intro before after o f heq hf
      cases before with
      | nil =>
          obtain ⟨rfl, -⟩ := List.cons.inj heq
          cases hgoes.symm.trans hf
      | cons first before => exact ih (List.cons.inj heq).2 hf

/-- Writing fails with a refusal only, or when it is given up. -/
theorem failed (ho : Offering h fuel bytes m offers result m') {f : Failure}
    (hresult : result = .error f) :
    (∃ before o, offers = before ++ [o] ∧ o.refusal? = some f) ∨
      f = .stalled ∧ offers.length = fuel := by
  induction ho with
  | done => cases hresult
  | stalled =>
      obtain rfl := Except.error.inj hresult
      exact .inr ⟨rfl, rfl⟩
  | refused _ _ hrefused =>
      obtain rfl := Except.error.inj hresult
      exact .inl ⟨[], _, rfl, hrefused⟩
  | offered _ _ _ _ ih =>
      obtain ⟨before, o, rfl, hrefused⟩ | ⟨rfl, hlength⟩ := ih hresult
      · exact .inl ⟨_ :: before, o, rfl, hrefused⟩
      · exact .inr ⟨rfl, congrArg (· + 1) hlength⟩

/-- **A loop is given up only before it has been answered once for every byte and every
signal.** -/
theorem stalled_lt (ho : Offering h fuel bytes m offers result m')
    (hresult : result = .error .stalled) :
    fuel < bytes.length + interruptions (offers.map Offer.exchange) := by
  induction ho with
  | done => cases hresult
  | stalled hne => exact Nat.lt_add_right _ (List.length_pos_iff.mpr hne)
  | refused _ _ hrefused =>
      exact absurd (Except.error.inj hresult) (Offer.ne_stalled_of_refusal? hrefused)
  | @offered fuel bytes _ _ _ answer offers _ hne _ hgoes _ ih =>
      -- what the first answer uses up makes room for one more
      have hused := Offer.length_left_lt (o := ⟨bytes, answer⟩) hne hgoes
      have hmore := ih hresult
      rw [List.map_cons, ← List.singleton_append, interruptions_append]
      simp only [Offer.exchange] at hused ⊢
      omega

/-- More patience changes nothing, unless the loop is given up. -/
theorem of_le (ho : Offering h fuel bytes m offers result m')
    (hresult : result ≠ .error .stalled) :
    ∀ {fuel' : Nat}, fuel ≤ fuel' → Offering h fuel' bytes m offers result m' := by
  induction ho with
  | done => exact fun _ => .done
  | stalled => exact absurd rfl hresult
  | refused hne hcall hrefused =>
      intro fuel' hle
      obtain ⟨k, rfl⟩ := Nat.exists_eq_add_of_le' (Nat.lt_of_lt_of_le (Nat.succ_pos _) hle)
      exact .refused hne hcall hrefused
  | offered hne hcall hgoes _ ih =>
      intro fuel' hle
      obtain ⟨k, rfl⟩ := Nat.exists_eq_add_of_le' (Nat.lt_of_lt_of_le (Nat.succ_pos _) hle)
      exact .offered hne hcall hgoes (ih hresult (Nat.le_of_succ_le_succ hle))

/-- On a recorded host the run is the same, and its offers go on record. -/
theorem recorded (ho : Offering h fuel bytes m offers result m') :
    ∀ record : List Exchange, Offering h.recorded fuel bytes (m, record) offers result
      (m', record ++ offers.map Offer.exchange) := by
  induction ho with
  | done =>
      intro record
      rw [List.map_nil, List.append_nil]
      exact .done
  | stalled hne =>
      intro record
      rw [List.map_nil, List.append_nil]
      exact .stalled hne
  | refused hne hcall hrefused =>
      exact fun record => .refused hne (Host.recordCall_eq hcall) hrefused
  | @offered _ bytes _ _ _ answer _ _ hne hcall hgoes _ ih =>
      intro record
      have hmore := ih (record ++ [.writeOut bytes answer])
      rw [List.append_assoc] at hmore
      exact .offered hne (Host.recordCall_eq hcall) hgoes hmore

end Offering

/-- **The relation is the loop.** -/
theorem on_writeFrom_iff {s t : Session σ} :
    (writeFrom h fuel bytes).on s = (result, t) ↔ t.nextRelay = s.nextRelay ∧
      ∃ offers, Offering h fuel bytes s.machine offers result t.machine := by
  obtain ⟨n, m⟩ := s
  obtain ⟨n', m'⟩ := t
  constructor
  · intro hrun
    obtain ⟨offers, result', m'', ho⟩ := exists_offering h fuel bytes m
    rw [ho.on_writeFrom n] at hrun
    cases hrun
    exact ⟨rfl, offers, ho⟩
  · rintro ⟨rfl, offers, ho⟩
    exact ho.on_writeFrom _

/-- A run on a recorded host, and the run that it records. -/
theorem on_writeFrom_recorded (h : Host σ) (fuel : Nat) (bytes : Bytes)
    (s : Session (Recorded σ)) :
    ∃ offers result m', Offering h fuel bytes s.machine.1 offers result m' ∧
      (writeFrom h.recorded fuel bytes).on s
        = (result, ⟨s.nextRelay, m', s.record ++ offers.map Offer.exchange⟩) := by
  obtain ⟨offers, result, m', ho⟩ := exists_offering h fuel bytes s.machine.1
  exact ⟨offers, result, m', ho, (ho.recorded s.record).on_writeFrom s.nextRelay⟩

theorem on_writeAll (h : Host σ) (bytes : Bytes) (s : Session σ) :
    (writeAll h bytes).on s = (writeFrom h (h.patience s.machine) bytes).on s := rfl

/-! ## What writing comes to -/

/-- What the offers show by which some bytes are written, if so many answers are waited for. -/
structure Conveys (bytes : Bytes) (fuel : Nat) (offers : List Offer)
    (result : Except Failure Unit) : Prop where
  /-- Whenever something is offered, it is all that was not taken before, … -/
  rest {before after : List Offer} {o : Offer} : offers = before ++ o :: after →
    taken before ++ o.bytes = bytes ∧ o.bytes ≠ []
  /-- … so that at any moment a beginning of the bytes was taken. -/
  beginning {before : List Offer} : before <+: offers → taken before <+: bytes
  /-- Writing succeeds exactly if all bytes were taken. -/
  ok_iff : result = .ok () ↔ taken offers = bytes
  /-- Nothing is offered after a refusal, and writing fails with it.  … -/
  refused {before after : List Offer} {o : Offer} {f : Failure} : offers = before ++ o :: after →
    o.refusal? = some f → after = [] ∧ result = .error f
  /-- … It does not fail otherwise, unless the answers that are waited for are used up. -/
  failed {f : Failure} : result = .error f →
    (∃ before o, offers = before ++ [o] ∧ o.refusal? = some f) ∨
      f = .stalled ∧ offers.length = fuel
  /-- It fails of its own if the last offer was answered with nothing, … -/
  nothing {before : List Offer} {o : Offer} : offers = before ++ [o] → o.answer = .ok 0 →
    ∃ f, result = .error f ∧ f.Says (.io .writeZero) "write returned zero bytes"
  /-- … and with the host's error if it was answered with one. -/
  errno {before : List Offer} {o : Offer} {e : Errno} : offers = before ++ [o] →
    o.answer = .error e → e ≠ .interrupted →
      ∃ f, result = .error f ∧ f.Says (.os e) e.desc

/-- **No byte is lost, and none is written twice.** -/
theorem Offering.conveys (ho : Offering h fuel bytes m offers result m') :
    Conveys bytes fuel offers result where
  rest {before after o} hoffers := by
    have hmem : o ∈ offers := by simp [hoffers]
    exact ⟨ho.rest hoffers, (ho.answered o hmem).1⟩
  beginning {before} hbefore := by
    obtain ⟨after, rfl⟩ := hbefore
    have hpart : taken before <+: taken (before ++ after) := by
      rw [taken_append]
      exact List.prefix_append _ _
    exact hpart.trans ho.beginning
  ok_iff := ho.ok_iff
  refused := ho.refused_last
  failed := ho.failed
  nothing {before o} hoffers hanswer := by
    have hrefused : o.refusal? = some .writeZero := by rw [Offer.refusal?, hanswer]
    exact ⟨_, (ho.refused_last hoffers hrefused).2, rfl, rfl⟩
  errno {before o e} hoffers hanswer he := by
    have hrefused : o.refusal? = some (.ofErrno e) := by simp [Offer.refusal?, hanswer, he]
    exact ⟨_, (ho.refused_last hoffers hrefused).2, rfl, rfl⟩

end Output

/-- An account of what the standard output holds: whatever it takes of an offer comes behind what
it held before. -/
def Host.Gathers (h : Host σ) (held : σ → Bytes) : Prop :=
  ∀ (bytes : Bytes) (m : σ),
    held (h.writeOut bytes m).2 = held m ++ Output.Offer.taken ⟨bytes, (h.writeOut bytes m).1⟩

namespace Output

variable {h : Host σ} {fuel : Nat} {bytes : Bytes} {m m' : σ} {offers : List Offer}
  {result : Except Failure Unit} {s : Session σ}

theorem Offering.held_eq (ho : Offering h fuel bytes m offers result m') {held : σ → Bytes}
    (hheld : h.Gathers held) : held m' = held m ++ taken offers := by
  induction ho with
  | done => simp
  | stalled => simp
  | @refused _ bytes m _ _ _ _ hcall =>
      have hone := hheld bytes m
      rw [hcall] at hone
      simpa using hone
  | @offered _ bytes m _ _ _ _ _ _ hcall _ _ ih =>
      have hone := hheld bytes m
      rw [hcall] at hone
      rw [ih, hone, taken_cons, List.append_assoc]

/-- **Writing ends if signals are finite in number**: beyond one answer for every byte and every
signal it does not matter how many are waited for. -/
theorem writeFrom_ends {signals : Nat}
    (hsignals : ∀ fuel,
      interruptions ((writeFrom h.recorded fuel bytes).on s.recording).2.record ≤ signals) :
    ∃ result t, result ≠ .error .stalled ∧
      ∀ fuel, bytes.length + signals ≤ fuel → (writeFrom h fuel bytes).on s = (result, t) := by
  obtain ⟨offers, result, m', ho, hrun⟩ :=
    on_writeFrom_recorded h (bytes.length + signals) bytes s.recording
  have hfew := hsignals (bytes.length + signals)
  rw [hrun] at hfew
  change interruptions (offers.map Offer.exchange) ≤ signals at hfew
  have hresult : result ≠ .error .stalled := by
    intro hstalled
    have hmany := ho.stalled_lt hstalled
    omega
  exact ⟨result, _, hresult, fun fuel hle => (ho.of_le hresult hle).on_writeFrom s.nextRelay⟩

/-- What is said of writing some bytes in a session. -/
structure Lossless (h : Host σ) (bytes : Bytes) (s : Session σ) : Prop where
  /-- Nothing is done but to make offers, and these show what has become of the bytes. -/
  conveys : ∃ t offers, (writeAll h.recorded bytes).on s.recording
      = (((writeAll h bytes).on s).1, t) ∧
    t.plain = ((writeAll h bytes).on s).2 ∧ t.record = offers.map Offer.exchange ∧
    Conveys bytes (h.patience s.machine) offers ((writeAll h bytes).on s).1
  /-- After any number of answers the standard output holds what it held before, and behind it
  a beginning of the bytes, which is all of them exactly if writing has succeeded. -/
  held {held : σ → Bytes} : h.Gathers held → ∀ fuel, ∃ front, front <+: bytes ∧
    held ((writeFrom h fuel bytes).on s).2.machine = held s.machine ++ front ∧
    (((writeFrom h fuel bytes).on s).1 = .ok () ↔ front = bytes)
  /-- If there are no bytes, nothing is called. -/
  nothing : bytes = [] → (writeAll h.recorded bytes).on s.recording = (.ok (), s.recording)
  /-- Writing ends if signals are finite in number, and is not given up if that many answers are
  waited for. -/
  ends {signals : Nat} : (∀ fuel,
      interruptions ((writeFrom h.recorded fuel bytes).on s.recording).2.record ≤ signals) →
    ∃ result t, result ≠ .error .stalled ∧
      (∀ fuel, bytes.length + signals ≤ fuel → (writeFrom h fuel bytes).on s = (result, t)) ∧
      (bytes.length + signals ≤ h.patience s.machine → (writeAll h bytes).on s = (result, t))

/-- **Writing loses nothing and repeats nothing**, and it ends.  This is so for all bytes, and
whatever the standard output answers. -/
theorem writeAll_lossless (h : Host σ) (bytes : Bytes) (s : Session σ) : Lossless h bytes s where
  conveys := by
    obtain ⟨offers, result, m', ho, hrun⟩ :=
      on_writeFrom_recorded h (h.patience s.machine) bytes s.recording
    have hplain : (writeFrom h (h.patience s.machine) bytes).on s = (result, ⟨s.nextRelay, m'⟩) :=
      ho.on_writeFrom s.nextRelay
    rw [on_writeAll h, hplain]
    exact ⟨_, offers, hrun, rfl, rfl, ho.conveys⟩
  held hheld fuel := by
    rcases hrun : (writeFrom h fuel bytes).on s with ⟨result, t⟩
    obtain ⟨-, offers, ho⟩ := on_writeFrom_iff.mp hrun
    exact ⟨taken offers, ho.beginning, ho.held_eq hheld, ho.ok_iff⟩
  nothing hbytes := by
    subst hbytes
    exact Offering.done.on_writeFrom _
  ends hsignals := by
    obtain ⟨result, t, hresult, hrun⟩ := writeFrom_ends hsignals
    exact ⟨result, t, hresult, hrun, hrun (h.patience s.machine)⟩

end Output

/-! ## Sequences of answers -/

/-- A host whose standard output answers by a sequence.  The record says how far it has come. -/
def Host.replying (h : Host σ) (answers : Nat → Except Errno Nat) : Host (Recorded σ) :=
  { h.recorded with
    writeOut := fun bytes m =>
      (answers m.2.length, m.1, m.2 ++ [.writeOut bytes (answers m.2.length)]) }

namespace Output

variable {h : Host σ} {answers : Nat → Except Errno Nat}

theorem Offering.map_answer {fuel : Nat} {bytes : Bytes} {m m' : Recorded σ}
    {offers : List Offer} {result : Except Failure Unit}
    (ho : Offering (h.replying answers) fuel bytes m offers result m') :
    offers.map Offer.answer = (List.range' m.2.length offers.length).map answers := by
  induction ho with
  | done => rfl
  | stalled => rfl
  | refused _ hcall =>
      obtain ⟨rfl, rfl⟩ := Prod.mk.inj hcall
      rfl
  | @offered _ _ m _ _ _ _ _ _ hcall _ _ ih =>
      obtain ⟨rfl, rfl⟩ := Prod.mk.inj hcall
      rw [List.map_cons, ih, List.length_cons, List.range'_succ, List.map_cons,
        List.length_append]
      rfl

/-- If signals are finite in number in the sequence, they are so while something is written. -/
theorem interruptions_replying_le {signals : Finset Nat}
    (hsignals : ∀ k, answers k = .error .interrupted → k ∈ signals) (fuel : Nat) (bytes : Bytes)
    (s : Session (Recorded σ)) :
    interruptions ((writeFrom (h.replying answers).recorded fuel bytes).on s.recording).2.record
      ≤ signals.card := by
  obtain ⟨offers, result, m', ho, hrun⟩ :=
    on_writeFrom_recorded (h.replying answers) fuel bytes s.recording
  have hnodup : (List.range' s.recording.machine.1.2.length offers.length).Nodup :=
    List.nodup_range'
  rw [hrun]
  show interruptions (offers.map Offer.exchange) ≤ signals.card
  rw [interruptions_exchange, ho.map_answer, List.countP_map, List.countP_eq_length_filter,
    ← List.toFinset_card_of_nodup (hnodup.filter _)]
  apply Finset.card_le_card
  intro k hk
  simp only [List.mem_toFinset, List.mem_filter, Function.comp_apply, decide_eq_true_eq] at hk
  exact hsignals k hk.2

/-! ## A sample -/

/-- A signal comes, two bytes are taken, a signal comes again, and then a byte is taken at a
time. -/
def halting : Nat → Except Errno Nat
  | 0 | 2 => .error .interrupted
  | 1 => .ok 2
  | _ => .ok 1

theorem mem_of_halting (k : Nat) (hk : halting k = .error .interrupted) :
    k ∈ ({0, 2} : Finset Nat) := by
  match k with
  | 0 | 2 => simp
  | 1 => cases hk
  | _ + 3 => cases hk

/-- What a machine has written is an account of what its standard output holds. -/
theorem gathers_world : Machine.World.host.Gathers fun w => w.written.reverse.flatten := by
  intro bytes w
  by_cases hfull : w.isFull = true
  · simp [Machine.World.host, hfull, Offer.taken]
  · simp [Machine.World.host, hfull, Offer.taken]

open Script in
theorem writeAll_lossless_sample :
    ((∀ fuel, interruptions ((writeFrom (host.replying halting).recorded fuel [1, 2, 3, 4]).on
          sample.recording.recording).2.record ≤ 2) ∧
        Machine.World.host.Gathers fun w => w.written.reverse.flatten) ∧
      Lossless (host.replying halting) [1, 2, 3, 4] sample.recording ∧
      ∃ result t, result ≠ .error .stalled ∧
        (writeAll (host.replying halting) [1, 2, 3, 4]).on sample.recording = (result, t) := by
  have hsignals := fun fuel =>
    interruptions_replying_le (h := host) mem_of_halting fuel [1, 2, 3, 4] sample.recording
  have hlossless := writeAll_lossless (host.replying halting) [1, 2, 3, 4] sample.recording
  obtain ⟨result, t, hresult, -, hrun⟩ := hlossless.ends hsignals
  exact ⟨⟨hsignals, gathers_world⟩, hlossless, result, t, hresult, hrun (by decide)⟩

open Script in
/-- What was not taken is offered again. -/
example :
    let written := (writeAll (host.replying halting) [1, 2, 3, 4]).on sample.recording
    written.1 = .ok () ∧ written.2.record =
      [.writeOut [1, 2, 3, 4] (.error .interrupted), .writeOut [1, 2, 3, 4] (.ok 2),
        .writeOut [3, 4] (.error .interrupted), .writeOut [3, 4] (.ok 1), .writeOut [4] (.ok 1)] :=
  ⟨rfl, rfl⟩

end Output

end CommandExpr
