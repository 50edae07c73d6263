import CommandExpr.Proofs.Catalog
import CommandExpr.Proofs.Recording
import CommandExpr.Proofs.Vacancies

/-!
# The first free name

A relay is made under the first name that is free, counted from the session's next
number.  The search looks at nothing beforehand: each name is tried, and a name that
is taken says so.  So the names are described as the search comes to them.
`Relay.reaching` is the session in which a name is tried after so many others that
were taken, and `Relay.attempt` is what the attempt comes to there.  As long as names
are taken, the search is where it would be if it had started at the last of them
(`Relay.creates_of_reaching`), and nothing has changed but the number.

## Main definitions

* `Session.number` — the numbers from a session's next one on
* `Relay.reaching`, `Relay.attempt` — the attempts of a search
* `Relay.Numbers` — relays made one after the other, whatever happens in between

## Main results

* `Relay.create_first_free` — the relay that is made, or why there is none, the
  names that are tried, and the order of the numbers.
-/

namespace CommandExpr

variable {σ ι : Type}

/-! ## Numbers -/

namespace Session

/-- The number after so many others, from the next one on. -/
def number (s : Session σ) (k : Nat) : UInt64 := UInt64.ofNat (s.nextRelay.toNat + k)

/-- The numbers of one search do not come round. -/
def HasRoom (s : Session σ) : Prop := s.nextRelay.toNat + Relay.maxAttempts < 2 ^ 64

variable {s : Session σ} {k : Nat}

theorem number_zero (s : Session σ) : s.number 0 = s.nextRelay := UInt64.ofNat_toNat

theorem number_succ (s : Session σ) (k : Nat) : s.number (k + 1) = s.number k + 1 := by
  rw [number, ← Nat.add_assoc, UInt64.ofNat_add]
  rfl

theorem number_eq (s : Session σ) (k : Nat) : s.number k = s.nextRelay + UInt64.ofNat k := by
  rw [number, UInt64.ofNat_add, UInt64.ofNat_toNat]

/-- The numbers after the next one are those of the session that has taken it. -/
theorem number_of_next {τ : Type} {t : Session τ} (hnext : t.nextRelay = s.nextRelay + 1)
    (k : Nat) : t.number k = s.number (k + 1) := by
  rw [number_eq, number_eq, hnext, Nat.add_comm k 1, UInt64.ofNat_add, ← UInt64.add_assoc]
  rfl

theorem toNat_number (hroom : s.HasRoom) (hk : k ≤ Relay.maxAttempts) :
    (s.number k).toNat = s.nextRelay.toNat + k := by
  have hlt : s.nextRelay.toNat + k < 2 ^ 64 :=
    Nat.lt_of_le_of_lt (Nat.add_le_add_left hk _) hroom
  exact UInt64.toNat_ofNat_of_lt' hlt

end Session

namespace Relay

/-! ## Attempts -/

/-- The session in which a name is tried after so many others that were all taken. -/
def reaching (h : Host σ) (store : RelayStore) (s : Session σ) : Nat → Session σ
  | 0 => s
  | k + 1 =>
      (tryNext h store (reaching h store s k)).2.noted h
        (.relayTaken (store.pathOf (reaching h store s k).nextRelay).display)

/-- What comes of a name after so many others that were all taken. -/
def attempt (h : Host σ) (store : RelayStore) (s : Session σ) (k : Nat) :
    Except IoError Handle :=
  (tryNext h store (reaching h store s k)).1

/-- The name is taken, as far as the attempt tells. -/
def IsTaken (answer : Except IoError Handle) : Prop :=
  ∃ e, answer = .error e ∧ e.kind = .alreadyExists

variable {h : Host σ} {store : RelayStore} {s t : Session σ} {k left tried : Nat}
  {result : Except Failure Relay}

theorem nextRelay_reaching (k : Nat) : (reaching h store s k).nextRelay = s.number k := by
  induction k with
  | zero => exact s.number_zero.symm
  | succ k ih =>
      rw [s.number_succ, ← ih]
      exact nextRelay_tryNext h store _

/-- After names that were taken the search goes on from where they end. -/
theorem creates_of_reaching (htaken : ∀ j < k, IsTaken (attempt h store s j))
    (hc : Creates h store left k (reaching h store s k) result t) :
    Creates h store (left + k) 0 s result t := by
  induction k generalizing left with
  | zero => exact hc
  | succ k ih =>
      obtain ⟨e, hanswer, hkind⟩ := htaken k (Nat.lt_succ_self k)
      have hstep := Creates.taken (Prod.ext hanswer rfl) hkind hc
      have hrest := ih (fun j hj => htaken j (Nat.lt_succ_of_lt hj)) hstep
      rw [Nat.add_right_comm] at hrest
      exact hrest

/-- The first name that can be made is that of the relay. -/
theorem create_of_made (hk : k < maxAttempts) (htaken : ∀ j < k, IsTaken (attempt h store s j))
    {handle : Handle} {u : Session σ}
    (hmade : tryNext h store (reaching h store s k) = (.ok handle, u)) :
    (create h store).on s
      = (.ok ⟨s.number k, store.pathOf (s.number k), handle⟩,
        u.noted h (.relayCreated (store.pathOf (s.number k)).display)) := by
  have hc : Creates h store (maxAttempts - 1 - k) k (reaching h store s k) _ _ := .made hmade
  rw [nextRelay_reaching] at hc
  have hall := creates_of_reaching htaken hc
  rw [Nat.sub_add_cancel (by omega)] at hall
  exact create_eq_iff.mpr hall

/-- The first attempt that fails, and not because the name is taken, ends the search,
and so does the last one that is made at all. -/
theorem create_of_refused (hk : k < maxAttempts)
    (htaken : ∀ j < k, IsTaken (attempt h store s j)) {e : IoError} {u : Session σ}
    (hrefused : tryNext h store (reaching h store s k) = (.error e, u))
    (hlast : e.kind = .alreadyExists → k + 1 = maxAttempts) :
    (create h store).on s
      = (.error (.relayNotCreated (store.pathOf (s.number k)).display e (k + 1)), u) := by
  have hc : Creates h store (maxAttempts - 1 - k) k (reaching h store s k) _ _ :=
    .refused hrefused fun hkind => by
      have := hlast hkind
      omega
  rw [nextRelay_reaching] at hc
  have hall := creates_of_reaching htaken hc
  rw [Nat.sub_add_cancel (by omega)] at hall
  exact create_eq_iff.mpr hall

/-! ## What stands under the names -/

section Catalog

variable [DecidableEq ι] {cat : Catalog σ ι}

/-- An attempt that fails changes nothing but the number. -/
private theorem same_tryNext (w : cat.Lawful h) {e : IoError} {u : Session σ}
    (hrefused : tryNext h store s = (.error e, u)) : cat.Same s.machine u.machine := by
  rcases of_onPath_error hrefused with heq | ⟨errno, hfailed⟩
  · rw [heq]
    exact .refl cat _
  · exact w.createNew_error hfailed

/-- So the search finds everything as it was. -/
theorem same_reaching (w : cat.Lawful h) (htaken : ∀ j < k, IsTaken (attempt h store s j)) :
    cat.Same s.machine (reaching h store s k).machine := by
  induction k with
  | zero => exact .refl cat _
  | succ k ih =>
      obtain ⟨e, hanswer, -⟩ := htaken k (Nat.lt_succ_self k)
      have hkept := ih fun j hj => htaken j (Nat.lt_succ_of_lt hj)
      exact (hkept.trans (same_tryNext w (Prod.ext hanswer rfl))).trans (w.tell _ _)

/-- A name under which something stands is not made. -/
private theorem isTaken_of_not_isFree (w : cat.Lawful h)
    (hstands : ¬cat.IsFree s.machine (store.pathOf s.nextRelay))
    (hkind : ∀ e, (tryNext h store s).1 = .error e → e.kind = .alreadyExists) :
    IsTaken (tryNext h store s).1 := by
  rcases hcall : tryNext h store s with ⟨e | handle, u⟩
  · exact ⟨e, rfl, hkind e (congrArg Prod.fst hcall)⟩
  · exact absurd (w.createNew_ok (of_onPath_ok hcall).2).isFree hstands

/-- Nor is a name said to be taken under which nothing stands. -/
private theorem not_isTaken_of_isFree (w : cat.Lawful h)
    (hfree : cat.IsFree s.machine (store.pathOf s.nextRelay)) :
    ¬IsTaken (tryNext h store s).1 := by
  rintro ⟨e, hanswer, hkind⟩
  have hcall : (onPath (store.pathOf s.nextRelay) h.createNew).on
      { s with nextRelay := s.nextRelay + 1 } = (.error e, (tryNext h store s).2) :=
    Prod.ext hanswer rfl
  cases hnul : (store.pathOf s.nextRelay).bytes.hasNul with
  | true =>
      rw [on_onPath_refused _ _ hnul] at hcall
      obtain rfl := Except.error.inj (congrArg Prod.fst hcall)
      cases hkind
  | false =>
      rw [on_onPath hnul] at hcall
      rcases hmade : h.createNew (store.pathOf s.nextRelay) s.machine with ⟨answer, m⟩
      rw [hmade] at hcall
      cases answer with
      | ok handle => cases congrArg Prod.fst hcall
      | error errno =>
          obtain rfl := Except.error.inj (congrArg Prod.fst hcall)
          exact w.not_isFree hmade hkind hfree

/-- The names before the first free one are all taken. -/
theorem isTaken_of_first (w : cat.Lawful h)
    (hstands : ∀ j < k, ¬cat.IsFree s.machine (store.pathOf (s.number j)))
    (hkind : ∀ j < k, ∀ e, attempt h store s j = .error e → e.kind = .alreadyExists) :
    ∀ j < k, IsTaken (attempt h store s j) := by
  induction k with
  | zero =>
      intro j hj
      exact absurd hj (Nat.not_lt_zero j)
  | succ k ih =>
      have hbefore := ih (fun j hj => hstands j (Nat.lt_succ_of_lt hj))
        fun j hj => hkind j (Nat.lt_succ_of_lt hj)
      intro j hj
      rcases Nat.lt_succ_iff_lt_or_eq.mp hj with hlt | rfl
      · exact hbefore j hlt
      · refine isTaken_of_not_isFree w ?_ (hkind j hj)
        rw [(same_reaching w hbefore).isFree_iff, nextRelay_reaching]
        exact hstands j hj

/-- **The first free name is that of the relay**, under which there is a new and empty
file; nothing else has changed. -/
theorem create_of_isFree (w : cat.Lawful h) (hroom : s.HasRoom) (hk : k < maxAttempts)
    (hfree : cat.IsFree s.machine (store.pathOf (s.number k)))
    (hstands : ∀ j < k, ¬cat.IsFree s.machine (store.pathOf (s.number j)))
    (hkind : ∀ j ≤ k, ∀ e, attempt h store s j = .error e → e.kind = .alreadyExists) :
    ∃ relay t, (create h store).on s = (.ok relay, t) ∧
      relay.id.toNat = s.nextRelay.toNat + k ∧ relay.path = store.pathOf relay.id ∧
      t.nextRelay.toNat = relay.id.toNat + 1 ∧
      cat.Adds relay.path relay.handle s.machine t.machine := by
  have htaken := isTaken_of_first w hstands fun j hj => hkind j (Nat.le_of_lt hj)
  have hsame := same_reaching w htaken
  have hfree' : cat.IsFree (reaching h store s k).machine
      (store.pathOf (reaching h store s k).nextRelay) := by
    rwa [nextRelay_reaching, hsame.isFree_iff]
  rcases hcall : tryNext h store (reaching h store s k) with ⟨e | handle, u⟩
  · have hanswer := congrArg Prod.fst hcall
    exact absurd ⟨e, hanswer, hkind k (Nat.le_refl k) e hanswer⟩ (not_isTaken_of_isFree w hfree')
  · have hnext : u.nextRelay = s.number k + 1 := by
      have := nextRelay_tryNext h store (reaching h store s k)
      rwa [hcall, nextRelay_reaching] at this
    have hadds := w.createNew_ok (of_onPath_ok hcall).2
    rw [nextRelay_reaching] at hadds
    refine ⟨_, _, create_of_made hk htaken hcall, s.toNat_number hroom (Nat.le_of_lt hk), rfl, ?_,
      (hsame.adds hadds).tell w _⟩
    change u.nextRelay.toNat = _
    rw [hnext, ← s.number_succ, s.toNat_number hroom hk, s.toNat_number hroom (Nat.le_of_lt hk)]
    rfl

/-- **An attempt that fails for another reason is the last one.**  It is counted in the
failure, and nothing has changed but the number. -/
theorem create_of_error (w : cat.Lawful h) (hroom : s.HasRoom) (hk : k < maxAttempts)
    (htaken : ∀ j < k, IsTaken (attempt h store s j)) {e : IoError}
    (hrefused : attempt h store s k = .error e)
    (hlast : e.kind = .alreadyExists → k + 1 = maxAttempts) :
    ∃ f t, (create h store).on s = (.error f, t) ∧ f.kind = .relay ∧
      f.notes.getLast? = some s!"after {k + 1} attempts" ∧
      t.nextRelay.toNat = s.nextRelay.toNat + (k + 1) ∧ cat.Same s.machine t.machine := by
  rcases hcall : tryNext h store (reaching h store s k) with ⟨answer, u⟩
  obtain rfl : answer = .error e := (congrArg Prod.fst hcall).symm.trans hrefused
  have hnext : u.nextRelay = s.number (k + 1) := by
    have := nextRelay_tryNext h store (reaching h store s k)
    rwa [hcall, nextRelay_reaching, ← s.number_succ] at this
  refine ⟨_, u, create_of_refused hk htaken hcall hlast, rfl, rfl, ?_,
    (same_reaching w htaken).trans (same_tryNext w hcall)⟩
  rw [hnext, s.toNat_number hroom hk]

end Catalog

/-! ## How many attempts there are -/

/-- The names that are tried when numbers are taken: none if they cannot be handed over. -/
def tries (store : RelayStore) (s : Session σ) (count : Nat) : List Path :=
  if store.dir.bytes.hasNul then []
  else (List.range count).map fun k => store.pathOf (s.number k)

theorem tries_succ (store : RelayStore) (hnext : t.nextRelay = s.nextRelay + 1) (count : Nat) :
    tries store s (count + 1) = tries store s 1 ++ tries store t count := by
  unfold tries
  split
  · rfl
  · rw [List.range_succ_eq_map, List.map_cons, List.map_map]
    simp only [Function.comp_def, Session.number_of_next hnext]
    rfl

end Relay

/-- A name that was tried to make a file under. -/
def Exchange.trying? : Exchange → Option Path
  | .createNew path _ => some path
  | _ => none

namespace Relay

section Recorded

variable {h : Host σ} {store : RelayStore} {s t : Session (Recorded σ)} {left tried : Nat}
  {result : Except Failure Relay}

/-- An attempt tries the next name, if it can be handed over. -/
private theorem tryNext_trying {answer : Except IoError Handle}
    (hcall : tryNext h.recorded store s = (answer, t)) :
    t.view Exchange.trying? = s.view Exchange.trying? ++ tries store s 1 := by
  obtain ⟨given, hrecord⟩ := record_onPath (f := h.createNew) (g := .createNew) hcall
  rw [Session.view, hrecord, List.filterMap_append, tries, ← store.hasNul_pathOf s.nextRelay,
    List.range_one, List.map_singleton, s.number_zero]
  split <;> rfl

/-- Each attempt takes one number and tries one name. -/
theorem Creates.trying (hc : Creates h.recorded store left tried s result t) :
    ∃ count ≤ left, t.nextRelay = s.number (count + 1) ∧
      t.view Exchange.trying? = s.view Exchange.trying? ++ tries store s (count + 1) := by
  induction hc with
  | @made left tried s t handle hcall =>
      refine ⟨0, Nat.zero_le _, ?_, ?_⟩
      · rw [s.number_succ, s.number_zero]
        exact nextRelay_of_onPath hcall
      · rw [view_noted h fun _ => rfl]
        exact tryNext_trying hcall
  | @refused left tried s t e hcall _ =>
      refine ⟨0, Nat.zero_le _, ?_, tryNext_trying hcall⟩
      rw [s.number_succ, s.number_zero]
      exact nextRelay_of_onPath hcall
  | @taken left tried s t u e result hcall _ _ ih =>
      obtain ⟨count, hle, hnext, hview⟩ := ih
      have hstep : t.nextRelay = s.nextRelay + 1 := nextRelay_of_onPath hcall
      refine ⟨count + 1, Nat.succ_le_succ hle, ?_, ?_⟩
      · rw [hnext]
        exact Session.number_of_next hstep (count + 1)
      · rw [hview, view_noted h fun _ => rfl, tryNext_trying hcall, List.append_assoc,
          tries_succ store hstep (count + 1)]
        rfl

end Recorded

/-! ## The order of the numbers -/

/-- The number of a relay is the last one that was taken. -/
theorem Creates.number {h : Host σ} {store : RelayStore} {s t : Session σ} {left tried : Nat}
    {result : Except Failure Relay} (hc : Creates h store left tried s result t) :
    ∃ count ≤ left, t.nextRelay = s.number (count + 1) ∧
      ∀ relay, result = .ok relay → relay.id = s.number count := by
  induction hc with
  | @made left tried s t handle hcall =>
      refine ⟨0, Nat.zero_le _, ?_, ?_⟩
      · rw [s.number_succ, s.number_zero]
        exact nextRelay_of_onPath hcall
      · rintro _ ⟨⟩
        exact s.number_zero.symm
  | @refused left tried s t e hcall _ =>
      refine ⟨0, Nat.zero_le _, ?_, by simp⟩
      rw [s.number_succ, s.number_zero]
      exact nextRelay_of_onPath hcall
  | @taken left tried s t u e result hcall _ _ ih =>
      obtain ⟨count, hle, hnext, hid⟩ := ih
      have hstep : t.nextRelay = s.nextRelay + 1 := nextRelay_of_onPath hcall
      refine ⟨count + 1, Nat.succ_le_succ hle, ?_, fun relay hrelay => ?_⟩
      · rw [hnext]
        exact Session.number_of_next hstep (count + 1)
      · rw [hid relay hrelay]
        exact Session.number_of_next hstep count

/-- Relays are made one after the other, through whatever stores; an attempt to make
one may fail, and in between anything may happen that takes no number. -/
inductive Numbers (h : Host σ) : Session σ → List UInt64 → Session σ → Prop where
  | none {s : Session σ} : Numbers h s [] s
  | created {store : RelayStore} {relay : Relay} {ids : List UInt64} {s t u : Session σ}
      (hroom : s.HasRoom) (hrun : (create h store).on s = (.ok relay, t))
      (hrest : Numbers h t ids u) : Numbers h s (relay.id :: ids) u
  | failed {store : RelayStore} {f : Failure} {ids : List UInt64} {s t u : Session σ}
      (hroom : s.HasRoom) (hrun : (create h store).on s = (.error f, t))
      (hrest : Numbers h t ids u) : Numbers h s ids u
  | other {ids : List UInt64} {s t u : Session σ} (hnext : t.nextRelay = s.nextRelay)
      (hrest : Numbers h t ids u) : Numbers h s ids u

/-- What has been taken is less than the next number, and a relay's number is not less
than the next one before. -/
private theorem toNat_of_create {h : Host σ} {store : RelayStore} {s t : Session σ}
    {result : Except Failure Relay} (hroom : s.HasRoom)
    (hrun : (create h store).on s = (result, t)) :
    s.nextRelay.toNat ≤ t.nextRelay.toNat ∧ ∀ relay, result = .ok relay →
      s.nextRelay.toNat ≤ relay.id.toNat ∧ relay.id.toNat < t.nextRelay.toNat := by
  obtain ⟨count, hle, hnext, hid⟩ := (create_eq_iff.mp hrun).number
  have hcount : count + 1 ≤ maxAttempts := by
    unfold maxAttempts at hle ⊢
    omega
  rw [hnext, s.toNat_number hroom hcount]
  refine ⟨Nat.le_add_right _ _, fun relay hrelay => ?_⟩
  rw [hid relay hrelay, s.toNat_number hroom (Nat.le_of_succ_le hcount)]
  omega

/-- No number is less than the next one at the beginning, … -/
theorem Numbers.le {h : Host σ} {s t : Session σ} {ids : List UInt64}
    (hn : Numbers h s ids t) : ∀ id ∈ ids, s.nextRelay.toNat ≤ id.toNat := by
  induction hn with
  | none => exact List.forall_mem_nil _
  | created hroom hrun _ ih =>
      obtain ⟨hle, hrelay⟩ := toNat_of_create hroom hrun
      exact List.forall_mem_cons.mpr
        ⟨(hrelay _ rfl).1, fun id hid => Nat.le_trans hle (ih id hid)⟩
  | failed hroom hrun _ ih =>
      exact fun id hid => Nat.le_trans (toNat_of_create hroom hrun).1 (ih id hid)
  | other hnext _ ih =>
      rw [← hnext]
      exact ih

/-- … and each is greater than those before it. -/
theorem Numbers.pairwise {h : Host σ} {s t : Session σ} {ids : List UInt64}
    (hn : Numbers h s ids t) : ids.Pairwise (· < ·) := by
  induction hn with
  | none => exact .nil
  | created hroom hrun hrest ih =>
      refine .cons (fun id hid => UInt64.lt_iff_toNat_lt.mpr ?_) ih
      exact Nat.lt_of_lt_of_le ((toNat_of_create hroom hrun).2 _ rfl).2 (hrest.le id hid)
  | failed _ _ _ ih => exact ih
  | other _ _ ih => exact ih

/-- **A relay is made under the first free name, counted from the next number**, if no
attempt up to there fails for another reason than that the name is taken.  The first
one that does, or that is the last one allowed, is counted in the failure, and nothing
is made.  However a search ends, the names are tried in a row, at most `maxAttempts`
of them, and of relays made one after the other each has a greater number than those
before. -/
theorem create_first_free [DecidableEq ι] {cat : Catalog σ ι} {h : Host σ}
    (w : cat.Lawful h) (store : RelayStore) {s : Session σ} (hroom : s.HasRoom) :
    (∀ k < maxAttempts, cat.IsFree s.machine (store.pathOf (s.number k)) →
      (∀ j < k, ¬cat.IsFree s.machine (store.pathOf (s.number j))) →
      (∀ j ≤ k, ∀ e, attempt h store s j = .error e → e.kind = .alreadyExists) →
      ∃ relay t, (create h store).on s = (.ok relay, t) ∧
        relay.id.toNat = s.nextRelay.toNat + k ∧ relay.path = store.pathOf relay.id ∧
        t.nextRelay.toNat = relay.id.toNat + 1 ∧
        cat.Adds relay.path relay.handle s.machine t.machine) ∧
    (∀ k < maxAttempts, ∀ e, (∀ j < k, IsTaken (attempt h store s j)) →
      attempt h store s k = .error e → (e.kind = .alreadyExists → k + 1 = maxAttempts) →
      ∃ f t, (create h store).on s = (.error f, t) ∧ f.kind = .relay ∧
        f.notes.getLast? = some s!"after {k + 1} attempts" ∧
        t.nextRelay.toNat = s.nextRelay.toNat + (k + 1) ∧ cat.Same s.machine t.machine) ∧
    (∀ (store : RelayStore) (s t : Session (Recorded σ)) (result : Except Failure Relay),
      (create h.recorded store).on s = (result, t) →
      ∃ count < maxAttempts, t.nextRelay = s.number (count + 1) ∧
        t.view Exchange.trying? = s.view Exchange.trying? ++ tries store s (count + 1)) ∧
    ∀ (s t : Session σ) (ids : List UInt64), Numbers h s ids t → ids.Pairwise (· < ·) := by
  refine ⟨fun k hk hfree hstands hkind => create_of_isFree w hroom hk hfree hstands hkind,
    fun k hk e htaken hrefused hlast => create_of_error w hroom hk htaken hrefused hlast,
    fun store s t result hrun => ?_, fun s t ids hn => hn.pairwise⟩
  obtain ⟨count, hle, htaken⟩ := (create_eq_iff.mp hrun).trying
  exact ⟨count, Nat.lt_of_le_of_lt hle (by decide), htaken⟩

end Relay

namespace Cabinet

/-- A name in the machine is only refused because it is taken. -/
theorem kind_of_attempt {store : RelayStore} {s : Session Cabinet} {k : Nat} {e : IoError}
    (hnul : store.dir.bytes.hasNul = false) (he : Relay.attempt host store s k = .error e) :
    e.kind = .alreadyExists := by
  have hpath : (store.pathOf (Relay.reaching host store s k).nextRelay).bytes.hasNul = false := by
    rwa [RelayStore.hasNul_pathOf]
  rw [Relay.attempt, Relay.tryNext, on_onPath hpath] at he
  simp only [host] at he
  split at he
  · obtain rfl := Except.error.inj he
    decide +kernel
  · cases he

namespace Sample

/-- A directory, a link and a file stand under the next three names. -/
def crowded : Session Cabinet :=
  ⟨3, holding fun path =>
    if path = store.pathOf 3 then some .directory
    else if path = store.pathOf 4 then some (.link [120])
    else if path = store.pathOf 5 then some (.file [120])
    else none⟩

theorem isFree_crowded_iff (i : UInt64) :
    catalog.IsFree crowded.machine (store.pathOf i) ↔ i ≠ 3 ∧ i ≠ 4 ∧ i ≠ 5 := by
  simp only [Catalog.IsFree, catalog, crowded, holding, RelayStore.pathOf_inj]
  split
  · next h => simp [h]
  · split
    · next h => simp [h]
    · split
      · next h => simp [h]
      · next h₃ h₄ h₅ => simp [h₃, h₄, h₅]

end Sample

end Cabinet

open Cabinet Cabinet.Sample in
/-- What stands under the next names is passed over, of whatever kind it is. -/
theorem Relay.create_first_free_sample :
    ∃ relay t, (create host store).on crowded = (.ok relay, t) ∧ relay.id.toNat = 6 ∧
      relay.path = store.pathOf relay.id ∧ t.nextRelay.toNat = 7 ∧
      catalog.Adds relay.path relay.handle crowded.machine t.machine := by
  have hroom : crowded.HasRoom := by
    unfold Session.HasRoom
    decide
  have hstands : ∀ j < 3, ¬catalog.IsFree crowded.machine (store.pathOf (crowded.number j)) := by
    simp only [isFree_crowded_iff]
    decide
  have hfree : catalog.IsFree crowded.machine (store.pathOf (crowded.number 3)) := by
    simp only [isFree_crowded_iff]
    decide
  obtain ⟨relay, t, hrun, hid, hpath, hnext, hadds⟩ :=
    (create_first_free lawful store hroom).1 3 (by decide) hfree hstands
      fun j _ e he => kind_of_attempt rfl he
  exact ⟨relay, t, hrun, hid, hpath, hnext.trans (congrArg (· + 1) hid), hadds⟩

end CommandExpr
