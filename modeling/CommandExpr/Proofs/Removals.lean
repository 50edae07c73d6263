import CommandExpr.Proofs.Catalog
import CommandExpr.Proofs.Ledger
import CommandExpr.Proofs.Runs

/-!
# One removal for each relay

The mark on a hold is set before the file is removed.  So a relay that is given back is never
removed again, even if that failed, and what others have put under the name since then stays
there.  Whether a removal was due is known from the slot as it was before the deed, and the record
of the deed has just the removals that were due (`Ledger.Slot.Performs.serves`).

A use of a relay names no other path.  What it does to the places of the machine is said with a
`Catalog`: bytes go to the file that was made, wherever that stands by then.

## Main results

* `Ledger.Sound.step`, `Ledger.Sound.run` — what one deed preserves, and a whole history.
* `Ledger.run_removals` — after every history there was one removal for each relay that is not
  held any more, and what each deed did.
-/

namespace CommandExpr

variable {σ ι : Type}

/-! ## What is on record -/

section Record

variable {h : Host σ} {relay : Relay} {s t : Session (Recorded σ)}

theorem Session.since_eq {xs : List Exchange} (hrecord : t.record = s.record ++ xs) :
    s.since t = xs := by
  rw [since, hrecord, List.drop_left]

theorem Session.since_self (s : Session (Recorded σ)) : s.since s = [] :=
  since_eq (List.append_nil _).symm

/-- From one session to another nothing is removed. -/
def Session.Spares (s t : Session (Recorded σ)) : Prop :=
  ∃ xs, t.record = s.record ++ xs ∧ ∀ x ∈ xs, x.removing? = none

namespace Session.Spares

variable {u : Session (Recorded σ)}

theorem refl (s : Session (Recorded σ)) : s.Spares s :=
  ⟨[], (List.append_nil _).symm, List.forall_mem_nil _⟩

theorem trans (hst : s.Spares t) (htu : t.Spares u) : s.Spares u := by
  obtain ⟨xs, ht, hxs⟩ := hst
  obtain ⟨ys, hu, hys⟩ := htu
  exact ⟨xs ++ ys, by rw [hu, ht, List.append_assoc], List.forall_mem_append.mpr ⟨hxs, hys⟩⟩

theorem noted (hst : s.Spares t) (n : Notice) : s.Spares (t.noted h.recorded n) :=
  hst.trans ⟨[_], record_noted h t n, List.forall_mem_singleton.mpr rfl⟩

theorem since (hst : s.Spares t) : (s.since t).filterMap Exchange.removing? = [] := by
  obtain ⟨xs, ht, hxs⟩ := hst
  rw [since_eq ht]
  exact List.filterMap_eq_nil_iff.mpr hxs

end Session.Spares

namespace Relay

theorem since_write {output : Capture} {result : Except Failure Unit}
    (hrun : (relay.write h.recorded output).on s = (result, t)) :
    ∃ answer, ∃ told : List Message,
      s.since t = .append relay.handle output.bytes answer :: told.map .tell ∧
      ∀ f, result = .error f → f.kind = .relay := by
  rcases happend : h.append relay.handle output.bytes s.machine.1 with ⟨answer, m⟩
  have hcall : h.recorded.append relay.handle output.bytes s.machine
      = (answer, m, s.record ++ [.append relay.handle output.bytes answer]) :=
    Host.recordCall_eq happend
  rw [on_write, hcall] at hrun
  cases answer with
  | error e =>
      obtain ⟨rfl, rfl⟩ := Prod.mk.inj hrun
      refine ⟨.error e, [], Session.since_eq rfl, ?_⟩
      rintro _ ⟨⟩
      rfl
  | ok _ =>
      obtain ⟨rfl, rfl⟩ := Prod.mk.inj hrun
      exact ⟨.ok (), [_], Session.since_eq (List.append_assoc _ _ _), by simp⟩

theorem since_openForRead {opened : Except Failure Handle}
    (hnul : relay.path.bytes.hasNul = false)
    (hrun : (relay.openForRead h.recorded).on s = (opened, t)) :
    ∃ answer, s.since t = [.openRead relay.path answer] ∧
      ∀ f, opened = .error f → f.kind = .relay := by
  rcases hopen : h.openRead relay.path s.machine.1 with ⟨answer, m⟩
  have hcall : h.recorded.openRead relay.path s.machine
      = (answer, m, s.record ++ [.openRead relay.path answer]) := Host.recordCall_eq hopen
  rw [on_openForRead, on_onPath hnul, hcall] at hrun
  refine ⟨answer, ?_⟩
  cases answer with
  | error e =>
      obtain ⟨rfl, rfl⟩ := Prod.mk.inj hrun
      refine ⟨Session.since_eq rfl, ?_⟩
      rintro _ ⟨⟩
      rfl
  | ok handle =>
      obtain ⟨rfl, rfl⟩ := Prod.mk.inj hrun
      exact ⟨Session.since_eq rfl, by simp⟩

theorem record_dispose {answer : Except IoError Unit} (hnul : relay.path.bytes.hasNul = false)
    (hrun : (relay.dispose h.recorded).on s = (answer, t)) :
    ∃ removed : Except Errno Unit, answer = removed.mapError .ofErrno ∧
      t.record = s.record ++ [.close relay.handle, .remove relay.path removed] := by
  rw [on_dispose, on_onPath hnul] at hrun
  obtain ⟨rfl, rfl⟩ := Prod.mk.inj hrun
  exact ⟨_, rfl, List.append_assoc _ _ _⟩

/-- The exchanges of a removal. -/
def removal (relay : Relay) (removed : Except Errno Unit) (told : List Message) : List Exchange :=
  .close relay.handle :: .remove relay.path removed :: told.map .tell

/-- A relay that is given back is removed once, and that fails just when the removal does. -/
theorem since_release {result : Except Failure Unit} (hnul : relay.path.bytes.hasNul = false)
    (hrun : (relay.release h.recorded).on s = (result, t)) :
    ∃ removed : Except Errno Unit, ∃ told : List Message,
      s.since t = relay.removal removed told ∧
      result = removed.mapError fun e => .relayNotRemoved relay.path.display (.ofErrno e) := by
  rcases hdispose : (relay.dispose h.recorded).on s with ⟨answer, u⟩
  obtain ⟨removed, rfl, hrecord⟩ := record_dispose hnul hdispose
  rw [on_release, hdispose] at hrun
  refine ⟨removed, ?_⟩
  cases removed with
  | error e =>
      obtain ⟨rfl, rfl⟩ := Prod.mk.inj hrun
      exact ⟨[], Session.since_eq hrecord, rfl⟩
  | ok _ =>
      obtain ⟨rfl, rfl⟩ := Prod.mk.inj hrun
      refine ⟨[.notice (.relayReleased relay.path.display)], Session.since_eq ?_, rfl⟩
      rw [record_noted, hrecord, List.append_assoc]
      rfl

/-- So is one that is given up, whatever comes of it. -/
theorem since_drop (hnul : relay.path.bytes.hasNul = false)
    (hrun : (relay.drop h.recorded).on s = ((), t)) :
    ∃ removed : Except Errno Unit, ∃ told : List Message,
      s.since t = relay.removal removed told := by
  rcases hdispose : (relay.dispose h.recorded).on s with ⟨answer, u⟩
  obtain ⟨removed, rfl, hrecord⟩ := record_dispose hnul hdispose
  obtain ⟨notice, rfl⟩ : ∃ notice, t = u.noted h.recorded notice := by
    rw [on_drop, hdispose] at hrun
    cases removed <;> exact ⟨_, (Prod.mk.inj hrun).2.symm⟩
  refine ⟨removed, [.notice notice], Session.since_eq ?_⟩
  rw [record_noted, hrecord, List.append_assoc]
  rfl

/-- An attempt to make a file removes nothing, … -/
private theorem spares_tryNext {store : RelayStore} {answer : Except IoError Handle}
    (hcall : (onPath (store.pathOf s.nextRelay) h.recorded.createNew).on
      { s with nextRelay := s.nextRelay + 1 } = (answer, t)) : s.Spares t := by
  obtain ⟨given, hrecord⟩ := record_onPath (f := h.createNew) (g := .createNew) hcall
  refine ⟨_, hrecord, ?_⟩
  split
  · exact List.forall_mem_nil _
  · exact List.forall_mem_singleton.mpr rfl

/-- … and so nothing is removed when a relay is made. -/
theorem Creates.spares {store : RelayStore} {left tried : Nat} {result : Except Failure Relay}
    (hc : Creates h.recorded store left tried s result t) : s.Spares t := by
  induction hc with
  | made hcall => exact (spares_tryNext hcall).noted _
  | refused hcall _ => exact spares_tryNext hcall
  | taken hcall _ _ ih => exact ((spares_tryNext hcall).noted _).trans ih

end Relay

end Record

/-- The path of a relay that was made can be handed over to the host. -/
theorem Relay.Creates.hasNul {h : Host σ} {store : RelayStore} {s t : Session σ}
    {left tried : Nat} {result : Except Failure Relay}
    (hc : Creates h store left tried s result t) {relay : Relay} (hmade : result = .ok relay) :
    relay.path.bytes.hasNul = false := by
  induction hc with
  | made hcall =>
      cases hmade
      exact (of_onPath_ok hcall).1
  | refused _ _ => cases hmade
  | taken _ _ _ ih => exact ih hmade

/-! ## What is done to the files -/

namespace Catalog

variable [DecidableEq ι] {cat : Catalog σ ι} {h : Host σ} {relay : Relay} {s t : Session σ}

/-- The places that a use of a relay can do something to: bytes are written to the file that was
made for it, wherever that stands, and only its own name is removed. -/
def touched (cat : Catalog σ ι) (relay : Relay) (m : σ) : Ledger.Use → Set ι
  | .write _ => cat.standing m relay.handle
  | .openForRead => ∅
  | .release | .drop => {cat.place m relay.path}

namespace Lawful

theorem node_of_write (w : cat.Lawful h) {output : Capture} {result : Except Failure Unit}
    (hrun : (relay.write h output).on s = (result, t)) {x : ι}
    (hx : x ∉ cat.standing s.machine relay.handle) :
    cat.node t.machine x = cat.node s.machine x := by
  have hwritten := w.append relay.handle output.bytes s.machine x hx
  rw [Relay.on_write] at hrun
  split at hrun
  · next happend =>
      obtain ⟨-, rfl⟩ := Prod.mk.inj hrun
      rw [happend] at hwritten
      exact (congrFun (w.tell _ _).node x).trans hwritten
  · next happend =>
      obtain ⟨-, rfl⟩ := Prod.mk.inj hrun
      rw [happend] at hwritten
      exact hwritten

theorem same_of_openForRead (w : cat.Lawful h) {opened : Except Failure Handle}
    (hrun : (relay.openForRead h).on s = (opened, t)) : cat.Same s.machine t.machine := by
  have hopened : cat.Same s.machine ((Relay.onPath relay.path h.openRead).on s).2.machine := by
    cases hnul : relay.path.bytes.hasNul with
    | true =>
        rw [on_onPath_refused _ s hnul]
        exact .refl cat _
    | false =>
        rw [on_onPath hnul]
        exact w.openRead relay.path s.machine
  rw [Relay.on_openForRead] at hrun
  split at hrun <;>
    next hcall =>
      obtain ⟨-, rfl⟩ := Prod.mk.inj hrun
      rwa [hcall] at hopened

theorem node_of_dispose (w : cat.Lawful h) {answer : Except IoError Unit}
    (hrun : (relay.dispose h).on s = (answer, t)) {x : ι}
    (hx : x ≠ cat.place s.machine relay.path) :
    cat.node t.machine x = cat.node s.machine x := by
  have hclose := w.close relay.handle s.machine
  rw [Relay.on_dispose] at hrun
  cases answer with
  | ok _ =>
      have hremove := w.remove_ok (of_onPath_ok hrun).2
      rw [hremove, hclose.place, Function.update_of_ne hx, hclose.node]
  | error e =>
      rcases of_onPath_error hrun with heq | ⟨errno, hfailed⟩
      · rw [heq, hclose.node]
      · rw [(w.remove_error hfailed).node, hclose.node]

theorem node_of_release (w : cat.Lawful h) {result : Except Failure Unit}
    (hrun : (relay.release h).on s = (result, t)) {x : ι}
    (hx : x ≠ cat.place s.machine relay.path) :
    cat.node t.machine x = cat.node s.machine x := by
  rcases hdispose : (relay.dispose h).on s with ⟨answer, u⟩
  have hremoved := w.node_of_dispose hdispose hx
  rw [Relay.on_release, hdispose] at hrun
  cases answer with
  | ok _ =>
      obtain ⟨-, rfl⟩ := Prod.mk.inj hrun
      exact (congrFun (w.tell _ _).node x).trans hremoved
  | error e =>
      obtain ⟨-, rfl⟩ := Prod.mk.inj hrun
      exact hremoved

theorem node_of_drop (w : cat.Lawful h) (hrun : (relay.drop h).on s = ((), t)) {x : ι}
    (hx : x ≠ cat.place s.machine relay.path) :
    cat.node t.machine x = cat.node s.machine x := by
  rcases hdispose : (relay.dispose h).on s with ⟨answer, u⟩
  have hremoved := w.node_of_dispose hdispose hx
  rw [Relay.on_drop, hdispose] at hrun
  cases answer <;>
    · obtain ⟨-, rfl⟩ := Prod.mk.inj hrun
      exact (congrFun (w.tell _ _).node x).trans hremoved

/-- **A use of a relay leaves all other places as they are.** -/
theorem node_of_performs (w : cat.Lawful h) {slot after : Ledger.Slot} {use : Ledger.Use}
    {result : Except Failure Unit} (hp : slot.Performs h s use result after t) {x : ι}
    (hx : x ∉ cat.touched slot.relay s.machine use) :
    cat.node t.machine x = cat.node s.machine x := by
  cases hp with
  | write _ hrun => exact w.node_of_write hrun hx
  | openForRead _ hrun => rw [(w.same_of_openForRead hrun).node]
  | release _ hrun => exact w.node_of_release hrun hx
  | drop _ hrun => exact w.node_of_drop hrun hx
  | nothing _ _ _ => rfl

end Lawful

/-- The places, seen past the record. -/
def recorded (cat : Catalog σ ι) : Catalog (Recorded σ) ι where
  place m := cat.place m.1
  node m := cat.node m.1
  standing m := cat.standing m.1

omit [DecidableEq ι] in
private theorem Same.recorded {m m' : Recorded σ} (hsame : cat.Same m.1 m'.1) :
    cat.recorded.Same m m' := ⟨hsame.place, hsame.node⟩

/-- A record does nothing to the places. -/
theorem Lawful.recorded (w : cat.Lawful h) : cat.recorded.Lawful h.recorded where
  createNew_ok hcall :=
    have hadds := w.createNew_ok (Host.of_recordCall hcall)
    ⟨hadds.isFree, hadds.place, hadds.node, hadds.standing⟩
  createNew_error hcall := (w.createNew_error (Host.of_recordCall hcall)).recorded
  not_isFree hcall := w.not_isFree (Host.of_recordCall hcall)
  openRead path m := (w.openRead path m.1).recorded
  append handle bytes m := w.append handle bytes m.1
  close handle m := (w.close handle m.1).recorded
  remove_ok hcall := w.remove_ok (Host.of_recordCall hcall)
  remove_error hcall := (w.remove_error (Host.of_recordCall hcall)).recorded
  tell message m := (w.tell message m.1).recorded
  standing_tell message m := w.standing_tell message m.1

omit [DecidableEq ι] in
private theorem touched_recorded (m : Recorded σ) (use : Ledger.Use) :
    cat.recorded.touched relay m use = cat.touched relay m.1 use := by
  cases use <;> rfl

end Catalog

/-! ## What each deed does -/

namespace Exchange

private theorem isOf_tell {relay : Relay} (told : List Message) :
    ∀ x ∈ told.map Exchange.tell, x.IsOf relay := by
  simp [IsOf]

private theorem removing_tell (told : List Message) :
    (told.map Exchange.tell).filterMap removing? = [] := by
  simp [removing?]

end Exchange

namespace Relay

variable {relay : Relay} {removed : Except Errno Unit} {told : List Message}

private theorem isOf_removal : ∀ x ∈ relay.removal removed told, x.IsOf relay :=
  List.forall_mem_cons.mpr ⟨rfl, List.forall_mem_cons.mpr ⟨rfl, Exchange.isOf_tell told⟩⟩

private theorem removing_removal :
    (relay.removal removed told).filterMap Exchange.removing? = [relay.path] := by
  have hpath : Exchange.removing? (.remove relay.path removed) = some relay.path := rfl
  rw [removal, List.filterMap_cons_none rfl, List.filterMap_cons_some hpath,
    Exchange.removing_tell]

private theorem mem_removal_iff {answer : Except Errno Unit} :
    .remove relay.path answer ∈ relay.removal removed told ↔ answer = removed := by
  simp [removal]

end Relay

namespace Ledger

/-- What is on record of a use of a relay, and what it returns. -/
structure Slot.Serves (slot : Slot) (use : Use) (s : Session (Recorded σ))
    (result : Except Failure Unit) (t : Session (Recorded σ)) : Prop where
  /-- No call is about another file. -/
  isOf : ∀ x ∈ s.since t, x.IsOf slot.relay
  /-- It is removed if that is due. -/
  removals : (s.since t).filterMap Exchange.removing? = slot.due use
  /-- If anything fails, then the relay. -/
  kind : ∀ f, result = .error f → f.kind = .relay
  /-- Giving it back fails just when the removal does. -/
  release : use = .release → ∀ f, result = .error f ↔
    ∃ e, .remove slot.relay.path (.error e) ∈ s.since t ∧
      f = .relayNotRemoved slot.relay.path.display (.ofErrno e)
  /-- Letting go does not fail. -/
  drop : use = .drop → result = .ok ()

namespace Slot

section Serves

variable {h : Host σ} {slot after : Slot} {use : Use} {s t : Session (Recorded σ)}
  {result : Except Failure Unit}

private theorem serves_write {output : Capture} (hrun : (slot.relay.write h.recorded output).on s
    = (result, t)) : slot.Serves (.write output) s result t := by
  obtain ⟨answer, told, hsince, hkind⟩ := Relay.since_write hrun
  refine ⟨?_, ?_, hkind, nofun, nofun⟩
  · rw [hsince]
    exact List.forall_mem_cons.mpr ⟨rfl, Exchange.isOf_tell told⟩
  · rw [hsince, List.filterMap_cons_none rfl, Exchange.removing_tell]
    simp [due, Use.isEnd]

private theorem serves_openForRead {opened : Except Failure Handle}
    (hnul : slot.relay.path.bytes.hasNul = false)
    (hrun : (slot.relay.openForRead h.recorded).on s = (opened, t)) :
    slot.Serves .openForRead s (opened.map fun _ => ()) t := by
  obtain ⟨answer, hsince, hkind⟩ := Relay.since_openForRead hnul hrun
  refine ⟨?_, ?_, fun f hf => ?_, nofun, nofun⟩
  · rw [hsince]
    exact List.forall_mem_singleton.mpr rfl
  · rw [hsince]
    simp [due, Use.isEnd, Exchange.removing?]
  · cases opened with
    | error g =>
        obtain rfl := Except.error.inj hf
        exact hkind _ rfl
    | ok handle => cases hf

private theorem serves_release (hheld : slot.isHeld = true)
    (hnul : slot.relay.path.bytes.hasNul = false)
    (hrun : (slot.relay.release h.recorded).on s = (result, t)) :
    slot.Serves .release s result t := by
  obtain ⟨removed, told, hsince, hresult⟩ := Relay.since_release hnul hrun
  refine ⟨?_, ?_, fun f hf => ?_, fun _ f => ?_, nofun⟩
  · rw [hsince]
    exact Relay.isOf_removal
  · rw [hsince, Relay.removing_removal]
    simp [due, Use.isEnd, hheld]
  · subst hresult
    cases removed with
    | error e =>
        cases hf
        rfl
    | ok _ => cases hf
  -- There is only one removal among the exchanges, so it is the one that failed.
  · simp only [hsince, Relay.mem_removal_iff, hresult]
    cases removed with
    | error e => simp [Except.mapError, eq_comm]
    | ok _ => simp [Except.mapError]

private theorem serves_drop (hheld : slot.isHeld = true)
    (hnul : slot.relay.path.bytes.hasNul = false)
    (hrun : (slot.relay.drop h.recorded).on s = ((), t)) :
    slot.Serves .drop s (.ok ()) t := by
  obtain ⟨removed, told, hsince⟩ := Relay.since_drop hnul hrun
  refine ⟨?_, ?_, nofun, nofun, fun _ => rfl⟩
  · rw [hsince]
    exact Relay.isOf_removal
  · rw [hsince, Relay.removing_removal]
    simp [due, Use.isEnd, hheld]

private theorem serves_nothing (hnot : slot.isHeld = false) :
    slot.Serves use s (.ok ()) s where
  isOf := by simp [s.since_self]
  removals := by simp [s.since_self, due, hnot]
  kind := nofun
  release _ f := by simp [s.since_self]
  drop _ := rfl

/-- **A use of a relay is about its own file**, and removes it if that is due. -/
theorem Performs.serves (hp : slot.Performs h.recorded s use result after t)
    (hnul : slot.relay.path.bytes.hasNul = false) : slot.Serves use s result t := by
  cases hp with
  | write _ hrun => exact serves_write hrun
  | openForRead _ hrun => exact serves_openForRead hnul hrun
  | release hheld hrun => exact serves_release hheld hnul hrun
  | drop hheld hrun => exact serves_drop hheld hnul hrun
  | nothing hnot _ _ => exact serves_nothing hnot

/-- It does nothing to other places. -/
theorem Performs.node (hp : slot.Performs h.recorded s use result after t) {ι : Type}
    [DecidableEq ι] {cat : Catalog σ ι} (w : cat.Lawful h) {x : ι}
    (hx : x ∉ cat.touched slot.relay s.machine.1 use) :
    cat.node t.machine.1 x = cat.node s.machine.1 x := by
  rw [← Catalog.touched_recorded] at hx
  exact w.recorded.node_of_performs hp hx

end Serves

end Slot

/-- What a deed does. -/
structure Entry.Right (h : Host σ) (entry : Entry σ) : Prop where
  /-- What is due is removed, and nothing else. -/
  removals : entry.removals = entry.due
  serves : ∀ i use slot, entry.deed = .use i use → entry.slot? = some slot →
    slot.Serves use entry.before entry.result entry.after
  /-- The uses of a relay do nothing to other places. -/
  node : ∀ i use slot, entry.deed = .use i use → entry.slot? = some slot →
    ∀ {ι : Type} [DecidableEq ι] {cat : Catalog σ ι}, cat.Lawful h →
      ∀ x ∉ cat.touched slot.relay entry.before.machine.1 use,
        cat.node entry.after.machine.1 x = cat.node entry.before.machine.1 x

/-! ## Whole histories -/

/-- What should have been removed so far for one slot, if it is there. -/
def removedOf (slots : List Slot) (i : Nat) : List Path := (slots[i]?).elim [] Slot.removed

/-- A ledger is right so far. -/
structure Sound (h : Host σ) (l : Ledger σ) : Prop where
  /-- The paths of the relays can be handed over to the host. -/
  hasNul : ∀ slot ∈ l.slots, slot.relay.path.bytes.hasNul = false
  removals : ∀ i, l.removals i = removedOf l.slots i
  right : ∀ entry ∈ l.entries, entry.Right h

theorem sound_empty (h : Host σ) (s : Session (Recorded σ)) : (empty s).Sound h where
  hasNul := List.forall_mem_nil _
  removals _ := rfl
  right := List.forall_mem_nil _

section Step

variable {h : Host σ} {l : Ledger σ}

/-- One more deed adds to what was removed for a slot what it removed for it. -/
theorem removals_enter {deed : Deed σ} {slot? : Option Slot} {result : Except Failure Unit}
    {slots : List Slot} {t : Session (Recorded σ)} (i : Nat) :
    (l.enter deed slot? result slots t).removals i
      = l.removals i ++ if deed.slot? = some i
          then Entry.removals ⟨deed, slot?, l.session, result, t⟩ else [] := by
  simp only [enter, removals, List.flatMap_append, List.flatMap_singleton]

theorem Sound.enter (hl : l.Sound h) {deed : Deed σ} {slot? : Option Slot}
    {result : Except Failure Unit} {slots : List Slot} {t : Session (Recorded σ)}
    (hnul : ∀ slot ∈ slots, slot.relay.path.bytes.hasNul = false)
    (hright : Entry.Right h ⟨deed, slot?, l.session, result, t⟩)
    (hremoved : ∀ i, removedOf slots i = removedOf l.slots i ++
      if deed.slot? = some i then Entry.due ⟨deed, slot?, l.session, result, t⟩ else []) :
    (l.enter deed slot? result slots t).Sound h where
  hasNul := hnul
  removals i := by
    rw [removals_enter, hl.removals, hright.removals]
    exact (hremoved i).symm
  right := List.forall_mem_append.mpr ⟨hl.right, List.forall_mem_singleton.mpr hright⟩

/-- What removes nothing and is not about a slot that is there is right. -/
theorem right_of_spares {deed : Deed σ} {result : Except Failure Unit}
    {s t : Session (Recorded σ)} (hst : s.Spares t) :
    Entry.Right h ⟨deed, none, s, result, t⟩ where
  removals := by
    rw [Entry.removals, Entry.exchanges, hst.since]
    cases deed <;> rfl
  serves := nofun
  node := nofun

/-- Nothing should have been removed yet for a new relay. -/
private theorem removedOf_push (slots : List Slot) (relay : Relay) (i : Nat) :
    removedOf (slots ++ [.new relay]) i = removedOf slots i := by
  rw [removedOf, removedOf, List.getElem?_append]
  split
  · rfl
  · next hle =>
      rw [List.getElem?_eq_none (Nat.not_lt.mp hle)]
      cases hslot : [Slot.new relay][i - slots.length]? with
      | none => rfl
      | some slot =>
          obtain rfl : slot = .new relay := List.mem_singleton.mp (List.mem_of_getElem? hslot)
          rfl

private theorem removedOf_set {slots : List Slot} {slot after : Slot} {i : Nat}
    {due : List Path} (hslot : slots[i]? = some slot) (hafter : after.removed = slot.removed ++ due)
    (j : Nat) :
    removedOf (slots.set i after) j = removedOf slots j ++ if some i = some j then due else [] := by
  by_cases hij : i = j
  · subst hij
    obtain ⟨hlt, -⟩ := List.getElem?_eq_some_iff.mp hslot
    rw [removedOf, removedOf, List.getElem?_set_self hlt, hslot, if_pos rfl]
    exact hafter
  · rw [removedOf, removedOf, List.getElem?_set_ne hij, if_neg (by simpa using hij),
      List.append_nil]

/-- **One more deed leaves a ledger right.** -/
theorem Sound.step (hl : l.Sound h) (deed : Deed σ) : (l.step h deed).Sound h := by
  cases deed with
  | create store =>
      rcases hmade : (Relay.create h.recorded store).on l.session with ⟨made, t⟩
      have hc := Relay.create_eq_iff.mp hmade
      have hright : Entry.Right h ⟨.create store, none, l.session, made.map fun _ => (), t⟩ :=
        right_of_spares hc.spares
      cases made with
      | error f =>
          rw [Ledger.step, hmade]
          exact hl.enter hl.hasNul hright fun i => by simp [Deed.slot?]
      | ok relay =>
          rw [Ledger.step, hmade]
          refine hl.enter ?_ hright fun i => ?_
          · exact List.forall_mem_append.mpr
              ⟨hl.hasNul, List.forall_mem_singleton.mpr (hc.hasNul rfl)⟩
          · simp [removedOf_push, Deed.slot?]
  | use i use =>
      rw [Ledger.step]
      split
      · next slot hslot =>
          have hnul := hl.hasNul slot (List.mem_of_getElem? hslot)
          rcases hrun : (slot.perform h.recorded use).on l.session with ⟨⟨result, after⟩, t⟩
          have hp := Slot.performs_of_perform hrun
          -- The slots of other relays are the same, and this one still has its relay.
          refine hl.enter (fun other hother => ?_) ⟨?_, ?_, ?_⟩ fun j => ?_
          · rcases List.mem_or_eq_of_mem_set hother with hmem | rfl
            · exact hl.hasNul other hmem
            · rwa [hp.relay_eq]
          · exact (hp.serves hnul).removals
          · rintro _ _ _ ⟨⟩ ⟨⟩
            exact hp.serves hnul
          · rintro _ _ _ ⟨⟩ ⟨⟩ ι _ cat w x hx
            exact hp.node w hx
          · exact removedOf_set hslot hp.removed_eq j
      · next hnone =>
          refine hl.enter hl.hasNul (right_of_spares (.refl _)) fun j => ?_
          simp [Entry.due]
  | other f =>
      rw [Ledger.step]
      -- Others leave no trace on record.
      have hspares : l.session.Spares { l.session with machine := l.session.machine.map f id } :=
        ⟨[], (List.append_nil _).symm, List.forall_mem_nil _⟩
      exact hl.enter hl.hasNul (right_of_spares hspares) fun i => by simp [Deed.slot?]

/-- So does a whole history. -/
theorem Sound.run (hl : l.Sound h) (deeds : List (Deed σ)) : (l.run h deeds).Sound h := by
  induction deeds generalizing l with
  | nil => exact hl
  | cons deed deeds ih => exact ih (hl.step deed)

end Step

/-- **There is one removal for each relay.**  After every history, whatever others did to the
files in between, the file of a relay that is still held was not removed yet, and that of any
other was tried to be removed once. -/
theorem run_removals (h : Host σ) (s : Session (Recorded σ)) (deeds : List (Deed σ)) :
    (∀ i slot, (run h (empty s) deeds).slots[i]? = some slot →
      (run h (empty s) deeds).removals i = if slot.isHeld then [] else [slot.relay.path]) ∧
    ∀ entry ∈ (run h (empty s) deeds).entries, entry.Right h := by
  have hl := (sound_empty h s).run deeds
  refine ⟨fun i slot hslot => ?_, hl.right⟩
  rw [hl.removals, removedOf, hslot]
  rfl

namespace Sample

open Cabinet Cabinet.Sample

/-- Others put something under the name of a relay, or take it away. -/
def putting (id : UInt64) (node : Option Node) : Deed Cabinet :=
  .other fun m => m.setting (store.pathOf id) (node.map (0, ·))

/-- The first relay cannot be removed when it is given back, and the second one is not there any
more when it is given up. -/
def deeds : List (Deed Cabinet) :=
  [.create store, .create store, .use 0 (.write (.ofBytes [1] 4)), putting 3 (some .directory),
    .use 0 .release, putting 3 (some (.file [120])), .use 0 .drop, putting 4 none, .use 1 .drop]

/-- The ledger of these deeds. -/
def ledger : Ledger Cabinet :=
  run host (empty (Session.recording ⟨3, holding fun _ => none⟩)) deeds

theorem length_entries : 4 < ledger.entries.length := by
  decide +kernel

/-- The first relay is given back. -/
def givingBack : Entry Cabinet := ledger.entries.get ⟨4, length_entries⟩

end Sample

open Cabinet Cabinet.Sample Sample in
/-- There is one removal for each, though neither removes anything; that of the first one is tried
when it is given back.  What others have put under its name since then stays. -/
theorem run_removals_sample :
    ledger.removals 0 = [store.pathOf 3] ∧ ledger.removals 1 = [store.pathOf 4] ∧
      (∃ entry ∈ ledger.entries, entry.deed.slot? = some 0 ∧ entry.result.isOk = false ∧
        entry.removals = [store.pathOf 3]) ∧
      catalog.node ledger.session.machine.1 (store.pathOf 3) = some (.file [120]) := by
  have hslots : ledger.slots = [⟨⟨⟨3, store.pathOf 3, 1⟩, true⟩, true⟩,
      ⟨⟨⟨4, store.pathOf 4, 2⟩, false⟩, true⟩] := by
    decide +kernel
  have hmem : givingBack ∈ ledger.entries := List.get_mem _ _
  obtain ⟨hremovals, hright⟩ :=
    run_removals host (Session.recording ⟨3, holding fun _ => none⟩) deeds
  have hrelease := (hright givingBack hmem).removals
  refine ⟨hremovals 0 _ (congrArg (·[0]?) hslots), hremovals 1 _ (congrArg (·[1]?) hslots),
    ⟨givingBack, hmem, ?_, ?_, ?_⟩, ?_⟩
  · decide +kernel
  · decide +kernel
  · rw [hrelease]
    decide +kernel
  · decide +kernel

end Ledger

end CommandExpr
