import CommandExpr.Proofs.Recording

/-!
# Relays and their owners

Whoever has a relay gives it back, or else it is given up when its owner lets go of it.  Both
remove the file, so the owner's *hold* on it has a mark: it is set before the removal is tried,
and letting go of a marked hold does nothing.

A `Ledger` has any number of relays, each in a *slot* of its own, and what was done with them so
far.  Between two deeds of the owners anything at all may happen to the machine, also to the files
of the relays.

## Main definitions

* `Relay.Hold` — a relay in the hands of its owner
* `Ledger`, `Ledger.run` — relays, and all that was done with them

## Main results

* `Relay.Hold.on_release_letGo` — giving a relay back and then letting go of it is
  `Relay.release`.
* `Ledger.Slot.performs_of_perform` — what is held can be used, and with the rest nothing is done.
-/

namespace CommandExpr

variable {σ : Type}

/-! ## Holds -/

/-- A relay in the hands of its owner. -/
structure Relay.Hold where
  relay : Relay
  /-- Was it given back, even if its file could not be removed? -/
  isReleased : Bool
  deriving DecidableEq

namespace Relay.Hold

/-- The hold, marked as given back. -/
def marked (hold : Hold) : Hold := { hold with isReleased := true }

/-- Give the relay back.  The mark is set first, so it is there whatever comes of the removal. -/
def release (h : Host σ) (hold : Hold) : Action σ (Except Failure Unit × Hold) := do
  let hold := hold.marked
  match ← hold.relay.dispose h with
  | .ok () =>
    h.note (.relayReleased hold.relay.path.display)
    return (.ok (), hold)
  | .error e => return (.error (.relayNotRemoved hold.relay.path.display e), hold)

/-- Let go of the relay, and give it up if that is still to be done. -/
def letGo (h : Host σ) (hold : Hold) : Action σ Unit :=
  if hold.isReleased then pure () else hold.relay.drop h

theorem on_release (h : Host σ) (hold : Hold) (s : Session σ) :
    (hold.release h).on s
      = ((((hold.relay.release h).on s).1, hold.marked), ((hold.relay.release h).on s).2) := by
  rcases hdispose : (hold.relay.dispose h).on s with ⟨answer, t⟩
  have hmarked : (hold.marked.relay.dispose h).on s = (answer, t) := hdispose
  rw [Relay.on_release, hdispose, release, Action.on_bind_of _ hmarked]
  cases answer <;> rfl

/-- **Giving a relay back is the same with what is left of the hold let go at once.** -/
theorem on_release_letGo (h : Host σ) (hold : Hold) (s : Session σ) :
    Action.on (do
        let (result, rest) ← hold.release h
        rest.letGo h
        return result) s
      = (hold.relay.release h).on s := by
  rw [Action.on_bind_of _ (on_release h hold s)]
  rfl

end Relay.Hold

/-! ## Ledgers -/

namespace Ledger

/-- What the owner of a relay does with it. -/
inductive Use where
  | write (output : Capture)
  | openForRead
  | release
  /-- The hold is let go. -/
  | drop

/-- Does it end the use of the relay? -/
def Use.isEnd : Use → Bool
  | .release | .drop => true
  | _ => false

/-- A relay that was made. -/
structure Slot where
  hold : Relay.Hold
  /-- Was the hold let go? -/
  isGone : Bool
  deriving DecidableEq

namespace Slot

/-- Its relay. -/
def relay (slot : Slot) : Relay := slot.hold.relay

/-- Is the relay still to be given back or given up? -/
def isHeld (slot : Slot) : Bool := !slot.hold.isReleased && !slot.isGone

/-- The slot of a new relay. -/
def new (relay : Relay) : Slot := ⟨⟨relay, false⟩, false⟩

/-- The slot after its relay was given back. -/
def released (slot : Slot) : Slot := { slot with hold := slot.hold.marked }

/-- The slot after its hold was let go. -/
def gone (slot : Slot) : Slot := { slot with isGone := true }

@[simp]
theorem isHeld_released (slot : Slot) : slot.released.isHeld = false := rfl

@[simp]
theorem isHeld_gone (slot : Slot) : slot.gone.isHeld = false := Bool.and_false _

@[simp]
theorem relay_released (slot : Slot) : slot.released.relay = slot.relay := rfl

@[simp]
theorem relay_gone (slot : Slot) : slot.gone.relay = slot.relay := rfl

/-- What should have been removed for it so far. -/
def removed (slot : Slot) : List Path := if slot.isHeld then [] else [slot.relay.path]

/-- What should be removed in a use of it. -/
def due (slot : Slot) (use : Use) : List Path :=
  if slot.isHeld && use.isEnd then [slot.relay.path] else []

/-- A use of the relay, with the slot after it.  One that cannot be made does nothing: what was
given back can only be let go. -/
def perform (h : Host σ) (slot : Slot) : Use → Action σ (Except Failure Unit × Slot)
  | .write output =>
    if slot.isHeld then do return (← (slot.relay.write h output).run, slot)
    else return (.ok (), slot)
  | .openForRead =>
    if slot.isHeld then do
      return ((← (slot.relay.openForRead h).run).map fun _ => (), slot)
    else return (.ok (), slot)
  | .release =>
    if slot.isHeld then do
      let (result, hold) ← slot.hold.release h
      return (result, { slot with hold })
    else return (.ok (), slot)
  | .drop =>
    if slot.isGone then return (.ok (), slot)
    else do
      slot.hold.letGo h
      return (.ok (), slot.gone)

end Slot

/-- What is done next. -/
inductive Deed (σ : Type) where
  /-- A relay is made, with the next slot. -/
  | create (store : RelayStore)
  | use (i : Nat) (use : Use)
  /-- Others change the machine. -/
  | other (f : σ → σ)

/-- The slot that a deed is about. -/
def Deed.slot? : Deed σ → Option Nat
  | .use i _ => some i
  | _ => none

/-- A deed that was done. -/
structure Entry (σ : Type) where
  deed : Deed σ
  /-- The slot that it was about, as it was before, if it was there. -/
  slot? : Option Slot
  before : Session (Recorded σ)
  result : Except Failure Unit
  after : Session (Recorded σ)

end Ledger

/-- The exchanges from one session to another. -/
def Session.since (s t : Session (Recorded σ)) : List Exchange := t.record.drop s.record.length

namespace Exchange

/-- What was tried to be removed. -/
def removing? : Exchange → Option Path
  | remove path _ => some path
  | _ => none

/-- Is it about no file but that of the relay? -/
def IsOf (relay : Relay) : Exchange → Prop
  | openRead path _ | remove path _ => path = relay.path
  | append handle _ _ | close handle => handle = relay.handle
  | tell _ => True
  | _ => False

end Exchange

namespace Ledger.Entry

/-- The exchanges of the deed. -/
def exchanges (entry : Entry σ) : List Exchange := entry.before.since entry.after

/-- What the deed tried to remove. -/
def removals (entry : Entry σ) : List Path := entry.exchanges.filterMap Exchange.removing?

/-- What it should have tried to remove. -/
def due (entry : Entry σ) : List Path :=
  match entry.deed, entry.slot? with
  | .use _ use, some slot => slot.due use
  | _, _ => []

end Ledger.Entry

/-- Relays, and all that was done with them so far. -/
structure Ledger (σ : Type) where
  slots : List Ledger.Slot
  session : Session (Recorded σ)
  entries : List (Ledger.Entry σ)

namespace Ledger

/-- There are no relays yet. -/
def empty (s : Session (Recorded σ)) : Ledger σ := ⟨[], s, []⟩

/-- A deed is put down. -/
def enter (l : Ledger σ) (deed : Deed σ) (slot? : Option Slot) (result : Except Failure Unit)
    (slots : List Slot) (t : Session (Recorded σ)) : Ledger σ :=
  ⟨slots, t, l.entries ++ [⟨deed, slot?, l.session, result, t⟩]⟩

/-- The ledger after one more deed. -/
def step (h : Host σ) (l : Ledger σ) (deed : Deed σ) : Ledger σ :=
  match deed with
  | .create store =>
    match (Relay.create h.recorded store).on l.session with
    | (.ok relay, t) => l.enter deed none (.ok ()) (l.slots ++ [.new relay]) t
    | (.error f, t) => l.enter deed none (.error f) l.slots t
  | .use i use =>
    match l.slots[i]? with
    | some slot =>
      match (slot.perform h.recorded use).on l.session with
      | ((result, after), t) => l.enter deed (some slot) result (l.slots.set i after) t
    | none => l.enter deed none (.ok ()) l.slots l.session
  | .other f =>
    l.enter deed none (.ok ()) l.slots { l.session with machine := l.session.machine.map f id }

/-- The ledger after some deeds. -/
def run (h : Host σ) (l : Ledger σ) (deeds : List (Deed σ)) : Ledger σ := deeds.foldl (step h) l

/-- What was tried to be removed in the deeds about one slot. -/
def removals (l : Ledger σ) (i : Nat) : List Path :=
  l.entries.flatMap fun entry => if entry.deed.slot? = some i then entry.removals else []

end Ledger

/-! ## What a use of a relay is -/

namespace Ledger.Slot

/-- The use of a relay from one session to another, with what it returns and the slot after it. -/
inductive Performs (h : Host σ) (slot : Slot) (s : Session σ) :
    Use → Except Failure Unit → Slot → Session σ → Prop where
  | write {output : Capture} {result : Except Failure Unit} {t : Session σ}
      (hheld : slot.isHeld = true) (hrun : (slot.relay.write h output).on s = (result, t)) :
      Performs h slot s (.write output) result slot t
  | openForRead {opened : Except Failure Handle} {t : Session σ}
      (hheld : slot.isHeld = true) (hrun : (slot.relay.openForRead h).on s = (opened, t)) :
      Performs h slot s .openForRead (opened.map fun _ => ()) slot t
  | release {result : Except Failure Unit} {t : Session σ}
      (hheld : slot.isHeld = true) (hrun : (slot.relay.release h).on s = (result, t)) :
      Performs h slot s .release result slot.released t
  | drop {t : Session σ}
      (hheld : slot.isHeld = true) (hrun : (slot.relay.drop h).on s = ((), t)) :
      Performs h slot s .drop (.ok ()) slot.gone t
  /-- Nothing is done with what was given back or let go before. -/
  | nothing {use : Use} {after : Slot} (hnot : slot.isHeld = false)
      (hrelay : after.relay = slot.relay) (hafter : after.isHeld = false) :
      Performs h slot s use (.ok ()) after s

section Perform

variable {h : Host σ} {slot after : Slot} {use : Use} {s t : Session σ}
  {result : Except Failure Unit}

/-- What is held can be used. -/
private theorem performs_of_isHeld (hheld : slot.isHeld = true)
    (hrun : (slot.perform h use).on s = ((result, after), t)) :
    slot.Performs h s use result after t := by
  obtain ⟨hmark, hgone⟩ : slot.hold.isReleased = false ∧ slot.isGone = false := by
    simpa [isHeld] using hheld
  cases use with
  | write output =>
      rcases hcall : (slot.relay.write h output).on s with ⟨answer, u⟩
      rw [perform, if_pos hheld, Action.on_bind_of _ ((Attempt.on_run _ _).trans hcall)] at hrun
      cases hrun
      exact .write hheld hcall
  | openForRead =>
      rcases hcall : (slot.relay.openForRead h).on s with ⟨answer, u⟩
      rw [perform, if_pos hheld, Action.on_bind_of _ ((Attempt.on_run _ _).trans hcall)] at hrun
      cases hrun
      exact .openForRead hheld hcall
  | release =>
      rw [perform, if_pos hheld, Action.on_bind_of _ (slot.hold.on_release h s)] at hrun
      cases hrun
      exact .release hheld rfl
  | drop =>
      have hcall : slot.hold.letGo h = slot.relay.drop h := if_neg (by simp [hmark])
      rw [perform, if_neg (by simp [hgone]), hcall] at hrun
      cases hrun
      exact .drop hheld rfl

/-- What is not held can only be let go, and then nothing is done. -/
private theorem performs_of_not_isHeld (hnot : slot.isHeld = false)
    (hrun : (slot.perform h use).on s = ((result, after), t)) :
    slot.Performs h s use result after t := by
  cases use with
  | drop =>
      cases hgone : slot.isGone with
      | true =>
          rw [perform, if_pos hgone] at hrun
          cases hrun
          exact .nothing hnot rfl hnot
      | false =>
          -- The hold is still there, so it is its mark that says that nothing is to be done.
          have hmark : slot.hold.isReleased = true := by
            simpa [isHeld, hgone] using hnot
          have hcall : slot.hold.letGo h = pure () := if_pos hmark
          rw [perform, if_neg (by simp [hgone]), hcall] at hrun
          cases hrun
          exact .nothing hnot rfl slot.isHeld_gone
  | _ =>
      rw [perform, if_neg (by simp [hnot])] at hrun
      cases hrun
      exact .nothing hnot rfl hnot

theorem performs_of_perform (hrun : (slot.perform h use).on s = ((result, after), t)) :
    slot.Performs h s use result after t := by
  cases hheld : slot.isHeld with
  | true => exact performs_of_isHeld hheld hrun
  | false => exact performs_of_not_isHeld hheld hrun

namespace Performs

variable (hp : slot.Performs h s use result after t)

include hp

theorem relay_eq : after.relay = slot.relay := by
  cases hp with
  | nothing _ hrelay _ => exact hrelay
  | _ => rfl

/-- What should have been removed after a use is what should have been before, and what is due
in it. -/
theorem removed_eq : after.removed = slot.removed ++ slot.due use := by
  cases hp with
  | write hheld _ => simp [due, Use.isEnd]
  | openForRead hheld _ => simp [due, Use.isEnd]
  | release hheld _ => simp [removed, due, Use.isEnd, hheld]
  | drop hheld _ => simp [removed, due, Use.isEnd, hheld]
  | nothing hnot hrelay hafter => simp [removed, due, hnot, hrelay, hafter]

end Performs

end Perform

end Ledger.Slot

end CommandExpr
