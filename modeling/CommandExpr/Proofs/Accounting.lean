import CommandExpr.Proofs.Bounded

/-!
# Accounts of buffers

A buffer knows how many bytes it keeps at most and whether any were dropped, but not which:
the bytes that did not fit are gone.  What can be said of it is said against an **account**
of all that was ever offered to it.  Putting a buffer into another one offers all that was
offered to the first, although part of that may be gone, and a copy has the account of what
it is a copy of.

A history of any number of buffers is a list of calls on a **shelf**, where buffers have
numbers.  A new one takes the next number; one that was put into another leaves its number
empty for good.

The bytes of a buffer are not always the first ones of what it was offered.  They are if no
buffer was ever put into a larger one: a small buffer may have dropped what the larger one
still has room for.

## Main results

* `Account.Sound.append`, `Account.Sound.concat`, `Account.Sound.edit` — what each call
  preserves.
* `Shelf.run_accounts` — what holds of all buffers at all times.
* `Capture.Reachable.concat_laws` — buffers are put together in any grouping, and an empty one
  adds nothing on the left.
-/

namespace CommandExpr

/-! ## Changes of status and faults -/

/-- A change of a buffer's status or faults. -/
inductive Capture.Edit where
  | pushFault (fault : Fault)
  | prependFaults (earlier : List Fault)
  | takeFaults
  | setStatus (status : Option Status)
  deriving DecidableEq

/-- The buffer after such a change. -/
def Capture.edit (c : Capture) : Edit → Capture
  | .pushFault fault => c.pushFault fault
  | .prependFaults earlier => c.prependFaults earlier
  | .takeFaults => c.clearFaults
  | .setStatus status => c.withStatus status

@[simp]
theorem Capture.bytes_edit (c : Capture) (change : Edit) : (c.edit change).bytes = c.bytes := by
  cases change <;> rfl

@[simp]
theorem Capture.cap_edit (c : Capture) (change : Edit) : (c.edit change).cap = c.cap := by
  cases change <;> rfl

@[simp]
theorem Capture.isTruncated_edit (c : Capture) (change : Edit) :
    (c.edit change).isTruncated = c.isTruncated := by
  cases change <;> rfl

/-! ## Accounts -/

/-- A buffer, with an account of what it was offered. -/
structure Account where
  buffer : Capture
  /-- All that was ever offered to the buffer, whether it was kept or not. -/
  offered : Bytes
  /-- Was every buffer that was put into this one, and into any of those, at least as large as
  what it was put into? -/
  isAmple : Bool
  deriving DecidableEq

namespace Account

/-- The account of a new buffer. -/
def empty (cap : Nat) : Account := ⟨.empty cap, [], true⟩

/-- Bytes are offered. -/
def append (a : Account) (more : Bytes) : Account :=
  { a with buffer := a.buffer.append more, offered := a.offered ++ more }

/-- Another buffer is offered with all that was offered to it. -/
def concat (a b : Account) : Account where
  buffer := a.buffer.concat b.buffer
  offered := a.offered ++ b.offered
  isAmple := a.isAmple && b.isAmple && decide (a.buffer.cap ≤ b.buffer.cap)

/-- Status or faults are changed. -/
def edit (a : Account) (change : Capture.Edit) : Account :=
  { a with buffer := a.buffer.edit change }

/-- What a buffer says is right, in view of what it was offered. -/
structure Sound (a : Account) : Prop where
  /-- It is not larger than it may be. -/
  length_le : a.buffer.length ≤ a.buffer.cap
  /-- It knows if anything was dropped. -/
  isTruncated_iff : a.buffer.isTruncated = true ↔ a.buffer.length < a.offered.length
  /-- If nothing was, it has all of it. -/
  bytes_eq : a.buffer.isTruncated = false → a.buffer.bytes = a.offered
  /-- It has the first bytes unless something has been through a smaller buffer. -/
  bytes_eq_take : a.isAmple = true → a.buffer.bytes = a.offered.take a.buffer.cap

namespace Sound

variable {a b : Account}

theorem length_le_offered (ha : a.Sound) : a.buffer.length ≤ a.offered.length := by
  cases hcut : a.buffer.isTruncated with
  | true => exact Nat.le_of_lt (ha.isTruncated_iff.mp hcut)
  | false => exact Nat.le_of_eq (congrArg List.length (ha.bytes_eq hcut))

theorem holds (ha : a.Sound) (hample : a.isAmple = true) :
    a.buffer.Holds a.buffer.cap a.offered where
  bytes := ha.bytes_eq_take hample
  isTruncated := by
    have hlength : a.buffer.length = min a.buffer.cap a.offered.length := by
      rw [Capture.length, ha.bytes_eq_take hample, List.length_take]
    rw [ha.isTruncated_iff, hlength]
    omega
  cap := rfl

protected theorem empty (cap : Nat) : (Account.empty cap).Sound where
  length_le := Nat.zero_le cap
  isTruncated_iff := by simp [Account.empty, Capture.empty, Capture.length]
  bytes_eq _ := rfl
  bytes_eq_take _ := List.take_nil.symm

protected theorem append (ha : a.Sound) (more : Bytes) : (a.append more).Sound := by
  have hlength := a.buffer.length_append more
  have hoffered := ha.length_le_offered
  refine ⟨a.buffer.length_append_le more ha.length_le, ?_, ?_, fun hample => ?_⟩
  · change (a.buffer.isTruncated || decide (a.buffer.room < more.length)) = true
      ↔ (a.buffer.append more).length < (a.offered ++ more).length
    rw [Bool.or_eq_true, decide_eq_true_eq, ha.isTruncated_iff, hlength, List.length_append,
      Capture.kept]
    omega
  · intro hwhole
    obtain ⟨hbefore, hfits⟩ := Bool.or_eq_false_iff.mp hwhole
    have hroom : more.length ≤ a.buffer.room := Nat.not_lt.mp (of_decide_eq_false hfits)
    change a.buffer.bytes ++ more.take a.buffer.room = a.offered ++ more
    rw [ha.bytes_eq hbefore, List.take_of_length_le hroom]
  · exact ((ha.holds hample).append more).bytes

/-- The other buffer's dropped bytes are gone, but its mark tells that there were some. -/
protected theorem concat (ha : a.Sound) (hb : b.Sound) : (a.concat b).Sound := by
  have hlength : (a.concat b).buffer.length = a.buffer.length + a.buffer.kept b.buffer.bytes :=
    a.buffer.length_append b.buffer.bytes
  have hlefta := ha.length_le_offered
  have hleftb := hb.length_le_offered
  refine ⟨a.buffer.length_append_le b.buffer.bytes ha.length_le, ?_, ?_, fun hample => ?_⟩
  · change (a.buffer.isTruncated || decide (a.buffer.room < b.buffer.length)
        || b.buffer.isTruncated) = true
      ↔ (a.concat b).buffer.length < (a.offered ++ b.offered).length
    rw [Bool.or_eq_true, Bool.or_eq_true, decide_eq_true_eq, ha.isTruncated_iff,
      hb.isTruncated_iff, hlength, List.length_append, Capture.kept]
    change _ ↔ a.buffer.length + min b.buffer.length a.buffer.room < _
    omega
  · intro hwhole
    obtain ⟨hjoined, hafter⟩ := Bool.or_eq_false_iff.mp hwhole
    obtain ⟨hbefore, hfits⟩ := Bool.or_eq_false_iff.mp hjoined
    have hroom : b.buffer.length ≤ a.buffer.room := Nat.not_lt.mp (of_decide_eq_false hfits)
    change a.buffer.bytes ++ b.buffer.bytes.take a.buffer.room = a.offered ++ b.offered
    rw [List.take_of_length_le hroom, ha.bytes_eq hbefore, hb.bytes_eq hafter]
  · obtain ⟨hboth, hle⟩ := Bool.and_eq_true_iff.mp hample
    obtain ⟨hamplea, hampleb⟩ := Bool.and_eq_true_iff.mp hboth
    have hholds := (ha.holds hamplea).concat_of_le (of_decide_eq_true hle) (hb.holds hampleb)
    exact hholds.bytes

protected theorem edit (ha : a.Sound) (change : Capture.Edit) : (a.edit change).Sound where
  length_le := by
    simpa [Account.edit, Capture.length] using ha.length_le
  isTruncated_iff := by
    simpa [Account.edit, Capture.length] using ha.isTruncated_iff
  bytes_eq := by
    simpa [Account.edit] using ha.bytes_eq
  bytes_eq_take := by
    simpa [Account.edit] using ha.bytes_eq_take

end Sound

/-- How a buffer stands to what it was some calls ago. -/
structure Onward (a b : Account) : Prop where
  cap : b.buffer.cap = a.buffer.cap
  /-- What was dropped stays dropped. -/
  isTruncated : a.buffer.isTruncated = true → b.buffer.isTruncated = true
  /-- What was kept stays kept. -/
  bytes : a.buffer.bytes <+: b.buffer.bytes
  offered : a.offered <+: b.offered

namespace Onward

variable {a b c : Account}

theorem refl (a : Account) : a.Onward a :=
  ⟨rfl, id, List.prefix_rfl, List.prefix_rfl⟩

theorem trans (hab : a.Onward b) (hbc : b.Onward c) : a.Onward c where
  cap := hbc.cap.trans hab.cap
  isTruncated := hbc.isTruncated ∘ hab.isTruncated
  bytes := hab.bytes.trans hbc.bytes
  offered := hab.offered.trans hbc.offered

theorem append (a : Account) (more : Bytes) : a.Onward (a.append more) where
  cap := rfl
  isTruncated hcut := by
    change (a.buffer.isTruncated || _) = true
    rw [hcut, Bool.true_or]
  bytes := List.prefix_append _ _
  offered := List.prefix_append _ _

theorem concat (a b : Account) : a.Onward (a.concat b) where
  cap := rfl
  isTruncated hcut := by
    change (a.buffer.isTruncated || _ || _) = true
    rw [hcut, Bool.true_or, Bool.true_or]
  bytes := List.prefix_append _ _
  offered := List.prefix_append _ _

theorem edit (a : Account) (change : Capture.Edit) : a.Onward (a.edit change) where
  cap := a.buffer.cap_edit change
  isTruncated := (a.buffer.isTruncated_edit change).trans
  bytes := by
    refine ⟨[], ?_⟩
    rw [List.append_nil]
    exact (a.buffer.bytes_edit change).symm
  offered := List.prefix_rfl

end Onward

end Account

/-! ## Shelves -/

/-- Any number of buffers.  A number of which there is no buffer any more is kept empty. -/
abbrev Shelf := List (Option Account)

namespace Shelf

/-- The buffer of a number, if it is there. -/
def account? (shelf : Shelf) (i : Nat) : Option Account := shelf[i]?.join

/-- A call on the buffers of a shelf. -/
inductive Call where
  | new (cap : Nat)
  | ofBytes (bytes : Bytes) (cap : Nat)
  | clone (i : Nat)
  | append (i : Nat) (more : Bytes)
  /-- The second buffer is put into the first one, and is not there any more. -/
  | concat (i j : Nat)
  | edit (i : Nat) (change : Capture.Edit)
  deriving DecidableEq

/-- What a call returns. -/
inductive Reply where
  | nothing
  /-- So many bytes were kept. -/
  | kept (count : Nat)
  /-- The faults that were taken away. -/
  | faults (taken : List Fault)
  deriving DecidableEq

/-- What a change of status or faults returns. -/
def replyToEdit (c : Capture) : Capture.Edit → Reply
  | .takeFaults => .faults c.faults
  | _ => .nothing

/-- A call, with what it returns.  One on a buffer that is not there cannot be made, and does
nothing. -/
def perform (shelf : Shelf) : Call → Reply × Shelf
  | .new cap => (.nothing, shelf ++ [some (.empty cap)])
  | .ofBytes bytes cap => (.nothing, shelf ++ [some ((Account.empty cap).append bytes)])
  | .clone i =>
    match shelf.account? i with
    | some a => (.nothing, shelf ++ [some a])
    | none => (.nothing, shelf)
  | .append i more =>
    match shelf.account? i with
    | some a => (.kept (a.buffer.kept more), shelf.set i (some (a.append more)))
    | none => (.nothing, shelf)
  | .concat i j =>
    match shelf.account? i, shelf.account? j with
    | some a, some b =>
      if i = j then (.nothing, shelf)
      else (.nothing, (shelf.set j none).set i (some (a.concat b)))
    | _, _ => (.nothing, shelf)
  | .edit i change =>
    match shelf.account? i with
    | some a => (replyToEdit a.buffer change, shelf.set i (some (a.edit change)))
    | none => (.nothing, shelf)

/-- The shelf after some calls. -/
def run (shelf : Shelf) (calls : List Call) : Shelf :=
  calls.foldl (fun shelf call => (shelf.perform call).2) shelf

theorem run_append (shelf : Shelf) (first later : List Call) :
    shelf.run (first ++ later) = (shelf.run first).run later :=
  List.foldl_append

section Numbers

variable {shelf : Shelf} {i j : Nat} {a : Account}

theorem account?_eq_some : shelf.account? i = some a ↔ shelf[i]? = some (some a) :=
  Option.join_eq_some_iff

theorem lt_of_account? (ha : shelf.account? i = some a) : i < shelf.length :=
  (List.getElem?_eq_some_iff.mp (account?_eq_some.mp ha)).1

/-- What is there after a number was given to something else. -/
theorem eq_or_of_account?_set {entry : Option Account}
    (ha : Shelf.account? (shelf.set j entry) i = some a) :
    (i = j ∧ entry = some a) ∨ shelf.account? i = some a := by
  rw [account?_eq_some, List.getElem?_set] at ha
  split at ha
  · next heq =>
      split at ha
      · exact Or.inl ⟨heq.symm, Option.some.inj ha⟩
      · cases ha
  · exact Or.inr (account?_eq_some.mpr ha)

/-- What is there after something took the next number. -/
theorem eq_or_of_account?_push {b : Account}
    (ha : Shelf.account? (shelf ++ [some b]) i = some a) :
    (shelf.length ≤ i ∧ b = a) ∨ shelf.account? i = some a := by
  rw [account?_eq_some, List.getElem?_append] at ha
  split at ha
  · exact Or.inr (account?_eq_some.mpr ha)
  · next hle =>
      have hentry : some a = some b := List.mem_singleton.mp (List.mem_of_getElem? ha)
      exact Or.inl ⟨Nat.not_lt.mp hle, Option.some.inj hentry.symm⟩

end Numbers

/-! ## What a call does -/

/-- Where the buffer of a number comes from that is there after a call. -/
inductive Origin (shelf : Shelf) (i : Nat) : Account → Prop where
  | kept {a : Account} (ha : shelf.account? i = some a) : Origin shelf i a
  | new (hi : shelf.length ≤ i) (cap : Nat) : Origin shelf i (.empty cap)
  | ofBytes (hi : shelf.length ≤ i) (bytes : Bytes) (cap : Nat) :
      Origin shelf i ((Account.empty cap).append bytes)
  | clone (hi : shelf.length ≤ i) {j : Nat} {a : Account} (ha : shelf.account? j = some a) :
      Origin shelf i a
  | append {a : Account} (ha : shelf.account? i = some a) (more : Bytes) :
      Origin shelf i (a.append more)
  | concat {j : Nat} {a b : Account} (ha : shelf.account? i = some a)
      (hb : shelf.account? j = some b) : Origin shelf i (a.concat b)
  | edit {a : Account} (ha : shelf.account? i = some a) (change : Capture.Edit) :
      Origin shelf i (a.edit change)

/-- A call does not do more than this to any of the buffers. -/
theorem origin_of_perform {shelf : Shelf} {call : Call} {i : Nat} {a : Account}
    (ha : (shelf.perform call).2.account? i = some a) : shelf.Origin i a := by
  cases call with
  | new cap =>
      rcases eq_or_of_account?_push ha with ⟨hi, rfl⟩ | hkept
      · exact .new hi cap
      · exact .kept hkept
  | ofBytes bytes cap =>
      rcases eq_or_of_account?_push ha with ⟨hi, rfl⟩ | hkept
      · exact .ofBytes hi bytes cap
      · exact .kept hkept
  | clone j =>
      simp only [perform] at ha
      split at ha
      · next b hb =>
          rcases eq_or_of_account?_push ha with ⟨hi, rfl⟩ | hkept
          · exact .clone hi hb
          · exact .kept hkept
      · exact .kept ha
  | append j more =>
      simp only [perform] at ha
      split at ha
      · next b hb =>
          rcases eq_or_of_account?_set ha with ⟨rfl, heq⟩ | hkept
          · cases heq
            exact .append hb more
          · exact .kept hkept
      · exact .kept ha
  | concat j k =>
      simp only [perform] at ha
      split at ha
      · next b c hb hc =>
          split at ha
          · exact .kept ha
          · rcases eq_or_of_account?_set ha with ⟨rfl, heq⟩ | hkept
            · cases heq
              exact .concat hb hc
            · rcases eq_or_of_account?_set hkept with ⟨-, heq⟩ | hkept
              · cases heq
              · exact .kept hkept
      · exact .kept ha
  | edit j change =>
      simp only [perform] at ha
      split at ha
      · next b hb =>
          rcases eq_or_of_account?_set ha with ⟨rfl, heq⟩ | hkept
          · cases heq
            exact .edit hb change
          · exact .kept hkept
      · exact .kept ha

/-- Numbers are never given up. -/
theorem length_le_perform (shelf : Shelf) (call : Call) :
    shelf.length ≤ (shelf.perform call).2.length := by
  cases call with
  | new cap => simp [perform]
  | ofBytes bytes cap => simp [perform]
  | clone i =>
      simp only [perform]
      split <;> simp
  | append i more =>
      simp only [perform]
      split <;> simp
  | concat i j =>
      simp only [perform]
      split
      · split <;> simp
      · exact Nat.le_refl _
  | edit i change =>
      simp only [perform]
      split <;> simp

/-- Every buffer is right. -/
def IsSound (shelf : Shelf) : Prop := ∀ i a, shelf.account? i = some a → a.Sound

/-- One shelf is another one some calls later. -/
structure Onward (shelf later : Shelf) : Prop where
  length_le : shelf.length ≤ later.length
  /-- The buffer of a number is the one that had it before, if the number was given then. -/
  account? : ∀ i b, i < shelf.length → later.account? i = some b →
    ∃ a, shelf.account? i = some a ∧ a.Onward b

theorem Onward.refl (shelf : Shelf) : shelf.Onward shelf :=
  ⟨Nat.le_refl _, fun _ a _ ha => ⟨a, ha, .refl a⟩⟩

theorem Onward.trans {shelf middle later : Shelf} (hfirst : shelf.Onward middle)
    (hsecond : middle.Onward later) : shelf.Onward later where
  length_le := Nat.le_trans hfirst.length_le hsecond.length_le
  account? i c hi hc := by
    obtain ⟨b, hb, hbc⟩ :=
      hsecond.account? i c (Nat.lt_of_lt_of_le hi hfirst.length_le) hc
    obtain ⟨a, ha, hab⟩ := hfirst.account? i b hi hb
    exact ⟨a, ha, hab.trans hbc⟩

theorem IsSound.perform {shelf : Shelf} (hs : shelf.IsSound) (call : Call) :
    (shelf.perform call).2.IsSound := by
  intro i b hb
  cases origin_of_perform hb with
  | kept ha => exact hs i b ha
  | new _ cap => exact .empty cap
  | ofBytes _ bytes cap => exact (Account.Sound.empty cap).append bytes
  | @clone _ j _ ha => exact hs j b ha
  | @append a ha more => exact (hs i a ha).append more
  | @concat j a c ha hc => exact (hs i a ha).concat (hs j c hc)
  | @edit a ha change => exact (hs i a ha).edit change

theorem onward_perform (shelf : Shelf) (call : Call) : shelf.Onward (shelf.perform call).2 where
  length_le := shelf.length_le_perform call
  account? i b hi hb := by
    cases origin_of_perform hb with
    | kept ha => exact ⟨b, ha, .refl b⟩
    | new hle cap => exact absurd hi (Nat.not_lt.mpr hle)
    | ofBytes hle bytes cap => exact absurd hi (Nat.not_lt.mpr hle)
    | clone hle ha => exact absurd hi (Nat.not_lt.mpr hle)
    | @append a ha more => exact ⟨a, ha, .append a more⟩
    | @concat j a c ha hc => exact ⟨a, ha, .concat a c⟩
    | @edit a ha change => exact ⟨a, ha, .edit a change⟩

/-! ## Whole histories -/

theorem IsSound.run {shelf : Shelf} (hs : shelf.IsSound) (calls : List Call) :
    (shelf.run calls).IsSound := by
  induction calls generalizing shelf with
  | nil => exact hs
  | cons call calls ih => exact ih (hs.perform call)

theorem onward_run (shelf : Shelf) (calls : List Call) : shelf.Onward (shelf.run calls) := by
  induction calls generalizing shelf with
  | nil => exact .refl shelf
  | cons call calls ih => exact (shelf.onward_perform call).trans (ih _)

theorem isSound_nil : IsSound [] := by
  intro i a ha
  exact absurd (lt_of_account? ha) (Nat.not_lt_zero i)

/-- What holds of the buffers at one time, and at a later one. -/
structure Accounts (now later : Shelf) : Prop where
  /-- What every buffer says is right. -/
  sound : now.IsSound
  /-- Capacities stay, and what was dropped stays dropped. -/
  onward : now.Onward later
  /-- Appending returns by how much the buffer grows. -/
  append : ∀ i a more, now.account? i = some a → ∃ b count,
    now.perform (.append i more) = (.kept count, now.set i (some b)) ∧
      b.buffer.length = a.buffer.length + count
  /-- Nothing else is changed together with status or faults. -/
  edit : ∀ i a change, now.account? i = some a → ∃ b reply,
    now.perform (.edit i change) = (reply, now.set i (some b)) ∧
      b.buffer.bytes = a.buffer.bytes ∧ b.buffer.cap = a.buffer.cap ∧
      b.buffer.isTruncated = a.buffer.isTruncated

/-- **Buffers are accounted for.**  This is so after every history, of any number of
buffers of any capacities, and however it goes on. -/
theorem run_accounts (past future : List Call) :
    Accounts (run [] past) (run [] (past ++ future)) where
  sound := isSound_nil.run past
  onward := by
    rw [run_append]
    exact onward_run _ future
  append i a more ha := by
    refine ⟨a.append more, a.buffer.kept more, ?_, a.buffer.length_append more⟩
    simp only [perform, ha]
  edit i a change ha := by
    refine ⟨a.edit change, replyToEdit a.buffer change, ?_, a.buffer.bytes_edit change,
      a.buffer.cap_edit change, a.buffer.isTruncated_edit change⟩
    simp only [perform, ha]

/-- Three bytes are cut to two and put where there is room for one more byte, and another is
added: the third byte was dropped in the middle, and what is kept are not the first bytes. -/
example :
    ((run [] [.new 4, .ofBytes [1, 2, 3] 2, .concat 0 1, .append 0 [4]]).account? 0).map
        (fun a => (a.buffer.bytes, a.offered, a.buffer.isTruncated, a.isAmple))
      = some ([1, 2, 4], [1, 2, 3, 4], true, false) := by
  decide

end Shelf

/-! ## Putting buffers together -/

namespace Capture

/-- A buffer that some history comes to. -/
def Reachable (c : Capture) : Prop :=
  ∃ calls i a, (Shelf.run [] calls).account? i = some a ∧ a.buffer = c

theorem Reachable.length_le {c : Capture} (hc : c.Reachable) : c.length ≤ c.cap := by
  obtain ⟨calls, i, a, ha, rfl⟩ := hc
  exact (Shelf.isSound_nil.run calls i a ha).length_le

/-- **Buffers can be put together in any grouping**, if the one in the middle is not smaller
than the first, **and an empty one adds nothing on the left.** -/
theorem Reachable.concat_laws {a b x : Capture} (c : Capture) (hle : a.cap ≤ b.cap)
    (hx : x.Reachable) :
    (a.concat b).concat c = a.concat (b.concat c) ∧ (empty x.cap).concat x = x :=
  ⟨concat_assoc c hle, empty_concat hx.length_le⟩

/-- The first buffer is full before the second ends, and a third one was cut. -/
theorem Reachable.concat_laws_sample :
    (3 ≤ 4 ∧ (ofBytes [8, 9] 1).Reachable) ∧
      ((ofBytes [1, 2] 3).concat (ofBytes [3, 4] 4)).concat (ofBytes [5, 6] 1)
        = (ofBytes [1, 2] 3).concat ((ofBytes [3, 4] 4).concat (ofBytes [5, 6] 1)) ∧
      (empty 1).concat (ofBytes [8, 9] 1) = ofBytes [8, 9] 1 :=
  have hx : (ofBytes [8, 9] 1).Reachable := ⟨[.ofBytes [8, 9] 1], 0, _, rfl, rfl⟩
  ⟨⟨by decide, hx⟩,
    Reachable.concat_laws (a := ofBytes [1, 2] 3) (b := ofBytes [3, 4] 4) (ofBytes [5, 6] 1)
      (by decide) hx⟩

/-- The one in the middle is smaller than the first, and has dropped what there was room
for. -/
example :
    ((ofBytes [1] 3).concat (ofBytes [2] 1)).concat (ofBytes [3] 1)
      ≠ (ofBytes [1] 3).concat ((ofBytes [2] 1).concat (ofBytes [3] 1)) := by
  decide

end Capture

end CommandExpr
