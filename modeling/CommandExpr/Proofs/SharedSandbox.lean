import CommandExpr.Proofs.Processes
import CommandExpr.Proofs.Sandbox

/-!
# Sandboxes on the same files

Any number of processes, each on a machine that is a sandbox.  The files are those of
all of them, and everything else each has to itself, so also its handles.

## Main results

* `SharedSandbox.lawful` — the calls of the processes do to the files what they should.
-/

namespace CommandExpr.SharedSandbox

/-- Machines with the same files. -/
structure State (π : Type) where
  /-- The files. -/
  files : Path → Option Sandbox.Entry
  /-- The machine of a process, but for its files. -/
  own : π → Sandbox.State

variable {π : Type} [DecidableEq π]

/-- The machine of a process. -/
def State.seen (m : State π) (p : π) : Sandbox.State := { m.own p with files := m.files }

/-- The machines after one of them has changed. -/
def State.changing (m : State π) (p : π) (own : Sandbox.State) : State π :=
  ⟨own.files, Function.update m.own p own⟩

/-- A call that one process makes of its machine. -/
def calling {α : Type} (p : π) (f : Sandbox.State → α × Sandbox.State) (m : State π) :
    α × State π :=
  ((f (m.seen p)).1, m.changing p (f (m.seen p)).2)

/-- The calls of a process. -/
def host (oracle : Oracle) (p : π) : Host (State π) where
  patience m := (Sandbox.host oracle).patience (m.seen p)
  createNew path := calling p ((Sandbox.host oracle).createNew path)
  openRead path := calling p ((Sandbox.host oracle).openRead path)
  append handle bytes := calling p ((Sandbox.host oracle).append handle bytes)
  close handle m := m.changing p ((Sandbox.host oracle).close handle (m.seen p))
  remove path := calling p ((Sandbox.host oracle).remove path)
  makePipe := calling p (Sandbox.host oracle).makePipe
  fork argv input := calling p ((Sandbox.host oracle).fork argv input)
  readReport pid count := calling p ((Sandbox.host oracle).readReport pid count)
  readOutput pid count := calling p ((Sandbox.host oracle).readOutput pid count)
  pollOutput pid millis := calling p ((Sandbox.host oracle).pollOutput pid millis)
  hangUp pid m := m.changing p ((Sandbox.host oracle).hangUp pid (m.seen p))
  wait pid look := calling p ((Sandbox.host oracle).wait pid look)
  kill pid signal := calling p ((Sandbox.host oracle).kill pid signal)
  now := calling p (Sandbox.host oracle).now
  sleep time m := m.changing p ((Sandbox.host oracle).sleep time (m.seen p))
  writeOut bytes := calling p ((Sandbox.host oracle).writeOut bytes)
  tell message m := m.changing p ((Sandbox.host oracle).tell message (m.seen p))

/-- Where the handles of a machine stand, those that were given out. -/
def given (m : Sandbox.State) (handle : Handle) : Option (Path × Nat) :=
  if handle < m.next then m.cursors handle else none

/-- The files of all processes. -/
def volume : Volume (State π) π Path where
  entry _ path := path
  content m path := (m.files path).map Sandbox.Entry.bytes
  cursor m k := given (m.own k.1) k.2

section Lawful

variable {p : π} {m m' : State π} {own : Sandbox.State}

private theorem of_calling {α : Type} {f : Sandbox.State → α × Sandbox.State} {a : α}
    (hcall : calling p f m = (a, m')) :
    ∃ own, f (m.seen p) = (a, own) ∧ m' = m.changing p own := by
  obtain ⟨rfl, rfl⟩ := Prod.mk.inj hcall
  exact ⟨_, rfl, rfl⟩

/-- A machine that moves no handle but one. -/
private theorem cursor_changing {handle : Handle} {place : Option (Path × Nat)}
    (hgiven : given own = Function.update (given (m.own p)) handle place) :
    volume.cursor (m.changing p own)
      = Function.update (volume.cursor m) (p, handle) place := by
  funext ⟨q, k⟩
  change given (Function.update m.own p own q) k = _
  by_cases hq : q = p
  · subst hq
    rw [Function.update_self, hgiven]
    by_cases hk : k = handle
    · rw [hk, Function.update_self, Function.update_self]
    · rw [Function.update_of_ne hk, Function.update_of_ne fun heq => hk (Prod.mk.inj heq).2]
      rfl
  · rw [Function.update_of_ne hq, Function.update_of_ne fun heq => hq (Prod.mk.inj heq).1]
    rfl

/-- A machine that changes nothing but files. -/
private theorem cursor_same (hnext : own.next = (m.own p).next)
    (hcursors : own.cursors = (m.own p).cursors) :
    volume.cursor (m.changing p own) = volume.cursor m := by
  funext ⟨q, k⟩
  change given (Function.update m.own p own q) k = given (m.own q) k
  by_cases hq : q = p
  · rw [hq, Function.update_self, given, given, hnext, hcursors]
  · rw [Function.update_of_ne hq]

/-- A new handle. -/
private theorem given_opening (m : Sandbox.State) (path : Path) :
    given (m.opening path).2 = Function.update (given m) m.next (some (path, 0)) := by
  funext k
  by_cases hk : k = m.next
  · subst hk
    simp [given, Sandbox.State.opening]
  · rw [Function.update_of_ne hk]
    have hlt : k < m.next + 1 ↔ k < m.next := Nat.lt_succ_iff_lt_or_eq.trans (or_iff_left hk)
    simp only [given, Sandbox.State.opening, Function.update_of_ne hk, hlt]

/-- A handle that was given out is moved, or one is closed. -/
private theorem given_update {m : Sandbox.State} {handle : Handle}
    {place : Option (Path × Nat)} (hnext : own.next = m.next)
    (hcursors : own.cursors = Function.update m.cursors handle place)
    (hplace : place = none ∨ handle < m.next) :
    given own = Function.update (given m) handle place := by
  funext k
  rw [given, hnext, hcursors]
  by_cases hk : k = handle
  · rw [hk, Function.update_self, Function.update_self]
    rcases hplace with rfl | hlt
    · exact ite_self none
    · exact if_pos hlt
  · rw [Function.update_of_ne hk, Function.update_of_ne hk]
    rfl

/-- A handle that stands somewhere was given out. -/
private theorem given_eq_some {m : Sandbox.State} {handle : Handle} {place : Path × Nat}
    (hgiven : given m handle = some place) :
    handle < m.next ∧ m.cursors handle = some place := by
  unfold given at hgiven
  split at hgiven
  · next hlt => exact ⟨hlt, hgiven⟩
  · cases hgiven

private theorem content_setting (path : Path) (entry : Option Sandbox.Entry)
    (hfiles : own.files = Function.update m.files path entry) :
    volume.content (m.changing p own)
      = Function.update (volume.content m) path (entry.map Sandbox.Entry.bytes) := by
  funext other
  change (own.files other).map _ = _
  rw [hfiles]
  by_cases hother : other = path
  · rw [hother, Function.update_self, Function.update_self]
  · rw [Function.update_of_ne hother, Function.update_of_ne hother]
    rfl

theorem lawful (oracle : Oracle) : volume.Lawful (host (π := π) oracle) where
  createNew_ok := by
    intro p path handle m m' hcall
    obtain ⟨own, hown, rfl⟩ := of_calling hcall
    simp only [Sandbox.host] at hown
    split at hown
    · simp at hown
    · next hnone =>
        obtain ⟨hhandle, rfl⟩ := Prod.mk.inj hown
        obtain rfl := Except.ok.inj hhandle
        refine ⟨?_, ?_, content_setting path (some ⟨[], true⟩) rfl,
          cursor_changing (given_opening _ path)⟩
        · exact congrArg (Option.map Sandbox.Entry.bytes) hnone
        · exact if_neg (Nat.lt_irrefl _)
  createNew_error := by
    intro p path e m m' hcall
    obtain ⟨own, hown, rfl⟩ := of_calling hcall
    simp only [Sandbox.host] at hown
    split at hown
    · obtain ⟨-, rfl⟩ := Prod.mk.inj hown
      exact ⟨rfl, cursor_same rfl rfl⟩
    · simp [Sandbox.State.opening] at hown
  openRead_ok := by
    intro p path handle m m' hcall
    obtain ⟨own, hown, rfl⟩ := of_calling hcall
    simp only [Sandbox.host] at hown
    split at hown
    · obtain ⟨hhandle, rfl⟩ := Prod.mk.inj hown
      obtain rfl := Except.ok.inj hhandle
      exact ⟨if_neg (Nat.lt_irrefl _), rfl, cursor_changing (given_opening _ path)⟩
    · simp at hown
  openRead_error := by
    intro p path e m m' hcall
    obtain ⟨own, hown, rfl⟩ := of_calling hcall
    simp only [Sandbox.host] at hown
    split at hown
    · simp [Sandbox.State.opening] at hown
    · next hnone =>
        obtain ⟨-, rfl⟩ := Prod.mk.inj hown
        exact ⟨⟨rfl, cursor_same rfl rfl⟩, fun _ =>
          congrArg (Option.map Sandbox.Entry.bytes) hnone⟩
  append := by
    intro p handle path old bytes m m' answer hcursor hcontent hcall
    obtain ⟨own, hown, rfl⟩ := of_calling hcall
    obtain ⟨entry, hentry, rfl⟩ := Option.map_eq_some_iff.mp hcontent
    obtain ⟨hlt, hplace⟩ : handle < (m.own p).next ∧ (m.seen p).cursors handle = _ :=
      given_eq_some hcursor
    have hfile : (m.seen p).files path = some entry := hentry
    simp only [Sandbox.host, hplace, hfile, Sandbox.State.writing] at hown
    obtain ⟨rfl, rfl⟩ := Prod.mk.inj hown
    refine ⟨bytes, List.prefix_rfl, fun _ => rfl, ?_, ?_⟩
    · have hnew : entry.bytes.take entry.bytes.length ++ bytes
          ++ entry.bytes.drop (entry.bytes.length + bytes.length) = entry.bytes ++ bytes := by
        rw [List.take_length, List.drop_eq_nil_of_le (Nat.le_add_right _ _), List.append_nil]
      simp only [hnew]
      exact content_setting path (some { entry with bytes := entry.bytes ++ bytes }) rfl
    · rw [List.length_append]
      exact cursor_changing (given_update rfl rfl (Or.inr hlt))
  close p handle m := ⟨rfl, cursor_changing (given_update rfl rfl (Or.inl rfl))⟩
  remove_ok := by
    intro p path m m' hcall
    obtain ⟨own, hown, rfl⟩ := of_calling hcall
    simp only [Sandbox.host] at hown
    split at hown
    · obtain ⟨-, rfl⟩ := Prod.mk.inj hown
      exact ⟨content_setting path none rfl, cursor_same rfl rfl⟩
    · simp at hown
  remove_error := by
    intro p path e m m' hcall
    obtain ⟨own, hown, rfl⟩ := of_calling hcall
    simp only [Sandbox.host] at hown
    split at hown
    · simp at hown
    · obtain ⟨-, rfl⟩ := Prod.mk.inj hown
      exact ⟨rfl, cursor_same rfl rfl⟩
  tell p message m := ⟨rfl, cursor_same rfl rfl⟩

end Lawful

end CommandExpr.SharedSandbox
