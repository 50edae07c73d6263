import CommandExpr.Proofs.RelayNames
import Mathlib.Data.List.Basic

/-!
# Names that are free

Names of relays are taken by files that were there before, and by relays.  The next number
is counted up past the ones that are taken, so it finds a free name as long as there are
fewer taken names **ahead** of it than attempts.  A relay's own name is never ahead again,
unless the numbers come round.

## Main results

* `RelayStore.hasNul_pathOf`, `RelayStore.length_pathOf_le` — what the names of relays have
  in common.
* `Relay.Creates.skips` — the names that are taken are passed over.
* `Files.Roomy.pass`, `Files.Roomy.keep` — there is still room for the relays to come.
-/

namespace CommandExpr

variable {σ ι : Type}

/-! ## The bytes of names -/

/-- The characters of a relay's name. -/
private theorem name_toList (i : UInt64) :
    (s!"temp{i}.txt").toList
      = ['t', 'e', 'm', 'p'] ++ (Nat.toDigits 10 i.toNat ++ ['.', 't', 'x', 't']) := by
  change ("temp" ++ i.toNat.repr ++ ".txt").toList = _
  rw [String.toList_append, String.toList_append, Nat.toList_repr, List.append_assoc]
  rfl

private theorem toNat_of_mem_name {i : UInt64} {c : Char} (hc : c ∈ (s!"temp{i}.txt").toList) :
    0 < c.toNat ∧ c.toNat < 128 := by
  rw [name_toList, List.mem_append, List.mem_append] at hc
  have htext : ∀ c ∈ ['t', 'e', 'm', 'p', '.', 't', 'x', 't'], 0 < c.toNat ∧ c.toNat < 128 := by
    simp
  rcases hc with hc | hc | hc
  · exact htext c (List.mem_append_left ['.', 't', 'x', 't'] hc)
  · obtain ⟨hlow, hhigh⟩ := Char.isDigit_iff_toNat.mp
      (Nat.isDigit_of_mem_toDigits (by decide) (by decide) hc)
    exact ⟨Nat.lt_of_lt_of_le (by decide) hlow, Nat.lt_of_le_of_lt hhigh (by decide)⟩
  · exact htext c (List.mem_append_right ['t', 'e', 'm', 'p'] hc)

/-- Each character is one byte. -/
private theorem ofString_name (i : UInt64) :
    Bytes.ofString s!"temp{i}.txt"
      = (s!"temp{i}.txt").toList.map fun c => UInt8.ofNat c.toNat := by
  rw [Bytes.ofString_eq, List.map_eq_flatMap]
  exact List.flatMap_congr fun c hc => Bytes.utf8EncodeChar_of_lt (toNat_of_mem_name hc).2

private theorem hasNul_name (i : UInt64) : (Bytes.ofString s!"temp{i}.txt").hasNul = false := by
  refine Bool.eq_false_iff.mpr (mt Bytes.hasNul_ofString.mp fun hmem => ?_)
  exact absurd (toNat_of_mem_name hmem).1 (by decide)

theorem Path.bytes_join (dir : Path) (name : Bytes) :
    ∃ sep : Bytes, (dir.join name).bytes = dir.bytes ++ (sep ++ name) ∧ sep.length ≤ 1 ∧
      sep.hasNul = false := by
  unfold join
  split
  · next hempty =>
      rw [List.getLast?_eq_none_iff] at hempty
      exact ⟨[], by rw [hempty]; rfl, by decide, rfl⟩
  · split
    · exact ⟨[], rfl, by decide, rfl⟩
    · exact ⟨[Bytes.slash], rfl, by decide, rfl⟩

/-- All names of relays can be handed to the operating system, or none of them can. -/
theorem RelayStore.hasNul_pathOf (store : RelayStore) (i : UInt64) :
    (store.pathOf i).bytes.hasNul = store.dir.bytes.hasNul := by
  obtain ⟨sep, hbytes, -, hsep⟩ := store.dir.bytes_join (Bytes.ofString s!"temp{i}.txt")
  have hname := hasNul_name i
  simp only [Bytes.hasNul] at hsep hname ⊢
  rw [pathOf, hbytes, List.contains_append, List.contains_append, hsep, hname]
  simp

/-- The name of a relay is not much longer than that of the directory. -/
theorem RelayStore.length_pathOf_le (store : RelayStore) (i : UInt64) :
    (store.pathOf i).bytes.length ≤ store.dir.bytes.length + 29 := by
  obtain ⟨sep, hbytes, hsep, -⟩ := store.dir.bytes_join (Bytes.ofString s!"temp{i}.txt")
  have hdigits : (Nat.toDigits 10 i.toNat).length ≤ 20 :=
    (Nat.length_toDigits_le_iff (by decide) (by decide)).mpr
      (Nat.lt_trans i.toNat_lt (by decide))
  have hname : (Bytes.ofString s!"temp{i}.txt").length = 8 + (Nat.toDigits 10 i.toNat).length := by
    rw [ofString_name, List.length_map, name_toList]
    simp only [List.length_append, List.length_cons, List.length_nil]
    omega
  rw [pathOf, hbytes, List.length_append, List.length_append, hname]
  omega

/-! ## Taken names -/

variable {files : Files σ ι} {store : RelayStore} {s t : Session σ} {n m : Nat}
  {ahead : List UInt64}

/-- Is there anything under the name of a relay with the number? -/
def Files.Taken (files : Files σ ι) (store : RelayStore) (m : σ) (i : UInt64) : Prop :=
  files.content m (files.entry (store.pathOf i)) ≠ none

/-- Of the names that the next attempts come to, up to `n` successful ones, no others are
taken than those of the list. -/
structure Files.Ahead (files : Files σ ι) (store : RelayStore) (n : Nat)
    (ahead : List UInt64) (s : Session σ) : Prop where
  /-- The numbers do not come round. -/
  size : n + ahead.length ≤ 2 ^ 64
  taken : ∀ i, files.Taken store s.machine i →
    i ∈ ahead ∨ Fresh i (n + ahead.length) s.nextRelay

/-- So many relays can be made, one after the other: there are never more taken names in a
row than attempts to make a relay. -/
def Files.Roomy (files : Files σ ι) (store : RelayStore) (n : Nat) (s : Session σ) : Prop :=
  ∃ ahead, ahead.length < Relay.maxAttempts ∧ files.Ahead store n ahead s

namespace Files

/-- The next number is no more among those to come once it was used. -/
private theorem fresh_succ {x next : UInt64} {count : Nat} (hf : Fresh x (count + 1) next) :
    Fresh x count (next + 1) := by
  intro i hi heq
  refine hf (i + 1) (by omega) ?_
  rw [Nat.add_comm i 1, UInt64.ofNat_add, ← UInt64.add_assoc]
  exact heq

namespace Ahead

/-- A taken name that comes next is on the list, … -/
theorem mem (ha : files.Ahead store (n + 1) ahead s)
    (htaken : files.Taken store s.machine s.nextRelay) : s.nextRelay ∈ ahead := by
  rcases ha.taken _ htaken with hmem | hfresh
  · exact hmem
  · refine absurd ?_ (hfresh 0 (by omega))
    simp

/-- … and needs not be on it any more once it was passed over. -/
theorem skip (ha : files.Ahead store (n + 1) ahead s)
    (htaken : files.Taken store s.machine s.nextRelay) (hnext : t.nextRelay = s.nextRelay + 1)
    (hkept : ∀ i, files.Taken store t.machine i → files.Taken store s.machine i) :
    files.Ahead store (n + 1) (ahead.erase s.nextRelay) t := by
  have hmem := ha.mem htaken
  have hlength := List.length_erase_of_mem hmem
  have hpos := List.length_pos_of_mem hmem
  have hsize := ha.size
  refine ⟨by omega, fun i hi => ?_⟩
  rw [hnext]
  by_cases hi' : i = s.nextRelay
  · subst hi'
    exact Or.inr (Fresh.of_lt _ (by omega))
  · rcases ha.taken i (hkept i hi) with hahead | hfresh
    · exact Or.inl ((List.mem_erase_of_ne hi').mpr hahead)
    · exact Or.inr (fresh_succ (hfresh.mono (by omega)))

end Ahead

namespace Roomy

/-- Once a name was used, there is room for one relay less. -/
theorem pass (hr : files.Roomy store (n + 1) s) (hnext : t.nextRelay = s.nextRelay + 1)
    (hkept : ∀ i, files.Taken store t.machine i →
      i = s.nextRelay ∨ files.Taken store s.machine i) : files.Roomy store n t := by
  obtain ⟨ahead, hlength, ha⟩ := hr
  have hsize := ha.size
  refine ⟨ahead, hlength, by omega, fun i hi => ?_⟩
  rw [hnext]
  by_cases hi' : i = s.nextRelay
  · subst hi'
    exact Or.inr (Fresh.of_lt _ (by omega))
  · rcases ha.taken i ((hkept i hi).resolve_left hi') with hahead | hfresh
    · exact Or.inl hahead
    · exact Or.inr (fresh_succ (hfresh.mono (by omega)))

/-- There is as much room as long as nothing else is taken. -/
theorem keep (hr : files.Roomy store n s) (hnext : t.nextRelay = s.nextRelay)
    (hkept : ∀ i, files.Taken store t.machine i → files.Taken store s.machine i) :
    files.Roomy store n t := by
  obtain ⟨ahead, hlength, ha⟩ := hr
  refine ⟨ahead, hlength, ha.size, fun i hi => ?_⟩
  rw [hnext]
  exact ha.taken i (hkept i hi)

theorem mono (hr : files.Roomy store n s) (hle : m ≤ n) : files.Roomy store m s := by
  obtain ⟨ahead, hlength, ha⟩ := hr
  have hsize := ha.size
  exact ⟨ahead, hlength, by omega, fun i hi => (ha.taken i hi).imp_right (·.mono (by omega))⟩

/-- There is room if there are fewer taken names than attempts to make a relay. -/
theorem of_taken {taken : List UInt64} (hlength : taken.length < Relay.maxAttempts)
    (htaken : ∀ i, files.Taken store s.machine i → i ∈ taken)
    (hsize : n + Relay.maxAttempts ≤ 2 ^ 64) : files.Roomy store n s :=
  ⟨taken, hlength, by omega, fun i hi => Or.inl (htaken i hi)⟩

end Roomy

end Files

/-! ## Passing over them -/

namespace Relay

variable {h : Host σ} {left tried : Nat} {result : Except Failure Relay}

/-- What comes of the next name. -/
def tryNext (h : Host σ) (store : RelayStore) (s : Session σ) :
    Except IoError Handle × Session σ :=
  (onPath (store.pathOf s.nextRelay) h.createNew).on { s with nextRelay := s.nextRelay + 1 }

theorem nextRelay_tryNext (h : Host σ) (store : RelayStore) (s : Session σ) :
    (tryNext h store s).2.nextRelay = s.nextRelay + 1 := by
  rcases hcall : tryNext h store s with ⟨answer, t⟩
  exact nextRelay_of_onPath hcall

/-- A name that is not taken is the last that is tried. -/
theorem Creates.of_last (hc : Creates h store left tried s result t)
    (hlast : ∀ e, (tryNext h store s).1 = .error e → e.kind ≠ .alreadyExists) :
    (∃ handle u, tryNext h store s = (.ok handle, u) ∧
        result = .ok ⟨s.nextRelay, store.pathOf s.nextRelay, handle⟩ ∧
        t = u.noted h (.relayCreated (store.pathOf s.nextRelay).display)) ∨
      ∃ e f, tryNext h store s = (.error e, t) ∧ result = .error f ∧ f.kind = .relay := by
  cases hc with
  | @made _ _ _ u handle hcall => exact Or.inl ⟨handle, u, hcall, rfl, rfl⟩
  | @refused _ _ _ _ e hcall _ => exact Or.inr ⟨e, _, hcall, rfl, rfl⟩
  | taken hcall htaken _ => exact absurd htaken (hlast _ (congrArg Prod.fst hcall))

/-- **The names that are taken are passed over**, as long as each of them is refused for
that.  `P` is what a refused call keeps. -/
theorem Creates.skips {P : Session σ → Prop}
    (hrefused : ∀ u, P u → files.Taken store u.machine u.nextRelay → ∃ e v,
      tryNext h store u = (.error e, v) ∧ e.kind = .alreadyExists ∧
        P (v.noted h (.relayTaken (store.pathOf u.nextRelay).display)) ∧
        ∀ i, files.Taken store
          (v.noted h (.relayTaken (store.pathOf u.nextRelay).display)).machine i →
            files.Taken store u.machine i)
    (hc : Creates h store left tried s result t) (hP : P s) (hlength : ahead.length ≤ left)
    (ha : files.Ahead store (n + 1) ahead s) :
    ∃ left' tried' u, Creates h store left' tried' u result t ∧ P u ∧
      ¬files.Taken store u.machine u.nextRelay ∧
      ∃ ahead', ahead'.length ≤ ahead.length ∧ files.Ahead store (n + 1) ahead' u := by
  induction hc generalizing ahead with
  | @made left tried s t handle hcall =>
      refine ⟨left, tried, s, .made hcall, hP, fun htaken => ?_, ahead, Nat.le_refl _, ha⟩
      obtain ⟨e, v, hcall', -⟩ := hrefused s hP htaken
      rw [tryNext, hcall] at hcall'
      cases congrArg Prod.fst hcall'
  | @refused left tried s t e hcall hlast =>
      refine ⟨left, tried, s, .refused hcall hlast, hP, fun htaken => ?_, ahead, Nat.le_refl _, ha⟩
      obtain ⟨e', v, hcall', hkind, -⟩ := hrefused s hP htaken
      rw [tryNext, hcall] at hcall'
      obtain rfl := Except.error.inj (congrArg Prod.fst hcall')
      -- An attempt is left for each name of the list, and the next one is on it.
      have hpos := List.length_pos_of_mem (ha.mem htaken)
      have hzero := hlast hkind
      omega
  | @taken left tried s v t e result hcall hkind hrest ih =>
      by_cases htaken : files.Taken store s.machine s.nextRelay
      · obtain ⟨e', v', hcall', -, hP', hkept⟩ := hrefused s hP htaken
        rw [tryNext, hcall] at hcall'
        obtain ⟨-, rfl⟩ := Prod.mk.inj hcall'
        have hmem := ha.mem htaken
        have hlength' := List.length_erase_of_mem hmem
        have hnext := nextRelay_of_onPath hcall
        obtain ⟨left', tried', u, hc, hPu, hfree, ahead', hle, ha'⟩ :=
          ih hP' (by omega) (ha.skip htaken hnext hkept)
        exact ⟨left', tried', u, hc, hPu, hfree, ahead', by omega, ha'⟩
      · exact ⟨left + 1, tried, s, .taken hcall hkind hrest, hP, htaken, ahead,
          Nat.le_refl _, ha⟩

end Relay

end CommandExpr
