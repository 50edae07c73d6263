import CommandExpr.Proofs.Agreement
import CommandExpr.Proofs.Files
import CommandExpr.Proofs.Texts

/-!
# The names and the numbers of relays

A relay is named by its number, and different numbers give different names.
Numbers are taken one after the other, one for each attempt to make a relay, so
one that was taken does not come again before all others have.

## Main results

* `RelayStore.pathOf_inj` — the name of a relay tells its number.
* `Relay.Creates.takes` — how many numbers the making of a relay takes.
* `Fresh.after` — those that are left are still fresh.
-/

namespace CommandExpr

variable {σ : Type}

/-! ## Names of relays -/

theorem Path.join_inj {dir : Path} {a b : Bytes} : dir.join a = dir.join b ↔ a = b := by
  constructor
  · intro h
    unfold join at h
    split at h
    · exact congrArg bytes h
    · split at h
      · exact List.append_cancel_left (congrArg bytes h)
      · exact (List.cons.inj (List.append_cancel_left (congrArg bytes h))).2
  · rintro rfl
    rfl

private theorem repr_inj {m n : Nat} (h : m.repr = n.repr) : m = n := by
  have hdigits := congrArg String.toList h
  rw [Nat.toList_repr, Nat.toList_repr] at hdigits
  rw [← Nat.ofDigitChars_ten_toDigits (n := m), hdigits, Nat.ofDigitChars_ten_toDigits]

/-- Relays with different numbers have different names. -/
theorem RelayStore.pathOf_inj {store : RelayStore} {i j : UInt64} :
    store.pathOf i = store.pathOf j ↔ i = j := by
  constructor
  · intro h
    have hname := Bytes.ofString_inj.mp (Path.join_inj.mp h)
    have hrepr : toString i = toString j := by
      simpa [← String.toList_inj] using hname
    exact UInt64.toNat_inj.mp (repr_inj hrepr)
  · rintro rfl
    rfl

theorem RelayStore.names_pathOf (store : RelayStore) (i : UInt64) :
    store.Names (store.pathOf i) := ⟨i, rfl⟩

/-! ## Numbers of relays -/

/-- A number is not among so many that begin with another one. -/
def Fresh (x : UInt64) (count : Nat) (next : UInt64) : Prop :=
  ∀ i < count, next + UInt64.ofNat i ≠ x

/-- At most so many numbers are taken from one session to the other. -/
def Session.Takes (s : Session σ) (most : Nat) (t : Session σ) : Prop :=
  ∃ count ≤ most, t.nextRelay = s.nextRelay + UInt64.ofNat count

section Numbers

variable {x next : UInt64} {count most more : Nat} {s t u : Session σ}

theorem Fresh.ne (hf : Fresh x (count + 1) next) : next ≠ x := by
  simpa using hf 0 (Nat.succ_pos count)

/-- A number does not come again before all others have come. -/
theorem Fresh.of_lt (x : UInt64) (hlt : count < 2 ^ 64) : Fresh x count (x + 1) := by
  intro i hi hcome
  have hnat := congrArg UInt64.toNat hcome
  simp only [UInt64.toNat_add, UInt64.toNat_ofNat', UInt64.toNat_one] at hnat
  have hx := x.toNat_lt
  omega

theorem Session.Takes.of_eq (heq : t.nextRelay = s.nextRelay) (most : Nat) :
    s.Takes most t :=
  ⟨0, Nat.zero_le most, by simp [heq]⟩

theorem Session.Takes.trans (hst : s.Takes most t) (htu : t.Takes more u) :
    s.Takes (most + more) u := by
  obtain ⟨i, hi, ht⟩ := hst
  obtain ⟨j, hj, hu⟩ := htu
  refine ⟨i + j, by omega, ?_⟩
  rw [hu, ht, UInt64.ofNat_add, UInt64.add_assoc]

theorem Session.Takes.mono (hst : s.Takes most t) (hle : most ≤ more) : s.Takes more t := by
  obtain ⟨i, hi, ht⟩ := hst
  exact ⟨i, Nat.le_trans hi hle, ht⟩

theorem Fresh.mono (hf : Fresh x more next) (hle : most ≤ more) : Fresh x most next :=
  fun i hi => hf i (Nat.lt_of_lt_of_le hi hle)

/-- What is left after some numbers were taken is still fresh. -/
theorem Fresh.after (hf : Fresh x (most + count) s.nextRelay) (hst : s.Takes most t) :
    Fresh x count t.nextRelay := by
  obtain ⟨i, hi, ht⟩ := hst
  intro j hj
  rw [ht, UInt64.add_assoc, ← UInt64.ofNat_add]
  exact hf (i + j) (by omega)

/-- Every attempt takes a number, and the last one is that of the relay. -/
theorem Relay.Creates.takes {h : Host σ} {store : RelayStore} {left tried : Nat}
    {result : Except Failure Relay} (hc : Creates h store left tried s result t) :
    s.Takes (left + 1) t ∧ ∀ relay, result = .ok relay →
      relay.path = store.pathOf relay.id ∧ t.nextRelay = relay.id + 1 := by
  induction hc with
  | made hcall =>
      have hnext := nextRelay_of_onPath hcall
      refine ⟨⟨1, by omega, hnext⟩, ?_⟩
      rintro _ ⟨⟩
      exact ⟨rfl, hnext⟩
  | refused hcall _ =>
      have hnext := nextRelay_of_onPath hcall
      exact ⟨⟨1, by omega, hnext⟩, by simp⟩
  | @taken left _ s t u _ _ hcall _ _ ih =>
      have hone : s.Takes 1 (t.noted h (.relayTaken (store.pathOf s.nextRelay).display)) :=
        ⟨1, by omega, nextRelay_of_onPath hcall⟩
      exact ⟨(hone.trans ih.1).mono (by omega), ih.2⟩

end Numbers

/-! ## What takes no number -/

section Keeping

variable {h : Host σ} {s t : Session σ} {relay : Relay}

/-- A call of the host leaves the number of the next relay alone. -/
private theorem running_nextRelay (h : Host σ) (next : UInt64) :
    Running (Same fun s => s.nextRelay = next) h h where
  patience := by
    rintro s _ ⟨rfl, -⟩
    rfl
  pollOutput _ _ := Keeps.agree fun _ hs => hs
  hangUp _ := Keeps.agree fun _ hs => hs
  now := Keeps.agree fun _ hs => hs
  tell _ := Keeps.agree fun _ hs => hs
  readReport _ _ := Keeps.agree fun _ hs => hs
  wait _ _ := Keeps.agree fun _ hs => hs
  kill _ _ := Keeps.agree fun _ hs => hs
  sleep _ := Keeps.agree fun _ hs => hs
  readOutput _ _ := Keeps.agree fun _ hs => hs
  spawn _ _ := .spawn (Keeps.agree fun _ hs => hs) (Keeps.agree fun _ hs => hs)
  close _ := Keeps.agree fun _ hs => hs
  openRead _ := Keeps.agree fun _ hs => hs

theorem Runner.nextRelay_of_run {r : Runner} {argv : List Bytes} {input : InputSource}
    {result : Except Failure (Capture × Status)}
    (hrun : (r.run h argv input).on s = (result, t)) : t.nextRelay = s.nextRelay := by
  have hkept := ((running_nextRelay h s.nextRelay).run r argv input).keeps s rfl
  rw [Attempt.on_run, hrun] at hkept
  exact hkept

namespace Relay

theorem nextRelay_of_write {output : Capture} {result : Except Failure Unit}
    (hwrite : (relay.write h output).on s = (result, t)) : t.nextRelay = s.nextRelay := by
  rw [on_write] at hwrite
  split at hwrite <;> exact (congrArg (fun out => out.2.nextRelay) hwrite).symm

theorem nextRelay_of_dispose {answer : Except IoError Unit}
    (hdispose : (relay.dispose h).on s = (answer, t)) : t.nextRelay = s.nextRelay :=
  (nextRelay_of_onPath hdispose :)

theorem nextRelay_of_release {result : Except Failure Unit}
    (hrelease : (relay.release h).on s = (result, t)) : t.nextRelay = s.nextRelay := by
  rw [on_release] at hrelease
  split at hrelease <;>
    next hdispose =>
      rw [← nextRelay_of_dispose hdispose]
      exact (congrArg (fun out => out.2.nextRelay) hrelease).symm

theorem nextRelay_of_drop (hdrop : (relay.drop h).on s = ((), t)) :
    t.nextRelay = s.nextRelay := by
  rw [on_drop] at hdrop
  split at hdrop <;>
    next hdispose =>
      rw [← nextRelay_of_dispose hdispose]
      exact (congrArg (fun out => out.2.nextRelay) hdrop).symm

end Relay

end Keeping

end CommandExpr
