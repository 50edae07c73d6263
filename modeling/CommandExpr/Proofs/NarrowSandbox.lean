import CommandExpr.Proofs.Renaming
import CommandExpr.Proofs.Sandbox

/-!
# A machine that refuses long paths

The machine of the sandbox with one thing more that operating systems have: a limit on the
length of paths.  A file with a longer one cannot be made.

Its programs do what an oracle says that ignores the relays.  Then nobody is concerned with
the names of relays, as far as these are shorter than the limit.

## Main results

* `Sandbox.nameless` — relays that are short enough fare alike under all names.
-/

namespace CommandExpr.Sandbox

variable {oracle : Oracle} {store : RelayStore} {limit : Nat} {m m' : State}

/-- The calls of the machine; a path has to be shorter than the limit. -/
def narrow (oracle : Oracle) (limit : Nat) : Host State :=
  { host oracle with
    createNew := fun path m =>
      if limit ≤ path.bytes.length then (.error .nameTooLong, m)
      else (host oracle).createNew path m }

theorem lawful_narrow (oracle : Oracle) (limit : Nat) (store : RelayStore) :
    files.Lawful (narrow oracle limit) store :=
  { lawful oracle store with
    createNew_ok := fun hnames hcall => by
      simp only [narrow] at hcall
      split at hcall
      · cases congrArg Prod.fst hcall
      · exact (lawful oracle store).createNew_ok hnames hcall
    createNew_error := fun hnames hcall => by
      simp only [narrow] at hcall
      split at hcall
      · obtain ⟨-, rfl⟩ := Prod.mk.inj hcall
        exact Files.Same.refl _ _
      · exact (lawful oracle store).createNew_error hnames hcall }

theorem orderly_narrow {drift : Drift Path} (o : files.Orderly (host oracle) store drift)
    (limit : Nat) : files.Orderly (narrow oracle limit) store drift :=
  { o with }

theorem nameless (ho : Oracle.Ignores oracle store) (limit : Nat) :
    files.Nameless (narrow oracle limit) store (State.Resembles store) limit where
  equivalence := State.Resembles.equivalence store
  patience _ := rfl
  readReport _ count m m' hm :=
    ⟨by simp only [narrow, host, hm.report], hm.files, by simp only [narrow, host, hm.report],
      hm.output, hm.code⟩
  readOutput _ count m m' hm :=
    ⟨by simp only [narrow, host, hm.output], hm.files, hm.report,
      by simp only [narrow, host, hm.output], hm.code⟩
  pollOutput _ _ _ _ hm := ⟨rfl, hm⟩
  wait _ _ m m' hm := ⟨by simp only [narrow, host, hm.code], hm⟩
  kill _ _ _ _ hm := ⟨rfl, hm⟩
  hangUp _ _ _ hm := hm
  sleep _ _ _ hm := hm
  tell _ m := (State.Resembles.equivalence store).refl m
  entry_inj _ _ heq := heq
  now hm := hm
  writeOut _ _ _ hm := ⟨rfl, hm.files, hm.report, hm.output, hm.code⟩
  spawn argv m m' hm := ⟨rfl, hm.start ho argv rfl⟩
  spawn_relay argv _ _ _ _ _ _ _ _ hm hcursor hcursor' hcontent :=
    ⟨rfl, hm.start_relay ho argv hcursor hcursor' hcontent⟩
  createNew_taken {p m} hoffers htaken := by
    obtain ⟨entry, hentry⟩ : ∃ entry, m.files p = some entry :=
      Option.ne_none_iff_exists'.mp fun hnone => htaken (Option.map_eq_none_iff.mpr hnone)
    have hcall : (narrow oracle limit).createNew p m = (.error .alreadyExists, m) := by
      simp only [narrow, host, if_neg (Nat.not_le.mpr hoffers.2), hentry]
    rw [hcall]
    exact ⟨.alreadyExists, rfl, by decide +kernel, (State.Resembles.equivalence store).refl m⟩
  createNew_vacant {p m e} hoffers hfree herror := by
    have hnone : m.files p = none := Option.map_eq_none_iff.mp hfree
    simp only [narrow, host, if_neg (Nat.not_le.mpr hoffers.2), hnone] at herror
    cases herror
  createNew_free {p q m m'} hp hq hm hfree hfree' := by
    have hnone : m.files p = none := Option.map_eq_none_iff.mp hfree
    have hnone' : m'.files q = none := Option.map_eq_none_iff.mp hfree'
    simp only [narrow, host, if_neg (Nat.not_le.mpr hp.2), if_neg (Nat.not_le.mpr hq.2), hnone,
      hnone']
    have hset := hm.setting hp.1 hq.1 (some ⟨[], true⟩) (some ⟨[], true⟩)
    exact ⟨.ok _ _, hset.files, hset.report, hset.output, hset.code⟩
  openRead _ _ hm hcontent := hm.openRead oracle hcontent
  append bytes _ _ hp hq hm hcursor hcursor' hcontent :=
    hm.append oracle bytes hp.1 hq.1 hcursor hcursor' hcontent
  close _ m := ⟨fun _ _ => rfl, rfl, rfl, rfl⟩
  remove _ hp := State.Resembles.remove oracle hp

/-- The files are the same if they contain the same and the same ones are held. -/
theorem files_eq_of_leaves (hl : files.Leaves (fun _ a b => a = b) m m') :
    m.files = m'.files := by
  funext path
  have hcontent : m.contents path = m'.contents path := hl.others path
  have hheld : (∃ bytes, m'.files path = some ⟨bytes, true⟩) ↔
      ∃ bytes, m.files path = some ⟨bytes, true⟩ := Set.ext_iff.mp hl.held path
  rcases files_of_contents hcontent with ⟨hs, ht⟩ | ⟨⟨bytes, own⟩, ⟨bytes', own'⟩, hs, ht, hbytes⟩
  · rw [hs, ht]
  · obtain rfl : bytes = bytes' := hbytes
    rw [hs, ht] at hheld ⊢
    cases own <;> cases own' <;> simp_all

/-! ## Machines on which names are taken -/

/-- A machine on which the names of some relays are taken, and a number for the next. -/
def taking (store : RelayStore) (taken : List UInt64) (next : UInt64) : Session State :=
  ⟨next, initial fun path => if path ∈ taken.map store.pathOf then some [] else none⟩

theorem taken_taking {taken : List UInt64} {next i : UInt64}
    (htaken : files.Taken store (taking store taken next).machine i) : i ∈ taken := by
  by_contra hfree
  have hpath : store.pathOf i ∉ taken.map store.pathOf := fun hmem => by
    obtain ⟨j, hj, heq⟩ := List.mem_map.mp hmem
    exact hfree (RelayStore.pathOf_inj.mp heq ▸ hj)
  refine htaken ?_
  change ((if store.pathOf i ∈ taken.map store.pathOf then some [] else none).map
    (⟨·, false⟩)).map Entry.bytes = none
  rw [if_neg hpath]
  rfl

/-- Nothing else is different. -/
theorem resembles_taking (store : RelayStore) (taken taken' : List UInt64)
    (next next' : UInt64) :
    (taking store taken next).machine.Resembles store (taking store taken' next').machine where
  files path hpath := by
    have hnone : ∀ taken : List UInt64, path ∉ taken.map store.pathOf := fun taken hmem => by
      obtain ⟨i, -, rfl⟩ := List.mem_map.mp hmem
      exact hpath (store.names_pathOf i)
    simp only [taking, initial, if_neg (hnone _)]
  report := rfl
  output := rfl
  code := rfl

namespace Sample

/-- The longest path of a file, and the byte that ends it. -/
def pathMax : Nat := 4096

/-- A directory in which the names of relays are short enough up to the tenth one. -/
def deep : RelayStore := ⟨⟨Path.dot :: (List.replicate 2042 [Bytes.slash, Path.dot]).flatten⟩⟩

/-- An evaluator with its relays there. -/
def deepEvaluator : Evaluator :=
  .ofConfiguration { captureCap := 10, relayDir := deep.dir }

/-- A letter goes through a relay. -/
def relaying : Expression := .binary .pipe (say "a") (call "cat")

end Sample

end CommandExpr.Sandbox
