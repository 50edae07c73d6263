import CommandExpr.Proofs.Parallel
import CommandExpr.Proofs.Vacancies

/-!
# Relays under other names

In two sessions other names are taken in the directory of the relays, and the numbers stand
elsewhere.  So the same evaluation makes its relays under other names in each, after other
numbers of attempts.  `Files.Nameless` says of a host that nobody is concerned with the name
of a relay: what is done to one comes out the same under every name, as long as the
directory has the same in both places.

Names may be too long for a host.  As the number is part of the name, this can be so for
some relays and not for others; the laws are on names that are short enough.

## Main results

* `Files.Renamed` — how the sessions stand to each other.
* `Files.Nameless.parallel` — every operation of an evaluator keeps them so.
-/

namespace CommandExpr

variable {σ ι : Type}

/-- A name of a relay that is shorter than a limit. -/
def RelayStore.Offers (store : RelayStore) (limit : Nat) (path : Path) : Prop :=
  store.Names path ∧ path.bytes.length < limit

/-- States that are `alike` differ at most in relays, in open files, and in what was logged;
and what is done to a relay does not depend on its name, if that is shorter than the
limit. -/
structure Files.Nameless (files : Files σ ι) (h : Host σ) (store : RelayStore)
    (alike : σ → σ → Prop) (limit : Nat) : Prop extends h.Steady alike where
  /-- The entries of different relays are different. -/
  entry_inj {p q : Path} :
    store.Names p → store.Names q → files.entry p = files.entry q → p = q
  now {m m' : σ} : alike m m' → alike (h.now m).2 (h.now m').2
  writeOut (bytes : Bytes) : Blind alike (h.writeOut bytes)
  /-- A program that is given no relay does not know of any, … -/
  spawn (argv : List Bytes) : Blind alike (h.spawn argv none)
  /-- … and one that is given a relay knows what it contains, and not its name. -/
  spawn_relay (argv : List Bytes) {p q : Path} {handle handle' : Handle} {m m' : σ} :
    store.Offers limit p → store.Offers limit q → alike m m' →
      files.cursor m handle = some (files.entry p, 0) →
      files.cursor m' handle' = some (files.entry q, 0) →
      files.content m (files.entry p) = files.content m' (files.entry q) →
        (h.spawn argv (some handle) m).1 = (h.spawn argv (some handle') m').1 ∧
          alike (h.spawn argv (some handle) m).2 (h.spawn argv (some handle') m').2
  /-- A taken name is refused as such, … -/
  createNew_taken {p : Path} {m : σ} :
    store.Offers limit p → files.content m (files.entry p) ≠ none →
      ∃ e, (h.createNew p m).1 = .error e ∧ (IoError.ofErrno e).kind = .alreadyExists ∧
        alike m (h.createNew p m).2
  /-- … and a free one for another reason or not at all, … -/
  createNew_vacant {p : Path} {m : σ} {e : Errno} :
    store.Offers limit p → files.content m (files.entry p) = none →
      (h.createNew p m).1 = .error e → (IoError.ofErrno e).kind ≠ .alreadyExists
  /-- … whichever free name it is. -/
  createNew_free {p q : Path} {m m' : σ} :
    store.Offers limit p → store.Offers limit q → alike m m' →
      files.content m (files.entry p) = none → files.content m' (files.entry q) = none →
        SameFailure (h.createNew p m).1 (h.createNew q m').1 ∧
          alike (h.createNew p m).2 (h.createNew q m').2
  openRead {p q : Path} {m m' : σ} :
    store.Offers limit p → store.Offers limit q → alike m m' →
      files.content m (files.entry p) = files.content m' (files.entry q) →
        SameFailure (h.openRead p m).1 (h.openRead q m').1 ∧
          alike (h.openRead p m).2 (h.openRead q m').2
  append {p q : Path} {handle handle' : Handle} {k : Nat} (bytes : Bytes) {m m' : σ} :
    store.Offers limit p → store.Offers limit q → alike m m' →
      files.cursor m handle = some (files.entry p, k) →
      files.cursor m' handle' = some (files.entry q, k) →
      files.content m (files.entry p) = files.content m' (files.entry q) →
        (h.append handle bytes m).1 = (h.append handle' bytes m').1 ∧
          alike (h.append handle bytes m).2 (h.append handle' bytes m').2 ∧
          files.content (h.append handle bytes m).2 (files.entry p)
            = files.content (h.append handle' bytes m').2 (files.entry q)
  close (handle : Handle) (m : σ) : alike m (h.close handle m)
  remove {p : Path} (m : σ) : store.Names p → alike m (h.remove p m).2

/-- Two failures of one kind. -/
def Failure.SameKind (f f' : Failure) : Prop := f.kind = f'.kind

/-- Relays that are there at the same time, with room for `n` more. -/
structure Files.Housed (files : Files σ ι) (store : RelayStore) (n : Nat)
    (relays : List Relay) (s : Session σ) : Prop where
  named : ∀ a ∈ relays, a.path = store.pathOf a.id
  hasNul : ∀ a ∈ relays, a.path.bytes.hasNul = false
  held : ∀ a ∈ relays, files.entry a.path ∈ files.held s.machine
  /-- No two of them have the same number. -/
  nodup : (relays.map Relay.id).Nodup
  roomy : files.Roomy store n s

/-- Two sessions with the same relays under other names, each with room for `n` more. -/
structure Files.Renamed (files : Files σ ι) (store : RelayStore) (alike : σ → σ → Prop)
    (n : Nat) (live : List (Relay × Relay)) (s t : Session σ) : Prop where
  alike : s.Alike alike t
  left : files.Housed store n (live.map Prod.fst) s
  right : files.Housed store n (live.map Prod.snd) t
  content : ∀ pair ∈ live, files.content s.machine (files.entry pair.1.path)
    = files.content t.machine (files.entry pair.2.path)

namespace Files

variable {files : Files σ ι} {h : Host σ} {store : RelayStore} {alike : σ → σ → Prop}
  {limit n m : Nat} {live : List (Relay × Relay)} {relays : List Relay} {a b : Relay}
  {s s' t t' u v : Session σ}

/-! ## What leaves relays alone -/

/-- Nothing new is taken by what leaves relays alone. -/
theorem Leaves.taken {x y : σ} (hl : files.Leaves (files.outside store) x y) (i : UInt64)
    (htaken : files.Taken store y i) : files.Taken store x i := by
  rw [Taken, hl.content_eq]
  exact htaken

namespace Housed

/-- What leaves relays alone leaves them where they are. -/
theorem moved (hh : files.Housed store n relays s)
    (hl : files.Leaves (files.outside store) s.machine t.machine) (hr : files.Roomy store m t) :
    files.Housed store m relays t where
  named := hh.named
  hasNul := hh.hasNul
  held a ha := by
    rw [hl.held]
    exact hh.held a ha
  nodup := hh.nodup
  roomy := hr

theorem names (hh : files.Housed store n relays s) (ha : a ∈ relays) : store.Names a.path :=
  ⟨a.id, hh.named a ha⟩

end Housed

namespace Renamed

/-- What leaves relays alone on both sides, and is alike, keeps the sessions as they stand
to each other. -/
theorem moved (hR : files.Renamed store alike n live s t) (halike : s'.Alike alike t')
    (hl : files.Leaves (files.outside store) s.machine s'.machine)
    (hl' : files.Leaves (files.outside store) t.machine t'.machine)
    (hr : files.Roomy store m s') (hr' : files.Roomy store m t') :
    files.Renamed store alike m live s' t' where
  alike := halike
  left := hR.left.moved hl hr
  right := hR.right.moved hl' hr'
  content pair hpair := by
    have hleft := hR.left.named pair.1 (List.mem_map_of_mem hpair)
    have hright := hR.right.named pair.2 (List.mem_map_of_mem hpair)
    rw [hleft, hright, ← hl.content_eq, ← hl'.content_eq, ← hleft, ← hright]
    exact hR.content pair hpair

/-- The same, if no number is taken. -/
theorem leaves (hR : files.Renamed store alike n live s t) (halike : s'.Alike alike t')
    (hl : files.Leaves (files.outside store) s.machine s'.machine)
    (hl' : files.Leaves (files.outside store) t.machine t'.machine)
    (hnext : s'.nextRelay = s.nextRelay) (hnext' : t'.nextRelay = t.nextRelay) :
    files.Renamed store alike n live s' t' :=
  hR.moved halike hl hl' (hR.left.roomy.keep hnext hl.taken)
    (hR.right.roomy.keep hnext' hl'.taken)

theorem mono (o : files.Orderly h store (files.outside store))
    (hR : files.Renamed store alike n live s t) (hle : m ≤ n) :
    files.Renamed store alike m live s t :=
  hR.moved hR.alike (o.since_refl _).leaves (o.since_refl _).leaves
    (hR.left.roomy.mono hle) (hR.right.roomy.mono hle)

end Renamed

section Relays

variable [DecidableEq ι] (nm : files.Nameless h store alike limit)
  (w : files.Lawful h store) (o : files.Orderly h store (files.outside store))

/-! ## The relays of one session -/

omit [DecidableEq ι] in
include nm in
theorem Nameless.entry_ne {i j : UInt64} (hne : i ≠ j) :
    files.entry (store.pathOf i) ≠ files.entry (store.pathOf j) := fun heq =>
  hne (RelayStore.pathOf_inj.mp
    (nm.entry_inj (store.names_pathOf i) (store.names_pathOf j) heq))

namespace Housed

omit [DecidableEq ι] in
include nm in
/-- The other relays are in other entries. -/
theorem entry_ne (hh : files.Housed store n (a :: relays) s) (hb : b ∈ relays) :
    files.entry b.path ≠ files.entry a.path := by
  rw [hh.named a List.mem_cons_self, hh.named b (List.mem_cons_of_mem _ hb)]
  refine nm.entry_ne fun heq => (List.nodup_cons.mp hh.nodup).1 ?_
  rw [← heq]
  exact List.mem_map_of_mem hb

include nm w in
/-- A relay that is made under the next name is there together with the others. -/
theorem made {handle : Handle} (hh : files.Housed store (n + 1) relays s)
    (hmakes : files.Makes store ⟨s.nextRelay, store.pathOf s.nextRelay, handle⟩
      s.machine t.machine)
    (hnext : t.nextRelay = s.nextRelay + 1) :
    files.Housed store n (⟨s.nextRelay, store.pathOf s.nextRelay, handle⟩ :: relays) t where
  named := List.forall_mem_cons.mpr ⟨rfl, hh.named⟩
  hasNul := List.forall_mem_cons.mpr ⟨hmakes.hasNul, hh.hasNul⟩
  held := by
    rw [hmakes.held]
    exact List.forall_mem_cons.mpr
      ⟨Set.mem_insert _ _, fun b hb => Set.mem_insert_of_mem _ (hh.held b hb)⟩
  nodup := by
    refine List.nodup_cons.mpr ⟨fun hmem => ?_, hh.nodup⟩
    obtain ⟨b, hb, hid⟩ := List.mem_map.mp hmem
    -- The other one is there, so its name is taken.
    refine w.exists_of_held (hh.held b hb) ?_
    rw [hh.named b hb, hid]
    exact hmakes.absent
  roomy := hh.roomy.pass hnext fun i hi => by
    by_cases hne : i = s.nextRelay
    · exact Or.inl hne
    · refine Or.inr ?_
      rwa [Taken, hmakes.content, Function.update_of_ne (nm.entry_ne hne)] at hi

include w in
/-- What is written to one of them is done to no other. -/
theorem written {x : σ} (hh : files.Housed store n (a :: relays) s)
    (hheld : files.held x = files.held s.machine)
    (hothers : ∀ y ≠ files.entry a.path, files.content x y = files.content s.machine y) :
    files.Housed store n (a :: relays) { s with machine := x } where
  named := hh.named
  hasNul := hh.hasNul
  held b hb := by
    rw [hheld]
    exact hh.held b hb
  nodup := hh.nodup
  roomy := hh.roomy.keep rfl fun i hi => by
    by_cases hi' : files.entry (store.pathOf i) = files.entry a.path
    · rw [Taken, hi']
      exact w.exists_of_held (hh.held a List.mem_cons_self)
    · rwa [Taken, hothers _ hi'] at hi

include nm in
/-- If one is removed the others stay. -/
theorem removed (hh : files.Housed store n (a :: relays) s)
    (hremoves : files.Removes (files.entry a.path) s.machine t.machine)
    (hnext : t.nextRelay = s.nextRelay) : files.Housed store n relays t where
  named b hb := hh.named b (List.mem_cons_of_mem _ hb)
  hasNul b hb := hh.hasNul b (List.mem_cons_of_mem _ hb)
  held b hb := by
    rw [hremoves.held]
    exact ⟨hh.held b (List.mem_cons_of_mem _ hb), hh.entry_ne nm hb⟩
  nodup := (List.nodup_cons.mp hh.nodup).2
  roomy := hh.roomy.keep hnext fun i hi => by
    rw [Taken, hremoves.content, Function.update_apply] at hi
    split at hi
    · exact absurd rfl hi
    · exact hi

include nm w o in
/-- A relay can be given back, and is removed. -/
theorem dispose_eq (hh : files.Housed store n (a :: relays) s) :
    ∃ t, (a.dispose h).on s = (.ok (), t) ∧ s.Alike alike t ∧ t.nextRelay = s.nextRelay ∧
      files.Removes (files.entry a.path) s.machine t.machine := by
  have hnames := hh.names List.mem_cons_self
  have hnul := hh.hasNul a List.mem_cons_self
  have hremove : (h.remove a.path (h.close a.handle s.machine)).1 = .ok () := by
    refine o.remove hnames ?_
    rw [(w.close a.handle s.machine).held]
    exact hh.held a List.mem_cons_self
  obtain ⟨t, hdispose, hremoves⟩ := w.dispose_eq hnames hnul hremove
  refine ⟨t, hdispose, ?_, Relay.nextRelay_of_dispose hdispose, hremoves⟩
  rw [Relay.on_dispose, on_onPath hnul] at hdispose
  obtain ⟨-, rfl⟩ := Prod.mk.inj hdispose
  exact nm.equivalence.trans (nm.close a.handle _) (nm.remove _ hnames)

end Housed

namespace Renamed

include nm w o in
theorem noted (hR : files.Renamed store alike n live s t) (x y : Notice) :
    files.Renamed store alike n live (s.noted h x) (t.noted h y) :=
  hR.leaves (nm.toSteady.noted hR.alike x y) (o.note w x s) (o.note w y t) rfl rfl

end Renamed

/-! ## Making relays -/

/-- From one session to the other names are passed over that are taken, up to one that is
not. -/
structure Passes (files : Files σ ι) (store : RelayStore) (alike : σ → σ → Prop) (n : Nat)
    (s u : Session σ) : Prop where
  alike : s.Alike alike u
  leaves : files.Leaves (files.outside store) s.machine u.machine
  roomy : files.Roomy store (n + 1) u
  /-- If names are not refused anyway. -/
  free : store.dir.bytes.hasNul = false → ¬files.Taken store u.machine u.nextRelay

variable (hshort : ∀ i, (store.pathOf i).bytes.length < limit)

omit [DecidableEq ι] in
include hshort in
theorem offers_pathOf (i : UInt64) : store.Offers limit (store.pathOf i) :=
  ⟨store.names_pathOf i, hshort i⟩

include nm w o hshort in
/-- A taken name is refused as such, and all stays as it was. -/
private theorem tryNext_taken (hnul : store.dir.bytes.hasNul = false)
    (htaken : files.Taken store u.machine u.nextRelay) :
    ∃ e v, Relay.tryNext h store u = (.error e, v) ∧ e.kind = .alreadyExists ∧
      u.Alike alike (v.noted h (.relayTaken (store.pathOf u.nextRelay).display)) ∧
      files.Leaves (files.outside store) u.machine
        (v.noted h (.relayTaken (store.pathOf u.nextRelay).display)).machine := by
  obtain ⟨e, hanswer, hkind, halike⟩ :=
    nm.createNew_taken (offers_pathOf hshort u.nextRelay) htaken
  rcases hcall : h.createNew (store.pathOf u.nextRelay) u.machine with ⟨answer, m⟩
  rw [hcall] at hanswer halike
  obtain rfl : answer = .error e := hanswer
  have hsame := o.leaves_of_same (w.createNew_error (store.names_pathOf _) hcall)
  have htold := o.note w (.relayTaken (store.pathOf u.nextRelay).display) ⟨u.nextRelay + 1, m⟩
  refine ⟨.ofErrno e, ⟨u.nextRelay + 1, m⟩, ?_, hkind,
    nm.equivalence.trans halike (nm.tell _ _), hsame.trans o htold⟩
  rw [Relay.tryNext, on_onPath ((store.hasNul_pathOf _).trans hnul), hcall]
  rfl

include nm w o hshort in
private theorem passes_of_creates {left tried : Nat} {result : Except Failure Relay}
    (hroomy : files.Roomy store (n + 1) s) (hleft : left + 1 = Relay.maxAttempts)
    (hc : Relay.Creates h store left tried s result t) :
    ∃ left' tried' u, Relay.Creates h store left' tried' u result t ∧
      files.Passes store alike n s u := by
  have hstart : s.Alike alike s ∧ files.Leaves (files.outside store) s.machine s.machine :=
    ⟨nm.equivalence.refl _, (o.since_refl _).leaves⟩
  cases hnul : store.dir.bytes.hasNul with
  | true =>
      exact ⟨left, tried, s, hc, hstart.1, hstart.2, hroomy,
        fun hfree => absurd (hnul.symm.trans hfree) (by decide)⟩
  | false =>
      obtain ⟨ahead, hlength, ha⟩ := hroomy
      obtain ⟨left', tried', u, hc', ⟨halike, hleaves⟩, hfree, ahead', hle, ha'⟩ :=
        hc.skips (P := fun u => s.Alike alike u ∧
          files.Leaves (files.outside store) s.machine u.machine) (fun u hu htaken => by
            obtain ⟨e, v, htry, hkind, halike, hleaves⟩ := tryNext_taken nm w o hshort hnul htaken
            exact ⟨e, v, htry, hkind,
              ⟨nm.equivalence.trans hu.1 halike, hu.2.trans o hleaves⟩, hleaves.taken⟩)
          hstart (by omega) ha
      exact ⟨left', tried', u, hc', halike, hleaves, ⟨ahead', by omega, ha'⟩, fun _ => hfree⟩

omit [DecidableEq ι] in
include nm hshort in
/-- Free names fare alike. -/
private theorem tryNext_free
    (hfree : store.dir.bytes.hasNul = false → ¬files.Taken store u.machine u.nextRelay)
    (hfree' : store.dir.bytes.hasNul = false → ¬files.Taken store v.machine v.nextRelay)
    (halike : u.Alike alike v) :
    SameFailure (Relay.tryNext h store u).1 (Relay.tryNext h store v).1 ∧
      (Relay.tryNext h store u).2.Alike alike (Relay.tryNext h store v).2 ∧
      ∀ e, (Relay.tryNext h store u).1 = .error e → e.kind ≠ .alreadyExists := by
  have hleft := store.hasNul_pathOf u.nextRelay
  have hright := store.hasNul_pathOf v.nextRelay
  cases hnul : store.dir.bytes.hasNul with
  | true =>
      rw [Relay.tryNext, Relay.tryNext, on_onPath_refused _ _ (hleft.trans hnul),
        on_onPath_refused _ _ (hright.trans hnul)]
      refine ⟨.error _, halike, ?_⟩
      rintro _ ⟨⟩
      decide
  | false =>
      have hvacant := not_not.mp (hfree hnul)
      obtain ⟨hsame, hafter⟩ := nm.createNew_free (offers_pathOf hshort u.nextRelay)
        (offers_pathOf hshort v.nextRelay) halike hvacant (not_not.mp (hfree' hnul))
      rw [Relay.tryNext, Relay.tryNext, on_onPath (hleft.trans hnul),
        on_onPath (hright.trans hnul)]
      refine ⟨hsame.mapError _, hafter, fun e he => ?_⟩
      rcases hanswer : (h.createNew (store.pathOf u.nextRelay) u.machine).1 with errno | handle
      · simp only [hanswer, Except.mapError] at he
        rw [← Except.error.inj he]
        exact nm.createNew_vacant (offers_pathOf hshort u.nextRelay) hvacant hanswer
      · simp only [hanswer, Except.mapError] at he
        cases he

omit [DecidableEq ι] in
include nm in
/-- Sessions in which the other relays contain the same, and one pair as well. -/
private theorem renamed_cons
    (hold : ∀ pair ∈ live, files.content s.machine (files.entry pair.1.path)
      = files.content t.machine (files.entry pair.2.path))
    (halike : s'.Alike alike t')
    (hleft : files.Housed store n (a :: live.map Prod.fst) s')
    (hright : files.Housed store n (b :: live.map Prod.snd) t')
    (hothers : ∀ y ≠ files.entry a.path, files.content s'.machine y = files.content s.machine y)
    (hothers' : ∀ y ≠ files.entry b.path, files.content t'.machine y = files.content t.machine y)
    (hpair : files.content s'.machine (files.entry a.path)
      = files.content t'.machine (files.entry b.path)) :
    files.Renamed store alike n ((a, b) :: live) s' t' where
  alike := halike
  left := hleft
  right := hright
  content := by
    refine List.forall_mem_cons.mpr ⟨hpair, fun pair hlive => ?_⟩
    rw [hothers _ (hleft.entry_ne nm (List.mem_map_of_mem hlive)),
      hothers' _ (hright.entry_ne nm (List.mem_map_of_mem hlive))]
    exact hold pair hlive

namespace Renamed

include w in
/-- Nothing is made or removed by a write. -/
private theorem held_of_append {handle : Handle} {x : ι} {m₁ m₂ : σ} {bytes : Bytes}
    {answer : Except Errno Unit} (hcursor : files.cursor m₁ handle = some (x, 0))
    (hthere : files.content m₁ x ≠ none) (happend : h.append handle bytes m₁ = (answer, m₂)) :
    files.held m₂ = files.held m₁ := by
  cases answer with
  | error e => exact (w.append_error hcursor happend).2
  | ok _ =>
      obtain ⟨old, hold⟩ := Option.ne_none_iff_exists'.mp hthere
      exact (w.append_ok hcursor hold (Nat.zero_le _) happend).2

include nm w o hshort in
/-- A relay is written on both sides or on none. -/
private theorem write (hR : files.Renamed store alike n ((a, b) :: live) s t) {x y : σ}
    (hmakes : files.Makes store a x s.machine) (hmakes' : files.Makes store b y t.machine)
    {output output' : Capture} (hbytes : output.bytes = output'.bytes) :
    Matches Failure.SameKind (fun _ _ => True) ((a.write h output).on s).1
        ((b.write h output').on t).1 ∧
      files.Renamed store alike n ((a, b) :: live) ((a.write h output).on s).2
        ((b.write h output').on t).2 := by
  have hleft := hR.left.named a List.mem_cons_self
  have hright := hR.right.named b List.mem_cons_self
  obtain ⟨hpair, hold⟩ := List.forall_mem_cons.mp hR.content
  obtain ⟨hanswer, halike, hown⟩ := nm.append output'.bytes
    (hleft ▸ offers_pathOf hshort a.id) (hright ▸ offers_pathOf hshort b.id) hR.alike
    hmakes.cursor hmakes'.cursor hpair
  rw [Relay.on_write, Relay.on_write, hbytes]
  rcases hs : h.append a.handle output'.bytes s.machine with ⟨answer, m⟩
  rcases ht : h.append b.handle output'.bytes t.machine with ⟨answer', m'⟩
  rw [hs, ht] at hanswer halike hown
  obtain rfl : answer = answer' := hanswer
  have hthere := w.exists_of_held (hR.left.held a List.mem_cons_self)
  have hthere' := w.exists_of_held (hR.right.held b List.mem_cons_self)
  have hothers := w.others_of_append hmakes hs
  have hothers' := w.others_of_append hmakes' ht
  have hwritten : files.Renamed store alike n ((a, b) :: live) { s with machine := m }
      { t with machine := m' } :=
    renamed_cons nm hold halike
      (hR.left.written w (held_of_append w hmakes.cursor hthere hs) hothers)
      (hR.right.written w (held_of_append w hmakes'.cursor hthere' ht) hothers')
      hothers hothers' hown
  cases answer with
  | error e => exact ⟨.error rfl, hwritten⟩
  | ok _ => exact ⟨.ok trivial, hwritten.noted nm w o _ _⟩

include nm w in
/-- Under the next names a relay is made on both sides, … -/
private theorem made (hR : files.Renamed store alike (n + 1) live u v) {handle handle' : Handle}
    (htry : Relay.tryNext h store u = (.ok handle, s))
    (htry' : Relay.tryNext h store v = (.ok handle', t)) (halike : s.Alike alike t)
    (x y : Notice) :
    files.Renamed store alike n
      ((⟨u.nextRelay, store.pathOf u.nextRelay, handle⟩,
        ⟨v.nextRelay, store.pathOf v.nextRelay, handle'⟩) :: live)
      (s.noted h x) (t.noted h y) := by
  have hmakes := w.makes_of_call x htry
  have hmakes' := w.makes_of_call y htry'
  have hnext := Relay.nextRelay_tryNext h store u
  have hnext' := Relay.nextRelay_tryNext h store v
  rw [htry] at hnext
  rw [htry'] at hnext'
  refine renamed_cons nm hR.content (nm.toSteady.noted halike x y)
    (hR.left.made nm w hmakes hnext) (hR.right.made nm w hmakes' hnext')
    (fun z hz => ?_) (fun z hz => ?_) ?_
  · rw [hmakes.content, Function.update_of_ne hz]
  · rw [hmakes'.content, Function.update_of_ne hz]
  · rw [hmakes.content, hmakes'.content, Function.update_self, Function.update_self]

include w o in
/-- … or on none. -/
private theorem refused (hR : files.Renamed store alike (n + 1) live u v) {e e' : IoError}
    (htry : Relay.tryNext h store u = (.error e, s))
    (htry' : Relay.tryNext h store v = (.error e', t)) (halike : s.Alike alike t) :
    files.Renamed store alike n live s t := by
  have hl := o.leaves_of_same (w.same_of_call htry)
  have hl' := o.leaves_of_same (w.same_of_call htry')
  have hnext := Relay.nextRelay_tryNext h store u
  have hnext' := Relay.nextRelay_tryNext h store v
  rw [htry] at hnext
  rw [htry'] at hnext'
  exact hR.moved halike hl hl' (hR.left.roomy.pass hnext fun i hi => Or.inr (hl.taken i hi))
    (hR.right.roomy.pass hnext' fun i hi => Or.inr (hl'.taken i hi))

include nm w o hshort in
/-- **A relay is made on both sides or on none**, under whatever names. -/
theorem create (hR : files.Renamed store alike (n + 1) live s t) :
    Relay.Handed h Failure.SameKind (files.Renamed store alike n) live
      ((Relay.create h store).on s) ((Relay.create h store).on t) := by
  rcases hs : (Relay.create h store).on s with ⟨made, s'⟩
  rcases ht : (Relay.create h store).on t with ⟨made', t'⟩
  obtain ⟨_, _, u, hcu, hu⟩ :=
    passes_of_creates nm w o hshort hR.left.roomy rfl (Relay.create_eq_iff.mp hs)
  obtain ⟨_, _, v, hcv, hv⟩ :=
    passes_of_creates nm w o hshort hR.right.roomy rfl (Relay.create_eq_iff.mp ht)
  have huv : u.Alike alike v := nm.equivalence.trans (nm.equivalence.symm hu.alike)
    (nm.equivalence.trans hR.alike hv.alike)
  have hR' := hR.moved huv hu.leaves hv.leaves hu.roomy hv.roomy
  obtain ⟨hsame, halike, hlast⟩ := tryNext_free nm hshort hu.free hv.free huv
  obtain ⟨-, -, hlast'⟩ := tryNext_free nm hshort hv.free hu.free (nm.equivalence.symm huv)
  rcases hcu.of_last hlast with ⟨handle, u', htry, rfl, rfl⟩ | ⟨e, f, htry, rfl, hkind⟩ <;>
    rcases hcv.of_last hlast' with
      ⟨handle', v', htry', rfl, rfl⟩ | ⟨e', f', htry', rfl, hkind'⟩ <;>
    rw [htry, htry'] at hsame halike
  · have hmade := hR'.made nm w htry htry' halike
      (.relayCreated (store.pathOf u.nextRelay).display)
      (.relayCreated (store.pathOf v.nextRelay).display)
    exact .ok fun hbytes => hmade.write nm w o hshort (w.makes_of_call _ htry)
      (w.makes_of_call _ htry') hbytes
  · cases hsame
  · cases hsame
  · exact .error (hkind.trans hkind'.symm) (hR'.refused w o htry htry' halike)

end Renamed

/-! ## Giving relays back -/

namespace Renamed

include nm w o in
/-- A pair of relays can be given back, … -/
private theorem dispose (hR : files.Renamed store alike n ((a, b) :: live) s t) :
    ∃ u v, (a.dispose h).on s = (.ok (), u) ∧ (b.dispose h).on t = (.ok (), v) ∧
      files.Renamed store alike n live u v := by
  obtain ⟨u, hdispose, hsu, hnext, hremoves⟩ := hR.left.dispose_eq nm w o
  obtain ⟨v, hdispose', htv, hnext', hremoves'⟩ := hR.right.dispose_eq nm w o
  obtain ⟨-, hold⟩ := List.forall_mem_cons.mp hR.content
  refine ⟨u, v, hdispose, hdispose', ?_, hR.left.removed nm hremoves hnext,
    hR.right.removed nm hremoves' hnext', fun pair hlive => ?_⟩
  · exact nm.equivalence.trans (nm.equivalence.symm hsu) (nm.equivalence.trans hR.alike htv)
  · rw [hremoves.content, hremoves'.content,
      Function.update_of_ne (hR.left.entry_ne nm (List.mem_map_of_mem hlive)),
      Function.update_of_ne (hR.right.entry_ne nm (List.mem_map_of_mem hlive))]
    exact hold pair hlive

include nm w o in
theorem release (hR : files.Renamed store alike n ((a, b) :: live) s t) :
    Matches Failure.SameKind (fun _ _ => True) ((a.release h).on s).1 ((b.release h).on t).1 ∧
      files.Renamed store alike n live ((a.release h).on s).2 ((b.release h).on t).2 := by
  obtain ⟨u, v, hdispose, hdispose', hR'⟩ := hR.dispose nm w o
  rw [Relay.on_release, Relay.on_release, hdispose, hdispose']
  exact ⟨.ok trivial, hR'.noted nm w o _ _⟩

include nm w o in
/-- … and given up. -/
theorem drop (hR : files.Renamed store alike n ((a, b) :: live) s t) :
    files.Renamed store alike n live ((a.drop h).on s).2 ((b.drop h).on t).2 := by
  obtain ⟨u, v, hdispose, hdispose', hR'⟩ := hR.dispose nm w o
  rw [Relay.on_drop, Relay.on_drop, hdispose, hdispose']
  exact hR'.noted nm w o _ _

end Renamed

/-! ## Running programs -/

namespace Renamed

variable {r : Runner} (hclock : r.deadline = none ∨ Blind alike h.now)

include nm hclock in
omit [DecidableEq ι] in
/-- A process is launched alike if it is made so, and its input is closed. -/
private theorem launched {handle? handle?' : Option Handle} {argv : List Bytes}
    (hspawn : (h.spawn argv handle? s.machine).1 = (h.spawn argv handle?' t.machine).1 ∧
      alike (h.spawn argv handle? s.machine).2 (h.spawn argv handle?' t.machine).2)
    (program : String) :
    Matches Failure.SameKind (SameRun r.cap r.cap)
        ((r.launch h program argv handle?).on s).1 ((r.launch h program argv handle?').on t).1 ∧
      Session.Alike alike ((r.launch h program argv handle?).on s).2
        ((r.launch h program argv handle?').on t).2 := by
  have hclosed : ∀ (handle? : Option Handle) (next : UInt64) (m : σ),
      alike m (Runner.closing h handle? ⟨next, m⟩).machine := by
    intro handle? next m
    cases handle? with
    | none => exact nm.equivalence.refl _
    | some handle => exact nm.close handle _
  obtain ⟨cap, deadline⟩ := r
  obtain ⟨hresult, halike⟩ :
      Matches Eq (SameRun cap cap)
        ((Runner.launch h ⟨cap, deadline⟩ program argv handle?).on s).1
        ((Runner.launch h ⟨cap, deadline⟩ program argv handle?').on t).1 ∧ _ :=
    nm.toSteady.launch hclock hspawn.1 (nm.equivalence.trans
      (nm.equivalence.symm (hclosed _ _ _)) (nm.equivalence.trans hspawn.2 (hclosed _ _ _)))
  refine ⟨hresult.mono (fun f _ hf => ?_) fun _ _ hrun => hrun, halike⟩
  exact congrArg Failure.kind hf

include nm w hshort hclock in
private theorem opened (hR : files.Renamed store alike n live s t) {input input' : InputSource}
    (hin : input.Paired live input') :
    Runner.Opened h r r Failure.SameKind alike ((Runner.openInput h input).on s)
      ((Runner.openInput h input').on t) := by
  cases hin with
  | inherited =>
      exact .ok fun program argv => launched nm hclock (nm.spawn argv _ _ hR.alike) program
  | @relay a b hlive =>
      have ha := hR.left.named a (List.mem_map_of_mem hlive)
      have hb := hR.right.named b (List.mem_map_of_mem hlive)
      have hoffers := ha ▸ offers_pathOf hshort a.id
      have hoffers' := hb ▸ offers_pathOf hshort b.id
      have hcontent := hR.content _ hlive
      obtain ⟨hsame, halike⟩ := nm.openRead hoffers hoffers' hR.alike hcontent
      rw [Runner.on_openInput_relay, Runner.on_openInput_relay, Relay.on_openForRead,
        Relay.on_openForRead, on_onPath (hR.left.hasNul a (List.mem_map_of_mem hlive)),
        on_onPath (hR.right.hasNul b (List.mem_map_of_mem hlive))]
      rcases hs : h.openRead a.path s.machine with ⟨answer, m⟩
      rcases ht : h.openRead b.path t.machine with ⟨answer', m'⟩
      rw [hs, ht] at hsame halike
      cases hsame with
      | error e => exact .error rfl halike
      | ok handle handle' =>
          obtain ⟨hleft, hcursor⟩ := w.openRead_ok hoffers.1 hs
          obtain ⟨hright, hcursor'⟩ := w.openRead_ok hoffers'.1 ht
          rw [← hleft.content, ← hright.content] at hcontent
          exact .ok fun program argv => launched nm hclock
            (nm.spawn_relay argv hoffers hoffers' halike hcursor hcursor' hcontent) program

include nm w o hshort hclock in
/-- **A program does the same on both sides.** -/
theorem run (hR : files.Renamed store alike n live s t) (argv : List Bytes)
    {input input' : InputSource} (hin : input.Paired live input') :
    Matches Failure.SameKind (SameRun r.cap r.cap) ((r.run h argv input).on s).1
        ((r.run h argv input').on t).1 ∧
      files.Renamed store alike n live ((r.run h argv input).on s).2
        ((r.run h argv input').on t).2 := by
  obtain ⟨hresult, halike⟩ :=
    (hR.opened nm w hshort hclock hin).run (fun f => (rfl : f.kind = f.kind)) hR.alike argv
  exact ⟨hresult, hR.leaves halike (o.run w rfl) (o.run w rfl) (Runner.nextRelay_of_run rfl)
    (Runner.nextRelay_of_run rfl)⟩

end Renamed

include nm w o hshort in
/-- **Every operation of an evaluator keeps the sessions as they stand to each other.** -/
theorem Nameless.parallel {r : Runner} (hclock : r.deadline = none ∨ Blind alike h.now) :
    Parallel files h store r r Failure.SameKind (files.Renamed store alike) where
  refl _ := rfl
  kind hf := hf
  mono hle hR := hR.mono o hle
  noted x y hR := hR.noted nm w o x y
  content hR hlive := hR.content _ hlive
  run argv _ _ hR hin := hR.run nm w o hshort hclock argv hin
  create hR := hR.create nm w o hshort
  release hR := hR.release nm w o
  drop hR := hR.drop nm w o

end Relays

end Files

end CommandExpr
