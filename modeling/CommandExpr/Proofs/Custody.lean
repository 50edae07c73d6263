import CommandExpr.Proofs.Agreement
import CommandExpr.Proofs.Files
import Mathlib.Data.List.Nodup

/-!
# What an evaluation has in its hands

Programs may do as they like with the files of a machine, and so may anybody
else while a program runs.  `Files.Orderly` says how far that goes: what is held
stays there and can be removed, and all that is done to an entry is in a
relation that is given, its *drift*.  Nothing is asked of the drift but that it
is reflexive and transitive; it may allow everything to one entry and nothing to
another.

`Files.Since` says what was done to the files from one state to another by whom:
some entries were made and are held, and whatever else has happened is drift.
It composes, so what is in hand during an evaluation can be followed from step
to step.

## Main results

* `Files.Since.trans` — what is in hand adds up.
* `Files.Lawful.since_create`, `Files.Since.leaves_of_removes` — a relay that is
  made is in hand, until it is removed.
* `Files.Orderly.run` — a program that is run leaves in hand what is in hand.
-/

namespace CommandExpr

variable {σ ι : Type}

/-- What may be done to an entry by others: which content they may turn into
which. -/
abbrev Drift (ι : Type) := ι → Option Bytes → Option Bytes → Prop

/-- What is held is the same, and only others have been at the files. -/
structure Files.Leaves (files : Files σ ι) (drift : Drift ι) (m m' : σ) : Prop where
  held : files.held m' = files.held m
  others : ∀ x, drift x (files.content m x) (files.content m' x)

/-- What others do to the files while a program is started, run or waited for. -/
structure Files.Orderly (files : Files σ ι) (h : Host σ) (store : RelayStore)
    (drift : Drift ι) : Prop where
  refl (x : ι) (content : Option Bytes) : drift x content content
  trans {x : ι} {a b c : Option Bytes} : drift x a b → drift x b c → drift x a c
  spawn (argv : List Bytes) (input : Option Handle) (m : σ) :
    files.Leaves drift m (h.spawn argv input m).2
  readReport (pid : Pid) (count : Nat) (m : σ) :
    files.Leaves drift m (h.readReport pid count m).2
  readOutput (pid : Pid) (count : Nat) (m : σ) :
    files.Leaves drift m (h.readOutput pid count m).2
  pollOutput (pid : Pid) (millis : Nat) (m : σ) :
    files.Leaves drift m (h.pollOutput pid millis m).2
  hangUp (pid : Pid) (m : σ) : files.Leaves drift m (h.hangUp pid m)
  wait (pid : Pid) (look : Bool) (m : σ) :
    files.Leaves drift m (h.wait pid look m).2
  kill (pid : Pid) (signal : Signal) (m : σ) :
    files.Leaves drift m (h.kill pid signal m).2
  sleep (time : Nat) (m : σ) : files.Leaves drift m (h.sleep time m)
  /-- Whatever is opened for reading, nothing is done to it. -/
  openRead (path : Path) (m : σ) : files.Same m (h.openRead path m).2
  /-- What is held can be removed. -/
  remove {path : Path} {m : σ} :
    store.Names path → files.entry path ∈ files.held m →
      (h.remove path m).1 = .ok ()

/-- From one state to another some entries were made that are still there, in
places where there was nothing; all else that was done to the files was done by
others. -/
structure Files.Since (files : Files σ ι) (drift : Drift ι) (m : σ) (own : List ι)
    (m' : σ) : Prop where
  /-- No entry was made twice. -/
  nodup : own.Nodup
  /-- None of them was held before. -/
  fresh : ∀ x ∈ own, x ∉ files.held m
  /-- All of them are held, and nothing else that was not held before. -/
  held : files.held m' = files.held m ∪ {x | x ∈ own}
  /-- There was nothing in their places when they were made. -/
  vacant : ∀ x ∈ own, drift x (files.content m x) none
  /-- To all else nothing was done but by others. -/
  others : ∀ x ∉ own, drift x (files.content m x) (files.content m' x)

namespace Files

variable {files : Files σ ι} {h : Host σ} {store : RelayStore} {drift : Drift ι}
  {m m' m'' : σ} {own more : List ι}

/-! ## Composition -/

theorem Leaves.since (hl : files.Leaves drift m m') : files.Since drift m [] m' where
  nodup := List.nodup_nil
  fresh := by simp
  held := by simp [hl.held]
  vacant := by simp
  others x _ := hl.others x

theorem Since.leaves (hs : files.Since drift m [] m') : files.Leaves drift m m' where
  held := by simpa using hs.held
  others x := hs.others x List.not_mem_nil

theorem Orderly.leaves_of_same (o : files.Orderly h store drift)
    (hsame : files.Same m m') : files.Leaves drift m m' where
  held := hsame.held
  others x := by
    rw [hsame.content]
    exact o.refl x _

theorem Orderly.since_refl (o : files.Orderly h store drift) (m : σ) :
    files.Since drift m [] m :=
  (o.leaves_of_same (Same.refl files m)).since

/-- **What was in hand and what was made after it are in hand together.** -/
theorem Since.trans (o : files.Orderly h store drift)
    (hab : files.Since drift m own m') (hbc : files.Since drift m' more m'') :
    files.Since drift m (own ++ more) m'' where
  nodup := by
    refine hab.nodup.append hbc.nodup fun x hown hmore => ?_
    refine hbc.fresh x hmore ?_
    rw [hab.held]
    exact Or.inr hown
  fresh := by
    intro x hx hheld
    rcases List.mem_append.mp hx with hown | hmore
    · exact hab.fresh x hown hheld
    · refine hbc.fresh x hmore ?_
      rw [hab.held]
      exact Or.inl hheld
  held := by
    ext x
    rw [hbc.held, hab.held]
    simp [or_assoc]
  vacant := by
    intro x hx
    by_cases hown : x ∈ own
    · exact hab.vacant x hown
    · have hmore : x ∈ more := (List.mem_append.mp hx).resolve_left hown
      exact o.trans (hab.others x hown) (hbc.vacant x hmore)
  others := by
    intro x hx
    rw [List.mem_append, not_or] at hx
    exact o.trans (hab.others x hx.1) (hbc.others x hx.2)

theorem Since.trans_leaves (o : files.Orderly h store drift)
    (hab : files.Since drift m own m') (hbc : files.Leaves drift m' m'') :
    files.Since drift m own m'' := by
  have hac := hab.trans o hbc.since
  rwa [List.append_nil] at hac

theorem Leaves.trans_since (o : files.Orderly h store drift)
    (hab : files.Leaves drift m m') (hbc : files.Since drift m' more m'') :
    files.Since drift m more m'' :=
  hab.since.trans o hbc

theorem Leaves.trans (o : files.Orderly h store drift)
    (hab : files.Leaves drift m m') (hbc : files.Leaves drift m' m'') :
    files.Leaves drift m m'' :=
  (hab.since.trans_leaves o hbc).leaves

/-- What is done to an entry in hand leaves it in hand. -/
theorem Since.of_own {x : ι} (hs : files.Since drift m own m') (hx : x ∈ own)
    (hheld : files.held m'' = files.held m')
    (hothers : ∀ y ≠ x, files.content m'' y = files.content m' y) :
    files.Since drift m own m'' where
  nodup := hs.nodup
  fresh := hs.fresh
  held := hheld.trans hs.held
  vacant := hs.vacant
  others := by
    intro y hy
    rw [hothers y (fun heq => hy (heq ▸ hx))]
    exact hs.others y hy

/-! ## Relays -/

section Relays

variable [DecidableEq ι] {relay : Relay} {s t : Session σ}

/-- A relay that is made is in hand. -/
theorem Lawful.since_create (w : files.Lawful h store)
    (o : files.Orderly h store drift) (hmakes : files.Makes store relay m m') :
    files.Since drift m [files.entry relay.path] m' where
  nodup := List.nodup_singleton _
  fresh := by
    intro x hx
    rw [List.mem_singleton.mp hx]
    exact w.not_held_of_makes hmakes
  held := by
    ext x
    simp [hmakes.held, or_comm]
  vacant := by
    intro x hx
    rw [List.mem_singleton.mp hx, hmakes.absent]
    exact o.refl _ _
  others := by
    intro x hx
    rw [hmakes.content, Function.update_of_ne (fun heq => hx (by simp [heq]))]
    exact o.refl _ _

/-- It is in hand no more when it is removed, and there is nothing left in its
place. -/
theorem Since.leaves_of_removes {x : ι} (hs : files.Since drift m [x] m')
    (hremoves : files.Removes x m' m'') : files.Leaves drift m m'' where
  held := by
    have hx := hs.fresh x (List.mem_singleton_self x)
    ext y
    rw [hremoves.held, hs.held]
    by_cases hy : y = x
    · subst hy
      simp [hx]
    · simp [hy]
  others := by
    intro y
    rw [hremoves.content]
    by_cases hy : y = x
    · subst hy
      rw [Function.update_self]
      exact hs.vacant y (List.mem_singleton_self y)
    · rw [Function.update_of_ne hy]
      exact hs.others y (by simpa using hy)

/-- A relay in hand can be removed, also after it was closed. -/
theorem Orderly.remove_closed (o : files.Orderly h store drift)
    (w : files.Lawful h store) (hnames : store.Names relay.path)
    (hs : files.Since drift m [files.entry relay.path] s.machine) :
    (h.remove relay.path (h.close relay.handle s.machine)).1 = .ok () := by
  refine o.remove hnames ?_
  rw [(w.close relay.handle s.machine).held, hs.held]
  exact Or.inr (List.mem_singleton_self _)

end Relays

/-! ## Programs -/

namespace Orderly

private theorem keeps_call {α : Type} (o : files.Orderly h store drift)
    {f : σ → α × σ} (m : σ) (own : List ι)
    (hf : ∀ m', files.Leaves drift m' (f m').2) :
    Agree (CommandExpr.Same fun s => files.Since drift m own s.machine)
      (Host.call f) (Host.call f) :=
  Keeps.agree fun s hs => hs.trans_leaves o (hf s.machine)

private theorem keeps_change (o : files.Orderly h store drift) {f : σ → σ} (m : σ)
    (own : List ι) (hf : ∀ m', files.Leaves drift m' (f m')) :
    Agree (CommandExpr.Same fun s => files.Since drift m own s.machine)
      (Host.change f) (Host.change f) :=
  Keeps.agree fun s hs => hs.trans_leaves o (hf s.machine)

variable [DecidableEq ι]

/-- All that is done to run a program leaves in hand what is in hand. -/
theorem running (o : files.Orderly h store drift) (w : files.Lawful h store) (m : σ)
    (own : List ι) :
    Running (CommandExpr.Same fun s => files.Since drift m own s.machine) h h where
  patience := by
    rintro s _ ⟨rfl, -⟩
    rfl
  pollOutput pid millis := o.keeps_call m own (o.pollOutput pid millis)
  hangUp pid := o.keeps_change m own (o.hangUp pid)
  now := o.keeps_call m own fun m' => o.leaves_of_same (w.now m')
  tell message := o.keeps_change m own fun m' => o.leaves_of_same (w.tell message m')
  readReport pid count := o.keeps_call m own (o.readReport pid count)
  wait pid look := o.keeps_call m own (o.wait pid look)
  kill pid signal := o.keeps_call m own (o.kill pid signal)
  sleep time := o.keeps_change m own (o.sleep time)
  readOutput pid count := o.keeps_call m own (o.readOutput pid count)
  spawn argv input := o.keeps_call m own (o.spawn argv input)
  close handle := o.keeps_change m own fun m' => o.leaves_of_same (w.close handle m')
  openRead path := o.keeps_call m own fun m' => o.leaves_of_same (o.openRead path m')

/-- **A program that is run leaves in hand what is in hand.** -/
theorem run (o : files.Orderly h store drift) (w : files.Lawful h store) {r : Runner}
    {argv : List Bytes}
    {input : InputSource} {s t : Session σ}
    {result : Except Failure (Capture × Status)}
    (hrun : (r.run h argv input).on s = (result, t)) :
    files.Leaves drift s.machine t.machine := by
  have hkept := ((o.running w s.machine []).run r argv input).keeps s
    (o.since_refl s.machine)
  rw [Attempt.on_run, hrun] at hkept
  exact hkept.leaves

/-- So does a notice. -/
theorem note (o : files.Orderly h store drift) (w : files.Lawful h store)
    (n : Notice) (s : Session σ) :
    files.Leaves drift s.machine (s.noted h n).machine :=
  o.leaves_of_same (w.note n s)

end Orderly

end Files

end CommandExpr
