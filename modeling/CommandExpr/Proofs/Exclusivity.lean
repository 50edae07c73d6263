import CommandExpr.Proofs.Processes
import CommandExpr.Proofs.SharedSandbox

/-!
# No relay gets in the way of another

Processes number their relays without knowing of each other, so the same names come
up again and again.  Still every relay that is live has a file to itself, in which is
what was written through it and nothing else.

Nothing but this is the invariant (`Volume.Intact`).  It is kept because a file is
made only where there is none, so not in the place of a relay that is live; because
a relay is written through a handle, which no one else has; and because the process
that removes a relay has no use for its name any more.

A step of a relay has one of four effects (`Volume.Effect`), and all that is proved of
steps is proved of these.

## Main results

* `Volume.Lawful.effect_of_moves` — what a step of a relay amounts to.
* `Volume.Intact.step`, `Volume.Lawful.intact` — every step keeps the relays apart,
  and so does every number of steps.
* `Volume.Lawful.exclusive` — what that means for the relays of many processes.
-/

namespace CommandExpr

variable {σ π ι : Type} {v : Volume σ π ι} {W W' : World σ π} {x : ι}

namespace Volume

/-- Relays have files to themselves, in which is what was written. -/
structure Intact (v : Volume σ π ι) (W : World σ π) : Prop where
  nodup : (W.live.map v.entryOf).Nodup
  sound : ∀ l ∈ W.live, v.Sound W.machine l

/-- The effect of a step on the relays and their files.  The entry is that of the relay
whose step it is. -/
inductive Effect (v : Volume σ π ι) (W : World σ π) (x : ι) (W' : World σ π) : Prop
  /-- Nothing is done to files, and to no handle that is in use. -/
  | quiet (hlive : W'.live = W.live)
      (hcontent : v.content W'.machine = v.content W.machine)
      (hcursor : ∀ k, v.cursor W.machine k ≠ none →
        v.cursor W'.machine k = v.cursor W.machine k)
  /-- A relay is made where there was nothing. -/
  | made {l : Live π} (hlive : W'.live = l ::ₘ W.live) (hentry : v.entryOf l = x)
      (habsent : v.content W.machine x = none) (hsound : v.Sound W'.machine l)
      (hcontent : ∀ y ≠ x, v.content W'.machine y = v.content W.machine y)
      (hcursor : ∀ k, v.cursor W.machine k ≠ none →
        v.cursor W'.machine k = v.cursor W.machine k)
  /-- A relay is written … -/
  | wrote {l l' : Live π} {rest : Multiset (Live π)} (hlive : W.live = l ::ₘ rest)
      (hlive' : W'.live = l' ::ₘ rest) (hentry : v.entryOf l = x)
      (hentry' : v.entryOf l' = x) (hsound : v.Sound W'.machine l')
      (htouches : v.Touches x l.handle W.machine W'.machine)
  /-- … or given back. -/
  | gone {l : Live π} {rest : Multiset (Live π)} (hlive : W.live = l ::ₘ rest)
      (hlive' : W'.live = rest) (hentry : v.entryOf l = x)
      (htouches : v.Touches x l.handle W.machine W'.machine)

/-! ## What the effects keep -/

section Effects

variable {l l' : Live π} {rest : Multiset (Live π)} {m : σ}

/-- The handle of a relay is in use. -/
private theorem Sound.cursor_ne_none (hl : v.Sound m l) : v.cursor m l.handle ≠ none := by
  rw [hl.cursor]
  exact Option.some_ne_none _

/-- The other relays of a world are apart from the one, … -/
private theorem Intact.nodup_rest (hW : v.Intact W) (hlive : W.live = l ::ₘ rest) :
    v.entryOf l ∉ rest.map v.entryOf ∧ (rest.map v.entryOf).Nodup := by
  have hnodup := hW.nodup
  rwa [hlive, Multiset.map_cons, Multiset.nodup_cons] at hnodup

/-- … and what is done to that one does nothing to them. -/
private theorem Intact.sound_rest (hW : v.Intact W) (hlive : W.live = l ::ₘ rest)
    (htouches : v.Touches (v.entryOf l) l.handle W.machine m) (hl' : l' ∈ rest) :
    v.Sound m l' := by
  have hne : v.entryOf l' ≠ v.entryOf l := fun heq =>
    (hW.nodup_rest hlive).1 (heq ▸ Multiset.mem_map_of_mem _ hl')
  have hsound : v.Sound W.machine l' := hW.sound l' (hlive ▸ Multiset.mem_cons_of_mem hl')
  have hl : v.Sound W.machine l := hW.sound l (hlive ▸ Multiset.mem_cons_self l rest)
  exact hsound.frame (htouches.content _ hne) (htouches.cursor _ (hsound.handle_ne hl hne))

/-- Whatever the effect, the relays stay apart. -/
theorem Effect.intact (he : v.Effect W x W') (hW : v.Intact W) : v.Intact W' := by
  cases he with
  | quiet hlive hcontent hcursor =>
      refine ⟨hlive ▸ hW.nodup, fun l hl => ?_⟩
      have hsound := hW.sound l (hlive ▸ hl)
      exact hsound.frame (congrFun hcontent _) (hcursor _ hsound.cursor_ne_none)
  | made hlive hentry habsent hnew hcontent hcursor =>
      have hother : ∀ l' ∈ W.live, v.entryOf l' ≠ x := by
        rintro l' hl' rfl
        rw [(hW.sound l' hl').content] at habsent
        cases habsent
      constructor
      · rw [hlive, Multiset.map_cons, Multiset.nodup_cons, hentry]
        refine ⟨fun hmem => ?_, hW.nodup⟩
        obtain ⟨l', hl', heq⟩ := Multiset.mem_map.mp hmem
        exact hother l' hl' heq
      · rw [hlive, Multiset.forall_mem_cons]
        refine ⟨hnew, fun l' hl' => ?_⟩
        have hsound := hW.sound l' hl'
        exact hsound.frame (hcontent _ (hother l' hl')) (hcursor _ hsound.cursor_ne_none)
  | wrote hlive hlive' hentry hentry' hsound htouches =>
      subst hentry
      constructor
      · rw [hlive', Multiset.map_cons, Multiset.nodup_cons, hentry']
        exact hW.nodup_rest hlive
      · rw [hlive', Multiset.forall_mem_cons]
        exact ⟨hsound, fun l' hl' => hW.sound_rest hlive htouches hl'⟩
  | gone hlive hlive' hentry htouches =>
      subst hentry hlive'
      exact ⟨(hW.nodup_rest hlive).2, fun l' hl' => hW.sound_rest hlive htouches hl'⟩

/-- Whatever the effect, all other files are left alone, and so is the relay's own if
it was made by others. -/
theorem Effect.apart (he : v.Effect W x W') :
    (∀ y ≠ x, v.content W'.machine y = v.content W.machine y) ∧
      (v.content W.machine x ≠ none → (∀ l ∈ W.live, v.entryOf l ≠ x) →
        v.content W'.machine x = v.content W.machine x) := by
  cases he with
  | quiet _ hcontent _ =>
      exact ⟨fun y _ => congrFun hcontent y, fun _ _ => congrFun hcontent x⟩
  | made _ _ habsent _ hcontent _ =>
      exact ⟨hcontent, fun hthere => absurd habsent hthere⟩
  | @wrote l _ rest hlive _ hentry _ _ htouches =>
      exact ⟨htouches.content, fun _ hother =>
        absurd hentry (hother l (hlive ▸ Multiset.mem_cons_self l rest))⟩
  | @gone l rest hlive _ hentry htouches =>
      exact ⟨htouches.content, fun _ hother =>
        absurd hentry (hother l (hlive ▸ Multiset.mem_cons_self l rest))⟩

end Effects

/-! ## Every step has such an effect -/

variable [DecidableEq π] {h : π → Host σ}

/-- A handle that was free is none of those in use. -/
private theorem cursor_of_update {m m' : σ} {k : π × Handle} {place : Option (ι × Nat)}
    (hfree : v.cursor m k = none)
    (hcursor : v.cursor m' = Function.update (v.cursor m) k place) :
    ∀ k', v.cursor m k' ≠ none → v.cursor m' k' = v.cursor m k' := by
  intro k' hk'
  have hne : k' ≠ k := fun heq => hk' (heq ▸ hfree)
  rw [hcursor, Function.update_of_ne hne]

variable [DecidableEq ι]

/-- A write through a relay, of as much as was taken of it. -/
private theorem Lawful.sound_write (law : v.Lawful h) {l : Live π} {output : Capture}
    {result : Except Failure Unit} {t : Session σ} (hl : v.Sound W.machine l)
    (hrun : (l.relay.write (h l.owner) output).on (W.session l.owner) = (result, t)) :
    ∃ part, part <+: output.bytes ∧ (result = .ok () → part = output.bytes) ∧
      v.Touches (v.entryOf l) l.handle W.machine t.machine ∧
        v.Sound t.machine { l with written := l.written ++ [part] } := by
  obtain ⟨part, hpart, hall, hcontent, hcursor⟩ := law.write hl hrun
  have hflatten : (l.written ++ [part]).flatten = l.written.flatten ++ part := by simp
  refine ⟨part, hpart, hall, .of_update hcontent hcursor, hl.hasNul, ?_, ?_⟩
  · rw [hflatten, hcontent]
    exact Function.update_self ..
  · rw [hflatten, hcursor]
    exact Function.update_self ..

/-- **A step of a relay has one of four effects.** -/
theorem Lawful.effect_of_moves (law : v.Lawful h) (hW : v.Intact W)
    (hmove : Moves v h W (some x) W') : v.Effect W x W' := by
  cases hmove with
  | took hrun =>
      obtain ⟨rfl, rfl⟩ := Prod.mk.inj hrun
      exact .quiet rfl rfl fun _ _ => rfl
  | made _ hrun =>
      obtain ⟨hnul, habsent, hfree, hcontent, hcursor⟩ := law.made hrun
      exact .made rfl rfl habsent
        ⟨hnul, (congrFun hcontent _).trans (Function.update_self ..),
          (congrFun hcursor _).trans (Function.update_self ..)⟩
        (fun y hy => (congrFun hcontent y).trans (Function.update_of_ne hy ..))
        (cursor_of_update hfree hcursor)
  | missed _ hrun =>
      have hsame := law.missed hrun
      exact .quiet rfl hsame.content fun k _ => congrFun hsame.cursor k
  | @wrote l rest _ _ hlive hrun =>
      have hl := hW.sound l (hlive ▸ Multiset.mem_cons_self l rest)
      obtain ⟨part, -, hall, htouches, hsound⟩ := law.sound_write hl hrun
      rw [hall rfl] at hsound
      exact .wrote hlive rfl rfl rfl hsound htouches
  | @broke l rest output _ _ place hlive hrun hplace =>
      have hl := hW.sound l (hlive ▸ Multiset.mem_cons_self l rest)
      obtain ⟨part, hpart, -, htouches, hsound⟩ := law.sound_write hl hrun
      -- the handle stands behind what was taken, so its place tells how much that was
      have hlength : l.written.flatten.length + part.length = place := by
        have hcursor := hsound.cursor
        rw [show Live.handle { l with written := l.written ++ [part] } = l.handle from rfl,
          hplace] at hcursor
        simpa using (Prod.mk.inj (Option.some.inj hcursor)).2.symm
      have htake : output.bytes.take (place - l.written.flatten.length) = part := by
        rw [← hlength, Nat.add_sub_cancel_left]
        exact (List.prefix_iff_eq_take.mp hpart).symm
      rw [htake]
      exact .wrote hlive rfl rfl rfl hsound htouches
  | @opened l _ _ hlive hrun =>
      rcases law.openForRead (hW.sound l hlive) hrun with
        ⟨handle, -, hfree, hcontent, hcursor⟩ | ⟨_, _, -, -, hsame, -⟩
      · exact .quiet rfl hcontent (cursor_of_update hfree hcursor)
      · exact .quiet rfl hsame.content fun k _ => congrFun hsame.cursor k
  | released hlive hrun => exact .gone hlive rfl rfl (law.release hrun)
  | dropped hlive hrun => exact .gone hlive rfl rfl (law.drop hrun)

/-! ## Every number of steps -/

/-- **Every step keeps the relays apart.** -/
theorem Intact.step {y : Option ι} (law : v.Lawful h) (hW : v.Intact W)
    (hmove : Moves v h W y W') : v.Intact W' := by
  cases y with
  | some x => exact (law.effect_of_moves hW hmove).intact hW
  | none =>
      cases hmove with
      | others hsame =>
          refine ⟨hW.nodup, fun l hl => ?_⟩
          exact (hW.sound l hl).frame (hsame l hl).1 (hsame l hl).2

/-- **So does every number of steps**, from when there was no relay. -/
theorem Lawful.intact {W₀ : World σ π} (law : v.Lawful h) (hstart : W₀.live = 0)
    (hreach : Reaches v h W₀ W) : v.Intact W := by
  induction hreach with
  | refl =>
      constructor
      · rw [hstart]
        exact Multiset.nodup_zero
      · rw [hstart]
        exact fun l hl => absurd hl (Multiset.notMem_zero l)
  | tail _ hstep ih =>
      obtain ⟨_, hmove⟩ := hstep
      exact ih.step law hmove

omit [DecidableEq ι] in
/-- What is found in a relay's file, and what comes of opening it. -/
structure Keeps (v : Volume σ π ι) (h : π → Host σ) (W : World σ π) (l : Live π) :
    Prop where
  /-- The file is there, and contains what was written in the order in which it was. -/
  content : v.content W.machine (v.entryOf l) = some l.written.flatten
  /-- It is opened at its start, if the system does not refuse to open a file that is
  there. -/
  opens : ∃ result t, (l.relay.openForRead (h l.owner)).on (W.session l.owner) = (result, t) ∧
    ((∃ handle, result = .ok handle ∧
        v.ahead t.machine (l.owner, handle) = some l.written.flatten) ∨
      ∃ f errno, result = .error f ∧ errno ≠ .notFound ∧
        (h l.owner).openRead l.relay.path W.machine = (.error errno, t.machine))

theorem Lawful.keeps (law : v.Lawful h) (hW : v.Intact W) {l : Live π} (hl : l ∈ W.live) :
    v.Keeps h W l where
  content := (hW.sound l hl).content
  opens := by
    rcases hrun : (l.relay.openForRead (h l.owner)).on (W.session l.owner) with ⟨result, t⟩
    refine ⟨result, t, rfl, ?_⟩
    rcases law.openForRead (hW.sound l hl) hrun with
      ⟨handle, hok, -, hcontent, hcursor⟩ | ⟨f, errno, herror, hfound, -, hcall⟩
    · refine Or.inl ⟨handle, hok, ?_⟩
      have hthere : v.content t.machine (v.entryOf l) = some l.written.flatten :=
        (congrFun hcontent _).trans (hW.sound l hl).content
      rw [ahead, hcursor, Function.update_self]
      simp [hthere]
    · exact Or.inr ⟨f, errno, herror, hfound, hcall⟩

/-- **Relays are exclusive.**  Of any number of processes, with their relays in any
directories, whose steps come in any order, with anything that others do in between to
files that are no relays: no two relays that are live have the same file; the file of
each is there, and contains what was written through it, and that is what is read when
it is opened; and no step of a relay does anything to the file of another, or to one
that was made by others. -/
theorem Lawful.exclusive {W₀ : World σ π} (law : v.Lawful h) (hstart : W₀.live = 0)
    (hreach : Reaches v h W₀ W) :
    (W.live.map v.entryOf).Nodup ∧ (∀ l ∈ W.live, v.Keeps h W l) ∧
      ∀ x W', Moves v h W (some x) W' →
        (∀ y ≠ x, v.content W'.machine y = v.content W.machine y) ∧
          (v.content W.machine x ≠ none → (∀ l ∈ W.live, v.entryOf l ≠ x) →
            v.content W'.machine x = v.content W.machine x) := by
  have hW := law.intact hstart hreach
  exact ⟨hW.nodup, fun l hl => law.keeps hW hl,
    fun x W' hmove => (law.effect_of_moves hW hmove).apart⟩

end Volume

/-! ## A sample -/

namespace SharedSandbox.Sample

open Sandbox.Sample (oracle store)

/-- Two processes, of which the first has taken a number. -/
def taken : World (State Bool) Bool where
  machine := ⟨fun _ => none, fun _ => Sandbox.initial fun _ => none⟩
  next p := if p then 0 else 1
  pending := {(false, store, 0)}
  live := 0

/-- The relay of the second, which was quicker. -/
def quick : Relay := ⟨0, store.pathOf 0, 0⟩

/-- The session of the second after its relay was made, … -/
def made : Session (State Bool) :=
  ((Relay.create (host oracle true) store).on (taken.session true)).2

/-- … and that of the first after it has missed the name. -/
def missed : Session (State Bool) :=
  ((Relay.onPath (store.pathOf 0) (host oracle false).createNew).on
    ((taken.left true made).session false)).2

/-- The world after that. -/
def behind : World (State Bool) Bool :=
  { (taken.left true made).left false missed with pending := 0, live := {⟨true, quick, []⟩} }

theorem reaches_behind : Reaches volume (host oracle) taken behind := by
  have hcreate : (Relay.create (host oracle true) store).on (taken.session true)
      = (.ok quick, made) := Prod.ext (by decide +kernel) rfl
  have hmiss : (Relay.onPath (store.pathOf 0) (host oracle false).createNew).on
      ((taken.left true made).session false) = (.error (.ofErrno .alreadyExists), missed) :=
    Prod.ext (by decide +kernel) rfl
  exact ((lawful oracle).reaches_create hcreate).tail ⟨_, .missed rfl hmiss⟩

/-- The relay of the first process, which got the next name. -/
def slow : Relay := ⟨1, store.pathOf 1, 0⟩

/-- The session of the first process after its relay was made, … -/
def caught : Session (State Bool) :=
  ((Relay.create (host oracle false) store).on (behind.session false)).2

/-- … and after it was written. -/
def wrote : Session (State Bool) :=
  ((slow.write (host oracle false) Sandbox.Sample.output).on
    ((behind.left false caught).session false)).2

end SharedSandbox.Sample

open SharedSandbox SharedSandbox.Sample Sandbox.Sample in
/-- The next name is free for the first process, and it writes through its relay: there
are two relays then, with different files, and each with what was written through it. -/
theorem Volume.Lawful.exclusive_sample :
    ∃ W, Reaches volume (host oracle) taken W ∧
      W.live = {⟨false, slow, [output.bytes]⟩, ⟨true, quick, []⟩} ∧
        (W.live.map volume.entryOf).Nodup ∧ ∀ l ∈ W.live, volume.Keeps (host oracle) W l := by
  have hcreate : (Relay.create (host oracle false) store).on (behind.session false)
      = (.ok slow, caught) := Prod.ext (by decide +kernel) rfl
  have hwrite : (slow.write (host oracle false) output).on
      ((behind.left false caught).session false) = (.ok (), wrote) :=
    Prod.ext (by decide +kernel) rfl
  have hcaught := (lawful oracle).reaches_create hcreate
  have hlive : Live.new false (.ok slow : Except Failure Relay) + behind.live
      = ⟨false, slow, []⟩ ::ₘ {⟨true, quick, []⟩} := Multiset.singleton_add _ _
  have hwrote := Moves.wrote (v := volume) (h := host oracle)
    (W := { behind.left false caught with
      live := Live.new false (.ok slow : Except Failure Relay) + behind.live }) hlive hwrite
  have hreach := (reaches_behind.trans hcaught).tail ⟨_, hwrote⟩
  have hexclusive := Volume.Lawful.exclusive (lawful oracle) rfl hreach
  exact ⟨_, hreach, rfl, hexclusive.1, hexclusive.2.1⟩

end CommandExpr
