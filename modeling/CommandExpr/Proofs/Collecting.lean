import CommandExpr.Proofs.Outlook

/-!
# Collecting the children of a set

The children of a set are waited for in order.  A child may be *live*, so that a
wait will tell of its end, or *vanished*: somebody else has waited for the process,
and the host knows of no such child any more.  The round ends at the first
vanished child, and the ones behind it are not waited for at all.

So the ends that are collected are those of the live children in front of the
first vanished one.  These are all that there are just when no live child stands
behind a vanished one.

## Main definitions

* `Host.AttendsApart`, `ChildSet.Foretold` — what waits for children will say
* `ChildSet.IsLive`, `ChildSet.IsVanished` — children whose end no wait has seen
* `ChildSet.CollectsAll` — all ends are collected that can be

## Main results

* `ChildSet.on_reapAll` — where the round ends.
* `ChildSet.reapAll_collects_iff` — when all ends are collected.
-/

namespace CommandExpr

variable {σ : Type}

/-- Waits for a process come out as its outlook says, and say nothing about any other
process. -/
structure Host.AttendsApart (h : Host σ) (o : Pid → Outlook σ) : Prop where
  attends (pid : Pid) : h.Attends pid (o pid)
  apart {pid other : Pid} (look : Bool) (m : σ) : other ≠ pid →
    (o pid).Onward m (h.wait other look m).2

namespace ChildSet

variable {h : Host σ} {o : Pid → Outlook σ} {fate : Pid → Option Status}

/-- What a wait for a process comes to: its end, or that there is no such child. -/
def answerOf (fate : Option Status) : Except Errno Status :=
  fate.elim (.error .noChild) .ok

/-- A wait for the child will come to its fate, after at most so many that say
nothing for good. -/
def Foretold (o : Pid → Outlook σ) (fate : Pid → Option Status) (m : σ) (c : Child) : Prop :=
  (∃ n, (o c.pid).left m = some n) ∧ ∀ v, (o c.pid).ends m v → v = answerOf (fate c.pid)

/-- No wait has seen the end of the child, and one would. -/
def IsLive (fate : Pid → Option Status) (c : Child) : Prop :=
  c.status = none ∧ fate c.pid ≠ none

/-- No wait has seen the end of the child, and none will. -/
def IsVanished (fate : Pid → Option Status) (c : Child) : Prop :=
  c.status = none ∧ fate c.pid = none

/-- The end that is news. -/
def news (fate : Pid → Option Status) (c : Child) : Option Status :=
  if c.status = none then fate c.pid else none

/-- The child after it was waited for. -/
def collected (fate : Pid → Option Status) (c : Child) : Child :=
  { c with status := c.status.or (fate c.pid) }

theorem not_isLive_collected (c : Child) : ¬IsLive fate (collected fate c) := by
  rintro ⟨hnone, hfate⟩
  exact hfate (Option.or_eq_none_iff.mp hnone).2

theorem Foretold.onward {m m' : σ} {c : Child} (hc : Foretold o fate m c)
    (hm : (o c.pid).Onward m m') : Foretold o fate m' c := by
  obtain ⟨⟨n, hn⟩, hends⟩ := hc
  obtain ⟨⟨k, -, hk⟩, hsame⟩ := hm n hn
  exact ⟨⟨k, hk⟩, fun v hv => hends v (hsame v hv)⟩

/-- Waiting for one child leaves what waits for another process will say. -/
theorem onward_childWait (ha : h.AttendsApart o) {c : Child} {pid : Pid} (hne : c.pid ≠ pid)
    (s : Session σ) : (o pid).Onward s.machine ((c.wait h).on s).2.machine := by
  have hkeeps : Keeps (fun t => (o pid).Onward s.machine t.machine) (c.wait h) := by
    refine Agree.keeps (Agree.childWait ?_ (Keeps.agree ?_))
    · rintro t _ ⟨rfl, -⟩
      rfl
    · intro t ht
      exact ht.trans (ha.apart false t.machine hne)
  exact hkeeps s (.refl _ _)

section Round

variable {c c' : Child} {rest rest' : ChildSet} {status : Status} {s s₁ t : Session σ}
  {result : Except Failure (List Status)}

/-- A child whose end is known is passed over. -/
theorem on_reapAll_known (hc : c.status = some status)
    (hrest : (reapAll h rest).on s = ((result, rest'), t)) :
    (reapAll h (c :: rest)).on s = ((result, c :: rest'), t) := by
  have hreaped : c.isReaped = true := by simp [Child.isReaped, hc]
  simp only [reapAll, hreaped, if_true]
  rw [Action.on_bind_of _ hrest]
  rfl

/-- The end of a live child is collected, and the round goes on. -/
theorem on_reapAll_live (hc : c.status = none)
    (hwait : (c.wait h).on s = ((.ok status, c'), s₁))
    (hrest : (reapAll h rest).on (s₁.noted h (.reaped c'.program c'.pid status))
      = ((result, rest'), t)) :
    (reapAll h (c :: rest)).on s = ((result.map (status :: ·), c' :: rest'), t) := by
  have hreaped : c.isReaped = false := by simp [Child.isReaped, hc]
  simp only [reapAll, hreaped, Bool.false_eq_true, if_false]
  rw [Action.on_bind_of _ hwait]
  simp only
  rw [Action.on_bind_of _ (Action.on_note h _ s₁), Action.on_bind_of _ hrest]
  rfl

/-- A vanished child ends the round. -/
theorem on_reapAll_vanished (hc : c.status = none)
    (hwait : (c.wait h).on s = ((.error .noChild, c'), s₁)) :
    (reapAll h (c :: rest)).on s = ((.ok [], c' :: rest), s₁) := by
  have hreaped : c.isReaped = false := by simp [Child.isReaped, hc]
  simp only [reapAll, hreaped, Bool.false_eq_true, if_false]
  rw [Action.on_bind_of _ hwait]
  simp only [if_true]
  rfl

end Round

/-- **The round ends at the first vanished child.**  The children in front of it are
waited for, and those behind it are left as they are. -/
theorem on_reapAll (ha : h.AttendsApart o) :
    ∀ (children : ChildSet) (s : Session σ),
      (∀ c ∈ children, c.status = none → Foretold o fate s.machine c) →
      children.Pairwise (fun c d => c.status = none → d.status = none → c.pid ≠ d.pid) →
        ∃ first rest t, children = first ++ rest
          ∧ (reapAll h children).on s
              = ((.ok (first.filterMap (news fate)), first.map (collected fate) ++ rest), t)
          ∧ (∀ c ∈ first, ¬IsVanished fate c)
          ∧ (∀ c ∈ rest.head?, IsVanished fate c) := by
  intro children
  induction children with
  | nil =>
      intro s _ _
      exact ⟨[], [], s, rfl, rfl, List.forall_mem_nil _, by simp⟩
  | cons c children ih =>
      intro s hforetold hapart
      obtain ⟨hforetold₁, hforetolds⟩ := List.forall_mem_cons.mp hforetold
      obtain ⟨hapart₁, haparts⟩ := List.pairwise_cons.mp hapart
      cases hc : c.status with
      | some status =>
          obtain ⟨first, rest, t, rfl, hrun, hfirst, hrest⟩ := ih s hforetolds haparts
          have hsame : collected fate c = c := by rw [collected, hc, Option.some_or, ← hc]
          have hold : news fate c = none := by simp [news, hc]
          have hknown : ¬IsVanished fate c := by
            rintro ⟨hnone, -⟩
            rw [hc] at hnone
            cases hnone
          refine ⟨c :: first, rest, t, rfl, ?_, List.forall_mem_cons.mpr ⟨hknown, hfirst⟩, hrest⟩
          rw [List.map_cons, hsame, List.filterMap_cons_none hold]
          exact on_reapAll_known hc hrun
      | none =>
          obtain ⟨⟨n, hn⟩, hends⟩ := hforetold₁ hc
          rcases hwait : (c.wait h).on s with ⟨⟨result, c₁⟩, s₁⟩
          obtain ⟨rfl, hend⟩ := (ha.attends c.pid).childWait hn hc hwait
          obtain rfl := hends result hend
          cases hfate : fate c.pid with
          | none =>
              have hsame : ({ c with status := none } : Child) = c := by rw [← hc]
              rw [hfate, answerOf, Option.elim_none, Except.toOption, hsame] at hwait
              refine ⟨[], c :: children, s₁, rfl, on_reapAll_vanished hc hwait,
                List.forall_mem_nil _, ?_⟩
              intro d hd
              obtain rfl := Option.some.inj hd
              exact ⟨hc, hfate⟩
          | some status =>
              rw [hfate, answerOf, Option.elim_some, Except.toOption] at hwait
              -- what the others will say is as it was
              have honward : ∀ d ∈ children, d.status = none →
                  Foretold o fate (s₁.noted h (.reaped c.program c.pid status)).machine d := by
                intro d hd hdnone
                have hwaited := onward_childWait ha (hapart₁ d hd hc hdnone) s
                rw [hwait] at hwaited
                exact (hforetolds d hd hdnone).onward
                  (hwaited.trans ((ha.attends d.pid).noted s₁ _))
              obtain ⟨first, rest, t, rfl, hrun, hfirst, hrest⟩ := ih _ honward haparts
              have hnew : news fate c = some status := by rw [news, if_pos hc, hfate]
              have hended : collected fate c = { c with status := some status } := by
                rw [collected, hc, hfate, Option.none_or]
              have hlive : ¬IsVanished fate c := by
                rintro ⟨-, hnone⟩
                rw [hfate] at hnone
                cases hnone
              refine ⟨c :: first, rest, t, rfl, ?_, List.forall_mem_cons.mpr ⟨hlive, hfirst⟩, hrest⟩
              rw [List.map_cons, hended, List.filterMap_cons_some hnew]
              exact on_reapAll_live hc hwait hrun

/-- All ends are collected that can be: no child is live any more, and the ends that
are given back are those that no wait had seen before, in order. -/
def CollectsAll (fate : Pid → Option Status) (children : ChildSet) (statuses : List Status)
    (afterwards : ChildSet) : Prop :=
  (∀ c ∈ afterwards, ¬IsLive fate c) ∧ statuses = children.filterMap (news fate)

theorem news_eq_none {c : Child} (hc : ¬IsLive fate c) : news fate c = none := by
  unfold news
  split
  · next hnone => exact not_not.mp fun hfate => hc ⟨hnone, hfate⟩
  · rfl

/-- What is left of a round is all that there was to do, if nothing live is left. -/
theorem collectsAll_iff {first rest : ChildSet} :
    CollectsAll fate (first ++ rest) (first.filterMap (news fate))
        (first.map (collected fate) ++ rest) ↔ ∀ c ∈ rest, ¬IsLive fate c := by
  constructor
  · rintro ⟨hlive, -⟩ c hc
    exact hlive c (List.mem_append_right _ hc)
  · intro hrest
    refine ⟨?_, ?_⟩
    · rw [List.forall_mem_append]
      refine ⟨?_, hrest⟩
      intro c hc
      obtain ⟨c, -, rfl⟩ := List.mem_map.mp hc
      exact not_isLive_collected c
    · have hnone : rest.filterMap (news fate) = [] :=
        List.filterMap_eq_nil_iff.mpr fun c hc => news_eq_none (hrest c hc)
      rw [List.filterMap_append, hnone, List.append_nil]

/-- Behind the first vanished child there is a live one just when some live child
stands behind some vanished one. -/
theorem pairwise_iff {first rest : ChildSet} (hfirst : ∀ c ∈ first, ¬IsVanished fate c)
    (hrest : ∀ c ∈ rest.head?, IsVanished fate c) :
    (first ++ rest).Pairwise (fun c d => IsVanished fate c → ¬IsLive fate d)
      ↔ ∀ c ∈ rest, ¬IsLive fate c := by
  have hlate : rest.Pairwise (fun c d => IsVanished fate c → ¬IsLive fate d)
      ↔ ∀ c ∈ rest, ¬IsLive fate c := by
    cases rest with
    | nil => simp
    | cons c rest =>
        have hgone := hrest c rfl
        have hdead : ¬IsLive fate c := fun hlive => hlive.2 hgone.2
        rw [List.pairwise_cons, List.forall_mem_cons]
        constructor
        · rintro ⟨hall, -⟩
          exact ⟨hdead, fun d hd => hall d hd hgone⟩
        · rintro ⟨-, hall⟩
          exact ⟨fun d hd _ => hall d hd,
            List.pairwise_of_forall_mem_list fun _ _ d hd _ => hall d hd⟩
  rw [List.pairwise_append, hlate]
  constructor
  · exact fun ⟨_, hall, _⟩ => hall
  · intro hall
    exact ⟨List.pairwise_of_forall_mem_list fun c hc d _ hgone => absurd hgone (hfirst c hc),
      hall, fun c hc d _ hgone => absurd hgone (hfirst c hc)⟩

/-- **When all ends are collected.**  If a wait for any child of a set comes to its end,
or to there being no such child, after as many interruptions and changes of state as
may be, then collecting succeeds, in front of the first vanished child.  So all ends
are collected that can be, just when no live child stands behind a vanished one. -/
theorem reapAll_collects_iff (ha : h.AttendsApart o) (children : ChildSet) (s : Session σ)
    (hforetold : ∀ c ∈ children, c.status = none → Foretold o fate s.machine c)
    (hapart : children.Pairwise fun c d => c.status = none → d.status = none → c.pid ≠ d.pid) :
    ∃ first rest t, children = first ++ rest
      ∧ (reapAll h children).on s
          = ((.ok (first.filterMap (news fate)), first.map (collected fate) ++ rest), t)
      ∧ (∀ c ∈ first, ¬IsVanished fate c) ∧ (∀ c ∈ rest.head?, IsVanished fate c)
      ∧ (CollectsAll fate children (first.filterMap (news fate))
            (first.map (collected fate) ++ rest)
          ↔ children.Pairwise fun c d => IsVanished fate c → ¬IsLive fate d) := by
  obtain ⟨first, rest, t, rfl, hrun, hfirst, hrest⟩ := on_reapAll ha children s hforetold hapart
  refine ⟨first, rest, t, rfl, hrun, hfirst, hrest, ?_⟩
  rw [collectsAll_iff, pairwise_iff hfirst hrest]

end ChildSet

/-! ## A child that is gone -/

namespace Rehearsal

theorem attendsApart (script : List (Except Errno WaitReport)) :
    (host script).AttendsApart outlook where
  attends pid := attends script pid
  apart _ _ hne := onward_promising hne _

/-- The second of three processes was waited for by somebody else, and the third one
is stopped before it ends. -/
def stolen : Session Rehearsal where
  nextRelay := 0
  machine := ⟨fun pid =>
    if pid = 1 then [.error .interrupted, .ok (.exited 1)]
    else if pid = 2 then [.error .interrupted, .error .noChild]
    else [.ok (.stopped .stop), .ok (.exited 3)], [], [], 0⟩

/-- How they end. -/
def fate (pid : Pid) : Option Status :=
  if pid = 1 then some (.exited 1) else if pid = 2 then none else some (.exited 3)

/-- Their children, and one that is known to have ended. -/
def children : ChildSet :=
  [⟨7, "old", some (.exited 0)⟩, ⟨1, "first", none⟩, ⟨2, "second", none⟩, ⟨3, "third", none⟩]

theorem foretold_stolen : ∀ c ∈ children, c.status = none →
    ChildSet.Foretold outlook fate stolen.machine c := by
  have hends : ∀ {pid : Pid} {v : Except Errno Status},
      promise (stolen.machine.answers pid) = some (1, v) →
        ∀ w, (outlook pid).ends stolen.machine w → w = v := by
    rintro pid v hv w ⟨n, hn⟩
    exact (Prod.mk.inj (Option.some.inj (hn.symm.trans hv))).2
  intro c hc hnone
  simp only [children, List.mem_cons, List.not_mem_nil, or_false] at hc
  rcases hc with rfl | rfl | rfl | rfl
  · cases hnone
  · exact ⟨⟨1, rfl⟩, hends rfl⟩
  · exact ⟨⟨1, rfl⟩, hends rfl⟩
  · exact ⟨⟨1, rfl⟩, hends rfl⟩

theorem apart_children :
    children.Pairwise fun c d => c.status = none → d.status = none → c.pid ≠ d.pid := by
  decide

end Rehearsal

namespace ChildSet

open Rehearsal in
theorem reapAll_collects_sample :
    ((host []).AttendsApart outlook
        ∧ (∀ c ∈ children, c.status = none → Foretold outlook fate stolen.machine c)
        ∧ children.Pairwise fun c d => c.status = none → d.status = none → c.pid ≠ d.pid)
      ∧ ∃ first rest t, children = first ++ rest
        ∧ (reapAll (host []) children).on stolen
            = ((.ok (first.filterMap (news fate)), first.map (collected fate) ++ rest), t)
        ∧ (∀ c ∈ first, ¬IsVanished fate c) ∧ (∀ c ∈ rest.head?, IsVanished fate c)
        ∧ (CollectsAll fate children (first.filterMap (news fate))
              (first.map (collected fate) ++ rest)
            ↔ children.Pairwise fun c d => IsVanished fate c → ¬IsLive fate d) :=
  ⟨⟨attendsApart [], foretold_stolen, apart_children⟩,
    reapAll_collects_iff (attendsApart []) children stolen foretold_stolen apart_children⟩

open Rehearsal in
/-- **The third child is left alone**, although a wait for it would tell of its end. -/
theorem reapAll_leaves_live :
    (∃ t, (reapAll (host []) children).on stolen
        = ((.ok [.exited 1], [⟨7, "old", some (.exited 0)⟩, ⟨1, "first", some (.exited 1)⟩,
            ⟨2, "second", none⟩, ⟨3, "third", none⟩]), t))
      ∧ Foretold outlook fate stolen.machine ⟨3, "third", none⟩
      ∧ IsLive fate ⟨3, "third", none⟩
      ∧ ¬CollectsAll fate children [.exited 1]
          [⟨7, "old", some (.exited 0)⟩, ⟨1, "first", some (.exited 1)⟩,
            ⟨2, "second", none⟩, ⟨3, "third", none⟩] := by
  have hlive : IsLive fate ⟨3, "third", none⟩ := ⟨rfl, by decide⟩
  refine ⟨⟨_, rfl⟩, ?_, hlive, ?_⟩
  · exact foretold_stolen _ (by simp [children]) rfl
  · rintro ⟨hall, -⟩
    exact hall _ (by simp) hlive

end ChildSet

end CommandExpr
