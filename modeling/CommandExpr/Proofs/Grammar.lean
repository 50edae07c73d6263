import CommandExpr.Words

/-!
# The grammar of word lists

A word list is read by splitting it at its operators, the loosest first.  Here
is what it means without any splitting.  `Grammar` says which compositions can
be written down without parentheses, and `Words.Spells` which word lists spell
a composition, whatever its grouping.  The two have nothing to do with each
other, and reading is both of them together (`Words.parse_eq_ok_iff`).

Reading splits off the first piece and folds the others onto it.  The proofs
look at the last piece instead: what stands before the last operator of a kind
is read at the same level, and what stands after it one level tighter
(`Words.parseLevel_append`).  So they are inductions on the composition, and
not on the list of pieces.

## Main definitions

* `Grammar` — the compositions of given operators, each grouped to the left
* `Expression.IsNormal` — the same, by the roots of the two sides
* `Words.Spells` — the word lists of a composition

## Main results

* `grammar_precedence_iff` — both descriptions of a grouping agree.
* `Words.parse_eq_ok_iff` — a word list is read as the one composition with the
  right grouping that it spells.
-/

namespace CommandExpr

/-! ## Grouping -/

/-- A composition by the given operators, of which the first binds loosest and
each groups to the left. -/
inductive Grammar : List Operator → Expression → Prop where
  /-- Without operators there is only a command. -/
  | command (c : Command) : Grammar [] (.simple c)
  /-- The loosest operator need not be there. -/
  | tighter {op : Operator} {ops : List Operator} {e : Expression}
      (he : Grammar ops e) : Grammar (op :: ops) e
  /-- It may be there again in its left side, but not in its right one. -/
  | join {op : Operator} {ops : List Operator} {left right : Expression}
      (hl : Grammar (op :: ops) left) (hr : Grammar ops right) :
      Grammar (op :: ops) (.binary op left right)

/-- How loosely an operator binds. -/
def Operator.looseness : Operator → Nat
  | pipe => 1
  | concat => 2
  | sequence => 3

theorem Operator.looseness_inj {o p : Operator} (h : o.looseness = p.looseness) :
    o = p := by
  cases o <;> cases p <;> first | rfl | cases h

theorem Operator.looseness_pos (op : Operator) : 0 < op.looseness := by
  cases op <;> decide

namespace Expression

/-- How loosely a composition is held together at its root. -/
def looseness : Expression → Nat
  | simple _ => 0
  | binary op _ _ => op.looseness

/-- Every operator has on its left side a root that binds at least as tightly as
itself, and on its right side one that binds more tightly. -/
def IsNormal : Expression → Prop
  | simple _ => True
  | binary op left right =>
      left.looseness ≤ op.looseness ∧ right.looseness < op.looseness
        ∧ left.IsNormal ∧ right.IsNormal

instance decidableIsNormal : (e : Expression) → Decidable e.IsNormal
  | simple _ => isTrue trivial
  | binary op left right =>
      have := decidableIsNormal left
      have := decidableIsNormal right
      inferInstanceAs (Decidable (left.looseness ≤ op.looseness
        ∧ right.looseness < op.looseness ∧ left.IsNormal ∧ right.IsNormal))

end Expression

/-- An operator binds as loosely as there are levels from it on. -/
private theorem looseness_of_suffix {op : Operator} {ops : List Operator}
    (hsuffix : op :: ops <:+ Words.precedence) :
    op.looseness = ops.length + 1 := by
  simp only [Words.precedence, List.suffix_cons_iff, List.suffix_nil,
    List.cons.injEq] at hsuffix
  rcases hsuffix with ⟨rfl, rfl⟩ | ⟨rfl, rfl⟩ | ⟨rfl, rfl⟩ | hnil
  · rfl
  · rfl
  · rfl
  · cases hnil

private theorem suffix_of_cons {op : Operator} {ops : List Operator}
    (hsuffix : op :: ops <:+ Words.precedence) : ops <:+ Words.precedence :=
  (List.suffix_cons op ops).trans hsuffix

theorem Grammar.isNormal {ops : List Operator} {e : Expression}
    (hg : Grammar ops e) (hsuffix : ops <:+ Words.precedence) :
    e.IsNormal ∧ e.looseness ≤ ops.length := by
  induction hg with
  | command c => exact ⟨trivial, Nat.le_refl 0⟩
  | tighter _ ih =>
      obtain ⟨hnormal, hloose⟩ := ih (suffix_of_cons hsuffix)
      exact ⟨hnormal, Nat.le_succ_of_le hloose⟩
  | @join op ops left right _ _ ihl ihr =>
      have hop := looseness_of_suffix hsuffix
      obtain ⟨hleft, hll⟩ := ihl hsuffix
      obtain ⟨hright, hlr⟩ := ihr (suffix_of_cons hsuffix)
      rw [List.length_cons] at hll
      refine ⟨⟨by omega, by omega, hleft, hright⟩, ?_⟩
      rw [List.length_cons]
      exact Nat.le_of_eq hop

private theorem grammar_simple (c : Command) (ops : List Operator) :
    Grammar ops (.simple c) := by
  induction ops with
  | nil => exact .command c
  | cons op ops ih => exact ih.tighter

theorem Expression.IsNormal.grammar {e : Expression} (hnormal : e.IsNormal) :
    ∀ {ops : List Operator}, ops <:+ Words.precedence →
      e.looseness ≤ ops.length → Grammar ops e := by
  induction e with
  | simple c =>
      intro ops _ _
      exact grammar_simple c ops
  | binary op left right ihl ihr =>
      obtain ⟨hll, hlr, hleft, hright⟩ := hnormal
      intro ops hsuffix hloose
      induction ops with
      | nil => cases op <;> cases hloose
      | cons first ops ih =>
          have hfirst := looseness_of_suffix hsuffix
          by_cases hop : op = first
          · subst hop
            refine .join (ihl hleft hsuffix ?_)
              (ihr hright (suffix_of_cons hsuffix) (by omega))
            rw [List.length_cons]
            omega
          · have hne : op.looseness ≠ first.looseness :=
              fun h => hop (Operator.looseness_inj h)
            rw [List.length_cons] at hloose
            refine (ih (suffix_of_cons hsuffix) ?_).tighter
            change op.looseness ≤ ops.length
            change op.looseness ≤ ops.length + 1 at hloose
            omega

/-- **The roots alone tell whether a composition can be written down without
parentheses.** -/
theorem grammar_precedence_iff {e : Expression} :
    Grammar Words.precedence e ↔ e.IsNormal := by
  constructor
  · exact fun hg => (hg.isNormal List.suffix_rfl).1
  · intro hnormal
    refine hnormal.grammar List.suffix_rfl ?_
    cases e with
    | simple c => exact Nat.zero_le _
    | binary op left right => cases op <;> exact Nat.le_of_ble_eq_true rfl

namespace Words

variable {isTyped : Bool}

/-! ## Operator words -/

/-- Is the word that of an operator? -/
def isOperator (word : String) : Bool := precedence.any fun op => word = op.symbol

theorem isOperator_iff {word : String} :
    isOperator word = true ↔ ∃ op : Operator, word = op.symbol := by
  constructor
  · intro h
    obtain ⟨op, -, hop⟩ := List.any_eq_true.mp h
    exact ⟨op, of_decide_eq_true hop⟩
  · rintro ⟨op, rfl⟩
    cases op <;> decide

theorem isOperator_symbol (op : Operator) : isOperator op.symbol = true :=
  isOperator_iff.mpr ⟨op, rfl⟩

theorem mem_precedence (op : Operator) : op ∈ precedence := by
  cases op <;> decide

/-- The longest pieces of a word list without operators. -/
def segments (words : List String) : List (List String) := words.splitOnP isOperator

/-- There is a command on both sides of every operator. -/
def HasCommands (words : List String) : Prop := ∀ segment ∈ segments words, segment ≠ []

instance (words : List String) : Decidable (HasCommands words) :=
  inferInstanceAs (Decidable (∀ segment ∈ segments words, segment ≠ []))

theorem segments_of_plain {words : List String}
    (hplain : ∀ w ∈ words, isOperator w = false) : segments words = [words] :=
  List.splitOnP_eq_singleton hplain

theorem segments_append {word : String} (hword : isOperator word = true)
    (left right : List String) :
    segments (left ++ word :: right) = segments left ++ segments right :=
  List.splitOnP_append_cons left right hword

/-! ## Reading by the last operator -/

theorem splitAt_of_not_mem {sep : String} {words : List String}
    (hsep : sep ∉ words) : splitAt sep words = (words, []) := by
  induction words with
  | nil => rfl
  | cons w rest ih =>
      rw [List.mem_cons, not_or] at hsep
      rw [splitAt, ih hsep.2]
      exact if_neg fun heq => hsep.1 heq.symm

/-- The piece after the last separator is the last one. -/
theorem splitAt_append {sep : String} (left : List String) {right : List String}
    (hright : sep ∉ right) :
    splitAt sep (left ++ sep :: right)
      = ((splitAt sep left).1, (splitAt sep left).2 ++ [right]) := by
  induction left with
  | nil =>
      have hrest : splitAt sep (sep :: right)
          = if sep = sep then ([], (splitAt sep right).1 :: (splitAt sep right).2)
            else (sep :: (splitAt sep right).1, (splitAt sep right).2) := rfl
      rw [List.nil_append, hrest, if_pos rfl, splitAt_of_not_mem hright]
      rfl
  | cons w left ih =>
      rw [List.cons_append, splitAt, ih, splitAt]
      by_cases hw : w = sep
      · simp only [hw, if_true, List.cons_append]
      · simp only [hw, if_false]

/-- A level whose operator is not there is passed over. -/
theorem parseLevel_of_not_mem {op : Operator} {ops : List Operator}
    {words : List String} (hop : op.symbol ∉ words) :
    parseLevel isTyped (op :: ops) words = parseLevel isTyped ops words := by
  rw [parseLevel, splitAt_of_not_mem hop]
  exact bind_pure _

/-- What stands before the last operator is read at its level, what stands after
it one level tighter. -/
theorem parseLevel_append {op : Operator} {ops : List Operator}
    (left : List String) {right : List String} (hright : op.symbol ∉ right) :
    parseLevel isTyped (op :: ops) (left ++ op.symbol :: right) = (do
      let l ← parseLevel isTyped (op :: ops) left
      let r ← parseLevel isTyped ops right
      return .binary op l r) := by
  rw [parseLevel, splitAt_append left hright, parseLevel]
  simp only [List.foldlM_append, bind_assoc, List.foldlM_cons, List.foldlM_nil,
    bind_pure]

/-- Every list that has a separator has a last one. -/
private theorem exists_append_of_mem {sep : String} {words : List String}
    (hsep : sep ∈ words) :
    ∃ left right, words = left ++ sep :: right ∧ sep ∉ right := by
  obtain ⟨before, after, hwords, hbefore⟩ :=
    List.eq_append_cons_of_mem (List.mem_reverse.mpr hsep)
  refine ⟨after.reverse, before.reverse, ?_, by simpa using hbefore⟩
  rw [← List.reverse_reverse words, hwords]
  simp

/-! ## Spelling -/

/-- The words spell the composition: those of its commands, in order, with the
operators between them.  Where parentheses would stand is not said. -/
inductive Spells (isTyped : Bool) : Expression → List String → Prop where
  /-- The words between two operators spell a command. -/
  | command {c : Command} {words : List String}
      (hplain : ∀ w ∈ words, isOperator w = false)
      (hc : command isTyped words = .ok (.simple c)) :
      Spells isTyped (.simple c) words
  /-- An operator stands between its two sides. -/
  | join {op : Operator} {left right : Expression} {ls rs : List String}
      (hl : Spells isTyped left ls) (hr : Spells isTyped right rs) :
      Spells isTyped (.binary op left right) (ls ++ op.symbol :: rs)

/-- Words without operators spell a command or nothing at all. -/
theorem eq_simple_of_command {words : List String} {e : Expression}
    (he : command isTyped words = .ok e) : ∃ c, e = .simple c := by
  cases words with
  | nil => cases he
  | cons path args =>
      rw [command] at he
      cases hargs : args.mapM (argument isTyped) with
      | error f =>
          rw [hargs] at he
          cases he
      | ok args =>
          rw [hargs] at he
          exact ⟨_, (Except.ok.inj he).symm⟩

/-- Words without operators are not read as nothing. -/
theorem ne_nil_of_command {words : List String} {e : Expression}
    (he : command isTyped words = .ok e) : words ≠ [] := by
  rintro rfl
  cases he

/-- The pieces of the words are those of the commands, in their order. -/
theorem Spells.map_segments {e : Expression} {words : List String}
    (hs : Spells isTyped e words) :
    (segments words).map (Words.command isTyped)
      = e.leaves.map fun c => .ok (.simple c) := by
  induction hs with
  | command hplain hc =>
      rw [segments_of_plain hplain, List.map_singleton, hc]
      rfl
  | @join op _ _ _ _ _ _ ihl ihr =>
      rw [segments_append (isOperator_symbol op), Expression.leaves,
        List.map_append, List.map_append, ihl, ihr]

/-- An operator that is not in a composition is not in its words. -/
theorem Spells.symbol_not_mem {ops : List Operator} {e : Expression}
    (hg : Grammar ops e) : ∀ {words : List String}, Spells isTyped e words →
      ∀ {op : Operator}, op ∉ ops → op.symbol ∉ words := by
  induction hg with
  | command c =>
      intro words hs op _ hmem
      cases hs with
      | command hplain _ =>
          have hnot := hplain _ hmem
          rw [isOperator_symbol] at hnot
          cases hnot
  | tighter _ ih =>
      intro words hs op hop
      exact ih hs fun hmem => hop (List.mem_cons_of_mem _ hmem)
  | join _ _ ihl ihr =>
      intro words hs op hop hmem
      cases hs with
      | join hl hr =>
          rcases List.mem_append.mp hmem with hmem | hmem
          · exact ihl hl hop hmem
          · rcases List.mem_cons.mp hmem with heq | hmem
            · exact hop (Operator.symbol_inj heq ▸ List.mem_cons_self)
            · exact ihr hr (fun h => hop (List.mem_cons_of_mem _ h)) hmem

/-! ## Reading and spelling -/

/-- A composition with the right grouping is read from its words. -/
theorem parseLevel_of_spells {ops : List Operator} {e : Expression}
    (hg : Grammar ops e) : ∀ {words : List String}, Spells isTyped e words →
      ops.Nodup → parseLevel isTyped ops words = .ok e := by
  induction hg with
  | command c =>
      intro words hs _
      cases hs with
      | command _ hc => exact hc
  | tighter hg ih =>
      intro words hs hnodup
      obtain ⟨hop, hnodup⟩ := List.nodup_cons.mp hnodup
      rw [parseLevel_of_not_mem (Spells.symbol_not_mem hg hs hop)]
      exact ih hs hnodup
  | join _ hg ihl ihr =>
      intro words hs hnodup
      obtain ⟨hop, htight⟩ := List.nodup_cons.mp hnodup
      cases hs with
      | join hl hr =>
          rw [parseLevel_append _ (Spells.symbol_not_mem hg hr hop),
            ihl hl hnodup, ihr hr htight]
          rfl

/-- Without the first operator the others are left. -/
private theorem of_not_mem {op : Operator} {ops : List Operator}
    {words : List String} (hop : op.symbol ∉ words)
    (hwords : ∀ w ∈ words, isOperator w = true → ∃ o ∈ op :: ops, w = o.symbol) :
    ∀ w ∈ words, isOperator w = true → ∃ o ∈ ops, w = o.symbol := by
  intro w hw hword
  obtain ⟨o, ho, rfl⟩ := hwords w hw hword
  rcases List.mem_cons.mp ho with rfl | ho
  · exact absurd hw hop
  · exact ⟨o, ho, rfl⟩

section Induction

variable {P : List Operator → List String → Prop}
  (skip : ∀ {op : Operator} {ops : List Operator} {words : List String},
    op.symbol ∉ words → P ops words → P (op :: ops) words)
  (last : ∀ {op : Operator} {ops : List Operator} {left right : List String},
    op.symbol ∉ right → P (op :: ops) left → P ops right →
      P (op :: ops) (left ++ op.symbol :: right))

include skip last

/-- One level, by induction on the number of words. -/
private theorem level_induction_cons {op : Operator} {ops : List Operator}
    (htight : ∀ {words : List String},
      (∀ w ∈ words, isOperator w = true → ∃ o ∈ ops, w = o.symbol) → P ops words)
    (n : Nat) :
    ∀ {words : List String}, words.length ≤ n →
      (∀ w ∈ words, isOperator w = true → ∃ o ∈ op :: ops, w = o.symbol) →
        P (op :: ops) words := by
  induction n with
  | zero =>
      intro words hlength hwords
      obtain rfl := List.length_eq_zero_iff.mp (Nat.le_zero.mp hlength)
      exact skip List.not_mem_nil (htight fun w hw => absurd hw List.not_mem_nil)
  | succ n ih =>
      intro words hlength hwords
      by_cases hop : op.symbol ∈ words
      · obtain ⟨left, right, rfl, hright⟩ := exists_append_of_mem hop
        rw [List.length_append, List.length_cons] at hlength
        refine last hright (ih (by omega) ?_) (htight (of_not_mem hright ?_))
        · exact fun w hw => hwords w (List.mem_append_left _ hw)
        · exact fun w hw =>
            hwords w (List.mem_append_right _ (List.mem_cons_of_mem _ hw))
      · exact skip hop (htight (of_not_mem hop hwords))

/-- What holds of words without operators, and is handed on from what stands
before and after the last operator of a level, holds of all words. -/
theorem level_induction (ops : List Operator)
    (base : ∀ {words : List String}, (∀ w ∈ words, isOperator w = false) → P [] words) :
    ∀ {words : List String},
      (∀ w ∈ words, isOperator w = true → ∃ op ∈ ops, w = op.symbol) →
        P ops words := by
  induction ops with
  | nil =>
      intro words hwords
      refine base fun w hw => ?_
      cases hword : isOperator w with
      | false => rfl
      | true =>
          obtain ⟨op, hop, -⟩ := hwords w hw hword
          cases hop
  | cons op ops ih =>
      intro words hwords
      exact level_induction_cons skip last ih words.length (Nat.le_refl _) hwords

end Induction

/-- All operators have a level. -/
theorem mem_precedence_of_isOperator {words : List String} :
    ∀ w ∈ words, isOperator w = true → ∃ op ∈ precedence, w = op.symbol := by
  intro w _ hword
  obtain ⟨op, rfl⟩ := isOperator_iff.mp hword
  exact ⟨op, mem_precedence op, rfl⟩

/-- Two sides are read if both of them are. -/
private theorem of_parseLevel_append {op : Operator} {ops : List Operator}
    {left right : List String} {e : Expression} (hright : op.symbol ∉ right)
    (hparse : parseLevel isTyped (op :: ops) (left ++ op.symbol :: right) = .ok e) :
    ∃ l r, parseLevel isTyped (op :: ops) left = .ok l ∧
      parseLevel isTyped ops right = .ok r ∧ e = .binary op l r := by
  rw [parseLevel_append left hright] at hparse
  cases hl : parseLevel isTyped (op :: ops) left with
  | error f =>
      rw [hl] at hparse
      cases hparse
  | ok l =>
      cases hr : parseLevel isTyped ops right with
      | error f =>
          rw [hl, hr] at hparse
          cases hparse
      | ok r =>
          rw [hl, hr] at hparse
          exact ⟨l, r, rfl, rfl, (Except.ok.inj hparse).symm⟩

/-- What is read has the right grouping, and the words spell it. -/
theorem spells_of_parseLevel (ops : List Operator) {words : List String}
    (hwords : ∀ w ∈ words, isOperator w = true → ∃ op ∈ ops, w = op.symbol) :
    ∀ {e : Expression}, parseLevel isTyped ops words = .ok e →
      Grammar ops e ∧ Spells isTyped e words := by
  refine level_induction (P := fun ops words => ∀ {e : Expression},
    parseLevel isTyped ops words = .ok e → Grammar ops e ∧ Spells isTyped e words)
    ?_ ?_ ops ?_ hwords
  · intro op ops words hop ih e hparse
    rw [parseLevel_of_not_mem hop] at hparse
    obtain ⟨hg, hs⟩ := ih hparse
    exact ⟨hg.tighter, hs⟩
  · intro op ops left right hright ihl ihr e hparse
    obtain ⟨l, r, hl, hr, rfl⟩ := of_parseLevel_append hright hparse
    obtain ⟨hgl, hsl⟩ := ihl hl
    obtain ⟨hgr, hsr⟩ := ihr hr
    exact ⟨.join hgl hgr, .join hsl hsr⟩
  · intro words hplain e hparse
    rw [parseLevel] at hparse
    obtain ⟨c, rfl⟩ := eq_simple_of_command hparse
    exact ⟨.command c, .command hplain hparse⟩

/-- **A word list is read as a composition just when the composition has the
right grouping and the words spell it.** -/
theorem parse_eq_ok_iff {words : List String} {e : Expression} :
    parse isTyped words = .ok e ↔ e.IsNormal ∧ Spells isTyped e words := by
  rw [← grammar_precedence_iff]
  constructor
  · exact spells_of_parseLevel precedence mem_precedence_of_isOperator
  · rintro ⟨hg, hs⟩
    exact parseLevel_of_spells hg hs (by decide)

/-- Of two operators the tighter one is inside, and of two that bind alike the
first one. -/
theorem parse_two (first second : Operator) {a b c : Command}
    {as bs cs : List String} (ha : Spells isTyped (.simple a) as)
    (hb : Spells isTyped (.simple b) bs) (hc : Spells isTyped (.simple c) cs) :
    parse isTyped (as ++ first.symbol :: (bs ++ second.symbol :: cs))
      = .ok (if second.looseness < first.looseness then
          .binary first (.simple a) (.binary second (.simple b) (.simple c))
        else .binary second (.binary first (.simple a) (.simple b)) (.simple c)) := by
  have hfirst := first.looseness_pos
  have hsecond := second.looseness_pos
  rw [parse_eq_ok_iff]
  split
  · next hlt =>
      refine ⟨⟨Nat.zero_le _, hlt, trivial, ?_⟩, .join ha (.join hb hc)⟩
      exact ⟨Nat.zero_le _, hsecond, trivial, trivial⟩
  · next hge =>
      have hassoc : as ++ first.symbol :: (bs ++ second.symbol :: cs)
          = (as ++ first.symbol :: bs) ++ second.symbol :: cs := by simp
      rw [hassoc]
      refine ⟨⟨Nat.not_lt.mp hge, hsecond, ?_, trivial⟩, .join (.join ha hb) hc⟩
      exact ⟨Nat.zero_le _, hfirst, trivial, trivial⟩

/-- **A word list is read just when all of its pieces are.** -/
theorem exists_parse_iff {words : List String} :
    (∃ e, parse isTyped words = .ok e) ↔
      ∀ segment ∈ segments words, ∃ c, command isTyped segment = .ok (.simple c) := by
  constructor
  · rintro ⟨e, hparse⟩ segment hsegment
    obtain ⟨-, hs⟩ := parse_eq_ok_iff.mp hparse
    have hmem := List.mem_map_of_mem (f := command isTyped) hsegment
    rw [hs.map_segments] at hmem
    obtain ⟨c, -, hc⟩ := List.mem_map.mp hmem
    exact ⟨c, hc.symm⟩
  · refine level_induction (P := fun ops words =>
      (∀ segment ∈ segments words, ∃ c, command isTyped segment = .ok (.simple c)) →
        ∃ e, parseLevel isTyped ops words = .ok e) ?_ ?_ precedence ?_
      mem_precedence_of_isOperator
    · intro op ops words hop ih hall
      rw [parseLevel_of_not_mem hop]
      exact ih hall
    · intro op ops left right hright ihl ihr hall
      rw [segments_append (isOperator_symbol op), List.forall_mem_append] at hall
      obtain ⟨l, hl⟩ := ihl hall.1
      obtain ⟨r, hr⟩ := ihr hall.2
      refine ⟨.binary op l r, ?_⟩
      rw [parseLevel_append left hright, hl, hr]
      rfl
    · intro words hplain hall
      rw [segments_of_plain hplain] at hall
      obtain ⟨c, hc⟩ := hall words (List.mem_singleton_self _)
      exact ⟨.simple c, hc⟩

end Words

end CommandExpr
