import CommandExpr.Proofs.Grammar
import Mathlib.Logic.Equiv.Basic
import Mathlib.Tactic.Choose

/-!
# Word lists of plain texts

Without typed arguments every word is either an operator or a plain text, so a
word list and the composition that is read from it tell the same.  A list can be
read if there is a command at every place where one is expected.  What is read is
a composition of plain texts in normal form; its words, written down in order
with the operators between them, are the list that was read.  And every such
composition is read from its words.

## Main results

* `Words.spells_plain_iff` — words spell a composition of plain texts just when
  they are its words in order.
* `Words.parse_plain_equiv` — reading is one-to-one and onto, and its inverse is
  writing down.
-/

namespace CommandExpr

/-! ## Compositions of plain texts -/

/-- Is it a plain text that is no operator word? -/
def Argument.IsPlain : Argument → Prop
  | .typed (.str s) => Words.isOperator s = false
  | _ => False

/-- Neither the path nor an argument is an operator word, and all arguments are
plain texts. -/
structure Command.IsPlain (c : Command) : Prop where
  path : Words.isOperator c.path = false
  args : ∀ a ∈ c.args, a.IsPlain

/-- All commands are made of plain texts. -/
def Expression.IsPlain (e : Expression) : Prop := ∀ c ∈ e.leaves, c.IsPlain

theorem Expression.isPlain_binary {op : Operator} {left right : Expression} :
    (binary op left right).IsPlain ↔ left.IsPlain ∧ right.IsPlain :=
  List.forall_mem_append

theorem Expression.isPlain_simple {c : Command} :
    (simple c).IsPlain ↔ c.IsPlain :=
  List.forall_mem_singleton

namespace Words

/-! ## One command -/

/-- Every word is read as a plain text. -/
private theorem mapM_argument (args : List String) :
    args.mapM (argument false) = .ok (args.map Argument.text) := by
  induction args with
  | nil => rfl
  | cons w args ih =>
      rw [List.mapM_cons, ih]
      rfl

theorem command_plain (path : String) (args : List String) :
    command false (path :: args) = .ok (.simple ⟨path, args.map Argument.text⟩) := by
  rw [command, mapM_argument]
  rfl

/-- A command is read from every list of words but the empty one. -/
theorem exists_command_plain_iff {words : List String} :
    (∃ c, command false words = .ok (.simple c)) ↔ words ≠ [] := by
  constructor
  · rintro ⟨c, hc⟩
    exact ne_nil_of_command hc
  · intro hwords
    cases words with
    | nil => exact absurd rfl hwords
    | cons path args => exact ⟨_, command_plain path args⟩

/-- The words of plain texts are the texts. -/
private theorem mapM_ofArgument_text (args : List String) :
    (args.map Argument.text).mapM ofArgument? = some args := by
  induction args with
  | nil => rfl
  | cons w args ih =>
      rw [List.map_cons, List.mapM_cons, ih]
      rfl

theorem ofExpression_text (path : String) (args : List String) :
    ofExpression (.simple ⟨path, args.map Argument.text⟩) = some (path :: args) := by
  rw [ofExpression, mapM_ofArgument_text]
  rfl

/-- Plain arguments are the plain texts of words that are no operators. -/
private theorem exists_words_of_isPlain {args : List Argument}
    (hargs : ∀ a ∈ args, a.IsPlain) :
    ∃ words : List String, args = words.map Argument.text ∧
      ∀ w ∈ words, isOperator w = false := by
  induction args with
  | nil => exact ⟨[], rfl, by simp⟩
  | cons a args ih =>
      rw [List.forall_mem_cons] at hargs
      obtain ⟨words, rfl, hwords⟩ := ih hargs.2
      have ha := hargs.1
      unfold Argument.IsPlain at ha
      split at ha
      · next s =>
          exact ⟨s :: words, rfl, List.forall_mem_cons.mpr ⟨ha, hwords⟩⟩
      · cases ha

private theorem isPlain_text {path : String} {args : List String} :
    (⟨path, args.map Argument.text⟩ : Command).IsPlain ↔
      ∀ w ∈ path :: args, isOperator w = false := by
  rw [List.forall_mem_cons]
  constructor
  · rintro ⟨hpath, hargs⟩
    exact ⟨hpath, fun w hw => hargs _ (List.mem_map_of_mem hw)⟩
  · rintro ⟨hpath, hargs⟩
    refine ⟨hpath, fun a ha => ?_⟩
    obtain ⟨w, hw, rfl⟩ := List.mem_map.mp ha
    exact hargs w hw

/-- What a command is read from are its words, … -/
theorem ofExpression_of_command {words : List String} {c : Command}
    (hc : command false words = .ok (.simple c)) :
    ofExpression (.simple c) = some words := by
  cases words with
  | nil => cases hc
  | cons path args =>
      rw [command_plain] at hc
      obtain rfl := Expression.simple.inj (Except.ok.inj hc)
      exact ofExpression_text path args

/-- … and a command of plain texts is read from its words. -/
theorem spells_simple_iff {c : Command} {words : List String} :
    Spells false (.simple c) words ↔
      c.IsPlain ∧ ofExpression (.simple c) = some words := by
  constructor
  · rintro (⟨hplain, hc⟩ | _)
    refine ⟨?_, ofExpression_of_command hc⟩
    cases words with
    | nil => cases hc
    | cons path args =>
        rw [command_plain] at hc
        obtain rfl := Expression.simple.inj (Except.ok.inj hc)
        exact isPlain_text.mpr hplain
  · rintro ⟨hplain, hwords⟩
    obtain ⟨path, args⟩ := c
    obtain ⟨args, rfl, -⟩ := exists_words_of_isPlain hplain.args
    rw [ofExpression_text] at hwords
    obtain rfl := Option.some.inj hwords
    exact .command (isPlain_text.mp hplain) (command_plain path args)

/-! ## Compositions -/

theorem ofExpression_binary {op : Operator} {left right : Expression}
    {words : List String} :
    ofExpression (.binary op left right) = some words ↔
      ∃ ls rs, ofExpression left = some ls ∧ ofExpression right = some rs ∧
        words = ls ++ op.symbol :: rs := by
  rw [ofExpression]
  cases ofExpression left with
  | none => simp
  | some ls =>
      cases ofExpression right with
      | none => simp
      | some rs => simp [eq_comm]

/-- **Words spell a composition of plain texts just when they are its words in
order.** -/
theorem spells_plain_iff {e : Expression} : ∀ {words : List String},
    Spells false e words ↔ e.IsPlain ∧ ofExpression e = some words := by
  induction e with
  | simple c =>
      intro words
      rw [spells_simple_iff, Expression.isPlain_simple]
  | binary op left right ihl ihr =>
      intro words
      rw [Expression.isPlain_binary, ofExpression_binary]
      constructor
      · rintro (_ | ⟨hl, hr⟩)
        obtain ⟨hleft, hls⟩ := ihl.mp hl
        obtain ⟨hright, hrs⟩ := ihr.mp hr
        exact ⟨⟨hleft, hright⟩, _, _, hls, hrs, rfl⟩
      · rintro ⟨⟨hleft, hright⟩, ls, rs, hls, hrs, rfl⟩
        exact .join (ihl.mpr ⟨hleft, hls⟩) (ihr.mpr ⟨hright, hrs⟩)

/-- A composition of plain texts has words. -/
theorem exists_ofExpression {e : Expression} (hplain : e.IsPlain) :
    ∃ words, ofExpression e = some words := by
  induction e with
  | simple c =>
      obtain ⟨path, args⟩ := c
      obtain ⟨args, rfl, -⟩ :=
        exists_words_of_isPlain (Expression.isPlain_simple.mp hplain).args
      exact ⟨_, ofExpression_text path args⟩
  | binary op left right ihl ihr =>
      obtain ⟨hleft, hright⟩ := Expression.isPlain_binary.mp hplain
      obtain ⟨ls, hls⟩ := ihl hleft
      obtain ⟨rs, hrs⟩ := ihr hright
      exact ⟨_, ofExpression_binary.mpr ⟨ls, rs, hls, hrs, rfl⟩⟩

/-! ## Reading and writing down -/

/-- A list of plain texts can be read just when it has a command at every
place. -/
theorem exists_parse_plain_iff {words : List String} :
    (∃ e, parse false words = .ok e) ↔ HasCommands words := by
  rw [exists_parse_iff]
  exact forall₂_congr fun _ _ => exists_command_plain_iff

/-- The composition that is read is in normal form and made of plain texts, and
the list that was read is its words. -/
theorem parse_plain_iff {words : List String} {e : Expression} :
    parse false words = .ok e ↔
      e.IsNormal ∧ e.IsPlain ∧ ofExpression e = some words := by
  rw [parse_eq_ok_iff, spells_plain_iff]

/-- The command that following left operands leads to is the first piece. -/
theorem ofExpression_leftmost {words : List String} {e : Expression}
    (hs : Spells false e words) :
    ofExpression (.simple e.leftmost) = (segments words).head? := by
  have hhead : ((segments words).head?).map (command false)
      = some (.ok (.simple e.leftmost)) := by
    rw [← List.head?_map, hs.map_segments, List.head?_map, Expression.head?_leaves]
    rfl
  obtain ⟨segment, hsegment, hc⟩ := Option.map_eq_some_iff.mp hhead
  rw [hsegment, ofExpression_of_command hc]

/-- The words between two operators, or before the first or after the last. -/
structure IsSegment (words : List String) : Prop where
  ne_nil : words ≠ []
  plain : ∀ w ∈ words, isOperator w = false

/-- A piece is a command. -/
theorem IsSegment.exists_spells {words : List String} (h : IsSegment words) :
    ∃ c, ofExpression (.simple c) = some words ∧ Spells false (.simple c) words := by
  obtain ⟨c, hc⟩ := exists_command_plain_iff.mpr h.ne_nil
  exact ⟨c, ofExpression_of_command hc, .command h.plain hc⟩

/-- **Reading plain words is one-to-one and onto, and its inverse is writing
down.**  It takes the word lists with a command at every place, and no others, to
the compositions of plain texts in normal form.  The first piece becomes the
command that following left operands leads to.  A pipe binds more tightly than a
concatenation and that more tightly than a sequence, and each of them groups to
the left. -/
theorem parse_plain_equiv :
    (∃ read : {words : List String // HasCommands words} ≃
        {e : Expression // e.IsNormal ∧ e.IsPlain},
      (∀ words, parse false words.1 = .ok (read words).1 ∧
        ofExpression (read words).1 = some words.1 ∧
          ofExpression (.simple (read words).1.leftmost)
            = (segments words.1).head?) ∧
        ∀ e, ofExpression e.1 = some (read.symm e).1 ∧
          parse false (read.symm e).1 = .ok e.1) ∧
      (∀ words, (∃ e, parse false words = .ok e) ↔ HasCommands words) ∧
        ∀ (first second : Operator) (as bs cs : List String),
          IsSegment as → IsSegment bs → IsSegment cs →
            ∃ a b c : Command, ofExpression (.simple a) = some as ∧
              ofExpression (.simple b) = some bs ∧
                ofExpression (.simple c) = some cs ∧
                  parse false (as ++ first.symbol :: (bs ++ second.symbol :: cs))
                    = .ok (if second.looseness < first.looseness then
                        .binary first (.simple a)
                          (.binary second (.simple b) (.simple c))
                      else
                        .binary second (.binary first (.simple a) (.simple b))
                          (.simple c)) := by
  have hread : ∀ words : {words : List String // HasCommands words},
      ∃ e : {e : Expression // e.IsNormal ∧ e.IsPlain},
        parse false words.1 = .ok e.1 ∧ ofExpression e.1 = some words.1 := by
    rintro ⟨words, hwords⟩
    obtain ⟨e, he⟩ := exists_parse_plain_iff.mpr hwords
    obtain ⟨hnormal, hplain, hflat⟩ := parse_plain_iff.mp he
    exact ⟨⟨e, hnormal, hplain⟩, he, hflat⟩
  choose read hparse hflat using hread
  have hinjective : Function.Injective read := by
    intro words words' heq
    have hsame := hflat words
    rw [heq, hflat words'] at hsame
    exact Subtype.ext (Option.some.inj hsame).symm
  have hsurjective : Function.Surjective read := by
    rintro ⟨e, hnormal, hplain⟩
    obtain ⟨words, hwords⟩ := exists_ofExpression hplain
    have he := parse_plain_iff.mpr ⟨hnormal, hplain, hwords⟩
    refine ⟨⟨words, exists_parse_plain_iff.mp ⟨e, he⟩⟩, Subtype.ext ?_⟩
    exact Except.ok.inj ((hparse _).symm.trans he)
  refine ⟨⟨Equiv.ofBijective read ⟨hinjective, hsurjective⟩, ?_, ?_⟩,
    fun _ => exists_parse_plain_iff, ?_⟩
  · intro words
    refine ⟨hparse words, hflat words, ?_⟩
    exact ofExpression_leftmost (parse_eq_ok_iff.mp (hparse words)).2
  · intro e
    have hback : read ((Equiv.ofBijective read ⟨hinjective, hsurjective⟩).symm e) = e :=
      Equiv.apply_symm_apply (Equiv.ofBijective read ⟨hinjective, hsurjective⟩) e
    have hwords := hflat ((Equiv.ofBijective read ⟨hinjective, hsurjective⟩).symm e)
    have he := hparse ((Equiv.ofBijective read ⟨hinjective, hsurjective⟩).symm e)
    rw [hback] at hwords he
    exact ⟨hwords, he⟩
  · intro first second as bs cs has hbs hcs
    obtain ⟨a, ha, hsa⟩ := has.exists_spells
    obtain ⟨b, hb, hsb⟩ := hbs.exists_spells
    obtain ⟨c, hc, hsc⟩ := hcs.exists_spells
    exact ⟨a, b, c, ha, hb, hc, parse_two first second hsa hsb hsc⟩

/-- Three commands, in the second of which a pipe ends and a concatenation begins. -/
theorem parse_plain_equiv_sample :
    (∃ e, parse false ["a", "x", "|", "b", "+", "c"] = .ok e) ∧
      ∃ a b c : Command, ofExpression (.simple a) = some ["a", "x"] ∧
        ofExpression (.simple b) = some ["b"] ∧
          ofExpression (.simple c) = some ["c"] ∧
            parse false ["a", "x", "|", "b", "+", "c"]
              = .ok (.binary .concat (.binary .pipe (.simple a) (.simple b))
                  (.simple c)) :=
  ⟨(parse_plain_equiv.2.1 _).mpr (by decide),
    parse_plain_equiv.2.2 .pipe .concat ["a", "x"] ["b"] ["c"]
      ⟨by decide, by decide⟩ ⟨by decide, by decide⟩ ⟨by decide, by decide⟩⟩

end Words

end CommandExpr
