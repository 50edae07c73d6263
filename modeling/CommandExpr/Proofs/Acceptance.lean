import CommandExpr.Proofs.Literals
import CommandExpr.Proofs.TypedWords

/-!
# Which word lists are read, and what is reported of the others

A word list is taken apart three times over, once for each operator, then into
the words of a command, and then a word at its colon.  Something may be amiss at
any of these levels.  What is reported is always what is leftmost: the first piece
between operators that makes no command, and in it the first word that spells
nothing of the kind that it announces.

So of a computation only its failure is kept (`failure?`), and the failure of one
after another is that of the first that has one.  That makes the failure of a word
list a search among its pieces (`Words.failure?_parse`), and the levels are gone.

## Main definitions

* `Words.Announces` — the two parts of a word at its first colon
* `Words.Reads`, `Words.Refuses` — what a word stands for, and which words stand
  for nothing
* `Words.Accepts`, `Words.Blames` — the same for the pieces between operators

## Main results

* `Words.parse_outcome` — which word lists are read, and the failure of the others.
-/

namespace CommandExpr

open Literal (SpellsInteger SpellsTag IsFloat)

/-! ## Failures of computations -/

/-- How a computation fails, if it does. -/
def failure? {α : Type} : Except Failure α → Option Failure
  | .ok _ => none
  | .error f => some f

section Failure

variable {α β γ : Type}

theorem failure?_eq_some_iff {x : Except Failure α} {f : Failure} :
    failure? x = some f ↔ x = .error f := by
  cases x <;> simp [failure?]

theorem failure?_eq_none_iff {x : Except Failure α} :
    failure? x = none ↔ ∃ a, x = .ok a := by
  cases x <;> simp [failure?]

/-- Of two computations the failure of the first one counts. -/
theorem failure?_bind_pure (x : Except Failure α) (y : Except Failure β) (g : α → β → γ) :
    failure? (do let a ← x; let b ← y; return g a b) = (failure? x).or (failure? y) := by
  cases x <;> cases y <;> rfl

theorem failure?_mapM (g : α → Except Failure β) (xs : List α) :
    failure? (xs.mapM g) = xs.findSome? fun x => failure? (g x) := by
  induction xs with
  | nil => rfl
  | cons x xs ih =>
      rw [List.mapM_cons, failure?_bind_pure, ih, List.findSome?_cons]
      cases failure? (g x) <;> rfl

end Failure

namespace Words

/-! ## Words -/

/-- The word announces what stands before its first colon of what stands after it. -/
structure Announces (word : String) (kind body : List Char) : Prop where
  parts : word.toList = kind ++ ':' :: body
  first : ':' ∉ kind

/-- No word of the kind is ever taken for more than plain text. -/
def IsPlain (kind : List Char) : Prop :=
  kind ∉ [['i'], ['b'], ['f'], ['c'], ['s']]
    ∧ ∀ digits n, kind = 't' :: digits → ¬SpellsTag digits n

/-- The argument that a word stands for. -/
inductive Reads (word : String) : Argument → Prop where
  | unannounced (hcolon : ':' ∉ word.toList) : Reads word (.text word)
  | plain {kind body : List Char} (hword : Announces word kind body) (hkind : IsPlain kind) :
      Reads word (.text word)
  | text {body : List Char} (hword : Announces word ['s'] body) :
      Reads word (.text (String.ofList body))
  /-- Texts are kept only under their own tag. -/
  | tagged {digits body : List Char} {tag : UInt8} (hword : Announces word ('t' :: digits) body)
      (htag : SpellsTag digits tag.toNat) :
      Reads word (if tag = 4 then .text (String.ofList body) else .unrecognized tag)
  | integer {body : List Char} {n : Int64} (hword : Announces word ['i'] body)
      (hn : SpellsInteger body n.toInt) : Reads word (.typed (.int n))
  | boolean {body : List Char} {n : Int64} (hword : Announces word ['b'] body)
      (hn : SpellsInteger body n.toInt) : Reads word (.typed (.bool (n.toInt % 2 = 1)))
  | float {body : List Char} {x : Binary64} (hword : Announces word ['f'] body)
      (hx : Binary64.ofText? body = some x) : Reads word (.typed (.float x))
  | character {body : List Char} {byte : UInt8} (hword : Announces word ['c'] body)
      (hbyte : Bytes.ofString (String.ofList body) = [byte]) : Reads word (.typed (.char byte))

/-- The word announces a kind of value and spells none, and what it is then called. -/
inductive Refuses (word : String) : String → Prop where
  | integer {body : List Char} (hword : Announces word ['i'] body)
      (hbody : ¬∃ n, SpellsInteger body n ∧ -2 ^ 63 ≤ n ∧ n < 2 ^ 63) : Refuses word "integer"
  | boolean {body : List Char} (hword : Announces word ['b'] body)
      (hbody : ¬∃ n, SpellsInteger body n ∧ -2 ^ 63 ≤ n ∧ n < 2 ^ 63) : Refuses word "boolean"
  | float {body : List Char} (hword : Announces word ['f'] body) (hbody : ¬IsFloat body) :
      Refuses word "float"
  | character {body : List Char} (hword : Announces word ['c'] body)
      (hbody : (String.ofList body).utf8ByteSize ≠ 1) : Refuses word "character"

/-- The word stands for nothing. -/
def IsRefused (word : String) : Prop := ∃ what, Refuses word what

/-- A word without a colon announces nothing, and any other does in one way. -/
theorem exists_announces {word : String} (hcolon : ':' ∈ word.toList) :
    ∃ kind body, Announces word kind body := by
  obtain ⟨kind, body, hparts, hfirst⟩ := List.eq_append_cons_of_mem hcolon
  exact ⟨kind, body, hparts, hfirst⟩

section Announces

variable {word : String} {kind body : List Char}

theorem Announces.takeWhile (hword : Announces word kind body) :
    word.toList.takeWhile (· ≠ ':') = kind := by
  have hall : ∀ c ∈ kind, decide (c ≠ ':') = true :=
    fun c hc => decide_eq_true fun heq => hword.first (heq ▸ hc)
  rw [hword.parts, List.takeWhile_append_of_pos hall, List.takeWhile_cons_of_neg (by decide),
    List.append_nil]

theorem Announces.dropWhile (hword : Announces word kind body) :
    word.toList.dropWhile (· ≠ ':') = ':' :: body := by
  have hall : ∀ c ∈ kind, decide (c ≠ ':') = true :=
    fun c hc => decide_eq_true fun heq => hword.first (heq ▸ hc)
  rw [hword.parts, List.dropWhile_append_of_pos hall, List.dropWhile_cons_of_neg (by decide)]

end Announces

/-- A word of a kind that announces nothing is taken as it is. -/
private theorem typed_of_isPlain {word : String} {kind body : List Char}
    (hword : Announces word kind body) (hkind : IsPlain kind) :
    typed word = .ok (.text word) := by
  obtain ⟨hnone, htag⟩ := hkind
  simp only [typed, hword.takeWhile, hword.dropWhile]
  split
  · exact absurd (by decide) hnone
  · exact absurd (by decide) hnone
  · exact absurd (by decide) hnone
  · exact absurd (by decide) hnone
  · exact absurd (by decide) hnone
  · next digits =>
      split
      · next n hn => exact absurd (Literal.byte?_eq_some_iff.mp hn) (htag digits n.toNat rfl)
      · rfl
  · rfl

/-- A word is read as what it stands for. -/
theorem typed_of_reads {word : String} {a : Argument} (hreads : Reads word a) :
    typed word = .ok a := by
  cases hreads with
  | unannounced hcolon =>
      have hdrop : word.toList.dropWhile (· ≠ ':') = [] := by
        rw [List.dropWhile_eq_nil_iff]
        exact fun c hc => decide_eq_true fun heq => hcolon (heq ▸ hc)
      simp only [typed, hdrop]
  | plain hword hkind => exact typed_of_isPlain hword hkind
  | text hword =>
      simp only [typed, hword.takeWhile, hword.dropWhile]
      rfl
  | @tagged digits body tag hword htag =>
      simp only [typed, hword.takeWhile, hword.dropWhile, Literal.byte?_eq_some_iff.mpr htag]
      by_cases hstr : tag = 4
      · subst hstr
        rfl
      · rw [if_neg hstr, Argument.ofRaw_text hstr]
  | integer hword hn =>
      simp only [typed, hword.takeWhile, hword.dropWhile, Literal.int64?_eq_some_iff.mpr hn]
      rfl
  | boolean hword hn =>
      simp only [typed, hword.takeWhile, hword.dropWhile, Literal.int64?_eq_some_iff.mpr hn]
      rfl
  | float hword hx =>
      simp only [typed, hword.takeWhile, hword.dropWhile, hx]
      rfl
  | character hword hbyte =>
      simp only [typed, hword.takeWhile, hword.dropWhile, hbyte]
      rfl

/-- A word that stands for nothing is refused, and called what it should have been. -/
theorem typed_of_refuses {word what : String} (hrefuses : Refuses word what) :
    typed word = .error (.invalidWord word what) := by
  cases hrefuses with
  | integer hword hbody =>
      have hnone := Option.not_isSome_iff_eq_none.mp (mt Literal.isSome_int64?_iff.mp hbody)
      simp only [typed, hword.takeWhile, hword.dropWhile, hnone]
  | boolean hword hbody =>
      have hnone := Option.not_isSome_iff_eq_none.mp (mt Literal.isSome_int64?_iff.mp hbody)
      simp only [typed, hword.takeWhile, hword.dropWhile, hnone]
  | float hword hbody =>
      have hnone := Option.not_isSome_iff_eq_none.mp (mt Literal.isSome_ofText?_iff.mp hbody)
      simp only [typed, hword.takeWhile, hword.dropWhile, hnone]
  | @character body hword hbody =>
      rw [← Bytes.length_ofString] at hbody
      simp only [typed, hword.takeWhile, hword.dropWhile]
      split
      · next byte hbyte =>
          split at hbyte
          · next hbytes => exact absurd (congrArg List.length hbytes) hbody
          · cases hbyte
      · rfl

/-- A word of a kind of value either spells one or is refused. -/
private theorem reads_or_refuses_of_valued {word : String} {kind body : List Char}
    (hword : Announces word kind body) (hkind : kind ∈ [['i'], ['b'], ['f'], ['c']]) :
    (∃ a, Reads word a) ∨ IsRefused word := by
  simp only [List.mem_cons, List.not_mem_nil, or_false] at hkind
  rcases hkind with rfl | rfl | rfl | rfl
  · cases hread : Numeral.int64? body with
    | some n => exact .inl ⟨_, .integer hword (Literal.int64?_eq_some_iff.mp hread)⟩
    | none =>
        refine .inr ⟨_, .integer hword fun hn => ?_⟩
        rw [← Literal.isSome_int64?_iff, hread] at hn
        cases hn
  · cases hread : Numeral.int64? body with
    | some n => exact .inl ⟨_, .boolean hword (Literal.int64?_eq_some_iff.mp hread)⟩
    | none =>
        refine .inr ⟨_, .boolean hword fun hn => ?_⟩
        rw [← Literal.isSome_int64?_iff, hread] at hn
        cases hn
  · cases hread : Binary64.ofText? body with
    | some x => exact .inl ⟨_, .float hword hread⟩
    | none =>
        refine .inr ⟨_, .float hword fun hx => ?_⟩
        rw [← Literal.isSome_ofText?_iff, hread] at hx
        cases hx
  · by_cases hsize : (String.ofList body).utf8ByteSize = 1
    · rw [← Bytes.length_ofString] at hsize
      obtain ⟨byte, hbyte⟩ := List.length_eq_one_iff.mp hsize
      exact .inl ⟨_, .character hword hbyte⟩
    · exact .inr ⟨_, .character hword hsize⟩

/-- Every word stands for something, or is refused. -/
theorem reads_or_refuses (word : String) :
    (∃ a, Reads word a) ∨ IsRefused word := by
  by_cases hcolon : ':' ∈ word.toList
  · obtain ⟨kind, body, hword⟩ := exists_announces hcolon
    by_cases hvalued : kind ∈ [['i'], ['b'], ['f'], ['c']]
    · exact reads_or_refuses_of_valued hword hvalued
    · by_cases htext : kind = ['s']
      · subst htext
        exact .inl ⟨_, .text hword⟩
      · by_cases htag : ∃ digits n, kind = 't' :: digits ∧ SpellsTag digits n
        · obtain ⟨digits, n, rfl, hn⟩ := htag
          have hle : n ≤ 255 := by
            obtain ⟨-, -, -, -, -, -, hle⟩ := hn
            exact hle
          have hbyte : (UInt8.ofNat n).toNat = n := UInt8.toNat_ofNat_of_lt' (Nat.lt_succ_of_le hle)
          exact .inl ⟨_, .tagged hword (hbyte.symm ▸ hn)⟩
        · refine .inl ⟨_, .plain hword ⟨?_, fun digits n hk hn => htag ⟨digits, n, hk, hn⟩⟩⟩
          simp only [List.mem_cons, List.not_mem_nil, or_false, not_or] at hvalued ⊢
          exact ⟨hvalued.1, hvalued.2.1, hvalued.2.2.1, hvalued.2.2.2, htext⟩
  · exact .inl ⟨_, .unannounced hcolon⟩

theorem typed_eq_ok_iff {word : String} {a : Argument} :
    typed word = .ok a ↔ Reads word a := by
  refine ⟨fun htyped => ?_, typed_of_reads⟩
  rcases reads_or_refuses word with ⟨b, hb⟩ | ⟨what, hwhat⟩
  · rw [typed_of_reads hb] at htyped
    exact Except.ok.inj htyped ▸ hb
  · rw [typed_of_refuses hwhat] at htyped
    cases htyped

theorem typed_eq_error_iff {word : String} {f : Failure} :
    typed word = .error f ↔
      ∃ what, Refuses word what ∧ f.Says .words s!"'{word}' is not a valid {what}" := by
  constructor
  · intro htyped
    rcases reads_or_refuses word with ⟨b, hb⟩ | ⟨what, hwhat⟩
    · rw [typed_of_reads hb] at htyped
      cases htyped
    · rw [typed_of_refuses hwhat] at htyped
      obtain rfl := Except.error.inj htyped
      exact ⟨what, hwhat, rfl, rfl⟩
  · rintro ⟨what, hwhat, hf⟩
    rw [hf.eq]
    exact typed_of_refuses hwhat

/-! ## Pieces and whole lists -/

/-- The piece makes a command: it is not empty, and in typed mode none of its words
but the first is refused. -/
def Accepts (isTyped : Bool) (segment : List String) : Prop :=
  segment ≠ [] ∧ (isTyped = true → ∀ word ∈ segment.tail, ¬IsRefused word)

/-- What is reported of a piece that makes no command: that there is none, or the
leftmost word that is refused, and what it should have been. -/
inductive Blames (isTyped : Bool) : List String → Failure → Prop where
  | empty {f : Failure} (hf : f.Says .words "expected a command next to an operator") :
      Blames isTyped [] f
  | word {path word what : String} {before after : List String} {f : Failure}
      (htyped : isTyped = true) (hbefore : ∀ w ∈ before, ¬IsRefused w)
      (hword : Refuses word what) (hf : f.Says .words s!"'{word}' is not a valid {what}") :
      Blames isTyped (path :: (before ++ word :: after)) f

variable {isTyped : Bool}

theorem failure?_argument (word : String) :
    failure? (argument isTyped word) = none ↔
      (isTyped = true → ¬IsRefused word) := by
  cases isTyped with
  | false => simp [argument, failure?]
  | true =>
      have hiff : failure? (typed word) = none ↔ ¬IsRefused word := by
        rw [Option.eq_none_iff_forall_ne_some]
        simp only [ne_eq, failure?_eq_some_iff, typed_eq_error_iff, IsRefused]
        constructor
        · rintro h ⟨what, hwhat⟩
          exact h ⟨_, _⟩ ⟨what, hwhat, rfl, rfl⟩
        · rintro h f ⟨what, hwhat, -⟩
          exact h ⟨what, hwhat⟩
      simpa [argument] using hiff

/-- A command fails with its leftmost word. -/
theorem failure?_command (path : String) (args : List String) :
    failure? (command isTyped (path :: args))
      = args.findSome? fun word => failure? (argument isTyped word) := by
  rw [← failure?_mapM, command]
  cases args.mapM (argument isTyped) <;> rfl

theorem failure?_command_eq_none_iff {segment : List String} :
    failure? (command isTyped segment) = none ↔ Accepts isTyped segment := by
  cases segment with
  | nil => simp [command, failure?, Accepts]
  | cons path args =>
      rw [failure?_command, List.findSome?_eq_none_iff]
      simp only [failure?_argument, Accepts, List.tail_cons]
      constructor
      · exact fun h => ⟨List.cons_ne_nil _ _, fun htyped word hword => h word hword htyped⟩
      · exact fun h word hword htyped => h.2 htyped word hword

theorem failure?_command_eq_some_iff {segment : List String} {f : Failure} :
    failure? (command isTyped segment) = some f ↔ Blames isTyped segment f := by
  constructor
  · intro hfails
    cases segment with
    | nil =>
        obtain rfl := Option.some.inj hfails
        exact .empty ⟨rfl, rfl⟩
    | cons path args =>
        rw [failure?_command, List.findSome?_eq_some_iff] at hfails
        obtain ⟨before, word, after, rfl, hword, hbefore⟩ := hfails
        cases isTyped with
        | false => cases hword
        | true =>
            obtain ⟨what, hwhat, hf⟩ := typed_eq_error_iff.mp (failure?_eq_some_iff.mp hword)
            exact .word rfl (fun w hw => (failure?_argument w).mp (hbefore w hw) rfl) hwhat hf
  · intro hblames
    cases hblames with
    | empty hf =>
        rw [hf.eq]
        rfl
    | @word path word what before after f htyped hbefore hword hf =>
        rw [failure?_command, List.findSome?_eq_some_iff]
        refine ⟨before, word, after, rfl, ?_, fun w hw => ?_⟩
        · rw [failure?_eq_some_iff, htyped]
          exact typed_eq_error_iff.mpr ⟨what, hword, hf⟩
        · exact (failure?_argument w).mpr fun _ => hbefore w hw

/-- **A word list fails with its leftmost piece.** -/
theorem failure?_parse (words : List String) :
    failure? (parse isTyped words)
      = (segments words).findSome? fun segment => failure? (command isTyped segment) := by
  refine level_induction (P := fun ops words => failure? (parseLevel isTyped ops words)
    = (segments words).findSome? fun segment => failure? (command isTyped segment))
    ?_ ?_ precedence ?_ mem_precedence_of_isOperator
  · intro op ops words hop ih
    rw [parseLevel_of_not_mem hop, ih]
  · intro op ops left right hright ihl ihr
    rw [parseLevel_append left hright, failure?_bind_pure, ihl, ihr,
      segments_append (isOperator_symbol op), List.findSome?_append]
  · intro words hplain
    rw [segments_of_plain hplain, parseLevel, List.findSome?_singleton]

/-- What is blamed on a piece is told in one note, and that names the word if there is one. -/
theorem Blames.says {segment : List String} {f : Failure} (hblames : Blames isTyped segment f) :
    f.kind = .words ∧
      (segment = [] ∧ f.notes = ["expected a command next to an operator"] ∨
        ∃ word ∈ segment.tail, ∃ what,
          Refuses word what ∧ f.notes = [s!"'{word}' is not a valid {what}"]) := by
  cases hblames with
  | empty hf => exact ⟨hf.1, .inl ⟨rfl, hf.2⟩⟩
  | word _ _ hword hf =>
      exact ⟨hf.1, .inr ⟨_, List.mem_append_right _ List.mem_cons_self, _, hword, hf.2⟩⟩

/-- **A word list is read just when every piece between operators is accepted, and
of any other the leftmost piece that is not is reported.**  What is blamed on that
piece is that it is empty, or the leftmost of its words that is refused, and the note
says so.  A word is refused only if it announces a whole number, a truth, a number or a
character and spells none; every other word stands for what it announces, or for
itself. -/
theorem parse_outcome (isTyped : Bool) (words : List String) :
    ((∃ e, parse isTyped words = .ok e) ↔
        ∀ segment ∈ segments words, Accepts isTyped segment) ∧
      (∀ f, parse isTyped words = .error f ↔
        ∃ before segment after, segments words = before ++ segment :: after ∧
          (∀ s ∈ before, Accepts isTyped s) ∧ Blames isTyped segment f) ∧
      (∀ f, parse isTyped words = .error f → f.kind = .words ∧
        (f.notes = ["expected a command next to an operator"] ∨
          ∃ word what, Refuses word what ∧ f.notes = [s!"'{word}' is not a valid {what}"])) ∧
      ∀ word,
        (∀ f, typed word = .error f ↔
          ∃ what, Refuses word what ∧ f.Says .words s!"'{word}' is not a valid {what}") ∧
        ∀ a, typed word = .ok a ↔ Reads word a := by
  have herror : ∀ f, parse isTyped words = .error f ↔
      ∃ before segment after, segments words = before ++ segment :: after ∧
        (∀ s ∈ before, Accepts isTyped s) ∧ Blames isTyped segment f := by
    intro f
    rw [← failure?_eq_some_iff, failure?_parse, List.findSome?_eq_some_iff]
    simp only [failure?_command_eq_some_iff, failure?_command_eq_none_iff]
    constructor
    · rintro ⟨before, segment, after, hsplit, hblames, hbefore⟩
      exact ⟨before, segment, after, hsplit, hbefore, hblames⟩
    · rintro ⟨before, segment, after, hsplit, hbefore, hblames⟩
      exact ⟨before, segment, after, hsplit, hblames, hbefore⟩
  refine ⟨?_, herror, ?_, fun word => ⟨fun f => typed_eq_error_iff, fun a => typed_eq_ok_iff⟩⟩
  · rw [← failure?_eq_none_iff, failure?_parse, List.findSome?_eq_none_iff]
    simp only [failure?_command_eq_none_iff]
  · intro f hf
    obtain ⟨-, segment, -, -, -, hblames⟩ := (herror f).mp hf
    obtain ⟨hkind, ⟨-, hnotes⟩ | ⟨word, -, what, hword, hnotes⟩⟩ := hblames.says
    · exact ⟨hkind, .inl hnotes⟩
    · exact ⟨hkind, .inr ⟨word, what, hword, hnotes⟩⟩

/-- A tag too great for a byte is plain text.  The truth is to the left of the number
that is none either, and of the piece without a command. -/
theorem parse_outcome_sample :
    parse true ["a", "t256:x", ";", "b", "s:1", "b:-", "f:.", "|", "|", "c"]
      = .error ⟨.words, ["'b:-' is not a valid boolean"]⟩ := by
  have hbefore : ∀ w ∈ ["s:1"], ¬IsRefused w := by
    intro w hw
    obtain rfl := List.mem_singleton.mp hw
    exact (failure?_argument _).mp (by decide) rfl
  have hword : Announces "b:-" ['b'] ['-'] := ⟨by decide, by decide⟩
  have hrefuses : Refuses "b:-" "boolean" :=
    .boolean hword (mt Literal.isSome_int64?_iff.mpr (by decide))
  have hblames : Blames true ("b" :: (["s:1"] ++ "b:-" :: ["f:."]))
      ⟨.words, ["'b:-' is not a valid boolean"]⟩ := .word rfl hbefore hrefuses ⟨rfl, rfl⟩
  have haccepts : ∀ segment ∈ [["a", "t256:x"]], Accepts true segment := by
    intro segment hsegment
    obtain rfl := List.mem_singleton.mp hsegment
    exact failure?_command_eq_none_iff.mp (by decide)
  exact ((parse_outcome true _).2.1 _).mpr
    ⟨[["a", "t256:x"]], _, [[], ["c"]], by decide, haccepts, hblames⟩

end Words

end CommandExpr
