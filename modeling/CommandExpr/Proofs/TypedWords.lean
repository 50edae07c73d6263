import CommandExpr.Proofs.Grammar
import CommandExpr.Proofs.Numerals
import CommandExpr.Proofs.Texts

/-!
# Word lists of typed arguments

In typed mode a word may announce of which kind its argument is.  Nearly every
argument can be written as such a word (`Argument.word`): whole numbers by their
digits, floating-point numbers by their exact value, characters and texts as they
are after a letter and a colon.  A text so written is never taken for an operator
or for another announcement, because only the first colon counts.

What cannot be written is what no word stands for: a character of more than one
byte, a text under a tag that does not take one, and the numbers that are none,
but for one of each sign.  Reading yields the arguments that can be written and no
others (`Words.typed_word`, `Words.isWritable_of_typed`), and so the compositions of
them in normal form.

## Main definitions

* `Argument.word` — the word of an argument
* `Argument.IsWritable` — the arguments that are read from words
* `Expression.typedWords` — the words of a composition

## Main results

* `Words.typed_word`, `Words.isWritable_of_typed` — the arguments that words stand for.
* `Words.spells_typedWords`, `Words.Spells.isWritable` — the same for compositions.
* `Words.parse_typed_image` — which compositions typed words are read as.
-/

namespace CommandExpr

/-! ## The word of an argument -/

/-- The word of a value: the letter of its kind, a colon, and the value. -/
def Value.word : Value → List Char
  | int n => 'i' :: ':' :: Numeral.integer n.toInt
  | float x => 'f' :: ':' :: x.exact
  | bool b => ['b', ':', if b then '1' else '0']
  | char byte => ['c', ':', Char.ofNat byte.toNat]
  | str s => 's' :: ':' :: s.toList

namespace Argument

/-- The word of an argument.  One that is not recognized is a tag with no text. -/
def word : Argument → String
  | typed v => String.ofList v.word
  | unrecognized tag => String.ofList ('t' :: Numeral.whole tag.toNat ++ [':'])

/-- Some word stands for the argument. -/
def IsWritable : Argument → Prop
  | typed (.char byte) => byte < 128
  | typed (.float x) => x.IsReadable
  | typed _ => True
  | unrecognized tag => tag ≠ Kind.str.tag

instance : (a : Argument) → Decidable a.IsWritable
  | typed (.char byte) => inferInstanceAs (Decidable (byte < 128))
  | typed (.float x) => inferInstanceAs (Decidable x.IsReadable)
  | typed (.int _) | typed (.bool _) | typed (.str _) => isTrue trivial
  | unrecognized tag => inferInstanceAs (Decidable (tag ≠ Kind.str.tag))

end Argument

/-! ## What a tag and a payload stand for -/

theorem Kind.eq_tag_of_ofTag? {tag : UInt8} {k : Kind} (hk : ofTag? tag = some k) :
    tag = k.tag := by
  unfold ofTag? at hk
  repeat' split at hk
  all_goals cases hk
  all_goals assumption

namespace Argument

/-- A text is kept only under the tag of texts. -/
theorem ofRaw_text {tag : UInt8} (htag : tag ≠ Kind.str.tag) (s : String) :
    ofRaw tag (.text s) = unrecognized tag := by
  unfold ofRaw
  cases hkind : Kind.ofTag? tag with
  | none => rfl
  | some k =>
      cases k with
      | str => exact absurd (Kind.eq_tag_of_ofTag? hkind) htag
      | int | float | bool | char => rfl

/-- Some word announces the payload. -/
def IsAnnounced : Payload → Prop
  | .byte b => b < 128
  | .float x => x.IsReadable
  | .int _ | .text _ => True

/-- The value of a payload that was announced can be written. -/
theorem isWritable_of_valueOf? {k : Kind} {payload : Payload} {v : Value}
    (hp : IsAnnounced payload) (hv : valueOf? k payload = some v) :
    (typed v).IsWritable := by
  cases k <;> cases payload <;> cases hv
  case float.float => exact hp
  case char.byte => exact hp
  all_goals trivial

/-- A payload that was announced makes an argument that can be written, if texts
are all that comes under their tag. -/
theorem isWritable_ofRaw {tag : UInt8} {payload : Payload} (hp : IsAnnounced payload)
    (htag : tag = Kind.str.tag → ∃ s, payload = .text s) :
    (ofRaw tag payload).IsWritable := by
  unfold ofRaw
  cases hread : (Kind.ofTag? tag).bind (valueOf? · payload) with
  | some v =>
      obtain ⟨k, -, hv⟩ := Option.bind_eq_some_iff.mp hread
      exact isWritable_of_valueOf? hp hv
  | none =>
      rintro rfl
      obtain ⟨s, rfl⟩ := htag rfl
      cases hread

end Argument

namespace Words

/-! ## Reading one word -/

/-- A colon is no digit. -/
private theorem colon_not_mem_whole (n : Nat) : ∀ c ∈ Numeral.whole n, c ≠ ':' := by
  intro c hc hcolon
  have hdigit := Decimal.allDigits_whole n c hc
  rw [hcolon] at hdigit
  exact absurd hdigit (by decide)

/-- The word of an argument is read as the argument. -/
theorem typed_word {a : Argument} (ha : a.IsWritable) : typed a.word = .ok a := by
  match a with
  | .typed (.int n) =>
      simp [typed, Argument.word, Value.word, Numeral.int64?_integer, Argument.ofRaw,
        Kind.ofTag?_tag, Argument.valueOf?]
  | .typed (.float x) =>
      simp [typed, Argument.word, Value.word, Binary64.ofText?_exact ha, Argument.ofRaw,
        Kind.ofTag?_tag, Argument.valueOf?]
  | .typed (.bool b) => cases b <;> rfl
  | .typed (.char byte) =>
      simp [typed, Argument.word, Value.word, Bytes.ofString_char ha, Argument.ofRaw,
        Kind.ofTag?_tag, Argument.valueOf?]
  | .typed (.str s) =>
      simp [typed, Argument.word, Value.word, Argument.ofRaw, Kind.ofTag?_tag,
        Argument.valueOf?]
  | .unrecognized tag =>
      have hcolon : ∀ c ∈ 't' :: Numeral.whole tag.toNat, decide (c ≠ ':') = true := by
        simpa using colon_not_mem_whole tag.toNat
      unfold typed Argument.word
      simp only [String.toList_ofList, List.takeWhile_append_of_pos hcolon,
        List.dropWhile_append_of_pos hcolon]
      simp [Numeral.byte?_whole, Argument.ofRaw_text ha]

/-- What is read after a letter can be written. -/
private theorem isWritable_of_read {α : Type} {value? : Option α} {payload : α → Payload}
    {tag : UInt8} {f : Failure} {a : Argument}
    (hread : (match value? with
      | some v => Except.ok (Argument.ofRaw tag (payload v))
      | none => .error f) = .ok a)
    (hp : ∀ v, value? = some v → Argument.IsAnnounced (payload v))
    (htag : tag ≠ Kind.str.tag) : a.IsWritable := by
  cases hvalue : value? with
  | none =>
      rw [hvalue] at hread
      cases hread
  | some v =>
      rw [hvalue] at hread
      obtain rfl := Except.ok.inj hread
      exact Argument.isWritable_ofRaw (hp v hvalue) fun h => absurd h htag

/-- What a word is read as can be written. -/
theorem isWritable_of_typed {word : String} {a : Argument} (ha : typed word = .ok a) :
    a.IsWritable := by
  unfold typed at ha
  dsimp only at ha
  split at ha
  · obtain rfl := Except.ok.inj ha
    trivial
  · split at ha
    · exact isWritable_of_read ha (fun _ _ => trivial) (by decide)
    · exact isWritable_of_read ha (fun _ h => Binary64.isReadable_of_ofText? h) (by decide)
    · exact isWritable_of_read ha (fun _ _ => trivial) (by decide)
    · refine isWritable_of_read ha (fun v hv => ?_) (by decide)
      split at hv
      · next hbytes =>
          obtain rfl := Option.some.inj hv
          exact Bytes.lt_of_ofString hbytes
      · cases hv
    · obtain rfl := Except.ok.inj ha
      exact Argument.isWritable_ofRaw trivial fun _ => ⟨_, rfl⟩
    · split at ha <;> obtain rfl := Except.ok.inj ha
      · exact Argument.isWritable_ofRaw trivial fun _ => ⟨_, rfl⟩
      · trivial
    · obtain rfl := Except.ok.inj ha
      trivial

/-- A word with a colon is no operator. -/
theorem isOperator_of_colon {word : String} (hcolon : ':' ∈ word.toList) :
    isOperator word = false := by
  rw [Bool.eq_false_iff]
  intro hop
  obtain ⟨op, rfl⟩ := isOperator_iff.mp hop
  cases op <;> revert hcolon <;> decide

theorem isOperator_word (a : Argument) : isOperator a.word = false := by
  apply isOperator_of_colon
  cases a with
  | unrecognized tag => simp [Argument.word]
  | typed v => cases v <;> simp [Argument.word, Value.word]

end Words

/-! ## Compositions -/

/-- The words of a command: its path as it is, and those of its arguments. -/
def Command.typedWords (c : Command) : List String := c.path :: c.args.map Argument.word

/-- The words of a composition, the operators between those of its commands. -/
def Expression.typedWords : Expression → List String
  | simple c => c.typedWords
  | binary op left right => left.typedWords ++ op.symbol :: right.typedWords

/-- The path is no operator word, and all arguments can be written. -/
structure Command.IsWritable (c : Command) : Prop where
  path : Words.isOperator c.path = false
  args : ∀ a ∈ c.args, a.IsWritable

/-- All commands can be written. -/
def Expression.IsWritable (e : Expression) : Prop := ∀ c ∈ e.leaves, c.IsWritable

theorem Expression.isWritable_binary {op : Operator} {left right : Expression} :
    (binary op left right).IsWritable ↔ left.IsWritable ∧ right.IsWritable :=
  List.forall_mem_append

theorem Expression.isWritable_simple {c : Command} :
    (simple c).IsWritable ↔ c.IsWritable :=
  List.forall_mem_singleton

namespace Words

theorem mapM_argument_word {args : List Argument} (hargs : ∀ a ∈ args, a.IsWritable) :
    (args.map Argument.word).mapM (argument true) = .ok args := by
  induction args with
  | nil => rfl
  | cons a args ih =>
      rw [List.forall_mem_cons] at hargs
      have hword : argument true a.word = .ok a := typed_word hargs.1
      rw [List.map_cons, List.mapM_cons, hword, ih hargs.2]
      rfl

theorem isWritable_of_mapM {words : List String} {args : List Argument}
    (hargs : words.mapM (argument true) = .ok args) : ∀ a ∈ args, a.IsWritable := by
  induction words generalizing args with
  | nil =>
      obtain rfl := Except.ok.inj hargs
      exact List.forall_mem_nil _
  | cons w words ih =>
      rw [List.mapM_cons] at hargs
      cases hw : argument true w with
      | error f =>
          rw [hw] at hargs
          cases hargs
      | ok a =>
          cases hrest : words.mapM (argument true) with
          | error f =>
              rw [hw, hrest] at hargs
              cases hargs
          | ok rest =>
              rw [hw, hrest] at hargs
              obtain rfl := Except.ok.inj hargs
              exact List.forall_mem_cons.mpr ⟨isWritable_of_typed hw, ih hrest⟩

/-- The words of a command are read as the command. -/
theorem command_typedWords {c : Command} (hc : c.IsWritable) :
    command true c.typedWords = .ok (.simple c) := by
  rw [Command.typedWords, command, mapM_argument_word hc.args]
  rfl

/-- The first word of a command is its path, and its arguments can be written. -/
theorem of_command_typed {words : List String} {c : Command}
    (hc : command true words = .ok (.simple c)) :
    words.head? = some c.path ∧ ∀ a ∈ c.args, a.IsWritable := by
  cases words with
  | nil => cases hc
  | cons path words =>
      rw [command] at hc
      cases hargs : words.mapM (argument true) with
      | error f =>
          rw [hargs] at hc
          cases hc
      | ok args =>
          rw [hargs] at hc
          obtain rfl := Expression.simple.inj (Except.ok.inj hc)
          exact ⟨rfl, isWritable_of_mapM hargs⟩

/-- The words of a composition spell it. -/
theorem spells_typedWords {e : Expression} (he : e.IsWritable) :
    Spells true e e.typedWords := by
  induction e with
  | simple c =>
      have hc := Expression.isWritable_simple.mp he
      refine .command (List.forall_mem_cons.mpr ⟨hc.path, ?_⟩) (command_typedWords hc)
      exact List.forall_mem_map.mpr fun a _ => isOperator_word a
  | binary op left right ihl ihr =>
      obtain ⟨hl, hr⟩ := Expression.isWritable_binary.mp he
      exact .join (ihl hl) (ihr hr)

/-- What typed words spell can be written. -/
theorem Spells.isWritable {e : Expression} {words : List String}
    (hs : Spells true e words) : e.IsWritable := by
  induction hs with
  | @command c words hplain hc =>
      obtain ⟨hpath, hargs⟩ := of_command_typed hc
      exact Expression.isWritable_simple.mpr
        ⟨hplain _ (List.mem_of_head? hpath), hargs⟩
  | join _ _ ihl ihr => exact Expression.isWritable_binary.mpr ⟨ihl, ihr⟩

/-- The pieces of the words begin with the paths of the commands, in their order. -/
theorem Spells.map_head? {e : Expression} {words : List String}
    (hs : Spells true e words) :
    (segments words).map List.head? = e.leaves.map fun c => some c.path := by
  induction hs with
  | command hplain hc =>
      rw [segments_of_plain hplain, List.map_singleton, (of_command_typed hc).1]
      rfl
  | @join op _ _ _ _ _ _ ihl ihr =>
      rw [segments_append (isOperator_symbol op), Expression.leaves,
        List.map_append, List.map_append, ihl, ihr]

/-- **Typed words are read as the compositions in normal form that can be written,
and as no others.**  Such a composition is read from its words, in which every
argument is announced and spelled out exactly.  Whatever words are read, what comes
out can be written: no character of it is beyond the ASCII ones, nothing is kept
under the tag of texts but texts, and the paths are the first words of the pieces,
as they are. -/
theorem parse_typed_image (e : Expression) :
    (e.IsNormal ∧ e.IsWritable → parse true e.typedWords = .ok e) ∧
      ((∃ words, parse true words = .ok e) ↔ e.IsNormal ∧ e.IsWritable) ∧
        ∀ words, parse true words = .ok e →
          (segments words).map List.head? = e.leaves.map fun c => some c.path := by
  have hwrite : e.IsNormal ∧ e.IsWritable → parse true e.typedWords = .ok e :=
    fun ⟨hnormal, he⟩ => parse_eq_ok_iff.mpr ⟨hnormal, spells_typedWords he⟩
  refine ⟨hwrite, ⟨?_, fun he => ⟨_, hwrite he⟩⟩, ?_⟩
  · rintro ⟨words, hwords⟩
    obtain ⟨hnormal, hs⟩ := parse_eq_ok_iff.mp hwords
    exact ⟨hnormal, hs.isWritable⟩
  · intro words hwords
    exact (parse_eq_ok_iff.mp hwords).2.map_head?

/-- The least number of all, a text that is an operator word, a negative infinity,
and a text that its tag does not take. -/
theorem parse_typed_image_sample :
    parse true ["a", "i:-9223372036854775808", "s:|", "|", "i:7", "f:-inf", "+", "b",
        "t1:", "c:x", "b:1"]
      = .ok (.binary .concat
          (.binary .pipe
            (.simple ⟨"a", [.typed (.int Int64.minValue), .typed (.str "|")]⟩)
            (.simple ⟨"i:7", [.typed (.float (.infinity true))]⟩))
          (.simple ⟨"b", [.unrecognized 1, .typed (.char 120), .typed (.bool true)]⟩)) :=
  (parse_typed_image (.binary .concat
      (.binary .pipe
        (.simple ⟨"a", [.typed (.int Int64.minValue), .typed (.str "|")]⟩)
        (.simple ⟨"i:7", [.typed (.float (.infinity true))]⟩))
      (.simple ⟨"b", [.unrecognized 1, .typed (.char 120), .typed (.bool true)]⟩))).1
    ⟨by decide, Expression.isWritable_binary.mpr
      ⟨Expression.isWritable_binary.mpr
        ⟨Expression.isWritable_simple.mpr ⟨by decide, by decide⟩,
          Expression.isWritable_simple.mpr ⟨by decide, by decide⟩⟩,
        Expression.isWritable_simple.mpr ⟨by decide, by decide⟩⟩⟩

end Words

end CommandExpr
