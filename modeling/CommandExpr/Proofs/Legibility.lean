import CommandExpr.Expression

/-!
# Compositions read back from their texts

A composition is shown with every operator in parentheses, and nothing in the
text says where a path begins or ends but the spaces and parentheses around it.
As long as no path has one of these characters, they are enough: the text tells
the composition, except for the arguments, which it does not show.  This holds
for an empty path and for a path that looks like an operator as for all others.

The step is about a text that goes on: two compositions followed by anything a
composition can be followed by, a space or a closing parenthesis, are one and
the same when the whole texts are, and then so is what follows.

## Main results

* `Expression.toList_display_binary` — the characters of an operator's text.
* `Expression.eq_of_display_append` — a composition is read off the front of a
  longer text in one way only.
* `Expression.display_eq_iff` — the text tells the shape, the operators and the
  paths.
-/

namespace CommandExpr.Expression

/-! ## What a text shows -/

/-- The composition with the arguments of its commands left out. -/
def outline : Expression → Expression
  | simple c => simple (.bare c.path)
  | binary op left right => binary op left.outline right.outline

/-- Is the character one of those that hold a text apart? -/
def IsMark (ch : Char) : Prop := ch = ' ' ∨ ch = '(' ∨ ch = ')'

instance (ch : Char) : Decidable (IsMark ch) := inferInstanceAs (Decidable (_ ∨ _))

/-- Is there no mark in the text? -/
def IsUnmarked (s : List Char) : Prop := ∀ ch ∈ s, ¬ IsMark ch

instance (s : List Char) : Decidable (IsUnmarked s) := List.decidableBAll _ s

/-- Does none of the commands have a mark in its path? -/
def IsLegible (e : Expression) : Prop := ∀ c ∈ e.leaves, IsUnmarked c.path.toList

instance (e : Expression) : Decidable e.IsLegible := List.decidableBAll _ e.leaves

theorem isLegible_binary {op : Operator} {left right : Expression} :
    (binary op left right).IsLegible ↔ left.IsLegible ∧ right.IsLegible := by
  simp only [IsLegible, leaves, List.forall_mem_append]

theorem display_outline (e : Expression) : e.outline.display = e.display := by
  induction e with
  | simple c => rfl
  | binary op left right ihl ihr => simp only [outline, display, ihl, ihr]

theorem toList_display_binary (op : Operator) (left right : Expression) :
    (binary op left right).display.toList =
      '(' :: (left.display.toList ++ ' ' :: (op.symbol.toList ++
        ' ' :: (right.display.toList ++ [')']))) := by
  simp only [display, toString, String.toList_append, List.append_assoc]
  rfl

/-! ## Where a word ends -/

/-- Is the text empty, or does it begin with a mark? -/
def Breaks (s : List Char) : Prop := ∀ ch ∈ s.head?, IsMark ch

/-- A word without marks ends where the first mark stands. -/
theorem append_inj_of_breaks {w v s t : List Char} (hw : IsUnmarked w) (hv : IsUnmarked v)
    (hs : Breaks s) (ht : Breaks t) (h : w ++ s = v ++ t) : w = v ∧ s = t := by
  rcases List.append_eq_append_iff.mp h with ⟨a, rfl, rfl⟩ | ⟨a, rfl, rfl⟩
  · cases a with
    | nil => exact ⟨(List.append_nil w).symm, rfl⟩
    | cons ch a => exact absurd (hs ch rfl) (hv ch (by simp))
  · cases a with
    | nil => exact ⟨List.append_nil v, rfl⟩
    | cons ch a => exact absurd (ht ch rfl) (hw ch (by simp))

theorem isUnmarked_symbol (op : Operator) : IsUnmarked op.symbol.toList := by
  cases op <;> decide

/-! ## Reading back -/

/-- Can the text follow that of a composition? -/
def Closes (s : List Char) : Prop := ∀ ch ∈ s.head?, ch = ' ' ∨ ch = ')'

theorem Closes.breaks {s : List Char} (hs : Closes s) : Breaks s := fun ch hch =>
  (hs ch hch).imp_right .inr

theorem closes_nil : Closes [] := nofun

theorem closes_space (s : List Char) : Closes (' ' :: s) := fun _ hch =>
  .inl (Option.some.inj hch).symm

theorem closes_paren (s : List Char) : Closes (')' :: s) := fun _ hch =>
  .inr (Option.some.inj hch).symm

/-- A path is not read where a parenthesis opens. -/
theorem path_append_ne {w s t : List Char} (hw : IsUnmarked w) (hs : Closes s) :
    w ++ s ≠ '(' :: t := by
  intro h
  cases w with
  | nil =>
      obtain rfl : s = '(' :: t := h
      exact absurd (hs '(' rfl) (by decide)
  | cons ch w =>
      have hopen := (List.cons.inj h).1
      exact hw ch List.mem_cons_self (.inr (.inl hopen))

/--
**Where two texts agree, so do the compositions in front and what follows.**  By
induction on the first composition: its left operand ends where that of the
second ends, its operator is then read up to the same space, and its right
operand follows.
-/
theorem eq_of_display_append {e f : Expression} {s t : List Char} (he : e.IsLegible)
    (hf : f.IsLegible) (hs : Closes s) (ht : Closes t)
    (h : e.display.toList ++ s = f.display.toList ++ t) : e.outline = f.outline ∧ s = t := by
  induction e generalizing f s t with
  | simple c =>
      have hc := he c List.mem_cons_self
      cases f with
      | simple d =>
          obtain ⟨hpath, hrest⟩ := append_inj_of_breaks hc (hf d List.mem_cons_self) hs.breaks
            ht.breaks h
          exact ⟨by rw [outline, outline, String.toList_injective hpath], hrest⟩
      | binary op left right =>
          rw [toList_display_binary] at h
          exact absurd h (path_append_ne hc hs)
  | binary op left right ihl ihr =>
      obtain ⟨hleft, hright⟩ := isLegible_binary.mp he
      cases f with
      | simple d =>
          rw [toList_display_binary] at h
          exact absurd h.symm (path_append_ne (hf d List.mem_cons_self) ht)
      | binary op' left' right' =>
          obtain ⟨hleft', hright'⟩ := isLegible_binary.mp hf
          simp only [toList_display_binary, List.cons_append, List.append_assoc,
            List.cons.injEq, true_and, List.nil_append] at h
          obtain ⟨hl, hafterLeft⟩ := ihl hleft hleft' (closes_space _) (closes_space _) h
          obtain ⟨hsymbol, hafterOp⟩ := append_inj_of_breaks (isUnmarked_symbol op)
            (isUnmarked_symbol op') (closes_space _).breaks (closes_space _).breaks
            (List.cons.inj hafterLeft).2
          obtain ⟨hr, hafterRight⟩ := ihr hright hright' (closes_paren _) (closes_paren _)
            (List.cons.inj hafterOp).2
          have hop : op = op' := Operator.symbol_inj (String.toList_injective hsymbol)
          exact ⟨by rw [outline, outline, hop, hl, hr], (List.cons.inj hafterRight).2⟩

/--
**The text of a composition tells its shape, its operators and its paths.**  Two
compositions whose paths have no space and no parenthesis are shown alike just
when they are the same but for the arguments of their commands.
-/
theorem display_eq_iff {e f : Expression} (he : e.IsLegible) (hf : f.IsLegible) :
    e.display = f.display ↔ e.outline = f.outline := by
  constructor
  · intro h
    exact (eq_of_display_append he hf closes_nil closes_nil (by rw [h])).1
  · intro h
    rw [← display_outline e, h, display_outline f]

/-- Two groupings of the same commands, one without a name and two named like operators. -/
theorem display_ne_of_groupings :
    (binary .pipe (binary .pipe (simple (.bare "")) (simple (.bare "|")))
        (simple (.bare "+"))).display ≠
      (binary .pipe (simple (.bare ""))
        (binary .pipe (simple (.bare "|")) (simple (.bare "+")))).display :=
  mt (display_eq_iff (by decide) (by decide)).mp (by decide)

-- A path with marks can be mistaken for a composition.
example : (simple (.bare "(a + b)")).display =
    (binary .concat (simple (.bare "a")) (simple (.bare "b"))).display := by decide

end CommandExpr.Expression
