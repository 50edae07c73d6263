/-!
# Terminal styles

Colours and weights of text on a terminal, as escape sequences. A set of styles keeps the order in
which the styles were first added.
-/

namespace CommandExpr

/-- One terminal style. -/
inductive Style where
  /-- Undoes all styles. -/
  | reset
  | red | green | yellow | blue | magenta | cyan | bold | dim
  deriving DecidableEq

/-- The escape sequence that turns a style on. -/
def Style.sequence : Style → String
  | .reset => "\x1b[0m"
  | .red => "\x1b[31m"
  | .green => "\x1b[32m"
  | .yellow => "\x1b[33m"
  | .blue => "\x1b[34m"
  | .magenta => "\x1b[35m"
  | .cyan => "\x1b[36m"
  | .bold => "\x1b[1m"
  | .dim => "\x1b[2m"

/-- Distinct styles in the order of their first mention. -/
structure StyleSet where
  /-- The styles. -/
  styles : List Style
  nodup : styles.Nodup
  deriving DecidableEq

namespace StyleSet

/-- No style. -/
def empty : StyleSet := ⟨[], .nil⟩

/-- A further style; one that is in the set already changes nothing. -/
def insert (s : StyleSet) (style : Style) : StyleSet :=
  if h : style ∈ s.styles then s
  else ⟨s.styles ++ [style], by
    rw [List.nodup_append]
    exact ⟨s.nodup, by simp, fun a ha b hb hab => h (by simp_all)⟩⟩

/-- The styles of a list, each at its first mention. -/
def ofList (styles : List Style) : StyleSet := styles.foldl insert empty

/-- The escape sequences of the styles, in order. -/
def sequence (s : StyleSet) : String := String.join (s.styles.map Style.sequence)

/-- The text in the styles of the set, which end with it. -/
def apply (s : StyleSet) (text : String) : String :=
  s.sequence ++ text ++ Style.reset.sequence

end StyleSet

end CommandExpr
