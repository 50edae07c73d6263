import CommandExpr.Machine.Utility.Basic

/-!
# Scripts

What the shell runs: commands made of words, redirections and other commands.

## Main definitions

* `Piece`, `Word` — text that is expanded when a command is run
* `Redirect` — where a descriptor leads while a command runs
* `Command` — a command
-/

namespace CommandExpr.Machine.Shell

/-- What is done with the value of a parameter; `α` is what words in braces are made of. -/
inductive Modifier (α : Type) where
  /-- Nothing. -/
  | plain
  /-- Its length is taken. -/
  | length
  /-- A word takes part if it is unset, or if it is set, as a sign tells; with a colon, an empty
  value counts as unset. -/
  | fallback (sign : Char) (hasColon : Bool) (word : List α)
  /-- The shortest or the longest match of a pattern is cut off at one end. -/
  | strip (atEnd isLongest : Bool) (pattern : List α)
  /-- It is used in a way that makes no sense. -/
  | senseless

/-- A part of a word. -/
inductive Piece where
  /-- Text as it stands. -/
  | text (s : Chars) (isQuoted : Bool)
  /-- The value of a parameter. -/
  | parameter (name : Chars) (modifier : Modifier Piece) (isQuoted : Bool)
  /-- The output of a script. -/
  | output (script : Chars) (isQuoted : Bool)
  /-- The value of a computation. -/
  | arithmetic (pieces : List Piece) (isQuoted : Bool)

/-- A word: its parts in a row. -/
abbrev Word := List Piece

/-- How a redirection changes a descriptor. -/
inductive RedirectKind where
  | input | output | append | both
  /-- It writes to a file even if that is there and must not be overwritten. -/
  | overwrite
  /-- It becomes a copy of another descriptor, or is closed. -/
  | copy
  /-- It reads a text that stands in the script. -/
  | document
  deriving DecidableEq

/-- A redirection. -/
structure Redirect where
  /-- The descriptor that changes. -/
  fd : Nat
  /-- How it changes. -/
  kind : RedirectKind
  /-- The file, the other descriptor, or the text. -/
  word : Word

/-- A command. -/
inductive Command where
  /-- Assignments, then words of which the first names what is run; with the number of its line. -/
  | simple (line : Nat) (assignments : List (Chars × Word)) (words : List Word)
      (redirects : List Redirect)
  /-- Commands whose outputs feed each other; the outcome may be turned round. -/
  | pipeline (isNegated : Bool) (commands : List Command)
  /-- The second one runs if the first one succeeds. -/
  | both (first second : Command)
  /-- The second one runs if the first one fails. -/
  | either (first second : Command)
  /-- One after the other. -/
  | sequence (first second : Command)
  /-- The shell does not wait for it. -/
  | background (command : Command)
  /-- It runs in a process of its own. -/
  | subshell (command : Command)
  | cond (test yes : Command) (no : Option Command)
  | loop (isUntil : Bool) (test body : Command)
  /-- Once for each word, or for each argument of the script. -/
  | each (name : Chars) (words : Option (List Word)) (body : Command)
  /-- The first branch with a pattern that a word matches. -/
  | choose (word : Word) (branches : List (List Word × Option Command))
  /-- A function gets a body. -/
  | define (name : Chars) (body : Command)
  /-- With redirections, at a line. -/
  | redirected (line : Nat) (command : Command) (redirects : List Redirect)

end CommandExpr.Machine.Shell
