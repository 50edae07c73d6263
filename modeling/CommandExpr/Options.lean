import CommandExpr.Path
import CommandExpr.Text.Quoted

/-!
# Options of the command line

What a command line says, and the listing of it that is logged.
-/

namespace CommandExpr

/-- What a command line says. -/
structure Options where
  /-- Bytes kept from each capture. -/
  captureCap : Option Nat := none
  /-- Directory for relay files. -/
  relayDir : Option Path := none
  /-- Time for the evaluation, in milliseconds. -/
  timeout : Option Nat := none
  /-- Do argument words announce kinds? -/
  isTyped : Bool := false
  /-- Are the final status and the faults to be printed? -/
  isReporting : Bool := false
  /-- The words of the expression. -/
  words : List String := []
  deriving DecidableEq

namespace Listing

/-- A list laid out one item a line, each indented by one step; empty lists stay on one line. -/
def list (items : List String) : List String :=
  if items.isEmpty then ["[]"]
  else "[" :: items.map (fun item => s!"    {item},") ++ ["]"]

/-- A named field of a listing, its value laid out over one or more lines. -/
def field (name : String) : List String → List String
  | [] => []
  | first :: rest =>
    let lines := s!"{name}: {first}" :: rest
    (lines.dropLast ++ (lines.getLast?.map (· ++ ",")).toList).map ("    " ++ ·)

/-- An optional value laid out over one or more lines. -/
def option : Option String → List String
  | none => ["None"]
  | some value => ["Some(", s!"    {value},", ")"]

end Listing

/-- The lines that list the options. -/
def Options.listing (o : Options) : List String :=
  ["ShexprArgs \x7b"]
    ++ Listing.field "capture_cap" (Listing.option (o.captureCap.map toString))
    ++ Listing.field "relay_dir" (Listing.option (o.relayDir.map (Quoted.bytes ·.bytes)))
    ++ Listing.field "timeout_ms" (Listing.option (o.timeout.map toString))
    ++ Listing.field "typed" [toString o.isTyped]
    ++ Listing.field "report" [toString o.isReporting]
    ++ Listing.field "words" (Listing.list (o.words.map Quoted.text))
    ++ ["\x7d"]

end CommandExpr
