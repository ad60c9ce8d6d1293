import ScriptGrammar.Folder
import ScriptGrammar.Listing
import ScriptGrammar.Report

/-!
# The command

What a run of the program answers, given its arguments and a way to load files. Files that
cannot be loaded are noted and left out. A run fails with 2 if a file has errors, else with 1 if
one could not be loaded.
-/

namespace ScriptGrammar

/-- What is printed of each file: its tree, its tokens, or nothing but diagnostics. -/
inductive Mode where
  | parse | tokens | check
deriving DecidableEq, Inhabited

def Mode.ofWord? : String → Option Mode
  | "parse" => some .parse
  | "tokens" => some .tokens
  | "check" => some .check
  | _ => none

structure Switches where
  jsx : Bool := false
  looseParens : Bool := false
  looseSemicolons : Bool := false
  bareTry : Bool := false
  json : Bool := false
  verbose : Bool := false
deriving DecidableEq, Inhabited

/-- The switches with one more set, if the argument is one. -/
def Switches.set? (s : Switches) : String → Option Switches
  | "--jsx" => some { s with jsx := true }
  | "--loose-parens" => some { s with looseParens := true }
  | "--loose-semicolons" => some { s with looseSemicolons := true }
  | "--bare-try" => some { s with bareTry := true }
  | "--json" => some { s with json := true }
  | "-v" | "--verbose" => some { s with verbose := true }
  | _ => none

structure Invocation where
  mode : Mode
  files : List String
  switches : Switches

namespace Invocation

/-- Sorts arguments into switches and words, in order. After `--` all are words. -/
def sort : Switches → List String → Option (Switches × List String)
  | s, [] => some (s, [])
  | s, "--" :: rest => some (s, rest)
  | s, a :: rest =>
    match s.set? a with
    | some t => sort t rest
    | none =>
      if a.startsWith "-" && a != "-" then none
      else (sort s rest).map fun (t, words) => (t, a :: words)

/-- The first word is the mode, the others are files, at least one. -/
def ofArgs? (args : List String) : Option Invocation := do
  let (switches, words) ← sort {} args
  match words with
  | word :: files =>
    let mode ← Mode.ofWord? word
    if files.isEmpty then none else some { mode, files, switches }
  | [] => none

end Invocation

/-- What stands behind the last dot of a file's name, unless the dot is its first character. -/
def extension? (path : String) : Option String :=
  let name := (path.toList.reverse.takeWhile (· != '/'))
  let tail := name.takeWhile (· != '.')
  if tail.length + 1 < name.length then some (String.ofList tail.reverse) else none

def variantOf (path : String) : Variant :=
  match extension? path with
  | some "tsx" | some "jsx" => .jsx
  | _ => .standard

def Switches.options (s : Switches) (path : String) : Options :=
  { variant := if s.jsx then .jsx else variantOf path
    looseParens := s.looseParens, looseSemicolons := s.looseSemicolons, bareTry := s.bareTry }

/-- A line for the user beside the output. -/
inductive Note where
  | failure (file : String) (e : LoadError)
  | diagnostic (file : String) (d : Diagnostic)
  | summary (errors : Nat)

def Note.line : Note → String
  | .failure file e => "error: " ++ e.text file
  | .diagnostic file d => file ++ ": " ++ d.line
  | .summary errors => s!"Found {errors} error" ++ (if errors == 1 then "." else "s.")

structure Outcome where
  exit : Nat
  notes : List Note
  output : String

/-- What one file gives. -/
structure FileOutcome where
  listing : String
  report : FileReport

def FileOutcome.ofText (inv : Invocation) (file text : String) : FileOutcome :=
  let source := Source.ofString text
  match inv.mode with
  | .tokens =>
    let l := TokenListing.ofSource source
    ⟨l.text, file, source, l.diagnostics⟩
  | .parse =>
    let d := Document.parse (inv.switches.options file) source
    ⟨d.listing, file, source, d.diagnostics⟩
  | .check =>
    let d := Document.parse (inv.switches.options file) source
    ⟨"", file, source, d.diagnostics⟩

namespace Invocation

/-- One file, loaded and handled. -/
structure Item where
  file : String
  outcome : Except LoadError FileOutcome

def Item.notes (json : Bool) (i : Item) : List Note :=
  match i.outcome with
  | .error e => [.failure i.file e]
  | .ok o => if json then [] else o.report.diagnostics.toList.map (.diagnostic i.file)

def Item.outcome? (i : Item) : Option FileOutcome := i.outcome.toOption

variable (inv : Invocation)

/-- The answer to a run whose files were loaded as given. -/
def answer (loaded : List (String × Except LoadError String)) : Outcome :=
  let items : List Item := loaded.map fun (file, text) => ⟨file, text.map (.ofText inv file)⟩
  let done := items.filterMap Item.outcome?
  let errors := done.foldl (fun n o => n + o.report.diagnostics.errorCount) 0
  let json := inv.switches.json
  { exit := if 0 < errors then 2 else if done.length < items.length then 1 else 0
    notes := items.flatMap (Item.notes json) ++
      (if 0 < errors && !json then [.summary errors] else [])
    output := String.join (done.map (·.listing)) ++
      (if json then FileReport.render (done.map (·.report)) ++ "\n" else "") }

end Invocation
end ScriptGrammar
