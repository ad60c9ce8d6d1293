import ScriptGrammar.Diagnostic
import ScriptGrammar.Lines
import ScriptGrammar.Quoted

/-!
# Reports

The diagnostics of files as a text that other tools read: objects and lists, each entry on a
line of its own, two spaces further in than what holds it. A list without entries is closed at
once.
-/

namespace ScriptGrammar

inductive Datum where
  | number (n : Nat)
  | text (s : String)
  | list (entries : List Datum)
  | object (fields : List (String × Datum))

namespace Datum

def newLine (depth : Nat) : String := "\n" ++ String.ofList (List.replicate (2 * depth) ' ')

def enclose (opening closing : String) (depth : Nat) (entries : List String) : String :=
  if entries.isEmpty then opening ++ closing
  else
    opening ++ newLine (depth + 1) ++ String.intercalate ("," ++ newLine (depth + 1)) entries ++
      newLine depth ++ closing

mutual

def pretty (depth : Nat) : Datum → String
  | number n => toString n
  | text s => quoteReported s
  | list entries => enclose "[" "]" depth (prettyAll (depth + 1) entries)
  | object fields => enclose "\x7b" "\x7d" depth (prettyFields (depth + 1) fields)

def prettyAll (depth : Nat) : List Datum → List String
  | [] => []
  | d :: ds => d.pretty depth :: prettyAll depth ds

def prettyFields (depth : Nat) : List (String × Datum) → List String
  | [] => []
  | (name, d) :: ds => (quoteReported name ++ ": " ++ d.pretty depth) :: prettyFields depth ds

end

end Datum

/-- A position as line and column. -/
def Lines.datum (l : Lines) (pos : Nat) : Datum :=
  .object [("line", .number (l.lineOf pos)), ("column", .number (l.columnOf pos))]

def Range.datum (r : Range) : Datum := .object [("pos", .number r.pos), ("end", .number r.stop)]

def Message.datum (m : Message) : Datum :=
  .object [("code", .number m.code), ("category", .text m.category.text),
    ("message", .text m.template)]

def Diagnostic.datum (l : Lines) (d : Diagnostic) : Datum :=
  .object [("range", d.range.datum), ("message", d.message.datum),
    ("args", .list (d.args.map .text)), ("text", .text d.text),
    ("start", l.datum d.range.pos), ("end", l.datum d.range.stop)]

/-- The diagnostics of one file. -/
structure FileReport where
  file : String
  source : Source
  diagnostics : Diagnostics

def FileReport.datum (r : FileReport) : Datum :=
  let lines := Lines.ofSource r.source
  .object [("file", .text r.file), ("error_count", .number r.diagnostics.errorCount),
    ("diagnostics", .list (r.diagnostics.toList.map (·.datum lines)))]

def FileReport.render (rs : List FileReport) : String :=
  (Datum.list (rs.map FileReport.datum)).pretty 0

end ScriptGrammar
