import ScriptGrammar.Parse.Element
import ScriptGrammar.Parse.Expression
import ScriptGrammar.Parse.Primary
import ScriptGrammar.Parse.Statement

/-!
# Parsing a source

The goals are answered with a bound on the recursion, well above what a source asks for: between
two tokens only a few goals follow one another. Reaching it would show in `exhausted`, a loop
that turns without taking anything in `stalled`.
-/

namespace ScriptGrammar

namespace Parser

/-- The production of a goal. -/
def step [Grammar] : Goal → Parser Node
  | .statement => statementStep
  | .assignment arrowTypes => assignmentStep arrowTypes
  | .binary min arrowTypes => binaryStep min arrowTypes
  | .unary => unaryStep
  | .primary => primaryStep
  | .type => typeStep
  | .typeOperand min => typeOperandStep min
  | .binding => bindingStep
  | .element inExpression => elementStep inExpression
  | .namespaceTail named => namespaceTailStep named

/-- What stands for a goal beyond the bound. -/
def starved : Parser Node := do
  starve
  missingIdentifier

def goal : (fuel : Nat) → Goal → Parser Node
  | 0, _ => starved
  | fuel + 1, g => delay fun _ => @step ⟨goal fuel⟩ g

/-- All statements and the end of the source. -/
def document [Grammar] : Parser Node := do
  next
  let start ← nodeStart
  let statements ← listOf .sourceElements statement
  let inner ← nodeStart
  let last ← build .endOfFileToken inner []
  let info ← close .sourceFile start
  let size ← read (·.scanner.source.size)
  let failed ← read (!·.diagnostics.isEmpty)
  let variant := (← options).variant
  return .ofSlots
    { info with
      range := ⟨0, size⟩
      flags := { info.flags with hasError := false, containsError := failed } }
    (.variant variant) [.list .statements statements, .one .endOfFileToken last]

end Parser

/-- What a parse gives. -/
structure Document where
  source : Source
  root : Node
  diagnostics : Diagnostics
  names : NameTable
  /-- What was ever reported, in attempts given up as well. -/
  reports : Diagnostics
  /-- A recursion bound was reached. -/
  exhausted : Bool
  /-- A loop went on without taking a token. -/
  stalled : Bool
  /-- The scanner cut inside a character. -/
  torn : Bool

namespace Document

/-- More levels than the goals of a source can be nested. -/
def depthBound (src : Source) : Nat := 64 * (src.size + 4)

/-- The tree of a source, and the state the parse ends in. -/
def run (names : NameTable) (options : Options) (src : Source) : Node × Parse.State :=
  (@Parser.document ⟨Parser.goal (depthBound src)⟩).run (.ofSource options names src)

/-- Parses a source. The names of earlier parses keep their keys. -/
def parseWith (names : NameTable) (options : Options) (src : Source) : Document :=
  let (root, s) := run names options src
  { source := src, root, diagnostics := s.diagnostics, names := s.names
    reports := s.reports, exhausted := s.exhausted, stalled := s.stalled, torn := s.scanner.torn }

def parse (options : Options) (src : Source) : Document := parseWith {} options src

def hasErrors (d : Document) : Bool := d.diagnostics.hasErrors

end Document
end ScriptGrammar
