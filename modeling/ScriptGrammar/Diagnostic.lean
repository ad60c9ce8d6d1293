import ScriptGrammar.Message
import ScriptGrammar.Range

/-!
# Diagnostics

A diagnostic is a range, a message and arguments. The arguments are put into the template one
after another over the whole text, so a placeholder inside an argument is itself filled by a
later one.
-/

namespace ScriptGrammar

/-- Replaces every occurrence of `word`, leftmost first, without rereading what was put in. -/
def replaceWord (word new : List Char) : (fuel : Nat) → List Char → List Char
  | 0, text => text
  | _ + 1, [] => []
  | fuel + 1, c :: cs =>
    if word.isPrefixOf (c :: cs) then
      new ++ replaceWord word new fuel ((c :: cs).drop word.length)
    else c :: replaceWord word new fuel cs

/-- The placeholder of argument `i`: its number in braces. -/
def placeholder (i : Nat) : List Char := '\x7b' :: (Nat.toDigits 10 i ++ ['\x7d'])

/-- Puts the arguments into the template, the first one numbered `i`. -/
def interpolateFrom (i : Nat) (text : List Char) : List String → List Char
  | [] => text
  | a :: rest =>
    interpolateFrom (i + 1) (replaceWord (placeholder i) a.toList text.length text) rest

def interpolate (template : String) (args : List String) : String :=
  String.ofList (interpolateFrom 0 template.toList args)

structure Diagnostic where
  range : Range
  message : Message
  args : List String
deriving DecidableEq, Inhabited

namespace Diagnostic

variable (d : Diagnostic)

def code : Nat := d.message.code

def category : Category := d.message.category

def isError : Bool := d.category == .error

def text : String := interpolate d.message.template d.args

/-- One line: position, category, number and text. -/
def line : String :=
  "(" ++ toString d.range.pos ++ "): " ++ d.category.text ++ " TS" ++ toString d.code ++ ": " ++
    d.text

end Diagnostic

/-- Diagnostics in the order they were reported. -/
abbrev Diagnostics := Array Diagnostic

namespace Diagnostics

def report (ds : Diagnostics) (range : Range) (message : Message) (args : List String) :
    Diagnostics := ds.push ⟨range, message, args⟩

/-- Keeps the first `n`. -/
def truncate (ds : Diagnostics) (n : Nat) : Diagnostics := ds.take n

def hasErrors (ds : Diagnostics) : Bool := ds.any (·.isError)

def errorCount (ds : Diagnostics) : Nat := ds.countP (·.isError)

/-- By position, then by end; equal ranges keep their order. -/
def sort (ds : Diagnostics) : Diagnostics :=
  let inOrder (a b : Range) : Bool := a.pos < b.pos || (a.pos == b.pos && a.stop ≤ b.stop)
  (ds.toList.mergeSort fun a b => inOrder a.range b.range).toArray

end Diagnostics
end ScriptGrammar
