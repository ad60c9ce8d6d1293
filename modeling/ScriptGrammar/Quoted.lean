import ScriptGrammar.Letter
import ScriptGrammar.Letter.Shapeless

/-!
# Quoted text

Two ways to write a text between double quotes on one line: as it stands in listings, and as it
stands in reports.
-/

namespace ScriptGrammar

namespace Quoted

def backslash : Char := '\x5c'

/-- The code of a character in hexadecimal, in braces. -/
def bracedCode (c : Char) : List Char :=
  [backslash, 'u', '\x7b'] ++ Nat.toDigits 16 c.toNat ++ ['\x7d']

def isShapeless (c : Char) : Bool :=
  c.toNat < 0x20 || c.toNat == 0x7f || (!isAscii c && inRanges shapelessRanges c)

/-- A character in a listing. -/
def listed (c : Char) : List Char :=
  match c with
  | '\x22' => [backslash, '\x22']
  | '\x5c' => [backslash, backslash]
  | '\n' => [backslash, 'n']
  | '\r' => [backslash, 'r']
  | '\t' => [backslash, 't']
  | '\x00' => [backslash, '0']
  | _ => if isShapeless c then bracedCode c else [c]

/-- The code of a control character in four digits. -/
def fourDigits (c : Char) : List Char :=
  let digits := Nat.toDigits 16 c.toNat
  [backslash, 'u'] ++ List.replicate (4 - digits.length) '0' ++ digits

/-- A character in a report. -/
def reported (c : Char) : List Char :=
  match c with
  | '\x22' => [backslash, '\x22']
  | '\x5c' => [backslash, backslash]
  | '\n' => [backslash, 'n']
  | '\r' => [backslash, 'r']
  | '\t' => [backslash, 't']
  | '\x08' => [backslash, 'b']
  | '\x0c' => [backslash, 'f']
  | _ => if c.toNat < 0x20 then fourDigits c else [c]

def between (write : Char → List Char) (text : String) : String :=
  String.ofList ('\x22' :: (text.toList.flatMap write ++ ['\x22']))

end Quoted

def quoteListed (text : String) : String := Quoted.between Quoted.listed text

def quoteReported (text : String) : String := Quoted.between Quoted.reported text

end ScriptGrammar
