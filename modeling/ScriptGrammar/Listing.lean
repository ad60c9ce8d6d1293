import ScriptGrammar.Parse.Document
import ScriptGrammar.Quoted
import ScriptGrammar.Scanner.Tokens
import ScriptGrammar.Tree.Walk

/-!
# Listings

A source as text, one line for each token or for each node.
-/

namespace ScriptGrammar

def spaces (n : Nat) : String := String.ofList (List.replicate n ' ')

/-- At least `width` characters, the text on the right. -/
def alignRight (width : Nat) (text : String) : String := spaces (width - text.length) ++ text

/-- At least `width` characters, the text on the left. -/
def alignLeft (width : Nat) (text : String) : String := text ++ spaces (width - text.length)

/-- Range, kind and text. -/
def Scanner.listingLine (s : Scanner) : String :=
  alignRight 6 (toString s.start) ++ ".." ++ alignLeft 6 (toString s.stop) ++ " " ++ s.kind.name ++
    " " ++ quoteListed s.text ++ "\n"

/-- All tokens of a source, trivia included, and what the scanner reported. -/
structure TokenListing where
  text : String
  diagnostics : Diagnostics
  torn : Bool

def TokenListing.ofSource (src : Source) : TokenListing :=
  let stations := (Scanner.ofSource src true).rest
  let last := stations.getLast?
  { text := String.join (stations.dropLast.map Scanner.listingLine)
    diagnostics := (last.map (·.pending)).getD #[]
    torn := last.any (·.torn) }

/-- What a node's line says of its text: a placeholder has none, names and literals show it. -/
def Node.remark (src : Source) (n : Node) : String :=
  if n.isMissing then " missing"
  else if n.kind == .identifier || n.kind.isLiteral then
    " " ++ quoteListed (src.slice n.range.pos n.range.stop)
  else ""

/-- Kind and range, indented by the depth, and an exclamation mark if there is an error below. -/
def Node.listingLine (src : Source) (depth : Nat) (n : Node) : String :=
  spaces (2 * depth) ++ n.kind.name ++ " " ++ n.range.interval ++ n.remark src ++
    (if n.containsError then " !" else "") ++ "\n"

def Document.listing (d : Document) : String :=
  String.join ((d.root.outline 0).map fun (depth, n) => n.listingLine d.source depth)

end ScriptGrammar
