import ScriptGrammar.Kind.Class
import ScriptGrammar.Scanner.Scan

/-!
# Documentation comments

Inside a comment the tokens are simpler: blanks, line breaks, `@`, `*`, words with hyphens, and
single characters of no kind. A tag is an `@` at the start of the range, after a blank or a line
break, or after stars that follow one, with a word right behind it.
-/

namespace ScriptGrammar.Scanner

variable (s : Scanner)

def scanDocWord : Scanner :=
  let s := { s with
    stop := s.source.skipWhile s.limit (fun c => isIdentifierPart c || c == '-') s.stop }
  let s := s.setValue
  { s with kind := Kind.ofWord s.value }

def scanDocToken : Scanner :=
  let s := { s.begin with start := s.stop }
  let s := s.touch s.stop
  match s.peek 0 with
  | none => { s with kind := .endOfFileToken }
  | some c =>
    if c == '\n' then s.scanLineBreak 1
    else if c == '\r' then s.scanLineBreak (if s.peek 1 == some '\n' then 2 else 1)
    else if isBlank c then s.scanBlanks
    else if c == '@' then s.take 1 .atToken
    else if c == '*' then s.take 1 .asteriskToken
    else if isIdentifierStart c then s.scanDocWord
    else s.take c.utf8Size .unknown

/-- Tag names from the cursor on. `fresh` says whether an `@` here may open a tag. -/
def docTags : (fuel : Nat) → (fresh : Bool) → Scanner → List String × Scanner
  | 0, _, s => ([], s)
  | fuel + 1, fresh, s =>
    let s := s.scanDocToken
    match s.kind with
    | .endOfFileToken => ([], s)
    | .atToken =>
      if fresh then
        let t := s.scanDocToken
        let tag := t.kind.isWord && t.start == s.stop
        let (rest, u) := docTags fuel false t
        (if tag then t.text :: rest else rest, u)
      else docTags fuel false s
    | .newLineTrivia | .whitespaceTrivia => docTags fuel true s
    | .asteriskToken => docTags fuel fresh s
    | _ => docTags fuel false s

/-- The tag names in a comment, the scanner coming back to where it was. -/
def docCommentTags (comment : Range) : List String × Scanner :=
  let (tags, t) := docTags (s.source.size + 1) true (s.narrow comment.pos comment.length)
  (tags, t.rewind s.bookmark)

end ScriptGrammar.Scanner
