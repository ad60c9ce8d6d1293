import ScriptGrammar.Kind.Class
import ScriptGrammar.Scanner.Scan

/-!
# Markup

Between tags the text is content: a tag opener, a brace, or a run of text up to one of these.
Names in tags may hold hyphens, and quoted attribute values take no escapes.
-/

namespace ScriptGrammar.Scanner

/-- The end of a text run from `p` on, and its mark: 0 at first, -1 once a line break comes while
the mark is 0, the offset of the last character that is no space. -/
def contentEnd (s : Scanner) : (fuel p : Nat) → (mark : Int) → Nat × Int
  | 0, p, mark => (p, mark)
  | fuel + 1, p, mark =>
    match s.charAt? p with
    | none => (p, mark)
    | some c =>
      if c == '\x7b' || c == '<' then (p, mark)
      else
        let mark := if isLineBreak c && mark == 0 then -1 else if isSpace c then mark else (p : Int)
        contentEnd s fuel (p + c.utf8Size) mark

variable (s : Scanner)

def scanContentRun : Scanner :=
  let s := s.touch s.stop
  let (p, mark) := s.contentEnd (s.limit - s.stop) s.stop 0
  let s := { s with stop := p }
  if s.peek 0 == some '<' && s.isConflictMarker p then s.scanConflictMarker
  else
    ({ s with kind := if mark == -1 then .jsxTextAllWhiteSpaces else .jsxText }).setValue

def scanContent : Scanner :=
  let s := { s.begin with start := s.stop }
  if s.atEnd then { s with kind := .endOfFileToken }
  else match s.peek 0 with
    | some '<' =>
      if s.peek 1 == some '/' then s.take 2 .lessThanSlashToken else s.take 1 .lessThanToken
    | some '\x7b' => s.take 1 .openBraceToken
    | _ => s.scanContentRun

/-- The token again, with the trivia before it, as content. -/
def rescanContent : Scanner := ({ s with stop := s.fullStart }).scanContent

def takeTagName : (fuel : Nat) → Scanner → Scanner
  | 0, s => s
  | fuel + 1, s =>
    if s.atEnd then s
    else if s.peek 0 == some '-' then takeTagName fuel { s with stop := s.stop + 1 }
    else
      let t := s.scanParts
      if t.stop == s.stop then t else takeTagName fuel t

/-- Extends a word by hyphens and identifier characters. -/
def scanTagName : Scanner :=
  if !s.kind.isWord then s
  else
    let s := (takeTagName (s.limit - s.stop + 1) s).setValue
    { s with kind := Kind.ofWord s.value }

def scanAttributeValue : Scanner :=
  match s.peek 0 with
  | some c =>
    if c == '\x22' || c == '\x27' then
      let first := s.stop + 1
      let s := { s with
        fullStart := s.stop, start := s.stop, stop := first, flags := {}, kind := .stringLiteral }
      match Source.seek s.limit (fun p => s.charAt? p == some c) (s.limit - first) first with
      | some p => { s.cut first p with stop := p + 1, value := s.source.slice first p }
      | none =>
        ({ s.cut first s.limit with stop := s.limit, value := s.source.slice first s.limit }
          ).markUnterminated .unterminatedString
    else s.scan
  | none => s.scan

end ScriptGrammar.Scanner
