import ScriptGrammar.Scanner

/-!
# Trivia

Blanks, line breaks, comments, the first line of a script and the markers of an unresolved
merge. A marker is seven equal characters at the start of a line; all but `=` need a blank after
them.
-/

namespace ScriptGrammar.Scanner

variable (s : Scanner)

def markLineBreak : Scanner := { s with flags := { s.flags with precedingLineBreak := true } }

def scanLineBreak (length : Nat) : Scanner := (s.take length .newLineTrivia).markLineBreak

def skipBlanks : Scanner :=
  let s := s.touch s.stop
  { s with stop := s.source.skipWhile s.limit isBlank s.stop }

def scanBlanks : Scanner := { s.skipBlanks with kind := .whitespaceTrivia }

def scanLineComment : Scanner :=
  let body := s.stop + 2
  { s.check (body ≤ s.limit) with stop := s.lineEnd body, kind := .singleLineCommentTrivia }

/-- The offset of the next star and slash, from `p` on. -/
def commentEnd? (p : Nat) : Option Nat :=
  Source.seek s.limit (fun q => s.charAt? q == some '*' && s.charAt? (q + 1) == some '/')
    (s.limit - p) p

def hasLineBreak (a b : Nat) : Bool := (Source.seek b (s.lineBreakAt b) (b - a) a).isSome

/-- Notes that the comment with this body is documentation. -/
def markDoc (body : Nat) : Scanner :=
  if s.charAt? body == some '*' && s.charAt? (body + 1) != some '/' then
    { s with flags := { s.flags with precedingDocComment := true } }
  else s

/-- Ends a comment behind its star and slash, or at the limit with a report. -/
def closeBlockComment (body : Nat) : Scanner :=
  match s.commentEnd? body with
  | some p => { s with stop := p + 2, kind := .multiLineCommentTrivia }
  | none =>
    { s with
      stop := s.limit, kind := .multiLineCommentTrivia
      flags := { s.flags with unterminated := true } }
    |>.report .asteriskSlashExpected s.limit s.limit []

def scanBlockComment : Scanner :=
  let body := s.stop + 2
  let t := ((s.check (body ≤ s.limit)).markDoc body).closeBlockComment body
  if s.hasLineBreak body ((s.commentEnd? body).getD s.limit) then t.markLineBreak else t

def markerLength : Nat := 7

/-- A line terminator ends at `p`, or stands three bytes before it, or `p` is the very start. -/
def followsLineBreak (p : Nat) : Bool :=
  p == 0 || s.charAt? (p - 1) == some '\n' || s.charAt? (p - 1) == some '\r' ||
    (3 ≤ p && s.lineBreakAt s.limit (p - 3))

def isConflictMarker (p : Nat) : Bool :=
  s.followsLineBreak p && p + markerLength < s.limit &&
    (List.range markerLength).all (fun i => s.charAt? (p + i) == s.charAt? p) &&
    (s.charAt? p == some '=' || s.charAt? (p + markerLength) == some ' ')

/-- A `<` or `>` marker is its line. The others go on to the next `=` or `>` marker. -/
def conflictEnd : Nat :=
  let c := s.charAt? s.stop
  if c == some '<' || c == some '>' then s.lineEnd s.stop
  else
    let closes (p : Nat) : Bool :=
      let d := s.charAt? p
      (d == some '=' || d == some '>') && d != c && s.isConflictMarker p
    (Source.seek s.limit closes (s.limit - s.stop) s.stop).getD s.limit

def scanConflictMarker : Scanner :=
  let t := s.report .conflictMarker s.stop (s.stop + markerLength) []
  { t with stop := s.conflictEnd, kind := .conflictMarkerTrivia }

/-- Takes one run of trivia at the cursor, and tells whether there was one. -/
def scanTrivia : Bool × Scanner :=
  match s.peek 0 with
  | some '\n' => (true, s.scanLineBreak 1)
  | some '\r' => (true, s.scanLineBreak (if s.peek 1 == some '\n' then 2 else 1))
  | some ' ' | some '\t' | some '\x0b' | some '\x0c' => (true, s.scanBlanks)
  | some '#' =>
    if s.stop == 0 && s.peek 1 == some '!' then
      (true, { s with stop := s.lineEnd s.stop, kind := .shebangTrivia })
    else (false, s)
  | some '/' =>
    if s.peek 1 == some '/' then (true, s.scanLineComment)
    else if s.peek 1 == some '*' then (true, s.scanBlockComment)
    else (false, s)
  | some c =>
    if isAscii c then
      if (c == '<' || c == '=' || c == '>' || c == '|') && s.isConflictMarker s.stop then
        (true, s.scanConflictMarker.markLineBreak)
      else (false, s)
    else
      let s := s.touch s.stop
      if isLineBreak c then (true, s.scanLineBreak c.utf8Size)
      else if isBlank c then (true, s.scanBlanks)
      else (false, s)
  | none => (false, s.touch s.stop)

end ScriptGrammar.Scanner
