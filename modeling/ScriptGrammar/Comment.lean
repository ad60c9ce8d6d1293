import ScriptGrammar.Kind
import ScriptGrammar.Scanner

/-!
# Comments around a position

Trailing comments are those on the rest of the line; leading ones those on the lines after it,
or from the first line on when the position is the start of the text. The walk reads the whole
text, whatever a scanner's limit may be.
-/

namespace ScriptGrammar

structure Comment where
  pos : Nat
  stop : Nat
  kind : Kind
  beforeLineBreak : Bool := false
deriving DecidableEq, Inhabited

namespace Comment

/-- The comments found so far, and whether the walk may record one here. -/
structure Walk where
  found : List Comment := []
  collecting : Bool
  torn : Bool := false

def Walk.add (w : Walk) (c : Comment) : Walk :=
  if w.collecting then { w with found := c :: w.found } else w

def Walk.breakLine (w : Walk) : Walk :=
  { w with
    collecting := true
    found := match w.found with
      | c :: cs => { c with beforeLineBreak := true } :: cs
      | [] => [] }

/-- The end of the comment at `pos`, if one begins there. -/
def commentAt? (s : Scanner) (pos : Nat) : Option (Nat × Kind) :=
  if s.charAt? pos == some '/' then
    if s.charAt? (pos + 1) == some '/' then
      some (s.lineEnd (pos + 2), .singleLineCommentTrivia)
    else if s.charAt? (pos + 1) == some '*' then
      let closes (p : Nat) : Bool := s.charAt? p == some '*' && s.charAt? (p + 1) == some '/'
      let stop := ((Source.seek s.limit closes (s.limit - (pos + 2)) (pos + 2)).map (· + 2)).getD
        s.limit
      some (stop, .multiLineCommentTrivia)
    else none
  else none

def walk (s : Scanner) (trailing : Bool) : (fuel pos : Nat) → Walk → Walk
  | 0, _, w => w
  | fuel + 1, pos, w =>
    if s.limit ≤ pos then w
    else if s.lineBreakAt s.limit pos then
      if trailing then w
      else
        let length :=
          if s.charAt? pos == some '\r' && s.charAt? (pos + 1) == some '\n' then 2
          else ((s.charAt? pos).map Char.utf8Size).getD 1
        walk s trailing fuel (pos + length) w.breakLine
    else match commentAt? s pos with
      | some (stop, kind) => walk s trailing fuel stop (w.add { pos, stop, kind })
      | none =>
        match s.charAt? pos with
        | some c => if isBlank c then walk s trailing fuel (pos + c.utf8Size) w else w
        | none => { w with torn := true }

/-- Where the walk begins: the first line of a script is passed over, up to its line feed or
carriage return. -/
def origin (s : Scanner) (pos : Nat) : Nat :=
  if pos == 0 && s.charAt? 0 == some '#' && s.charAt? 1 == some '!' then
    (Source.seek s.limit (fun p => s.charAt? p == some '\n' || s.charAt? p == some '\r')
      s.limit 0).getD s.limit
  else pos

def collect (src : Source) (pos : Nat) (trailing : Bool) : List Comment × Bool :=
  let s := Scanner.ofSource src true
  let w := walk s trailing (src.size + 1) (origin s pos) { collecting := trailing || pos == 0 }
  (w.found.reverse, w.torn)

/-- The leading comments, and whether the walk ran into the middle of a character. -/
def leading (src : Source) (pos : Nat) : List Comment × Bool := collect src pos false

def trailing (src : Source) (pos : Nat) : List Comment × Bool := collect src pos true

end Comment
end ScriptGrammar
