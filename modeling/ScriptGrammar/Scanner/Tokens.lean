import ScriptGrammar.Scanner.Scan

/-!
# All tokens of a source
-/

namespace ScriptGrammar.Scanner

/-- The scanner after each token from here on, the end of the text included. -/
def stations : (fuel : Nat) → Scanner → List Scanner
  | 0, _ => []
  | fuel + 1, s =>
    let t := s.scan
    if t.kind == .endOfFileToken then [t] else t :: stations fuel t

/-- Every token takes at least one byte. -/
def rest (s : Scanner) : List Scanner := stations (s.limit - s.stop + 1) s

end ScriptGrammar.Scanner
