import ScriptGrammar.Proofs.Scanner.Passage

/-!
# What reading a token changes

Two flags of a token tell what trivia before it held, a line break or documentation. Reading the
token itself leaves both alone. What it reports has a message of its own kind: the grammar around
the token is nothing that the scanner complains of.
-/

namespace ScriptGrammar

/-- The flags that only trivia sets. -/
def TokenFlags.noted (f : TokenFlags) : Bool × Bool := (f.precedingLineBreak, f.precedingDocComment)

/-- The messages that tell what is wrong in a token or in trivia. -/
def Message.isLexical : Message → Bool
  | .unterminatedString | .asteriskSlashExpected | .digitExpected | .hexadecimalDigitExpected
  | .unexpectedEndOfText | .invalidCharacter | .unterminatedTemplate
  | .unterminatedRegularExpression | .conflictMarker | .unicodeEscapeOutOfRange
  | .unterminatedUnicodeEscape | .separatorNotAllowed | .consecutiveSeparators | .wordAfterNumber
  | .octalEscape => true
  | _ => false

/-- Diagnostics of tokens and trivia came, and no others. -/
def Lexical (a b : Diagnostics) : Prop :=
  ∃ more : Diagnostics, b = a ++ more ∧ ∀ d ∈ more, d.message.isLexical

namespace Lexical

variable {a b c : Diagnostics}

theorem refl (a : Diagnostics) : Lexical a a := ⟨#[], by simp, by simp⟩

theorem trans (h : Lexical a b) (k : Lexical b c) : Lexical a c := exists_append_trans h k

theorem report {m : Message} (h : m.isLexical) (r : Range) (args : List String) :
    Lexical a (a.report r m args) := by
  refine ⟨#[⟨r, m, args⟩], Array.push_eq_append, fun d hd => ?_⟩
  rw [Array.mem_singleton.mp hd]
  exact h

end Lexical

namespace Scanner

variable {s t : Scanner} {c : Char}

/-- What trivia noted on `s` is noted on `t`, and nothing was reported but what tokens are. -/
def Lexes (s t : Scanner) : Prop :=
  t.flags.noted = s.flags.noted ∧ Lexical s.pending t.pending

namespace Lexes

variable {u : Scanner}

@[refl] theorem refl (s : Scanner) : Lexes s s := ⟨rfl, .refl _⟩

theorem still (flags : t.flags.noted = s.flags.noted) (pending : t.pending = s.pending) :
    Lexes s t := ⟨flags, pending ▸ .refl _⟩

theorem trans (h : Lexes s t) (k : Lexes t u) : Lexes s u := ⟨k.1.trans h.1, h.2.trans k.2⟩

theorem report {m : Message} (h : Lexes s t) (known : m.isLexical) (a b : Nat)
    (args : List String) : Lexes s (t.report m a b args) := ⟨h.1, h.2.trans (.report known _ _)⟩

end Lexes

theorem lexes_touchEscape (p : Nat) (s : Scanner) : Lexes s (s.touchEscape p) := by
  simp only [touchEscape]
  split <;> exact .still rfl rfl

theorem lexes_touchName (p : Nat) (s : Scanner) : Lexes s (s.touchName p) := by
  simp only [touchName]
  split
  · exact lexes_touchEscape p s
  · exact .still rfl rfl

theorem lexes_takeParts (fuel : Nat) (s : Scanner) : Lexes s (takeParts fuel s) := by
  induction fuel generalizing s with
  | zero => exact .refl s
  | succ fuel ih =>
    rw [takeParts]
    split
    · exact .still rfl rfl
    split
    · have touched := lexes_touchEscape s.stop s
      dsimp only
      split
      · split
        · exact touched.trans (ih _)
        · exact touched
      · exact touched
    · dsimp only
      split
      · split
        · exact ih _
        · exact .still rfl rfl
      · exact .still rfl rfl

theorem lexes_scanParts (s : Scanner) : Lexes s s.scanParts :=
  lexes_takeParts (s.limit - s.stop) s

theorem lexes_scanIdentifier (s : Scanner) : Lexes s s.scanIdentifier :=
  lexes_scanParts s

theorem lexes_scanInvalidCharacter (s : Scanner) : Lexes s s.scanInvalidCharacter :=
  ⟨rfl, .report rfl _ _⟩

theorem lexes_scanWord (s : Scanner) : Lexes s s.scanWord := by
  have touched := lexes_touchName s.stop s
  simp only [scanWord]
  split
  · exact touched.trans (lexes_scanIdentifier _)
  · exact touched.trans (lexes_scanInvalidCharacter _)

theorem lexes_scanPrivateIdentifier (s : Scanner) : Lexes s s.scanPrivateIdentifier := by
  have touched := lexes_touchName (s.stop + 1) s
  simp only [scanPrivateIdentifier]
  split
  · exact touched.trans (lexes_scanParts
      { s.touchName (s.stop + 1) with stop := s.stop + 1, value := "#" })
  · exact touched.trans (lexes_scanInvalidCharacter _)

theorem lexes_takeDigits (isDigit : Char → Bool) (fuel : Nat) (run : DigitRun) (s : Scanner) :
    Lexes s (takeDigits isDigit fuel run s).2 := by
  induction fuel generalizing run s with
  | zero => exact .refl s
  | succ fuel ih =>
    rw [takeDigits]
    split
    · exact .refl s
    · have taken : Lexes s { s with
          stop := s.stop + 1, flags := { s.flags with containsSeparator := true } } :=
        .still rfl rfl
      split
      · exact taken.trans (ih _ _)
      · split
        · exact (taken.report (m := .consecutiveSeparators) rfl _ _ _).trans (ih _ _)
        · exact (taken.report (m := .separatorNotAllowed) rfl _ _ _).trans (ih _ _)
    · split
      · exact .trans (t := { s with stop := s.stop + 1 }) (.still rfl rfl) (ih _ _)
      · exact .refl s

theorem lexes_scanDigits (isDigit : Char → Bool) (s : Scanner) :
    Lexes s (s.scanDigits isDigit).2 := by
  have taken := lexes_takeDigits isDigit (s.limit - s.stop) {} s
  simp only [scanDigits]
  split
  · exact taken.report rfl _ _ _
  · exact taken

theorem lexes_checkNumberEnd (s : Scanner) : Lexes s s.checkNumberEnd := by
  simp only [checkNumberEnd]
  split
  · exact ⟨rfl, .report rfl _ _⟩
  · exact .still rfl rfl

theorem lexes_finishNumber (allowed : Bool) (s : Scanner) : Lexes s (s.finishNumber allowed) := by
  simp only [finishNumber]
  refine .trans (.still ?_ ?_) (lexes_checkNumberEnd _)
  · split <;> rfl
  · split <;> rfl

theorem lexes_scanRadix (isDigit : Char → Bool) {m : Message} (known : m.isLexical) (s : Scanner) :
    Lexes s (s.scanRadix isDigit m) := by
  have digits := lexes_scanDigits isDigit { s with stop := s.stop + 2 }
  simp only [scanRadix]
  split
  · next t found =>
    rw [found] at digits
    exact .trans digits (lexes_finishNumber true t)
  · next t found =>
    rw [found] at digits
    exact .trans (digits.report known _ _ _) (lexes_finishNumber true _)

theorem lexes_scanFraction (s : Scanner) : Lexes s s.scanFraction.2 := by
  simp only [scanFraction]
  split
  · exact lexes_scanDigits Char.isDigit { s with stop := s.stop + 1 }
  · exact .still rfl rfl

theorem lexes_skipSign (s : Scanner) : Lexes s s.skipSign := by
  simp only [skipSign]
  split <;> exact .still rfl rfl

theorem lexes_scanExponent (s : Scanner) : Lexes s s.scanExponent.2 := by
  unfold scanExponent
  split
  · dsimp only
    have sign := lexes_skipSign { s with
      stop := s.stop + 1, flags := { s.flags with scientific := true } }
    have digits := sign.trans (lexes_scanDigits Char.isDigit _)
    split
    · next t found =>
      rw [found] at digits
      exact digits
    · next t found =>
      rw [found] at digits
      exact digits.report rfl _ _ _
  · exact .still rfl rfl

theorem lexes_scanDecimal (s : Scanner) : Lexes s s.scanDecimal := by
  have whole : Lexes s
      (if (s.peek 0 == some '.') = true then s else (s.scanDigits Char.isDigit).2) := by
    split
    · exact .still rfl rfl
    · exact lexes_scanDigits Char.isDigit s
  exact whole.trans ((lexes_scanFraction _).trans
    ((lexes_scanExponent _).trans (lexes_finishNumber _ _)))

theorem lexes_scanLeadingZero (s : Scanner) : Lexes s s.scanLeadingZero := by
  simp only [scanLeadingZero]
  split
  · exact .trans (.still rfl rfl) (lexes_checkNumberEnd _)
  · exact lexes_scanDecimal { s with flags := { s.flags with containsLeadingZero := true } }

theorem lexes_scanNumber (s : Scanner) : Lexes s s.scanNumber := by
  have radix {f : TokenFlags} (same : f.noted = s.flags.noted) (isDigit : Char → Bool)
      {m : Message} (known : m.isLexical) : Lexes s (({ s with flags := f }).scanRadix isDigit m) :=
    .trans (t := { s with flags := f }) (.still same rfl) (lexes_scanRadix isDigit known _)
  simp only [scanNumber]
  split
  · split
    iterate 6
      refine radix ?_ _ ?_
      · rfl
      · rfl
    · split
      · exact lexes_scanLeadingZero (s.check (s.stop + 1 ≤ s.limit))
      · exact lexes_scanDecimal s
    · exact lexes_scanDecimal s
  · exact lexes_scanDecimal s

theorem Lexes.reportIf {m : Message} (h : Lexes s t) (known : m.isLexical) (ok : Bool) (a b : Nat)
    (args : List String) : Lexes s (t.reportIf ok m a b args) := by
  cases ok with
  | true => exact h.report known a b args
  | false => exact h

theorem lexes_takeHex? {count code : Nat} (h : s.takeHex? count = some (code, t)) :
    Lexes s t := by
  unfold takeHex? at h
  split at h
  · cases h
    exact .still rfl rfl
  · cases h

theorem lexes_takeOctal (more value : Nat) (s : Scanner) :
    Lexes s (takeOctal more value s).2 := by
  induction more generalizing value s with
  | zero => exact .refl s
  | succ more ih =>
    rw [takeOctal]
    split
    · split
      · exact ih _ { s with stop := s.stop + 1 }
      · exact .still rfl rfl
    · exact .still rfl rfl

theorem lexes_pushUnit (unit : Nat) (s : Scanner) : Lexes s (s.pushUnit unit) := by
  unfold pushUnit
  cases paired : s.pushPair? unit with
  | none => exact .still rfl rfl
  | some t =>
    obtain ⟨_, _, rest⟩ := Option.bind_eq_some_iff.mp paired
    obtain ⟨⟨low, u⟩, taken, rest⟩ := Option.bind_eq_some_iff.mp rest
    obtain ⟨_, _, same⟩ := Option.bind_eq_some_iff.mp rest
    have taken := lexes_takeHex? taken
    obtain rfl := Option.some.inj same
    exact taken

theorem lexes_badHexEscape (context : EscapeContext) (start : Nat) (s : Scanner) :
    Lexes s (s.badHexEscape context start) := by
  have marked : Lexes s s.markInvalidEscape := .still rfl rfl
  exact marked.reportIf rfl _ _ _ _

theorem lexes_closeEscape (context : EscapeContext) (s : Scanner) :
    Lexes s (s.closeEscape context).2 := by
  simp only [closeEscape]
  split
  · exact .still rfl rfl
  · exact (Lexes.refl s).reportIf rfl _ _ _ _

theorem lexes_scanBracedEscape (context : EscapeContext) (start : Nat) (s : Scanner) :
    Lexes s (s.scanBracedEscape context start) := by
  simp only [scanBracedEscape]
  generalize s.source.skipWhile s.limit isHexDigit (s.stop + 1) = e
  have digits : Lexes s { s.cut (s.stop + 1) e with stop := e } := .still rfl rfl
  have closed := ((digits.reportIf (m := .hexadecimalDigitExpected) rfl
    (e == s.stop + 1 && context.reports) e e []).reportIf (m := .unicodeEscapeOutOfRange) rfl
    (!(e == s.stop + 1) && 0x10FFFF < hexValue (s.source.chars (s.stop + 1) e) &&
      context.reports) (s.stop + 1) e []).trans (lexes_closeEscape context _)
  generalize Scanner.closeEscape _ context = r at closed ⊢
  split
  · exact closed.trans (.still rfl rfl)
  · exact closed.trans (.still rfl rfl)

theorem lexes_scanOctalEscape (context : EscapeContext) (start first : Nat) (s : Scanner) :
    Lexes s (s.scanOctalEscape context start first) := by
  have taken := lexes_takeOctal (if first ≤ 3 then 2 else 1) first s
  simp only [scanOctalEscape]
  split
  · have marked : Lexes s (takeOctal (if first ≤ 3 then 2 else 1) first s).2.markInvalidEscape :=
      taken
    exact (marked.reportIf rfl _ _ _ _).trans (.still rfl rfl)
  · exact taken

theorem lexes_scanEscaped (context : EscapeContext) (start : Nat) (c : Char) (s : Scanner) :
    Lexes s (s.scanEscaped context start c) := by
  simp only [scanEscaped]
  split
  · exact .still rfl rfl
  split
  · exact lexes_scanOctalEscape context start _ s
  split
  · exact .still rfl rfl
  split
  iterate 6 exact .still rfl rfl
  · split
    · next code t taken =>
      have taken : Lexes s t := lexes_takeHex? taken
      exact taken
    · exact lexes_badHexEscape context start s
  · split
    · exact lexes_scanBracedEscape context start s
    · split
      · next unit t taken =>
        exact (lexes_takeHex? taken).trans (lexes_pushUnit unit
          { t with flags := { t.flags with unicodeEscape := true } })
      · exact lexes_badHexEscape context start s
  · split <;> exact .still rfl rfl
  · split <;> exact .still rfl rfl

theorem lexes_scanEscape (context : EscapeContext) (s : Scanner) :
    Lexes s (s.scanEscape context) := by
  simp only [scanEscape]
  split
  · next c _ => exact lexes_scanEscaped context s.stop c _
  · exact ⟨rfl, .report rfl _ _⟩

theorem lexes_takeString (quote : Char) (fuel : Nat) (s : Scanner) :
    Lexes s (takeString quote fuel s) := by
  induction fuel generalizing s with
  | zero => exact .refl s
  | succ fuel ih =>
    rw [takeString]
    split
    · exact .refl s
    split
    · exact .refl s
    split
    · exact (lexes_scanEscape .string s).trans (ih _)
    · exact ih _

theorem lexes_markUnterminated {m : Message} (known : m.isLexical) (s : Scanner) :
    Lexes s (s.markUnterminated m) := ⟨rfl, .report known _ _⟩

theorem lexes_scanString (quote : Char) (s : Scanner) : Lexes s (s.scanString quote) := by
  have taken := lexes_takeString quote (s.limit - (s.stop + 1)) { s with stop := s.stop + 1 }
  simp only [scanString]
  split
  · exact taken
  · exact .trans taken (lexes_markUnterminated rfl _)

theorem lexes_takeTemplate (context : EscapeContext) (fuel : Nat) (s : Scanner) :
    Lexes s (takeTemplate context fuel s).2 := by
  induction fuel generalizing s with
  | zero => exact .refl s
  | succ fuel ih =>
    rw [takeTemplate]
    split
    · exact .still rfl rfl
    split
    · exact .still rfl rfl
    split
    · exact .still rfl rfl
    split
    · exact (lexes_scanEscape context s).trans (ih _)
    split
    · exact ih _
    · exact ih _

theorem lexes_scanTemplate (reports : Bool) (s : Scanner) :
    Lexes s (s.scanTemplate reports) := by
  have taken (context : EscapeContext) := lexes_takeTemplate context (s.limit - (s.stop + 1) + 1)
    { s.check (s.stop < s.source.size) with stop := s.stop + 1, value := "" }
  simp only [scanTemplate]
  split
  · exact taken _
  · exact taken _
  · exact .trans (taken _) (lexes_markUnterminated rfl _)

theorem lexes_scanToken (s : Scanner) : Lexes s s.scanToken := by
  have chooses := chooses_scanToken s
  generalize s.scanToken = t at chooses ⊢
  cases chooses with
  | sign => exact .still rfl rfl
  | number => exact lexes_scanNumber s
  | string quote => exact lexes_scanString quote s
  | template => exact lexes_scanTemplate false s
  | privateName => exact lexes_scanPrivateIdentifier s
  | word => exact lexes_scanWord s
  | ended => exact lexes_scanInvalidCharacter s

theorem lexical_scanTrivia (s : Scanner) : Lexical s.pending s.scanTrivia.2.pending := by
  rcases s.pending_scanTrivia with same | ⟨r, same⟩ | ⟨_, r, same⟩
  · rw [same]
    exact .refl _
  · rw [same]
    exact .report rfl _ _
  · rw [same]
    exact .report rfl _ _

theorem lexical_scanFrom (fuel : Nat) (s : Scanner) :
    Lexical s.pending (scanFrom fuel s).pending := by
  induction fuel generalizing s with
  | zero => exact .refl _
  | succ fuel ih =>
    have trivia := lexical_scanTrivia { s with start := s.stop }
    rw [scanFrom]
    dsimp only
    split
    · exact .refl _
    · split
      · next t found =>
        rw [found] at trivia
        split
        · exact trivia
        · exact trivia.trans (ih t)
      · next t found =>
        rw [found] at trivia
        exact trivia.trans (lexes_scanToken t).2

theorem lexical_scan (s : Scanner) : Lexical s.pending s.scan.pending :=
  lexical_scanFrom (s.limit - s.stop + 1) s.begin

theorem lexical_rescanSlash (s : Scanner) : Lexical s.pending s.rescanSlash.pending := by
  unfold rescanSlash
  split
  · exact .refl _
  · dsimp only
    split
    · exact .refl _
    · exact .report rfl _ _

theorem lexical_rescanTemplate (tagged : Bool) (s : Scanner) :
    Lexical s.pending (s.rescanTemplate tagged).pending := by
  unfold rescanTemplate
  split
  · exact .refl _
  · exact (lexes_scanTemplate (!tagged) { s with
      stop := s.start
      flags := { s.flags with
        extendedUnicodeEscape := false, unicodeEscape := false, containsInvalidEscape := false
        unterminated := false } }).2

theorem lexical_scanContent (s : Scanner) : Lexical s.pending s.scanContent.pending := by
  have run (s : Scanner) : Lexical s.pending s.scanContentRun.pending := by
    simp only [scanContentRun]
    split
    · exact .report rfl _ _
    · exact .refl _
  simp only [scanContent]
  split
  · exact .refl _
  · split
    · split <;> exact .refl _
    · exact .refl _
    · exact run { s.begin with start := s.stop }

theorem lexical_scanAttributeValue (s : Scanner) :
    Lexical s.pending s.scanAttributeValue.pending := by
  unfold scanAttributeValue
  split
  · split
    · dsimp only
      split
      · exact .refl _
      · exact .report rfl _ _
    · exact lexical_scan s
  · exact lexical_scan s

theorem lexical_scanTagName (s : Scanner) : Lexical s.pending s.scanTagName.pending := by
  have taken (fuel : Nat) (s : Scanner) : Lexical s.pending (takeTagName fuel s).pending := by
    induction fuel generalizing s with
    | zero => exact .refl _
    | succ fuel ih =>
      rw [takeTagName]
      split
      · exact .refl _
      split
      · exact ih { s with stop := s.stop + 1 }
      · have parts := (lexes_scanParts s).2
        dsimp only
        split
        · exact parts
        · exact parts.trans (ih _)
  simp only [scanTagName]
  split
  · exact .refl _
  · exact taken _ s

end Scanner

theorem Reading.lexical (r : Reading) (s : Scanner) : Lexical s.pending (r.apply s).pending := by
  cases r with
  | plain => exact s.lexical_scan
  | content => exact s.lexical_scanContent
  | attributeValue => exact s.lexical_scanAttributeValue

theorem Rereading.lexical (r : Rereading) (s : Scanner) :
    Lexical s.pending (r.apply s).pending := by
  cases r with
  | greater =>
    rcases s.rescanGreater_cases with same | ⟨_, n, k, _, same, _⟩
    · rw [Rereading.apply, same]
      exact .refl _
    · rw [Rereading.apply, same]
      exact .refl _
  | slash => exact s.lexical_rescanSlash
  | template tagged => exact s.lexical_rescanTemplate tagged
  | content => exact Scanner.lexical_scanContent { s with stop := s.fullStart }
  | tagName => exact s.lexical_scanTagName

end ScriptGrammar
