import ScriptGrammar.Scanner.Scan

/-!
# Behind trivia

Where trivia is passed over, the token reaches back to where the trivia began, and has its flags.
Nothing that reads a token looks at either, an identifier's own escapes aside. So every function
of the scanner commutes with `behind`, which turns a scanner that keeps trivia into one that has
passed some over.
-/

namespace ScriptGrammar

/-- What is noted in either. A flag set in `own` is set in the union by computation. -/
def TokenFlags.union (own more : TokenFlags) : TokenFlags where
  precedingLineBreak := own.precedingLineBreak || more.precedingLineBreak
  precedingDocComment := own.precedingDocComment || more.precedingDocComment
  unterminated := own.unterminated || more.unterminated
  extendedUnicodeEscape := own.extendedUnicodeEscape || more.extendedUnicodeEscape
  scientific := own.scientific || more.scientific
  octal := own.octal || more.octal
  hexSpecifier := own.hexSpecifier || more.hexSpecifier
  binarySpecifier := own.binarySpecifier || more.binarySpecifier
  octalSpecifier := own.octalSpecifier || more.octalSpecifier
  containsSeparator := own.containsSeparator || more.containsSeparator
  unicodeEscape := own.unicodeEscape || more.unicodeEscape
  containsInvalidEscape := own.containsInvalidEscape || more.containsInvalidEscape
  containsLeadingZero := own.containsLeadingZero || more.containsLeadingZero

namespace Scanner

variable {s : Scanner} {full : Nat} {f : TokenFlags}

/-- The scanner that passes trivia over, behind trivia that began at `full` and left `f`. -/
def behind (s : Scanner) (full : Nat) (f : TokenFlags) : Scanner :=
  { s with fullStart := full, flags := s.flags.union f, keepsTrivia := false }

-- In brackets, as a condition that is rewritten by computation keeps its old decision procedure.
@[simp] theorem kind_behind : (s.behind full f).kind = s.kind := (rfl)

@[simp] theorem stop_behind : (s.behind full f).stop = s.stop := (rfl)

@[simp] theorem limit_behind : (s.behind full f).limit = s.limit := (rfl)

@[simp] theorem source_behind : (s.behind full f).source = s.source := (rfl)

@[simp] theorem value_behind : (s.behind full f).value = s.value := (rfl)

@[simp] theorem atEnd_behind : (s.behind full f).atEnd = s.atEnd := (rfl)

@[simp] theorem charAt?_behind {p : Nat} : (s.behind full f).charAt? p = s.charAt? p := (rfl)

@[simp] theorem peek_behind {k : Nat} : (s.behind full f).peek k = s.peek k := (rfl)

@[simp] theorem take_behind {n : Nat} {k : Kind} :
    (s.behind full f).take n k = (s.take n k).behind full f := rfl

@[simp] theorem setValue_behind : (s.behind full f).setValue = s.setValue.behind full f := rfl

@[simp] theorem touch_behind {p : Nat} :
    (s.behind full f).touch p = (s.touch p).behind full f := rfl

@[simp] theorem cut_behind {a b : Nat} :
    (s.behind full f).cut a b = (s.cut a b).behind full f := rfl

@[simp] theorem check_behind {ok : Bool} :
    (s.behind full f).check ok = (s.check ok).behind full f := rfl

@[simp] theorem report_behind {m : Message} {a b : Nat} {args : List String} :
    (s.behind full f).report m a b args = (s.report m a b args).behind full f := rfl

@[simp] theorem ite_behind {p : Prop} [Decidable p] {a b : Scanner} :
    (if p then a else b).behind full f = if p then a.behind full f else b.behind full f :=
  apply_ite (·.behind full f) p a b

/-- An update names every field of the scanner that it is applied to, here `t`. -/
theorem moved_behind {t : Scanner} (h : t = s.behind full f) (n : Nat) (v : String) :
    ({ t with stop := n, value := v } : Scanner) =
      ({ s with stop := n, value := v } : Scanner).behind full f := by
  rw [h]
  rfl

@[simp] theorem markLineBreak_behind :
    (s.behind full f).markLineBreak = s.markLineBreak.behind full f := rfl

theorem markDoc_behind {body : Nat} :
    (s.behind full f).markDoc body = (s.markDoc body).behind full f := by
  simp only [markDoc, charAt?_behind, ite_behind]
  rfl

theorem closeBlockComment_behind {body : Nat} :
    (s.behind full f).closeBlockComment body = (s.closeBlockComment body).behind full f := by
  have same : (s.behind full f).commentEnd? body = s.commentEnd? body := rfl
  simp only [closeBlockComment, same]
  split <;> rfl

theorem scanBlockComment_behind :
    (s.behind full f).scanBlockComment = s.scanBlockComment.behind full f := by
  have breaks (a b : Nat) : (s.behind full f).hasLineBreak a b = s.hasLineBreak a b := rfl
  have ends (p : Nat) : (s.behind full f).commentEnd? p = s.commentEnd? p := rfl
  simp only [scanBlockComment, stop_behind, limit_behind, check_behind, markDoc_behind,
    closeBlockComment_behind, breaks, ends, markLineBreak_behind, ite_behind]

theorem scanTrivia_behind :
    (s.behind full f).scanTrivia = (s.scanTrivia.1, s.scanTrivia.2.behind full f) := by
  have marker (p : Nat) : (s.behind full f).isConflictMarker p = s.isConflictMarker p := rfl
  simp only [scanTrivia, peek_behind, stop_behind, marker]
  split
  · rfl
  · rfl
  · rfl
  · rfl
  · rfl
  · rfl
  · split <;> rfl
  · split
    · rfl
    · split
      · rw [scanBlockComment_behind]
      · rfl
  · split
    · split <;> rfl
    · split
      · rfl
      · split <;> rfl
  · rfl

@[simp] theorem touchEscape_behind {p : Nat} :
    (s.behind full f).touchEscape p = (s.touchEscape p).behind full f := by
  have same : (s.behind full f).escapeAt? p = s.escapeAt? p := rfl
  simp only [touchEscape, same]
  split <;> rfl

theorem takeParts_behind (fuel : Nat) (s : Scanner) :
    takeParts fuel (s.behind full f) = (takeParts fuel s).behind full f := by
  induction fuel generalizing s with
  | zero => rfl
  | succ fuel ih =>
    rw [takeParts, takeParts]
    simp only [atEnd_behind, peek_behind, stop_behind, touchEscape_behind, touch_behind]
    split
    · rfl
    split
    · generalize s.touchEscape s.stop = t
      have same : (t.behind full f).unicodeEscape? t.stop = t.unicodeEscape? t.stop := rfl
      rw [same]
      split
      · next c length _ =>
        split
        · exact ih { t with
            stop := t.stop + length, value := t.value.push c
            flags := { t.flags with unicodeEscape := true } }
        · rfl
      · rfl
    · generalize s.touch s.stop = t
      split
      · next c _ =>
        split
        · exact ih { t with stop := t.stop + c.utf8Size, value := t.value.push c }
        · rfl
      · rfl

@[simp] theorem scanParts_behind : (s.behind full f).scanParts = s.scanParts.behind full f := by
  simp only [scanParts, limit_behind, stop_behind, takeParts_behind, cut_behind]

theorem scanIdentifier_behind (plain : f.unicodeEscape = false) :
    (s.behind full f).scanIdentifier = s.scanIdentifier.behind full f := by
  have same : (s.scanParts.behind full f).flags.unicodeEscape =
      s.scanParts.flags.unicodeEscape := by
    simp [behind, TokenFlags.union, plain]
  simp only [scanIdentifier, scanParts_behind, same]
  rfl

@[simp] theorem scanInvalidCharacter_behind :
    (s.behind full f).scanInvalidCharacter = s.scanInvalidCharacter.behind full f := rfl

theorem touchName_behind {p : Nat} :
    (s.behind full f).touchName p = (s.touchName p).behind full f := by
  simp only [touchName, charAt?_behind, touchEscape_behind, touch_behind, ite_behind]

theorem scanPrivateIdentifier_behind :
    (s.behind full f).scanPrivateIdentifier = s.scanPrivateIdentifier.behind full f := by
  have same : (s.behind full f).isIdentifierAt (s.stop + 1) = s.isIdentifierAt (s.stop + 1) := rfl
  simp only [scanPrivateIdentifier, stop_behind, touchName_behind, same, moved_behind rfl,
    scanParts_behind, scanInvalidCharacter_behind, ite_behind]
  rfl

theorem scanWord_behind (plain : f.unicodeEscape = false) :
    (s.behind full f).scanWord = s.scanWord.behind full f := by
  have same : (s.behind full f).isIdentifierAt s.stop = s.isIdentifierAt s.stop := rfl
  simp only [scanWord, stop_behind, touchName_behind, same, scanIdentifier_behind plain,
    scanInvalidCharacter_behind, ite_behind]

theorem takeDigits_behind (isDigit : Char → Bool) (fuel : Nat) (run : DigitRun) (s : Scanner) :
    takeDigits isDigit fuel run (s.behind full f) =
      ((takeDigits isDigit fuel run s).1, (takeDigits isDigit fuel run s).2.behind full f) := by
  induction fuel generalizing run s with
  | zero => rfl
  | succ fuel ih =>
    rw [takeDigits, takeDigits, peek_behind]
    split
    · rfl
    · dsimp only
      let t : Scanner :=
        { s with stop := s.stop + 1, flags := { s.flags with containsSeparator := true } }
      split
      · exact ih _ t
      · split
        · exact ih _ (t.report .consecutiveSeparators s.stop (s.stop + 1) [])
        · exact ih _ (t.report .separatorNotAllowed s.stop (s.stop + 1) [])
    · split
      · exact ih _ { s with stop := s.stop + 1 }
      · rfl

@[simp] theorem scanDigits_behind {isDigit : Char → Bool} :
    (s.behind full f).scanDigits isDigit =
      ((s.scanDigits isDigit).1, (s.scanDigits isDigit).2.behind full f) := by
  simp only [scanDigits, limit_behind, stop_behind, takeDigits_behind, report_behind, ite_behind]

@[simp] theorem checkNumberEnd_behind :
    (s.behind full f).checkNumberEnd = s.checkNumberEnd.behind full f := by
  simp only [checkNumberEnd, stop_behind, touch_behind, peek_behind, scanParts_behind, ite_behind]
  rfl

@[simp] theorem finishNumber_behind {allowed : Bool} :
    (s.behind full f).finishNumber allowed = (s.finishNumber allowed).behind full f := by
  simp only [finishNumber, peek_behind, take_behind, ← ite_behind, setValue_behind,
    checkNumberEnd_behind]

theorem scanRadix_behind (isDigit : Char → Bool) (m : Message) :
    (s.behind full f).scanRadix isDigit m = (s.scanRadix isDigit m).behind full f := by
  rw [scanRadix, moved_behind rfl, scanDigits_behind, scanRadix, stop_behind, value_behind]
  cases ({ s with stop := s.stop + 2 } : Scanner).scanDigits isDigit with
  | mk any t => cases any <;> simp

theorem scanFraction_behind :
    (s.behind full f).scanFraction = (s.scanFraction.1, s.scanFraction.2.behind full f) := by
  rw [scanFraction, moved_behind rfl, scanDigits_behind, scanFraction]
  simp only [peek_behind, stop_behind, value_behind]
  split <;> rfl

theorem skipSign_behind : (s.behind full f).skipSign = s.skipSign.behind full f := by
  simp only [skipSign, peek_behind, ite_behind]
  rfl

theorem scanExponent_behind :
    (s.behind full f).scanExponent = (s.scanExponent.1, s.scanExponent.2.behind full f) := by
  have marked {t : Scanner} (h : t = s.behind full f) (n : Nat) :
      ({ t with stop := n, flags := { t.flags with scientific := true } } : Scanner) =
        ({ s with stop := n, flags := { s.flags with scientific := true } } : Scanner).behind
          full f := by
    rw [h]
    rfl
  simp only [scanExponent, marked rfl, skipSign_behind, scanDigits_behind]
  simp only [peek_behind, stop_behind]
  split
  · cases ({ s with
      stop := s.stop + 1, flags := { s.flags with scientific := true } } : Scanner
      ).skipSign.scanDigits Char.isDigit with
    | mk any t => cases any <;> rfl
  · rfl

theorem scanDecimal_behind : (s.behind full f).scanDecimal = s.scanDecimal.behind full f := by
  simp only [scanDecimal, peek_behind, scanDigits_behind, ← ite_behind, scanFraction_behind,
    scanExponent_behind, finishNumber_behind]

theorem scanLeadingZero_behind :
    (s.behind full f).scanLeadingZero = s.scanLeadingZero.behind full f := by
  simp only [scanLeadingZero, stop_behind, limit_behind, source_behind]
  split
  · exact checkNumberEnd_behind (s := ({ s with
      stop := s.source.skipWhile s.limit Char.isDigit (s.stop + 1), kind := .numericLiteral
      flags := { s.flags with octal := true } } : Scanner).setValue)
  · exact scanDecimal_behind (s := { s with flags := { s.flags with containsLeadingZero := true } })

theorem scanNumber_behind : (s.behind full f).scanNumber = s.scanNumber.behind full f := by
  simp only [scanNumber, peek_behind, stop_behind, limit_behind, check_behind,
    scanLeadingZero_behind, scanDecimal_behind]
  split
  · split
    · exact scanRadix_behind (s := { s with flags := { s.flags with hexSpecifier := true } }) _ _
    · exact scanRadix_behind (s := { s with flags := { s.flags with hexSpecifier := true } }) _ _
    · exact scanRadix_behind (s := { s with flags := { s.flags with binarySpecifier := true } }) _ _
    · exact scanRadix_behind (s := { s with flags := { s.flags with binarySpecifier := true } }) _ _
    · exact scanRadix_behind (s := { s with flags := { s.flags with octalSpecifier := true } }) _ _
    · exact scanRadix_behind (s := { s with flags := { s.flags with octalSpecifier := true } }) _ _
    · split <;> rfl
    · rfl
  · rfl

@[simp] theorem push_behind {c : Char} : (s.behind full f).push c = (s.push c).behind full f := rfl

@[simp] theorem pushRaw_behind {p : Nat} :
    (s.behind full f).pushRaw p = (s.pushRaw p).behind full f := rfl

@[simp] theorem markInvalidEscape_behind :
    (s.behind full f).markInvalidEscape = s.markInvalidEscape.behind full f := rfl

@[simp] theorem reportIf_behind {ok : Bool} {m : Message} {a b : Nat} {args : List String} :
    (s.behind full f).reportIf ok m a b args = (s.reportIf ok m a b args).behind full f := by
  simp only [reportIf, report_behind, ite_behind]

theorem takeHex?_behind {count : Nat} : (s.behind full f).takeHex? count =
    (s.takeHex? count).map fun r => (r.1, r.2.behind full f) := by
  simp only [takeHex?, stop_behind, limit_behind, source_behind, peek_behind, cut_behind]
  split <;> rfl

theorem takeOctal_behind (more value : Nat) (s : Scanner) :
    takeOctal more value (s.behind full f) =
      ((takeOctal more value s).1, (takeOctal more value s).2.behind full f) := by
  induction more generalizing value s with
  | zero => rfl
  | succ more ih =>
    rw [takeOctal, takeOctal, peek_behind]
    split
    · split
      · exact ih _ { s with stop := s.stop + 1 }
      · rfl
    · rfl

variable {context : EscapeContext} {start : Nat}

theorem scanOctalEscape_behind {first : Nat} :
    (s.behind full f).scanOctalEscape context start first =
      (s.scanOctalEscape context start first).behind full f := by
  simp only [scanOctalEscape, takeOctal_behind, markInvalidEscape_behind, stop_behind,
    reportIf_behind, pushRaw_behind, push_behind, ite_behind]

theorem pushPair?_behind {unit : Nat} :
    (s.behind full f).pushPair? unit = (s.pushPair? unit).map (·.behind full f) := by
  let t : Scanner := { s with stop := s.stop + 2 }
  let join (r : Nat × Scanner) : Option Scanner := do
    guard (0xDC00 ≤ r.1 && r.1 ≤ 0xDFFF)
    return r.2.push (charOfCode (0x10000 + (unit - 0xD800) * 1024 + (r.1 - 0xDC00)))
  have guarded (g : Option Unit) {a b : Option Scanner} (h : a = b.map (·.behind full f)) :
      (g.bind fun _ => a) = (g.bind fun _ => b).map (·.behind full f) := by
    cases g with
    | none => rfl
    | some _ => exact h
  have joined (r : Nat × Scanner) :
      join (r.1, r.2.behind full f) = (join r).map (·.behind full f) := guarded _ rfl
  have low : ((t.behind full f).takeHex? 4).bind join =
      ((t.takeHex? 4).bind join).map (·.behind full f) := by
    rw [takeHex?_behind]
    cases t.takeHex? 4 with
    | none => rfl
    | some r => exact joined r
  exact guarded _ low

theorem pushUnit_behind {unit : Nat} :
    (s.behind full f).pushUnit unit = (s.pushUnit unit).behind full f := by
  simp only [pushUnit, pushPair?_behind, push_behind]
  cases s.pushPair? unit <;> rfl

theorem badHexEscape_behind : (s.behind full f).badHexEscape context start =
    (s.badHexEscape context start).behind full f := by
  simp only [badHexEscape, markInvalidEscape_behind, stop_behind, reportIf_behind, pushRaw_behind]

theorem closeEscape_behind : (s.behind full f).closeEscape context =
    ((s.closeEscape context).1, (s.closeEscape context).2.behind full f) := by
  simp only [closeEscape, peek_behind, stop_behind, reportIf_behind]
  split <;> rfl

theorem scanBracedEscape_behind : (s.behind full f).scanBracedEscape context start =
    (s.scanBracedEscape context start).behind full f := by
  simp only [scanBracedEscape, cut_behind, moved_behind rfl, reportIf_behind, closeEscape_behind,
    markInvalidEscape_behind, pushRaw_behind]
  simp only [stop_behind, limit_behind, source_behind, value_behind, ite_behind]
  rfl

theorem scanEscaped_behind {c : Char} : (s.behind full f).scanEscaped context start c =
    (s.scanEscaped context start c).behind full f := by
  simp only [scanEscaped, peek_behind, push_behind, scanOctalEscape_behind,
    markInvalidEscape_behind, pushRaw_behind, takeHex?_behind, badHexEscape_behind,
    scanBracedEscape_behind]
  split
  · rfl
  split
  · rfl
  split
  · rfl
  split
  · rfl
  · rfl
  · rfl
  · rfl
  · rfl
  · rfl
  · cases s.takeHex? 2 <;> rfl
  · split
    · rfl
    · cases s.takeHex? 4 with
      | none => rfl
      | some r =>
        exact pushUnit_behind
          (s := { r.2 with flags := { r.2.flags with unicodeEscape := true } })
  · split <;> rfl
  · split <;> rfl

theorem scanEscape_behind :
    (s.behind full f).scanEscape context = (s.scanEscape context).behind full f := by
  simp only [scanEscape, moved_behind rfl, touch_behind, peek_behind, stop_behind]
  simp only [value_behind]
  split
  · exact scanEscaped_behind
  · rfl

theorem takeString_behind (quote : Char) (fuel : Nat) (s : Scanner) :
    takeString quote fuel (s.behind full f) = (takeString quote fuel s).behind full f := by
  induction fuel generalizing s with
  | zero => rfl
  | succ fuel ih =>
    rw [takeString, takeString, peek_behind]
    split
    · rfl
    · next c _ =>
      split
      · rfl
      split
      · rw [scanEscape_behind, ih]
      · exact ih ({ s with stop := s.stop + c.utf8Size }.push c)

@[simp] theorem markUnterminated_behind {m : Message} :
    (s.behind full f).markUnterminated m = (s.markUnterminated m).behind full f := rfl

theorem scanString_behind {quote : Char} :
    (s.behind full f).scanString quote = (s.scanString quote).behind full f := by
  simp only [scanString, moved_behind rfl, takeString_behind, check_behind, cut_behind, peek_behind,
    take_behind, markUnterminated_behind]
  simp only [stop_behind, limit_behind, value_behind, ite_behind]

theorem takeTemplate_behind (context : EscapeContext) (fuel : Nat) (s : Scanner) :
    takeTemplate context fuel (s.behind full f) =
      ((takeTemplate context fuel s).1, (takeTemplate context fuel s).2.behind full f) := by
  induction fuel generalizing s with
  | zero => rfl
  | succ fuel ih =>
    rw [takeTemplate, takeTemplate]
    simp only [peek_behind]
    split
    · rfl
    · next c _ =>
      split
      · rfl
      split
      · rfl
      split
      · rw [scanEscape_behind, ih]
      split
      · exact ih ({ s with stop := s.stop + if s.peek 1 == some '\n' then 2 else 1 }.push '\n')
      · exact ih ({ s with stop := s.stop + c.utf8Size }.push c)

theorem scanTemplate_behind {reports : Bool} :
    (s.behind full f).scanTemplate reports = (s.scanTemplate reports).behind full f := by
  simp only [scanTemplate, check_behind, moved_behind rfl, takeTemplate_behind, cut_behind,
    take_behind, markUnterminated_behind]
  simp only [peek_behind, stop_behind, limit_behind, source_behind]
  split <;> rfl

theorem scanOperatorOrWord_behind (plain : f.unicodeEscape = false) (c : Char) :
    (s.behind full f).scanOperatorOrWord c = (s.scanOperatorOrWord c).behind full f := by
  simp only [scanOperatorOrWord, scanDot, scanQuestion, scanLess, scanEquals, scanExclamation,
    scanStep, scanDoubled, scanWithEquals, peek_behind, take_behind, scanNumber_behind,
    scanString_behind, scanTemplate_behind, scanPrivateIdentifier_behind, scanWord_behind plain,
    ← ite_behind]
  split <;> rfl

theorem scanToken_behind (plain : f.unicodeEscape = false) :
    (s.behind full f).scanToken = s.scanToken.behind full f := by
  simp only [scanToken, peek_behind, take_behind, scanOperatorOrWord_behind plain,
    scanInvalidCharacter_behind]
  split
  · split <;> rfl
  · rfl

end Scanner
end ScriptGrammar
