import ScriptGrammar.Proofs.Scanner.Excerpt
import ScriptGrammar.Proofs.Scanner.Standing

/-!
# Reading an excerpt where it stands

A scanner that reads to the end of an excerpt may as well stand in the text around it, with the
end of the excerpt for its limit. `within` places it there: offsets are moved, what is pending
comes behind what was, and all else is the same. Every part of the scanner commutes with that. The
first line of a script and the markers of a conflict are the exceptions, since they are told by
what comes before them.
-/

namespace ScriptGrammar

def Range.moved (r : Range) (base : Nat) : Range := ⟨base + r.pos, base + r.stop⟩

def Diagnostic.moved (d : Diagnostic) (base : Nat) : Diagnostic :=
  { d with range := d.range.moved base }

def Scanner.UnicodeEscape.moved (e : Scanner.UnicodeEscape) (base : Nat) : Scanner.UnicodeEscape :=
  { e with first := base + e.first, last := base + e.last }

namespace Scanner

variable {s t u : Scanner} {base a b p n : Nat} {c : Char}

/-- The scanner `t` of an excerpt that begins at `base` in the text of `s`, as it stands there. -/
def within (t s : Scanner) (base : Nat) : Scanner where
  kind := t.kind
  fullStart := base + t.fullStart
  start := base + t.start
  stop := base + t.stop
  value := t.value
  flags := t.flags
  source := s.source
  limit := base + t.limit
  keepsTrivia := t.keepsTrivia
  pending := s.pending ++ t.pending.map (·.moved base)
  torn := s.torn || t.torn

/-- The end of an exponent, where it is known whether it has digits. -/
def closeExponent : Bool × Scanner → Bool × Scanner
  | (true, s) => (true, s)
  | (false, s) => (true, s.report .digitExpected s.stop s.stop [])

/-- The end of an escape in braces from `start` on, where `fine` says that its number is one of a
character. -/
def finishBraced (s : Scanner) (context : EscapeContext) (fine : Bool) (code start : Nat) :
    Scanner :=
  let r := s.closeEscape context
  if fine && r.1 then
    { r.2 with flags := { r.2.flags with extendedUnicodeEscape := true } }.push (charOfCode code)
  else r.2.markInvalidEscape.pushRaw start

/-- The end of a string that was read from `first` on. -/
def closeString (s : Scanner) (quote : Char) (first : Nat) : Scanner :=
  let v := (s.check (s.stop ≤ s.limit)).cut first s.stop
  if v.peek 0 == some quote then v.take 1 .stringLiteral
  else (v.take 0 .stringLiteral).markUnterminated .unterminatedString

/-- The end of the piece of a template that was read from `first` on. -/
def closePiece (fresh : Bool) (first : Nat) (r : PieceEnd × Scanner) : Scanner :=
  let v := (r.2.check (r.2.stop ≤ r.2.limit)).cut first r.2.stop
  let last : Kind := if fresh then .noSubstitutionTemplateLiteral else .templateTail
  match r.1 with
  | .closed => v.take 1 last
  | .substitution => v.take 2 (if fresh then .templateHead else .templateMiddle)
  | .unterminated => (v.take 0 last).markUnterminated .unterminatedTemplate

/-- The scanner `t` reads all of an excerpt, which stands in the text of `s` from `base` on. -/
structure Fits (t s : Scanner) (base : Nat) : Prop extends t.Stands where
  excerpt : t.source.Excerpt s.source base

-- In brackets, as a condition that is rewritten by computation keeps its old decision procedure.
@[simp] theorem stop_within : (t.within s base).stop = base + t.stop := (rfl)

@[simp] theorem start_within : (t.within s base).start = base + t.start := (rfl)

@[simp] theorem limit_within : (t.within s base).limit = base + t.limit := (rfl)

@[simp] theorem source_within : (t.within s base).source = s.source := (rfl)

@[simp] theorem value_within : (t.within s base).value = t.value := (rfl)

@[simp] theorem kind_within : (t.within s base).kind = t.kind := (rfl)

@[simp] theorem atEnd_within : (t.within s base).atEnd = t.atEnd := by
  simp [atEnd]

@[simp] theorem take_within {k : Kind} :
    (t.within s base).take n k = (t.take n k).within s base := by
  simp [take, within, Nat.add_assoc]

@[simp] theorem check_within {ok : Bool} :
    (t.within s base).check ok = (t.check ok).within s base := by
  simp [check, within, Bool.or_assoc]

@[simp] theorem report_within {m : Message} {args : List String} :
    (t.within s base).report m (base + a) (base + b) args =
      (t.report m a b args).within s base := by
  have pushed : (s.pending ++ t.pending.map (·.moved base)).push ⟨⟨base + a, base + b⟩, m, args⟩ =
      s.pending ++ (t.pending.push ⟨⟨a, b⟩, m, args⟩).map (·.moved base) := by
    rw [Array.map_push, Array.append_push]
    rfl
  simp only [report, Diagnostics.report, within, pushed]

theorem ite_within {q : Prop} [Decidable q] {t u : Scanner} :
    (if q then t else u).within s base = if q then t.within s base else u.within s base :=
  apply_ite (·.within s base) q t u

theorem Fits.onward (h : t.Fits s base) (k : Onward t u) : u.Fits s base :=
  ⟨k.stands h.toStands, k.source ▸ h.excerpt⟩

/-- All that matters is what is read and where the cursor is. -/
theorem Fits.at (h : t.Fits s base) (source : u.source = t.source) (limit : u.limit = t.limit)
    (boundary : t.source.isBoundary u.stop) : u.Fits s base :=
  ⟨⟨by rw [limit, source]; exact h.whole, source ▸ boundary⟩, source ▸ h.excerpt⟩

namespace Fits

variable (h : t.Fits s base)

include h

theorem inside : t.stop ≤ t.source.size := Source.le_size_of_isBoundary h.boundary

theorem charAt? (p : Nat) : (t.within s base).charAt? (base + p) = t.charAt? p := by
  show s.source.charBefore? (base + t.limit) (base + p) = t.source.charBefore? t.limit p
  rw [h.whole]
  exact h.excerpt.charBefore? p

theorem peek (k : Nat) : (t.within s base).peek k = t.peek k := by
  rw [Scanner.peek, stop_within, Nat.add_assoc, h.charAt?, Scanner.peek]

theorem skipWhile (f : Char → Bool) (p : Nat) :
    s.source.skipWhile (base + t.limit) f (base + p) = base + t.source.skipWhile t.limit f p := by
  rw [h.whole]
  exact h.excerpt.skipWhile f p

theorem touch (p : Nat) : (t.within s base).touch (base + p) = (t.touch p).within s base := by
  have same : (decide (base + t.limit ≤ base + p) ||
        (s.source.isBoundary (base + p) && s.source.isBoundary (base + t.limit))) =
      (decide (t.limit ≤ p) || (t.source.isBoundary p && t.source.isBoundary t.limit)) := by
    by_cases far : t.limit ≤ p
    · simp [far]
    · have limit : t.limit = t.source.size := h.whole
      rw [h.excerpt.isBoundary (by omega), h.excerpt.isBoundary (Nat.le_of_eq limit)]
      simp [far]
  exact (congrArg (t.within s base).check same).trans check_within

theorem cut (a : Nat) (le : b ≤ t.source.size) :
    (t.within s base).cut (base + a) (base + b) = (t.cut a b).within s base :=
  (congrArg (t.within s base).check (h.excerpt.sliceable le)).trans check_within

theorem setValue : (t.within s base).setValue = t.setValue.within s base := by
  have value : (t.within s base).source.slice (base + t.start) (base + t.stop) =
      t.source.slice t.start t.stop := h.excerpt.slice h.inside
  simp only [Scanner.setValue, start_within, stop_within, h.cut _ h.inside, value]
  rfl

theorem pushRaw (p : Nat) : (t.within s base).pushRaw (base + p) = (t.pushRaw p).within s base := by
  have value : (t.within s base).source.slice (base + p) (base + t.stop) =
      t.source.slice p t.stop := h.excerpt.slice h.inside
  simp only [Scanner.pushRaw, stop_within, h.cut _ h.inside, value]
  rfl

theorem lineBreakAt {limit : Nat} (le : limit ≤ t.source.size) (p : Nat) :
    (t.within s base).lineBreakAt (base + limit) (base + p) = t.lineBreakAt limit p := by
  unfold Scanner.lineBreakAt
  by_cases below : p < t.source.size
  · rw [source_within, h.excerpt.charAt? below]
    cases t.source.charAt? p with
    | none => rfl
    | some c => simp [Nat.add_assoc]
  · have none : t.source.charAt? p = none := by
      cases here : t.source.charAt? p with
      | none => rfl
      | some c => exact absurd (Source.charAt?_lt here) below
    rw [none]
    split
    · next c _ =>
      have positive := c.utf8Size_pos
      have far : ¬ base + p + c.utf8Size ≤ base + limit := by omega
      simp [far]
    · rfl

theorem lineEnd (p : Nat) : (t.within s base).lineEnd (base + p) = base + t.lineEnd p := by
  have same (q : Nat) (_ : q < t.limit) := h.lineBreakAt (Nat.le_of_eq h.whole) q
  simp only [Scanner.lineEnd, limit_within, Nat.add_sub_add_left, Source.seek_moved same]
  exact Option.getD_map _ _ _

theorem escapeAt? (p : Nat) :
    (t.within s base).escapeAt? (base + p) = (t.escapeAt? p).map (·.moved base) := by
  simp only [Scanner.escapeAt?, Nat.add_assoc base, h.charAt?, limit_within, source_within,
    h.skipWhile]
  split
  · split
    · generalize t.source.skipWhile t.limit isHexDigit (p + 3) = e
      have same : (base + e == base + (p + 3)) = (e == p + 3) :=
        Bool.eq_iff_iff.mpr (by simp)
      rw [same]
      split
      · rfl
      · simp [UnicodeEscape.moved, Nat.add_sub_add_left]
    · have same : decide (base + (p + 6) ≤ base + t.limit) = decide (p + 6 ≤ t.limit) := by simp
      rw [same]
      split <;> rfl
  · rfl

theorem unicodeEscape? (p : Nat) :
    (t.within s base).unicodeEscape? (base + p) = t.unicodeEscape? p := by
  simp only [Scanner.unicodeEscape?, h.escapeAt?]
  cases found : t.escapeAt? p with
  | none => rfl
  | some e =>
    have sliceable := (escapeAt?_spec found).2.2
    simp only [Source.sliceable, Bool.and_eq_true] at sliceable
    have digits : s.source.chars (base + e.first) (base + e.last) = t.source.chars e.first e.last :=
      h.excerpt.chars (Source.le_size_of_isBoundary sliceable.2)
    simp [UnicodeEscape.moved, digits]

theorem touchEscape (p : Nat) :
    (t.within s base).touchEscape (base + p) = (t.touchEscape p).within s base := by
  simp only [Scanner.touchEscape, h.escapeAt?]
  cases found : t.escapeAt? p with
  | none => rfl
  | some e =>
    have sliceable := (escapeAt?_spec found).2.2
    simp only [Source.sliceable, Bool.and_eq_true] at sliceable
    exact h.cut _ (Source.le_size_of_isBoundary sliceable.2)

end Fits

theorem Fits.takeParts (fuel : Nat) (h : t.Fits s base) :
    Scanner.takeParts fuel (t.within s base) = (Scanner.takeParts fuel t).within s base := by
  induction fuel generalizing t with
  | zero => rfl
  | succ fuel ih =>
    rw [Scanner.takeParts, Scanner.takeParts]
    simp only [atEnd_within, h.peek, stop_within, h.touchEscape, h.touch]
    split
    · rfl
    split
    · have fits := h.onward (onward_touchEscape t.stop t)
      generalize t.touchEscape t.stop = u at fits
      rw [fits.unicodeEscape?]
      split
      · next c length found =>
        split
        · have next : Onward u { u with
              stop := u.stop + length, value := u.value.push c
              flags := { u.flags with unicodeEscape := true } } :=
            Onward.moved _ _ _ _ fun _ => ⟨Nat.le_add_right _ _, (unicodeEscape?_spec found).2⟩
          rw [← ih (fits.onward next), Nat.add_assoc]
          rfl
        · rfl
      · rfl
    · have fits := h.onward (onward_touch_stop t)
      generalize t.touch t.stop = u at fits
      rw [fits.peek]
      split
      · next c found =>
        split
        · have next : Onward u { u with
              stop := u.stop + c.utf8Size, value := u.value.push c } :=
            Onward.moved _ _ _ _ fun _ => ⟨Nat.le_add_right _ _, peek_boundary found⟩
          rw [← ih (fits.onward next), Nat.add_assoc]
          rfl
        · rfl
      · rfl

namespace Fits

variable (h : t.Fits s base)

include h

theorem scanParts : (t.within s base).scanParts = t.scanParts.within s base := by
  have parts := h.onward (onward_takeParts (t.limit - t.stop) t)
  have same : (Scanner.takeParts (t.limit - t.stop) t).source = t.source :=
    (onward_takeParts (t.limit - t.stop) t).source
  simp only [Scanner.scanParts, limit_within, stop_within, Nat.add_sub_add_left, h.takeParts,
    parts.cut _ parts.inside]

theorem scanIdentifier : (t.within s base).scanIdentifier = t.scanIdentifier.within s base := by
  simp only [Scanner.scanIdentifier, h.scanParts]
  rfl

theorem scanInvalidCharacter :
    (t.within s base).scanInvalidCharacter = t.scanInvalidCharacter.within s base := by
  simp only [Scanner.scanInvalidCharacter, stop_within, h.touch, h.peek, take_within, Nat.add_assoc,
    report_within]

theorem isIdentifierAt (p : Nat) :
    (t.within s base).isIdentifierAt (base + p) = t.isIdentifierAt p := by
  simp only [Scanner.isIdentifierAt, h.charAt?, h.unicodeEscape?]

theorem touchName (p : Nat) :
    (t.within s base).touchName (base + p) = (t.touchName p).within s base := by
  simp only [Scanner.touchName, h.charAt?, h.touchEscape, h.touch, ite_within]

theorem scanWord : (t.within s base).scanWord = t.scanWord.within s base := by
  have fits := h.onward (onward_touchName (p := t.stop) fun hs => hs.boundary)
  simp only [Scanner.scanWord, stop_within, h.touchName, h.isIdentifierAt, fits.scanIdentifier,
    fits.scanInvalidCharacter, ite_within]

theorem scanPrivateIdentifier (sign : t.peek 0 = some '#') :
    (t.within s base).scanPrivateIdentifier = t.scanPrivateIdentifier.within s base := by
  have behind : t.source.isBoundary (t.stop + 1) := isBoundary_succ sign rfl
  have touched := onward_touchName (s := t) (p := t.stop + 1) fun _ => behind
  have fits := h.onward touched
  have past : Onward (t.touchName (t.stop + 1))
      { t.touchName (t.stop + 1) with stop := t.stop + 1, value := "#" } :=
    Onward.moved _ _ _ _ fun _ => ⟨by simp, touched.source ▸ behind⟩
  simp only [Scanner.scanPrivateIdentifier, stop_within, Nat.add_assoc, h.touchName,
    h.isIdentifierAt, fits.scanInvalidCharacter]
  split
  · exact congrArg (fun u : Scanner => { u with kind := .privateIdentifier })
      (fits.onward past).scanParts
  · rfl

end Fits

theorem Fits.takeDigits {isDigit : Char → Bool} (thin : ∀ c, isDigit c → c.utf8Size = 1)
    (fuel : Nat) (run : DigitRun) (h : t.Fits s base) :
    Scanner.takeDigits isDigit fuel run (t.within s base) =
      ((Scanner.takeDigits isDigit fuel run t).1,
        (Scanner.takeDigits isDigit fuel run t).2.within s base) := by
  induction fuel generalizing run t with
  | zero => rfl
  | succ fuel ih =>
    rw [Scanner.takeDigits, Scanner.takeDigits, h.peek]
    split
    · rfl
    · next separator =>
      have behind : t.source.isBoundary (t.stop + 1) := isBoundary_succ separator rfl
      let u : Scanner :=
        { t with stop := t.stop + 1, flags := { t.flags with containsSeparator := true } }
      have reported (m : Message) :
          (u.within s base).report m (base + t.stop) (base + (t.stop + 1)) [] =
            (u.report m t.stop (t.stop + 1) []).within s base := report_within
      dsimp only
      split
      · exact ih _ (h.at (u := u) rfl rfl behind)
      split
      · refine Eq.trans (congrArg _ (reported .consecutiveSeparators)) (ih _ ?_)
        exact h.at rfl rfl behind
      · refine Eq.trans (congrArg _ (reported .separatorNotAllowed)) (ih _ ?_)
        exact h.at rfl rfl behind
    · next c _ found =>
      split
      · next digit => exact ih _ (h.onward (onward_pass found (thin c digit)))
      · rfl

namespace Fits

variable (h : t.Fits s base)

include h

theorem scanDigits {isDigit : Char → Bool} (thin : ∀ c, isDigit c → c.utf8Size = 1) :
    (t.within s base).scanDigits isDigit =
      ((t.scanDigits isDigit).1, (t.scanDigits isDigit).2.within s base) := by
  have behind := behindByte_takeDigits isDigit (t.limit - t.stop) {} t fun no => (nomatch no)
  simp only [Scanner.scanDigits, limit_within, stop_within, Nat.add_sub_add_left, h.takeDigits thin]
  split
  · next separated =>
    rw [Nat.add_sub_assoc (behind separated).1, report_within]
  · rfl

theorem checkNumberEnd : (t.within s base).checkNumberEnd = t.checkNumberEnd.within s base := by
  have touched := onward_touch_stop t
  have fits := h.onward touched
  have same : (t.touch t.stop).stop = t.stop := rfl
  simp only [Scanner.checkNumberEnd, stop_within, h.touch, fits.peek, fits.scanParts, ite_within,
    ← report_within]
  rfl

theorem finishNumber (allowed : Bool) :
    (t.within s base).finishNumber allowed = (t.finishNumber allowed).within s base := by
  have ended : Onward t
      (if (allowed && t.peek 0 == some 'n') = true then t.take 1 .bigIntLiteral
        else t.take 0 .numericLiteral) := by
    split
    · next h =>
      have suffix : t.peek 0 = some 'n' := by simpa using (Bool.and_eq_true_iff.mp h).2
      exact onward_take _ fun _ => isBoundary_succ suffix rfl
    · exact onward_take _ fun hs => hs.boundary
  have fits := h.onward ended
  simp only [Scanner.finishNumber, h.peek, take_within, ← ite_within, fits.setValue,
    (fits.onward (onward_setValue _)).checkNumberEnd]

theorem scanRadix {isDigit : Char → Bool} (thin : ∀ c, isDigit c → c.utf8Size = 1)
    (missing : Message) (behind : t.source.isBoundary (t.stop + 2)) :
    (t.within s base).scanRadix isDigit missing = (t.scanRadix isDigit missing).within s base := by
  have begun : Fits { t with stop := t.stop + 2 } s base := h.at rfl rfl behind
  have fits := begun.onward (onward_scanDigits thin _)
  have digits : ({ t.within s base with stop := base + (t.stop + 2) } : Scanner).scanDigits
      isDigit = _ := begun.scanDigits thin
  simp only [Scanner.scanRadix, stop_within, Nat.add_assoc, digits]
  cases found : ({ t with stop := t.stop + 2 } : Scanner).scanDigits isDigit with
  | mk any v =>
    rw [found] at fits
    cases any with
    | true => exact fits.finishNumber true
    | false =>
      dsimp only
      rw [stop_within, report_within]
      exact (fits.onward (onward_report_stop _ _ _)).finishNumber true

theorem scanFraction :
    (t.within s base).scanFraction = (t.scanFraction.1, t.scanFraction.2.within s base) := by
  simp only [Scanner.scanFraction, h.peek]
  split
  · next point =>
    have fits := h.onward (onward_pass (c := '.') (by simpa using point) rfl)
    exact congrArg (fun r : Bool × Scanner => (true, r.2))
      (fits.scanDigits fun _ => utf8Size_of_isDigit)
  · rfl

theorem skipSign : (t.within s base).skipSign = t.skipSign.within s base := by
  simp only [Scanner.skipSign, h.peek]
  split <;> rfl

theorem scanExponent :
    (t.within s base).scanExponent = (t.scanExponent.1, t.scanExponent.2.within s base) := by
  simp only [Scanner.scanExponent, h.peek]
  split
  · next letter =>
    let u : Scanner := { t with stop := t.stop + 1, flags := { t.flags with scientific := true } }
    have fits : u.Fits s base := h.at rfl rfl (isBoundary_either letter rfl rfl)
    have sign := fits.onward (onward_skipSign u)
    have digits := sign.scanDigits fun c => utf8Size_of_isDigit (c := c)
    show closeExponent ((u.within s base).skipSign.scanDigits Char.isDigit) =
      ((closeExponent (u.skipSign.scanDigits Char.isDigit)).1,
        (closeExponent (u.skipSign.scanDigits Char.isDigit)).2.within s base)
    rw [fits.skipSign, digits]
    cases u.skipSign.scanDigits Char.isDigit with
    | mk any v =>
      cases any with
      | true => rfl
      | false => simp [closeExponent]
  · rfl

theorem scanDecimal : (t.within s base).scanDecimal = t.scanDecimal.within s base := by
  have thin := fun c => utf8Size_of_isDigit (c := c)
  have whole : Onward t
      (if (t.peek 0 == some '.') = true then t else (t.scanDigits Char.isDigit).2) := by
    split
    · exact .refl t
    · exact onward_scanDigits thin t
  have first := h.onward whole
  have second := first.onward (onward_scanFraction _)
  have third := second.onward (onward_scanExponent _)
  simp only [Scanner.scanDecimal, h.peek, h.scanDigits thin, ← ite_within, first.scanFraction,
    second.scanExponent, third.finishNumber]

theorem scanLeadingZero (zero : t.peek 0 = some '0') :
    (t.within s base).scanLeadingZero = t.scanLeadingZero.within s base := by
  have behind : t.source.isBoundary (t.stop + 1) := isBoundary_succ zero rfl
  have last := Source.isBoundary_skipWhile t.limit Char.isDigit behind
  have digits := h.excerpt.chars (a := t.stop + 1) (Source.le_size_of_isBoundary last)
  simp only [Scanner.scanLeadingZero, stop_within, limit_within, source_within, Nat.add_assoc base,
    h.skipWhile, digits]
  split
  · let u : Scanner := { t with
      stop := t.source.skipWhile t.limit Char.isDigit (t.stop + 1), kind := .numericLiteral
      flags := { t.flags with octal := true } }
    have fits : u.Fits s base := h.at rfl rfl last
    show (u.within s base).setValue.checkNumberEnd = _
    rw [fits.setValue, (fits.onward (onward_setValue _)).checkNumberEnd]
  · exact scanDecimal (t := { t with flags := { t.flags with containsLeadingZero := true } })
      (h.at rfl rfl h.boundary)

theorem scanNumber : (t.within s base).scanNumber = t.scanNumber.within s base := by
  have radix (f : TokenFlags) (isDigit : Char → Bool) (thin : ∀ c, isDigit c → c.utf8Size = 1)
      (m : Message) (c : Char) (letter : t.peek 1 = some c) (one : c.utf8Size = 1) :
      (({ t with flags := f } : Scanner).within s base).scanRadix isDigit m =
        (({ t with flags := f } : Scanner).scanRadix isDigit m).within s base :=
    scanRadix (t := { t with flags := f }) (h.at rfl rfl h.boundary) thin m
      (isBoundary_succ (p := t.stop + 1) letter one)
  have hex := radix { t.flags with hexSpecifier := true } isHexDigit
    (fun _ => utf8Size_of_isHexDigit) .hexadecimalDigitExpected
  have binary := radix { t.flags with binarySpecifier := true } isBinaryDigit
    (fun _ => utf8Size_of_isBinaryDigit) .digitExpected
  have octal := radix { t.flags with octalSpecifier := true } isOctalDigit
    (fun _ => utf8Size_of_isOctalDigit) .digitExpected
  simp only [Scanner.scanNumber, h.peek, stop_within, limit_within, h.scanDecimal]
  split
  · next zero =>
    split
    · next letter => exact hex _ letter rfl
    · next letter => exact hex _ letter rfl
    · next letter => exact binary _ letter rfl
    · next letter => exact binary _ letter rfl
    · next letter => exact octal _ letter rfl
    · next letter => exact octal _ letter rfl
    · split
      · have room :
            decide (base + t.stop + 1 ≤ base + t.limit) = decide (t.stop + 1 ≤ t.limit) := by
          simp [Nat.add_assoc]
        rw [room, check_within]
        exact scanLeadingZero (t := t.check _) (h.at rfl rfl h.boundary) (eq_of_beq zero)
      · rfl
    · rfl
  · rfl

theorem takeHex? (count : Nat) : (t.within s base).takeHex? count =
    (t.takeHex? count).map fun r => (r.1, r.2.within s base) := by
  have room : decide (base + t.stop + count ≤ base + t.limit) =
      decide (t.stop + count ≤ t.limit) := by simp [Nat.add_assoc]
  simp only [Scanner.takeHex?, stop_within, limit_within, source_within, h.peek, room]
  split
  · next digits =>
    have le : t.stop + count ≤ t.source.size := by
      rw [← h.whole]
      exact of_decide_eq_true (Bool.and_eq_true_iff.mp digits).1
    rw [Nat.add_assoc, h.excerpt.chars le, h.cut _ le]
    rfl
  · rfl

end Fits

theorem Fits.takeOctal (more value : Nat) (h : t.Fits s base) :
    Scanner.takeOctal more value (t.within s base) =
      ((Scanner.takeOctal more value t).1, (Scanner.takeOctal more value t).2.within s base) := by
  induction more generalizing value t with
  | zero => rfl
  | succ more ih =>
    rw [Scanner.takeOctal, Scanner.takeOctal, h.peek]
    split
    · next found =>
      split
      · next octal => exact ih _ (h.onward (onward_pass found (utf8Size_of_isOctalDigit octal)))
      · rfl
    · rfl

namespace Fits

variable {context : EscapeContext} {start : Nat} (h : t.Fits s base)

include h

omit h in
theorem reportIf (ok : Bool) (m : Message) (a b : Nat) (args : List String) :
    (t.within s base).reportIf ok m (base + a) (base + b) args =
      (t.reportIf ok m a b args).within s base := by
  simp only [Scanner.reportIf, report_within, ite_within]

theorem reported (ok : Bool) (m : Message) (a b : Nat) (args : List String) :
    (t.reportIf ok m a b args).Fits s base := by
  unfold Scanner.reportIf
  split
  · exact h.at rfl rfl h.boundary
  · exact h

theorem scanOctalEscape (first : Nat) :
    (t.within s base).scanOctalEscape context (base + start) first =
      (t.scanOctalEscape context start first).within s base := by
  have taken := onward_takeOctal (if first ≤ 3 then 2 else 1) first t
  simp only [Scanner.scanOctalEscape, h.takeOctal]
  generalize Scanner.takeOctal (if first ≤ 3 then 2 else 1) first t = r at taken
  have fits := h.onward (taken.trans (onward_markInvalidEscape _))
  split
  · have raw (args : List String) := fits.reported context.reports .octalEscape start r.2.stop args
    rw [← (raw _).pushRaw, ← reportIf]
    rfl
  · rfl

theorem pushPair? (unit : Nat) :
    (t.within s base).pushPair? unit = (t.pushPair? unit).map (·.within s base) := by
  unfold Scanner.pushPair?
  rw [h.peek, h.peek]
  generalize high : (0xD800 ≤ unit && unit ≤ 0xDBFF && t.peek 0 == some '\x5c' &&
    t.peek 1 == some 'u') = joins
  cases joins with
  | false => rfl
  | true =>
    have second : t.peek 1 = some 'u' := by simpa using (Bool.and_eq_true_iff.mp high).2
    have fits : Fits { t with stop := t.stop + 2 } s base :=
      h.at rfl rfl (isBoundary_succ (p := t.stop + 1) second rfl)
    have low : ({ t.within s base with stop := base + t.stop + 2 } : Scanner).takeHex? 4 = _ :=
      fits.takeHex? 4
    rw [stop_within, low]
    cases ({ t with stop := t.stop + 2 } : Scanner).takeHex? 4 with
    | none => rfl
    | some r =>
      dsimp only [Option.map_some, Option.bind_eq_bind, Option.bind_some]
      generalize (0xDC00 ≤ r.1 && r.1 ≤ 0xDFFF) = paired
      cases paired <;> rfl

theorem pushUnit (unit : Nat) :
    (t.within s base).pushUnit unit = (t.pushUnit unit).within s base := by
  simp only [Scanner.pushUnit, h.pushPair?]
  cases t.pushPair? unit <;> rfl

theorem badHexEscape : (t.within s base).badHexEscape context (base + start) =
    (t.badHexEscape context start).within s base := by
  have marked := h.onward (onward_markInvalidEscape t)
  have fits := marked.onward (onward_reportIf_stop context.reports .hexadecimalDigitExpected _)
  show (((t.markInvalidEscape.within s base).reportIf context.reports .hexadecimalDigitExpected
    (base + t.stop) (base + t.stop) []).pushRaw (base + start)) = _
  rw [reportIf]
  exact fits.pushRaw start

theorem closeEscape : (t.within s base).closeEscape context =
    ((t.closeEscape context).1, (t.closeEscape context).2.within s base) := by
  simp only [Scanner.closeEscape, h.peek, stop_within, reportIf]
  split <;> rfl

theorem finishBraced (fine : Bool) (code start : Nat) :
    (t.within s base).finishBraced context fine code (base + start) =
      (t.finishBraced context fine code start).within s base := by
  have onward : Onward t (t.closeEscape context).2.markInvalidEscape :=
    onward_closeEscape.trans (onward_markInvalidEscape _)
  simp only [Scanner.finishBraced]
  rw [h.closeEscape, ite_within, ← (h.onward onward).pushRaw]
  rfl

theorem scanBracedEscape (brace : t.peek 0 = some '\x7b') :
    (t.within s base).scanBracedEscape context (base + start) =
      (t.scanBracedEscape context start).within s base := by
  have first : t.source.isBoundary (t.stop + 1) := isBoundary_succ brace rfl
  have last := Source.isBoundary_skipWhile t.limit isHexDigit first
  have inside := Source.le_size_of_isBoundary last
  have digits := h.excerpt.chars (a := t.stop + 1) inside
  have cut := h.cut (t.stop + 1) inside
  have empty : (base + t.source.skipWhile t.limit isHexDigit (t.stop + 1) == base + (t.stop + 1)) =
      (t.source.skipWhile t.limit isHexDigit (t.stop + 1) == t.stop + 1) :=
    Bool.eq_iff_iff.mpr (by simp)
  simp only [Scanner.scanBracedEscape, stop_within, limit_within, source_within, Nat.add_assoc base,
    h.skipWhile, digits, cut, empty]
  generalize t.source.skipWhile t.limit isHexDigit (t.stop + 1) = e at last
  generalize hexValue (t.source.chars (t.stop + 1) e) = code
  let u : Scanner := { t.cut (t.stop + 1) e with stop := e }
  have begun : u.Fits s base := h.at rfl rfl last
  let v (x y : Bool) : Scanner :=
    (u.reportIf x .hexadecimalDigitExpected e e []).reportIf y .unicodeEscapeOutOfRange
      (t.stop + 1) e []
  have fits (x y : Bool) : (v x y).Fits s base := (begun.reported _ _ _ _ _).reported _ _ _ _ _
  have moved (x y : Bool) : ((u.within s base).reportIf x .hexadecimalDigitExpected
      (base + e) (base + e) []).reportIf y .unicodeEscapeOutOfRange (base + (t.stop + 1))
      (base + e) [] = (v x y).within s base := by
    rw [reportIf, reportIf]
  generalize (e == t.stop + 1) = empty
  let large := !empty && decide (0x10FFFF < code)
  exact (congrArg (Scanner.finishBraced · context (!empty && !large) code (base + start))
    (moved _ _)).trans ((fits _ _).finishBraced _ code start)

theorem scanEscaped (c : Char) :
    (t.within s base).scanEscaped context (base + start) c =
      (t.scanEscaped context start c).within s base := by
  have marked := h.onward (onward_markInvalidEscape t)
  have raw : (t.within s base).markInvalidEscape.pushRaw (base + start) = _ := marked.pushRaw start
  simp only [Scanner.scanEscaped, h.peek, h.scanOctalEscape, raw, h.takeHex?, h.badHexEscape]
  split
  · rfl
  split
  · rfl
  split
  · rfl
  split
  · rfl
  · rfl
  · rfl
  · rfl
  · rfl
  · rfl
  · cases t.takeHex? 2 <;> rfl
  · split
    · next brace => exact h.scanBracedEscape (by simpa using brace)
    · cases found : t.takeHex? 4 with
      | none => rfl
      | some r =>
        obtain ⟨unit, u⟩ := r
        have fits := h.onward (onward_takeHex? found)
        exact (fits.at (u := { u with flags := { u.flags with unicodeEscape := true } })
          rfl rfl fits.boundary).pushUnit unit
  · split <;> rfl
  · split <;> rfl

/-- The character at the cursor is passed over. -/
theorem next (found : t.peek 0 = some c) :
    Fits { t with stop := t.stop + c.utf8Size } s base := h.at rfl rfl (peek_boundary found)

theorem scanEscape (slash : t.peek 0 = some '\x5c') :
    (t.within s base).scanEscape context = (t.scanEscape context).within s base := by
  have past := h.onward (onward_pass slash rfl)
  have fits := past.onward (onward_touch_stop _)
  have touched : (({ t.within s base with stop := base + t.stop + 1 } : Scanner).touch
      (base + t.stop + 1)) = _ := past.touch (t.stop + 1)
  simp only [Scanner.scanEscape, stop_within, touched, fits.peek]
  split
  · next c found =>
    rw [Nat.add_assoc base]
    exact (fits.next found).scanEscaped c
  · exact report_within

end Fits

theorem Fits.takeString (quote : Char) (fuel : Nat) (h : t.Fits s base) :
    Scanner.takeString quote fuel (t.within s base) =
      (Scanner.takeString quote fuel t).within s base := by
  induction fuel generalizing t with
  | zero => rfl
  | succ fuel ih =>
    rw [Scanner.takeString, Scanner.takeString, h.peek]
    split
    · rfl
    · next c found =>
      split
      · rfl
      split
      · next slash =>
        obtain rfl : c = '\x5c' := by simpa using slash
        rw [h.scanEscape found, ih (h.onward (scanEscape_spec found).1)]
      · rw [stop_within, Nat.add_assoc]
        exact ih ((h.next found).onward (onward_push c))

theorem Fits.takeTemplate (context : EscapeContext) (fuel : Nat) (h : t.Fits s base) :
    Scanner.takeTemplate context fuel (t.within s base) =
      ((Scanner.takeTemplate context fuel t).1,
        (Scanner.takeTemplate context fuel t).2.within s base) := by
  induction fuel generalizing t with
  | zero => rfl
  | succ fuel ih =>
    rw [Scanner.takeTemplate, Scanner.takeTemplate, h.peek, h.peek]
    split
    · rfl
    · next c found =>
      split
      · rfl
      split
      · rfl
      split
      · next slash =>
        obtain rfl : c = '\x5c' := by simpa using slash
        rw [h.scanEscape found, ih (h.onward (scanEscape_spec found).1)]
      split
      · next feed =>
        obtain rfl : c = '\r' := by simpa using feed
        dsimp only
        rw [stop_within, Nat.add_assoc]
        refine ih (t := push { t with stop := t.stop + _ } '\n') (h.at rfl rfl ?_)
        show t.source.isBoundary (t.stop + if (t.peek 1 == some '\n') = true then 2 else 1)
        split
        · next line =>
          have line : t.peek 1 = some '\n' := by simpa using line
          exact isBoundary_succ (p := t.stop + 1) line rfl
        · exact isBoundary_succ found rfl
      · rw [stop_within, Nat.add_assoc]
        exact ih ((h.next found).onward (onward_push c))

namespace Fits

variable (h : t.Fits s base)

include h

omit h in
theorem markUnterminated (m : Message) :
    (t.within s base).markUnterminated m = (t.markUnterminated m).within s base := by
  let u : Scanner := { t with flags := { t.flags with unterminated := true } }
  have reported : (u.within s base).report m (base + u.stop) (base + u.stop) [] = _ := report_within
  exact reported

/-- What was read from `p` on is cut out. -/
theorem cutContent (p : Nat) :
    ((t.within s base).check ((t.within s base).stop ≤ (t.within s base).limit)).cut (base + p)
        (t.within s base).stop = ((t.check (t.stop ≤ t.limit)).cut p t.stop).within s base := by
  simp only [stop_within, limit_within, Nat.add_le_add_iff_left, check_within]
  exact cut (t := t.check _) (h.at rfl rfl h.boundary) p h.inside

theorem closeString (quote : Char) (first : Nat) :
    (t.within s base).closeString quote (base + first) =
      (t.closeString quote first).within s base := by
  have kept : Fits ((t.check (t.stop ≤ t.limit)).cut first t.stop) s base :=
    h.at rfl rfl h.boundary
  simp only [Scanner.closeString]
  rw [h.cutContent, kept.peek, take_within, take_within, markUnterminated, ← ite_within]

theorem scanString {quote : Char} (opening : t.peek 0 = some quote) (thin : quote.utf8Size = 1) :
    (t.within s base).scanString quote = (t.scanString quote).within s base := by
  have begun := h.onward (onward_pass opening thin)
  calc (t.within s base).scanString quote
    _ = (Scanner.takeString quote (base + t.limit - (base + t.stop + 1))
          (({ t with stop := t.stop + 1 } : Scanner).within s base)).closeString quote
            (base + t.stop + 1) := rfl
    _ = ((Scanner.takeString quote (t.limit - (t.stop + 1))
          { t with stop := t.stop + 1 }).within s base).closeString quote
            (base + (t.stop + 1)) := by
      rw [Nat.add_assoc, Nat.add_sub_add_left, begun.takeString]
    _ = (t.scanString quote).within s base :=
      (begun.onward (onward_takeString _ _ _)).closeString _ _

theorem closePiece (fresh : Bool) (first : Nat) (e : PieceEnd) :
    Scanner.closePiece fresh (base + first) (e, t.within s base) =
      (Scanner.closePiece fresh first (e, t)).within s base := by
  simp only [Scanner.closePiece, h.cutContent]
  cases e with
  | closed => exact take_within
  | substitution => exact take_within
  | unterminated =>
    dsimp only
    rw [take_within, markUnterminated]

theorem scanTemplate (reports : Bool) (opening : t.peek 0 = some c) (thin : c.utf8Size = 1) :
    (t.within s base).scanTemplate reports = (t.scanTemplate reports).within s base := by
  have below : t.stop < t.source.size := Source.charAt?_lt (charAt?_eq_some.mp opening).2
  have around : base + t.stop < s.source.size :=
    Nat.lt_of_lt_of_le (Nat.add_lt_add_left below base)
      (Source.le_size_of_isBoundary h.excerpt.ends)
  let context := if reports then EscapeContext.template else .taggedTemplate
  let u : Scanner := { t.check (t.stop < t.source.size) with stop := t.stop + 1, value := "" }
  have begun : u.Fits s base := h.at rfl rfl (isBoundary_succ opening thin)
  have same : ({ (t.within s base).check (base + t.stop < s.source.size) with
      stop := base + (t.stop + 1), value := "" } : Scanner) = u.within s base := by
    rw [decide_eq_true around, check_within]
    simp only [u, decide_eq_true below]
    rfl
  calc (t.within s base).scanTemplate reports
    _ = Scanner.closePiece ((t.within s base).peek 0 == some '\x60') (base + (t.stop + 1))
          (Scanner.takeTemplate context (base + t.limit - (base + (t.stop + 1)) + 1)
            { (t.within s base).check (base + t.stop < s.source.size) with
              stop := base + (t.stop + 1), value := "" }) := rfl
    _ = Scanner.closePiece (t.peek 0 == some '\x60') (base + (t.stop + 1))
          ((Scanner.takeTemplate context (t.limit - (t.stop + 1) + 1) u).1,
            (Scanner.takeTemplate context (t.limit - (t.stop + 1) + 1) u).2.within s base) := by
      rw [same, Nat.add_sub_add_left, h.peek, begun.takeTemplate]
    _ = (t.scanTemplate reports).within s base :=
      (begun.onward (takeTemplate_spec _ _ _).1).closePiece _ _ _

theorem scanOperatorOrWord (found : t.peek 0 = some c) :
    (t.within s base).scanOperatorOrWord c = (t.scanOperatorOrWord c).within s base := by
  have number := h.scanNumber
  have word := h.scanWord
  have template := h.scanTemplate false found
  unfold Scanner.scanOperatorOrWord
  split
  case h_14 => exact h.scanString found rfl
  case h_15 => exact h.scanString found rfl
  case h_16 => exact template rfl
  case h_17 => exact h.scanPrivateIdentifier found
  all_goals
    simp only [scanDot, scanQuestion, scanLess, scanEquals, scanExclamation, scanStep, scanDoubled,
      scanWithEquals, h.peek, take_within, number, word, ite_within]

theorem scanToken : (t.within s base).scanToken = t.scanToken.within s base := by
  simp only [Scanner.scanToken, h.peek]
  split
  · next c found =>
    split
    · exact take_within
    · exact h.scanOperatorOrWord found
  · exact h.scanInvalidCharacter

end Fits
end Scanner
end ScriptGrammar
