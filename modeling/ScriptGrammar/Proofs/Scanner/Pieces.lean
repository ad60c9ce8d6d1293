import ScriptGrammar.Proofs.Parse.Openers
import ScriptGrammar.Proofs.Scanner.Passage

/-!
# Template pieces read again

Where an escape stands decides whether it is reported, not what it decodes to. So two readings of
one piece of a template give the same token, and the one that reports less reports nothing of its
own. A piece that a scan has read is read again as it was.
-/

namespace ScriptGrammar

/-- What the flags say that no template piece adds. -/
def TokenFlags.apart (f : TokenFlags) : TokenFlags :=
  { f with
    extendedUnicodeEscape := false, unicodeEscape := false, containsInvalidEscape := false
    unterminated := false }

namespace Scanner

variable {s₀ t₀ s t : Scanner} {c : Char} {context : EscapeContext}

/-- From `s₀` and from `t₀` on the same text was read and decoded alike. Whatever was reported on
the way to `s` was reported on the way to `t` too. -/
structure Hushes (s₀ t₀ s t : Scanner) : Prop where
  source : t.source = s.source
  limit : t.limit = s.limit
  fullStart : t.fullStart = s.fullStart
  start : t.start = s.start
  stop : t.stop = s.stop
  value : t.value = s.value
  flags : t.flags = s.flags
  apart : s.flags.apart = s₀.flags.apart
  fewer : ∃ few more : Diagnostics, s.pending = s₀.pending ++ few ∧
    t.pending = t₀.pending ++ more ∧ few.toList.Sublist more.toList

namespace Hushes

variable (h : Hushes s₀ t₀ s t)

include h

theorem charAt? (p : Nat) : t.charAt? p = s.charAt? p := by
  simp only [Scanner.charAt?, h.source, h.limit]

theorem peek (k : Nat) : t.peek k = s.peek k := by
  rw [Scanner.peek, Scanner.peek, h.stop, h.charAt?]

/-- A flag that belongs to templates is set in both. -/
theorem marked {f : TokenFlags → TokenFlags} (own : ∀ g, (f g).apart = g.apart) :
    Hushes s₀ t₀ { s with flags := f s.flags } { t with flags := f t.flags } :=
  { h with flags := congrArg f h.flags, apart := (own s.flags).trans h.apart }

theorem pass (n : Nat) :
    Hushes s₀ t₀ { s with stop := s.stop + n } { t with stop := t.stop + n } :=
  { h with stop := congrArg (· + n) h.stop }

theorem push (c : Char) : Hushes s₀ t₀ (s.push c) (t.push c) :=
  { h with value := congrArg (·.push c) h.value }

theorem check (ok ok' : Bool) : Hushes s₀ t₀ (s.check ok) (t.check ok') := { h with }

theorem cut (a b : Nat) : Hushes s₀ t₀ (s.cut a b) (t.cut a b) := h.check _ _

theorem pushRaw (p : Nat) : Hushes s₀ t₀ (s.pushRaw p) (t.pushRaw p) := by
  have value : t.value ++ t.source.slice p t.stop = s.value ++ s.source.slice p s.stop := by
    rw [h.value, h.source, h.stop]
  exact { h with value }

theorem markInvalidEscape : Hushes s₀ t₀ s.markInvalidEscape t.markInvalidEscape :=
  h.marked (f := fun f => { f with containsInvalidEscape := true }) fun _ => rfl

/-- What both report. -/
theorem report (m : Message) (a b : Nat) (args : List String) :
    Hushes s₀ t₀ (s.report m a b args) (t.report m a b args) := by
  obtain ⟨few, more, small, large, sub⟩ := h.fewer
  refine { h with fewer := ⟨few.push ⟨⟨a, b⟩, m, args⟩, more.push ⟨⟨a, b⟩, m, args⟩, ?_, ?_, ?_⟩ }
  · rw [Scanner.report, Diagnostics.report, small, Array.push_append]
  · rw [Scanner.report, Diagnostics.report, large, Array.push_append]
  · rw [Array.toList_push, Array.toList_push]
    exact sub.append_right _

theorem reportHere (m : Message) (args : List String) :
    Hushes s₀ t₀ (s.report m s.stop s.stop args) (t.report m t.stop t.stop args) := by
  rw [h.stop]
  exact h.report m _ _ args

/-- What only one of them may report. -/
theorem reportIf (ok : Bool) (m : Message) (a b : Nat) (args : List String) :
    Hushes s₀ t₀ (s.reportIf false m a b args) (t.reportIf ok m a b args) := by
  cases ok with
  | false => exact h
  | true =>
    obtain ⟨few, more, small, large, sub⟩ := h.fewer
    refine { h with fewer := ⟨few, more.push ⟨⟨a, b⟩, m, args⟩, small, ?_, ?_⟩ }
    · rw [Scanner.reportIf, if_pos rfl, Scanner.report, Diagnostics.report, large,
        Array.push_append]
    · rw [Array.toList_push]
      exact sub.trans (List.sublist_append_left _ _)

theorem takeHex? (count : Nat) :
    (∃ code s' t', s.takeHex? count = some (code, s') ∧ t.takeHex? count = some (code, t') ∧
      Hushes s₀ t₀ s' t') ∨ s.takeHex? count = none ∧ t.takeHex? count = none := by
  simp only [Scanner.takeHex?, h.stop, h.limit, h.source, h.peek]
  split
  · exact .inl ⟨_, _, _, rfl, rfl, { h.cut _ _ with stop := rfl }⟩
  · exact .inr ⟨rfl, rfl⟩

end Hushes

theorem Hushes.takeOctal (more value : Nat) (h : Hushes s₀ t₀ s t) :
    (Scanner.takeOctal more value s).1 = (Scanner.takeOctal more value t).1 ∧
      Hushes s₀ t₀ (Scanner.takeOctal more value s).2 (Scanner.takeOctal more value t).2 := by
  induction more generalizing value s t with
  | zero => exact ⟨rfl, h⟩
  | succ more ih =>
    rw [Scanner.takeOctal, Scanner.takeOctal, h.peek]
    split
    · split
      · exact ih _ (h.pass 1)
      · exact ⟨rfl, h⟩
    · exact ⟨rfl, h⟩

namespace Hushes

variable (h : Hushes s₀ t₀ s t)

include h

theorem scanOctalEscape (template : context.isTemplate) (start first : Nat) :
    Hushes s₀ t₀ (s.scanOctalEscape .taggedTemplate start first)
      (t.scanOctalEscape context start first) := by
  obtain ⟨same, taken⟩ := h.takeOctal (if first ≤ 3 then 2 else 1) first
  simp only [Scanner.scanOctalEscape, template, ← same]
  have marked := taken.markInvalidEscape
  rw [taken.stop]
  exact (marked.reportIf _ _ _ _ _).pushRaw start

theorem pushPair? (unit : Nat) :
    (∃ s' t', s.pushPair? unit = some s' ∧ t.pushPair? unit = some t' ∧ Hushes s₀ t₀ s' t') ∨
      s.pushPair? unit = none ∧ t.pushPair? unit = none := by
  unfold Scanner.pushPair?
  rw [h.peek, h.peek]
  generalize (0xD800 ≤ unit && unit ≤ 0xDBFF && s.peek 0 == some '\x5c' &&
    s.peek 1 == some 'u') = high
  cases high with
  | false => exact .inr ⟨rfl, rfl⟩
  | true =>
    rcases (h.pass 2).takeHex? 4 with ⟨low, s', t', hs, ht, taken⟩ | ⟨hs, ht⟩
    · rw [hs, ht]
      dsimp only [Option.bind_eq_bind, Option.bind_some]
      generalize (0xDC00 ≤ low && low ≤ 0xDFFF) = paired
      cases paired with
      | false => exact .inr ⟨rfl, rfl⟩
      | true => exact .inl ⟨_, _, rfl, rfl, taken.push _⟩
    · rw [hs, ht]
      exact .inr ⟨rfl, rfl⟩

theorem pushUnit (unit : Nat) : Hushes s₀ t₀ (s.pushUnit unit) (t.pushUnit unit) := by
  simp only [Scanner.pushUnit]
  rcases h.pushPair? unit with ⟨s', t', hs, ht, joined⟩ | ⟨hs, ht⟩
  · rw [hs, ht]
    exact joined
  · rw [hs, ht]
    exact h.push _

theorem badHexEscape (start : Nat) :
    Hushes s₀ t₀ (s.badHexEscape .taggedTemplate start) (t.badHexEscape context start) := by
  simp only [Scanner.badHexEscape, h.stop]
  exact (h.markInvalidEscape.reportIf _ _ _ _ _).pushRaw start

theorem closeEscape (context : EscapeContext) :
    (t.closeEscape context).1 = (s.closeEscape .taggedTemplate).1 ∧
    Hushes s₀ t₀ (s.closeEscape .taggedTemplate).2 (t.closeEscape context).2 := by
  simp only [Scanner.closeEscape, h.peek]
  split
  · exact ⟨rfl, h.pass 1⟩
  · rw [h.stop]
    exact ⟨rfl, h.reportIf _ _ _ _ _⟩

theorem scanBracedEscape (start : Nat) : Hushes s₀ t₀ (s.scanBracedEscape .taggedTemplate start)
    (t.scanBracedEscape context start) := by
  simp only [Scanner.scanBracedEscape, h.stop, h.limit, h.source]
  generalize s.source.skipWhile s.limit isHexDigit (s.stop + 1) = e
  generalize s.source.chars (s.stop + 1) e = digits
  have taken : Hushes s₀ t₀ { s.cut (s.stop + 1) e with stop := e }
      { t.cut (s.stop + 1) e with stop := e } := { h.cut _ _ with stop := rfl }
  have silent (b : Bool) : (b && EscapeContext.taggedTemplate.reports) = false := Bool.and_false b
  simp only [silent]
  obtain ⟨same, closed⟩ := ((taken.reportIf (e == s.stop + 1 && context.reports)
    .hexadecimalDigitExpected e e []).reportIf
      (!(e == s.stop + 1) && decide (0x10FFFF < hexValue digits) && context.reports)
      .unicodeEscapeOutOfRange (s.stop + 1) e []).closeEscape context
  rw [same]
  split
  · have marked := closed.marked (f := fun f => { f with extendedUnicodeEscape := true })
      fun _ => rfl
    exact marked.push _
  · exact closed.markInvalidEscape.pushRaw start

theorem scanEscaped (template : context.isTemplate) (start : Nat) (c : Char) :
    Hushes s₀ t₀ (s.scanEscaped .taggedTemplate start c) (t.scanEscaped context start c) := by
  have tagged : EscapeContext.taggedTemplate.isTemplate = true := rfl
  simp only [Scanner.scanEscaped, h.peek, template, tagged]
  split
  · exact h.push _
  split
  · exact h.scanOctalEscape template _ _
  split
  · exact h.markInvalidEscape.pushRaw start
  split
  · exact h.push _
  · exact h.push _
  · exact h.push _
  · exact h.push _
  · exact h.push _
  · exact h.push _
  · rcases h.takeHex? 2 with ⟨code, s', t', hs, ht, taken⟩ | ⟨hs, ht⟩
    · rw [hs, ht]
      exact taken.push _
    · rw [hs, ht]
      exact h.badHexEscape start
  · split
    · exact h.scanBracedEscape start
    · rcases h.takeHex? 4 with ⟨unit, s', t', hs, ht, taken⟩ | ⟨hs, ht⟩
      · rw [hs, ht]
        have noted := taken.marked (f := fun f => { f with unicodeEscape := true }) fun _ => rfl
        exact noted.pushUnit unit
      · rw [hs, ht]
        exact h.badHexEscape start
  · split
    · exact h.pass 1
    · exact h
  · split
    · exact h
    · exact h.push _

theorem scanEscape (template : context.isTemplate) :
    Hushes s₀ t₀ (s.scanEscape .taggedTemplate) (t.scanEscape context) := by
  have past : Hushes s₀ t₀ (({ s with stop := s.stop + 1 } : Scanner).touch (s.stop + 1))
      (({ t with stop := s.stop + 1 } : Scanner).touch (s.stop + 1)) := { h with stop := rfl }
  simp only [Scanner.scanEscape, h.stop, past.peek]
  split
  · next c _ => exact (past.pass c.utf8Size).scanEscaped template _ c
  · exact past.report _ _ _ _

end Hushes

theorem Hushes.takeTemplate (template : context.isTemplate) (fuel : Nat)
    (h : Hushes s₀ t₀ s t) :
    (Scanner.takeTemplate context fuel t).1 = (Scanner.takeTemplate .taggedTemplate fuel s).1 ∧
      Hushes s₀ t₀ (Scanner.takeTemplate .taggedTemplate fuel s).2
        (Scanner.takeTemplate context fuel t).2 := by
  induction fuel generalizing s t with
  | zero => exact ⟨rfl, h⟩
  | succ fuel ih =>
    rw [Scanner.takeTemplate, Scanner.takeTemplate]
    simp only [h.peek]
    split
    · exact ⟨rfl, h⟩
    · next c _ =>
      split
      · exact ⟨rfl, h⟩
      split
      · exact ⟨rfl, h⟩
      split
      · exact ih (h.scanEscape template)
      split
      · exact ih ((h.pass _).push '\n')
      · exact ih ((h.pass c.utf8Size).push c)

theorem Hushes.take (h : Hushes s₀ t₀ s t) (n : Nat) (k : Kind) :
    Hushes s₀ t₀ (s.take n k) (t.take n k) := { h with stop := congrArg (· + n) h.stop }

theorem Hushes.markUnterminated (h : Hushes s₀ t₀ s t) (m : Message) :
    Hushes s₀ t₀ (s.markUnterminated m) (t.markUnterminated m) :=
  (h.marked (f := fun f => { f with unterminated := true }) fun _ => rfl).reportHere m []

/-- The token that a piece is, once its end is found. -/
def endPiece (fresh : Bool) (first : Nat) (found : PieceEnd × Scanner) : Scanner :=
  let s := (found.2.check (found.2.stop ≤ found.2.limit)).cut first found.2.stop
  let last : Kind := if fresh then .noSubstitutionTemplateLiteral else .templateTail
  match found.1 with
  | .closed => s.take 1 last
  | .substitution => s.take 2 (if fresh then .templateHead else .templateMiddle)
  | .unterminated => (s.take 0 last).markUnterminated .unterminatedTemplate

theorem scanTemplate_eq (reports : Bool) (s : Scanner) : s.scanTemplate reports =
    endPiece (s.peek 0 == some '\x60') (s.stop + 1)
      (takeTemplate (if reports then .template else .taggedTemplate) (s.limit - (s.stop + 1) + 1)
        { s.check (s.stop < s.source.size) with stop := s.stop + 1, value := "" }) := rfl

theorem Hushes.endPiece {found found' : PieceEnd × Scanner} (same : found'.1 = found.1)
    (h : Hushes s₀ t₀ found.2 found'.2) (fresh : Bool) (first : Nat) :
    (Scanner.endPiece fresh first found').kind = (Scanner.endPiece fresh first found).kind ∧
      Hushes s₀ t₀ (Scanner.endPiece fresh first found) (Scanner.endPiece fresh first found') := by
  obtain ⟨ending, s⟩ := found
  obtain ⟨ending', t⟩ := found'
  obtain rfl : ending' = ending := same
  have whole : Hushes s₀ t₀ ((s.check (s.stop ≤ s.limit)).cut first s.stop)
      ((t.check (t.stop ≤ t.limit)).cut first t.stop) := (h.check _ _).check _ _
  cases ending' with
  | closed => exact ⟨rfl, whole.take _ _⟩
  | substitution => exact ⟨rfl, whole.take _ _⟩
  | unterminated => exact ⟨rfl, (whole.take _ _).markUnterminated _⟩

/-- The piece that begins at the cursor, read once without reports on escapes. -/
theorem Hushes.scanTemplate (reports : Bool)
    (h : Hushes s₀ t₀ { s with value := "" } { t with value := "" }) :
    (t.scanTemplate reports).kind = (s.scanTemplate false).kind ∧
      Hushes s₀ t₀ (s.scanTemplate false) (t.scanTemplate reports) := by
  have template : (if reports then EscapeContext.template else .taggedTemplate).isTemplate := by
    cases reports <;> rfl
  have source : t.source = s.source := h.source
  have stop : t.stop = s.stop := h.stop
  have limit : t.limit = s.limit := h.limit
  have peek : t.peek 0 = s.peek 0 := h.peek 0
  have begun : Hushes s₀ t₀
      { s.check (s.stop < s.source.size) with stop := s.stop + 1, value := "" }
      { t.check (t.stop < t.source.size) with stop := s.stop + 1, value := "" } :=
    { h with stop := rfl }
  obtain ⟨ending, taken⟩ := begun.takeTemplate template (s.limit - (s.stop + 1) + 1)
  rw [scanTemplate_eq, scanTemplate_eq, peek, limit, stop]
  rw [stop] at ending taken
  exact taken.endPiece ending _ _

theorem Hushes.token_eq (h : Hushes s₀ t₀ s t) (kind : t.kind = s.kind) :
    t.toToken = s.toToken := by
  show Token.mk t.kind t.fullStart t.start t.stop t.value t.flags = s.toToken
  rw [kind, h.fullStart, h.start, h.stop, h.value, h.flags]

/-- Before anything of a piece is read. -/
theorem Hushes.begun (s : Scanner) : Hushes s s { s with value := "" } { s with value := "" } :=
  ⟨rfl, rfl, rfl, rfl, rfl, rfl, rfl, rfl, #[], #[], by simp, by simp, .refl _⟩

/-- The scanner stands before a template, and nothing is noted yet that a piece might note. -/
structure AtPiece (s : Scanner) : Prop where
  start : s.start = s.stop
  apart : s.flags.apart = s.flags
  tick : s.peek 0 = some '\x60'

/-- Trivia notes nothing that a piece might note, unless it goes on to the end of the text. -/
theorem apart_scanTrivia (clean : s.flags.apart = s.flags) :
    s.scanTrivia.2.flags.apart = s.scanTrivia.2.flags ∨ s.scanTrivia.2.atEnd := by
  have lines {t : Scanner} (h : t.flags.apart = t.flags) :
      t.markLineBreak.flags.apart = t.markLineBreak.flags :=
    congrArg (fun f : TokenFlags => { f with precedingLineBreak := true }) h
  have tries := tries_scanTrivia s
  generalize s.scanTrivia = r at tries ⊢
  cases tries with
  | lineBreak _ touched =>
    obtain ⟨ok, rfl⟩ := touched.check
    exact .inl (lines clean)
  | blanks _ touched =>
    obtain ⟨ok, rfl⟩ := touched.check
    exact .inl clean
  | script => exact .inl clean
  | lineComment => exact .inl clean
  | blockComment =>
    have closes := closes_scanBlockComment s
    generalize s.scanBlockComment = t at closes ⊢
    cases closes with
    | @closed p doc =>
      exact .inl (congrArg (fun f : TokenFlags => { f with
        precedingLineBreak := s.hasLineBreak (s.stop + 2) p || s.flags.precedingLineBreak
        precedingDocComment := doc || s.flags.precedingDocComment }) clean)
    | unclosed => exact .inr (decide_eq_true (Nat.le_refl s.limit))
  | marker => exact .inl (lines clean)
  | solid _ touched =>
    obtain ⟨ok, rfl⟩ := touched.check
    exact .inl clean
  | ended touched =>
    obtain ⟨ok, rfl⟩ := touched.check
    exact .inl clean

/-- Only a template is read where a token turns out to be one. -/
theorem atPiece_scan (piece : s.scan.kind.opener? = some '\x60') :
    ∃ u : Scanner, u.source = s.source ∧ u.limit = s.limit ∧ u.AtPiece ∧
      s.scan = u.scanTemplate false := by
  have other (k : Kind) (plain : k.opener? = none) : s.scan.kind ≠ k := by
    rintro rfl
    cases plain.symm.trans piece
  have token : s.scan.kind.isTrivia = false := Bool.eq_false_iff.mpr fun trivia =>
    other _ (Kind.opener?_of_isTrivia trivia) rfl
  obtain ⟨v, passing, clean, arrives⟩ := arrives_scan
    (Q := fun u => u.flags.apart = u.flags ∨ u.atEnd) (fun _ => id)
    (fun u _ clean more _ => apart_scanTrivia (clean.resolve_right (by simp [more]))) (.inl rfl)
    token (other _ rfl)
  have clean := clean.resolve_right (by simp [arrives.more])
  obtain ⟨ok, same⟩ := arrives.token
  have tick : (v.check ok).peek 0 = some '\x60' := opener?_scanToken (same ▸ piece)
  refine ⟨v.check ok, passing.source, passing.limit, ⟨arrives.start, clean, tick⟩, same.trans ?_⟩
  simp only [scanToken, tick]
  rfl

theorem rescanTemplate_eq (tagged : Bool)
    (piece : s.kind ∈ [.closeBraceToken, .templateHead, .noSubstitutionTemplateLiteral]) :
    s.rescanTemplate tagged = (s.reopened s.flags.apart).scanTemplate (!tagged) := by
  have reopens : ¬ (s.kind != .closeBraceToken && s.kind != .templateHead &&
      s.kind != .noSubstitutionTemplateLiteral) = true := by
    simp only [List.mem_cons, List.not_mem_nil, or_false] at piece
    rcases piece with kind | kind | kind <;> rw [kind] <;> decide
  exact if_neg reopens

/-- A template that a scan has read is read again as the same token, and what it reports. -/
theorem rescanTemplate_scanned (t s : Scanner) (scanned : s.toToken = t.scan.toToken)
    (source : s.source = t.source) (limit : s.limit = t.limit)
    (piece : s.kind.opener? = some '\x60') (reports : Bool) :
    ((s.reopened s.flags.apart).scanTemplate reports).toToken = s.toToken := by
  have found : t.scan.kind.opener? = some '\x60' := by
    rw [← show s.kind = t.scan.kind from congrArg (·.kind) scanned]
    exact piece
  obtain ⟨u, source', limit', at_, same⟩ := atPiece_scan found
  rw [same] at scanned
  have onward := (scanTemplate_spec false at_.tick rfl).1
  have kept : (u.scanTemplate false).flags.apart = u.flags :=
    ((Hushes.begun u).scanTemplate false).2.apart.trans at_.apart
  have start : s.start = u.stop :=
    ((congrArg (·.start) scanned).trans onward.start).trans at_.start
  have fullStart : s.fullStart = u.fullStart :=
    (congrArg (·.fullStart) scanned).trans onward.fullStart
  have flags : s.flags.apart = u.flags := by
    rw [show s.flags = (u.scanTemplate false).flags from congrArg (·.flags) scanned]
    exact kept
  have again : Hushes u (s.reopened s.flags.apart) { u with value := "" }
      { s.reopened s.flags.apart with value := "" } := by
    refine ⟨source.trans source'.symm, limit.trans limit'.symm, fullStart, ?_, start, rfl, flags,
      rfl, #[], #[], by simp, by simp, .refl _⟩
    exact start.trans at_.start.symm
  obtain ⟨kind, hushes⟩ := again.scanTemplate reports
  exact (hushes.token_eq kind).trans scanned.symm

/-- Whether a template counts as tagged decides only what is reported of its escapes: a closing
brace that goes on as a template, and a template that a scan has read, are the same token in
either reading, and all that is reported if it is tagged is reported otherwise too. A template is
read again just as it was. -/
theorem rescanTemplate_agrees (t s : Scanner) (scanned : s.toToken = t.scan.toToken)
    (source : s.source = t.source) (limit : s.limit = t.limit)
    (piece : s.kind ∈ [.closeBraceToken, .templateHead, .noSubstitutionTemplateLiteral]) :
    (s.rescanTemplate true).toToken = (s.rescanTemplate false).toToken ∧
    (∃ few more : Diagnostics, (s.rescanTemplate true).pending = s.pending ++ few ∧
      (s.rescanTemplate false).pending = s.pending ++ more ∧ few.toList.Sublist more.toList) ∧
    (s.kind ≠ .closeBraceToken →
      ∀ tagged, (s.rescanTemplate tagged).toToken = s.toToken) := by
  let r := s.reopened s.flags.apart
  obtain ⟨kind, hushes⟩ := (Hushes.begun r).scanTemplate true
  rw [rescanTemplate_eq true piece, rescanTemplate_eq false piece]
  refine ⟨(hushes.token_eq kind).symm, hushes.fewer, fun read tagged => ?_⟩
  rw [rescanTemplate_eq tagged piece]
  refine rescanTemplate_scanned t s scanned source limit ?_ _
  simp only [List.mem_cons, List.not_mem_nil, or_false] at piece
  rcases piece with brace | head | whole
  · exact absurd brace read
  · rw [head]
    rfl
  · rw [whole]
    rfl

/-- An escape without digits, which is an error unless the template is tagged. -/
theorem rescanTemplate_agrees_bare_escape :
    let t := ofSource (.ofString "`\\u`") false
    let s := t.scan
    s.kind = .noSubstitutionTemplateLiteral ∧ s.flags.containsInvalidEscape ∧
      (s.rescanTemplate true).toToken = (s.rescanTemplate false).toToken ∧
      (s.rescanTemplate true).pending = #[] ∧
      (s.rescanTemplate false).pending = #[⟨⟨3, 3⟩, .hexadecimalDigitExpected, []⟩] ∧
      ∀ tagged, (s.rescanTemplate tagged).toToken = s.toToken := by
  intro t s
  have kind : s.kind = .noSubstitutionTemplateLiteral := by decide +kernel
  obtain ⟨same, _, again⟩ := rescanTemplate_agrees t s rfl rfl rfl (by rw [kind]; decide)
  refine ⟨kind, by decide +kernel, same, by decide +kernel, by decide +kernel, again ?_⟩
  rw [kind]
  decide

end Scanner
end ScriptGrammar
