import ScriptGrammar.Proofs.Scanner.Onward
import ScriptGrammar.Scanner.Quoted

/-!
# Escapes, strings and templates go onward

An escape may read on past its own digits (a surrogate pair, a line continuation), but it ends
on a boundary whatever it finds, so the loops over strings and templates do too.
-/

namespace ScriptGrammar.Scanner

variable {s t : Scanner} {c : Char} {context : EscapeContext}

theorem onward_push (c : Char) : Onward s (s.push c) := Onward.marked _ _ _

/-- An escape that began at `start` may be put back as it was written. -/
structure Escaping (s : Scanner) (start : Nat) : Prop where
  boundary : s.source.isBoundary start
  le : start ≤ s.stop

theorem Onward.sliceable_escape {start : Nat} (h : Onward s t) (esc : Escaping s start)
    (hs : s.Stands) : s.source.sliceable start t.stop := by
  obtain ⟨le, boundary⟩ := h.forward hs
  exact Source.sliceable_of (Nat.le_trans esc.le le) esc.boundary boundary

theorem Onward.pushRaw {start : Nat} (h : Onward s t) (esc : Escaping s start) :
    Onward s (t.pushRaw start) :=
  .trans (h.cut fun hs => h.sliceable_escape esc hs.toStands) (Onward.marked _ _ _)

theorem onward_markInvalidEscape (s : Scanner) : Onward s s.markInvalidEscape :=
  Onward.marked _ _ _

theorem Onward.reportIf {a b : Nat} (h : Onward s t) (report : Bool) (m : Message)
    (args : List String) (ok : s.Begun → s.source.sliceable a b) :
    Onward s (t.reportIf report m a b args) := by
  simp only [Scanner.reportIf]
  split
  · exact h.report m args ok
  · exact h

theorem onward_reportIf_stop (report : Bool) (m : Message) (s : Scanner) :
    Onward s (s.reportIf report m s.stop s.stop []) :=
  (Onward.refl s).reportIf report m [] fun hs => sliceable_stop hs.toStands

/-- The cursor passes one character of a single byte. -/
theorem onward_pass (h : s.peek 0 = some c) (thin : c.utf8Size = 1) :
    Onward s { s with stop := s.stop + 1 } :=
  Onward.moved _ _ _ _ fun _ => ⟨Nat.le_succ _, isBoundary_succ h thin⟩

theorem onward_takeHex? {count code : Nat} (h : s.takeHex? count = some (code, t)) :
    Onward s t := by
  simp only [takeHex?] at h
  split at h
  · next digits =>
    obtain ⟨_, rfl⟩ : _ = code ∧ _ = t := by simpa using h
    have behind : s.Stands → s.source.isBoundary (s.stop + count) := fun hs =>
      onward_hexDigits hs.boundary (hexDigits_of_all (Bool.and_eq_true_iff.mp digits).2)
    refine .trans (onward_cut fun hs => ?_) (Onward.moved _ _ _ _ fun hs => ?_)
    · exact Source.sliceable_of (Nat.le_add_right _ _) hs.boundary (behind hs.toStands)
    · exact ⟨Nat.le_add_right _ _, behind ⟨hs.whole, hs.boundary⟩⟩
  · simp at h

theorem onward_takeOctal (more value : Nat) (s : Scanner) :
    Onward s (takeOctal more value s).2 := by
  induction more generalizing value s with
  | zero => exact .refl s
  | succ more ih =>
    rw [takeOctal]
    split
    · next d h =>
      split
      · next octal => exact (onward_pass h (utf8Size_of_isOctalDigit octal)).trans (ih _ _)
      · exact .refl s
    · exact .refl s

theorem onward_scanOctalEscape {start : Nat} (first : Nat) (h : Escaping s start) :
    Onward s (s.scanOctalEscape context start first) := by
  have taken := onward_takeOctal (if first ≤ 3 then 2 else 1) first s
  simp only [scanOctalEscape]
  split
  · have marked := taken.trans (onward_markInvalidEscape _)
    exact (marked.reportIf _ _ _ fun hs => taken.sliceable_escape h hs.toStands).pushRaw h
  · exact taken.trans (onward_push _)

theorem of_guard {p : Prop} [Decidable p] {u : Unit} (h : (guard p : Option Unit) = some u) :
    p := by
  by_cases hp : p
  · exact hp
  · have failed : (guard p : Option Unit) = none := if_neg hp
    rw [failed] at h
    cases h

theorem onward_pushPair? {unit : Nat} {t : Scanner} (h : s.pushPair? unit = some t) :
    Onward s t := by
  obtain ⟨_, high, rest⟩ := Option.bind_eq_some_iff.mp h
  obtain ⟨⟨low, u⟩, hu, rest⟩ := Option.bind_eq_some_iff.mp rest
  obtain ⟨_, _, same⟩ := Option.bind_eq_some_iff.mp rest
  have second : s.peek 1 = some 'u' := by simpa using (Bool.and_eq_true_iff.mp (of_guard high)).2
  have past : Onward s { s with stop := s.stop + 2 } :=
    Onward.moved _ _ _ _ fun _ =>
      ⟨Nat.le_add_right _ _, isBoundary_succ (p := s.stop + 1) second rfl⟩
  obtain rfl : u.push _ = t := by simpa using same
  exact past.trans ((onward_takeHex? hu).trans (onward_push _))

theorem onward_pushUnit (unit : Nat) : Onward s (s.pushUnit unit) := by
  simp only [pushUnit]
  cases pair : s.pushPair? unit with
  | none => exact onward_push _
  | some t => exact onward_pushPair? pair

theorem onward_badHexEscape {start : Nat} (h : Escaping s start) :
    Onward s (s.badHexEscape context start) :=
  ((onward_markInvalidEscape s).trans (onward_reportIf_stop _ _ _)).pushRaw h

theorem onward_closeEscape : Onward s (s.closeEscape context).2 := by
  simp only [closeEscape]
  split
  · next h => exact onward_pass (c := '\x7d') (by simpa using h) rfl
  · exact onward_reportIf_stop _ _ _

theorem onward_scanBracedEscape {start : Nat} (esc : Escaping s start)
    (h : s.peek 0 = some '\x7b') : Onward s (s.scanBracedEscape context start) := by
  have le := Source.le_skipWhile s.source s.limit isHexDigit (s.stop + 1)
  have first : s.source.isBoundary (s.stop + 1) := isBoundary_succ h rfl
  have last := Source.isBoundary_skipWhile s.limit isHexDigit first
  have digits := Source.sliceable_of le first last
  have ending := Source.sliceable_of (Nat.le_refl _) last last
  simp only [scanBracedEscape]
  generalize s.source.skipWhile s.limit isHexDigit (s.stop + 1) = e at le last digits ending ⊢
  have taken : Onward s { s.cut (s.stop + 1) e with stop := e } :=
    .trans (onward_cut fun _ => digits) (Onward.moved _ _ _ _ fun _ => ⟨Nat.le_of_succ_le le, last⟩)
  have closed (a b : Bool) : Onward s
      (({ s.cut (s.stop + 1) e with stop := e }
        |>.reportIf a .hexadecimalDigitExpected e e []
        |>.reportIf b .unicodeEscapeOutOfRange (s.stop + 1) e []).closeEscape context).2 :=
    ((taken.reportIf _ _ _ fun _ => ending).reportIf _ _ _ fun _ => digits).trans onward_closeEscape
  split
  · exact (closed _ _).trans (.trans (Onward.marked _ _ _) (onward_push _))
  · exact ((closed _ _).trans (onward_markInvalidEscape _)).pushRaw esc

theorem onward_scanEscaped {start : Nat} (h : Escaping s start) (c : Char) :
    Onward s (s.scanEscaped context start c) := by
  simp only [scanEscaped]
  split
  · exact onward_push _
  split
  · exact onward_scanOctalEscape _ h
  split
  · exact (onward_markInvalidEscape s).pushRaw h
  split
  · exact onward_push _
  · exact onward_push _
  · exact onward_push _
  · exact onward_push _
  · exact onward_push _
  · exact onward_push _
  · split
    · next found => exact (onward_takeHex? found).trans (onward_push _)
    · exact onward_badHexEscape h
  · split
    · next brace => exact onward_scanBracedEscape h (by simpa using brace)
    · split
      · next found =>
        exact (onward_takeHex? found).trans (.trans (Onward.marked _ _ _) (onward_pushUnit _))
      · exact onward_badHexEscape h
  · split
    · next feed => exact onward_pass (c := '\n') (by simpa using feed) rfl
    · exact .refl s
  · split
    · exact .refl s
    · exact onward_push _

/-- An escape takes at least its backslash. -/
theorem scanEscape_spec (h : s.peek 0 = some '\x5c') :
    Onward s (s.scanEscape context) ∧ (s.Stands → s.stop < (s.scanEscape context).stop) := by
  have past := onward_pass h rfl
  have begins : s.source.isBoundary s.stop :=
    Source.isBoundary_of_charAt? (charAt?_eq_some.mp h).2
  have here : s.source.isBoundary (s.stop + 1) := isBoundary_succ h rfl
  have rest : Onward { s with stop := s.stop + 1 } (s.scanEscape context) := by
    apply (onward_touch (s := { s with stop := s.stop + 1 }) fun _ => here).trans
    simp only [scanEscape]
    split
    · next c hc =>
      refine .trans (Onward.moved _ _ _ _ fun _ => ?_) (onward_scanEscaped ⟨?_, ?_⟩ _)
      · exact ⟨Nat.le_add_right _ _, peek_boundary hc⟩
      · exact begins
      · exact Nat.le_trans (Nat.le_succ _) (Nat.le_add_right _ _)
    · exact onward_report_stop _ _ _
  exact ⟨past.trans rest, fun hs => (rest.forward ⟨hs.whole, here⟩).1⟩

theorem onward_takeString (quote : Char) (fuel : Nat) (s : Scanner) :
    Onward s (takeString quote fuel s) := by
  induction fuel generalizing s with
  | zero => exact .refl s
  | succ fuel ih =>
    rw [takeString]
    split
    · exact .refl s
    · next c h =>
      split
      · exact .refl s
      split
      · next slash =>
        obtain rfl : c = '\x5c' := by simpa using slash
        exact (scanEscape_spec h).1.trans (ih _)
      · refine .trans (Onward.moved _ _ _ _ fun _ => ?_) ((onward_push _).trans (ih _))
        exact ⟨Nat.le_add_right _ _, peek_boundary h⟩

theorem onward_markUnterminated (m : Message) : Onward s (s.markUnterminated m) :=
  .trans (Onward.marked _ _ _) (onward_report_stop _ _ _)

/-- What was read from behind the opening is cut out. -/
theorem Onward.cutContent (h : Onward s t) :
    Onward s ((t.check (t.stop ≤ t.limit)).cut s.stop t.stop) := by
  apply (h.trans (onward_check_stop t)).cut
  intro hs
  obtain ⟨le, boundary⟩ := h.forward hs.toStands
  exact Source.sliceable_of le hs.boundary boundary

/-- A string takes at least its quote. -/
theorem scanString_spec {quote : Char} (h : s.peek 0 = some quote) (thin : quote.utf8Size = 1) :
    Onward s (s.scanString quote) ∧ (s.Stands → s.stop < (s.scanString quote).stop) := by
  have here : s.source.isBoundary (s.stop + 1) := isBoundary_succ h thin
  have rest : Onward { s with stop := s.stop + 1 } (s.scanString quote) := by
    have taken := onward_takeString quote (s.limit - (s.stop + 1)) { s with stop := s.stop + 1 }
    refine taken.cutContent.trans ?_
    simp only [scanString]
    split
    · next close =>
      exact onward_take _ fun _ => isBoundary_succ (c := quote) (by simpa [peek] using close) thin
    · exact (onward_take _ fun hs => hs.boundary).trans (onward_markUnterminated _)
  refine ⟨.trans (Onward.moved _ _ _ _ fun _ => ⟨Nat.le_succ _, here⟩) rest, fun hs => ?_⟩
  exact (rest.forward ⟨hs.whole, here⟩).1

/-- Where a template piece ends, its backtick or its opening brace is at hand. -/
theorem takeTemplate_spec (context : EscapeContext) (fuel : Nat) (s : Scanner) :
    Onward s (takeTemplate context fuel s).2 ∧
      ((takeTemplate context fuel s).1 = .closed →
        (takeTemplate context fuel s).2.peek 0 = some '\x60') ∧
      ((takeTemplate context fuel s).1 = .substitution →
        (takeTemplate context fuel s).2.peek 1 = some '\x7b') := by
  induction fuel generalizing s with
  | zero => exact ⟨.refl s, by simp [takeTemplate], by simp [takeTemplate]⟩
  | succ fuel ih =>
    rw [takeTemplate]
    split
    · exact ⟨.refl s, by simp, by simp⟩
    · next c h =>
      split
      · next tick => exact ⟨.refl s, fun _ => by simpa [h] using tick, by simp⟩
      split
      · next brace =>
        exact ⟨.refl s, by simp, fun _ => by simpa using (Bool.and_eq_true_iff.mp brace).2⟩
      split
      · next slash =>
        obtain rfl : c = '\x5c' := by simpa using slash
        obtain ⟨onward, ends⟩ := ih (s.scanEscape context)
        exact ⟨(scanEscape_spec h).1.trans onward, ends⟩
      split
      · next feed =>
        obtain rfl : c = '\r' := by simpa using feed
        have past : Onward s
            { s with stop := s.stop + if (s.peek 1 == some '\n') = true then 2 else 1 } := by
          refine Onward.moved _ _ _ _ fun _ => ⟨Nat.le_add_right _ _, ?_⟩
          split
          · next line =>
            have line : s.charAt? (s.stop + 1) = some '\n' := by simpa [peek] using line
            exact isBoundary_succ line rfl
          · exact isBoundary_succ h rfl
        obtain ⟨onward, ends⟩ := ih _
        exact ⟨past.trans ((onward_push _).trans onward), ends⟩
      · obtain ⟨onward, ends⟩ := ih _
        refine ⟨.trans (Onward.moved _ _ _ _ fun _ => ?_) ((onward_push _).trans onward), ends⟩
        exact ⟨Nat.le_add_right _ _, peek_boundary h⟩

/-- A template piece takes at least the backtick or brace it begins with. -/
theorem scanTemplate_spec (reports : Bool) (h : s.peek 0 = some c) (thin : c.utf8Size = 1) :
    Onward s (s.scanTemplate reports) ∧ (s.Stands → s.stop < (s.scanTemplate reports).stop) := by
  have inside : s.stop < s.source.size := Source.charAt?_lt (charAt?_eq_some.mp h).2
  have here : s.source.isBoundary (s.stop + 1) := isBoundary_succ h thin
  have begun : Onward s
      { s.check (s.stop < s.source.size) with stop := s.stop + 1, value := "" } :=
    .trans (onward_check fun _ => by simpa using inside)
      (Onward.moved _ _ _ _ fun _ => ⟨Nat.le_succ _, here⟩)
  have rest : Onward { s.check (s.stop < s.source.size) with stop := s.stop + 1, value := "" }
      (s.scanTemplate reports) := by
    simp only [scanTemplate]
    generalize (if reports = true then EscapeContext.template else .taggedTemplate) = context
    obtain ⟨onward, closed, substituted⟩ := takeTemplate_spec context (s.limit - (s.stop + 1) + 1)
      { s.check (s.stop < s.source.size) with stop := s.stop + 1, value := "" }
    refine onward.cutContent.trans ?_
    split
    · next ending => exact onward_take _ fun _ => isBoundary_succ (closed ending) rfl
    · next ending => exact onward_take _ fun _ => isBoundary_succ (substituted ending) rfl
    · exact (onward_take _ fun hs => hs.boundary).trans (onward_markUnterminated _)
  exact ⟨begun.trans rest, fun hs => (rest.forward ⟨hs.whole, here⟩).1⟩

end ScriptGrammar.Scanner
