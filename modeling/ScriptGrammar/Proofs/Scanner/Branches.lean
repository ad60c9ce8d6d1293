import ScriptGrammar.Proofs.Scanner.Onward
import ScriptGrammar.Scanner.Scan

/-!
# What a scan comes to

The branches of the scanner, told once. `Tries` says what a try for trivia comes to: a run of some
sort, or what stands there instead.
-/

namespace ScriptGrammar.Scanner

variable {s t : Scanner} {c : Char}

/-- The character at the cursor may have been noted as read. -/
def Touched (s t : Scanner) : Prop := t = s ∨ t = s.touch s.stop

theorem Touched.onward (h : Touched s t) : Onward s t := by
  rcases h with rfl | rfl
  · exact .refl t
  · exact onward_touch_stop s

theorem Touched.check (h : Touched s t) : ∃ ok, t = s.check ok := by
  rcases h with rfl | rfl
  · exact ⟨true, by simp [Scanner.check]⟩
  · exact ⟨_, rfl⟩

theorem Touched.stop (h : Touched s t) : t.stop = s.stop := by
  obtain ⟨ok, rfl⟩ := h.check
  rfl

/-- Where the spaces beyond ASCII lie. -/
def spaceRanges : List (Nat × Nat) :=
  [(0x80, 0xa0), (0x1680, 0x1680), (0x2000, 0x205f), (0x3000, 0x3000), (0xfeff, 0xfeff)]

theorem isSpace_cases (space : isSpace c) :
    c ∈ ['\n', '\r', ' ', '\t', '\x0b', '\x0c'] ∨ inRanges spaceRanges c := by
  simp only [isSpace, isBlank, isLineBreak, Bool.or_eq_true, beq_iff_eq, Bool.and_eq_true,
    decide_eq_true_eq] at space
  rcases space with ((((((((((((rfl | rfl) | rfl) | rfl) | rfl) | rfl) | rfl) | wide) | rfl) |
    rfl) | rfl) | rfl) | (((rfl | rfl) | rfl) | rfl))
  case inl.inl.inl.inl.inl.inr =>
    have low : 0x2000 ≤ c.toNat := wide.1
    have high : c.toNat ≤ 0x200b := wide.2
    refine .inr (List.any_eq_true.mpr ⟨(0x2000, 0x205f), by simp [spaceRanges], ?_⟩)
    simp only [Bool.and_eq_true, decide_eq_true_eq]
    omega
  all_goals first | exact .inl (by decide) | exact .inr (by decide)

theorem not_isAscii_of_spaceRanges (h : inRanges spaceRanges c) : isAscii c = false := by
  have wide : ∀ i ∈ spaceRanges, 0x80 ≤ i.1 := by decide
  obtain ⟨i, hi, both⟩ := List.any_eq_true.mp h
  simp only [Bool.and_eq_true, decide_eq_true_eq] at both
  exact decide_eq_false (Nat.not_lt_of_le (Nat.le_trans (wide i hi) both.1))

theorem isSpace_ascii (space : isSpace c) (ascii : isAscii c) :
    c ∈ ['\n', '\r', ' ', '\t', '\x0b', '\x0c'] := by
  rcases isSpace_cases space with among | among
  · exact among
  · rw [not_isAscii_of_spaceRanges among] at ascii
    cases ascii

/-- No run of trivia begins with `c`, which stands at the cursor. -/
structure Solid (s : Scanner) (c : Char) : Prop where
  space : isSpace c = false
  comment : c = '/' → s.peek 1 ≠ some '/' ∧ s.peek 1 ≠ some '*'
  script : c = '#' → s.stop = 0 → s.peek 1 ≠ some '!'
  marker : c ∈ ['<', '=', '>', '|'] → s.isConflictMarker s.stop = false

/-- A block comment ends behind its star and slash, or at the limit with a report. Its line breaks
are noted, and whether it is documentation. -/
inductive Closes (s : Scanner) : Scanner → Prop
  | closed {p : Nat} (doc : Bool) (found : s.commentEnd? (s.stop + 2) = some p) :
      Closes s { s.check (s.stop + 2 ≤ s.limit) with
        stop := p + 2, kind := .multiLineCommentTrivia
        flags := { s.flags with
          precedingLineBreak := s.hasLineBreak (s.stop + 2) p || s.flags.precedingLineBreak
          precedingDocComment := doc || s.flags.precedingDocComment } }
  | unclosed (doc : Bool) (none : s.commentEnd? (s.stop + 2) = none) :
      Closes s { s.check (s.stop + 2 ≤ s.limit) with
        stop := s.limit, kind := .multiLineCommentTrivia
        flags := { s.flags with
          unterminated := true
          precedingLineBreak := s.hasLineBreak (s.stop + 2) s.limit || s.flags.precedingLineBreak
          precedingDocComment := doc || s.flags.precedingDocComment }
        pending := s.pending.report ⟨s.limit, s.limit⟩ .asteriskSlashExpected [] }

theorem markDoc_eq (body : Nat) (s : Scanner) : ∃ doc : Bool, s.markDoc body =
    { s with flags := { s.flags with
      precedingDocComment := doc || s.flags.precedingDocComment } } := by
  unfold markDoc
  split
  · exact ⟨true, rfl⟩
  · exact ⟨false, rfl⟩

theorem markLineBreak_eq (line : Bool) (s : Scanner) : (if line then s.markLineBreak else s) =
    { s with flags := { s.flags with
      precedingLineBreak := line || s.flags.precedingLineBreak } } := by
  cases line with
  | true => rfl
  | false => rfl

theorem closes_scanBlockComment (s : Scanner) : Closes s s.scanBlockComment := by
  obtain ⟨doc, marked⟩ := markDoc_eq (s.stop + 2) (s.check (s.stop + 2 ≤ s.limit))
  have body (f : TokenFlags) : { s.check (s.stop + 2 ≤ s.limit) with flags := f }.commentEnd?
      (s.stop + 2) = s.commentEnd? (s.stop + 2) := rfl
  simp only [scanBlockComment, marked, markLineBreak_eq, closeBlockComment, body]
  cases found : s.commentEnd? (s.stop + 2) with
  | some p => exact .closed doc found
  | none => exact .unclosed doc found

/-- What a try for trivia comes to. -/
inductive Tries (s : Scanner) : Bool × Scanner → Prop
  | lineBreak (c : Char) {t : Scanner} (touched : Touched s t) (here : s.peek 0 = some c)
      (line : isLineBreak c) : Tries s (true, t.scanLineBreak
        (if c == '\r' && s.peek 1 == some '\n' then 2 else c.utf8Size))
  | blanks (c : Char) {t : Scanner} (touched : Touched s t) (here : s.peek 0 = some c)
      (blank : isBlank c) : Tries s (true, t.scanBlanks)
  | script (first : s.stop = 0) (here : s.peek 0 = some '#') (next : s.peek 1 = some '!') :
      Tries s (true, { s with stop := s.lineEnd s.stop, kind := .shebangTrivia })
  | lineComment (here : s.peek 0 = some '/') (next : s.peek 1 = some '/') :
      Tries s (true, s.scanLineComment)
  | blockComment (here : s.peek 0 = some '/') (next : s.peek 1 = some '*') :
      Tries s (true, s.scanBlockComment)
  | marker (c : Char) (here : s.peek 0 = some c) (sign : c ∈ ['<', '=', '>', '|'])
      (marks : s.isConflictMarker s.stop) : Tries s (true, s.scanConflictMarker.markLineBreak)
  | solid (c : Char) {t : Scanner} (touched : Touched s t) (here : s.peek 0 = some c)
      (solid : s.Solid c) : Tries s (false, t)
  | ended {t : Scanner} (touched : Touched s t) (here : s.peek 0 = none) : Tries s (false, t)

theorem tries_scanTrivia (s : Scanner) : Tries s s.scanTrivia := by
  have still : Touched s s := .inl rfl
  have touched : Touched s (s.touch s.stop) := .inr rfl
  unfold scanTrivia
  split
  · next h => exact .lineBreak '\n' still h rfl
  · next h => exact .lineBreak '\r' still h rfl
  · next h => exact .blanks ' ' still h rfl
  · next h => exact .blanks '\t' still h rfl
  · next h => exact .blanks '\x0b' still h rfl
  · next h => exact .blanks '\x0c' still h rfl
  · next h =>
    split
    · next signs =>
      obtain ⟨first, next⟩ := Bool.and_eq_true_iff.mp signs
      exact .script (eq_of_beq first) h (eq_of_beq next)
    · next signs =>
      refine .solid '#' still h ⟨by decide, nofun, fun _ first next => signs ?_, by simp⟩
      simp [first, next]
  · next h =>
    split
    · next line => exact .lineComment h (eq_of_beq line)
    · next line =>
      split
      · next opening => exact .blockComment h (eq_of_beq opening)
      · next opening =>
        refine .solid '/' still h ⟨by decide, fun _ => ⟨?_, ?_⟩, nofun, by simp⟩
        · simpa using line
        · simpa using opening
  · next c feed ret blank tab vertical form hash slash h =>
    split
    · next ascii =>
      have space : isSpace c = false := Bool.eq_false_iff.mpr fun space => by
        have among := isSpace_ascii space ascii
        simp only [List.mem_cons, List.not_mem_nil, or_false] at among
        rcases among with same | same | same | same | same | same
        · exact feed same
        · exact ret same
        · exact blank same
        · exact tab same
        · exact vertical same
        · exact form same
      split
      · next marks =>
        obtain ⟨sign, marks⟩ := Bool.and_eq_true_iff.mp marks
        exact .marker c h (by simpa [or_assoc] using sign) marks
      · next none =>
        refine .solid c still h ⟨space, fun same => absurd same slash,
          fun same => absurd same hash, fun sign => ?_⟩
        have sign : (c == '<' || c == '=' || c == '>' || c == '|') = true := by
          simpa [or_assoc] using sign
        simpa [sign] using none
    · next wide =>
      dsimp only
      split
      · next line =>
        have other : (c == '\r') = false := beq_eq_false_iff_ne.mpr ret
        have breaks := Tries.lineBreak c touched h line
        rwa [other, Bool.false_and, if_neg Bool.false_ne_true] at breaks
      · next line =>
        split
        · next blank => exact .blanks c touched h blank
        · next blank =>
          have space : isSpace c = false := by simp [isSpace, line, blank]
          refine .solid c touched h ⟨space, fun same => absurd same slash,
            fun same => absurd same hash, fun sign => absurd ?_ wide⟩
          simp only [List.mem_cons, List.not_mem_nil, or_false] at sign
          rcases sign with rfl | rfl | rfl | rfl <;> rfl
  · next h => exact .ended touched h

/-- Where no trivia begins there is none. -/
theorem touched_scanTrivia (here : s.peek 0 = some c) (solid : s.Solid c) :
    ∃ t, Touched s t ∧ s.scanTrivia = (false, t) := by
  have same {d : Char} (there : s.peek 0 = some d) : c = d :=
    Option.some.inj (here.symm.trans there)
  have space := solid.space
  rw [isSpace, Bool.or_eq_false_iff] at space
  have tries := tries_scanTrivia s
  generalize s.scanTrivia = r at tries ⊢
  cases tries with
  | lineBreak d _ there line => rw [same there, line] at space; cases space.2
  | blanks d _ there blank => rw [same there, blank] at space; cases space.1
  | script first there next => exact absurd next (solid.script (same there) first)
  | lineComment there next => exact absurd next (solid.comment (same there)).1
  | blockComment there next => exact absurd next (solid.comment (same there)).2
  | marker d there sign marks => rw [solid.marker (same there ▸ sign)] at marks; cases marks
  | solid _ touched => exact ⟨_, touched, rfl⟩
  | ended touched => exact ⟨_, touched, rfl⟩

end ScriptGrammar.Scanner
