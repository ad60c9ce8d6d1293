import ScriptGrammar.Proofs.Scanner.Reading
import ScriptGrammar.Proofs.Scanner.Searches

/-!
# Text between tags

A text run goes up to the next tag or brace. One number tells whether it is blank and breaks the
line: it is 0 as long as there is nothing but spaces, -1 once a line break is among them, and else
the offset of the last character that is no space. At the start of a source that offset is 0 too.
-/

namespace ScriptGrammar.Scanner

/-- A character that goes on with a text run. -/
def isContent (c : Char) : Bool := !(c == '\x7b' || c == '<')

/-- The text run at `p`. -/
def contentAt (s : Scanner) (p : Nat) : List Char :=
  (s.source.chars p s.limit).takeWhile isContent

/-- The mark behind a character at `p`. -/
def nextMark (p : Nat) (mark : Int) (c : Char) : Int :=
  if isLineBreak c && mark == 0 then -1 else if isSpace c then mark else (p : Int)

variable {s : Scanner} {c : Char} {p fuel : Nat} {mark : Int}

theorem isContent_iff : isContent c ↔ c ≠ '\x7b' ∧ c ≠ '<' := by
  simp [isContent]

theorem contentAt_cons (h : s.charAt? p = some c) (text : isContent c) :
    s.contentAt p = c :: s.contentAt (p + c.utf8Size) := by
  rw [contentAt, Source.chars_cons h, List.takeWhile_cons_of_pos text, contentAt]

theorem contentAt_stop (begins : s.source.isBoundary p)
    (ends : ∀ c, s.charAt? p = some c → isContent c = false) : s.contentAt p = [] := by
  cases here : s.charAt? p with
  | none =>
    rw [contentAt, Source.chars_end begins here]
    rfl
  | some c =>
    rw [contentAt, Source.chars_cons here, List.takeWhile_cons_of_neg (by simp [ends c here])]

theorem contentEnd_cons (h : s.charAt? p = some c) (text : isContent c) :
    s.contentEnd (fuel + 1) p mark = s.contentEnd fuel (p + c.utf8Size) (nextMark p mark c) := by
  have goes : (c == '\x7b' || c == '<') = false := by simpa [isContent] using text
  rw [contentEnd, h]
  exact if_neg (Bool.eq_false_iff.mp goes)

theorem contentEnd_stop (ends : ∀ c, s.charAt? p = some c → isContent c = false) :
    s.contentEnd fuel p mark = (p, mark) := by
  cases fuel with
  | zero => rfl
  | succ fuel =>
    rw [contentEnd]
    cases here : s.charAt? p with
    | none => rfl
    | some c =>
      have closes : (c == '\x7b' || c == '<') = true := by
        have closes := ends c here
        rwa [isContent, Bool.not_eq_false'] at closes
      exact if_pos closes

/-- What holds where a run ends, and before a character of it if it holds behind, holds of every
walk with enough fuel. -/
theorem content_induction {s : Scanner} {motive : (fuel p : Nat) → (mark : Int) → Prop}
    (stop : ∀ fuel p mark, s.source.isBoundary p →
      (∀ c, s.charAt? p = some c → isContent c = false) → motive fuel p mark)
    (cons : ∀ fuel p mark c, s.charAt? p = some c → isContent c →
      motive fuel (p + c.utf8Size) (nextMark p mark c) → motive (fuel + 1) p mark)
    (fuel p : Nat) (mark : Int) (begins : s.source.isBoundary p) (room : s.limit - p ≤ fuel) :
    motive fuel p mark := by
  induction fuel generalizing p mark with
  | zero =>
    refine stop 0 p mark begins fun c here => ?_
    have below := (charAt?_eq_some.mp here).1
    omega
  | succ fuel ih =>
    by_cases text : ∃ c, s.charAt? p = some c ∧ isContent c
    · obtain ⟨c, here, text⟩ := text
      have positive := c.utf8Size_pos
      exact cons fuel p mark c here text (ih _ _ (isBoundary_after here) (by omega))
    · refine stop _ p mark begins fun c here => ?_
      exact Bool.eq_false_iff.mpr fun goes => text ⟨c, here, goes⟩

/-- The run is all that stands before the next tag or brace. -/
theorem holds_contentAt (s : Scanner) (fuel p : Nat) (mark : Int) (begins : s.source.isBoundary p)
    (room : s.limit - p ≤ fuel) :
    s.source.Holds s.limit p (s.contentAt p) ∧
      (s.contentEnd fuel p mark).1 = p + (layout (s.contentAt p)).length ∧
      ∀ d, s.charAt? (p + (layout (s.contentAt p)).length) = some d → isContent d = false := by
  refine content_induction (motive := fun fuel p mark => s.source.Holds s.limit p (s.contentAt p) ∧
    (s.contentEnd fuel p mark).1 = p + (layout (s.contentAt p)).length ∧ ∀ d, s.charAt?
      (p + (layout (s.contentAt p)).length) = some d → isContent d = false) ?_ ?_ fuel p mark begins
    room
  · intro fuel p mark begins ends
    rw [contentAt_stop begins ends, contentEnd_stop ends]
    exact ⟨trivial, rfl, ends⟩
  · rintro fuel p mark c here text ⟨holds, stop, ends⟩
    rw [contentAt_cons here text, contentEnd_cons here text, length_layout_cons, ← Nat.add_assoc]
    exact ⟨⟨here, holds⟩, stop, ends⟩

theorem isSpace_of_isLineBreak (h : isLineBreak c) : isSpace c := by
  simp [isSpace, h]

theorem nextMark_cases (p : Nat) (mark : Int) (c : Char) :
    isLineBreak c ∧ mark = 0 ∧ nextMark p mark c = -1 ∨
      isSpace c ∧ (isLineBreak c → mark ≠ 0) ∧ nextMark p mark c = mark ∨
      isSpace c = false ∧ nextMark p mark c = p := by
  rw [nextMark]
  split
  · next first =>
    obtain ⟨line, zero⟩ := Bool.and_eq_true_iff.mp first
    exact .inl ⟨line, eq_of_beq zero, rfl⟩
  · next other =>
    split
    · next space =>
      exact .inr (.inl ⟨space, fun line zero => other (by simp [line, zero]), rfl⟩)
    · next solid => exact .inr (.inr ⟨Bool.eq_false_iff.mpr solid, rfl⟩)

/-- Behind the start of the source the mark is -1 if and only if nothing but spaces has come and a
line break is among them. -/
theorem contentEnd_mark (s : Scanner) (fuel p : Nat) (mark : Int) (begins : s.source.isBoundary p)
    (room : s.limit - p ≤ fuel) (later : 0 < p) (low : -1 ≤ mark) :
    (s.contentEnd fuel p mark).2 = -1 ↔ mark ≤ 0 ∧ (s.contentAt p).all isSpace ∧
      (mark = -1 ∨ (s.contentAt p).any isLineBreak) := by
  refine content_induction (motive := fun fuel p mark => 0 < p → -1 ≤ mark →
    ((s.contentEnd fuel p mark).2 = -1 ↔ mark ≤ 0 ∧ (s.contentAt p).all isSpace ∧
      (mark = -1 ∨ (s.contentAt p).any isLineBreak))) ?_ ?_ fuel p mark begins room later low
  · intro fuel p mark begins ends _ _
    rw [contentAt_stop begins ends, contentEnd_stop ends]
    simp only [List.all_nil, List.any_nil, Bool.false_eq_true, or_false, true_and]
    omega
  · intro fuel p mark c here text ih later low
    have step := ih (Nat.add_pos_left later _)
    rw [contentAt_cons here text, contentEnd_cons here text, List.all_cons, List.any_cons]
    rcases nextMark_cases p mark c with ⟨line, rfl, next⟩ | ⟨space, first, next⟩ | ⟨solid, next⟩
    · rw [next] at step ⊢
      rw [step (by omega)]
      simp [line, isSpace_of_isLineBreak line]
    · rw [next] at step ⊢
      rw [step low, space, Bool.true_and]
      cases line : isLineBreak c with
      | false => simp only [Bool.false_or]
      | true =>
        -- The mark has left 0 before, so it can only be -1.
        have passed := first line
        refine and_congr_right fun low => and_congr_right fun _ => ?_
        simp only [Bool.true_or, or_true, iff_true]
        exact .inl (by omega)
    · rw [next] at step ⊢
      rw [step (by omega), solid]
      simp
      omega

/-- The mark of a whole run. A first character at the start of the source never changes it. -/
theorem contentEnd_marks (here : s.charAt? p = some c) (text : isContent c) :
    (s.contentEnd (s.limit - p) p 0).2 = -1 ↔
      (if p = 0 then (s.contentAt p).tail else s.contentAt p).all isSpace ∧
        (s.contentAt p).any isLineBreak := by
  have begins := Source.isBoundary_of_charAt? (charAt?_eq_some.mp here).2
  split
  · next first =>
    subst first
    have positive := c.utf8Size_pos
    have below := (charAt?_eq_some.mp here).1
    obtain ⟨fuel, more⟩ : ∃ n, s.limit - 0 = n + 1 := ⟨s.limit - 1, by omega⟩
    have rest (m : Int) (low : -1 ≤ m) := contentEnd_mark s fuel (0 + c.utf8Size) m
      (isBoundary_after here) (by omega) (by omega) low
    rw [contentAt_cons here text, more, contentEnd_cons here text, List.any_cons, List.tail_cons]
    rcases nextMark_cases 0 0 c with ⟨line, _, next⟩ | ⟨_, first, next⟩ | ⟨solid, next⟩
    · rw [next, rest _ (by omega), line]
      simp
    · have other : isLineBreak c = false := Bool.eq_false_iff.mpr fun line => first line rfl
      rw [next, rest _ (by omega), other]
      simp
    · have other : isLineBreak c = false := Bool.eq_false_iff.mpr fun line => by
        rw [isSpace_of_isLineBreak line] at solid
        cases solid
      have next : nextMark 0 0 c = 0 := next
      rw [next, rest _ (by omega), other]
      simp
  · next later =>
    rw [contentEnd_mark s _ p 0 begins (Nat.le_refl _) (Nat.pos_of_ne_zero later) (by omega)]
    simp

/-- Where a text run begins it is read to its end, or from there on as a conflict marker. -/
theorem scanContent_eq (here : s.peek 0 = some c) (text : c ≠ '\x7b' ∧ c ≠ '<') :
    let o := s.opened.touch s.stop
    let e := o.contentEnd (s.limit - s.stop) s.stop 0
    s.scanContent =
      if s.charAt? e.1 = some '<' ∧ s.isConflictMarker e.1 then
        ({ o with stop := e.1 } : Scanner).scanConflictMarker
      else
        ({ o with
          stop := e.1
          kind := if e.2 = -1 then .jsxTextAllWhiteSpaces else .jsxText } : Scanner).setValue := by
  intro o e
  have more : ¬ s.opened.atEnd = true := fun ends =>
    absurd (peek_lt here) (Nat.not_lt.mpr (of_decide_eq_true ends))
  have run : s.scanContent = s.opened.scanContentRun := by
    show (if s.opened.atEnd then { s.opened with kind := .endOfFileToken } else _) = _
    rw [if_neg more]
    split
    · next angle => exact absurd (Option.some.inj (here.symm.trans angle)) text.2
    · next brace => exact absurd (Option.some.inj (here.symm.trans brace)) text.1
    · rfl
  rw [run]
  show (if (s.charAt? e.1 == some '<' && s.isConflictMarker e.1) = true then _ else
    ({ o with
      stop := e.1
      kind := if (e.2 == -1) = true then _ else _ } : Scanner).setValue) = _
  simp only [Bool.and_eq_true, beq_iff_eq]
  rfl

/-- What is read of a text run: all of it, up to the next tag or brace or the end, or on to the end
of a conflict marker there. It is blank lines if it is spaces with a line break among them; at the
start of the source whatever the first character is. -/
theorem scanContent_text (s : Scanner) (here : s.peek 0 = some c) (text : c ≠ '\x7b' ∧ c ≠ '<') :
    let run := s.contentAt s.stop
    let ends := s.stop + (layout run).length
    let t := s.scanContent
    (s.source.Holds s.limit s.stop run ∧ ∀ d, s.charAt? ends = some d → d = '\x7b' ∨ d = '<') ∧
      if s.charAt? ends = some '<' ∧ s.isConflictMarker ends then t.kind = .conflictMarkerTrivia
      else
        (t.fullStart = s.stop ∧ t.start = s.stop ∧ t.stop = ends ∧
          t.value = String.ofList run ∧ t.pending = s.pending) ∧
        (s.source.isBoundary s.limit → t.torn = s.torn) ∧
        t.kind = if (if s.stop = 0 then run.tail else run).all isSpace ∧ run.any isLineBreak
          then .jsxTextAllWhiteSpaces else .jsxText := by
  intro run ends t
  have begins : s.source.isBoundary s.stop :=
    Source.isBoundary_of_charAt? (charAt?_eq_some.mp here).2
  obtain ⟨holds, stop, closes⟩ : s.source.Holds s.limit s.stop run ∧
      ((s.opened.touch s.stop).contentEnd (s.limit - s.stop) s.stop 0).1 = ends ∧
      ∀ d, s.charAt? ends = some d → isContent d = false :=
    holds_contentAt (s.opened.touch s.stop) _ _ 0 begins (Nat.le_refl _)
  have marks : ((s.opened.touch s.stop).contentEnd (s.limit - s.stop) s.stop 0).2 = -1 ↔
      (if s.stop = 0 then run.tail else run).all isSpace ∧ run.any isLineBreak :=
    contentEnd_marks (s := s.opened.touch s.stop) here (isContent_iff.mpr text)
  have reads : t = _ := scanContent_eq here text
  rw [stop] at reads
  refine ⟨⟨holds, fun d behind => ?_⟩, ?_⟩
  · have closes := closes d behind
    rw [isContent, Bool.not_eq_false', Bool.or_eq_true] at closes
    exact closes.imp eq_of_beq eq_of_beq
  split
  · next marker =>
    rw [reads, if_pos marker]
    rfl
  · next plain =>
    rw [if_neg plain] at reads
    rw [reads]
    refine ⟨⟨rfl, rfl, rfl, ?_, rfl⟩, fun whole => ?_, ?_⟩
    · exact congrArg String.ofList holds.chars
    · have inside : s.source.sliceable s.stop ends := holds.sliceable begins
      have touched : (s.opened.touch s.stop).torn = s.torn := by
        simp [touch, check, begins, whole, opened, begin]
      show ((s.opened.touch s.stop).torn || !s.source.sliceable s.stop ends) = s.torn
      rw [inside, touched]
      simp
    · simp only [kind_setValue, marks]

/-- Blank lines before a tag, not at the start of the source. -/
theorem scanContent_text_blank :
    let s := (Scanner.ofSource (.ofString "a\u2028\u3000 <b") true).reset 1
    let t := s.scanContent
    s.peek 0 = some '\u2028' ∧ s.contentAt s.stop = ['\u2028', '\u3000', ' '] ∧
      (t.start = 1 ∧ t.stop = 8 ∧ t.value = "\u2028\u3000 ") ∧
      t.kind = .jsxTextAllWhiteSpaces := by
  obtain ⟨s, begun⟩ :
      ∃ s, (Scanner.ofSource (.ofString "a\u2028\u3000 <b") true).reset 1 = s := ⟨_, rfl⟩
  have here : s.stop = 1 ∧ s.peek 0 = some '\u2028' := by
    rw [← begun]
    decide +kernel
  have run : s.contentAt s.stop = ['\u2028', '\u3000', ' '] := by
    rw [← begun]
    decide +kernel
  have plain : s.isConflictMarker 8 = false := by
    rw [← begun]
    decide +kernel
  have ends : 1 + (layout ['\u2028', '\u3000', ' ']).length = 8 := by decide +kernel
  obtain ⟨_, found⟩ := scanContent_text s here.2 (by decide)
  rw [run, here.1, ends, if_neg fun marker => Bool.false_ne_true (plain.symm.trans marker.2)]
    at found
  obtain ⟨⟨_, start, stop, value, _⟩, _, kind⟩ := found
  rw [begun]
  exact ⟨here.2, run, ⟨start, stop, value⟩, kind.trans (by decide +kernel)⟩

/-- A letter and a line break at the start of a source are read as blank lines. -/
theorem scanContent_skips :
    let s := Scanner.ofSource (.ofString "a\n<") false
    let t := s.scanContent
    s.contentAt 0 = ['a', '\n'] ∧ t.value = "a\n" ∧ isSpace 'a' = false ∧
      t.kind = .jsxTextAllWhiteSpaces := by
  decide +kernel

end ScriptGrammar.Scanner
