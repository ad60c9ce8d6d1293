import ScriptGrammar.Proofs.Scanner.Modes
import ScriptGrammar.Proofs.Scanner.Searches

/-!
# Where the markers of a conflict stand

A marker stands at the start of the text or behind a line terminator, as it should, or three bytes
behind the start of a line feed or carriage return: the two bytes between are not looked at. What
is looked for there is a separator of lines or paragraphs, which takes three bytes.
-/

namespace ScriptGrammar

/-- The text begins at `p`, or a line terminator ends there. -/
def Source.LineStart (src : Source) (p : Nat) : Prop :=
  p = 0 ∨ ∃ q c, src.charAt? q = some c ∧ isLineBreak c ∧ q + c.utf8Size = p

/-- A line feed or carriage return begins three bytes before `p`. -/
def Source.FeedNear (src : Source) (p : Nat) : Prop :=
  ∃ q, (src.charAt? q = some '\n' ∨ src.charAt? q = some '\r') ∧ q + 3 = p

namespace Scanner

variable {s : Scanner} {c : Char} {p : Nat}

theorem isLineBreak_cases (line : isLineBreak c) :
    (c = '\n' ∨ c = '\r') ∧ c.utf8Size = 1 ∨ c.utf8Size = 3 := by
  simp only [isLineBreak, Bool.or_eq_true, beq_iff_eq] at line
  rcases line with ((rfl | rfl) | rfl) | rfl
  · exact .inl ⟨.inl rfl, rfl⟩
  · exact .inl ⟨.inr rfl, rfl⟩
  · exact .inr rfl
  · exact .inr rfl

theorem lineStart_of_charAt? (h : s.charAt? (p - 1) = some c) (line : isLineBreak c)
    (thin : c.utf8Size = 1) : s.source.LineStart p := by
  by_cases first : p = 0
  · exact .inl first
  · exact .inr ⟨p - 1, c, (charAt?_eq_some.mp h).2, line, by omega⟩

/-- What the scanner takes for the start of a line. -/
theorem followsLineBreak_iff (inside : p ≤ s.limit) :
    s.followsLineBreak p = true ↔ s.source.LineStart p ∨ s.source.FeedNear p := by
  simp only [followsLineBreak, Bool.or_eq_true, Bool.and_eq_true, beq_iff_eq, decide_eq_true_eq]
  constructor
  · rintro (((first | feed) | feed) | ⟨room, line⟩)
    · exact .inl (.inl first)
    · exact .inl (lineStart_of_charAt? feed rfl rfl)
    · exact .inl (lineStart_of_charAt? feed rfl rfl)
    · simp only [lineBreakAt] at line
      split at line
      · next c here =>
        have line := (Bool.and_eq_true_iff.mp line).1
        rcases isLineBreak_cases line with ⟨rfl | rfl, _⟩ | wide
        · exact .inr ⟨p - 3, .inl here, Nat.sub_add_cancel room⟩
        · exact .inr ⟨p - 3, .inr here, Nat.sub_add_cancel room⟩
        · exact .inl (.inr ⟨p - 3, c, here, line, by omega⟩)
      · cases line
  · have before {q : Nat} {c : Char} (here : s.source.charAt? q = some c) (ends : q + 1 = p) :
        s.charAt? (p - 1) = some c := by
      obtain rfl : q = p - 1 := by omega
      exact charAt?_eq_some.mpr ⟨by omega, here⟩
    have near {q : Nat} {c : Char} (here : s.source.charAt? q = some c) (line : isLineBreak c)
        (size : c.utf8Size ≤ 3) (ends : q + 3 = p) :
        3 ≤ p ∧ s.lineBreakAt s.limit (p - 3) = true := by
      obtain rfl : q = p - 3 := by omega
      have room : p - 3 + c.utf8Size ≤ s.limit := by omega
      exact ⟨by omega, by simp [lineBreakAt, here, line, room]⟩
    rintro ((first | ⟨q, c, here, line, ends⟩) | ⟨q, feed | feed, ends⟩)
    · exact .inl (.inl (.inl first))
    · rcases isLineBreak_cases line with ⟨rfl | rfl, thin⟩ | wide
      · exact .inl (.inl (.inr (before here ends)))
      · exact .inl (.inr (before here ends))
      · exact .inr (near here line (Nat.le_of_eq wide) (wide ▸ ends))
    · exact .inr (near feed rfl (by decide) ends)
    · exact .inr (near feed rfl (by decide) ends)

/-- Only a marker is scanned as one. -/
theorem isConflictMarker_of_kind (s : Scanner) : s.scanTrivia.1 = true →
    s.scanTrivia.2.kind = .conflictMarkerTrivia → s.isConflictMarker s.stop = true := by
  have tries := tries_scanTrivia s
  generalize s.scanTrivia = r at tries ⊢
  intro some kind
  cases tries with
  | marker c here sign marks => exact marks
  | blockComment =>
    have closes := closes_scanBlockComment s
    generalize s.scanBlockComment = t at closes kind
    cases closes <;> cases kind
  | solid => cases some
  | ended => cases some
  | _ => cases kind

/-- With trivia kept, a marker of a conflict is read only where the scanner takes a line to start:
at the start of a line, and also three bytes behind the start of a line feed or carriage return. -/
theorem scan_marker (s : Scanner) (keeps : s.keepsTrivia) :
    (s.scan.kind = .conflictMarkerTrivia →
      s.source.LineStart s.scan.start ∨ s.source.FeedNear s.scan.start) ∧
    ∀ p ≤ s.limit,
      (s.followsLineBreak p = true ↔ s.source.LineStart p ∨ s.source.FeedNear p) := by
  refine ⟨fun marker => ?_, fun p inside => followsLineBreak_iff inside⟩
  let b : Scanner := s.begin.restarted
  have onward := (scanTrivia_spec b).1
  have kept : b.scanTrivia.2.keepsTrivia = true := onward.keepsTrivia.trans keeps
  cases more : b.atEnd with
  | true =>
    rw [scan, scanFrom_end more] at marker
    cases marker
  | false =>
    cases found : b.scanTrivia with
    | mk any t =>
      rw [found] at onward kept
      cases any with
      | false =>
        have same : s.scan = t.scanToken := scanFrom_token (s := s.begin) more found
        have trivia := isTrivia_scanToken t
        rw [← same, marker] at trivia
        cases trivia
      | true =>
        have same : s.scan = t := scanFrom_kept (s := s.begin) more found kept
        have marks := isConflictMarker_of_kind b (by rw [found]) (by rw [found, ← same, marker])
        simp only [isConflictMarker, Bool.and_eq_true, decide_eq_true_eq] at marks
        obtain ⟨⟨⟨follows, room⟩, _⟩, _⟩ := marks
        have start : s.scan.start = s.stop := same ▸ onward.start
        rw [start]
        exact (followsLineBreak_iff (s := s) (Nat.le_of_lt (Nat.lt_of_le_of_lt
          (Nat.le_add_right _ _) room))).mp follows

/-- A marker behind a separator of lines. -/
theorem scan_marker_separator :
    let s := (ofSource (.ofString "é\u2028=======b") true).scan.scan
    s.scan.kind = .conflictMarkerTrivia ∧
      (s.source.LineStart s.scan.start ∨ s.source.FeedNear s.scan.start) := by
  intro s
  have marker : s.scan.kind = .conflictMarkerTrivia := by decide +kernel
  exact ⟨marker, (scan_marker s (by decide +kernel)).1 marker⟩

/-- Behind a word of two letters an operator is taken for a marker: the line begins three bytes
before it with a line feed. -/
theorem scan_marker_inLine :
    let s := (ofSource (.ofString "\nab=======x") true).scan.scan
    (s.scan.kind = .conflictMarkerTrivia ∧ s.scan.start = 3) ∧
      (s.source.isBoundary 3 = true ∧ s.followsLineBreak 3 = true) ∧ ¬ s.source.LineStart 3 := by
  intro s
  have kind : s.scan.kind = .conflictMarkerTrivia := by decide +kernel
  have start : s.scan.start = 3 := by decide +kernel
  have boundary : s.source.isBoundary 3 = true := by decide +kernel
  have follows : s.followsLineBreak 3 = true := by decide +kernel
  refine ⟨⟨kind, start⟩, ⟨boundary, follows⟩, ?_⟩
  rintro (zero | ⟨q, c, here, line, ends⟩)
  · cases zero
  have feed : s.source.charAt? 0 = some '\n' := by decide +kernel
  have first : s.source.charAt? 1 = some 'a' := by decide +kernel
  have second : s.source.charAt? 2 = some 'b' := by decide +kernel
  have positive := c.utf8Size_pos
  obtain rfl | rfl | rfl : q = 0 ∨ q = 1 ∨ q = 2 := by omega
  · obtain rfl := Option.some.inj (feed.symm.trans here)
    cases ends
  · obtain rfl := Option.some.inj (first.symm.trans here)
    cases line
  · obtain rfl := Option.some.inj (second.symm.trans here)
    cases line

end Scanner
end ScriptGrammar
