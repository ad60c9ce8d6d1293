import ScriptGrammar.Proofs.Lines
import ScriptGrammar.Proofs.Scanner.Lexing
import ScriptGrammar.Proofs.Scanner.Passage

/-!
# Line breaks before a token

A token notes that a line break precedes it just if a line terminator lies in the trivia before
it. Every run of trivia keeps the note right, with one exception: the marker of a conflict is noted
as a line break before its line ends. Then the text ends there, or the next run is a line break.
-/

namespace ScriptGrammar

/-- A line terminator lies in the text from `a` to `b`. -/
def Source.Breaks (src : Source) (a b : Nat) : Prop := ∃ c ∈ src.chars a b, isLineBreak c

namespace Source

variable {src : Source} {a b d p : Nat} {c : Char}

theorem breaks_append (first : a ≤ b) (second : b ≤ d) :
    src.Breaks a d ↔ src.Breaks a b ∨ src.Breaks b d := by
  simp only [Breaks, ← chars_append first second, List.mem_append]
  constructor
  · rintro ⟨c, inFirst | inSecond, line⟩
    · exact .inl ⟨c, inFirst, line⟩
    · exact .inr ⟨c, inSecond, line⟩
  · rintro (⟨c, among, line⟩ | ⟨c, among, line⟩)
    · exact ⟨c, .inl among, line⟩
    · exact ⟨c, .inr among, line⟩

theorem breaks_of_charAt? (h : src.charAt? p = some c) (line : isLineBreak c) (from_ : a ≤ p)
    (below : p < b) : src.Breaks a b :=
  ⟨c, mem_chars.mpr ⟨p, from_, below, h⟩, line⟩

theorem not_breaks_of (h : ∀ p c, a ≤ p → p < b → src.charAt? p = some c → isLineBreak c = false) :
    ¬ src.Breaks a b := by
  rintro ⟨c, among, line⟩
  obtain ⟨p, from_, below, here⟩ := mem_chars.mp among
  rw [h p c from_ below here] at line
  cases line

/-- Two characters of one byte that are no line breaks. -/
theorem not_breaks_pair {e : Char} (first : src.charAt? p = some c)
    (second : src.charAt? (p + 1) = some e)
    (plain : isLineBreak c = false ∧ isLineBreak e = false) : ¬ src.Breaks p (p + 2) := by
  refine not_breaks_of fun q d from_ below here => ?_
  by_cases same : q = p
  · rw [same, first] at here
    exact Option.some.inj here ▸ plain.1
  · rw [show q = p + 1 by omega, second] at here
    exact Option.some.inj here ▸ plain.2

end Source

theorem not_isLineBreak_of_isBlank {c : Char} (blank : isBlank c) : isLineBreak c = false := by
  rw [Bool.eq_false_iff]
  intro line
  simp only [isLineBreak, Bool.or_eq_true, beq_iff_eq] at line
  rcases line with ((rfl | rfl) | rfl) | rfl <;> exact absurd blank (by decide)

namespace Scanner

variable {s t u : Scanner} {c : Char} {a b p : Nat}

/-- The next character is a line terminator. -/
def facesBreak (s : Scanner) : Bool := (s.peek 0).any isLineBreak

/-- From `s` to `t` a line break was noted just if one was passed, or it is noted ahead of time. -/
inductive Marks (s t : Scanner) : Prop
  | passed (h : t.flags.precedingLineBreak = true ↔
      s.flags.precedingLineBreak = true ∨ s.source.Breaks s.stop t.stop)
  | ahead (noted : t.flags.precedingLineBreak = true) (soon : t.atEnd = true ∨ t.facesBreak = true)

theorem Marks.plain (flag : t.flags.precedingLineBreak = s.flags.precedingLineBreak)
    (none : ¬ s.source.Breaks s.stop t.stop) : Marks s t := by
  refine .passed ?_
  rw [flag]
  exact (or_iff_left none).symm

theorem Marks.line (flag : t.flags.precedingLineBreak = true)
    (some : s.source.Breaks s.stop t.stop) : Marks s t :=
  .passed (iff_of_true flag (.inr some))

theorem Marks.joined {line : Bool}
    (flag : t.flags.precedingLineBreak = (line || s.flags.precedingLineBreak))
    (breaks : s.source.Breaks s.stop t.stop ↔ line = true) : Marks s t := by
  refine .passed ?_
  rw [flag, Bool.or_eq_true, breaks]
  exact or_comm

theorem Marks.of_touched (touched : Touched s u) (h : Marks u t) : Marks s t := by
  obtain ⟨ok, rfl⟩ := touched.check
  cases h with
  | passed h => exact .passed h
  | ahead noted soon => exact .ahead noted soon

theorem marks_scanLineBreak {n : Nat} (h : s.peek 0 = some c) (line : isLineBreak c)
    (positive : 0 < n) : Marks s (s.scanLineBreak n) :=
  .line rfl (Source.breaks_of_charAt? (charAt?_eq_some.mp h).2 line (Nat.le_refl _)
    (Nat.lt_add_of_pos_right positive))

theorem marks_scanBlanks (s : Scanner) : Marks s s.scanBlanks := by
  refine .plain rfl ?_
  rintro ⟨c, among, line⟩
  have blank := (Source.chars_skipWhile s.source s.limit isBlank s.stop).1 c among
  rw [not_isLineBreak_of_isBlank blank] at line
  cases line

/-- At the end of a line stands a line terminator, or the text ends. -/
theorem lineEnd_ends (stop : t.stop = s.lineEnd p) (source : t.source = s.source)
    (limit : t.limit = s.limit) : t.atEnd = true ∨ t.facesBreak = true := by
  unfold lineEnd at stop
  cases found : Source.seek s.limit (s.lineBreakAt s.limit) (s.limit - p) p with
  | none =>
    rw [found] at stop
    exact .inl (by simp [atEnd, stop, limit])
  | some e =>
    rw [found] at stop
    obtain ⟨_, below, line⟩ := Source.seek_spec found
    obtain ⟨c, here, breaks⟩ : ∃ c, s.source.charAt? e = some c ∧ isLineBreak c := by
      simp only [lineBreakAt] at line
      split at line
      · next c here => exact ⟨c, here, (Bool.and_eq_true_iff.mp line).1⟩
      · cases line
    have next : t.peek 0 = some c := by
      refine charAt?_eq_some.mpr ?_
      rw [stop, source, limit]
      exact ⟨below, here⟩
    exact .inr (by simp [facesBreak, next, breaks])

/-- What a comment is searched for is a line break in it. -/
theorem hasLineBreak_iff (boundary : s.source.isBoundary b) :
    s.hasLineBreak a b = true ↔ s.source.Breaks a b := by
  unfold hasLineBreak
  constructor
  · intro some
    obtain ⟨q, found⟩ := Option.isSome_iff_exists.mp some
    obtain ⟨from_, below, line⟩ := Source.seek_spec found
    simp only [lineBreakAt] at line
    split at line
    · next c here =>
      exact Source.breaks_of_charAt? here (Bool.and_eq_true_iff.mp line).1 from_ below
    · cases line
  · rintro ⟨c, among, line⟩
    obtain ⟨q, from_, below, here⟩ := Source.mem_chars.mp among
    have ends := Source.le_of_isBoundary here below boundary
    cases found : Source.seek b (s.lineBreakAt b) (b - a) a with
    | some e => rfl
    | none =>
      have none := Source.seek_none (Nat.le_refl _) found q from_ below
      simp [lineBreakAt, here, line, ends] at none

section Lines

variable (whole : s.limit = s.source.size)

include whole

/-- A line ends before the first line terminator. -/
theorem not_breaks_lineEnd (p : Nat) : ¬ s.source.Breaks p (s.lineEnd p) := by
  refine Source.not_breaks_of fun q c from_ below here => ?_
  have at_ : s.charAt? q = some c := charAt?_eq_some.mpr ⟨whole ▸ Source.charAt?_lt here, here⟩
  rw [← lineBreakAt_eq whole at_]
  unfold lineEnd at below
  cases found : Source.seek s.limit (s.lineBreakAt s.limit) (s.limit - p) p with
  | none => exact Source.seek_none (Nat.le_refl _) found q from_ (charAt?_eq_some.mp at_).1
  | some e =>
    rw [found] at below
    exact Source.seek_first found q from_ below

theorem marks_scanLineComment (h : s.peek 0 = some '/') (h' : s.peek 1 = some '/')
    (hs : s.Stands) : Marks s s.scanLineComment := by
  have room : s.stop + 2 ≤ s.limit := peek_lt h'
  have le := (lineEnd_spec hs room).1
  refine .plain rfl ?_
  show ¬ s.source.Breaks s.stop (s.lineEnd (s.stop + 2))
  rw [Source.breaks_append (Nat.le_add_right _ 2) le, not_or]
  exact ⟨Source.not_breaks_pair (charAt?_eq_some.mp h).2 (charAt?_eq_some.mp h').2 ⟨rfl, rfl⟩,
    not_breaks_lineEnd whole _⟩

/-- A block comment holds a line break just if its body does. -/
theorem breaks_blockComment (h : s.peek 0 = some '/') (h' : s.peek 1 = some '*') :
    s.source.Breaks s.stop (((s.commentEnd? (s.stop + 2)).map (· + 2)).getD s.limit) ↔
      s.hasLineBreak (s.stop + 2) ((s.commentEnd? (s.stop + 2)).getD s.limit) = true := by
  have room : s.stop + 2 ≤ s.limit := peek_lt h'
  have opening : ¬ s.source.Breaks s.stop (s.stop + 2) :=
    Source.not_breaks_pair (charAt?_eq_some.mp h).2 (charAt?_eq_some.mp h').2 ⟨rfl, rfl⟩
  cases found : s.commentEnd? (s.stop + 2) with
  | none =>
    show s.source.Breaks s.stop s.limit ↔ s.hasLineBreak (s.stop + 2) s.limit = true
    rw [hasLineBreak_iff (whole ▸ Source.isBoundary_size),
      Source.breaks_append (Nat.le_add_right _ 2) room]
    exact or_iff_right opening
  | some p =>
    obtain ⟨le, _, closes⟩ := Source.seek_spec found
    obtain ⟨star, slash⟩ := Bool.and_eq_true_iff.mp closes
    have star := charAt?_eq_some.mp (eq_of_beq star)
    have slash := charAt?_eq_some.mp (eq_of_beq slash)
    have closing : ¬ s.source.Breaks p (p + 2) :=
      Source.not_breaks_pair star.2 slash.2 ⟨rfl, rfl⟩
    show s.source.Breaks s.stop (p + 2) ↔ s.hasLineBreak (s.stop + 2) p = true
    rw [hasLineBreak_iff (Source.isBoundary_of_charAt? star.2),
      Source.breaks_append (Nat.le_add_right _ 2) (Nat.le_trans le (Nat.le_add_right p 2)),
      Source.breaks_append le (Nat.le_add_right p 2)]
    exact (or_iff_right opening).trans (or_iff_left closing)

theorem marks_scanBlockComment (h : s.peek 0 = some '/') (h' : s.peek 1 = some '*') :
    Marks s s.scanBlockComment := by
  have inside := breaks_blockComment whole h h'
  have closes := closes_scanBlockComment s
  generalize s.scanBlockComment = t at closes ⊢
  cases closes with
  | closed doc found =>
    rw [found] at inside
    exact .joined rfl inside
  | unclosed doc none =>
    rw [none] at inside
    exact .joined rfl inside

end Lines

/-- A marker that closes another lies behind it, and a line break comes between. -/
theorem breaks_between_markers {q : Nat} (opens : s.isConflictMarker s.stop) (le : s.stop ≤ q)
    (other : s.charAt? q ≠ s.charAt? s.stop) (closes : s.isConflictMarker q) :
    s.source.Breaks s.stop q := by
  have far : s.stop + 7 ≤ q := by
    by_cases near : q < s.stop + 7
    · have same := charAt?_of_isConflictMarker opens (q - s.stop) (by omega)
      rw [Nat.add_sub_cancel' le] at same
      exact absurd same other
    · omega
  have follows : s.followsLineBreak q := by
    simp only [isConflictMarker, Bool.and_eq_true] at closes
    exact closes.1.1.1
  simp only [followsLineBreak, Bool.or_eq_true, Bool.and_eq_true, beq_iff_eq] at follows
  rcases follows with ((first | feed) | feed) | ⟨_, line⟩
  · omega
  · exact Source.breaks_of_charAt? (charAt?_eq_some.mp feed).2 rfl (by omega) (by omega)
  · exact Source.breaks_of_charAt? (charAt?_eq_some.mp feed).2 rfl (by omega) (by omega)
  · simp only [lineBreakAt] at line
    split at line
    · next c here =>
      exact Source.breaks_of_charAt? here (Bool.and_eq_true_iff.mp line).1 (by omega) (by omega)
    · cases line

theorem marks_scanConflictMarker (opens : s.isConflictMarker s.stop) :
    Marks s s.scanConflictMarker.markLineBreak := by
  have noted : s.scanConflictMarker.markLineBreak.flags.precedingLineBreak = true := rfl
  have stop : s.scanConflictMarker.markLineBreak.stop = s.conflictEnd := rfl
  unfold conflictEnd at stop
  dsimp only at stop
  split at stop
  · exact .ahead noted (lineEnd_ends stop rfl rfl)
  · cases found : Source.seek s.limit _ (s.limit - s.stop) s.stop with
    | none =>
      rw [found] at stop
      refine .ahead noted (.inl ?_)
      rw [atEnd, stop]
      exact decide_eq_true (Nat.le_refl s.limit)
    | some q =>
      rw [found] at stop
      obtain ⟨le, _, closes⟩ := Source.seek_spec found
      simp only [Bool.and_eq_true, bne_iff_ne] at closes
      refine .line noted ?_
      rw [stop]
      exact breaks_between_markers opens le closes.1.2 closes.2

/-- Every run of trivia notes the line breaks that it passes. -/
theorem marks_scanTrivia (hs : s.Stands) (some : s.scanTrivia.1 = true) :
    Marks s s.scanTrivia.2 := by
  have tries := tries_scanTrivia s
  generalize s.scanTrivia = r at tries some ⊢
  cases tries with
  | lineBreak c touched here line =>
    refine .of_touched touched (marks_scanLineBreak ?_ line (lineBreak_pos _ c))
    obtain ⟨ok, rfl⟩ := touched.check
    exact here
  | blanks c touched => exact .of_touched touched (marks_scanBlanks _)
  | script => exact .plain rfl (not_breaks_lineEnd hs.whole s.stop)
  | lineComment here next => exact marks_scanLineComment hs.whole here next hs
  | blockComment here next => exact marks_scanBlockComment hs.whole here next
  | marker c here sign marks => exact marks_scanConflictMarker marks
  | solid => cases some
  | ended => cases some

/-- A line break is trivia. -/
theorem scanTrivia_of_facesBreak (faces : s.facesBreak = true) : s.scanTrivia.1 = true := by
  obtain ⟨c, h, line⟩ : ∃ c, s.peek 0 = some c ∧ isLineBreak c := by
    simpa [facesBreak, Option.any_eq_true] using faces
  have tries := tries_scanTrivia s
  generalize s.scanTrivia = r at tries ⊢
  cases tries with
  | solid d _ here solid =>
    obtain rfl := Option.some.inj (h.symm.trans here)
    have space := solid.space
    simp [isSpace, line] at space
  | ended _ none => cases h.symm.trans none
  | _ => rfl

/-- The line breaks noted are those passed since `a`, or a line break is noted ahead of time. -/
def NotesFrom (a : Nat) (u : Scanner) : Prop :=
  (u.flags.precedingLineBreak = true ↔ u.source.Breaks a u.stop) ∨
    u.flags.precedingLineBreak = true ∧ (u.atEnd = true ∨ u.facesBreak = true)

theorem notesFrom_scanTrivia (hs : s.Stands) (le : a ≤ s.stop) (h : NotesFrom a s)
    (more : s.atEnd = false) (some : s.scanTrivia.1 = true) : NotesFrom a s.scanTrivia.2 := by
  obtain ⟨onward, lt, _⟩ := scanTrivia_spec s
  have lt := lt some hs
  have source := onward.source
  rcases marks_scanTrivia hs some with passed | ⟨noted, soon⟩
  · refine .inl ?_
    rw [passed, source, Source.breaks_append le (Nat.le_of_lt lt)]
    rcases h with right | ⟨noted, ended | faces⟩
    · rw [right]
    · rw [more] at ended
      cases ended
    · -- The line break that was noted ahead of time is passed now.
      obtain ⟨c, here, line⟩ : ∃ c, s.peek 0 = .some c ∧ isLineBreak c := by
        simpa [facesBreak, Option.any_eq_true] using faces
      have breaks : s.source.Breaks s.stop s.scanTrivia.2.stop :=
        Source.breaks_of_charAt? (charAt?_eq_some.mp here).2 line (Nat.le_refl _) lt
      exact iff_of_true (.inr breaks) (.inr breaks)
  · exact .inr ⟨noted, soon⟩

/-- A carriage return and the line feed behind it are not parted, so between boundaries of tokens
some terminator ends just if one begins. -/
theorem breaks_iff_terminatorAt {src : Source} (le : a ≤ b) (first : src.isBoundary a)
    (second : src.isBoundary b) (solid : src.charAt? b ≠ some '\n') :
    src.Breaks a b ↔ ∃ q r, src.TerminatorAt q r ∧ a < r ∧ r ≤ b := by
  constructor
  · rintro ⟨c, among, line⟩
    obtain ⟨q, from_, below, here⟩ := Source.mem_chars.mp among
    have positive := c.utf8Size_pos
    by_cases pair : c = '\r' ∧ src.charAt? (q + 1) = some '\n'
    · obtain ⟨rfl, feed⟩ := pair
      have behind : q + 1 ≠ b := by
        rintro rfl
        exact solid feed
      exact ⟨q + 1, q + 2, ⟨'\n', feed, rfl, rfl, fun no => (nomatch no)⟩, by omega, by omega⟩
    · have ends := Source.le_of_isBoundary here below second
      exact ⟨q, q + c.utf8Size, ⟨c, here, line, rfl, fun same next => pair ⟨same, next⟩⟩, by omega,
        ends⟩
  · rintro ⟨q, r, ⟨c, here, line, rfl, _⟩, after, before⟩
    have positive := c.utf8Size_pos
    have from_ : a ≤ q := by
      by_cases inside : q < a
      · have := Source.le_of_isBoundary here inside first
        omega
      · omega
    exact Source.breaks_of_charAt? here line from_ (by omega)

/-- A token has the flags of the trivia before it, and begins behind it. -/
theorem Arrives.noted {v t : Scanner} (h : Arrives v t) (stands : v.Stands) :
    t.flags.noted = v.flags.noted ∧ t.start = v.stop := by
  obtain ⟨ok, token⟩ := h.token
  have still : ¬ (v.check ok).atEnd := by
    have more : (v.check ok).atEnd = false := h.more
    simp [more]
  have reads := reads_scanToken (s := v.check ok) ⟨stands.whole, stands.boundary⟩ still
  rw [token]
  exact ⟨(lexes_scanToken (v.check ok)).1, reads.onward.start.trans h.start⟩

theorem Arrives.calm {v t : Scanner} (h : Arrives v t) : v.facesBreak = false := by
  rw [Bool.eq_false_iff]
  intro faces
  have trivia := scanTrivia_of_facesBreak faces
  rw [h.solid] at trivia
  cases trivia

/-- No token begins with a line feed. -/
theorem Arrives.solid_feed {v t : Scanner} (h : Arrives v t) (stands : v.Stands) :
    v.source.charAt? v.stop ≠ some '\n' := by
  intro feed
  have below : v.stop < v.limit := by
    rw [stands.whole]
    exact Source.charAt?_lt feed
  have next : v.peek 0 = some '\n' := charAt?_eq_some.mpr ⟨below, feed⟩
  have calm := h.calm
  simp [facesBreak, next, isLineBreak] at calm

/-- Where trivia is passed over, a token notes a line break before it just if a line terminator
lies in the trivia before it, that is, if the token begins on a later line than its trivia. -/
theorem scan_notes_lineBreak (s : Scanner) (stands : s.Stands) (skips : s.keepsTrivia = false)
    (more : s.scan.kind ≠ .endOfFileToken) :
    let t := s.scan
    let lines := Lines.ofSource s.source
    (t.flags.precedingLineBreak = true ↔ lines.lineOf t.fullStart < lines.lineOf t.start) ∧
    (t.flags.precedingLineBreak = true ↔
      ∃ c ∈ s.source.chars t.fullStart t.start, isLineBreak c) := by
  obtain ⟨v, passing, notes, arrives⟩ := arrives_scan (Q := fun u => NotesFrom s.stop u)
    (fun _ h => h)
    (fun u passing h goes some =>
      notesFrom_scanTrivia (passing.stands stands) (passing.forward stands).1 h goes some)
    (.inl (by simp [begin, Source.Breaks, Source.chars_self])) (isTrivia_scan stands skips) more
  obtain ⟨noted, start⟩ := arrives.noted (passing.stands stands)
  have flag : s.scan.flags.precedingLineBreak = v.flags.precedingLineBreak :=
    congrArg Prod.fst noted
  have solid : s.source.charAt? v.stop ≠ some '\n' := by
    rw [← passing.source]
    exact arrives.solid_feed (passing.stands stands)
  have passed : v.flags.precedingLineBreak = true ↔ s.source.Breaks s.stop v.stop := by
    rcases notes with right | ⟨_, ended | faces⟩
    · rw [right, passing.source]
    · rw [arrives.more] at ended
      cases ended
    · rw [arrives.calm] at faces
      cases faces
  obtain ⟨le, boundary⟩ := passing.forward stands
  dsimp only
  rw [(follows_scan stands).fullStart, start, flag, Lines.lineOf_lt_iff,
    ← breaks_iff_terminatorAt le stands.boundary boundary solid]
  exact ⟨passed, passed⟩

/-- The line break is in a comment, and the token begins on the second line. -/
theorem scan_notes_lineBreak_comment :
    let s := ofSource (.ofString "/*\r\n*/ b") false
    let lines := Lines.ofSource s.source
    (s.scan.kind = .identifier ∧ s.scan.fullStart = 0 ∧ s.scan.start = 7) ∧
      s.scan.flags.precedingLineBreak = true ∧ lines.lineOf 0 < lines.lineOf 7 := by
  intro s lines
  have kind : s.scan.kind = .identifier := by decide +kernel
  have full : s.scan.fullStart = 0 := by decide +kernel
  have start : s.scan.start = 7 := by decide +kernel
  have noted : s.scan.flags.precedingLineBreak = true := by decide +kernel
  obtain ⟨later, _⟩ := scan_notes_lineBreak s (stands_ofSource _ _) rfl (by rw [kind]; decide)
  rw [full, start] at later
  exact ⟨⟨kind, full, start⟩, noted, later.mp noted⟩

end Scanner
end ScriptGrammar
