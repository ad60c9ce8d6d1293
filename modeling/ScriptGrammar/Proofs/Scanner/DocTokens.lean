import ScriptGrammar.Proofs.Scanner.Searches
import ScriptGrammar.Scanner.Doc

/-!
# Tokens of documentation comments

What comes next in a documentation comment is told by the characters alone: a line break, all the
blanks up to something else, an `@`, a star, a whole word, or a single character of no kind.
-/

namespace ScriptGrammar

/-- A character that goes on with a word of a documentation comment. -/
def isDocPart (c : Char) : Bool := isIdentifierPart c || c == '-'

/-- A character that no word, line break or run of blanks of a documentation comment begins with. -/
def isDocOther (c : Char) : Bool :=
  !(isIdentifierStart c || isBlank c || ['\n', '\r', '@', '*'].contains c)

/-- A documentation comment goes on with a token of kind `k`, which is `text`, and then `rest`. -/
inductive DocText : (k : Kind) → (text rest : List Char) → Prop
  | ending : DocText .endOfFileToken [] []
  | feed {rest : List Char} : DocText .newLineTrivia ['\n'] rest
  | both {rest : List Char} : DocText .newLineTrivia ['\r', '\n'] rest
  | ret {rest : List Char} (ends : rest.head? ≠ some '\n') : DocText .newLineTrivia ['\r'] rest
  | blanks {c : Char} {text rest : List Char} (blank : ∀ d ∈ c :: text, isBlank d)
      (ends : ∀ d, rest.head? = some d → isBlank d = false) :
      DocText .whitespaceTrivia (c :: text) rest
  | sign {rest : List Char} : DocText .atToken ['@'] rest
  | star {rest : List Char} : DocText .asteriskToken ['*'] rest
  | word {c : Char} {text rest : List Char} (start : isIdentifierStart c)
      (parts : ∀ d ∈ c :: text, isDocPart d)
      (ends : ∀ d, rest.head? = some d → isDocPart d = false) :
      DocText (Kind.ofWord (String.ofList (c :: text))) (c :: text) rest
  | other {c : Char} {rest : List Char} (plain : isDocOther c) : DocText .unknown [c] rest

namespace Source

variable {src : Source} {limit p : Nat} {cs : List Char}

/-- What stands at an offset is what is left to read from there, up to what is left behind it. -/
theorem Holds.chars_limit (h : src.Holds limit p cs) :
    src.chars p limit = cs ++ src.chars (p + (layout cs).length) limit := by
  induction cs generalizing p with
  | nil => rfl
  | cons c cs ih =>
    rw [chars_cons h.1, length_layout_cons, ← Nat.add_assoc, ih h.2, List.cons_append]

theorem head?_chars (begins : src.isBoundary p) :
    (src.chars p limit).head? = src.charBefore? limit p := by
  cases here : src.charBefore? limit p with
  | none =>
    rw [chars_end begins here]
    rfl
  | some c =>
    rw [chars_cons here]
    rfl

end Source

namespace Scanner

variable {s t : Scanner} {cs : List Char} {c : Char}

/-- What is left to read. -/
def ahead (s : Scanner) : List Char := s.source.chars s.stop s.limit

/-- From `s` to `t` the next token of a documentation comment is read, which is `cs`. -/
structure DocStep (s t : Scanner) (cs : List Char) : Prop extends Keeps s t where
  pending : t.pending = s.pending
  start : t.start = s.stop
  stop : t.stop = s.stop + (layout cs).length
  holds : s.source.Holds s.limit s.stop cs
  kind : DocText t.kind cs t.ahead

namespace DocStep

theorem ahead (h : DocStep s t cs) : s.ahead = cs ++ t.ahead := by
  rw [Scanner.ahead, Scanner.ahead, h.source, h.limit, h.stop]
  exact h.holds.chars_limit

theorem text (h : DocStep s t cs) : t.text = String.ofList cs := by
  rw [Scanner.text, Source.slice, h.source, h.start, h.stop, h.holds.chars]

theorem boundary (h : DocStep s t cs) (begins : s.source.isBoundary s.stop) :
    t.source.isBoundary t.stop := by
  rw [h.source, h.stop]
  exact h.holds.isBoundary_end begins

end DocStep

/-- A run of characters that is not empty, with what is left behind it. -/
theorem exists_run {f : Char → Bool} (here : s.peek 0 = some c) (kind : f c) :
    ∃ more, (∀ d ∈ c :: more, f d) ∧ s.source.Holds s.limit s.stop (c :: more) ∧
      s.source.skipWhile s.limit f s.stop = s.stop + (layout (c :: more)).length ∧
      ∀ d, (s.source.chars (s.source.skipWhile s.limit f s.stop) s.limit).head? = some d →
        f d = false := by
  obtain ⟨run, all, holds, stop, ends⟩ := s.source.holds_skipWhile s.limit f s.stop
  have begins : s.source.isBoundary s.stop :=
    Source.isBoundary_of_charAt? (charAt?_eq_some.mp here).2
  have behind := holds.isBoundary_end begins
  cases run with
  | nil =>
    have none : f c = false := ends c here
    rw [kind] at none
    cases none
  | cons d more =>
    obtain rfl : c = d := Option.some.inj (here.symm.trans holds.1)
    rw [← stop] at ends behind
    refine ⟨more, all, holds, stop, fun d head => ends d ?_⟩
    rwa [← Source.head?_chars behind]

theorem DocStep.after {b : Scanner} (h : DocStep b t cs) (keeps : Keeps s b)
    (pending : b.pending = s.pending) (stop : b.stop = s.stop) : DocStep s t cs where
  toKeeps := keeps.trans h.toKeeps
  pending := h.pending.trans pending
  start := h.start.trans stop
  stop := by rw [h.stop, stop]
  holds := by
    rw [← keeps.source, ← keeps.limit, ← stop]
    exact h.holds
  kind := h.kind

theorem docStep_scanDocWord (here : s.peek 0 = some c) (start : isIdentifierStart c)
    (begun : s.start = s.stop) : ∃ cs, DocStep s s.scanDocWord cs := by
  have part : isDocPart c := by simp [isDocPart, isIdentifierPart_of_isIdentifierStart start]
  obtain ⟨more, all, holds, stop, behind⟩ := exists_run here part
  have begins : s.source.isBoundary s.stop :=
    Source.isBoundary_of_charAt? (charAt?_eq_some.mp here).2
  have cut : s.source.slice s.start (s.source.skipWhile s.limit isDocPart s.stop) =
      String.ofList (c :: more) := by
    rw [begun, stop]
    exact congrArg String.ofList holds.chars
  have whole : s.source.sliceable s.start (s.source.skipWhile s.limit isDocPart s.stop) := by
    rw [begun, stop]
    exact holds.sliceable begins
  refine ⟨c :: more, ⟨rfl, rfl, rfl, ?_⟩, rfl, begun, stop, holds, ?_⟩
  · show (s.torn || !s.source.sliceable s.start (s.source.skipWhile s.limit isDocPart s.stop)) = _
    rw [whole, Bool.not_true, Bool.or_false]
  · show DocText (Kind.ofWord (s.source.slice s.start
      (s.source.skipWhile s.limit isDocPart s.stop))) _ _
    rw [cut]
    exact .word start all behind

theorem docStep_scanDocToken (begins : s.source.isBoundary s.stop)
    (ends : s.source.isBoundary s.limit) : ∃ cs, DocStep s s.scanDocToken cs := by
  have touched : (s.opened.touch s.stop).torn = s.torn := by
    simp [touch, check, begins, ends, opened, begin]
  simp only [scanDocToken]
  split
  · next none =>
    have none : s.peek 0 = .none := none
    have kind : DocText .endOfFileToken [] s.ahead := by
      rw [ahead, Source.chars_end begins none]
      exact .ending
    exact ⟨[], ⟨rfl, rfl, rfl, touched⟩, rfl, rfl, rfl, trivial, kind⟩
  · next c here =>
    have here : s.peek 0 = some c := here
    split
    · next feed =>
      obtain rfl : c = '\n' := by simpa using feed
      exact ⟨['\n'], ⟨rfl, rfl, rfl, touched⟩, rfl, rfl, rfl, ⟨here, trivial⟩, .feed⟩
    split
    · next feed =>
      obtain rfl : c = '\r' := by simpa using feed
      split
      · next line =>
        have line : s.charAt? (s.stop + 1) = some '\n' := beq_iff_eq.mp line
        exact ⟨['\r', '\n'], ⟨rfl, rfl, rfl, touched⟩, rfl, rfl, rfl, ⟨here, line, trivial⟩, .both⟩
      · next other =>
        refine ⟨['\r'], ⟨rfl, rfl, rfl, touched⟩, rfl, rfl, rfl, ⟨here, trivial⟩,
          .ret fun feed => ?_⟩
        have behind : s.source.isBoundary (s.stop + 1) := peek_boundary here
        exact other (beq_iff_eq.mpr ((Source.head?_chars behind).symm.trans feed))
    split
    · next blank =>
      obtain ⟨more, all, holds, stop, behind⟩ := exists_run here blank
      have again : ((s.opened.touch s.stop).touch s.stop).torn = s.torn := by
        simp [touch, check, begins, ends, opened, begin]
      exact ⟨c :: more, ⟨rfl, rfl, rfl, again⟩, rfl, rfl, stop, holds, .blanks all behind⟩
    split
    · next at_ =>
      obtain rfl : c = '@' := by simpa using at_
      exact ⟨['@'], ⟨rfl, rfl, rfl, touched⟩, rfl, rfl, rfl, ⟨here, trivial⟩, .sign⟩
    split
    · next star =>
      obtain rfl : c = '*' := by simpa using star
      exact ⟨['*'], ⟨rfl, rfl, rfl, touched⟩, rfl, rfl, rfl, ⟨here, trivial⟩, .star⟩
    split
    · next start =>
      obtain ⟨cs, step⟩ := docStep_scanDocWord (s := s.opened.touch s.stop) here start rfl
      exact ⟨cs, step.after ⟨rfl, rfl, rfl, touched⟩ rfl rfl⟩
    · next feed ret blank at_ star start =>
      have plain : isDocOther c := by simp_all [isDocOther]
      have one : s.stop + c.utf8Size = s.stop + (layout [c]).length := by
        rw [length_layout_cons]
        rfl
      exact ⟨[c], ⟨rfl, rfl, rfl, touched⟩, rfl, rfl, one, ⟨here, trivial⟩, .other plain⟩

end Scanner
end ScriptGrammar
