import ScriptGrammar.Proofs.Scanner.Pieces
import ScriptGrammar.Proofs.Scanner.Searches
import ScriptGrammar.Proofs.Scanner.Signs

/-!
# Regular expressions

`PatternText` is the grammar of what stands between the slashes of a regular expression. The
scanner looks for the closing slash with two flags, for an escape and for a class. `Residue` says
what the grammar still allows where the flags are set, so one step of the search is one character
of the grammar, and the search finds the slash just if some text of the grammar is closed there.
-/

namespace ScriptGrammar

/-- The inside of a class: escaped characters, and others but a closing bracket. -/
inductive ClassText : List Char → Prop
  | nil : ClassText []
  | escaped {c : Char} {cs : List Char} (line : isLineBreak c = false) (rest : ClassText cs) :
      ClassText ('\x5c' :: c :: cs)
  | plain {c : Char} {cs : List Char} (line : isLineBreak c = false)
      (other : c ≠ ']' ∧ c ≠ '\x5c') (rest : ClassText cs) : ClassText (c :: cs)

/-- What may stand between the slashes: escaped characters, classes, and other characters. -/
inductive PatternText : List Char → Prop
  | nil : PatternText []
  | escaped {c : Char} {cs : List Char} (line : isLineBreak c = false) (rest : PatternText cs) :
      PatternText ('\x5c' :: c :: cs)
  | «class» {inside cs : List Char} (h : ClassText inside) (rest : PatternText cs) :
      PatternText ('[' :: (inside ++ ']' :: cs))
  | plain {c : Char} {cs : List Char} (line : isLineBreak c = false)
      (other : c ≠ '/' ∧ c ≠ '[' ∧ c ≠ '\x5c') (rest : PatternText cs) : PatternText (c :: cs)

/-- What the grammar allows up to the closing slash, from inside a class on. -/
def ClassResidue (cs : List Char) : Prop :=
  ∃ inside rest, ClassText inside ∧ PatternText rest ∧ cs = inside ++ ']' :: rest

/-- What the grammar allows up to the closing slash, where these flags are set. -/
def Residue : (escaped inClass : Bool) → List Char → Prop
  | false, false, cs => PatternText cs
  | false, true, cs => ClassResidue cs
  | true, false, cs => ∃ c rest, isLineBreak c = false ∧ PatternText rest ∧ cs = c :: rest
  | true, true, cs => ∃ c rest, isLineBreak c = false ∧ ClassResidue rest ∧ cs = c :: rest

/-- The flags behind a character that does not close the pattern. -/
def patternFlags (escaped inClass : Bool) (c : Char) : Bool × Bool :=
  if escaped then (false, inClass)
  else if c == '[' then (false, true)
  else if c == '\x5c' then (true, inClass)
  else if c == ']' then (false, false)
  else (false, inClass)

@[simp] theorem residue_plain : Residue false false = PatternText := rfl

@[simp] theorem residue_class : Residue false true = ClassResidue := rfl

section Grammar

variable {escaped inClass : Bool} {c : Char} {cs : List Char}

theorem patternText_cons : PatternText (c :: cs) ↔
    isLineBreak c = false ∧ c ≠ '/' ∧
      Residue (patternFlags false false c).1 (patternFlags false false c).2 cs := by
  constructor
  · rintro (_ | ⟨line, rest⟩ | ⟨inside, rest⟩ | ⟨line, other, rest⟩)
    · exact ⟨rfl, by decide, (⟨_, _, line, rest, rfl⟩ : Residue true false _)⟩
    · exact ⟨rfl, by decide, (⟨_, _, inside, rest, rfl⟩ : ClassResidue _)⟩
    · refine ⟨line, other.1, ?_⟩
      by_cases closing : c = ']'
      · simpa [patternFlags, closing] using rest
      · simpa [patternFlags, closing, other] using rest
  · rintro ⟨line, slash, residue⟩
    by_cases opening : c = '['
    · subst opening
      obtain ⟨inside, rest, within, text, rfl⟩ := residue
      exact .class within text
    by_cases escape : c = '\x5c'
    · subst escape
      obtain ⟨d, rest, line, text, rfl⟩ := residue
      exact .escaped line text
    refine .plain line ⟨slash, opening, escape⟩ ?_
    by_cases closing : c = ']'
    · simpa [patternFlags, closing] using residue
    · simpa [patternFlags, closing, opening, escape] using residue

theorem classResidue_cons : ClassResidue (c :: cs) ↔ isLineBreak c = false ∧
    Residue (patternFlags false true c).1 (patternFlags false true c).2 cs := by
  constructor
  · rintro ⟨inside, rest, _ | ⟨line, within⟩ | ⟨line, other, within⟩, text, same⟩
    · obtain ⟨rfl, rfl⟩ := List.cons.inj same
      exact ⟨rfl, text⟩
    · obtain ⟨rfl, rfl⟩ := List.cons.inj same
      exact ⟨rfl, _, _, line, ⟨_, _, within, text, rfl⟩, rfl⟩
    · obtain ⟨rfl, rfl⟩ := List.cons.inj same
      refine ⟨line, ?_⟩
      have behind : ClassResidue _ := ⟨_, _, within, text, rfl⟩
      by_cases opening : c = '['
      · simpa [patternFlags, opening] using behind
      · simpa [patternFlags, opening, other] using behind
  · rintro ⟨line, residue⟩
    by_cases closing : c = ']'
    · subst closing
      exact ⟨[], cs, .nil, residue, rfl⟩
    by_cases escape : c = '\x5c'
    · subst escape
      obtain ⟨d, rest, line, ⟨inside, behind, within, text, rfl⟩, rfl⟩ := residue
      exact ⟨_, behind, .escaped line within, text, rfl⟩
    have behind : ClassResidue cs := by
      by_cases opening : c = '['
      · simpa [patternFlags, opening] using residue
      · simpa [patternFlags, opening, closing, escape] using residue
    obtain ⟨inside, rest, within, text, rfl⟩ := behind
    exact ⟨c :: inside, rest, .plain line ⟨closing, escape⟩ within, text, rfl⟩

/-- One character of the grammar: no line break, not the closing slash, and the rest as the flags
behind it allow. -/
theorem residue_cons : Residue escaped inClass (c :: cs) ↔
    isLineBreak c = false ∧ (escaped = false → inClass = false → c ≠ '/') ∧
      Residue (patternFlags escaped inClass c).1 (patternFlags escaped inClass c).2 cs := by
  cases escaped with
  | false =>
    cases inClass with
    | false => simpa using patternText_cons
    | true => simpa using classResidue_cons
  | true =>
    cases inClass with
    | false => simp [Residue, patternFlags]
    | true => simp [Residue, patternFlags]

/-- Only where no flag is set may the pattern be closed. -/
theorem residue_nil : Residue escaped inClass [] ↔ escaped = false ∧ inClass = false := by
  cases escaped with
  | false =>
    cases inClass with
    | false => simpa [Residue] using PatternText.nil
    | true => simp [Residue, ClassResidue]
  | true => cases inClass <;> simp [Residue]

end Grammar

namespace Scanner

variable {s t : Scanner} {c : Char} {body text : List Char} {fuel p : Nat}
  {escaped inClass : Bool}

theorem patternEnd_succ (fuel p : Nat) (escaped inClass : Bool) :
    s.patternEnd (fuel + 1) p escaped inClass =
      if s.lineBreakAt s.limit p then (p, false)
      else match s.charAt? p with
        | none => (p, false)
        | some c =>
          if !escaped && !inClass && c == '/' then (p + c.utf8Size, true)
          else s.patternEnd fuel (p + c.utf8Size) (patternFlags escaped inClass c).1
            (patternFlags escaped inClass c).2 := by
  rw [patternEnd]
  split
  · rfl
  · cases s.charAt? p with
    | none => rfl
    | some c =>
      cases escaped with
      | true => rfl
      | false =>
        have swap : (c == '/' && !inClass) = (!false && !inClass && c == '/') := by
          rw [Bool.not_false, Bool.true_and, Bool.and_comm]
        simp only [swap, patternFlags, Bool.false_eq_true, if_false]
        cases opening : c == '[' with
        | true => rfl
        | false =>
          cases escape : c == '\x5c' with
          | true => rfl
          | false => cases closing : c == ']' <;> rfl

/-- Where a text of the grammar is closed, the search ends behind its slash. -/
theorem patternEnd_eq (whole : s.limit = s.source.size) (residue : Residue escaped inClass body)
    (holds : s.source.Holds s.limit p (body ++ ['/'])) (room : s.limit - p < fuel) :
    s.patternEnd fuel p escaped inClass = (p + (layout body).length + 1, true) := by
  induction fuel generalizing p body escaped inClass with
  | zero => omega
  | succ fuel ih =>
    rw [patternEnd_succ]
    cases body with
    | nil =>
      obtain ⟨rfl, rfl⟩ := residue_nil.mp residue
      have here : s.charAt? p = some '/' := holds.1
      rw [lineBreakAt_eq whole here, here]
      rfl
    | cons c cs =>
      obtain ⟨line, slash, rest⟩ := residue_cons.mp residue
      have here : s.charAt? p = some c := holds.1
      have below := (charAt?_eq_some.mp here).1
      have positive := c.utf8Size_pos
      have goes : (!escaped && !inClass && c == '/') = false := by
        cases escaped <;> cases inClass <;> simp_all
      rw [lineBreakAt_eq whole here, here, line]
      dsimp only
      rw [goes, length_layout_cons, ← Nat.add_assoc]
      exact ih rest holds.2 (by omega)

/-- What the search finds is a text of the grammar, closed. -/
theorem residue_of_patternEnd (whole : s.limit = s.source.size)
    (closed : (s.patternEnd fuel p escaped inClass).2 = true) :
    ∃ body, Residue escaped inClass body ∧ s.source.Holds s.limit p (body ++ ['/']) := by
  induction fuel generalizing p escaped inClass with
  | zero => cases closed
  | succ fuel ih =>
    rw [patternEnd_succ] at closed
    cases here : s.charAt? p with
    | none => simp [here] at closed
    | some c =>
      rw [lineBreakAt_eq whole here, here] at closed
      cases line : isLineBreak c with
      | true => simp [line] at closed
      | false =>
        cases slash : !escaped && !inClass && c == '/' with
        | true =>
          simp only [Bool.and_eq_true, Bool.not_eq_true', beq_iff_eq] at slash
          obtain ⟨⟨rfl, rfl⟩, rfl⟩ := slash
          exact ⟨[], .nil, here, trivial⟩
        | false =>
          simp only [line, slash] at closed
          obtain ⟨body, residue, holds⟩ := ih closed
          refine ⟨c :: body, residue_cons.mpr ⟨line, ?_, residue⟩, here, holds⟩
          rintro rfl rfl rfl
          cases slash

/-- A search that finds nothing ends at a line break or at the end of the text. -/
theorem patternEnd_open (whole : s.limit = s.source.size) (room : s.limit - p < fuel)
    (unclosed : (s.patternEnd fuel p escaped inClass).2 = false) :
    ∃ text, s.source.Holds s.limit p text ∧ (∀ c ∈ text, isLineBreak c = false) ∧
      (s.patternEnd fuel p escaped inClass).1 = p + (layout text).length ∧
      ∀ c, s.charAt? (p + (layout text).length) = some c → isLineBreak c := by
  induction fuel generalizing p escaped inClass with
  | zero => omega
  | succ fuel ih =>
    rw [patternEnd_succ] at unclosed ⊢
    cases here : s.charAt? p with
    | none => exact ⟨[], trivial, by simp, by simp [layout], by simp [here, layout]⟩
    | some c =>
      rw [lineBreakAt_eq whole here, here] at unclosed
      rw [lineBreakAt_eq whole here]
      have below := (charAt?_eq_some.mp here).1
      have positive := c.utf8Size_pos
      cases line : isLineBreak c with
      | true => exact ⟨[], trivial, by simp, by simp [layout], by simp [here, line, layout]⟩
      | false =>
        cases slash : !escaped && !inClass && c == '/' with
        | true => simp [line, slash] at unclosed
        | false =>
          simp only [line, slash] at unclosed ⊢
          obtain ⟨text, holds, lines, stop, ends⟩ := ih (by omega) unclosed
          refine ⟨c :: text, ⟨here, holds⟩, ?_, ?_, ?_⟩
          · exact List.forall_mem_cons.mpr ⟨line, lines⟩
          · rw [length_layout_cons, ← Nat.add_assoc]
            exact stop
          · rw [length_layout_cons, ← Nat.add_assoc]
            exact ends

/-- The token is this text. -/
structure IsText (s : Scanner) (text : List Char) : Prop where
  holds : s.source.Holds s.limit s.start text
  stop : s.stop = s.start + (layout text).length

/-- From the start of the token on stands a pattern with this between its slashes. -/
def Encloses (s : Scanner) (body : List Char) : Prop :=
  PatternText body ∧ s.source.Holds s.limit s.start ('/' :: (body ++ ['/']))

/-- The scanner at the first character of a pattern, and what is looked up from there. -/
def patternFound (s : Scanner) : Nat × Bool :=
  s.patternEnd (s.limit - (s.start + 1) + 1) (s.start + 1) false false

theorem rescanSlash_eq (slash : s.kind ∈ [.slashToken, .slashEqualsToken]) :
    s.rescanSlash.toToken = {
      kind := .regularExpressionLiteral
      fullStart := s.fullStart
      start := s.start
      stop := s.source.skipWhile s.limit isIdentifierPart s.patternFound.1
      value := s.source.slice s.start
        (s.source.skipWhile s.limit isIdentifierPart s.patternFound.1)
      flags := { s.flags with
        unterminated := s.flags.unterminated || !s.patternFound.2 } } ∧
    s.rescanSlash.source = s.source ∧ s.rescanSlash.limit = s.limit ∧
    s.rescanSlash.pending = if s.patternFound.2 then s.pending
      else s.pending.push
        ⟨⟨s.start, s.patternFound.1⟩, .unterminatedRegularExpression, []⟩ := by
  have reads : ¬ (s.kind != .slashToken && s.kind != .slashEqualsToken) = true := by
    simp only [List.mem_cons, List.not_mem_nil, or_false] at slash
    rcases slash with kind | kind <;> rw [kind] <;> decide
  simp only [rescanSlash, if_neg reads]
  rw [← patternFound]
  cases s.patternFound.2 with
  | true =>
    refine ⟨?_, rfl, rfl, rfl⟩
    simp [setValue, cut, check, touch]
  | false =>
    refine ⟨?_, rfl, rfl, rfl⟩
    simp [setValue, cut, check, touch, report]

/-- A scan finds a slash with no token unterminated before it. -/
theorem slash_scan (t : Scanner) (slash : t.scan.kind ∈ [.slashToken, .slashEqualsToken]) :
    t.scan.charAt? t.scan.start = some '/' ∧ t.scan.flags.unterminated = false := by
  have sign : t.scan.kind.isPunctuation := by
    simp only [List.mem_cons, List.not_mem_nil, or_false] at slash
    rcases slash with kind | kind <;> rw [kind] <;> rfl
  -- Only a comment that goes on to the end of the text leaves its mark on a later token.
  obtain ⟨v, ok, cs, _, clean, arrives, signs⟩ := signs_scan
    (Q := fun u => u.flags.apart = u.flags ∨ u.atEnd) (fun _ => id)
    (fun u _ clean more _ => apart_scanTrivia (clean.resolve_right (by simp [more]))) (.inl rfl)
    sign
  have clean := clean.resolve_right (by simp [arrives.more])
  have first : ∀ e ∈ Kind.punctuators, e.1 ∈ [.slashToken, .slashEqualsToken] →
      e.2.toList.head? = some '/' := by decide +kernel
  have head := first _ signs.listed slash
  rw [String.toList_ofList] at head
  have token := signs.token
  cases cs with
  | nil => cases head
  | cons c cs =>
    obtain rfl : c = '/' := Option.some.inj head
    have here : v.charAt? v.stop = some '/' := signs.meets.1
    refine ⟨?_, ?_⟩
    · rw [(signs.text arrives.start).1, token]
      exact here
    · have flags : t.scan.flags = v.flags := by
        rw [token]
        rfl
      rw [flags, ← clean]
      rfl

section Found

variable (whole : s.limit = s.source.size)

include whole

/-- What is enclosed is found, up to its closing slash. -/
theorem Encloses.found (h : s.Encloses body) :
    s.patternFound = (s.start + 1 + (layout body).length + 1, true) :=
  patternEnd_eq whole (residue_plain ▸ h.1) h.2.2 (Nat.lt_succ_self _)

/-- What is found is enclosed. -/
theorem exists_encloses (here : s.charAt? s.start = some '/') (found : s.patternFound.2 = true) :
    ∃ body, s.Encloses body := by
  obtain ⟨body, text, holds⟩ := residue_of_patternEnd whole found
  exact ⟨body, text, here, holds⟩

/-- A slash closes one text only. -/
theorem Encloses.eq {other : List Char} (h : s.Encloses body) (k : s.Encloses other) :
    body = other := by
  have same := congrArg Prod.fst ((h.found whole).symm.trans (k.found whole))
  have length : (layout (body ++ ['/'])).length = (layout (other ++ ['/'])).length := by
    rw [length_layout_append, length_layout_append]
    dsimp only at same
    omega
  have chars := h.2.2.chars
  rw [length, k.2.2.chars] at chars
  exact (List.append_cancel_right chars).symm

end Found

/-- No name goes on with a line break. -/
theorem not_isIdentifierPart_of_isLineBreak (line : isLineBreak c) :
    isIdentifierPart c = false := by
  simp only [isLineBreak, Bool.or_eq_true, beq_iff_eq] at line
  rcases line with ((rfl | rfl) | rfl) | rfl <;> decide +kernel

section Slash

variable (whole : s.limit = s.source.size) (here : s.charAt? s.start = some '/')
  (slash : s.kind ∈ [.slashToken, .slashEqualsToken])

include whole here slash

/-- A pattern that is closed is taken together with the name behind it. -/
theorem rescanSlash_closed (found : s.patternFound.2 = true) : ∃ body name, s.Encloses body ∧
    (∀ other, s.Encloses other → body.length ≤ other.length) ∧
    s.rescanSlash.IsText ('/' :: (body ++ '/' :: name)) ∧
    (∀ c ∈ name, isIdentifierPart c) ∧
    (∀ c, s.rescanSlash.charAt? s.rescanSlash.stop = some c → isIdentifierPart c = false) ∧
    s.rescanSlash.pending = s.pending := by
  obtain ⟨token, source, limit, pending⟩ := rescanSlash_eq slash
  obtain ⟨body, encloses⟩ := exists_encloses whole here found
  obtain ⟨name, parts, holds, ends, other⟩ :=
    s.source.holds_skipWhile s.limit isIdentifierPart s.patternFound.1
  have length : s.patternFound.1 = s.start + (layout ('/' :: (body ++ ['/']))).length := by
    rw [encloses.found whole, length_layout_cons, length_layout_append]
    show s.start + 1 + _ + 1 = s.start + (1 + (_ + 1))
    omega
  have stop : s.rescanSlash.stop = s.patternFound.1 + (layout name).length := by rw [token, ← ends]
  have text : '/' :: (body ++ '/' :: name) = '/' :: (body ++ ['/']) ++ name := by simp
  rw [length] at holds stop other
  refine ⟨body, name, encloses, fun other k => ?_, ⟨?_, ?_⟩, parts, fun c next => ?_, ?_⟩
  · exact Nat.le_of_eq (congrArg List.length (encloses.eq whole k))
  · rw [source, limit, token, text]
    exact Source.holds_append.mpr ⟨encloses.2, holds⟩
  · rw [stop, text, length_layout_append, Nat.add_assoc, token]
  · rw [charAt?, source, limit, stop] at next
    exact other c next
  · rw [pending, found]
    rfl

/-- A pattern that is not closed is taken to the end of its line. -/
theorem rescanSlash_open (found : s.patternFound.2 = false) : ∃ text,
    s.rescanSlash.IsText text ∧ (∀ c ∈ text, isLineBreak c = false) ∧
    (s.rescanSlash.stop = s.source.size ∨
      ∃ c, s.rescanSlash.charAt? s.rescanSlash.stop = some c ∧ isLineBreak c) ∧
    s.rescanSlash.pending = s.pending.push
      ⟨⟨s.start, s.rescanSlash.stop⟩, .unterminatedRegularExpression, []⟩ := by
  obtain ⟨token, source, limit, pending⟩ := rescanSlash_eq slash
  obtain ⟨text, holds, lines, ends, breaks⟩ := patternEnd_open whole (Nat.lt_succ_self _) found
  have ends : s.patternFound.1 = s.start + 1 + (layout text).length := ends
  rw [← ends] at breaks
  have same : s.source.skipWhile s.limit isIdentifierPart s.patternFound.1 = s.patternFound.1 :=
    have nothing : s.source.Holds s.limit s.patternFound.1 [] := trivial
    nothing.skipWhile (by simp) fun c next => not_isIdentifierPart_of_isLineBreak (breaks c next)
  have stop : s.rescanSlash.stop = s.patternFound.1 := by rw [token, same]
  have first : s.source.isBoundary (s.start + 1) := isBoundary_succ here rfl
  have last : s.source.isBoundary s.patternFound.1 := by
    rw [ends]
    exact holds.isBoundary_end first
  refine ⟨'/' :: text, ⟨?_, ?_⟩, List.forall_mem_cons.mpr ⟨by decide, lines⟩, ?_, ?_⟩
  · rw [source, limit, token]
    exact ⟨here, holds⟩
  · rw [stop, ends, length_layout_cons, ← Nat.add_assoc, token]
    rfl
  · rw [charAt?, source, limit, stop]
    rcases Source.isBoundary_cases last with all | ⟨c, next⟩
    · exact .inl all
    · have next : s.charAt? s.patternFound.1 = some c :=
        charAt?_eq_some.mpr ⟨whole ▸ Source.charAt?_lt next, next⟩
      exact .inr ⟨c, next, breaks c next⟩
  · rw [pending, found, stop]
    rfl

end Slash

/-- A slash that a scan has found, read again as a regular expression. It is terminated just if
what stands there is a pattern between slashes. Then the token is the shortest such text and the
name that follows it, and nothing is reported. Otherwise the token ends at the first line break,
or at the end of the text, and that is reported. -/
theorem rescanSlash_pattern (t s : Scanner) (stands : t.Stands)
    (scanned : s.toToken = t.scan.toToken) (source : s.source = t.source)
    (limit : s.limit = t.limit) (slash : s.kind ∈ [.slashToken, .slashEqualsToken]) :
    let r := s.rescanSlash
    (r.kind = .regularExpressionLiteral ∧ r.start = s.start) ∧
    (r.flags.unterminated = false ↔ ∃ body, s.Encloses body) ∧
    (r.flags.unterminated = false → ∃ body name, s.Encloses body ∧
      (∀ other, s.Encloses other → body.length ≤ other.length) ∧
      r.IsText ('/' :: (body ++ '/' :: name)) ∧
      (∀ c ∈ name, isIdentifierPart c) ∧
      (∀ c, r.charAt? r.stop = some c → isIdentifierPart c = false) ∧
      r.pending = s.pending) ∧
    (r.flags.unterminated = true → ∃ text,
      r.IsText text ∧ (∀ c ∈ text, isLineBreak c = false) ∧
      (r.stop = s.source.size ∨ ∃ c, r.charAt? r.stop = some c ∧ isLineBreak c) ∧
      r.pending = s.pending.push
        ⟨⟨s.start, r.stop⟩, .unterminatedRegularExpression, []⟩) := by
  have kind : s.kind = t.scan.kind := congrArg (·.kind) scanned
  have start : s.start = t.scan.start := congrArg (·.start) scanned
  have flags : s.flags = t.scan.flags := congrArg (·.flags) scanned
  have keeps := (follows_scan stands).keeps
  have whole : s.limit = s.source.size := by rw [limit, source]; exact stands.whole
  obtain ⟨here, clean⟩ := slash_scan t (kind ▸ slash)
  have here : s.charAt? s.start = some '/' := by
    rw [start, charAt?, limit, source, ← keeps.limit, ← keeps.source]
    exact here
  obtain ⟨token, _⟩ := rescanSlash_eq slash
  have unterminated : s.rescanSlash.flags.unterminated = !s.patternFound.2 := by
    rw [token, flags, clean]
    rfl
  intro r
  refine ⟨⟨congrArg (·.kind) token, congrArg (·.start) token⟩, ⟨fun closed => ?_, ?_⟩,
    fun closed => ?_, fun unclosed => ?_⟩
  · rw [unterminated, Bool.not_eq_false'] at closed
    exact exists_encloses whole here closed
  · rintro ⟨body, encloses⟩
    rw [unterminated, encloses.found whole]
    rfl
  · rw [unterminated, Bool.not_eq_false'] at closed
    exact rescanSlash_closed whole here slash closed
  · rw [unterminated, Bool.not_eq_true'] at unclosed
    exact rescanSlash_open whole here slash unclosed

/-- A slash in a class does not close the pattern, and the name behind it belongs to the token. -/
theorem rescanSlash_pattern_class :
    let s := (ofSource (.ofString "/[/]/g;") false).scan
    s.kind = .slashToken ∧ s.Encloses ['[', '/', ']'] ∧
      s.rescanSlash.flags.unterminated = false ∧ s.rescanSlash.value = "/[/]/g" ∧
      s.rescanSlash.pending = s.pending := by
  intro s
  have kind : s.kind = .slashToken := by decide +kernel
  have stands := stands_ofSource (.ofString "/[/]/g;") false
  have keeps := (follows_scan stands).keeps
  obtain ⟨_, closed, terminated, _⟩ :=
    rescanSlash_pattern _ s stands rfl keeps.source keeps.limit (by rw [kind]; decide)
  have inside : ClassText ['/'] := .plain rfl (by decide) .nil
  have encloses : s.Encloses ['[', '/', ']'] :=
    ⟨.class inside .nil, by decide +kernel⟩
  have unterminated := closed.mpr ⟨_, encloses⟩
  obtain ⟨_, _, _, _, _, _, _, pending⟩ := terminated unterminated
  exact ⟨kind, encloses, unterminated, by decide +kernel, pending⟩

end Scanner
end ScriptGrammar
