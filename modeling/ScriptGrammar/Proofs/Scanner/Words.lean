import ScriptGrammar.Proofs.Scanner.Escapes
import ScriptGrammar.Proofs.Scanner.Facing

/-!
# Names and how they are written

Each character of a name is written plainly or by its code, in any mixture. The token is all of
the text, its value the name itself, and an escape anywhere keeps it from being a keyword.
-/

namespace ScriptGrammar

/-- A name as it may be written, and whether that takes an escape. -/
inductive NameText : (name text : List Char) → (escaped : Bool) → Prop
  | nil : NameText [] [] false
  | plain {name text : List Char} {escaped : Bool} (c : Char) (rest : NameText name text escaped) :
      NameText (c :: name) (c :: text) escaped
  | escape {c : Char} {name first text : List Char} {escaped : Bool} (code : EscapeOf c first)
      (rest : NameText name text escaped) : NameText (c :: name) (first ++ text) true

/-- Every character of a name is written. -/
theorem NameText.length_le {name text : List Char} {escaped : Bool}
    (h : NameText name text escaped) : name.length ≤ text.length := by
  induction h with
  | nil => exact Nat.le_refl _
  | plain _ _ ih => exact Nat.succ_le_succ ih
  | escape code _ ih =>
    obtain ⟨cs, rfl⟩ := code.begins
    simp only [List.length_append, List.length_cons]
    omega

namespace Scanner

variable {s t u : Scanner} {c : Char} {name name' text text' first : List Char}
variable {escaped escaped' : Bool}

/-- From `s` to `t` part of a name was read, with an escape or without one. -/
structure Names (s t : Scanner) (text name : List Char) (escaped : Bool) : Prop
    extends Denotes s t text name where
  escape : t.flags.unicodeEscape = (s.flags.unicodeEscape || escaped)

theorem Names.trans (h : Names s t text name escaped) (k : Names t u text' name' escaped') :
    Names s u (text ++ text') (name ++ name') (escaped || escaped') where
  toDenotes := h.toDenotes.trans k.toDenotes
  escape := by rw [k.escape, h.escape, Bool.or_assoc]

theorem Names.check {ok : Bool} (h : s.source.isBoundary s.limit → ok = true) :
    Names s (s.check ok) [] [] false :=
  ⟨denotes_check h, (Bool.or_false _).symm⟩

/-- The cursor may be read at where a character begins. -/
theorem names_touch {p : Nat} (begins : s.source.isBoundary p) :
    Names s (s.touch p) [] [] false :=
  .check fun ends => by simp [begins, ends]

theorem names_plain (c : Char) (s : Scanner) :
    Names s { s with stop := s.stop + c.utf8Size, value := s.value.push c } [c] [c] false :=
  ⟨(denotes_pass c s).push c, (Bool.or_false _).symm⟩

theorem names_touchEscape (p : Nat) (s : Scanner) : Names s (s.touchEscape p) [] [] false := by
  simp only [touchEscape]
  split
  · next e found => exact .check fun _ => (escapeAt?_spec found).2.2
  · exact ⟨.refl s, (Bool.or_false _).symm⟩

theorem names_escape (c : Char) (text : List Char) (s : Scanner) :
    Names s { s with
      stop := s.stop + (layout text).length, value := s.value.push c
      flags := { s.flags with unicodeEscape := true } } text [c] true :=
  ⟨⟨rfl, rfl, rfl, rfl, rfl, String.push_eq_append _, rfl, rfl, rfl, fun _ => rfl⟩,
    (Bool.or_true _).symm⟩

/-- A name ends before what is no part of it. -/
theorem names_end (fuel : Nat) (s : Scanner) (begins : s.source.isBoundary s.stop)
    (ends : ∀ d, s.charAt? s.stop = some d → isIdentifierPart d = false ∧ d ≠ '\x5c') :
    Names s (takeParts fuel s) [] [] false := by
  cases fuel with
  | zero => exact ⟨.refl s, (Bool.or_false _).symm⟩
  | succ fuel =>
    rw [takeParts]
    split
    · exact ⟨.refl s, (Bool.or_false _).symm⟩
    split
    · next slash =>
      have here : s.charAt? s.stop = some '\x5c' := eq_of_beq slash
      exact absurd rfl (ends _ here).2
    · dsimp only
      split
      · next d here =>
        have other := (ends d here).1
        rw [if_neg (by simp [other])]
        exact names_touch begins
      · exact names_touch begins

/-- A name is read as far as it goes, whatever of it is written by codes. -/
theorem names_takeParts (spelled : NameText name text escaped)
    (parts : ∀ d ∈ name, isIdentifierPart d) (fuel : Nat) (s : Scanner)
    (room : name.length ≤ fuel) (begins : s.source.isBoundary s.stop)
    (h : s.source.Holds s.limit s.stop text)
    (ends : ∀ d, s.charAt? (s.stop + (layout text).length) = some d →
      isIdentifierPart d = false ∧ d ≠ '\x5c') :
    Names s (takeParts fuel s) text name escaped := by
  induction spelled generalizing fuel s with
  | nil => exact names_end fuel s begins ends
  | @plain name text escaped c rest ih =>
    obtain ⟨part, parts⟩ := List.forall_mem_cons.mp parts
    rw [List.length_cons] at room
    obtain ⟨fuel, rfl⟩ : ∃ n, fuel = n + 1 := ⟨fuel - 1, by omega⟩
    have here : s.peek 0 = some c := h.1
    have more : s.atEnd = false := decide_eq_false (Nat.not_le_of_lt (peek_lt here))
    have slash : c ≠ '\x5c' := by
      rintro rfl
      exact absurd part (by decide)
    have step : takeParts (fuel + 1) s = takeParts fuel { s.touch s.stop with
        stop := (s.touch s.stop).stop + c.utf8Size, value := (s.touch s.stop).value.push c } := by
      simp [takeParts, more, here, slash, part]
    rw [length_layout_cons, ← Nat.add_assoc] at ends
    rw [step]
    exact ((names_touch begins).trans (names_plain c (s.touch s.stop))).trans
      (ih parts fuel _ (Nat.le_of_succ_le_succ room) (peek_boundary here) h.2 ends)
  | @escape c name first text escaped code rest ih =>
    obtain ⟨part, parts⟩ := List.forall_mem_cons.mp parts
    rw [List.length_cons] at room
    obtain ⟨fuel, rfl⟩ : ∃ n, fuel = n + 1 := ⟨fuel - 1, by omega⟩
    obtain ⟨begun, later⟩ := Source.holds_append.mp h
    obtain ⟨cs, rfl⟩ := code.begins
    have here : s.peek 0 = some '\x5c' := begun.1
    have more : s.atEnd = false := decide_eq_false (Nat.not_le_of_lt (peek_lt here))
    have found := unicodeEscape?_eq code begun
    have behind := begun.isBoundary_end begins
    have touched := names_touchEscape s.stop s
    obtain ⟨ok, same⟩ := touchEscape_eq s.stop s
    rw [same] at touched
    have again : (s.check ok).unicodeEscape? (s.check ok).stop = _ := found
    have step : takeParts (fuel + 1) s = takeParts fuel { s.check ok with
        stop := (s.check ok).stop + (layout ('\x5c' :: cs)).length
        value := (s.check ok).value.push c
        flags := { (s.check ok).flags with unicodeEscape := true } } := by
      simp [takeParts, more, here, same, again, part]
    rw [length_layout_append, ← Nat.add_assoc] at ends
    rw [step]
    exact (touched.trans (names_escape c _ (s.check ok))).trans
      (ih parts fuel _ (Nat.le_of_succ_le_succ room) behind later ends)

theorem names_scanParts (spelled : NameText name text escaped)
    (parts : ∀ d ∈ name, isIdentifierPart d) (begins : s.source.isBoundary s.stop)
    (h : s.source.Holds s.limit s.stop text)
    (ends : ∀ d, s.charAt? (s.stop + (layout text).length) = some d →
      isIdentifierPart d = false ∧ d ≠ '\x5c') :
    Names s s.scanParts text name escaped := by
  have room : name.length ≤ s.limit - s.stop := Nat.le_trans spelled.length_le h.length_le
  have taken := names_takeParts spelled parts (s.limit - s.stop) s room begins h ends
  have cut : Names (takeParts (s.limit - s.stop) s) s.scanParts [] [] false := by
    refine .check fun _ => ?_
    rw [taken.source, taken.stop]
    exact h.sliceable begins
  have whole := taken.trans cut
  rwa [List.append_nil, List.append_nil, Bool.or_false] at whole

theorem Names.still (s : Scanner) : Names s s [] [] false := ⟨.refl s, (Bool.or_false _).symm⟩

/-- What begins with neither a blank nor a sign that trivia begins with is no trivia. -/
theorem names_scanTrivia (here : s.peek 0 = some c) (solid : isSpace c = false)
    (other : c ∉ ['#', '/', '<', '=', '>', '|']) :
    ∃ t, s.scanTrivia = (false, t) ∧ Names s t [] [] false ∧ ∃ ok, t = s.check ok := by
  have begins : s.source.isBoundary s.stop :=
    Source.isBoundary_of_charAt? (charAt?_eq_some.mp here).2
  simp only [List.mem_cons, List.not_mem_nil, or_false, not_or] at other
  obtain ⟨t, touched, trivia⟩ := touched_scanTrivia here
    ⟨solid, fun same => absurd same other.2.1, fun same => absurd same other.1,
      fun sign => by simp [other] at sign⟩
  refine ⟨t, trivia, ?_, touched.check⟩
  rcases touched with rfl | rfl
  · exact .still _
  · exact names_touch begins

/-- A name is told from anything else by its first character, with an escape or without one. -/
theorem names_scanToken (spelled : NameText (c :: name) text escaped) (start : isIdentifierStart c)
    (h : s.source.Holds s.limit s.stop text) :
    ∃ t, s.scanToken = t.scanIdentifier ∧ Names s t [] [] false ∧ ∃ ok, t = s.check ok := by
  have word : s.scanToken = s.scanWord ∧ s.isIdentifierAt s.stop ∧
      Names s (s.touchName s.stop) [] [] false := by
    cases spelled with
    | plain =>
      have here : s.charAt? s.stop = some c := h.1
      have slash : (some c == some '\x5c') = false := by
        refine beq_false_of_ne fun same => ?_
        obtain rfl := Option.some.inj same
        exact absurd start (by decide)
      refine ⟨scanToken_of_isIdentifierStart here start, ?_, ?_⟩
      · simp [isIdentifierAt, here, slash, start]
      · rw [touchName, here, slash]
        exact names_touch h.isBoundary
    | escape code =>
      obtain ⟨begun, _⟩ := Source.holds_append.mp h
      have found := unicodeEscape?_eq code begun
      obtain ⟨cs, rfl⟩ := code.begins
      have here : s.charAt? s.stop = some '\x5c' := begun.1
      have peek : s.peek 0 = some '\x5c' := here
      refine ⟨?_, ?_, ?_⟩
      · simp only [scanToken, peek]
        rfl
      · simp [isIdentifierAt, here, found, start]
      · rw [touchName, here]
        exact names_touchEscape s.stop s
  obtain ⟨same, begins, touched⟩ := word
  exact ⟨_, by rw [same, scanWord, if_pos begins], touched, touchName_eq s.stop s⟩

/-- A name is one token, which is all of its text. Its value is the name, and it is the keyword
spelled so, if there is one and none of it is written by a code. -/
theorem scan_name (s : Scanner) (c : Char) (name text : List Char) (escaped : Bool)
    (spelled : NameText (c :: name) text escaped) (start : isIdentifierStart c)
    (parts : ∀ d ∈ name, isIdentifierPart d) (shown : s.source.Holds s.limit s.stop text)
    (ends : ∀ d, s.charAt? (s.stop + (layout text).length) = some d →
      isIdentifierPart d = false ∧ d ≠ '\x5c') :
    s.scan.value = String.ofList (c :: name) ∧ s.scan.fullStart = s.stop ∧
      s.scan.start = s.stop ∧ s.scan.stop = s.stop + (layout text).length ∧
      s.scan.flags.unicodeEscape = escaped ∧
      s.scan.kind = (if escaped then .identifier
        else (Kind.ofKeyword? (String.ofList (c :: name))).getD .identifier) ∧
      s.scan.pending = s.pending ∧ (s.source.isBoundary s.limit → s.scan.torn = s.torn) := by
  obtain ⟨d, ds, rfl, solid, other⟩ : ∃ d ds, text = d :: ds ∧ isSpace d = false ∧
      d ∉ ['#', '/', '<', '=', '>', '|'] := by
    cases spelled with
    | plain =>
      refine ⟨c, _, rfl, not_isSpace_of_isIdentifierStart start, fun sign => ?_⟩
      have none : ['#', '/', '<', '=', '>', '|'].all (!isIdentifierStart ·) := by decide
      simpa [start] using List.all_eq_true.mp none c sign
    | escape code =>
      obtain ⟨cs, rfl⟩ := code.begins
      exact ⟨_, _, rfl, by decide, by decide⟩
  have here : s.opened.peek 0 = some d := shown.1
  have more : s.begin.restarted.atEnd = false := decide_eq_false (Nat.not_le_of_lt (peek_lt here))
  obtain ⟨t, trivia, first, ok, rfl⟩ := names_scanTrivia here solid other
  obtain ⟨u, token, second, ok', rfl⟩ :=
    names_scanToken (s := s.opened.check ok) spelled start shown
  have scanned : s.scan = ((s.opened.check ok).check ok').scanIdentifier :=
    (scanFrom_token more trivia).trans token
  have all : ∀ e ∈ c :: name, isIdentifierPart e :=
    List.forall_mem_cons.mpr ⟨isIdentifierPart_of_isIdentifierStart start, parts⟩
  have read := names_scanParts (s := (s.opened.check ok).check ok') spelled all shown.isBoundary
    shown ends
  have whole : Names s.opened s.scan (d :: ds) (c :: name) escaped := by
    have joined := (first.trans second).trans read
    simp only [List.nil_append, Bool.false_or] at joined
    rw [scanned]
    exact { joined with }
  have value : s.scan.value = String.ofList (c :: name) := whole.value.trans String.empty_append
  have escape : s.scan.flags.unicodeEscape = escaped := whole.escape.trans (Bool.false_or _)
  have kind : s.scan.kind = if s.scan.flags.unicodeEscape then .identifier
      else Kind.ofWord s.scan.value := by
    rw [scanned]
    rfl
  rw [escape, value, Kind.ofWord_eq] at kind
  exact ⟨value, whole.fullStart, whole.start, whole.stop, escape, kind, whole.pending, whole.torn⟩

/-- A keyword with one letter written by its code is a name like any other. -/
theorem scan_name_escaped_keyword :
    let s := ofSource (.ofString "cl\\u0061ss x") false
    s.scan.value = "class" ∧ s.scan.range = ⟨0, 10⟩ ∧ s.scan.flags.unicodeEscape = true ∧
      s.scan.kind = .identifier ∧ s.scan.pending = #[] ∧ s.scan.torn = false := by
  intro s
  have letter : EscapeOf 'a' ['\x5c', 'u', '0', '0', '6', '1'] :=
    @EscapeOf.four _ ['0', '0', '6', '1'] (by decide) (List.all_eq_true.1 rfl) (by decide)
  have spelled : NameText ['c', 'l', 'a', 's', 's']
      ['c', 'l', '\x5c', 'u', '0', '0', '6', '1', 's', 's'] true :=
    .plain _ (.plain _ (.escape letter (.plain _ (.plain _ .nil))))
  have behind : s.charAt? 10 = some ' ' := by decide +kernel
  obtain ⟨value, _, start, stop, escape, kind, pending, torn⟩ :=
    scan_name s 'c' ['l', 'a', 's', 's'] _ true spelled (by decide) (List.all_eq_true.1 rfl)
      (by decide +kernel) fun d hd => by
        obtain rfl := Option.some.inj (behind.symm.trans hd)
        decide
  refine ⟨value, ?_, escape, kind, pending, torn (by decide +kernel)⟩
  rw [Token.range, start, stop]
  decide +kernel

end Scanner
end ScriptGrammar
