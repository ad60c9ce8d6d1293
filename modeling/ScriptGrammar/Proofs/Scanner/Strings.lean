import ScriptGrammar.Proofs.Scanner.Escapes
import ScriptGrammar.Proofs.Scanner.Facing

/-!
# Strings and what they stand for

A string is written as items between quotes, and each item stands for some characters. Whatever
items follow one another, the token is the whole literal, its value all that they stand for, and
nothing is reported.
-/

namespace ScriptGrammar

/-- The letters that stand for a control character behind a backslash. -/
def controlEscapes : List (Char × Char) :=
  [('b', '\x08'), ('t', '\t'), ('n', '\n'), ('v', '\x0b'), ('f', '\x0c'), ('r', '\r')]

/-- The letters that stand for something else than themselves behind a backslash. -/
def escapeLetters : List Char := ['b', 't', 'n', 'v', 'f', 'r', 'x', 'u']

/-- The line breaks that may follow a backslash. -/
def continuations : List (List Char) := [['\n'], ['\r'], ['\r', '\n'], ['\u2028'], ['\u2029']]

/-- One item of a string in quotes `q`: how it is written, and what it stands for. -/
inductive StringItem (q : Char) : (text denoted : List Char) → Prop
  | raw {c : Char} (quote : c ≠ q) (slash : c ≠ '\x5c') (line : c ≠ '\n' ∧ c ≠ '\r') :
      StringItem q [c] [c]
  | byte {digits : List Char} {c : Char} (two : digits.length = 2)
      (hex : ∀ d ∈ digits, isHexDigit d) (code : hexValue digits = c.toNat) :
      StringItem q ('\x5c' :: 'x' :: digits) [c]
  | code {text : List Char} {c : Char} (escape : EscapeOf c text) : StringItem q text [c]
  | pair {high low : List Char} {c : Char} (four : high.length = 4 ∧ low.length = 4)
      (hex : (∀ d ∈ high, isHexDigit d) ∧ ∀ d ∈ low, isHexDigit d)
      (lead : 0xD800 ≤ hexValue high ∧ hexValue high ≤ 0xDBFF)
      (trail : 0xDC00 ≤ hexValue low ∧ hexValue low ≤ 0xDFFF)
      (code : 0x10000 + (hexValue high - 0xD800) * 1024 + (hexValue low - 0xDC00) = c.toNat) :
      StringItem q ('\x5c' :: 'u' :: (high ++ '\x5c' :: 'u' :: low)) [c]
  | control {letter c : Char} (known : (letter, c) ∈ controlEscapes) :
      StringItem q ['\x5c', letter] [c]
  | itself {c : Char} (digit : c.isDigit = false) (letter : c ∉ escapeLetters)
      (line : isLineBreak c = false) : StringItem q ['\x5c', c] [c]
  | continuation {text : List Char} (line : text ∈ continuations) :
      StringItem q ('\x5c' :: text) []

namespace StringItem

variable {q : Char} {text denoted : List Char}

/-- An item is some text, and no line feed begins it. -/
theorem begins (h : StringItem q text denoted) : ∃ c cs, text = c :: cs ∧ c ≠ '\n' := by
  cases h with
  | raw _ _ line => exact ⟨_, _, rfl, line.1⟩
  | byte => exact ⟨_, _, rfl, by decide⟩
  | code escape => cases escape <;> exact ⟨_, _, rfl, by decide⟩
  | pair => exact ⟨_, _, rfl, by decide⟩
  | control => exact ⟨_, _, rfl, by decide⟩
  | itself => exact ⟨_, _, rfl, by decide⟩
  | continuation => exact ⟨_, _, rfl, by decide⟩

/-- Every item takes a character at least. -/
theorem length_le_texts {items : List (List Char × List Char)}
    (valid : ∀ i ∈ items, StringItem q i.1 i.2) :
    items.length ≤ (items.flatMap (·.1)).length := by
  induction items with
  | nil => exact Nat.le_refl _
  | cons i items ih =>
    obtain ⟨first, others⟩ := List.forall_mem_cons.mp valid
    obtain ⟨c, cs, same, _⟩ := first.begins
    have le := ih others
    simp only [List.flatMap_cons, same, List.length_append, List.length_cons]
    omega

end StringItem

namespace Scanner

variable {s : Scanner} {q c d : Char} {text denoted rest digits : List Char}

/-- The scanner behind a backslash and the character after it. -/
def escaping (s : Scanner) (c : Char) : Scanner :=
  { ({ s with stop := s.stop + 1 }).touch (s.stop + 1) with stop := s.stop + 1 + c.utf8Size }

theorem scanEscape_eq {context : EscapeContext}
    (h : s.source.Holds s.limit s.stop ('\x5c' :: c :: rest)) :
    s.scanEscape context = (s.escaping c).scanEscaped context s.stop c := by
  have here : (({ s with stop := s.stop + 1 } : Scanner).touch (s.stop + 1)).peek 0 = some c :=
    h.2.1
  simp only [scanEscape, here]
  rfl

theorem denotes_escaping (h : s.source.Holds s.limit s.stop ('\x5c' :: c :: rest)) :
    Denotes s (s.escaping c) ['\x5c', c] [] := by
  have begins : s.source.isBoundary (s.stop + 1) := Source.Holds.isBoundary h.2
  have touched : Denotes { s with stop := s.stop + 1 }
      (({ s with stop := s.stop + 1 } : Scanner).touch (s.stop + 1)) [] [] :=
    denotes_check fun ends => by
      have ends : s.source.isBoundary s.limit := ends
      simp [begins, ends]
  exact ((denotes_pass '\x5c' s).trans touched).trans (denotes_pass c _)

theorem scanEscaped_control {context : EscapeContext} {start : Nat}
    (known : (d, c) ∈ controlEscapes) : s.scanEscaped context start d = s.push c := by
  simp only [controlEscapes, List.mem_cons, Prod.mk.injEq, List.not_mem_nil, or_false] at known
  rcases known with h | h | h | h | h | h <;> obtain ⟨rfl, rfl⟩ := h <;> rfl

theorem not_isOctalDigit (digit : c.isDigit = false) : isOctalDigit c = false := by
  rw [Bool.eq_false_iff] at digit ⊢
  exact fun octal => digit (isDigit_of_isOctalDigit octal)

theorem scanEscaped_itself {context : EscapeContext} {start : Nat} (digit : c.isDigit = false)
    (letter : c ∉ escapeLetters) (line : isLineBreak c = false) :
    s.scanEscaped context start c = s.push c := by
  have other {d : Char} (h : d.isDigit) : (c == d) = false := by
    refine beq_false_of_ne ?_
    rintro rfl
    rw [digit] at h
    cases h
  simp only [scanEscaped, not_isOctalDigit digit, other (show '0'.isDigit from rfl),
    other (show '8'.isDigit from rfl), other (show '9'.isDigit from rfl), Bool.false_and,
    Bool.or_self, Bool.false_eq_true, if_false]
  split
  all_goals first
    | exact absurd (by decide) letter
    | exact absurd line (by decide)
    | exact if_neg (by simp [line])

theorem denotes_takeHex? (h : s.source.Holds s.limit s.stop digits) (some : digits ≠ [])
    (hex : ∀ d ∈ digits, isHexDigit d) : ∃ t,
      s.takeHex? digits.length = .some (hexValue digits, t) ∧ Denotes s t digits [] := by
  have length := length_layout_hexDigits hex
  have begins : s.source.isBoundary s.stop := by
    cases digits with
    | nil => exact absurd rfl some
    | cons d ds => exact h.isBoundary
  have cuts := h.sliceable begins
  rw [length] at cuts
  have cut : Denotes s (s.cut s.stop (s.stop + digits.length)) [] [] := denotes_check fun _ => cuts
  refine ⟨_, takeHex?_eq h some hex, { cut with stop := ?_ }⟩
  rw [length]

theorem scalar (c : Char) : c.toNat < 0xD800 ∨ 0xDFFF < c.toNat ∧ c.toNat < 0x110000 := c.valid

/-- The code of a character is no half of a pair. -/
theorem pushUnit_toNat (c : Char) (s : Scanner) : s.pushUnit c.toNat = s.push c := by
  have single : s.pushPair? c.toNat = none := by
    have none : ¬ (0xD800 ≤ c.toNat ∧ c.toNat ≤ 0xDBFF) := by
      have := scalar c
      omega
    have stops : (0xD800 ≤ c.toNat && c.toNat ≤ 0xDBFF && s.peek 0 == some '\x5c' &&
        s.peek 1 == some 'u') = false := by
      rw [← Bool.decide_and, decide_eq_false none]
      rfl
    rw [pushPair?, stops]
    rfl
  rw [pushUnit, single, Option.getD_none, charOfCode_toNat]

variable {context : EscapeContext} {start : Nat}

theorem scanEscaped_x : s.scanEscaped context start 'x' =
    match s.takeHex? 2 with
    | some (code, s) => s.push (charOfCode code)
    | none => s.badHexEscape context start := rfl

theorem scanEscaped_u : s.scanEscaped context start 'u' =
    if s.peek 0 == some '\x7b' then s.scanBracedEscape context start
    else match s.takeHex? 4 with
      | some (unit, s) => ({ s with flags := { s.flags with unicodeEscape := true } }).pushUnit unit
      | none => s.badHexEscape context start := rfl

/-- Where two digits follow the letter, they are a code. -/
theorem denotes_byte (h : s.source.Holds s.limit s.stop digits) (two : digits.length = 2)
    (hex : ∀ d ∈ digits, isHexDigit d) (code : hexValue digits = c.toNat) :
    Denotes s (s.scanEscaped context start 'x') digits [c] := by
  have some : digits ≠ [] := by rintro rfl; cases two
  obtain ⟨t, taken, denotes⟩ := denotes_takeHex? h some hex
  rw [two, code] at taken
  rw [scanEscaped_x, taken]
  dsimp only
  rw [charOfCode_toNat]
  exact denotes.push c

/-- Where four digits follow the letter, they are a code unit. -/
theorem denotes_unit (context : EscapeContext) (start : Nat)
    (h : s.source.Holds s.limit s.stop digits) (four : digits.length = 4)
    (hex : ∀ d ∈ digits, isHexDigit d) : ∃ t, Denotes s t digits [] ∧
      s.scanEscaped context start 'u' = t.pushUnit (hexValue digits) := by
  have some : digits ≠ [] := by rintro rfl; cases four
  obtain ⟨t, taken, denotes⟩ := denotes_takeHex? h some hex
  have plain : (s.peek 0 == .some '\x7b') = false := not_brace_of_hexDigits h some hex
  rw [four] at taken
  refine ⟨_, denotes.noted (f := { t.flags with unicodeEscape := true }) rfl rfl, ?_⟩
  rw [scanEscaped_u, plain, taken]
  rfl

/-- Digits in braces. -/
theorem denotes_braced (h : s.source.Holds s.limit s.stop ('\x7b' :: (digits ++ ['\x7d'])))
    (some : digits ≠ []) (hex : ∀ d ∈ digits, isHexDigit d) (code : hexValue digits = c.toNat) :
    Denotes s (s.scanEscaped context start 'u') ('\x7b' :: (digits ++ ['\x7d'])) [c] := by
  have opens : s.peek 0 = .some '\x7b' := h.1
  obtain ⟨last, closes, chars⟩ := skipWhile_hexDigits (p := s.stop + 1) h.2 hex
  have begins : s.source.isBoundary (s.stop + 1) :=
    Source.isBoundary_next (Source.charBefore?_eq_some.mp h.1).2
  have cuts : s.source.sliceable (s.stop + 1) (s.stop + 1 + digits.length) := by
    rw [← length_layout_hexDigits hex]
    exact (Source.holds_append.mp h.2).1.sliceable begins
  have far : (s.stop + 1 + digits.length == s.stop + 1) = false := by
    have positive := List.length_pos_iff.mpr some
    simp only [beq_eq_false_iff_ne]
    omega
  have small : decide (0x10FFFF < c.toNat) = false := by
    have := scalar c
    exact decide_eq_false (by omega)
  let e := s.stop + 1 + digits.length
  let t : Scanner := { s.cut (s.stop + 1) e with stop := e }
  have closing : t.peek 0 = .some '\x7d' := closes
  have whole : s.scanEscaped context start 'u' =
      ({ t with
        stop := e + 1, flags := { t.flags with extendedUnicodeEscape := true } }).push c := by
    have closed : t.closeEscape context = (true, { t with stop := e + 1 }) := by
      rw [closeEscape, closing]
      rfl
    rw [scanEscaped_u, opens]
    simp only [beq_self_eq_true, if_true, scanBracedEscape, last, chars, code, far, small,
      Bool.false_and, Bool.not_false, Bool.and_false, Bool.and_true, reportIf, Bool.false_eq_true,
      if_false, charOfCode_toNat]
    rw [closed]
    exact if_pos rfl
  have cut : Denotes { s with stop := s.stop + 1 }
      (({ s with stop := s.stop + 1 } : Scanner).cut (s.stop + 1) e) [] [] :=
    denotes_check fun _ => cuts
  have taken : Denotes { s with stop := s.stop + 1 } t digits [] :=
    { cut with stop := by rw [length_layout_hexDigits hex] }
  have passed := ((denotes_pass '\x7b' s).trans taken).trans (denotes_pass '\x7d' t)
  rw [whole]
  exact (passed.noted (f := { t.flags with extendedUnicodeEscape := true }) rfl rfl).push c

/-- A high surrogate is joined with the low one written behind it. -/
theorem denotes_pair {unit : Nat} (h : s.source.Holds s.limit s.stop ('\x5c' :: 'u' :: digits))
    (four : digits.length = 4) (hex : ∀ d ∈ digits, isHexDigit d)
    (lead : 0xD800 ≤ unit ∧ unit ≤ 0xDBFF)
    (trail : 0xDC00 ≤ hexValue digits ∧ hexValue digits ≤ 0xDFFF)
    (code : 0x10000 + (unit - 0xD800) * 1024 + (hexValue digits - 0xDC00) = c.toNat) :
    Denotes s (s.pushUnit unit) ('\x5c' :: 'u' :: digits) [c] := by
  have some : digits ≠ [] := by rintro rfl; cases four
  have passed : Denotes s { s with stop := s.stop + 2 } ['\x5c', 'u'] [] :=
    (denotes_pass '\x5c' s).trans (denotes_pass 'u' _)
  obtain ⟨t, taken, denotes⟩ :=
    denotes_takeHex? (s := { s with stop := s.stop + 2 }) h.2.2 some hex
  have joined : s.pushPair? unit = .some (t.push c) := by
    have slash : s.peek 0 = .some '\x5c' := h.1
    have letter : s.peek 1 = .some 'u' := h.2.1
    rw [four] at taken
    have first : (guard (0xD800 ≤ unit && unit ≤ 0xDBFF && s.peek 0 == .some '\x5c' &&
        s.peek 1 == .some 'u') : Option Unit) = .some () :=
      if_pos (by simp [slash, letter, lead])
    have second : (guard (0xDC00 ≤ hexValue digits && hexValue digits ≤ 0xDFFF) : Option Unit) =
        .some () := if_pos (by simp [trail])
    refine Option.bind_eq_some_iff.mpr ⟨(), first, Option.bind_eq_some_iff.mpr ⟨_, taken,
      Option.bind_eq_some_iff.mpr ⟨(), second, ?_⟩⟩⟩
    rw [code, charOfCode_toNat]
    rfl
  rw [pushUnit, joined, Option.getD_some]
  exact (passed.trans denotes).push c

/-- A line break behind a backslash is left out, and a carriage return takes a line feed along. -/
theorem denotes_continuation (line : text ∈ continuations)
    (h : s.source.Holds s.limit s.stop ('\x5c' :: (text ++ c :: rest))) (other : c ≠ '\n') :
    Denotes s (s.scanEscape context) ('\x5c' :: text) [] := by
  have single {d : Char} (here : s.source.Holds s.limit s.stop ('\x5c' :: d :: c :: rest))
      (none : (s.escaping d).scanEscaped context s.stop d = s.escaping d) :
      Denotes s (s.scanEscape context) ['\x5c', d] [] := by
    rw [scanEscape_eq here, none]
    exact denotes_escaping here
  simp only [continuations, List.mem_cons, List.not_mem_nil, or_false] at line
  rcases line with rfl | rfl | rfl | rfl | rfl
  case inr.inl =>
    have behind : (s.escaping '\r').peek 0 = some c := ((denotes_escaping h).holds h).1
    have alone : (some c == some '\n') = false := beq_false_of_ne fun same =>
      other (Option.some.inj same)
    refine single h ?_
    show (if (s.escaping '\r').peek 0 == some '\n' then _ else _) = _
    rw [behind, alone]
    rfl
  case inr.inr.inl =>
    have escaped := denotes_escaping h
    have behind : (s.escaping '\r').peek 0 = some '\n' := (escaped.holds h).1
    have both : s.scanEscape context =
        { s.escaping '\r' with stop := (s.escaping '\r').stop + 1 } := by
      rw [scanEscape_eq h]
      show (if (s.escaping '\r').peek 0 == some '\n' then _ else _) = _
      rw [behind]
      rfl
    rw [both]
    exact escaped.trans (denotes_pass '\n' _)
  all_goals exact single h rfl

/-- A character written by its code. -/
theorem denotes_escapeOf (escape : EscapeOf c text)
    (h : s.source.Holds s.limit s.stop (text ++ rest)) :
    Denotes s (s.scanEscape context) text [c] := by
  cases escape with
  | four length hex code =>
    have escaped := denotes_escaping h
    have inside := (Source.holds_append.mp (escaped.holds h)).1
    obtain ⟨t, denotes, same⟩ := denotes_unit context s.stop inside length hex
    rw [scanEscape_eq h, same, code, pushUnit_toNat]
    exact (escaped.trans denotes).push c
  | @braced digits some hex code =>
    have escaped := denotes_escaping h
    have follows : (s.escaping 'u').source.Holds (s.escaping 'u').limit (s.escaping 'u').stop
        ('\x7b' :: (digits ++ ['\x7d']) ++ rest) := escaped.holds h
    rw [scanEscape_eq h]
    exact escaped.trans (denotes_braced (Source.holds_append.mp follows).1 some hex code)

/-- Every item that begins with a backslash is read as an escape. -/
theorem denotes_scanEscape (item : StringItem q ('\x5c' :: text) denoted)
    (h : s.source.Holds s.limit s.stop ('\x5c' :: text ++ c :: rest)) (other : c ≠ '\n') :
    Denotes s (s.scanEscape .string) ('\x5c' :: text) denoted := by
  cases item with
  | raw _ plain => exact absurd rfl plain
  | byte two hex code =>
    have escaped := denotes_escaping h
    have inside := (Source.holds_append.mp (escaped.holds h)).1
    rw [scanEscape_eq h]
    exact escaped.trans (denotes_byte inside two hex code)
  | code escape => exact denotes_escapeOf escape h
  | pair four hex lead trail code =>
    have escaped := denotes_escaping h
    have inside := (Source.holds_append.mp (escaped.holds h)).1
    obtain ⟨high, low⟩ := Source.holds_append.mp inside
    obtain ⟨t, denotes, same⟩ := denotes_unit .string s.stop high four.1 hex.1
    rw [scanEscape_eq h, same]
    exact (escaped.trans denotes).trans
      (denotes_pair (denotes.holds inside) four.2 hex.2 lead trail code)
  | control known =>
    rw [scanEscape_eq h, scanEscaped_control known]
    exact (denotes_escaping h).push _
  | itself digit letter line =>
    rw [scanEscape_eq h, scanEscaped_itself digit letter line]
    exact (denotes_escaping h).push _
  | continuation line => exact denotes_continuation line h other

/-- One item is taken in one step. -/
theorem denotes_item (item : StringItem q text denoted) (slash : q ≠ '\x5c')
    (h : s.source.Holds s.limit s.stop (text ++ c :: rest)) (other : c ≠ '\n') :
    ∃ t, Denotes s t text denoted ∧
      ∀ fuel, takeString q (fuel + 1) s = takeString q fuel t := by
  obtain ⟨i, is, rfl, line⟩ := item.begins
  have here : s.peek 0 = some i := h.1
  by_cases escape : i = '\x5c'
  · subst escape
    refine ⟨_, denotes_scanEscape item h other, fun fuel => ?_⟩
    have open_ : ¬ ('\x5c' == q || '\x5c' == '\n' || '\x5c' == '\r') = true := by
      simp [slash.symm]
    rw [takeString, here]
    dsimp only
    rw [if_neg open_]
    rfl
  · cases item with
    | raw quote _ lines =>
      refine ⟨_, (denotes_pass i s).push i, fun fuel => ?_⟩
      simp [takeString, here, quote, lines, escape]
    | code code => cases code <;> exact absurd rfl escape
    | _ => exact absurd rfl escape

/-- Whatever items follow one another, the quote behind them is where the string ends. -/
theorem denotes_takeString (items : List (List Char × List Char))
    (valid : ∀ i ∈ items, StringItem q i.1 i.2) (slash : q ≠ '\x5c') (line : q ≠ '\n') (fuel : Nat)
    (s : Scanner) (room : items.length ≤ fuel)
    (h : s.source.Holds s.limit s.stop (items.flatMap (·.1) ++ [q])) :
    Denotes s (takeString q fuel s) (items.flatMap (·.1)) (items.flatMap (·.2)) := by
  induction items generalizing fuel s with
  | nil =>
    have ended : takeString q fuel s = s := by
      have here : s.peek 0 = some q := h.1
      cases fuel with
      | zero => rfl
      | succ fuel => simp [takeString, here]
    rw [ended]
    exact .refl s
  | cons i items ih =>
    rw [List.length_cons] at room
    obtain ⟨fuel, rfl⟩ : ∃ n, fuel = n + 1 := ⟨fuel - 1, by omega⟩
    have valids := List.forall_mem_cons.mp valid
    -- what follows an item is the next one or the quote, and begins with no line feed
    obtain ⟨c, rest, next, other⟩ :
        ∃ c rest, items.flatMap (·.1) ++ [q] = c :: rest ∧ c ≠ '\n' := by
      cases items with
      | nil => exact ⟨q, [], rfl, line⟩
      | cons j items =>
        obtain ⟨c, cs, same, other⟩ := (valids.2 j List.mem_cons_self).begins
        exact ⟨c, cs ++ (items.flatMap (·.1) ++ [q]), by simp [same], other⟩
    have h : s.source.Holds s.limit s.stop (i.1 ++ (items.flatMap (·.1) ++ [q])) := by
      simpa using h
    obtain ⟨t, denotes, step⟩ := denotes_item valids.1 slash (next ▸ h) other
    rw [step fuel]
    exact denotes.trans (ih valids.2 fuel t (Nat.le_of_succ_le_succ room) (denotes.holds h))

/-- The text of a string in quotes `q`. -/
def literal (q : Char) (items : List (List Char × List Char)) : List Char :=
  q :: (items.flatMap (·.1) ++ [q])

theorem scan_of_quote (quote : q ∈ ['\x22', '\x27']) (h : s.charAt? s.stop = some q) :
    s.scan = s.opened.scanString q := by
  have here : s.opened.peek 0 = some q := h
  have below : s.stop < s.limit := (charAt?_eq_some.mp h).1
  have more : s.begin.restarted.atEnd = false := decide_eq_false (Nat.not_le_of_lt below)
  have solid : s.opened.scanTrivia = (false, s.opened) ∧
      s.opened.scanToken = s.opened.scanString q := by
    simp only [List.mem_cons, List.not_mem_nil, or_false] at quote
    rcases quote with rfl | rfl <;> simp only [scanTrivia, scanToken, here] <;> exact ⟨rfl, rfl⟩
  rw [← solid.2]
  exact scanFrom_token more solid.1

/-- From the opening quote to the closing one. -/
theorem denotes_scanString (items : List (List Char × List Char))
    (valid : ∀ i ∈ items, StringItem q i.1 i.2) (quote : q ∈ ['\x22', '\x27'])
    (h : s.source.Holds s.limit s.stop (literal q items)) :
    (s.scanString q).kind = .stringLiteral ∧
      Denotes s (s.scanString q) (literal q items) (items.flatMap (·.2)) := by
  have thin : q.utf8Size = 1 ∧ q ≠ '\x5c' ∧ q ≠ '\n' := by
    simp only [List.mem_cons, List.not_mem_nil, or_false] at quote
    rcases quote with rfl | rfl <;> decide
  have opened := denotes_pass q s
  rw [thin.1] at opened
  have inside : s.source.Holds s.limit (s.stop + 1) (items.flatMap (·.1) ++ [q]) := thin.1 ▸ h.2
  have room : items.length ≤ s.limit - (s.stop + 1) := by
    have texts := StringItem.length_le_texts valid
    have le := inside.length_le
    rw [List.length_append] at le
    omega
  have taken := denotes_takeString items valid thin.2.1 thin.2.2 (s.limit - (s.stop + 1))
    { s with stop := s.stop + 1 } room inside
  have begins : s.source.isBoundary (s.stop + 1) :=
    thin.1 ▸ Source.isBoundary_next (Source.charBefore?_eq_some.mp h.1).2
  have cuts := (Source.holds_append.mp inside).1.sliceable begins
  have closing := taken.holds inside
  have far := taken.stop
  have source := taken.source
  simp only [scanString]
  generalize takeString q (s.limit - (s.stop + 1)) { s with stop := s.stop + 1 } = t
    at taken closing far source
  have below : t.stop ≤ t.limit := Nat.le_of_lt (charAt?_eq_some.mp closing.1).1
  have checked : Denotes t ((t.check (t.stop ≤ t.limit)).cut (s.stop + 1) t.stop) [] [] := by
    refine (denotes_check fun _ => decide_eq_true below).trans (denotes_check fun _ => ?_)
    show t.source.sliceable (s.stop + 1) t.stop = true
    rw [source, far]
    exact cuts
  have here : ((t.check (t.stop ≤ t.limit)).cut (s.stop + 1) t.stop).peek 0 = some q := closing.1
  rw [if_pos (beq_iff_eq.mpr here)]
  have closed := ((opened.trans taken).trans checked).trans (denotes_pass q _)
  have text : [q] ++ items.flatMap (·.1) ++ [] ++ [q] = literal q items := by simp [literal]
  rw [thin.1, text, List.append_nil, List.append_nil, List.nil_append] at closed
  exact ⟨rfl, { closed with }⟩

/-- A string literal is one token, which is all of it. Its value is what the items stand for, one
after another, and there is nothing to report. -/
theorem scan_literal (s : Scanner) (q : Char) (items : List (List Char × List Char))
    (quote : q ∈ ['\x22', '\x27']) (valid : ∀ i ∈ items, StringItem q i.1 i.2)
    (shown : s.source.Holds s.limit s.stop (literal q items)) :
    s.scan.kind = .stringLiteral ∧ s.scan.fullStart = s.stop ∧ s.scan.start = s.stop ∧
      s.scan.stop = s.stop + (layout (literal q items)).length ∧
      s.scan.value = String.ofList (items.flatMap (·.2)) ∧
      s.scan.flags.unterminated = false ∧ s.scan.flags.containsInvalidEscape = false ∧
      s.scan.pending = s.pending ∧ (s.source.isBoundary s.limit → s.scan.torn = s.torn) := by
  rw [scan_of_quote quote shown.1]
  obtain ⟨kind, denotes⟩ := denotes_scanString (s := s.opened) items valid quote shown
  refine ⟨kind, denotes.fullStart, denotes.start, denotes.stop, ?_, denotes.unterminated,
    denotes.invalid, denotes.pending, denotes.torn⟩
  rw [denotes.value]
  exact String.empty_append

/-- An escape in braces, a pair of surrogates and a continued line. -/
theorem scan_literal_escapes :
    let s := ofSource (.ofString "'\\u\x7b0041\x7d\\uD83D\\uDE00\\\r\n'") false
    s.scan.kind = .stringLiteral ∧ s.scan.range = ⟨0, 25⟩ ∧ s.scan.value = "A😀" ∧
      s.scan.flags.unterminated = false ∧ s.scan.flags.containsInvalidEscape = false ∧
      s.scan.pending = #[] ∧ s.scan.torn = false := by
  intro s
  let items : List (List Char × List Char) := [
    (['\x5c', 'u', '\x7b', '0', '0', '4', '1', '\x7d'], ['A']),
    (['\x5c', 'u', 'D', '8', '3', 'D', '\x5c', 'u', 'D', 'E', '0', '0'], ['😀']),
    (['\x5c', '\r', '\n'], [])]
  have valid : ∀ i ∈ items, StringItem '\x27' i.1 i.2 := by
    intro i hi
    simp only [items, List.mem_cons, List.not_mem_nil, or_false] at hi
    rcases hi with rfl | rfl | rfl
    · exact .code (@EscapeOf.braced _ ['0', '0', '4', '1'] (by decide) (List.all_eq_true.1 rfl)
        (by decide))
    · exact @StringItem.pair _ ['D', '8', '3', 'D'] ['D', 'E', '0', '0'] _ (by decide)
        ⟨List.all_eq_true.1 rfl, List.all_eq_true.1 rfl⟩ (by decide) (by decide) (by decide)
    · exact .continuation (by decide)
  obtain ⟨kind, _, start, stop, value, unterminated, invalid, pending, torn⟩ :=
    scan_literal s '\x27' items (by decide) valid (by decide +kernel)
  refine ⟨kind, ?_, value, unterminated, invalid, pending, torn (by decide +kernel)⟩
  rw [Token.range, start, stop]
  decide +kernel

end Scanner
end ScriptGrammar
