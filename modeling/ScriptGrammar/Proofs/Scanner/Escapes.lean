import ScriptGrammar.Proofs.Scanner.Spelling

/-!
# Escapes as they are written

`Source.Holds` says that some text stands at an offset, all of it before the limit of a reader.
Where digits stand, their number is read; where the escape of a character stands, the character is.
-/

namespace ScriptGrammar

/-- The characters stand one after another from `p` on, each of them before the limit. -/
def Source.Holds (src : Source) (limit : Nat) : (p : Nat) → List Char → Prop
  | _, [] => True
  | p, c :: cs => src.charBefore? limit p = some c ∧ src.Holds limit (p + c.utf8Size) cs

instance Source.decidableHolds (src : Source) (limit : Nat) :
    (p : Nat) → (cs : List Char) → Decidable (src.Holds limit p cs)
  | _, [] => .isTrue trivial
  | p, c :: cs =>
    have := src.decidableHolds limit (p + c.utf8Size) cs
    inferInstanceAs (Decidable (_ ∧ _))

theorem length_layout_append (cs ds : List Char) :
    (layout (cs ++ ds)).length = (layout cs).length + (layout ds).length := by
  induction cs with
  | nil => exact (Nat.zero_add _).symm
  | cons c cs ih =>
    rw [List.cons_append, length_layout_cons, length_layout_cons, ih, Nat.add_assoc]

namespace Source

variable {src : Source} {limit p : Nat} {c : Char} {cs ds : List Char}

theorem holds_append :
    src.Holds limit p (cs ++ ds) ↔
      src.Holds limit p cs ∧ src.Holds limit (p + (layout cs).length) ds := by
  induction cs generalizing p with
  | nil => exact (iff_of_eq (true_and _)).symm
  | cons c cs ih =>
    rw [length_layout_cons, ← Nat.add_assoc, List.cons_append]
    exact (and_congr_right fun _ => ih).trans (and_assoc).symm

/-- What stands before the limit is no longer than what is left to read. -/
theorem Holds.length_le (h : src.Holds limit p cs) : cs.length ≤ limit - p := by
  induction cs generalizing p with
  | nil => exact Nat.zero_le _
  | cons c cs ih =>
    have rest := ih h.2
    have below := (charBefore?_eq_some.mp h.1).1
    have positive := c.utf8Size_pos
    rw [List.length_cons]
    omega

theorem Holds.chars (h : src.Holds limit p cs) : src.chars p (p + (layout cs).length) = cs := by
  induction cs generalizing p with
  | nil => exact chars_self p
  | cons c cs ih =>
    have one := chars_one (charBefore?_eq_some.mp h.1).2
    rw [length_layout_cons, ← Nat.add_assoc, ← chars_append (Nat.le_add_right p c.utf8Size)
      (Nat.le_add_right _ _), one, ih h.2, List.singleton_append]

theorem Holds.isBoundary (h : src.Holds limit p (c :: cs)) : src.isBoundary p :=
  isBoundary_of_charAt? (charBefore?_eq_some.mp h.1).2

theorem Holds.isBoundary_end (h : src.Holds limit p cs) (begins : src.isBoundary p) :
    src.isBoundary (p + (layout cs).length) := by
  induction cs generalizing p with
  | nil => exact begins
  | cons c cs ih =>
    rw [length_layout_cons, ← Nat.add_assoc]
    exact ih h.2 (isBoundary_next (charBefore?_eq_some.mp h.1).2)

/-- Text can be cut out. -/
theorem Holds.sliceable (h : src.Holds limit p cs) (begins : src.isBoundary p) :
    src.sliceable p (p + (layout cs).length) :=
  sliceable_of (Nat.le_add_right _ _) begins (h.isBoundary_end begins)

/-- A run takes the text that it is a run of, up to what ends it. -/
theorem Holds.skipWhile {f : Char → Bool} (h : src.Holds limit p cs) (all : ∀ c ∈ cs, f c)
    (ends : ∀ d, src.charBefore? limit (p + (layout cs).length) = some d → f d = false) :
    src.skipWhile limit f p = p + (layout cs).length := by
  have room := h.length_le
  unfold Source.skipWhile
  generalize limit - p = fuel at room
  induction cs generalizing p fuel with
  | nil =>
    cases fuel with
    | zero => rfl
    | succ fuel =>
      rw [runEnd]
      split
      · next d hd => rw [ends d hd]; rfl
      · rfl
  | cons c cs ih =>
    rw [length_layout_cons, ← Nat.add_assoc] at ends ⊢
    rw [List.length_cons] at room
    obtain ⟨fuel, rfl⟩ : ∃ n, fuel = n + 1 := ⟨fuel - 1, by omega⟩
    rw [runEnd, h.1]
    dsimp only
    rw [if_pos (all c List.mem_cons_self)]
    exact ih h.2 (fun d hd => all d (List.mem_cons_of_mem c hd)) ends fuel
      (Nat.le_of_succ_le_succ room)

/-- Characters of one byte are counted by the byte. -/
theorem Holds.charBefore? {i : Nat} (h : src.Holds limit p cs) (thin : ∀ c ∈ cs, c.utf8Size = 1)
    (lt : i < cs.length) : src.charBefore? limit (p + i) = some cs[i] := by
  induction cs generalizing p i with
  | nil => cases lt
  | cons c cs ih =>
    cases i with
    | zero => exact h.1
    | succ i =>
      have rest := ih h.2 (fun d hd => thin d (List.mem_cons_of_mem c hd))
        (Nat.lt_of_succ_lt_succ lt)
      rw [thin c List.mem_cons_self, Nat.add_assoc, Nat.add_comm 1] at rest
      exact rest

end Source

theorem charOfCode?_toNat (c : Char) : charOfCode? c.toNat = some c := by
  have valid : c.toNat.isValidChar := c.valid
  rw [charOfCode?, if_pos valid, Char.ofNat_toNat]

theorem charOfCode_toNat (c : Char) : charOfCode c.toNat = c := by
  rw [charOfCode, charOfCode?_toNat, Option.getD_some]

/-- The length of digits in bytes. -/
theorem length_layout_hexDigits {digits : List Char} (hex : ∀ d ∈ digits, isHexDigit d) :
    (layout digits).length = digits.length :=
  length_layout_of_thin fun d hd => utf8Size_of_isHexDigit (hex d hd)

/-- How the character `c` is written by its code, in four digits or in braces. -/
inductive EscapeOf (c : Char) : List Char → Prop
  | four {digits : List Char} (length : digits.length = 4) (hex : ∀ d ∈ digits, isHexDigit d)
      (code : hexValue digits = c.toNat) : EscapeOf c ('\x5c' :: 'u' :: digits)
  | braced {digits : List Char} (some : digits ≠ []) (hex : ∀ d ∈ digits, isHexDigit d)
      (code : hexValue digits = c.toNat) :
      EscapeOf c ('\x5c' :: 'u' :: '\x7b' :: (digits ++ ['\x7d']))

theorem EscapeOf.begins {c : Char} {text : List Char} (h : EscapeOf c text) :
    ∃ cs, text = '\x5c' :: cs := by
  cases h <;> exact ⟨_, rfl⟩

namespace Scanner

variable {s : Scanner} {p : Nat} {c : Char} {digits text : List Char}

/-- The digits that stand at `p` are seen there one by one. -/
theorem all_hexDigits (h : s.source.Holds s.limit p digits) (hex : ∀ d ∈ digits, isHexDigit d) :
    (List.range digits.length).all (fun i => (s.charAt? (p + i)).any isHexDigit) := by
  refine List.all_eq_true.mpr fun i hi => ?_
  have lt := List.mem_range.mp hi
  have here := h.charBefore? (fun d hd => utf8Size_of_isHexDigit (hex d hd)) lt
  rw [Scanner.charAt?, here]
  exact hex _ (List.getElem_mem lt)

/-- Digits end before the limit. -/
theorem le_limit_of_hexDigits (h : s.source.Holds s.limit p digits) (some : digits ≠ []) :
    p + digits.length ≤ s.limit := by
  have le := h.length_le
  have positive := List.length_pos_iff.mpr some
  omega

/-- Where digits stand, no brace does. -/
theorem not_brace_of_hexDigits (h : s.source.Holds s.limit p digits) (some : digits ≠ [])
    (hex : ∀ d ∈ digits, isHexDigit d) : (s.charAt? p == .some '\x7b') = false := by
  cases digits with
  | nil => exact absurd rfl some
  | cons d ds =>
    have here : s.charAt? p = .some d := h.1
    rw [here]
    refine beq_false_of_ne fun same => ?_
    obtain rfl := Option.some.inj same
    exact absurd (hex _ List.mem_cons_self) (by decide)

/-- Digits before a brace end there. -/
theorem skipWhile_hexDigits (h : s.source.Holds s.limit p (digits ++ ['\x7d']))
    (hex : ∀ d ∈ digits, isHexDigit d) :
    s.source.skipWhile s.limit isHexDigit p = p + digits.length ∧
      s.charAt? (p + digits.length) = some '\x7d' ∧
      s.source.chars p (p + digits.length) = digits := by
  obtain ⟨inside, closes⟩ := Source.holds_append.mp h
  have last := inside.skipWhile hex fun d hd => by
    obtain rfl : d = '\x7d' := Option.some.inj (hd.symm.trans closes.1)
    decide
  have chars := inside.chars
  rw [length_layout_hexDigits hex] at last chars closes
  exact ⟨last, closes.1, chars⟩

theorem takeHex?_eq (h : s.source.Holds s.limit s.stop digits) (some : digits ≠ [])
    (hex : ∀ d ∈ digits, isHexDigit d) : s.takeHex? digits.length = .some (hexValue digits,
      { s.cut s.stop (s.stop + digits.length) with stop := s.stop + digits.length }) := by
  have length := length_layout_hexDigits hex
  have chars := h.chars
  rw [length] at chars
  have seen : (List.range digits.length).all (fun i => (s.peek i).any isHexDigit) :=
    all_hexDigits h hex
  rw [takeHex?, seen, chars]
  simp [le_limit_of_hexDigits h some]

theorem unicodeEscape?_of_escapeAt? {e : UnicodeEscape} (found : s.escapeAt? p = some e)
    (code : hexValue (s.source.chars e.first e.last) = c.toNat) :
    s.unicodeEscape? p = some (c, e.length) := by
  simp [unicodeEscape?, found, code, charOfCode?_toNat]

/-- Where the escape of a character stands, that character is read. -/
theorem unicodeEscape?_eq (escape : EscapeOf c text) (h : s.source.Holds s.limit p text) :
    s.unicodeEscape? p = some (c, (layout text).length) := by
  cases escape with
  | @four digits four hex code =>
    have slash : s.charAt? p = some '\x5c' := h.1
    have letter : s.charAt? (p + 1) = some 'u' := h.2.1
    have inside : s.source.Holds s.limit (p + 2) digits := h.2.2
    have some : digits ≠ [] := by rintro rfl; cases four
    have below := le_limit_of_hexDigits inside some
    have all := all_hexDigits inside hex
    have chars := inside.chars
    rw [length_layout_hexDigits hex] at chars
    rw [four] at below all chars
    have found : s.escapeAt? p = .some ⟨p + 2, p + 6, 6⟩ := by
      rw [escapeAt?, slash, letter, not_brace_of_hexDigits inside some hex, all,
        decide_eq_true below]
      rfl
    have length : (layout ('\x5c' :: 'u' :: digits)).length = 6 := by
      rw [length_layout_cons, length_layout_cons, length_layout_hexDigits hex, four]
      rfl
    rw [length]
    exact unicodeEscape?_of_escapeAt? found (by rw [← code]; exact congrArg hexValue chars)
  | @braced digits some hex code =>
    have slash : s.charAt? p = .some '\x5c' := h.1
    have letter : s.charAt? (p + 1) = .some 'u' := h.2.1
    have brace : s.charAt? (p + 2) = .some '\x7b' := h.2.2.1
    obtain ⟨last, closing, chars⟩ := skipWhile_hexDigits (s := s) (p := p + 3) h.2.2.2 hex
    have far : (p + 3 + digits.length == p + 3) = false := by
      have positive := List.length_pos_iff.mpr some
      simp only [beq_eq_false_iff_ne]
      omega
    have length : (layout ('\x5c' :: 'u' :: '\x7b' :: (digits ++ ['\x7d']))).length =
        p + 3 + digits.length + 1 - p := by
      have three : (layout ['\x5c', 'u', '\x7b']).length = 3 := rfl
      have one : (layout ['\x7d']).length = 1 := rfl
      have split : '\x5c' :: 'u' :: '\x7b' :: (digits ++ ['\x7d']) =
          ['\x5c', 'u', '\x7b'] ++ (digits ++ ['\x7d']) := rfl
      rw [split, length_layout_append, length_layout_append, length_layout_hexDigits hex, three,
        one]
      omega
    have found : s.escapeAt? p =
        .some ⟨p + 3, p + 3 + digits.length, p + 3 + digits.length + 1 - p⟩ := by
      simp only [escapeAt?, slash, letter, brace, last, far, closing]
      rfl
    rw [length]
    exact unicodeEscape?_of_escapeAt? found (by rw [← code]; exact congrArg hexValue chars)

variable {t u : Scanner} {text' denoted denoted' rest : List Char}

/-- From `s` to `t` the text was read and stands for the characters `denoted`, and there was
nothing to report. -/
structure Denotes (s t : Scanner) (text denoted : List Char) : Prop where
  source : t.source = s.source
  limit : t.limit = s.limit
  fullStart : t.fullStart = s.fullStart
  start : t.start = s.start
  stop : t.stop = s.stop + (layout text).length
  value : t.value = s.value ++ String.ofList denoted
  pending : t.pending = s.pending
  unterminated : t.flags.unterminated = s.flags.unterminated
  invalid : t.flags.containsInvalidEscape = s.flags.containsInvalidEscape
  torn : s.source.isBoundary s.limit → t.torn = s.torn

namespace Denotes

theorem refl (s : Scanner) : Denotes s s [] [] :=
  ⟨rfl, rfl, rfl, rfl, rfl, by simp, rfl, rfl, rfl, fun _ => rfl⟩

theorem trans (h : Denotes s t text denoted) (k : Denotes t u text' denoted') :
    Denotes s u (text ++ text') (denoted ++ denoted') where
  source := k.source.trans h.source
  limit := k.limit.trans h.limit
  fullStart := k.fullStart.trans h.fullStart
  start := k.start.trans h.start
  stop := by rw [k.stop, h.stop, length_layout_append, Nat.add_assoc]
  value := by rw [k.value, h.value, String.ofList_append, String.append_assoc]
  pending := k.pending.trans h.pending
  unterminated := k.unterminated.trans h.unterminated
  invalid := k.invalid.trans h.invalid
  torn ends := (k.torn (by rw [h.source, h.limit]; exact ends)).trans (h.torn ends)

/-- What follows the text follows the cursor. -/
theorem holds (h : Denotes s t text denoted)
    (shows : s.source.Holds s.limit s.stop (text ++ rest)) :
    t.source.Holds t.limit t.stop rest := by
  rw [h.source, h.limit, h.stop]
  exact (Source.holds_append.mp shows).2

theorem push (h : Denotes s t text []) (c : Char) : Denotes s (t.push c) text [c] :=
  { h with
    value := by
      show t.value.push c = _
      rw [h.value, String.push_eq_append, String.ofList_nil, String.append_empty]
      rfl }

end Denotes

/-- The cursor passes over a character. -/
theorem denotes_pass (c : Char) (s : Scanner) :
    Denotes s { s with stop := s.stop + c.utf8Size } [c] [] := by
  refine ⟨rfl, rfl, rfl, rfl, ?_, by simp, rfl, rfl, rfl, fun _ => rfl⟩
  rw [length_layout_cons]
  rfl

theorem denotes_check {ok : Bool} (h : s.source.isBoundary s.limit → ok = true) :
    Denotes s (s.check ok) [] [] :=
  ⟨rfl, rfl, rfl, rfl, rfl, by simp [check], rfl, rfl, rfl, fun ends => by simp [check, h ends]⟩

/-- Flags that no error sets are of no account. -/
theorem Denotes.noted {f : TokenFlags} (h : Denotes s t text denoted)
    (unterminated : f.unterminated = t.flags.unterminated)
    (invalid : f.containsInvalidEscape = t.flags.containsInvalidEscape) :
    Denotes s { t with flags := f } text denoted :=
  { h with
    unterminated := unterminated.trans h.unterminated
    invalid := invalid.trans h.invalid }

end Scanner
end ScriptGrammar
