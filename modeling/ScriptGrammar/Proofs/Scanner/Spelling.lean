import ScriptGrammar.Proofs.Scanner.Facing

/-!
# Names and their escapes

`unescape` decodes the Unicode escapes of a text, by itself and not by the way the scanner reads a
name. What a scanner takes for a name is the text it passes over, decoded: it goes part by part,
and whatever follows a part decodes apart from it.
-/

namespace ScriptGrammar

/-- The Unicode escape that a text begins with, decoded, and what is behind it. -/
def escape? : List Char → Option (Char × List Char)
  | '\x5c' :: 'u' :: '\x7b' :: cs =>
    match cs.takeWhile isHexDigit, cs.dropWhile isHexDigit with
    | d :: ds, '\x7d' :: rest => (charOfCode? (hexValue (d :: ds))).map (·, rest)
    | _, _ => none
  | '\x5c' :: 'u' :: a :: b :: c :: d :: rest =>
    if [a, b, c, d].all isHexDigit then
      (charOfCode? (hexValue [a, b, c, d])).map (·, rest)
    else none
  | _ => none

theorem length_escape?_lt {cs rest : List Char} {c : Char} (h : escape? cs = some (c, rest)) :
    rest.length < cs.length := by
  unfold escape? at h
  split at h
  · next cs =>
    split at h
    · next closed =>
      obtain ⟨_, _, same⟩ := Option.map_eq_some_iff.mp h
      obtain ⟨_, rfl⟩ := Prod.mk.inj same
      have le := (List.dropWhile_suffix (l := cs) isHexDigit).length_le
      rw [closed] at le
      simp only [List.length_cons] at le ⊢
      omega
    · cases h
  · split at h
    · obtain ⟨_, _, same⟩ := Option.map_eq_some_iff.mp h
      obtain ⟨_, rfl⟩ := Prod.mk.inj same
      simp only [List.length_cons]
      omega
    · cases h
  · cases h

/-- The text with its Unicode escapes decoded. -/
def unescape : List Char → List Char
  | [] => []
  | c :: cs =>
    match _found : escape? (c :: cs) with
    | some (d, rest) => d :: unescape rest
    | none => c :: unescape cs
termination_by cs => cs.length
decreasing_by
  · exact length_escape?_lt _found
  · exact Nat.lt_succ_self _

/-- Whatever follows it, `cs` decodes to `ds`. -/
def Decodes (cs ds : List Char) : Prop := ∀ rest, unescape (cs ++ rest) = ds ++ unescape rest

namespace Decodes

variable {cs cs' ds ds' : List Char}

theorem nil : Decodes [] [] := fun _ => rfl

theorem append (h : Decodes cs ds) (k : Decodes cs' ds') : Decodes (cs ++ cs') (ds ++ ds') := by
  intro rest
  rw [List.append_assoc, h, k, List.append_assoc]

theorem unescape_eq (h : Decodes cs ds) : unescape cs = ds := by
  have whole := h []
  rw [unescape] at whole
  simpa using whole

/-- A character that begins no escape. -/
theorem plain {c : Char} (h : c ≠ '\x5c') : Decodes [c] [c] := by
  intro rest
  have none : escape? (c :: rest) = none := by
    unfold escape?
    split
    · next same => exact absurd (List.cons.inj same).1 h
    · next same => exact absurd (List.cons.inj same).1 h
    · rfl
  rw [List.singleton_append, unescape]
  split
  · next found => rw [none] at found; cases found
  · rfl

theorem of_escape? {c : Char} (h : ∀ rest, escape? (cs ++ rest) = some (c, rest)) :
    Decodes cs [c] := by
  intro rest
  have found := h rest
  cases whole : cs ++ rest with
  | nil => rw [whole] at found; cases found
  | cons d all =>
    rw [whole] at found
    rw [unescape]
    split
    · next same =>
      rw [found] at same
      cases same
      rfl
    · next same => rw [found] at same; cases same

end Decodes

/-- Four digits. -/
theorem decodes_four {digits : List Char} {c : Char} (four : digits.length = 4)
    (hex : ∀ d ∈ digits, isHexDigit d) (code : charOfCode? (hexValue digits) = some c) :
    Decodes ('\x5c' :: 'u' :: digits) [c] := by
  match digits, four with
  | [d₀, d₁, d₂, d₃], _ =>
    have first : d₀ ≠ '\x7b' := by
      rintro rfl
      exact absurd (hex _ List.mem_cons_self) (by decide)
    refine .of_escape? fun rest => ?_
    have all : [d₀, d₁, d₂, d₃].all isHexDigit := List.all_eq_true.mpr hex
    show escape? ('\x5c' :: 'u' :: d₀ :: d₁ :: d₂ :: d₃ :: rest) = some (c, rest)
    unfold escape?
    split
    · next same => exact absurd (by simp_all) first
    · next same =>
      simp only [List.cons.injEq, true_and] at same
      obtain ⟨rfl, rfl, rfl, rfl, rfl⟩ := same
      rw [if_pos all, code]
      rfl
    · next other => exact absurd rfl (other d₀ d₁ d₂ d₃ rest)

/-- Digits in braces. -/
theorem decodes_braced {digits : List Char} {c : Char} (some : digits ≠ [])
    (hex : ∀ d ∈ digits, isHexDigit d) (code : charOfCode? (hexValue digits) = .some c) :
    Decodes ('\x5c' :: 'u' :: '\x7b' :: (digits ++ ['\x7d'])) [c] := by
  refine .of_escape? fun rest => ?_
  have closing : (digits ++ ['\x7d'] ++ rest) = digits ++ '\x7d' :: rest := by simp
  have taken : (digits ++ '\x7d' :: rest).takeWhile isHexDigit = digits := by
    rw [List.takeWhile_append_of_pos hex, List.takeWhile_cons_of_neg (by decide), List.append_nil]
  have dropped : (digits ++ '\x7d' :: rest).dropWhile isHexDigit = '\x7d' :: rest := by
    rw [List.dropWhile_append_of_pos hex, List.dropWhile_cons_of_neg (by decide)]
  show escape? ('\x5c' :: 'u' :: '\x7b' :: (digits ++ ['\x7d'] ++ rest)) = .some (c, rest)
  rw [closing]
  cases digits with
  | nil => exact absurd rfl some
  | cons d ds => simp only [escape?, taken, dropped, code, Option.map_some]

namespace Source

variable {src : Source} {p : Nat} {c : Char}

theorem exists_shows (h : src.charAt? p = some c) : ∃ cs, src.Shows p (c :: cs) := by
  obtain ⟨cs, same⟩ := layout_drop (charAt?_eq_some.mp h)
  exact ⟨cs, (congrArg (List.drop p) src.cells_eq).trans same⟩

theorem chars_append {a b c : Nat} (first : a ≤ b) (second : b ≤ c) :
    src.chars a b ++ src.chars b c = src.chars a c := by
  have joined : src.slice a b ++ src.slice b c = src.slice a c := slice_append first second
  rw [slice, slice, slice, ← String.ofList_append] at joined
  exact String.ofList_injective joined

theorem chars_self (a : Nat) : src.chars a a = [] := by simp [chars]

/-- A cut from the beginning of a character to its end. -/
theorem chars_one (h : src.charAt? p = some c) : src.chars p (p + c.utf8Size) = [c] := by
  obtain ⟨cs, shows⟩ := exists_shows h
  have cells : (src.cells.extract p (p + c.utf8Size)).toList = layout [c] := by
    have length : (layout [c]).length = c.utf8Size := by rw [length_layout_cons]; rfl
    have parts : layout (c :: cs) = layout [c] ++ layout cs := by simp [layout]
    rw [Array.toList_extract, List.extract_eq_take_drop, Nat.add_sub_cancel_left, shows, parts]
    exact List.take_left' length
  rw [chars, cells, layout_filterMap]

/-- A run holds nothing but what it is a run of, and is empty only if it ends where it begins. -/
theorem chars_runEnd (src : Source) (limit : Nat) (f : Char → Bool) (fuel p : Nat) :
    (∀ d ∈ src.chars p (src.runEnd limit f fuel p), f d) ∧
      (src.chars p (src.runEnd limit f fuel p) = [] → src.runEnd limit f fuel p = p) := by
  induction fuel generalizing p with
  | zero => simp [runEnd, chars_self]
  | succ fuel ih =>
    rw [runEnd]
    split
    · next c hc =>
      split
      · next hf =>
        have le := (runEnd_spec src limit f fuel (p + c.utf8Size)).1
        rw [← chars_append (Nat.le_add_right p _) le, chars_one (charBefore?_eq_some.mp hc).2,
          List.singleton_append]
        exact ⟨List.forall_mem_cons.mpr ⟨hf, (ih _).1⟩, fun no => (by cases no)⟩
      · simp [chars_self]
    · simp [chars_self]

theorem chars_skipWhile (src : Source) (limit : Nat) (f : Char → Bool) (p : Nat) :
    (∀ d ∈ src.chars p (src.skipWhile limit f p), f d) ∧
      (src.chars p (src.skipWhile limit f p) = [] → src.skipWhile limit f p = p) :=
  chars_runEnd src limit f _ p

end Source

namespace Scanner

variable {s t : Scanner} {p : Nat} {c : Char} {k : Kind}

theorem chars_next {q : Nat} (h : s.charAt? p = some c) (thin : c.utf8Size = 1)
    (le : p + 1 ≤ q) : s.source.chars p q = c :: s.source.chars (p + 1) q := by
  have one := Source.chars_one (charAt?_eq_some.mp h).2
  rw [thin] at one
  rw [← Source.chars_append (Nat.le_succ p) le, one, List.singleton_append]

/-- Digits that stand at `p` are the text there. -/
theorem chars_digits {n : Nat} (h : ∀ i < n, ∃ c, s.charAt? (p + i) = some c ∧ isHexDigit c) :
    (s.source.chars p (p + n)).length = n ∧ ∀ d ∈ s.source.chars p (p + n), isHexDigit d := by
  induction n with
  | zero => simp [Source.chars_self]
  | succ n ih =>
    obtain ⟨length, hex⟩ := ih fun i hi => h i (Nat.lt_succ_of_lt hi)
    obtain ⟨c, hc, digit⟩ := h n (Nat.lt_succ_self n)
    have last : s.source.chars (p + n) (p + (n + 1)) = [c] := by
      have one := Source.chars_one (charAt?_eq_some.mp hc).2
      rwa [utf8Size_of_isHexDigit digit] at one
    rw [← Source.chars_append (b := p + n) (by omega) (by omega), last]
    refine ⟨by simp [length], fun d hd => ?_⟩
    rcases List.mem_append.mp hd with hd | hd
    · exact hex d hd
    · exact List.mem_singleton.mp hd ▸ digit

/-- The text of an escape is its digits, four of them or in braces. -/
theorem chars_escape {length : Nat} (h : s.unicodeEscape? p = some (c, length)) :
    ∃ digits, (∀ d ∈ digits, isHexDigit d) ∧ charOfCode? (hexValue digits) = some c ∧
      (digits.length = 4 ∧ s.source.chars p (p + length) = '\x5c' :: 'u' :: digits ∨
        digits ≠ [] ∧ s.source.chars p (p + length) =
          '\x5c' :: 'u' :: '\x7b' :: (digits ++ ['\x7d'])) := by
  obtain ⟨e, he, rest⟩ := Option.bind_eq_some_iff.mp h
  obtain ⟨d, code, same⟩ := Option.bind_eq_some_iff.mp rest
  obtain ⟨rfl, rfl⟩ : d = c ∧ e.length = length := by simpa using same
  unfold escapeAt? at he
  split at he
  · next letters =>
    obtain ⟨slash, letter⟩ := Bool.and_eq_true_iff.mp letters
    have slash : s.charAt? p = some '\x5c' := eq_of_beq slash
    have letter : s.charAt? (p + 1) = some 'u' := eq_of_beq letter
    have opens {q : Nat} (le : p + 2 ≤ q) :
        s.source.chars p q = '\x5c' :: 'u' :: s.source.chars (p + 2) q := by
      rw [chars_next slash rfl (Nat.le_of_succ_le le), chars_next letter rfl le]
    split at he
    · next brace =>
      have brace : s.charAt? (p + 2) = some '\x7b' := eq_of_beq brace
      dsimp only at he
      have le := Source.le_skipWhile s.source s.limit isHexDigit (p + 3)
      obtain ⟨hex, still⟩ := Source.chars_skipWhile s.source s.limit isHexDigit (p + 3)
      generalize s.source.skipWhile s.limit isHexDigit (p + 3) = stop at he le hex still
      split at he
      · cases he
      · next closed =>
        simp only [Bool.or_eq_true, not_or, bne_iff_ne, ne_eq, Decidable.not_not, beq_iff_eq]
          at closed
        obtain rfl := Option.some.inj he
        have whole : s.source.chars p (stop + 1) =
            '\x5c' :: 'u' :: '\x7b' :: (s.source.chars (p + 3) stop ++ ['\x7d']) := by
          have last : s.source.chars stop (stop + 1) = ['\x7d'] :=
            Source.chars_one (charAt?_eq_some.mp closed.2).2
          rw [opens (by omega), chars_next brace rfl (by omega), ← last,
            Source.chars_append le (Nat.le_succ _)]
        have far : p + (stop + 1 - p) = stop + 1 := by omega
        refine ⟨_, hex, code, .inr ⟨fun none => closed.1 (still none), ?_⟩⟩
        dsimp only
        rw [far, whole]
    · split at he
      · next digits =>
        have found := hexDigits_of_all (Bool.and_eq_true_iff.mp digits).2
        obtain rfl := Option.some.inj he
        obtain ⟨four, hex⟩ := chars_digits (p := p + 2) (n := 4) found
        exact ⟨_, hex, code, .inl ⟨four, opens (by dsimp only; omega)⟩⟩
      · cases he
  · cases he

/-- The text of an escape decodes to the character it stands for. -/
theorem decodes_escape {length : Nat} (h : s.unicodeEscape? p = some (c, length)) :
    Decodes (s.source.chars p (p + length)) [c] := by
  obtain ⟨digits, hex, code, ⟨four, text⟩ | ⟨some, text⟩⟩ := chars_escape h
  · rw [text]
    exact decodes_four four hex code
  · rw [text]
    exact decodes_braced some hex code

/-- From `s` to `t` the characters of a name were taken, and are `text` once decoded. Without an
escape among them they are what the source has there. -/
structure Spells (s t : Scanner) (text : List Char) : Prop where
  value : t.value = s.value ++ String.ofList text
  decodes : Decodes (s.source.chars s.stop t.stop) text
  plain : t.flags.unicodeEscape = false →
    s.flags.unicodeEscape = false ∧ s.source.chars s.stop t.stop = text

theorem Spells.refl (s : Scanner) : Spells s s [] := by
  refine ⟨by simp, ?_, fun plain => ⟨plain, Source.chars_self _⟩⟩
  rw [Source.chars_self]
  exact .nil

theorem Spells.check (s : Scanner) (ok : Bool) : Spells s (s.check ok) [] :=
  have same := Spells.refl s
  ⟨same.value, same.decodes, same.plain⟩

theorem Spells.trans {u : Scanner} {one two : List Char} (h : Spells s t one)
    (k : Spells t u two) (source : t.source = s.source) (first : s.stop ≤ t.stop)
    (second : t.stop ≤ u.stop) : Spells s u (one ++ two) := by
  have joined : s.source.chars s.stop t.stop ++ s.source.chars t.stop u.stop =
      s.source.chars s.stop u.stop := Source.chars_append first second
  refine ⟨?_, ?_, fun plain => ?_⟩
  · rw [k.value, h.value, String.ofList_append, String.append_assoc]
  · rw [← joined, ← source]
    exact .append (source ▸ h.decodes) k.decodes
  · obtain ⟨before, same⟩ := k.plain plain
    obtain ⟨start, same'⟩ := h.plain before
    rw [← joined, same', ← source, same]
    exact ⟨start, rfl⟩

/-- A name goes on with one part of it. -/
theorem Spells.takeParts {b : Scanner} {fuel : Nat} (part : Spells s b [c])
    (source : b.source = s.source) (first : s.stop ≤ b.stop) (hb : b.Stands)
    (rest : ∃ text, Spells b (Scanner.takeParts fuel b) text) :
    ∃ text, Spells s (Scanner.takeParts fuel b) text := by
  obtain ⟨text, rest⟩ := rest
  have le := ((onward_takeParts fuel b).forward hb).1
  exact ⟨_, part.trans rest source first le⟩

theorem spells_takeParts (fuel : Nat) (s : Scanner) (hs : s.Stands) :
    ∃ text, Spells s (takeParts fuel s) text := by
  induction fuel generalizing s with
  | zero => exact ⟨[], .refl s⟩
  | succ fuel ih =>
    rw [takeParts]
    split
    · exact ⟨[], .refl s⟩
    split
    · obtain ⟨ok, same⟩ := touchEscape_eq s.stop s
      rw [same]
      dsimp only
      split
      · next c length found =>
        split
        · have stands : Stands { s.check ok with
              stop := (s.check ok).stop + length, value := (s.check ok).value.push c
              flags := { (s.check ok).flags with unicodeEscape := true } } :=
            ⟨hs.whole, (unicodeEscape?_spec found).2⟩
          refine Spells.takeParts (c := c) ⟨?_, decodes_escape found, ?_⟩ rfl
            (Nat.le_add_right _ _) stands (ih _ stands)
          · exact String.push_eq_append _
          · exact fun plain => (by cases plain)
        · exact ⟨[], .check s ok⟩
      · exact ⟨[], .check s ok⟩
    · next other =>
      dsimp only
      split
      · next c hc =>
        have here : s.charAt? s.stop = some c := hc
        split
        · have one := Source.chars_one (charAt?_eq_some.mp here).2
          have stands : Stands { s.touch s.stop with
              stop := (s.touch s.stop).stop + c.utf8Size
              value := (s.touch s.stop).value.push c } := ⟨hs.whole, peek_boundary hc⟩
          have plain : c ≠ '\x5c' := by
            rintro rfl
            exact other (beq_iff_eq.mpr hc)
          refine Spells.takeParts (c := c) ⟨?_, ?_, ?_⟩ rfl (Nat.le_add_right _ _) stands
            (ih _ stands)
          · exact String.push_eq_append _
          · show Decodes (s.source.chars s.stop (s.stop + c.utf8Size)) [c]
            rw [one]
            exact .plain plain
          · exact fun bare => ⟨bare, one⟩
        · exact ⟨[], .check s _⟩
      · exact ⟨[], .check s _⟩

end Scanner
end ScriptGrammar
