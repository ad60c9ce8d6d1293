import ScriptGrammar.Proofs.Scanner.Escapes

/-!
# What a search in the text finds

A run of characters is some text with nothing of its kind behind it. A search finds the first
offset of what is asked for, or there is none below the limit.
-/

namespace ScriptGrammar

namespace Source

variable {src : Source} {limit p q a b : Nat} {c : Char} {f : Char → Bool} {found : Nat → Bool}

/-- What a run takes is text of its kind, and the character behind it is of another. -/
theorem holds_runEnd (src : Source) (limit : Nat) (f : Char → Bool) (fuel p : Nat)
    (room : limit - p ≤ fuel) :
    ∃ run, (∀ c ∈ run, f c) ∧ src.Holds limit p run ∧
      src.runEnd limit f fuel p = p + (layout run).length ∧
      ∀ c, src.charBefore? limit (p + (layout run).length) = some c → f c = false := by
  induction fuel generalizing p with
  | zero =>
    refine ⟨[], by simp, trivial, rfl, fun c here => ?_⟩
    have below := (charBefore?_eq_some.mp here).1
    simp only [layout, List.length_nil] at below
    omega
  | succ fuel ih =>
    rw [runEnd]
    cases here : src.charBefore? limit p with
    | none => exact ⟨[], by simp, trivial, rfl, by simp [layout, here]⟩
    | some c =>
      cases kind : f c with
      | false => exact ⟨[], by simp, trivial, by simp [kind, layout], by simp [layout, here, kind]⟩
      | true =>
        have positive := c.utf8Size_pos
        have below := (charBefore?_eq_some.mp here).1
        obtain ⟨run, all, holds, stop, ends⟩ := ih (p + c.utf8Size) (by omega)
        refine ⟨c :: run, List.forall_mem_cons.mpr ⟨kind, all⟩, ⟨here, holds⟩, ?_, ?_⟩
        · rw [length_layout_cons, ← Nat.add_assoc, ← stop]
          exact if_pos kind
        · rw [length_layout_cons, ← Nat.add_assoc]
          exact ends

theorem holds_skipWhile (src : Source) (limit : Nat) (f : Char → Bool) (p : Nat) :
    ∃ run, (∀ c ∈ run, f c) ∧ src.Holds limit p run ∧
      src.skipWhile limit f p = p + (layout run).length ∧
      ∀ c, src.charBefore? limit (p + (layout run).length) = some c → f c = false :=
  holds_runEnd src limit f (limit - p) p (Nat.le_refl _)

theorem charAt?_eq_some_iff : src.charAt? p = some c ↔ src.cells[p]? = some (some c) := by
  rw [charAt?, Array.getD_eq_getD_getElem?]
  cases src.cells[p]? <;> simp

/-- The characters of a stretch are those that begin in it. -/
theorem mem_chars : c ∈ src.chars a b ↔ ∃ p, a ≤ p ∧ p < b ∧ src.charAt? p = some c := by
  simp only [chars, List.mem_filterMap, id_eq, exists_eq_right, Array.mem_toList_iff,
    charAt?_eq_some_iff]
  constructor
  · intro h
    obtain ⟨i, hi, same⟩ := Array.mem_extract_iff_getElem.mp h
    exact ⟨a + i, by omega, by omega, by rw [Array.getElem?_eq_getElem (by omega), same]⟩
  · rintro ⟨p, from_, below, here⟩
    obtain ⟨lt, same⟩ := Array.getElem?_eq_some_iff.mp here
    refine Array.mem_extract_iff_getElem.mpr ⟨p - a, by omega, ?_⟩
    rw [← same]
    congr 1
    omega

theorem chars_nil (le : b ≤ a) : src.chars a b = [] := by
  refine List.eq_nil_iff_forall_not_mem.mpr fun c among => ?_
  obtain ⟨p, from_, below, _⟩ := mem_chars.mp among
  omega

/-- What is left to read begins with the next character. -/
theorem chars_cons (h : src.charBefore? limit p = some c) :
    src.chars p limit = c :: src.chars (p + c.utf8Size) limit := by
  obtain ⟨below, here⟩ := charBefore?_eq_some.mp h
  by_cases inside : p + c.utf8Size ≤ limit
  · rw [← chars_append (Nat.le_add_right p _) inside, chars_one here, List.singleton_append]
  · -- The limit is inside the character, which is all that is left.
    have past : limit ≤ p + c.utf8Size := Nat.le_of_not_le inside
    have whole : src.chars p limit ++ src.chars limit (p + c.utf8Size) = [c] := by
      rw [chars_append (Nat.le_of_lt below) past, chars_one here]
    have among : c ∈ src.chars p limit := mem_chars.mpr ⟨p, Nat.le_refl p, below, here⟩
    rw [chars_nil past]
    rcases List.append_eq_singleton_iff.mp whole with ⟨none, _⟩ | ⟨one, _⟩
    · rw [none] at among
      cases among
    · exact one

/-- At a boundary with no character behind it nothing is left to read. -/
theorem chars_end (begins : src.isBoundary p) (h : src.charBefore? limit p = none) :
    src.chars p limit = [] := by
  by_cases below : p < limit
  · have last : src.size ≤ p := Nat.le_of_not_lt fun inside => by
      obtain ⟨c, here⟩ := exists_charAt? begins inside
      rw [charBefore?_eq_some.mpr ⟨below, here⟩] at h
      cases h
    refine List.eq_nil_iff_forall_not_mem.mpr fun c among => ?_
    obtain ⟨q, from_, _, here⟩ := mem_chars.mp among
    have inside := charAt?_lt here
    omega
  · exact chars_nil (Nat.le_of_not_lt below)

/-- Nothing begins inside a character. -/
theorem charAt?_inside (h : src.charAt? p = some c) (behind : p < q) (inside : q < p + c.utf8Size) :
    src.charAt? q = none := by
  obtain ⟨cs, shows⟩ := exists_shows h
  have cell : src.cells[q]? = (layout (c :: cs))[q - p]? := by
    rw [← shows, List.getElem?_drop, Nat.add_sub_cancel' (Nat.le_of_lt behind),
      Array.getElem?_toList]
  obtain ⟨i, hi⟩ : ∃ i, q - p = i + 1 := ⟨q - p - 1, by omega⟩
  have gap : src.cells[q]? = some none := by
    rw [cell, hi, layout, List.getElem?_cons_succ, List.getElem?_append_left (by simp; omega),
      List.getElem?_replicate]
    exact if_pos (by omega)
  rw [charAt?, Array.getD_eq_getD_getElem?, gap]
  rfl

/-- A boundary behind the start of a character is behind its end. -/
theorem le_of_isBoundary (h : src.charAt? p = some c) (behind : p < q)
    (boundary : src.isBoundary q) : p + c.utf8Size ≤ q := by
  rcases isBoundary_cases boundary with rfl | ⟨d, hd⟩
  · exact le_size_of_isBoundary (isBoundary_next h)
  · by_cases inside : q < p + c.utf8Size
    · rw [charAt?_inside h behind inside] at hd
      cases hd
    · omega

/-- The characters from one boundary to another stand there. -/
theorem holds_chars (le : a ≤ b) (first : src.isBoundary a) (second : src.isBoundary b)
    (inside : b ≤ limit) :
    src.Holds limit a (src.chars a b) ∧ a + (layout (src.chars a b)).length = b := by
  obtain ⟨n, length⟩ : ∃ n, b - a = n := ⟨_, rfl⟩
  induction n using Nat.strongRecOn generalizing a with
  | ind n ih =>
    by_cases more : a < b
    · have below : a < src.size := Nat.lt_of_lt_of_le more (le_size_of_isBoundary second)
      obtain ⟨c, here⟩ := exists_charAt? first below
      have positive := c.utf8Size_pos
      have ends := le_of_isBoundary here more second
      obtain ⟨holds, stop⟩ := ih (b - (a + c.utf8Size)) (by omega) ends (isBoundary_next here) rfl
      rw [chars_cons (charBefore?_eq_some.mpr ⟨more, here⟩), length_layout_cons, ← Nat.add_assoc]
      exact ⟨⟨charBefore?_eq_some.mpr ⟨by omega, here⟩, holds⟩, stop⟩
    · obtain rfl : a = b := by omega
      rw [chars_self]
      exact ⟨trivial, rfl⟩

/-- A search finds the first offset of what is asked for. -/
theorem seek_first {fuel : Nat} (h : seek limit found fuel p = some q) :
    ∀ r, p ≤ r → r < q → found r = false := by
  induction fuel generalizing p with
  | zero => cases h
  | succ fuel ih =>
    intro r from_ below
    rw [seek] at h
    split at h
    · split at h
      · obtain rfl := Option.some.inj h
        omega
      · next other =>
        by_cases first : r = p
        · rw [first]
          exact Bool.eq_false_iff.mpr other
        · exact ih h r (by omega) below
    · cases h

/-- Where a search finds nothing, there is nothing below the limit. -/
theorem seek_none {fuel : Nat} (room : limit - p ≤ fuel) (h : seek limit found fuel p = none) :
    ∀ r, p ≤ r → r < limit → found r = false := by
  induction fuel generalizing p with
  | zero =>
    intro r from_ below
    omega
  | succ fuel ih =>
    intro r from_ below
    rw [seek, if_pos (by omega)] at h
    split at h
    · cases h
    · next other =>
      by_cases first : r = p
      · rw [first]
        exact Bool.eq_false_iff.mpr other
      · exact ih (by omega) h r (by omega) below

/-- Before a search ends, nothing of what is asked for is seen. -/
theorem seek_getD (limit : Nat) (found : Nat → Bool) :
    let e := (seek limit found limit 0).getD limit
    (e = limit ∨ e < limit ∧ found e = true) ∧ ∀ r < e, found r = false := by
  cases ends : seek limit found limit 0 with
  | none => exact ⟨.inl rfl, fun r below => seek_none (Nat.sub_le _ _) ends r (Nat.zero_le r) below⟩
  | some q =>
    obtain ⟨_, below, here⟩ := seek_spec ends
    exact ⟨.inr ⟨below, here⟩, fun r below => seek_first ends r (Nat.zero_le r) below⟩

end Source

namespace Scanner

variable {s : Scanner} {p : Nat} {c : Char}

/-- Where all of the text is read, every line terminator ends before the limit. -/
theorem lineBreakAt_eq (whole : s.limit = s.source.size) (h : s.charAt? p = some c) :
    s.lineBreakAt s.limit p = isLineBreak c := by
  have here := (charAt?_eq_some.mp h).2
  have below := Source.le_size_of_isBoundary (Source.isBoundary_next here)
  simp [lineBreakAt, here, whole, below]

end Scanner
end ScriptGrammar
