import ScriptGrammar.Source

/-!
# Character boundaries

A boundary is an offset where a character begins, or the end of the text. From a boundary below
the end one character leads to the next boundary, and cuts that meet at an offset join to one;
nothing else about the layout is used later.
-/

namespace ScriptGrammar

/-- From the beginning of a character on, what is laid out is text again. -/
theorem layout_drop {cs : List Char} {p : Nat} {c : Char}
    (h : (layout cs)[p]? = some (some c)) : ∃ ds, (layout cs).drop p = layout (c :: ds) := by
  induction cs generalizing p with
  | nil => simp [layout] at h
  | cons a rest ih =>
    cases p with
    | zero =>
      obtain rfl : a = c := by simpa [layout] using h
      exact ⟨rest, rfl⟩
    | succ p =>
      by_cases inside : p < a.utf8Size - 1
      · simp [layout, List.getElem?_append_left, inside] at h
      · have tail : (layout rest)[p - (a.utf8Size - 1)]? = some (some c) := by
          simpa [layout, List.getElem?_append_right, Nat.not_lt.mp inside] using h
        obtain ⟨ds, same⟩ := ih tail
        refine ⟨ds, ?_⟩
        rw [layout, List.drop_succ_cons, List.drop_append, List.drop_of_length_le (by simp; omega),
          List.nil_append, List.length_replicate, same]

theorem layout_next {cs : List Char} {p : Nat} {c : Char} (h : (layout cs)[p]? = some (some c)) :
    p + c.utf8Size = (layout cs).length ∨
      ∃ d, (layout cs)[p + c.utf8Size]? = some (some d) := by
  have positive := c.utf8Size_pos
  obtain ⟨ds, rest⟩ := layout_drop h
  cases ds with
  | nil =>
    have length := congrArg List.length rest
    have below := (List.getElem?_eq_some_iff.mp h).1
    simp only [List.length_drop, layout, List.append_nil, List.length_cons,
      List.length_replicate] at length
    omega
  | cons d ds =>
    obtain ⟨n, size⟩ : ∃ n, c.utf8Size = n + 1 := ⟨c.utf8Size - 1, by omega⟩
    refine .inr ⟨d, ?_⟩
    rw [← List.getElem?_drop, rest]
    simp [layout, size]

theorem layout_head (cs : List Char) : layout cs = [] ∨ ∃ d, (layout cs)[0]? = some (some d) := by
  cases cs with
  | nil => exact .inl rfl
  | cons c cs => exact .inr ⟨c, rfl⟩

/-- The characters are what is laid out, in their order. -/
theorem layout_filterMap (cs : List Char) : (layout cs).filterMap id = cs := by
  induction cs with
  | nil => rfl
  | cons c cs ih =>
    have gap : (List.replicate (c.utf8Size - 1) (none : Option Char)).filterMap id = [] :=
      List.filterMap_eq_nil_iff.mpr fun _ h => (List.mem_replicate.mp h).2
    show c :: (List.replicate (c.utf8Size - 1) none ++ layout cs).filterMap id = c :: cs
    rw [List.filterMap_append, gap, ih, List.nil_append]

namespace Source

variable {src : Source} {p : Nat} {c : Char}

theorem charAt?_eq_some :
    src.charAt? p = some c ↔ (layout src.text.toList)[p]? = some (some c) := by
  rw [charAt?, ← src.cells_eq, Array.getElem?_toList]
  cases h : src.cells[p]? with
  | none => simp [Array.getD_eq_getD_getElem?, h]
  | some o => simp [Array.getD_eq_getD_getElem?, h]

theorem mem_of_charAt? (h : src.charAt? p = some c) : c ∈ src.text.toList := by
  have among : some c ∈ layout src.text.toList := List.mem_of_getElem? (charAt?_eq_some.mp h)
  rw [← layout_filterMap src.text.toList]
  exact List.mem_filterMap.mpr ⟨some c, among, rfl⟩

theorem size_eq : src.size = (layout src.text.toList).length := by
  rw [size, ← src.cells_eq, Array.length_toList]

theorem charAt?_lt (h : src.charAt? p = some c) : p < src.size := by
  rw [size_eq]
  exact (List.getElem?_eq_some_iff.mp (charAt?_eq_some.mp h)).1

theorem isBoundary_of_charAt? (h : src.charAt? p = some c) : src.isBoundary p := by
  simp [isBoundary, h]

theorem isBoundary_size : src.isBoundary src.size := by simp [isBoundary]

theorem isBoundary_zero : src.isBoundary 0 := by
  rcases layout_head src.text.toList with none | ⟨d, hd⟩
  · have : src.size = 0 := by rw [size_eq, none]; rfl
    simp [isBoundary, this]
  · exact isBoundary_of_charAt? (charAt?_eq_some.mpr hd)

theorem isBoundary_next (h : src.charAt? p = some c) : src.isBoundary (p + c.utf8Size) := by
  rcases layout_next (charAt?_eq_some.mp h) with last | ⟨d, hd⟩
  · rw [last, ← size_eq]
    exact isBoundary_size
  · exact isBoundary_of_charAt? (charAt?_eq_some.mpr hd)

theorem isBoundary_cases (h : src.isBoundary p) : p = src.size ∨ ∃ c, src.charAt? p = some c := by
  simpa [isBoundary, Option.isSome_iff_exists] using h

theorem le_size_of_isBoundary (h : src.isBoundary p) : p ≤ src.size := by
  rcases isBoundary_cases h with rfl | ⟨c, hc⟩
  · exact Nat.le_refl _
  · exact Nat.le_of_lt (charAt?_lt hc)

theorem sliceable_of {a b : Nat} (le : a ≤ b) (ha : src.isBoundary a) (hb : src.isBoundary b) :
    src.sliceable a b := by
  simp [sliceable, le, ha, hb]

theorem isBoundary_of_sliceable {a b : Nat} (h : src.sliceable a b) : src.isBoundary a := by
  simp only [sliceable, Bool.and_eq_true] at h
  exact h.1.2

theorem exists_charAt? (h : src.isBoundary p) (below : p < src.size) :
    ∃ c, src.charAt? p = some c := by
  rcases isBoundary_cases h with rfl | hc
  · exact absurd below (Nat.lt_irrefl _)
  · exact hc

theorem charBefore?_eq_some {limit : Nat} :
    src.charBefore? limit p = some c ↔ p < limit ∧ src.charAt? p = some c := by
  simp [charBefore?]

/-- A run of characters goes forward, from boundary to boundary. -/
theorem runEnd_spec (src : Source) (limit : Nat) (f : Char → Bool) (fuel pos : Nat) :
    pos ≤ src.runEnd limit f fuel pos ∧
      (src.isBoundary pos → src.isBoundary (src.runEnd limit f fuel pos)) := by
  induction fuel generalizing pos with
  | zero => exact ⟨Nat.le_refl _, id⟩
  | succ fuel ih =>
    rw [runEnd]
    split
    · next c hc =>
      split
      · have hn := isBoundary_next (charBefore?_eq_some.mp hc).2
        obtain ⟨le, keeps⟩ := ih (pos + c.utf8Size)
        exact ⟨by omega, fun _ => keeps hn⟩
      · exact ⟨Nat.le_refl _, id⟩
    · exact ⟨Nat.le_refl _, id⟩

theorem le_skipWhile (src : Source) (limit : Nat) (f : Char → Bool) (pos : Nat) :
    pos ≤ src.skipWhile limit f pos := (runEnd_spec src limit f _ pos).1

theorem isBoundary_skipWhile (limit : Nat) (f : Char → Bool) (h : src.isBoundary p) :
    src.isBoundary (src.skipWhile limit f p) := (runEnd_spec src limit f _ p).2 h

theorem lt_skipWhile {limit : Nat} {f : Char → Bool} (h : src.charAt? p = some c)
    (below : p < limit) (hf : f c) : p < src.skipWhile limit f p := by
  obtain ⟨n, hn⟩ : ∃ n, limit - p = n + 1 := ⟨limit - p - 1, by omega⟩
  have positive := c.utf8Size_pos
  have le := (runEnd_spec src limit f n (p + c.utf8Size)).1
  simp only [skipWhile, hn, runEnd, charBefore?_eq_some.mpr ⟨below, h⟩, hf, if_true]
  omega

/-- What a search finds lies ahead, below the limit, and is what was asked for. -/
theorem seek_spec {limit : Nat} {found : Nat → Bool} {fuel pos q : Nat}
    (h : seek limit found fuel pos = some q) : pos ≤ q ∧ q < limit ∧ found q := by
  induction fuel generalizing pos with
  | zero => simp [seek] at h
  | succ fuel ih =>
    rw [seek] at h
    split at h
    · next below =>
      split at h
      · next hf =>
        obtain rfl : pos = q := by simpa using h
        exact ⟨Nat.le_refl _, below, hf⟩
      · obtain ⟨le, rest⟩ := ih h
        exact ⟨by omega, rest⟩
    · simp at h

/-- Two cuts with a common end are one. -/
theorem slice_append {a b c : Nat} (first : a ≤ b) (second : b ≤ c) :
    src.slice a b ++ src.slice b c = src.slice a c := by
  have cells : src.cells.extract a c = src.cells.extract a b ++ src.cells.extract b c := by
    rw [Array.extract_append_extract, Nat.min_eq_left first, Nat.max_eq_right second]
  rw [slice, slice, slice, ← String.ofList_append]
  simp only [chars, cells, Array.toList_append, List.filterMap_append]

theorem slice_self (a : Nat) : src.slice a a = "" := by
  simp [slice, chars]

theorem slice_all : src.slice 0 src.size = src.text := by
  rw [slice, chars, size, Array.extract_size, src.cells_eq, layout_filterMap, String.ofList_toList]

/-- Offsets count the bytes of the text. -/
theorem size_eq_utf8ByteSize : src.size = src.text.utf8ByteSize := by
  have length (cs : List Char) : (layout cs).length = (String.ofList cs).utf8ByteSize := by
    induction cs with
    | nil => rfl
    | cons c cs ih =>
      have positive := c.utf8Size_pos
      have first : String.ofList (c :: cs) = String.singleton c ++ String.ofList cs := by
        rw [String.singleton_eq_ofList, ← String.ofList_append]
        rfl
      rw [first, String.utf8ByteSize_append, ← ih, String.utf8ByteSize_singleton]
      simp only [layout, List.length_cons, List.length_append, List.length_replicate]
      omega
  rw [size_eq, length, String.ofList_toList]

end Source
end ScriptGrammar
