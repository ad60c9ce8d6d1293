import ScriptGrammar.Proofs.Scanner.Spelling

/-!
# A text inside another

An excerpt of a text is a source of its own. Whatever is read of it reads the same where it stands,
every offset moved by the offset at which it begins: the characters, the boundaries between them,
cuts, runs of characters and searches that stay before its end.
-/

namespace ScriptGrammar

/-- A boundary cuts what is laid out into two texts. -/
theorem layout_take {cs : List Char} {n : Nat}
    (h : n = (layout cs).length ∨ ∃ d, (layout cs)[n]? = some (some d)) :
    ∃ ds, (layout cs).take n = layout ds := by
  induction cs generalizing n with
  | nil => exact ⟨[], by simp [layout]⟩
  | cons c cs ih =>
    have positive := c.utf8Size_pos
    have first : layout (c :: cs) = layout [c] ++ layout cs := by simp [layout]
    have length : (layout [c]).length = c.utf8Size := by rw [length_layout_cons]; rfl
    by_cases inside : n < c.utf8Size
    · rcases h with last | ⟨d, hd⟩
      · rw [length_layout_cons] at last
        omega
      · cases n with
        | zero => exact ⟨[], by simp [layout]⟩
        | succ n =>
          have gap : n < c.utf8Size - 1 := by omega
          simp [layout, List.getElem?_append_left, gap] at hd
    · obtain ⟨ds, same⟩ := ih (n := n - c.utf8Size) (by
        rcases h with last | ⟨d, hd⟩
        · rw [length_layout_cons] at last
          exact .inl (by omega)
        · rw [first, List.getElem?_append_right (by omega), length] at hd
          exact .inr ⟨d, hd⟩)
      refine ⟨c :: ds, ?_⟩
      rw [first, List.take_append, length, same, List.take_of_length_le (by omega)]
      simp [layout]

namespace Source

/-- The text of `part` stands in `src` from `base` on. -/
structure Excerpt (part src : Source) (base : Nat) : Prop where
  cells : ∀ p < part.size, src.cells[base + p]? = part.cells[p]?
  ends : src.isBoundary (base + part.size)

/-- What is cut out between boundaries is an excerpt. -/
theorem excerpt_slice {src : Source} {a b : Nat} (h : src.sliceable a b) :
    (ofString (src.slice a b)).Excerpt src a ∧ a + (ofString (src.slice a b)).size = b := by
  simp only [sliceable, Bool.and_eq_true, decide_eq_true_eq] at h
  obtain ⟨⟨le, first⟩, last⟩ := h
  have bound := le_size_of_isBoundary last
  obtain ⟨cs, shows⟩ : ∃ cs, src.cells.toList.drop a = layout cs := by
    rcases isBoundary_cases first with rfl | ⟨c, hc⟩
    · exact ⟨[], List.drop_of_length_le (Nat.le_of_eq rfl)⟩
    · obtain ⟨cs, shows⟩ := exists_shows hc
      exact ⟨c :: cs, shows⟩
  have left : (layout cs).length = src.size - a := by
    rw [← shows, List.length_drop, Array.length_toList]
    rfl
  have cell : b - a = (layout cs).length ∨ ∃ d, (layout cs)[b - a]? = some (some d) := by
    rcases isBoundary_cases last with rfl | ⟨d, hd⟩
    · exact .inl left.symm
    · refine .inr ⟨d, ?_⟩
      rw [← shows, List.getElem?_drop, Nat.add_sub_cancel' le, src.cells_eq]
      exact charAt?_eq_some.mp hd
  obtain ⟨ds, same⟩ := layout_take cell
  have cut : (src.cells.extract a b).toList = layout ds := by
    rw [Array.toList_extract, List.extract_eq_take_drop, shows, same]
  have text : src.slice a b = String.ofList ds := by
    rw [slice, chars, cut, layout_filterMap]
  have cells : (ofString (src.slice a b)).cells = src.cells.extract a b := by
    rw [← Array.toList_inj, (ofString (src.slice a b)).cells_eq, cut]
    show layout (src.slice a b).toList = layout ds
    rw [text, String.toList_ofList]
  have size : (ofString (src.slice a b)).size = b - a := by
    rw [Source.size, cells, Array.size_extract]
    unfold Source.size at bound
    omega
  refine ⟨⟨fun p hp => ?_, ?_⟩, by omega⟩
  · rw [cells, Array.getElem?_extract, if_pos (by unfold Source.size at bound; omega)]
  · rw [size, Nat.add_sub_cancel' le]
    exact last

namespace Excerpt

variable {part src : Source} {base p a b : Nat} (h : part.Excerpt src base)

include h

theorem charAt? (below : p < part.size) : src.charAt? (base + p) = part.charAt? p := by
  simp only [Source.charAt?, Array.getD_eq_getD_getElem?, h.cells p below]

theorem charBefore? (p : Nat) :
    src.charBefore? (base + part.size) (base + p) = part.charBefore? part.size p := by
  by_cases below : p < part.size
  · simp [Source.charBefore?, below, h.charAt? below]
  · simp [Source.charBefore?, below]

theorem isBoundary (le : p ≤ part.size) : src.isBoundary (base + p) = part.isBoundary p := by
  by_cases last : p = part.size
  · rw [last, h.ends, isBoundary_size]
  · have below : p < part.size := by omega
    have bound := le_size_of_isBoundary h.ends
    have before : (base + p == src.size) = false := beq_eq_false_iff_ne.mpr (by omega)
    have inside : (p == part.size) = false := beq_eq_false_iff_ne.mpr last
    rw [Source.isBoundary, Source.isBoundary, h.charAt? below, before, inside]

theorem sliceable (le : b ≤ part.size) :
    src.sliceable (base + a) (base + b) = part.sliceable a b := by
  simp only [Source.sliceable, Nat.add_le_add_iff_left, h.isBoundary le]
  by_cases first : a ≤ b
  · rw [h.isBoundary (Nat.le_trans first le)]
  · simp [first]

theorem chars (le : b ≤ part.size) : src.chars (base + a) (base + b) = part.chars a b := by
  have bound := le_size_of_isBoundary h.ends
  have cells : src.cells.extract (base + a) (base + b) = part.cells.extract a b := by
    refine Array.ext_getElem? fun i => ?_
    simp only [Array.getElem?_extract]
    unfold Source.size at le bound
    by_cases inside : i < b - a
    · rw [if_pos (by omega), if_pos (by omega), Nat.add_assoc, h.cells (a + i) (by
        unfold Source.size
        omega)]
    · rw [if_neg (by omega), if_neg (by omega)]
  rw [Source.chars, Source.chars, cells]

theorem slice (le : b ≤ part.size) : src.slice (base + a) (base + b) = part.slice a b :=
  congrArg String.ofList (h.chars le)

theorem runEnd (f : Char → Bool) (fuel p : Nat) :
    src.runEnd (base + part.size) f fuel (base + p) = base + part.runEnd part.size f fuel p := by
  induction fuel generalizing p with
  | zero => rfl
  | succ fuel ih =>
    rw [Source.runEnd, Source.runEnd, h.charBefore?]
    split
    · split
      · rw [Nat.add_assoc, ih]
      · rfl
    · rfl

theorem skipWhile (f : Char → Bool) (p : Nat) :
    src.skipWhile (base + part.size) f (base + p) = base + part.skipWhile part.size f p := by
  rw [Source.skipWhile, Source.skipWhile, Nat.add_sub_add_left, h.runEnd]

end Excerpt

/-- A search that sees the same from `base` on finds the same. -/
theorem seek_moved {base limit fuel p : Nat} {found found' : Nat → Bool}
    (same : ∀ q < limit, found (base + q) = found' q) :
    seek (base + limit) found fuel (base + p) = (seek limit found' fuel p).map (base + ·) := by
  induction fuel generalizing p with
  | zero => rfl
  | succ fuel ih =>
    rw [seek, seek]
    by_cases below : p < limit
    · rw [if_pos below, if_pos (by omega), same p below, Nat.add_assoc, ih]
      split <;> rfl
    · rw [if_neg below, if_neg (by omega)]
      rfl

end Source
end ScriptGrammar
