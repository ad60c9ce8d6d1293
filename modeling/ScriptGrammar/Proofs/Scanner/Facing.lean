import ScriptGrammar.Proofs.Scanner.Reading

/-!
# The text at the cursor

`Shows` says what text a source holds from an offset on, `Faces` that a scanner has it before its
cursor. From this the next token is computed: a word goes as far as the text has identifier
characters, and a single blank before it is passed over.
-/

namespace ScriptGrammar

theorem length_layout_cons (c : Char) (cs : List Char) :
    (layout (c :: cs)).length = c.utf8Size + (layout cs).length := by
  have positive := c.utf8Size_pos
  simp only [layout, List.length_cons, List.length_append, List.length_replicate]
  omega

/-- The text from `p` on. -/
def Source.Shows (src : Source) (p : Nat) (cs : List Char) : Prop :=
  src.cells.toList.drop p = layout cs

/-- The text begins with the signs that name an interpreter. -/
def Source.IsScript (src : Source) : Prop := src.charAt? 0 = some '#' ∧ src.charAt? 1 = some '!'

namespace Source

variable {src : Source} {p : Nat} {c : Char} {cs ds : List Char}

theorem shows_ofString (text : String) : (ofString text).Shows 0 text.toList :=
  (ofString text).cells_eq

theorem Shows.charAt? (h : src.Shows p cs) : src.charAt? p = cs.head? := by
  have head : src.cells[p]? = (layout cs).head? := by
    rw [← h, List.head?_drop, Array.getElem?_toList]
  rw [Source.charAt?, Array.getD_eq_getD_getElem?, head]
  cases cs with
  | nil => rfl
  | cons c cs => rfl

theorem Shows.behind (h : src.Shows p (c :: cs)) : src.Shows (p + c.utf8Size) cs := by
  have positive := c.utf8Size_pos
  obtain ⟨n, hn⟩ : ∃ n, c.utf8Size = n + 1 := ⟨c.utf8Size - 1, by omega⟩
  unfold Shows at h ⊢
  rw [← List.drop_drop, h, hn, layout, hn, Nat.add_sub_cancel, List.drop_succ_cons]
  exact List.drop_left' (List.length_replicate)

theorem Shows.skip (h : src.Shows p (cs ++ ds)) : src.Shows (p + (layout cs).length) ds := by
  induction cs generalizing p with
  | nil => exact h
  | cons c cs ih =>
    rw [length_layout_cons, ← Nat.add_assoc]
    exact ih h.behind

theorem Shows.left (h : src.Shows p cs) : src.size - p = (layout cs).length := by
  rw [← h, List.length_drop, Array.length_toList]
  rfl

theorem Shows.isBoundary (h : src.Shows p (c :: cs)) : src.isBoundary p :=
  isBoundary_of_charAt? h.charAt?

theorem Shows.lt (h : src.Shows p (c :: cs)) : p < src.size := charAt?_lt h.charAt?

end Source

/-- A character takes a byte at least. -/
theorem length_le_layout (cs : List Char) : cs.length ≤ (layout cs).length := by
  induction cs with
  | nil => exact Nat.le_refl _
  | cons c cs ih =>
    have positive := c.utf8Size_pos
    rw [length_layout_cons, List.length_cons]
    omega

theorem length_layout_of_thin {cs : List Char} (thin : ∀ c ∈ cs, c.utf8Size = 1) :
    (layout cs).length = cs.length := by
  induction cs with
  | nil => rfl
  | cons c cs ih =>
    rw [length_layout_cons, thin c List.mem_cons_self, List.length_cons,
      ih fun d hd => thin d (List.mem_cons_of_mem c hd), Nat.add_comm]

namespace Scanner

variable {s t : Scanner} {c d : Char} {cs ds : List Char}

/-- The scanner reads to the end of the source, and has the text `cs` before its cursor. -/
structure Faces (s : Scanner) (cs : List Char) : Prop where
  whole : s.limit = s.source.size
  text : s.source.Shows s.stop cs

namespace Faces

theorem peek_of {k : Nat} (h : s.Faces cs) (shows : s.source.Shows (s.stop + k) ds) :
    s.peek k = ds.head? := by
  rw [peek, charAt?, Source.charBefore?, shows.charAt?]
  split
  · rfl
  · next far =>
    cases ds with
    | nil => rfl
    | cons d ds => exact absurd (h.whole ▸ shows.lt) far

theorem peek (h : s.Faces (c :: cs)) : s.peek 0 = some c := h.peek_of (k := 0) h.text

/-- Characters of one byte are counted by the byte, and so is the one behind them. -/
theorem peek_thin {as : List Char} (h : s.Faces (as ++ cs)) (thin : ∀ a ∈ as, a.utf8Size = 1)
    {i : Nat} (le : i ≤ as.length) : s.peek i = (as ++ cs)[i]? := by
  have split : as ++ cs = as.take i ++ (as.drop i ++ cs) := by
    rw [← List.append_assoc, List.take_append_drop]
  have length : (layout (as.take i)).length = i := by
    rw [length_layout_of_thin fun a ha => thin a (List.mem_of_mem_take ha), List.length_take,
      Nat.min_eq_left le]
  have shows := (split ▸ h.text).skip
  rw [length] at shows
  rw [h.peek_of shows, ← List.head?_drop, List.drop_append_of_le_length le]

theorem not_atEnd (h : s.Faces (c :: cs)) : s.atEnd = false := by
  have lt := h.text.lt
  simp only [atEnd, h.whole, decide_eq_false_iff_not]
  omega

theorem atEnd (h : s.Faces []) : s.atEnd = true := by
  have none : s.source.size - s.stop = 0 := h.text.left
  simp only [Scanner.atEnd, h.whole, decide_eq_true_eq]
  omega

theorem touch (h : s.Faces (c :: cs)) : s.touch s.stop = s := by
  have last : s.source.isBoundary s.limit := h.whole ▸ Source.isBoundary_size
  simp [Scanner.touch, check, h.text.isBoundary, last]

/-- The scanner may have changed in all but the source and the cursor. -/
theorem congr (h : s.Faces cs) (source : t.source = s.source) (limit : t.limit = s.limit)
    (stop : t.stop = s.stop) : t.Faces cs :=
  ⟨by rw [limit, source, h.whole], by rw [source, stop]; exact h.text⟩

/-- The cursor may be moved over the first part of the text. -/
theorem moved (h : s.Faces (cs ++ ds)) (source : t.source = s.source) (limit : t.limit = s.limit)
    (stop : t.stop = s.stop + (layout cs).length) : t.Faces ds :=
  ⟨by rw [limit, source, h.whole], by rw [source, stop]; exact h.text.skip⟩

end Faces

/-- The text goes on with a character that no identifier holds, or ends. -/
def EndsWord (cs : List Char) : Prop :=
  ∀ c, cs.head? = some c → isIdentifierPart c = false ∧ c ≠ '\x5c'

theorem takeParts_eq (fuel : Nat) (s : Scanner) (h : s.Faces (cs ++ ds)) (room : cs.length ≤ fuel)
    (parts : ∀ c ∈ cs, isIdentifierPart c) (ends : EndsWord ds) : takeParts fuel s =
      { s with stop := s.stop + (layout cs).length, value := s.value ++ String.ofList cs } := by
  induction fuel generalizing cs s with
  | zero =>
    obtain rfl : cs = [] := List.length_eq_zero_iff.mp (Nat.le_zero.mp room)
    simp [takeParts, layout]
  | succ fuel ih =>
    cases cs with
    | nil =>
      rw [takeParts]
      cases ds with
      | nil => simp [h.atEnd, layout]
      | cons d ds =>
        obtain ⟨other, plain⟩ := ends d rfl
        have h : s.Faces (d :: ds) := h
        simp [h.not_atEnd, h.peek, plain, h.touch, other, layout]
    | cons c cs =>
      have h : s.Faces (c :: (cs ++ ds)) := h
      have part := parts c List.mem_cons_self
      have plain : c ≠ '\x5c' := by
        rintro rfl
        exact absurd part (by decide)
      have rest := ih { s with stop := s.stop + c.utf8Size, value := s.value.push c }
        ⟨h.whole, h.text.behind⟩ (by simpa using room)
        (fun d hd => parts d (List.mem_cons_of_mem c hd))
      have far : s.stop + c.utf8Size + (layout cs).length = s.stop + (layout (c :: cs)).length := by
        rw [length_layout_cons, Nat.add_assoc]
      have value : s.value.push c ++ String.ofList cs = s.value ++ String.ofList (c :: cs) := by
        apply String.toList_injective
        simp
      rw [takeParts]
      simp only [h.not_atEnd, h.peek, h.touch, part, rest, far, value]
      simp [plain]

/-- A token was read, and `rest` is left behind it. -/
structure Took (s t : Scanner) (k : Kind) (rest : List Char) : Prop where
  kind : t.kind = k
  faces : t.Faces rest
  pending : t.pending = s.pending

theorem not_isDigit_of_isIdentifierStart (start : isIdentifierStart c) : c.isDigit = false := by
  rw [Bool.eq_false_iff]
  intro digit
  simp only [Char.isDigit, Bool.and_eq_true, decide_eq_true_eq, ge_iff_le,
    UInt32.le_iff_toNat_le] at digit
  have high : c.val.toNat ≤ 57 := digit.2
  have ascii : isAscii c := decide_eq_true (Nat.lt_of_le_of_lt high (by decide))
  simp only [isIdentifierStart, ascii, if_true, Bool.or_eq_true, beq_iff_eq] at start
  rcases start with (letter | rfl) | rfl
  · rcases Bool.or_eq_true_iff.mp letter with upper | lower
    · have low : 65 ≤ c.val.toNat :=
        UInt32.le_iff_toNat_le.mp (of_decide_eq_true upper).1
      omega
    · have low : 97 ≤ c.val.toNat :=
        UInt32.le_iff_toNat_le.mp (of_decide_eq_true (Bool.and_eq_true_iff.mp lower).1)
      omega
  · exact absurd high (by decide)
  · exact absurd digit.1 (by decide)

/-- Ranges that leave out an interval hold no character of it. -/
theorem not_inRanges {ranges : List (Nat × Nat)} {lo hi : Nat}
    (apart : ∀ r ∈ ranges, r.2 < lo ∨ hi < r.1) (above : lo ≤ c.toNat) (below : c.toNat ≤ hi) :
    inRanges ranges c = false := by
  rw [Bool.eq_false_iff]
  intro inside
  obtain ⟨r, hr, both⟩ := List.any_eq_true.mp inside
  simp only [Bool.and_eq_true, decide_eq_true_eq] at both
  rcases apart r hr with low | high <;> omega

/-- No name begins with a space. -/
theorem not_isSpace_of_isIdentifierStart (start : isIdentifierStart c) : isSpace c = false := by
  have apart : ∀ i ∈ spaceRanges, ∀ r ∈ letterRanges, r.2 < i.1 ∨ i.2 < r.1 := by decide +kernel
  have narrow : ['\n', '\r', ' ', '\t', '\x0b', '\x0c'].all (!isIdentifierStart ·) := by decide
  rw [Bool.eq_false_iff]
  intro space
  rcases isSpace_cases space with among | among
  · have narrow := List.all_eq_true.mp narrow c among
    rw [start] at narrow
    cases narrow
  · have beyond := not_isAscii_of_spaceRanges among
    have letter : inRanges letterRanges c := by simpa [isIdentifierStart, beyond] using start
    obtain ⟨i, hi, both⟩ := List.any_eq_true.mp among
    simp only [Bool.and_eq_true, decide_eq_true_eq] at both
    rw [not_inRanges (apart i hi) both.1 both.2] at letter
    cases letter

/-- What is no trivia: neither a space nor a slash nor the sign of a first line, and no marker. -/
theorem scanTrivia_eq (h : s.Faces (c :: cs)) (solid : isSpace c = false)
    (other : c ≠ '#' ∧ c ≠ '/')
    (marker : c ∈ ['<', '=', '>', '|'] → s.isConflictMarker s.stop = false) :
    s.scanTrivia = (false, s) := by
  obtain ⟨t, touched, trivia⟩ := touched_scanTrivia h.peek
    ⟨solid, fun same => absurd same other.2, fun same => absurd same other.1, marker⟩
  rw [trivia, touched.elim id fun same => same.trans h.touch]

theorem scanToken_of_isIdentifierStart (h : s.peek 0 = some c) (start : isIdentifierStart c) :
    s.scanToken = s.scanWord := by
  have lone : loneToken? c = none := by
    unfold loneToken?
    split
    all_goals first | rfl | exact absurd start (by decide)
  simp only [scanToken, h, lone]
  unfold scanOperatorOrWord
  split
  case h_18 => rw [not_isDigit_of_isIdentifierStart start]; rfl
  all_goals exact absurd start (by decide)

/-- A word is read as far as it goes. -/
theorem took_word {name : List Char} (h : s.Faces (name ++ ds))
    (start : name.head?.any isIdentifierStart) (parts : ∀ d ∈ name, isIdentifierPart d)
    (ends : EndsWord ds) (value : s.value = "") (flags : s.flags = {}) :
    Took s s.scanToken (Kind.ofWord (String.ofList name)) ds ∧
      s.scanToken.value = String.ofList name := by
  cases name with
  | nil => cases start
  | cons c cs =>
  have start : isIdentifierStart c := start
  have first : s.Faces (c :: (cs ++ ds)) := h
  have plain : s.charAt? s.stop ≠ some '\x5c' := by
    intro escape
    have same : some c = some '\x5c' := first.peek.symm.trans escape
    obtain rfl := Option.some.inj same
    exact absurd start (by decide)
  have begins : s.isIdentifierAt s.stop := by
    have here : s.charAt? s.stop = some c := first.peek
    have plain : (some c == some '\x5c') = false := by simpa [here] using plain
    simp [isIdentifierAt, here, plain, start]
  have touched : s.touchName s.stop = s := by simp [touchName, plain, first.touch]
  have room : (c :: cs).length ≤ s.limit - s.stop := by
    have left := h.text.left
    have enough := length_le_layout (c :: cs ++ ds)
    rw [h.whole, left]
    simp only [List.length_append] at enough
    omega
  have taken := takeParts_eq _ s h room parts ends
  rw [scanToken_of_isIdentifierStart first.peek start]
  simp only [scanWord, begins, touched, if_true, scanIdentifier, scanParts, taken]
  refine ⟨⟨?_, h.moved rfl rfl rfl, rfl⟩, ?_⟩
  · simp [cut, check, flags, value]
  · simp [cut, check, value]

/-- The scanner about to read a token from where it stands. -/
def restarted (s : Scanner) : Scanner := { s with start := s.stop }

theorem scanFrom_token {fuel : Nat} (more : s.restarted.atEnd = false)
    (solid : s.restarted.scanTrivia = (false, t)) : scanFrom (fuel + 1) s = t.scanToken := by
  unfold restarted at *
  simp [scanFrom, more, solid]

theorem scanFrom_trivia {fuel : Nat} (more : s.restarted.atEnd = false)
    (trivia : s.restarted.scanTrivia = (true, t)) (skips : t.keepsTrivia = false) :
    scanFrom (fuel + 1) s = scanFrom fuel t := by
  unfold restarted at *
  simp [scanFrom, more, trivia, skips]

theorem scanFrom_kept {fuel : Nat} (more : s.restarted.atEnd = false)
    (trivia : s.restarted.scanTrivia = (true, t)) (keeps : t.keepsTrivia = true) :
    scanFrom (fuel + 1) s = t := by
  unfold restarted at *
  simp [scanFrom, more, trivia, keeps]

theorem scanFrom_end {fuel : Nat} (ended : s.restarted.atEnd = true) :
    scanFrom (fuel + 1) s = { s.restarted with kind := .endOfFileToken } := by
  unfold restarted at *
  simp [scanFrom, ended]

theorem scan_eq (h : s.Faces (c :: cs)) (solid : s.opened.scanTrivia = (false, s.opened)) :
    s.scan = s.opened.scanToken :=
  scanFrom_token (s := s.begin) h.not_atEnd solid

theorem scan_end (h : s.Faces []) : s.scan = { s.opened with kind := .endOfFileToken } :=
  scanFrom_end (s := s.begin) h.atEnd

/-- The scanner behind a blank of one byte, about to read a token. -/
def blanked (s : Scanner) : Scanner :=
  { s.begin with start := s.stop + 1, stop := s.stop + 1, kind := .whitespaceTrivia }

theorem Faces.blanked (h : s.Faces (' ' :: cs)) : s.blanked.Faces cs := ⟨h.whole, h.text.behind⟩

/-- A single blank is passed over. -/
theorem scan_eq_of_blank (h : s.Faces (' ' :: c :: cs)) (skips : s.keepsTrivia = false)
    (solid : isSpace c = false) (plain : s.blanked.scanTrivia = (false, s.blanked)) :
    s.scan = s.blanked.scanToken := by
  have more : s.opened.atEnd = false := h.not_atEnd
  have still : s.blanked.atEnd = false := h.blanked.not_atEnd
  obtain ⟨n, hn⟩ : ∃ n, s.limit - s.stop = n + 1 := by
    have lt := h.text.lt
    exact ⟨s.limit - s.stop - 1, by rw [h.whole]; omega⟩
  have next : s.source.charBefore? s.limit (s.stop + 1) = some c := h.blanked.peek
  have here : s.source.charBefore? s.limit s.stop = some ' ' := h.peek
  have run : s.source.skipWhile s.limit isBlank s.stop = s.stop + 1 := by
    have solid : isBlank c = false := (Bool.or_eq_false_iff.mp solid).1
    rw [Source.skipWhile, hn, Source.runEnd, here]
    show s.source.runEnd s.limit isBlank n (s.stop + 1) = s.stop + 1
    cases n with
    | zero => rfl
    | succ n => simp [Source.runEnd, next, solid]
  have touched : s.opened.touch s.opened.stop = s.opened :=
    Faces.touch (h.congr rfl rfl rfl : s.opened.Faces _)
  have trivia : s.opened.scanTrivia =
      (true, { s.opened with stop := s.stop + 1, kind := .whitespaceTrivia }) := by
    have peek : s.opened.peek 0 = some ' ' := h.peek
    have run : s.opened.source.skipWhile s.opened.limit isBlank s.opened.stop = s.stop + 1 := run
    simp [scanTrivia, peek, scanBlanks, skipBlanks, touched, run]
  have first : s.scan =
      scanFrom (n + 1) { s.opened with stop := s.stop + 1, kind := .whitespaceTrivia } := by
    rw [← hn]
    exact scanFrom_trivia (s := s.begin) more trivia skips
  rw [first]
  exact scanFrom_token still plain

end Scanner
end ScriptGrammar
