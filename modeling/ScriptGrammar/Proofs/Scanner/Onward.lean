import ScriptGrammar.Proofs.Source
import ScriptGrammar.Scanner.Identifier

/-!
# The cursor goes forward

`Onward s t` says what every part of a token does to the scanner: the source, the limit and where
the token began stay, and a cursor on a boundary goes forward to a boundary. If the token began on
a boundary too, the text was cut at boundaries only, and so are the ranges of what was reported.
Progress is a separate statement, since many parts may take nothing.
-/

namespace ScriptGrammar

theorem utf8Size_of_le {c : Char} (h : c.val ≤ 0x7f) : c.utf8Size = 1 := by
  simp [Char.utf8Size, h]

theorem utf8Size_of_isDigit {c : Char} (h : c.isDigit) : c.utf8Size = 1 := by
  simp only [Char.isDigit, Bool.and_eq_true, decide_eq_true_eq] at h
  exact utf8Size_of_le (UInt32.le_trans h.2 (by decide))

theorem utf8Size_of_isHexDigit {c : Char} (h : isHexDigit c) : c.utf8Size = 1 := by
  simp only [isHexDigit, Bool.or_eq_true, Bool.and_eq_true, decide_eq_true_eq] at h
  rcases h with (h | h) | h
  · exact utf8Size_of_isDigit h
  · exact utf8Size_of_le (UInt32.le_trans h.2 (by decide))
  · exact utf8Size_of_le (UInt32.le_trans h.2 (by decide))

theorem isDigit_of_isOctalDigit {c : Char} (h : isOctalDigit c) : c.isDigit := by
  simp only [isOctalDigit, Bool.and_eq_true, decide_eq_true_eq] at h
  simp only [Char.isDigit, Bool.and_eq_true, decide_eq_true_eq]
  exact ⟨h.1, UInt32.le_trans h.2 (by decide)⟩

theorem utf8Size_of_isOctalDigit {c : Char} (h : isOctalDigit c) : c.utf8Size = 1 :=
  utf8Size_of_isDigit (isDigit_of_isOctalDigit h)

theorem utf8Size_of_isBinaryDigit {c : Char} (h : isBinaryDigit c) : c.utf8Size = 1 := by
  simp only [isBinaryDigit, Bool.or_eq_true, beq_iff_eq] at h
  rcases h with rfl | rfl <;> rfl

/-- Where `P` is told of all that came, it is told of what came in two parts. -/
theorem exists_append_trans {P : Diagnostic → Prop} {a b c : Diagnostics}
    (h : ∃ more, b = a ++ more ∧ ∀ d ∈ more, P d) (k : ∃ more, c = b ++ more ∧ ∀ d ∈ more, P d) :
    ∃ more, c = a ++ more ∧ ∀ d ∈ more, P d := by
  obtain ⟨m, rfl, hm⟩ := h
  obtain ⟨n, rfl, hn⟩ := k
  refine ⟨m ++ n, Array.append_assoc, fun d hd => ?_⟩
  rcases Array.mem_append.mp hd with hd | hd
  · exact hm d hd
  · exact hn d hd

/-- From `a` to `b` diagnostics came, about text that can be cut out. -/
def Reported (src : Source) (a b : Diagnostics) : Prop :=
  ∃ more : Diagnostics, b = a ++ more ∧ ∀ d ∈ more, src.sliceable d.range.pos d.range.stop

namespace Reported

variable {src : Source} {a b c : Diagnostics}

theorem refl (src : Source) (a : Diagnostics) : Reported src a a :=
  ⟨#[], Array.append_empty.symm, fun _ no => absurd no (Array.not_mem_empty _)⟩

theorem trans (h : Reported src a b) (k : Reported src b c) : Reported src a c :=
  exists_append_trans h k

theorem report {pos stop : Nat} (message : Message) (args : List String)
    (h : src.sliceable pos stop) : Reported src a (a.report ⟨pos, stop⟩ message args) := by
  refine ⟨#[⟨⟨pos, stop⟩, message, args⟩], Array.push_eq_append, fun d hd => ?_⟩
  rw [Array.mem_singleton.mp hd]
  exact h

end Reported

namespace Scanner

variable {s t u : Scanner} {p : Nat} {c : Char}

/-- The scanner reads to the end of the text, with the cursor on a boundary. -/
structure Stands (s : Scanner) : Prop where
  whole : s.limit = s.source.size
  boundary : s.source.isBoundary s.stop

/-- The token that the cursor is at the end of begins on a boundary. -/
structure Begun (s : Scanner) : Prop extends Stands s where
  start : s.source.isBoundary s.start
  start_le : s.start ≤ s.stop

structure Onward (s t : Scanner) : Prop where
  source : t.source = s.source
  limit : t.limit = s.limit
  keepsTrivia : t.keepsTrivia = s.keepsTrivia
  fullStart : t.fullStart = s.fullStart
  start : t.start = s.start
  forward : s.Stands → s.stop ≤ t.stop ∧ s.source.isBoundary t.stop
  clean : s.Begun → t.torn = s.torn ∧ Reported s.source s.pending t.pending

namespace Onward

theorem refl (s : Scanner) : Onward s s :=
  ⟨rfl, rfl, rfl, rfl, rfl, fun h => ⟨Nat.le_refl _, h.boundary⟩, fun _ => ⟨rfl, .refl _ _⟩⟩

theorem stands (h : Onward s t) (hs : s.Stands) : t.Stands :=
  ⟨by rw [h.limit, h.source]; exact hs.whole, by rw [h.source]; exact (h.forward hs).2⟩

theorem begun (h : Onward s t) (hs : s.Begun) : t.Begun where
  toStands := h.stands hs.toStands
  start := by rw [h.source, h.start]; exact hs.start
  start_le := by rw [h.start]; exact Nat.le_trans hs.start_le (h.forward hs.toStands).1

theorem trans (h : Onward s t) (k : Onward t u) : Onward s u where
  source := k.source.trans h.source
  limit := k.limit.trans h.limit
  keepsTrivia := k.keepsTrivia.trans h.keepsTrivia
  fullStart := k.fullStart.trans h.fullStart
  start := k.start.trans h.start
  forward hs := by
    obtain ⟨le, _⟩ := h.forward hs
    obtain ⟨le', boundary⟩ := k.forward (h.stands hs)
    exact ⟨Nat.le_trans le le', h.source ▸ boundary⟩
  clean hs := by
    obtain ⟨torn, reported⟩ := h.clean hs
    obtain ⟨torn', reported'⟩ := k.clean (h.begun hs)
    exact ⟨torn'.trans torn, reported.trans (h.source ▸ reported')⟩

/-- Only kind, value and flags differ, and the cursor moved to `q`. -/
theorem moved (q : Nat) (k : Kind) (v : String) (f : TokenFlags)
    (h : s.Stands → s.stop ≤ q ∧ s.source.isBoundary q) :
    Onward s { s with stop := q, kind := k, value := v, flags := f } :=
  ⟨rfl, rfl, rfl, rfl, rfl, h, fun _ => ⟨rfl, .refl _ _⟩⟩

/-- Only kind, value and flags differ. -/
theorem marked (k : Kind) (v : String) (f : TokenFlags) :
    Onward s { s with kind := k, value := v, flags := f } :=
  ⟨rfl, rfl, rfl, rfl, rfl, fun hs => ⟨Nat.le_refl _, hs.boundary⟩, fun _ => ⟨rfl, .refl _ _⟩⟩

end Onward

theorem charAt?_eq_some : s.charAt? p = some c ↔ p < s.limit ∧ s.source.charAt? p = some c :=
  Source.charBefore?_eq_some

theorem isBoundary_after (h : s.charAt? p = some c) : s.source.isBoundary (p + c.utf8Size) :=
  Source.isBoundary_next (charAt?_eq_some.mp h).2

theorem isBoundary_succ (h : s.charAt? p = some c) (thin : c.utf8Size = 1) :
    s.source.isBoundary (p + 1) := thin ▸ isBoundary_after h

theorem exists_peek (hs : s.Stands) (more : ¬ s.atEnd) : ∃ c, s.peek 0 = some c := by
  have below : s.stop < s.source.size := by
    have := hs.whole
    simp only [atEnd, decide_eq_true_eq] at more
    omega
  obtain ⟨c, hc⟩ := Source.exists_charAt? hs.boundary below
  exact ⟨c, charAt?_eq_some.mpr ⟨hs.whole ▸ below, hc⟩⟩

theorem peek_lt (h : s.peek p = some c) : s.stop + p < s.limit := (charAt?_eq_some.mp h).1

theorem peek_boundary (h : s.peek 0 = some c) : s.source.isBoundary (s.stop + c.utf8Size) :=
  isBoundary_after h

theorem isBoundary_limit (hs : s.Stands) : s.source.isBoundary s.limit :=
  hs.whole ▸ Source.isBoundary_size

theorem stop_le_limit (hs : s.Stands) : s.stop ≤ s.limit :=
  hs.whole ▸ Source.le_size_of_isBoundary hs.boundary

theorem isBoundary_of_lineBreakAt {limit : Nat} (h : s.lineBreakAt limit p) :
    s.source.isBoundary p := by
  simp only [lineBreakAt] at h
  split at h
  · next hc => exact Source.isBoundary_of_charAt? hc
  · simp at h

theorem lineEnd_spec (hs : s.Stands) (h : p ≤ s.limit) :
    p ≤ s.lineEnd p ∧ s.source.isBoundary (s.lineEnd p) := by
  simp only [lineEnd]
  cases found : Source.seek s.limit (s.lineBreakAt s.limit) (s.limit - p) p with
  | none => exact ⟨h, isBoundary_limit hs⟩
  | some q =>
    obtain ⟨le, _, hq⟩ := Source.seek_spec found
    exact ⟨le, isBoundary_of_lineBreakAt hq⟩

/-- A line does not end at a character that is no line break. -/
theorem lt_lineEnd (hc : s.charAt? p = some c) (plain : isLineBreak c = false) :
    p < s.lineEnd p := by
  have below := (charAt?_eq_some.mp hc).1
  simp only [lineEnd]
  cases found : Source.seek s.limit (s.lineBreakAt s.limit) (s.limit - p) p with
  | none => exact below
  | some q =>
    obtain ⟨le, _, hq⟩ := Source.seek_spec found
    have differ : p ≠ q := by
      rintro rfl
      simp [lineBreakAt, (charAt?_eq_some.mp hc).2, plain] at hq
    exact Nat.lt_of_le_of_ne le differ

theorem sliceable_stop (hs : s.Stands) : s.source.sliceable s.stop s.stop :=
  Source.sliceable_of (Nat.le_refl _) hs.boundary hs.boundary

theorem onward_check {ok : Bool} (h : s.Begun → ok = true) : Onward s (s.check ok) where
  source := rfl
  limit := rfl
  keepsTrivia := rfl
  fullStart := rfl
  start := rfl
  forward hs := ⟨Nat.le_refl _, hs.boundary⟩
  clean hs := ⟨by simp [check, h hs], .refl _ _⟩

theorem onward_check_stop (s : Scanner) : Onward s (s.check (s.stop ≤ s.limit)) :=
  onward_check fun hs => by simpa using stop_le_limit hs.toStands

theorem onward_touch (h : s.Begun → s.source.isBoundary p) : Onward s (s.touch p) :=
  onward_check fun hs => by simp [h hs, isBoundary_limit hs.toStands]

theorem onward_touch_stop (s : Scanner) : Onward s (s.touch s.stop) :=
  onward_touch fun hs => hs.boundary

theorem onward_cut {a b : Nat} (h : s.Begun → s.source.sliceable a b) : Onward s (s.cut a b) :=
  onward_check h

@[simp] theorem stop_touch : (s.touch p).stop = s.stop := rfl

@[simp] theorem peek_touch {k : Nat} : (s.touch p).peek k = s.peek k := rfl

@[simp] theorem kind_setValue : s.setValue.kind = s.kind := rfl

/-- A cut between offsets that were boundaries before. -/
theorem Onward.cut {a b : Nat} (h : Onward s t) (ok : s.Begun → s.source.sliceable a b) :
    Onward s (t.cut a b) where
  source := h.source
  limit := h.limit
  keepsTrivia := h.keepsTrivia
  fullStart := h.fullStart
  start := h.start
  forward := h.forward
  clean hs := by
    obtain ⟨torn, reported⟩ := h.clean hs
    refine ⟨?_, reported⟩
    simp [Scanner.cut, check, h.source, ok hs, torn]

/-- A report about text between offsets that were boundaries before. -/
theorem Onward.report {a b : Nat} (h : Onward s t) (m : Message) (args : List String)
    (ok : s.Begun → s.source.sliceable a b) : Onward s (t.report m a b args) where
  source := h.source
  limit := h.limit
  keepsTrivia := h.keepsTrivia
  fullStart := h.fullStart
  start := h.start
  forward := h.forward
  clean hs := by
    obtain ⟨torn, reported⟩ := h.clean hs
    exact ⟨torn, reported.trans (.report m args (ok hs))⟩

/-- What is reported at the cursor. -/
theorem onward_report_stop (m : Message) (args : List String) (s : Scanner) :
    Onward s (s.report m s.stop s.stop args) :=
  (Onward.refl s).report m args fun hs => sliceable_stop hs.toStands

theorem onward_take {n : Nat} (k : Kind) (h : s.Stands → s.source.isBoundary (s.stop + n)) :
    Onward s (s.take n k) :=
  Onward.moved _ _ _ _ fun hs => ⟨Nat.le_add_right _ _, h hs⟩

/-- The text of the token is cut out. -/
theorem onward_setValue (s : Scanner) : Onward s s.setValue :=
  .trans (onward_cut fun hs => Source.sliceable_of hs.start_le hs.start hs.boundary)
    (Onward.marked _ _ _)

theorem onward_hexDigits {n : Nat} (hs : s.source.isBoundary p)
    (h : ∀ i < n, ∃ c, s.charAt? (p + i) = some c ∧ isHexDigit c) :
    s.source.isBoundary (p + n) := by
  cases n with
  | zero => exact hs
  | succ n =>
    obtain ⟨c, hc, hex⟩ := h n (Nat.lt_succ_self n)
    exact isBoundary_succ hc (utf8Size_of_isHexDigit hex)

theorem hexDigits_of_all {n : Nat}
    (h : (List.range n).all (fun i => (s.charAt? (p + i)).any isHexDigit)) :
    ∀ i < n, ∃ c, s.charAt? (p + i) = some c ∧ isHexDigit c := by
  intro i hi
  have digit := List.all_eq_true.mp h i (List.mem_range.mpr hi)
  simpa [Option.any_eq_true] using digit

/-- An escape has a length and ends on a boundary, and its digits can be cut out. -/
theorem escapeAt?_spec {e : UnicodeEscape} (h : s.escapeAt? p = some e) :
    0 < e.length ∧ s.source.isBoundary (p + e.length) ∧ s.source.sliceable e.first e.last := by
  unfold escapeAt? at h
  split at h
  · split at h
    · next brace =>
      dsimp only at h
      split at h
      · cases h
      · next closed =>
        have opening : s.source.isBoundary (p + 3) :=
          isBoundary_succ (p := p + 2) (c := '\x7b') (by simpa using brace) rfl
        have closing : s.charAt? (s.source.skipWhile s.limit isHexDigit (p + 3)) = some '\x7d' := by
          simp only [Bool.or_eq_true, not_or, bne_iff_ne, ne_eq, Decidable.not_not] at closed
          exact closed.2
        have le := Source.le_skipWhile s.source s.limit isHexDigit (p + 3)
        have behind := isBoundary_succ closing rfl
        obtain rfl := Option.some.inj h
        refine ⟨by dsimp only; omega, ?_, ?_⟩
        · dsimp only
          rwa [show p + (s.source.skipWhile s.limit isHexDigit (p + 3) + 1 - p) =
            s.source.skipWhile s.limit isHexDigit (p + 3) + 1 by omega]
        · exact Source.sliceable_of le opening (Source.isBoundary_skipWhile _ _ opening)
    · split at h
      · next letters _ digits =>
        have letter : s.charAt? (p + 1) = some 'u' := by
          simpa using (Bool.and_eq_true_iff.mp letters).2
        have first : s.source.isBoundary (p + 2) := isBoundary_succ letter rfl
        have last : s.source.isBoundary (p + 6) :=
          onward_hexDigits (p := p + 2) first
            (hexDigits_of_all (Bool.and_eq_true_iff.mp digits).2)
        obtain rfl := Option.some.inj h
        exact ⟨Nat.succ_pos 5, last, Source.sliceable_of (by dsimp only; omega) first last⟩
      · cases h
  · cases h

theorem unicodeEscape?_spec {length : Nat} (h : s.unicodeEscape? p = some (c, length)) :
    0 < length ∧ s.source.isBoundary (p + length) := by
  obtain ⟨e, he, rest⟩ := Option.bind_eq_some_iff.mp h
  obtain ⟨d, _, same⟩ := Option.bind_eq_some_iff.mp rest
  obtain ⟨rfl, rfl⟩ : d = c ∧ e.length = length := by simpa using same
  obtain ⟨positive, boundary, _⟩ := escapeAt?_spec he
  exact ⟨positive, boundary⟩

theorem onward_touchEscape (p : Nat) (s : Scanner) : Onward s (s.touchEscape p) := by
  simp only [touchEscape]
  split
  · next e found => exact onward_cut fun _ => (escapeAt?_spec found).2.2
  · exact .refl s

/-- Noting that an escape is read changes nothing that is looked at. -/
theorem touchEscape_eq (p : Nat) (s : Scanner) : ∃ ok, s.touchEscape p = s.check ok := by
  simp only [touchEscape]
  split
  · exact ⟨_, rfl⟩
  · exact ⟨true, by simp [check]⟩

theorem onward_takeParts (fuel : Nat) (s : Scanner) : Onward s (takeParts fuel s) := by
  induction fuel generalizing s with
  | zero => exact .refl s
  | succ fuel ih =>
    rw [takeParts]
    split
    · exact .refl s
    split
    · have touched := onward_touchEscape s.stop s
      obtain ⟨ok, same⟩ := touchEscape_eq s.stop s
      dsimp only
      split
      · next c length found =>
        split
        · refine touched.trans (.trans (Onward.moved _ _ _ _ fun _ => ?_) (ih _))
          rw [same] at found ⊢
          exact ⟨Nat.le_add_right _ _, (unicodeEscape?_spec found).2⟩
        · exact touched
      · exact touched
    · dsimp only
      split
      · next c hc =>
        split
        · refine (onward_touch_stop s).trans (.trans (Onward.moved _ _ _ _ fun _ => ?_) (ih _))
          exact ⟨Nat.le_add_right _ _, peek_boundary hc⟩
        · exact onward_touch_stop s
      · exact onward_touch_stop s

theorem onward_scanParts (s : Scanner) : Onward s s.scanParts := by
  have taken := onward_takeParts (s.limit - s.stop) s
  apply taken.cut
  intro hs
  obtain ⟨le, boundary⟩ := taken.forward hs.toStands
  exact Source.sliceable_of le hs.boundary boundary

/-- Where an identifier begins, its characters are taken. -/
theorem lt_scanParts (hs : s.Stands) (more : ¬ s.atEnd)
    (h : s.isIdentifierAt s.stop = true) : s.stop < s.scanParts.stop := by
  have below : s.stop < s.limit := by simpa [atEnd] using more
  obtain ⟨fuel, hfuel⟩ : ∃ n, s.limit - s.stop = n + 1 := ⟨s.limit - s.stop - 1, by omega⟩
  show s.stop < (takeParts (s.limit - s.stop) s).stop
  rw [hfuel, takeParts, if_neg more]
  simp only [isIdentifierAt] at h
  split at h
  · next slash =>
    obtain ⟨⟨c, length⟩, hc, hstart⟩ : ∃ e, s.unicodeEscape? s.stop = some e ∧
        isIdentifierStart e.1 := by simpa [Option.any_eq_true] using h
    obtain ⟨positive, hb⟩ := unicodeEscape?_spec hc
    obtain ⟨ok, same⟩ := touchEscape_eq s.stop s
    have found : (s.check ok).unicodeEscape? (s.check ok).stop = some (c, length) := hc
    rw [if_pos (by simpa [peek] using slash)]
    simp only [same, found, isIdentifierPart_of_isIdentifierStart hstart, if_true]
    have rest := (onward_takeParts fuel { s.check ok with
      stop := s.stop + length, value := s.value.push c
      flags := { s.flags with unicodeEscape := true } }).forward ⟨hs.whole, hb⟩
    exact Nat.lt_of_lt_of_le (Nat.lt_add_of_pos_right positive) rest.1
  · next slash =>
    obtain ⟨c, hc, hstart⟩ : ∃ c, s.charAt? s.stop = some c ∧ isIdentifierStart c := by
      simpa [Option.any_eq_true] using h
    have hpeek : s.peek 0 = some c := hc
    rw [if_neg (by simpa [peek] using slash)]
    simp only [peek_touch, hpeek, isIdentifierPart_of_isIdentifierStart hstart, if_true]
    have rest := (onward_takeParts fuel { s.touch s.stop with
      stop := (s.touch s.stop).stop + c.utf8Size
      value := (s.touch s.stop).value.push c }).forward ⟨hs.whole, peek_boundary hpeek⟩
    exact Nat.lt_of_lt_of_le (Nat.lt_add_of_pos_right c.utf8Size_pos) rest.1

theorem onward_scanIdentifier (s : Scanner) : Onward s s.scanIdentifier :=
  (onward_scanParts s).trans (Onward.marked _ _ _)

theorem onward_scanInvalidCharacter (s : Scanner) (h : s.Stands → ¬ s.atEnd) :
    Onward s s.scanInvalidCharacter := by
  have behind : s.Stands →
      s.source.isBoundary (s.stop + ((s.peek 0).map Char.utf8Size).getD 1) := by
    intro hs
    obtain ⟨c, hc⟩ := exists_peek hs (h hs)
    rw [hc]
    exact peek_boundary hc
  have taken : Onward s ((s.touch s.stop).take (((s.peek 0).map Char.utf8Size).getD 1) .unknown) :=
    (onward_touch_stop s).trans (onward_take _ fun hs => behind ⟨hs.whole, hs.boundary⟩)
  exact taken.report _ _ fun hs =>
    Source.sliceable_of (Nat.le_add_right _ _) hs.boundary (behind hs.toStands)

theorem lt_scanInvalidCharacter (s : Scanner) : s.stop < s.scanInvalidCharacter.stop := by
  have positive : 0 < ((s.peek 0).map Char.utf8Size).getD 1 := by
    cases s.peek 0 with
    | none => decide
    | some c => exact c.utf8Size_pos
  exact Nat.lt_add_of_pos_right positive

theorem onward_touchName (h : s.Begun → s.source.isBoundary p) : Onward s (s.touchName p) := by
  simp only [touchName]
  split
  · exact onward_touchEscape p s
  · exact onward_touch h

theorem touchName_eq (p : Nat) (s : Scanner) : ∃ ok, s.touchName p = s.check ok := by
  simp only [touchName]
  split
  · exact touchEscape_eq p s
  · exact ⟨_, rfl⟩

@[simp] theorem stop_touchName : (s.touchName p).stop = s.stop := by
  obtain ⟨ok, same⟩ := touchName_eq p s
  rw [same]
  rfl

@[simp] theorem charAt?_touchName {q : Nat} : (s.touchName p).charAt? q = s.charAt? q := by
  obtain ⟨ok, same⟩ := touchName_eq p s
  rw [same]
  rfl

@[simp] theorem isIdentifierAt_touchName {q : Nat} :
    (s.touchName p).isIdentifierAt q = s.isIdentifierAt q := by
  obtain ⟨ok, same⟩ := touchName_eq p s
  rw [same]
  rfl

end Scanner
end ScriptGrammar
