import ScriptGrammar.Lines
import ScriptGrammar.Proofs.Scanner.Searches

/-!
# Where lines begin

A line begins at the start of the text and behind every line terminator, and nowhere else. The
terminators are looked for in the bytes of the text. A byte that begins one begins a character, and
no character's bytes begin those of another, so they are found where the characters have them. The
search by halves finds the last line that begins at or before an offset, so one offset lies on a
later line than another just if a terminator ends between them.
-/

namespace ScriptGrammar

namespace Source

variable {src : Source} {p q r : Nat} {c : Char} {cs : List Char}

/-- A line terminator begins at `q` and ends at `r`. Of a carriage return and a line feed, only
the second one counts. -/
def TerminatorAt (src : Source) (q r : Nat) : Prop :=
  ∃ c, src.charAt? q = some c ∧ isLineBreak c ∧ r = q + c.utf8Size ∧
    (c = '\r' → src.charAt? (q + 1) ≠ some '\n')

theorem terminatorAt_iff (h : src.charAt? p = some c) :
    src.TerminatorAt p r ↔ isLineBreak c ∧ r = p + c.utf8Size ∧
      (c = '\r' → src.charAt? (p + 1) ≠ some '\n') := by
  constructor
  · rintro ⟨d, hd, rest⟩
    obtain rfl : c = d := Option.some.inj (h.symm.trans hd)
    exact rest
  · exact fun rest => ⟨c, h, rest⟩

/-- A terminator from a character on is that character, or comes behind it. -/
theorem exists_terminatorAt_iff (h : src.charAt? p = some c) :
    (∃ q, p ≤ q ∧ src.TerminatorAt q r) ↔
      src.TerminatorAt p r ∨ ∃ q, p + c.utf8Size ≤ q ∧ src.TerminatorAt q r := by
  have positive := c.utf8Size_pos
  constructor
  · rintro ⟨q, le, at_⟩
    obtain ⟨d, hd, _⟩ := id at_
    by_cases same : p = q
    · exact .inl (same ▸ at_)
    · exact .inr ⟨q, le_of_isBoundary h (by omega) (isBoundary_of_charAt? hd), at_⟩
  · rintro (at_ | ⟨q, le, at_⟩)
    · exact ⟨p, Nat.le_refl p, at_⟩
    · exact ⟨q, by omega, at_⟩

end Source

namespace Lines

open String (utf8EncodeChar)

variable {src : Source} {p q r pos : Nat} {c d : Char} {cs : List Char} {bs ds : List UInt8}

/-- The line starts that the characters from `pos` on add. -/
def startsAmong (pos : Nat) : List Char → List Nat
  | '\r' :: '\n' :: cs => (pos + 2) :: startsAmong (pos + 2) cs
  | c :: cs =>
    let next := pos + c.utf8Size
    if isLineBreak c then next :: startsAmong next cs else startsAmong next cs
  | [] => []

/-- No character's bytes begin those of another. -/
theorem eq_of_utf8EncodeChar_append (h : utf8EncodeChar c ++ bs = utf8EncodeChar d ++ ds) :
    c = d := by
  have read (c : Char) (bs : List UInt8) :
      (utf8EncodeChar c ++ bs).toByteArray.utf8DecodeChar? 0 = some c := by
    rw [List.toByteArray_append]
    exact ByteArray.utf8DecodeChar?_utf8EncodeChar_append
  exact Option.some.inj ((read c bs).symm.trans (h ▸ read d ds))

/-- Bytes inside a character begin no terminator. -/
theorem startsFrom_inside {is : List UInt8} (inside : ∀ i ∈ is, ¬ i.IsUTF8FirstByte) :
    startsFrom pos (is ++ bs) = startsFrom (pos + is.length) bs := by
  induction is generalizing pos with
  | nil => rfl
  | cons i is ih =>
    obtain ⟨here, later⟩ := List.forall_mem_cons.mp inside
    have no (b : UInt8) (first : b.IsUTF8FirstByte) : i ≠ b := fun same => here (same ▸ first)
    rw [List.cons_append, startsFrom.eq_6, ih later, List.length_cons, Nat.add_right_comm,
      Nat.add_assoc]
    · exact fun _ ret => absurd ret (no 0x0d (by decide))
    · exact no 0x0d (by decide)
    · exact no 0x0a (by decide)
    · exact fun _ mark => absurd mark (no 0xe2 (by decide))
    · exact fun _ mark => absurd mark (no 0xe2 (by decide))

/-- A character that ends no line is passed over. -/
theorem startsFrom_pass (calm : isLineBreak c = false) :
    startsFrom pos (utf8EncodeChar c ++ bs) = startsFrom (pos + c.utf8Size) bs := by
  have other (d : Char) (breaks : isLineBreak d = true) (ds : List UInt8) :
      utf8EncodeChar c ++ bs ≠ utf8EncodeChar d ++ ds := by
    intro same
    rw [eq_of_utf8EncodeChar_append same, breaks] at calm
    cases calm
  have inside (i : Nat) (b : UInt8) (at_ : (utf8EncodeChar c)[i + 1]? = some b) :
      ¬ b.IsUTF8FirstByte := by
    obtain ⟨hi, rfl⟩ := List.getElem?_eq_some_iff.mp at_
    exact fun first => Nat.succ_ne_zero i (UInt8.isUTF8FirstByte_getElem_utf8EncodeChar.mp first)
  have length := String.length_utf8EncodeChar c
  cases bytes : utf8EncodeChar c with
  | nil => exact absurd bytes String.utf8EncodeChar_ne_nil
  | cons lead is =>
    rw [bytes] at other inside length
    rw [← length, List.cons_append, startsFrom.eq_6, startsFrom_inside, List.length_cons,
      Nat.add_right_comm, Nat.add_assoc]
    · intro b found
      obtain ⟨i, at_⟩ := List.mem_iff_getElem?.mp found
      exact inside i b at_
    · exact fun ds ret _ => other '\r' rfl (is ++ bs) (congrArg (· :: (is ++ bs)) ret)
    · exact fun ret => other '\r' rfl (is ++ bs) (congrArg (· :: (is ++ bs)) ret)
    · exact fun feed => other '\n' rfl (is ++ bs) (congrArg (· :: (is ++ bs)) feed)
    · exact fun ds mark rest => other '\u2028' rfl ds (by rw [mark, List.cons_append, rest]; rfl)
    · exact fun ds mark rest => other '\u2029' rfl ds (by rw [mark, List.cons_append, rest]; rfl)

/-- Terminators are found in the bytes where they stand among the characters. -/
theorem startsFrom_eq (pos : Nat) (cs : List Char) :
    startsFrom pos (cs.flatMap utf8EncodeChar) = startsAmong pos cs := by
  fun_induction startsAmong pos cs with
  | case1 pos cs ih => exact congrArg (List.cons (pos + 2)) ih
  | case2 pos c cs single next line ih =>
    rw [← ih, List.flatMap_cons]
    have mark : ((c = '\n' ∨ c = '\r') ∨ c = '\u2028') ∨ c = '\u2029' := by
      simpa [isLineBreak] using line
    obtain ((rfl | rfl) | rfl) | rfl := mark
    · rfl
    · refine startsFrom.eq_2 _ _ fun ds feed => ?_
      cases cs with
      | nil => cases feed
      | cons d cs =>
        have same : utf8EncodeChar d ++ cs.flatMap utf8EncodeChar =
            utf8EncodeChar '\n' ++ ds := feed
        exact single cs rfl (by rw [eq_of_utf8EncodeChar_append same])
    · rfl
    · rfl
  | case3 pos c cs single next calm ih =>
    rw [List.flatMap_cons, startsFrom_pass (by simpa using calm), ih]
  | case4 pos => rfl

theorem starts_ofSource (src : Source) :
    (ofSource src).starts.toList = 0 :: startsAmong 0 src.text.toList := by
  have bytes : src.text.toByteArray = (src.text.toList.flatMap utf8EncodeChar).toByteArray :=
    String.utf8Encode_toList.symm
  rw [ofSource, bytes, List.data_toByteArray, startsFrom_eq]

/-- The starts that are found are the ends of terminators. -/
theorem mem_startsAmong (shows : src.Shows p cs) :
    r ∈ startsAmong p cs ↔ ∃ q, p ≤ q ∧ src.TerminatorAt q r := by
  fun_induction startsAmong p cs with
  | case1 p cs ih =>
    have feed := shows.behind
    have both : src.charAt? p = some '\r' := shows.charAt?
    have next : src.charAt? (p + 1) = some '\n' := feed.charAt?
    have first : (∃ q, p ≤ q ∧ src.TerminatorAt q r) ↔
        src.TerminatorAt p r ∨ ∃ q, p + 1 ≤ q ∧ src.TerminatorAt q r :=
      Source.exists_terminatorAt_iff both
    have second : (∃ q, p + 1 ≤ q ∧ src.TerminatorAt q r) ↔
        src.TerminatorAt (p + 1) r ∨ ∃ q, p + 2 ≤ q ∧ src.TerminatorAt q r :=
      Source.exists_terminatorAt_iff next
    -- The return is none, the feed behind it is one.
    have none : ¬ src.TerminatorAt p r := fun at_ =>
      ((Source.terminatorAt_iff both).mp at_).2.2 rfl next
    have one : src.TerminatorAt (p + 1) r ↔ r = p + 2 := by
      rw [Source.terminatorAt_iff next]
      exact ⟨fun at_ => at_.2.1, fun eq => ⟨rfl, eq, fun no => (nomatch no)⟩⟩
    rw [first, second, one, List.mem_cons, ih feed.behind, or_iff_right none]
  | case2 p c cs single next line ih =>
    have here : src.charAt? p = some c := shows.charAt?
    have alone : c = '\r' → src.charAt? (p + 1) ≠ some '\n' := by
      rintro rfl feed
      have head : src.charAt? (p + 1) = cs.head? := shows.behind.charAt?
      rw [feed] at head
      cases cs with
      | nil => cases head
      | cons d ds => exact single ds rfl (by rw [← Option.some.inj head])
    rw [Source.exists_terminatorAt_iff here, List.mem_cons, ih shows.behind,
      Source.terminatorAt_iff here]
    exact or_congr_left ⟨fun eq => ⟨line, eq, alone⟩, fun at_ => at_.2.1⟩
  | case3 p c cs single next line ih =>
    have here : src.charAt? p = some c := shows.charAt?
    rw [Source.exists_terminatorAt_iff here, ih shows.behind]
    exact (or_iff_right fun at_ => line ((Source.terminatorAt_iff here).mp at_).1).symm
  | case4 p =>
    refine ⟨fun no => (nomatch no), ?_⟩
    rintro ⟨q, le, c, here, _⟩
    have none := shows.left
    have below := Source.charAt?_lt here
    simp only [layout, List.length_nil] at none
    omega

/-- A line begins at the start of the text and where a terminator ends. -/
theorem mem_starts (src : Source) :
    r ∈ (ofSource src).starts.toList ↔ r = 0 ∨ ∃ q, src.TerminatorAt q r := by
  have shows : src.Shows 0 src.text.toList := src.cells_eq
  rw [starts_ofSource, List.mem_cons, mem_startsAmong shows]
  simp only [Nat.zero_le, true_and]

/-- Line starts come in order, all of them behind the offset they are looked for from. -/
theorem startsAmong_sorted (p : Nat) (cs : List Char) :
    (∀ r ∈ startsAmong p cs, p < r) ∧ (startsAmong p cs).Pairwise (· < ·) := by
  have past {p n : Nat} {cs : List Char} (positive : 0 < n)
      (later : ∀ r ∈ startsAmong (p + n) cs, p + n < r) : ∀ r ∈ startsAmong (p + n) cs, p < r :=
    fun r hr => Nat.lt_trans (Nat.lt_add_of_pos_right positive) (later r hr)
  fun_induction startsAmong p cs with
  | case1 p cs ih =>
    obtain ⟨later, sorted⟩ := ih
    exact ⟨List.forall_mem_cons.mpr ⟨by omega, past Nat.two_pos later⟩,
      List.pairwise_cons.mpr ⟨later, sorted⟩⟩
  | case2 p c cs _ next line ih =>
    obtain ⟨later, sorted⟩ := ih
    have positive := c.utf8Size_pos
    exact ⟨List.forall_mem_cons.mpr ⟨Nat.lt_add_of_pos_right positive, past positive later⟩,
      List.pairwise_cons.mpr ⟨later, sorted⟩⟩
  | case3 p c cs _ next line ih => exact ⟨past c.utf8Size_pos ih.1, ih.2⟩
  | case4 => exact ⟨fun r no => (nomatch no), .nil⟩

/-- Line starts, the first of them 0, in order. -/
structure Sorted (l : Lines) : Prop where
  first : l.start 0 = 0
  positive : 0 < l.count
  ordered : ∀ i j, i < j → j < l.count → l.start i < l.start j

/-- `i` is the last line that begins at or before `pos`. -/
structure LastAt (l : Lines) (pos i : Nat) : Prop where
  lt : i < l.count
  le : l.start i ≤ pos
  next : ∀ j, i < j → j < l.count → pos < l.start j

theorem lastAt_bisect {l : Lines} (sorted : l.Sorted) {pos fuel lo hi : Nat} (lt : lo < hi)
    (le : hi ≤ l.count) (below : l.start lo ≤ pos)
    (above : ∀ j, hi ≤ j → j < l.count → pos < l.start j) (room : hi - lo ≤ fuel + 1) :
    l.LastAt pos (l.bisect pos fuel lo hi) := by
  induction fuel generalizing lo hi with
  | zero =>
    rw [bisect]
    exact ⟨by omega, below, fun j hj => above j (by omega)⟩
  | succ fuel ih =>
    rw [bisect]
    split
    · exact ⟨by omega, below, fun j hj => above j (by omega)⟩
    · dsimp only
      split
      · next low => exact ih (by omega) le low above (by omega)
      · next high =>
        refine ih (by omega) (by omega) below (fun j from_ hj => ?_) (by omega)
        by_cases middle : j = (lo + hi) / 2
        · rw [middle]
          omega
        · have := sorted.ordered ((lo + hi) / 2) j (by omega) hj
          omega

theorem Sorted.lastAt {l : Lines} (sorted : l.Sorted) (pos : Nat) : l.LastAt pos (l.lineOf pos) :=
  lastAt_bisect sorted sorted.positive (Nat.le_refl _) (by rw [sorted.first]; exact Nat.zero_le _)
    (fun j from_ hj => by omega) (by omega)

theorem start_eq {l : Lines} {i : Nat} (lt : i < l.starts.toList.length) :
    l.start i = l.starts.toList[i] := by
  rw [start, Array.getD_eq_getD_getElem?, ← Array.getElem?_toList, List.getElem?_eq_getElem lt]
  rfl

theorem pairwise_starts (src : Source) : (ofSource src).starts.toList.Pairwise (· < ·) := by
  obtain ⟨later, sorted⟩ := startsAmong_sorted 0 src.text.toList
  rw [starts_ofSource]
  exact List.pairwise_cons.mpr ⟨later, sorted⟩

theorem sorted_ofSource (src : Source) : (ofSource src).Sorted := by
  refine ⟨rfl, Nat.succ_pos _, fun i j lt hj => ?_⟩
  rw [start_eq hj, start_eq (Nat.lt_trans lt hj)]
  exact List.pairwise_iff_getElem.mp (pairwise_starts src) i j (Nat.lt_trans lt hj) hj lt

/-- An offset lies on a later line just if a line begins between the two. -/
theorem Sorted.lineOf_lt_iff {l : Lines} (sorted : l.Sorted) (a b : Nat) :
    l.lineOf a < l.lineOf b ↔ ∃ i, i < l.count ∧ a < l.start i ∧ l.start i ≤ b := by
  have first := sorted.lastAt a
  have second := sorted.lastAt b
  constructor
  · intro lt
    exact ⟨l.lineOf b, second.lt, first.next _ lt second.lt, second.le⟩
  · rintro ⟨i, hi, after, before⟩
    have le : i ≤ l.lineOf b := by
      by_cases later : l.lineOf b < i
      · have := second.next i later hi
        omega
      · omega
    have lt : l.lineOf a < i := by
      by_cases later : l.lineOf a < i
      · exact later
      · have before : l.start i ≤ l.start (l.lineOf a) := by
          by_cases same : i = l.lineOf a
          · exact Nat.le_of_eq (congrArg l.start same)
          · exact Nat.le_of_lt (sorted.ordered i _ (by omega) first.lt)
        have := first.le
        omega
    omega

/-- An offset lies on a later line than another just if a terminator ends between them. -/
theorem lineOf_lt_iff (src : Source) (a b : Nat) :
    (ofSource src).lineOf a < (ofSource src).lineOf b ↔
      ∃ q r, src.TerminatorAt q r ∧ a < r ∧ r ≤ b := by
  rw [(sorted_ofSource src).lineOf_lt_iff]
  constructor
  · rintro ⟨i, hi, after, before⟩
    have among := List.getElem_mem (l := (ofSource src).starts.toList) hi
    rw [← start_eq hi, mem_starts] at among
    rcases among with first | ⟨q, at_⟩
    · omega
    · exact ⟨q, _, at_, after, before⟩
  · rintro ⟨q, r, at_, after, before⟩
    obtain ⟨i, hi, same⟩ := List.mem_iff_getElem.mp ((mem_starts src).mpr (.inr ⟨q, at_⟩))
    refine ⟨i, hi, ?_⟩
    rw [start_eq hi, same]
    exact ⟨after, before⟩

/-- The last line that begins at or before an offset comes behind all others that do. -/
theorem LastAt.countP {l : Lines} {pos i : Nat} (sorted : l.Sorted) (last : l.LastAt pos i) :
    l.starts.toList.countP (· ≤ pos) = i + 1 := by
  have hi : i < l.starts.toList.length := last.lt
  have within : ∀ r ∈ l.starts.toList.take (i + 1), r ≤ pos := by
    intro r found
    obtain ⟨j, hj, rfl⟩ := List.mem_take_iff_getElem.mp found
    rw [← start_eq]
    by_cases same : j = i
    · exact same ▸ last.le
    · exact Nat.le_trans (Nat.le_of_lt (sorted.ordered j i (by omega) last.lt)) last.le
  have beyond : ∀ r ∈ l.starts.toList.drop (i + 1), pos < r := by
    intro r found
    obtain ⟨j, hj, rfl⟩ := List.mem_drop_iff_getElem.mp found
    rw [← start_eq]
    exact last.next _ (by omega) (by rwa [Nat.add_comm] at hj)
  calc l.starts.toList.countP (· ≤ pos)
      = (l.starts.toList.take (i + 1)).countP (· ≤ pos) +
          (l.starts.toList.drop (i + 1)).countP (· ≤ pos) := by
        rw [← List.countP_append, List.take_append_drop]
    _ = (l.starts.toList.take (i + 1)).length + 0 := by
        rw [List.countP_eq_length.mpr (by simpa using within),
          List.countP_eq_zero.mpr (by simpa using beyond)]
    _ = i + 1 := by
        rw [List.length_take]
        omega

/-- The line starts are 0 and, in order, the ends of the line terminators, none of them past the
text. Every offset, past the text or not, lies on the last line that begins at or before it, as
many lines beginning there, and its column is what is left; lines do not fall as offsets rise. -/
theorem ofSource_exact (src : Source) :
    let l := ofSource src
    ((∃ ends, l.starts.toList = 0 :: ends ∧ ∀ r, r ∈ ends ↔ ∃ q, src.TerminatorAt q r) ∧
      l.starts.toList.Pairwise (· < ·) ∧ ∀ r ∈ l.starts.toList, r ≤ src.size) ∧
    (∀ pos, l.lineOf pos + 1 = l.starts.toList.countP (· ≤ pos) ∧
      l.lineOf pos < l.count ∧ l.start (l.lineOf pos) ≤ pos ∧
      (l.lineOf pos + 1 < l.count → pos < l.start (l.lineOf pos + 1)) ∧
      l.start (l.lineOf pos) + l.columnOf pos = pos) ∧
    ∀ a b, a ≤ b → l.lineOf a ≤ l.lineOf b := by
  have sorted := sorted_ofSource src
  refine ⟨⟨⟨startsAmong 0 src.text.toList, starts_ofSource src, fun r => ?_⟩,
    pairwise_starts src, fun r found => ?_⟩, fun pos => ?_, fun a b le => ?_⟩
  · have shows : src.Shows 0 src.text.toList := src.cells_eq
    rw [mem_startsAmong shows]
    simp only [Nat.zero_le, true_and]
  · rcases (mem_starts src).mp found with rfl | ⟨q, c, here, _, rfl, _⟩
    · exact Nat.zero_le _
    · exact Source.le_size_of_isBoundary (Source.isBoundary_next here)
  · have last := sorted.lastAt pos
    exact ⟨(last.countP sorted).symm, last.lt, last.le, last.next _ (Nat.lt_succ_self _),
      Nat.add_sub_cancel' last.le⟩
  · refine Nat.le_of_not_lt fun later => ?_
    obtain ⟨i, hi, after, before⟩ := (sorted.lineOf_lt_iff b a).mp later
    omega

/-- Of the three bytes of an ellipsis the first two are those of a line separator. -/
example : (ofSource (.ofString "\r\r\n\u2026\u2028")).starts.toList = [0, 1, 3, 9] := by
  decide +kernel

end Lines
end ScriptGrammar
