import ScriptGrammar.Proofs.Scanner.Branches

/-!
# Trivia, numbers, strings and templates

Each part of the scanner goes onward, and those that begin a token or a run of trivia take
something.
-/

namespace ScriptGrammar.Scanner

variable {s : Scanner} {c : Char}

theorem onward_markLineBreak (s : Scanner) : Onward s s.markLineBreak := Onward.marked _ _ _

theorem onward_scanLineBreak {n : Nat} (h : s.source.isBoundary (s.stop + n)) :
    Onward s (s.scanLineBreak n) :=
  (onward_take _ fun _ => h).trans (onward_markLineBreak _)

theorem onward_scanBlanks (s : Scanner) : Onward s s.scanBlanks := by
  refine (onward_touch_stop s).trans (Onward.moved _ _ _ _ fun hs => ?_)
  exact ⟨Source.le_skipWhile _ _ _ _, Source.isBoundary_skipWhile _ _ hs.boundary⟩

theorem lt_scanBlanks (h : s.peek 0 = some c) (blank : isBlank c) :
    s.stop < s.scanBlanks.stop := by
  obtain ⟨below, hc⟩ := charAt?_eq_some.mp h
  exact Source.lt_skipWhile hc below blank

theorem onward_scanLineComment (h : s.stop + 2 ≤ s.limit) : Onward s s.scanLineComment := by
  refine .trans (onward_check fun _ => decide_eq_true h) (Onward.moved _ _ _ _ fun hs => ?_)
  obtain ⟨le, hb⟩ := lineEnd_spec (s := s) ⟨hs.whole, hs.boundary⟩ h
  exact ⟨Nat.le_of_succ_le (Nat.le_of_succ_le le), hb⟩

theorem lt_scanLineComment (hs : s.Stands) (h : s.stop + 2 ≤ s.limit) :
    s.stop < s.scanLineComment.stop := by
  have le := (lineEnd_spec hs h).1
  exact Nat.lt_of_lt_of_le (by omega) le

theorem commentEnd?_spec {p q : Nat} (h : s.commentEnd? p = some q) :
    p ≤ q ∧ s.source.isBoundary (q + 2) := by
  obtain ⟨le, _, found⟩ := Source.seek_spec h
  have slash : s.charAt? (q + 1) = some '/' := by simpa using (Bool.and_eq_true_iff.mp found).2
  exact ⟨le, isBoundary_succ slash rfl⟩

theorem scanBlockComment_spec (h : s.stop + 2 ≤ s.limit) :
    Onward s s.scanBlockComment ∧ s.stop < s.scanBlockComment.stop := by
  have room := onward_check (s := s) fun _ => decide_eq_true h
  have closes := closes_scanBlockComment s
  generalize s.scanBlockComment = t at closes ⊢
  cases closes with
  | closed doc found =>
    obtain ⟨le, boundary⟩ := commentEnd?_spec found
    have past : s.stop < _ + 2 := Nat.lt_of_lt_of_le (Nat.lt_add_of_pos_right Nat.two_pos)
      (Nat.le_trans le (Nat.le_add_right _ 2))
    exact ⟨room.trans (Onward.moved _ _ _ _ fun _ => ⟨Nat.le_of_lt past, boundary⟩), past⟩
  | unclosed doc none =>
    have limit {u : Scanner} (hs : u.Stands) : u.stop ≤ u.limit ∧ u.source.isBoundary u.limit :=
      ⟨stop_le_limit hs, isBoundary_limit hs⟩
    refine ⟨room.trans (Onward.report (.moved _ _ _ _ fun hs => limit hs) _ _ fun hs => ?_), ?_⟩
    · have last := isBoundary_limit hs.toStands
      exact Source.sliceable_of (Nat.le_refl _) last last
    · exact Nat.lt_of_lt_of_le (Nat.lt_add_of_pos_right Nat.two_pos) h

theorem conflictEnd_spec (hs : s.Stands) (hc : s.peek 0 = some c)
    (marker : c = '<' ∨ c = '=' ∨ c = '>' ∨ c = '|') :
    s.stop < s.conflictEnd ∧ s.source.isBoundary s.conflictEnd := by
  have here : s.charAt? s.stop = some c := hc
  have below := (charAt?_eq_some.mp here).1
  simp only [conflictEnd]
  split
  · have plain : isLineBreak c = false := by rcases marker with rfl | rfl | rfl | rfl <;> decide
    exact ⟨lt_lineEnd here plain, (lineEnd_spec hs (Nat.le_of_lt below)).2⟩
  · cases found : Source.seek s.limit _ (s.limit - s.stop) s.stop with
    | none => exact ⟨below, isBoundary_limit hs⟩
    | some q =>
      obtain ⟨le, _, hq⟩ := Source.seek_spec found
      simp only [Bool.and_eq_true, Bool.or_eq_true, beq_iff_eq, bne_iff_ne] at hq
      obtain ⟨⟨hd, differ⟩, _⟩ := hq
      have apart : s.stop ≠ q := by rintro rfl; exact differ rfl
      refine ⟨Nat.lt_of_le_of_ne le apart, ?_⟩
      rcases hd with hd | hd
      · exact Source.isBoundary_of_charAt? (charAt?_eq_some.mp hd).2
      · exact Source.isBoundary_of_charAt? (charAt?_eq_some.mp hd).2

/-- The seven characters of a marker are equal. -/
theorem charAt?_of_isConflictMarker {p : Nat} (h : s.isConflictMarker p) :
    ∀ i < 7, s.charAt? (p + i) = s.charAt? p := by
  simp only [isConflictMarker, Bool.and_eq_true] at h
  intro i hi
  exact eq_of_beq (List.all_eq_true.mp h.1.2 i (List.mem_range.mpr hi))

/-- The seven characters of a marker have one byte each. -/
theorem isBoundary_marker {p : Nat} (hc : s.charAt? p = some c) (thin : c.utf8Size = 1)
    (h : s.isConflictMarker p) : s.source.isBoundary (p + markerLength) :=
  isBoundary_succ ((charAt?_of_isConflictMarker h 6 (by decide)).trans hc) thin

theorem onward_scanConflictMarker (hc : s.peek 0 = some c)
    (marker : c = '<' ∨ c = '=' ∨ c = '>' ∨ c = '|') (h : s.isConflictMarker s.stop) :
    Onward s s.scanConflictMarker := by
  have thin : c.utf8Size = 1 := by rcases marker with rfl | rfl | rfl | rfl <;> rfl
  have behind := isBoundary_marker hc thin h
  refine .trans ((Onward.refl s).report _ _ fun hs => ?_) (Onward.moved _ _ _ _ fun hs => ?_)
  · exact Source.sliceable_of (Nat.le_add_right _ _) hs.boundary behind
  · obtain ⟨lt, hb⟩ := conflictEnd_spec (s := s) ⟨hs.whole, hs.boundary⟩ hc marker
    exact ⟨Nat.le_of_lt lt, hb⟩

theorem isBoundary_lineBreak (here : s.peek 0 = some c) : s.source.isBoundary
    (s.stop + (if c == '\r' && s.peek 1 == some '\n' then 2 else c.utf8Size)) := by
  split
  · next pair =>
    have feed : s.charAt? (s.stop + 1) = some '\n' := by
      simpa [peek] using (Bool.and_eq_true_iff.mp pair).2
    exact isBoundary_succ feed rfl
  · exact peek_boundary here

theorem lineBreak_pos (pair : Bool) (c : Char) : 0 < if pair then 2 else c.utf8Size := by
  split
  · exact Nat.two_pos
  · exact c.utf8Size_pos

/-- A run of trivia goes onward and is not empty; no trivia leaves the cursor where it is. -/
theorem scanTrivia_spec (s : Scanner) :
    Onward s s.scanTrivia.2 ∧
      (s.scanTrivia.1 = true → s.Stands → s.stop < s.scanTrivia.2.stop) ∧
      (s.scanTrivia.1 = false → s.scanTrivia.2.stop = s.stop) := by
  have tries := tries_scanTrivia s
  generalize s.scanTrivia = r at tries ⊢
  cases tries with
  | lineBreak c touched here line =>
    have onward := touched.onward
    obtain ⟨ok, rfl⟩ := touched.check
    exact ⟨onward.trans (onward_scanLineBreak (isBoundary_lineBreak here)),
      fun _ _ => Nat.lt_add_of_pos_right (lineBreak_pos _ c), nofun⟩
  | blanks c touched here blank =>
    have onward := touched.onward
    obtain ⟨ok, rfl⟩ := touched.check
    exact ⟨onward.trans (onward_scanBlanks _),
      fun _ _ => lt_scanBlanks (s := s.check ok) here blank, nofun⟩
  | script first here next =>
    have here : s.charAt? s.stop = some '#' := here
    refine ⟨Onward.moved _ _ _ _ fun hs => ?_, fun _ _ => lt_lineEnd here (by decide), nofun⟩
    exact lineEnd_spec hs (Nat.le_of_lt (charAt?_eq_some.mp here).1)
  | lineComment here next =>
    have room : s.stop + 2 ≤ s.limit := peek_lt next
    exact ⟨onward_scanLineComment room, fun _ hs => lt_scanLineComment hs room, nofun⟩
  | blockComment here next =>
    obtain ⟨onward, lt⟩ := scanBlockComment_spec (peek_lt next)
    exact ⟨onward, fun _ _ => lt, nofun⟩
  | marker c here sign marks =>
    have sign : c = '<' ∨ c = '=' ∨ c = '>' ∨ c = '|' := by simpa using sign
    exact ⟨(onward_scanConflictMarker here sign marks).trans (onward_markLineBreak _),
      fun _ hs => (conflictEnd_spec hs here sign).1, nofun⟩
  | solid c touched here solid =>
    exact ⟨touched.onward, nofun, fun _ => touched.stop⟩
  | ended touched here => exact ⟨touched.onward, nofun, fun _ => touched.stop⟩

theorem onward_takeDigits {isDigit : Char → Bool} (thin : ∀ c, isDigit c → c.utf8Size = 1)
    (fuel : Nat) (run : DigitRun) (s : Scanner) : Onward s (takeDigits isDigit fuel run s).2 := by
  induction fuel generalizing run s with
  | zero => exact .refl s
  | succ fuel ih =>
    rw [takeDigits]
    split
    · exact .refl s
    · next h =>
      have behind : s.source.isBoundary (s.stop + 1) := isBoundary_succ h rfl
      have past (f : TokenFlags) : Onward s { s with stop := s.stop + 1, flags := f } :=
        Onward.moved _ _ _ f fun _ => ⟨Nat.le_succ _, behind⟩
      have here : s.Begun → s.source.sliceable s.stop (s.stop + 1) := fun hs =>
        Source.sliceable_of (Nat.le_succ _) hs.boundary behind
      split
      · exact (past _).trans (ih _ _)
      · split
        · exact ((past _).report _ _ here).trans (ih _ _)
        · exact ((past _).report _ _ here).trans (ih _ _)
    · next c _ h =>
      split
      · next digit =>
        refine .trans (Onward.moved _ _ _ _ fun _ => ?_) (ih _ _)
        exact ⟨Nat.le_succ _, isBoundary_succ h (thin c digit)⟩
      · exact .refl s

/-- The byte before the cursor is a character. -/
def BehindByte (s : Scanner) : Prop := 0 < s.stop ∧ s.source.isBoundary (s.stop - 1)

/-- Where digits end with a separator, the cursor is behind it. -/
theorem behindByte_takeDigits (isDigit : Char → Bool) (fuel : Nat) (run : DigitRun) (s : Scanner)
    (h : run.afterSeparator → s.BehindByte) :
    (takeDigits isDigit fuel run s).1.afterSeparator →
      (takeDigits isDigit fuel run s).2.BehindByte := by
  induction fuel generalizing run s with
  | zero => exact h
  | succ fuel ih =>
    rw [takeDigits]
    split
    · exact h
    · next separator =>
      have behind (f : TokenFlags) (d : Diagnostics) :
          BehindByte { s with stop := s.stop + 1, flags := f, pending := d } :=
        ⟨Nat.succ_pos _, Source.isBoundary_of_charAt? (charAt?_eq_some.mp separator).2⟩
      split
      · exact ih _ _ fun _ => behind _ _
      · split
        · exact ih _ _ fun _ => behind _ _
        · exact ih _ _ fun _ => behind _ _
    · split
      · exact ih _ _ fun no => (nomatch no)
      · exact h

theorem onward_scanDigits {isDigit : Char → Bool} (thin : ∀ c, isDigit c → c.utf8Size = 1)
    (s : Scanner) : Onward s (s.scanDigits isDigit).2 := by
  have taken := onward_takeDigits thin (s.limit - s.stop) {} s
  have behind := behindByte_takeDigits isDigit (s.limit - s.stop) {} s fun no => (nomatch no)
  simp only [scanDigits]
  split
  · next separated =>
    obtain ⟨_, before⟩ := behind separated
    refine taken.report _ _ fun hs => ?_
    rw [taken.source] at before
    exact Source.sliceable_of (Nat.sub_le _ _) before (taken.forward hs.toStands).2
  · exact taken

theorem lt_scanDigits {isDigit : Char → Bool} (thin : ∀ c, isDigit c → c.utf8Size = 1)
    (hs : s.Stands) (h : s.peek 0 = some c) (digit : isDigit c) (word : c ≠ '_') :
    s.stop < (s.scanDigits isDigit).2.stop := by
  have below := peek_lt h
  obtain ⟨fuel, hfuel⟩ : ∃ n, s.limit - s.stop = n + 1 := ⟨s.limit - s.stop - 1, by omega⟩
  have first : takeDigits isDigit (fuel + 1) {} s = takeDigits isDigit fuel
      { separatorAllowed := true, afterSeparator := false, any := true }
      { s with stop := s.stop + 1 } := by
    rw [takeDigits, h]
    split
    · simp at *
    · next heq => exact absurd (Option.some.inj heq) word
    · next heq => obtain rfl := Option.some.inj heq; rw [if_pos digit]
  have rest := (onward_takeDigits thin fuel
    { separatorAllowed := true, afterSeparator := false, any := true }
    { s with stop := s.stop + 1 }).forward ⟨hs.whole, isBoundary_succ h (thin c digit)⟩
  have past : s.stop < (takeDigits isDigit (s.limit - s.stop) {} s).2.stop := by
    rw [hfuel, first]
    exact rest.1
  simp only [scanDigits]
  split
  · exact past
  · exact past

theorem onward_checkNumberEnd (s : Scanner) : Onward s s.checkNumberEnd := by
  have touched := onward_touch_stop s
  simp only [checkNumberEnd]
  split
  · have word := onward_scanParts (s.touch s.stop)
    have back : Onward (s.touch s.stop)
        { s.touch s.stop with torn := (s.touch s.stop).scanParts.torn } :=
      ⟨rfl, rfl, rfl, rfl, rfl, fun hs => ⟨Nat.le_refl _, hs.boundary⟩,
        fun hs => ⟨(word.clean hs).1, .refl _ _⟩⟩
    refine touched.trans (back.report _ _ fun hs => ?_)
    obtain ⟨le, boundary⟩ := word.forward hs.toStands
    exact Source.sliceable_of le hs.boundary boundary
  · exact touched

theorem onward_finishNumber (allowed : Bool) (s : Scanner) : Onward s (s.finishNumber allowed) := by
  simp only [finishNumber]
  split
  · next h =>
    have suffix : s.peek 0 = some 'n' := by simpa using (Bool.and_eq_true_iff.mp h).2
    exact (onward_take _ fun _ => isBoundary_succ suffix rfl).trans
      ((onward_setValue _).trans (onward_checkNumberEnd _))
  · exact (onward_take _ fun hs => hs.boundary).trans
      ((onward_setValue _).trans (onward_checkNumberEnd _))

theorem onward_scanRadix {isDigit : Char → Bool} (thin : ∀ c, isDigit c → c.utf8Size = 1)
    (missing : Message) (s : Scanner) :
    Onward { s with stop := s.stop + 2 } (s.scanRadix isDigit missing) := by
  have digits := onward_scanDigits thin { s with stop := s.stop + 2 }
  simp only [scanRadix]
  split
  · next t heq =>
    rw [heq] at digits
    exact digits.trans (onward_finishNumber _ _)
  · next t heq =>
    rw [heq] at digits
    exact digits.trans ((onward_report_stop _ _ _).trans (onward_finishNumber _ _))

theorem onward_scanFraction (s : Scanner) : Onward s s.scanFraction.2 := by
  simp only [scanFraction]
  split
  · next h =>
    have point : s.peek 0 = some '.' := by simpa using h
    exact .trans (Onward.moved _ _ _ _ fun _ => ⟨Nat.le_succ _, isBoundary_succ point rfl⟩)
      (onward_scanDigits (fun _ => utf8Size_of_isDigit) _)
  · exact .refl s

/-- A character known to be one of two single bytes can be passed. -/
theorem isBoundary_either {a b : Char} (h : (s.peek 0 == some a || s.peek 0 == some b) = true)
    (ha : a.utf8Size = 1) (hb : b.utf8Size = 1) : s.source.isBoundary (s.stop + 1) := by
  rcases Bool.or_eq_true_iff.mp h with h | h
  · exact isBoundary_succ (p := s.stop) (c := a) (by simpa [peek] using h) ha
  · exact isBoundary_succ (p := s.stop) (c := b) (by simpa [peek] using h) hb

theorem onward_skipSign (s : Scanner) : Onward s s.skipSign := by
  simp only [skipSign]
  split
  · next h =>
    exact Onward.moved _ _ _ _ fun _ => ⟨Nat.le_succ _, isBoundary_either h rfl rfl⟩
  · exact .refl s

theorem onward_scanExponent (s : Scanner) : Onward s s.scanExponent.2 := by
  unfold scanExponent
  split
  · next h =>
    dsimp only
    have past : Onward s
        { s with stop := s.stop + 1, flags := { s.flags with scientific := true } } :=
      Onward.moved _ _ _ _ fun _ => ⟨Nat.le_succ _, isBoundary_either h rfl rfl⟩
    have digits := past.trans
      ((onward_skipSign _).trans (onward_scanDigits (fun _ => utf8Size_of_isDigit) _))
    split
    · next u heq => rw [heq] at digits; exact digits
    · next u heq => rw [heq] at digits; exact digits.trans (onward_report_stop _ _ _)
  · exact .refl s

/-- The digits before a point, if the number does not begin with one. -/
theorem onward_wholePart (s : Scanner) :
    Onward s (if (s.peek 0 == some '.') = true then s else (s.scanDigits Char.isDigit).2) := by
  split
  · exact .refl s
  · exact onward_scanDigits (fun _ => utf8Size_of_isDigit) s

theorem onward_numberTail (s : Scanner) (allowed : Bool) :
    Onward s (s.scanExponent.2.finishNumber allowed) :=
  (onward_scanExponent s).trans (onward_finishNumber _ _)

theorem onward_scanDecimal (s : Scanner) : Onward s s.scanDecimal :=
  (onward_wholePart s).trans ((onward_scanFraction _).trans (onward_numberTail _ _))

theorem lt_scanFraction (hs : s.Stands) (h : s.peek 0 = some '.') :
    s.stop < s.scanFraction.2.stop := by
  have digits (d : Scanner) : Onward d (d.scanDigits Char.isDigit).2 :=
    onward_scanDigits (fun _ => utf8Size_of_isDigit) d
  simp only [scanFraction]
  rw [if_pos (by simp [h])]
  exact ((digits { s with stop := s.stop + 1 }).forward ⟨hs.whole, isBoundary_succ h rfl⟩).1

theorem lt_scanDecimal (hs : s.Stands) (h : s.peek 0 = some c) (number : c.isDigit ∨ c = '.') :
    s.stop < s.scanDecimal.stop := by
  simp only [scanDecimal]
  rcases number with digit | rfl
  · have word : c ≠ '_' := by rintro rfl; simp at digit
    have plain : ¬ (s.peek 0 == some '.') = true := by
      rw [h]
      simp only [beq_iff_eq, Option.some.injEq]
      rintro rfl
      simp at digit
    rw [if_neg plain]
    have taken := lt_scanDigits (fun _ => utf8Size_of_isDigit) hs h digit word
    have stands := (onward_scanDigits (fun _ => utf8Size_of_isDigit) s).stands hs
    have fraction := onward_scanFraction (s.scanDigits Char.isDigit).2
    exact Nat.lt_of_lt_of_le taken ((fraction.trans (onward_numberTail _ _)).forward stands).1
  · rw [if_pos (by simp [h])]
    have stands := (onward_scanFraction s).stands hs
    exact Nat.lt_of_lt_of_le (lt_scanFraction hs h) ((onward_numberTail _ _).forward stands).1

theorem scanLeadingZero_spec (h : s.peek 0 = some '0') :
    Onward s s.scanLeadingZero ∧ (s.Stands → s.stop < s.scanLeadingZero.stop) := by
  have past := isBoundary_succ (p := s.stop) h rfl
  have le := Source.le_skipWhile s.source s.limit Char.isDigit (s.stop + 1)
  simp only [scanLeadingZero]
  split
  · have onward : Onward { s with
        stop := s.source.skipWhile s.limit Char.isDigit (s.stop + 1), kind := .numericLiteral
        flags := { s.flags with octal := true } } _ :=
      (onward_setValue _).trans (onward_checkNumberEnd _)
    have hb := Source.isBoundary_skipWhile s.limit Char.isDigit past
    refine ⟨.trans (Onward.moved _ _ _ _ fun _ => ⟨by omega, hb⟩) onward, fun hs => ?_⟩
    exact Nat.lt_of_lt_of_le le (onward.forward ⟨hs.whole, hb⟩).1
  · refine ⟨.trans (Onward.marked _ _ _) (onward_scanDecimal _), fun hs => ?_⟩
    have zero := lt_scanDecimal
      (s := { s with flags := { s.flags with containsLeadingZero := true } })
      ⟨hs.whole, hs.boundary⟩ h (.inl (by decide))
    exact zero

theorem scanNumber_spec (h : s.peek 0 = some c) (number : c.isDigit ∨ c = '.') :
    Onward s s.scanNumber ∧ (s.Stands → s.stop < s.scanNumber.stop) := by
  have radix : ∀ (f : TokenFlags) {isDigit : Char → Bool} (missing : Message) {d : Char},
      (∀ c, isDigit c → c.utf8Size = 1) → s.peek 1 = some d → d.utf8Size = 1 →
      Onward s (({ s with flags := f }).scanRadix isDigit missing) ∧
        (s.Stands → s.stop < (({ s with flags := f }).scanRadix isDigit missing).stop) := by
    intro f isDigit missing d thin hd hthin
    have onward := onward_scanRadix thin missing { s with flags := f }
    have hb : s.source.isBoundary (s.stop + 2) := isBoundary_succ (p := s.stop + 1) hd hthin
    refine ⟨.trans (Onward.moved _ _ _ f fun _ => ⟨Nat.le_add_right _ 2, hb⟩) onward,
      fun hs => ?_⟩
    exact Nat.lt_of_lt_of_le (by simp) (onward.forward ⟨hs.whole, hb⟩).1
  simp only [scanNumber]
  split
  · next zero =>
    obtain rfl : c = '0' := by simpa [h] using zero
    split
    · next hd => exact radix _ _ (fun _ => utf8Size_of_isHexDigit) hd rfl
    · next hd => exact radix _ _ (fun _ => utf8Size_of_isHexDigit) hd rfl
    · next hd => exact radix _ _ (fun _ => utf8Size_of_isBinaryDigit) hd rfl
    · next hd => exact radix _ _ (fun _ => utf8Size_of_isBinaryDigit) hd rfl
    · next hd => exact radix _ _ (fun _ => utf8Size_of_isOctalDigit) hd rfl
    · next hd => exact radix _ _ (fun _ => utf8Size_of_isOctalDigit) hd rfl
    · next hd =>
      split
      · have room : s.stop + 1 ≤ s.limit := Nat.le_of_lt (peek_lt hd)
        obtain ⟨onward, lt⟩ := scanLeadingZero_spec (s := s.check (s.stop + 1 ≤ s.limit)) h
        have checked := onward_check (s := s) fun _ => decide_eq_true room
        exact ⟨checked.trans onward, fun hs => lt (checked.stands hs)⟩
      · exact ⟨onward_scanDecimal s, fun hs => lt_scanDecimal hs h number⟩
    · exact ⟨onward_scanDecimal s, fun hs => lt_scanDecimal hs h number⟩
  · exact ⟨onward_scanDecimal s, fun hs => lt_scanDecimal hs h number⟩

end ScriptGrammar.Scanner
