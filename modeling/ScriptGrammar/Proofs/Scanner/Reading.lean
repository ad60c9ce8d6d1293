import ScriptGrammar.Parse.State
import ScriptGrammar.Proofs.Scanner.Standing

/-!
# Reading and reading again

Whatever way the next token is read, it begins where the last one ended and takes something
unless the source ends there. Reading a token again keeps where it begins; only content is read
from the trivia before the token on.
-/

namespace ScriptGrammar

theorem Kind.not_reopens_of_extendsGreater {k : Kind} (h : k.extendsGreater) :
    k.reopens = false := by
  cases k <;> first | rfl | exact absurd h (by decide)

namespace Scanner

variable {s t : Scanner} {c : Char} {k : Kind}

/-- A new token begins where the last one ended. -/
structure Follows (s t : Scanner) : Prop extends Reaches s t where
  fullStart : t.fullStart = s.stop

theorem follows_scan (hs : s.Stands) : Follows s s.scan := by
  obtain ⟨reaches, full⟩ := reaches_scan hs
  exact ⟨reaches, full⟩

/-- The token that begins at the cursor, with no trivia before it. -/
def opened (s : Scanner) : Scanner := { s.begin with start := s.stop }

theorem fresh_opened (hs : s.Stands) : s.opened.Fresh :=
  ⟨⟨hs.whole, hs.boundary⟩, hs.boundary, Nat.le_refl _⟩

theorem Follows.of_reaches (h : Reaches s.opened t) (full : t.fullStart = s.stop) :
    Follows s t :=
  ⟨h.after ⟨rfl, rfl, rfl, rfl⟩ (.refl _ _), full⟩

theorem Follows.of_reads (h : Reads s.opened t) (hs : s.Stands) : Follows s t :=
  .of_reaches (h.reaches (fresh_opened hs) rfl) h.onward.fullStart

theorem follows_end (hs : s.Stands) (ends : s.opened.atEnd) :
    Follows s { s.opened with kind := .endOfFileToken } :=
  .of_reaches (reaches_end (fresh_opened hs) rfl ends) rfl

theorem contentEnd_spec (fuel p : Nat) (mark : Int) (hp : s.source.isBoundary p) :
    p ≤ (s.contentEnd fuel p mark).1 ∧ s.source.isBoundary (s.contentEnd fuel p mark).1 := by
  induction fuel generalizing p mark with
  | zero => exact ⟨Nat.le_refl _, hp⟩
  | succ fuel ih =>
    rw [contentEnd]
    split
    · exact ⟨Nat.le_refl _, hp⟩
    · next c hc =>
      split
      · exact ⟨Nat.le_refl _, hp⟩
      · obtain ⟨le, hb⟩ := ih (p + c.utf8Size) _ (isBoundary_after hc)
        dsimp only
        exact ⟨by omega, hb⟩

theorem lt_contentEnd (h : s.peek 0 = some c) (text : c ≠ '\x7b' ∧ c ≠ '<') :
    s.stop < (s.contentEnd (s.limit - s.stop) s.stop 0).1 := by
  have below := peek_lt h
  obtain ⟨fuel, hfuel⟩ : ∃ n, s.limit - s.stop = n + 1 := ⟨s.limit - s.stop - 1, by omega⟩
  have here : s.charAt? s.stop = some c := h
  have plain : ¬ (c == '\x7b' || c == '<') = true := by simpa using text
  rw [hfuel, contentEnd, here]
  simp only [if_neg plain]
  exact Nat.lt_of_lt_of_le (Nat.lt_add_of_pos_right c.utf8Size_pos)
    (contentEnd_spec fuel _ _ (isBoundary_after here)).1

theorem kind_scanContentRun (s : Scanner) :
    s.scanContentRun.kind ≠ .endOfFileToken ∧ s.scanContentRun.kind.reopens = false := by
  simp only [scanContentRun]
  split
  · exact ⟨fun no => (nomatch no), rfl⟩
  · simp only [kind_setValue]
    split <;> decide

theorem reads_scanContentRun (h : s.peek 0 = some c) (text : c ≠ '\x7b' ∧ c ≠ '<') :
    Reads s s.scanContentRun := by
  have touched := onward_touch_stop s
  have run : Onward (s.touch s.stop) { s.touch s.stop with
      stop := ((s.touch s.stop).contentEnd (s.limit - s.stop) s.stop 0).1 } :=
    Onward.moved _ _ _ _ fun hs => contentEnd_spec _ _ _ hs.boundary
  have lt := lt_contentEnd (s := s.touch s.stop) h text
  obtain ⟨more, closed⟩ := kind_scanContentRun s
  have rest : Onward (s.touch s.stop) s.scanContentRun ∧
      ((s.touch s.stop).Stands → s.stop < s.scanContentRun.stop) := by
    simp only [scanContentRun]
    split
    · next marker =>
      obtain ⟨angle, marks⟩ := Bool.and_eq_true_iff.mp marker
      have onward := onward_scanConflictMarker (c := '<') (by simpa using angle) (.inl rfl) marks
      refine ⟨run.trans onward, fun hs => ?_⟩
      exact Nat.lt_of_lt_of_le lt (onward.forward (run.stands hs)).1
    · exact ⟨run.trans (.trans (Onward.marked _ _ _) (onward_setValue _)), fun _ => lt⟩
  refine ⟨touched.trans rest.1, fun hs => rest.2 (touched.stands hs), more, fun hk => ?_⟩
  exact absurd hk (by simp [closed])

theorem follows_scanContent (hs : s.Stands) : Follows s s.scanContent := by
  show Follows s (if s.opened.atEnd then { s.opened with kind := .endOfFileToken } else _)
  split
  · next ends => exact follows_end hs ends
  · next more =>
    refine Follows.of_reads ?_ hs
    split
    · next h =>
      split
      · next slash => exact reads_two h rfl slash rfl (by decide)
      · exact reads_one h rfl (by decide)
    · next h => exact reads_one h rfl (by decide)
    · next notAngle notBrace =>
      obtain ⟨c, h⟩ := exists_peek (fresh_opened hs).toStands more
      refine reads_scanContentRun h ⟨?_, ?_⟩
      · rintro rfl; exact notBrace h
      · rintro rfl; exact notAngle h

/-- Text that reports nothing is what the source has there. -/
theorem value_scanContentRun (quiet : s.scanContentRun.pending = #[]) :
    s.scanContentRun.kind ∈ [.jsxText, .jsxTextAllWhiteSpaces] ∧
      s.scanContentRun.value = s.scanContentRun.text := by
  simp only [scanContentRun] at quiet ⊢
  split at quiet
  · -- A conflict marker is reported.
    simp [scanConflictMarker, report, Diagnostics.report] at quiet
  · next plain =>
    rw [if_neg plain]
    refine ⟨?_, rfl⟩
    simp only [kind_setValue]
    split <;> simp

theorem start_scanContent (s : Scanner) : s.scanContent.start = s.stop := by
  simp only [scanContent, scanContentRun]
  repeat' split
  all_goals rfl

/-- Content that reports nothing is the end, a tag, a brace or text. -/
theorem kind_scanContent (quiet : s.scanContent.pending = #[]) :
    s.scanContent.kind ∈ [.endOfFileToken, .lessThanToken, .lessThanSlashToken, .openBraceToken] ∨
      s.scanContent.kind ∈ [.jsxText, .jsxTextAllWhiteSpaces] ∧
        s.scanContent.value = s.scanContent.text := by
  simp only [scanContent] at quiet ⊢
  split
  · exact .inl List.mem_cons_self
  · next more =>
    rw [if_neg more] at quiet
    split
    · split
      · exact .inl (by simp [take])
      · exact .inl (by simp [take])
    · exact .inl (by simp [take])
    · next notAngle notBrace =>
      refine .inr (value_scanContentRun ?_)
      split at quiet
      · next angle => exact absurd angle notAngle
      · next brace => exact absurd brace notBrace
      · exact quiet

theorem follows_scanAttributeValue (hs : s.Stands) : Follows s s.scanAttributeValue := by
  unfold scanAttributeValue
  split
  · next c h =>
    split
    · next quote =>
      have thin : c.utf8Size = 1 := by
        simp only [Bool.or_eq_true, beq_iff_eq] at quote
        rcases quote with rfl | rfl <;> rfl
      have first : s.source.isBoundary (s.stop + 1) := isBoundary_succ h thin
      have below := peek_lt h
      refine Follows.of_reads ?_ hs
      dsimp only
      split
      · next p found =>
        obtain ⟨le, _, hp⟩ := Source.seek_spec found
        have close : s.charAt? p = some c := by simpa [charAt?] using hp
        have last := Source.isBoundary_of_charAt? (charAt?_eq_some.mp close).2
        have onward := (Onward.moved (s := s.opened) (p + 1) .stringLiteral
          (s.source.slice (s.stop + 1) p) {} fun _ => ⟨by simp only [opened, begin]; omega,
            isBoundary_succ close thin⟩).cut fun _ => Source.sliceable_of le first last
        exact ⟨onward, fun _ => Nat.lt_of_lt_of_le le (Nat.le_succ p), by simp [cut, check],
          by simp [cut, check, Kind.reopens]⟩
      · have last := isBoundary_limit hs
        have onward := (Onward.moved (s := s.opened) s.limit .stringLiteral
          (s.source.slice (s.stop + 1) s.limit) {} fun hb => ⟨stop_le_limit hb, last⟩).cut
            fun _ => Source.sliceable_of below first last
        refine ⟨onward.trans (onward_markUnterminated _), fun _ => below,
          by simp [cut, check, markUnterminated, report],
          by simp [cut, check, markUnterminated, report, Kind.reopens]⟩
    · exact follows_scan hs
  · exact follows_scan hs

/-- The token is read again from where it begins. -/
structure Again (s t : Scanner) : Prop where
  sound : t.Sound
  filled : s.Filled → t.Filled
  keeps : Keeps s t
  reported : Reported s.source s.pending t.pending
  fullStart : t.fullStart = s.fullStart
  start : t.start = s.start
  more : s.kind ≠ .endOfFileToken → t.kind ≠ .endOfFileToken

theorem Again.refl (h : s.Sound) : Again s s := ⟨h, id, .refl s, .refl _ _, rfl, rfl, id⟩

theorem Sound.begun (h : s.Sound) : s.Begun := ⟨h.stands, h.start, h.start_le⟩

/-- What is left of a token when the cursor goes back to where it begins. -/
def reopened (s : Scanner) (f : TokenFlags) : Scanner := { s with stop := s.start, flags := f }

theorem Sound.reopened (h : s.Sound) (f : TokenFlags) : (s.reopened f).Begun :=
  ⟨⟨h.stands.whole, h.start⟩, h.start, Nat.le_refl _⟩

theorem Again.of_onward {b : Scanner} (h : s.Sound) (keeps : Keeps s b) (hb : b.Begun)
    (full : b.fullStart = s.fullStart) (begun : b.start = s.start)
    (pending : b.pending = s.pending) (onward : Onward b t) (lt : s.Filled → s.start < t.stop)
    (more : t.kind ≠ .endOfFileToken) (opens : t.kind.reopens → s.kind.reopens) : Again s t := by
  have start : t.start = s.start := onward.start.trans begun
  have full : t.fullStart = s.fullStart := onward.fullStart.trans full
  have same : t.source = s.source := onward.source.trans keeps.source
  have reported := (onward.clean hb).2
  rw [keeps.source, pending] at reported
  refine ⟨⟨onward.stands hb.toStands, ?_, ?_, ?_, ?_, fun hk => absurd hk more, fun hk => ?_⟩,
    fun hf _ => ?_, keeps.trans (onward.keeps hb), reported, full, start, fun _ => more⟩
  · rw [same, full]; exact h.fullStart
  · rw [same, start]; exact h.start
  · rw [full, start]; exact h.fullStart_le
  · exact (onward.begun hb).start_le
  · rw [same, start]; exact h.thin (opens hk)
  · rw [start]; exact lt hf

/-- The token is read again from its start on. -/
theorem Again.of_reopened {f : TokenFlags} (h : s.Sound) (onward : Onward (s.reopened f) t)
    (lt : s.start < t.stop) (more : t.kind ≠ .endOfFileToken) (opens : s.kind.reopens) :
    Again s t :=
  .of_onward (b := s.reopened f) h ⟨rfl, rfl, rfl, rfl⟩ (h.reopened f) rfl rfl rfl onward
    (fun _ => lt) more fun _ => opens

/-- The token goes on from where it ended. -/
theorem Again.of_extended (h : s.Sound) (onward : Onward s t) (lt : s.Filled → s.start < t.stop)
    (more : t.kind ≠ .endOfFileToken) (closed : t.kind.reopens = false) : Again s t :=
  .of_onward h (.refl s) h.begun rfl rfl rfl onward lt more fun hk => absurd hk (by simp [closed])

/-- A longer operator, or the scanner as it was. -/
theorem rescanGreater_cases (s : Scanner) :
    s.rescanGreater = s ∨ s.kind = .greaterThanToken ∧
      ∃ n k d, s.rescanGreater = s.take (n + 1) k ∧ k.extendsGreater ∧
        s.peek n = some d ∧ d.utf8Size = 1 := by
  by_cases angle : s.kind = .greaterThanToken
  · obtain ⟨cs, k, same, mine, meets, _⟩ := rescanGreater_eq angle
    simp only [Kind.angleTails, List.mem_cons, List.not_mem_nil, or_false, Prod.mk.injEq] at mine
    rcases mine with ⟨rfl, rfl⟩ | ⟨rfl, rfl⟩ | ⟨rfl, rfl⟩ | ⟨rfl, rfl⟩ | ⟨rfl, rfl⟩ | ⟨rfl, rfl⟩
    · rw [same, ← angle]
      exact .inl rfl
    · exact .inr ⟨angle, 0, _, _, same, rfl, meets.1, rfl⟩
    · exact .inr ⟨angle, 0, _, _, same, rfl, meets.1, rfl⟩
    · exact .inr ⟨angle, 1, _, _, same, rfl, meets.2.2.1, rfl⟩
    · exact .inr ⟨angle, 1, _, _, same, rfl, meets.2.2.1, rfl⟩
    · exact .inr ⟨angle, 2, _, _, same, rfl, meets.2.2.2.2.1, rfl⟩
  · exact .inl (rescanGreater_of_kind_ne angle)

theorem rescanGreater_rescanGreater (s : Scanner) :
    s.rescanGreater.rescanGreater = s.rescanGreater := by
  rcases rescanGreater_cases s with same | ⟨_, n, k, d, same, extends_, _, _⟩
  · rw [same, same]
  · rw [same]
    refine rescanGreater_of_kind_ne ?_
    rintro (rfl : k = .greaterThanToken)
    cases extends_

/-- What is pending plays no part in reading an operator again. -/
theorem rescanGreater_withPending (s : Scanner) (d : Diagnostics) :
    ({ s with pending := d } : Scanner).rescanGreater = { s.rescanGreater with pending := d } := by
  have peek (i : Nat) : ({ s with pending := d } : Scanner).peek i = s.peek i := rfl
  simp only [rescanGreater, peek]
  repeat' split
  all_goals rfl

theorem again_rescanGreater (h : s.Sound) : Again s s.rescanGreater := by
  rcases rescanGreater_cases s with same | ⟨_, n, k, d, same, extends_, hd, thin⟩
  · rw [same]; exact .refl h
  · have hb : s.source.isBoundary (s.stop + (n + 1)) := isBoundary_succ (p := s.stop + n) hd thin
    have far : s.start < (s.take (n + 1) k).stop :=
      Nat.lt_of_le_of_lt h.start_le (Nat.lt_add_of_pos_right (Nat.succ_pos n))
    rw [same]
    refine Again.of_extended h (onward_take k fun _ => hb) (fun _ => far) ?_
      (Kind.not_reopens_of_extendsGreater extends_)
    rintro hk
    simp only [take] at hk
    rw [hk] at extends_
    cases extends_

theorem patternEnd_spec (fuel p : Nat) (escaped inClass : Bool) (hp : s.source.isBoundary p) :
    p ≤ (s.patternEnd fuel p escaped inClass).1 ∧
      s.source.isBoundary (s.patternEnd fuel p escaped inClass).1 := by
  induction fuel generalizing p escaped inClass with
  | zero => exact ⟨Nat.le_refl _, hp⟩
  | succ fuel ih =>
    rw [patternEnd]
    split
    · exact ⟨Nat.le_refl _, hp⟩
    split
    · exact ⟨Nat.le_refl _, hp⟩
    · next c hc =>
      have hn := isBoundary_after hc
      have past : ∀ escaped inClass, p ≤ (s.patternEnd fuel (p + c.utf8Size) escaped inClass).1 ∧
          s.source.isBoundary (s.patternEnd fuel (p + c.utf8Size) escaped inClass).1 := by
        intro escaped inClass
        obtain ⟨le, hb⟩ := ih (p + c.utf8Size) escaped inClass hn
        exact ⟨by omega, hb⟩
      dsimp only
      split
      · exact past _ _
      split
      · exact ⟨Nat.le_add_right _ _, hn⟩
      split
      · exact past _ _
      split
      · exact past _ _
      split
      · exact past _ _
      · exact past _ _

theorem again_rescanSlash (h : s.Sound) : Again s s.rescanSlash := by
  unfold rescanSlash
  split
  · exact .refl h
  · next hk =>
    have reopens : s.kind.reopens := by
      simp only [Bool.and_eq_true, bne_iff_ne, not_and, Decidable.not_not] at hk
      by_cases slash : s.kind = .slashToken
      · rw [slash]; rfl
      · rw [hk slash]; rfl
    obtain ⟨c, hc, thin⟩ := h.thin reopens
    have first : s.source.isBoundary (s.start + 1) := thin ▸ Source.isBoundary_next hc
    obtain ⟨le, hb⟩ :=
      patternEnd_spec (s := s) (s.limit - (s.start + 1) + 1) (s.start + 1) false false first
    dsimp only
    generalize s.patternEnd (s.limit - (s.start + 1) + 1) (s.start + 1) false false = e at le hb
    have below : e.1 ≤ s.limit := h.stands.whole ▸ Source.le_size_of_isBoundary hb
    have rest := Source.isBoundary_skipWhile s.limit isIdentifierPart hb
    have past := Source.le_skipWhile s.source s.limit isIdentifierPart e.1
    have here : s.source.sliceable s.start e.1 :=
      Source.sliceable_of (Nat.le_of_succ_le le) h.start hb
    have checked : Onward (s.reopened s.flags)
        ((s.reopened s.flags).check (e.1 ≤ s.limit || e.1 == s.start + 1)) :=
      onward_check fun _ => by simp [below]
    -- The cursor waits at the start until the whole literal is known.
    have ends {t : Scanner} (onward : Onward (s.reopened s.flags) t) (still : t.stop = s.start) :
        Onward (s.reopened s.flags) ({ t.touch e.1 with
          stop := t.source.skipWhile t.limit isIdentifierPart e.1
          kind := .regularExpressionLiteral }).setValue := by
      have touched : Onward t (t.touch e.1) := onward_touch fun _ => onward.source ▸ hb
      refine onward.trans (touched.trans (.trans (Onward.moved _ _ _ _ fun _ => ?_)
        (onward_setValue _)))
      rw [stop_touch, still, onward.limit]
      show _ ∧ t.source.isBoundary _
      rw [onward.source]
      exact ⟨Nat.le_trans (Nat.le_of_succ_le le) past, rest⟩
    refine Again.of_reopened (f := s.flags) h ?_ ?_ (by simp) reopens
    · have marked := checked.trans
        (Onward.marked s.kind s.value { s.flags with unterminated := true })
      have unclosed := ends (marked.report .unterminatedRegularExpression [] fun _ => here) rfl
      have closed := ends checked rfl
      cases e.2
      · exact unclosed
      · exact closed
    · cases e.2
      · exact Nat.lt_of_lt_of_le le past
      · exact Nat.lt_of_lt_of_le le past

theorem again_rescanTemplate (tagged : Bool) (h : s.Sound) :
    Again s (s.rescanTemplate tagged) := by
  simp only [rescanTemplate]
  split
  · exact .refl h
  · next hk =>
    have reopens : s.kind.reopens := by
      simp only [Bool.and_eq_true, bne_iff_ne, not_and, Decidable.not_not] at hk
      by_cases brace : s.kind = .closeBraceToken
      · rw [brace]; rfl
      by_cases head : s.kind = .templateHead
      · rw [head]; rfl
      · rw [hk ⟨brace, head⟩]; rfl
    obtain ⟨c, hc, thin⟩ := h.thin reopens
    have below : s.start < s.limit := by
      rw [h.stands.whole]
      exact Source.charAt?_lt hc
    have peek (f : TokenFlags) : (s.reopened f).peek 0 = some c :=
      charAt?_eq_some.mpr ⟨below, hc⟩
    obtain ⟨onward, lt⟩ := scanTemplate_spec (!tagged) (peek _) thin
    exact .of_reopened h onward (lt (h.reopened _).toStands) (kind_scanTemplate_ne _ _) reopens

theorem onward_takeTagName (fuel : Nat) (s : Scanner) : Onward s (takeTagName fuel s) := by
  induction fuel generalizing s with
  | zero => exact .refl s
  | succ fuel ih =>
    rw [takeTagName]
    split
    · exact .refl s
    split
    · next hyphen =>
      have hb : s.source.isBoundary (s.stop + 1) :=
        isBoundary_succ (c := '-') (by simpa [peek] using hyphen) rfl
      exact (Onward.moved _ _ _ _ fun _ => ⟨Nat.le_succ _, hb⟩).trans (ih _)
    · dsimp only
      split
      · exact onward_scanParts s
      · exact (onward_scanParts s).trans (ih _)

theorem scanTagName_of_not_isWord (h : s.kind.isWord = false) : s.scanTagName = s := by
  simp [scanTagName, h]

theorem isWord_scanTagName (h : s.kind.isWord) : s.scanTagName.kind.isWord := by
  simp [scanTagName, h, Kind.isWord_ofWord]

theorem again_scanTagName (h : s.Sound) : Again s s.scanTagName := by
  cases word : s.kind.isWord with
  | false => rw [scanTagName_of_not_isWord word]; exact .refl h
  | true =>
    have still := isWord_scanTagName word
    have onward : Onward s s.scanTagName := by
      simp only [scanTagName, word]
      exact (onward_takeTagName _ s).trans ((onward_setValue _).trans (Onward.marked _ _ _))
    have far := (onward.forward h.stands).1
    refine Again.of_extended h onward (fun filled => ?_) (Kind.ne_endOfFile_of_isWord still)
      (Kind.not_reopens_of_isWord still)
    exact Nat.lt_of_lt_of_le (filled (Kind.ne_endOfFile_of_isWord word)) far

/-- Before the end of the source, something is read. -/
theorem kind_rescanContent (more : s.fullStart < s.limit) :
    s.rescanContent.kind ≠ .endOfFileToken := by
  have goes : ¬ (({ s with stop := s.fullStart } : Scanner).begin.atEnd = true) := by
    simp [atEnd, begin, Nat.not_le_of_lt more]
  simp only [rescanContent, scanContent]
  split
  · next ended => exact absurd ended goes
  split
  · split
    · intro h
      cases h
    · intro h
      cases h
  · intro h
    cases h
  · exact (kind_scanContentRun _).1

/-- Content is read from where the trivia before the token begins. -/
theorem follows_rescanContent (h : s.Sound) :
    Follows { s with stop := s.fullStart } s.rescanContent :=
  follows_scanContent ⟨h.stands.whole, h.fullStart⟩

end Scanner

theorem Reading.follows (r : Reading) {s : Scanner} (h : s.Sound) : s.Follows (r.apply s) := by
  cases r with
  | plain => exact Scanner.follows_scan h.stands
  | content => exact Scanner.follows_scanContent h.stands
  | attributeValue => exact Scanner.follows_scanAttributeValue h.stands

/-- Content aside, a token is read again from where it begins. -/
theorem Rereading.again {r : Rereading} (hr : r ≠ .content) {s : Scanner} (h : s.Sound) :
    s.Again (r.apply s) := by
  cases r with
  | greater => exact Scanner.again_rescanGreater h
  | slash => exact Scanner.again_rescanSlash h
  | template tagged => exact Scanner.again_rescanTemplate tagged h
  | content => exact absurd rfl hr
  | tagName => exact Scanner.again_scanTagName h

/-- What every way of reading a token again keeps. -/
theorem Rereading.stays (r : Rereading) {s : Scanner} (h : s.Sound) :
    (r.apply s).Sound ∧ (s.Filled → (r.apply s).Filled) ∧ s.Keeps (r.apply s) ∧
      (r.apply s).fullStart = s.fullStart := by
  by_cases hr : r = .content
  · have follows := Scanner.follows_rescanContent h
    obtain ⟨source, limit, keepsTrivia, torn⟩ := follows.keeps
    rw [hr]
    exact ⟨follows.sound, fun _ => follows.filled, ⟨source, limit, keepsTrivia, torn⟩,
      follows.fullStart⟩
  · have again := Rereading.again hr h
    exact ⟨again.sound, again.filled, again.keeps, again.fullStart⟩

theorem Rereading.reported (r : Rereading) {s : Scanner} (h : s.Sound) :
    Reported s.source s.pending (r.apply s).pending := by
  by_cases hr : r = .content
  · rw [hr]
    exact (Scanner.follows_rescanContent h).reported
  · exact (Rereading.again hr h).reported

end ScriptGrammar
