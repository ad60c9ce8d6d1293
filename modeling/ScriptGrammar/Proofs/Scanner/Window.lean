import ScriptGrammar.Proofs.Scanner.Calls
import ScriptGrammar.Proofs.Scanner.Facing
import ScriptGrammar.Proofs.Scanner.Within

/-!
# A range read by itself

Whatever a scanner is asked for inside a range of its text, it answers as a new scanner would that
has the text of the range and nothing else, and goes back to where it was. Two kinds of trivia look
further: the first line of a script is told by standing at the very start, and the marker of a
conflict by the line break before it. A range that could not hold either is read by itself.
-/

namespace ScriptGrammar

/-- No text here is the first line of a script or the marker of a conflict, whatever precedes it. -/
structure Source.Unmarked (src : Source) : Prop where
  script : ¬ src.IsScript
  marker : ∀ c ∈ ['<', '=', '>', '|'], ∀ p, ¬ ∀ i < 7, src.charAt? (p + i) = some c

namespace Source

variable {src : Source} {p n : Nat} {c d : Char}

/-- Equal characters of one byte side by side. -/
theorem chars_replicate (thin : c.utf8Size = 1) (h : ∀ i < n, src.charAt? (p + i) = some c) :
    src.chars p (p + n) = List.replicate n c := by
  induction n with
  | zero => exact chars_self p
  | succ n ih =>
    have last := chars_one (h n (Nat.lt_succ_self n))
    rw [thin] at last
    rw [← chars_append (Nat.le_add_right p n) (Nat.add_le_add_left (Nat.le_succ n) p),
      ih fun i hi => h i (Nat.lt_succ_of_lt hi), List.replicate_succ', ← last]
    rfl

theorem chars_all (src : Source) : src.chars 0 src.size = src.text.toList := by
  rw [← src.slice_all, slice, String.toList_ofList]

/-- What is cut out stands in the text. -/
theorem chars_infix {a b : Nat} (le : a ≤ b) (inside : b ≤ src.size) :
    src.chars a b <:+: src.text.toList := by
  refine ⟨src.chars 0 a, src.chars b src.size, ?_⟩
  rw [chars_append (Nat.zero_le a) le, chars_append (Nat.zero_le b) inside, chars_all]

theorem unmarked_of (script : ¬ ['#', '!'] <+: src.text.toList)
    (marker : ∀ c ∈ ['<', '=', '>', '|'], ¬ List.replicate 7 c <:+: src.text.toList) :
    src.Unmarked where
  script := by
    rintro ⟨first, second⟩
    have inside : 2 ≤ src.size := charAt?_lt second
    have one : src.chars 0 1 = ['#'] := chars_one first
    have two : src.chars 1 2 = ['!'] := chars_one second
    refine script ⟨src.chars 2 src.size, ?_⟩
    rw [← chars_all, ← chars_append (Nat.zero_le 2) inside,
      ← chars_append (Nat.zero_le 1) (Nat.le_succ 1), one, two]
    rfl
  marker c sign p run := by
    have thin : c.utf8Size = 1 := by
      simp only [List.mem_cons, List.not_mem_nil, or_false] at sign
      rcases sign with rfl | rfl | rfl | rfl <;> rfl
    have inside : p + 7 ≤ src.size := charAt?_lt (run 6 (by decide))
    refine marker c sign ?_
    rw [← chars_replicate thin run]
    exact chars_infix (Nat.le_add_right p 7) inside

end Source

namespace Scanner

variable {s t u : Scanner} {base a b p : Nat} {c : Char}

/-- The end of a pattern that ends at `e`: the flags behind it. -/
def closePattern (s : Scanner) (e : Nat) : Scanner :=
  setValue { s.touch e with
    stop := s.source.skipWhile s.limit isIdentifierPart e
    kind := .regularExpressionLiteral }

namespace Fits

section

variable (h : t.Fits s base)

include h

theorem skipBlanks : (t.within s base).skipBlanks = t.skipBlanks.within s base := by
  have touched : (t.touch t.stop).Fits s base := h.onward (onward_touch_stop t)
  simp only [Scanner.skipBlanks, stop_within, h.touch, limit_within, source_within]
  rw [stop_touch, touched.skipWhile]
  rfl

theorem scanBlanks : (t.within s base).scanBlanks = t.scanBlanks.within s base := by
  rw [Scanner.scanBlanks, h.skipBlanks]
  rfl

theorem scanLineComment : (t.within s base).scanLineComment = t.scanLineComment.within s base := by
  simp only [Scanner.scanLineComment, stop_within, limit_within, Nat.add_assoc base, h.lineEnd,
    Nat.add_le_add_iff_left, check_within]
  rfl

theorem commentEnd? (p : Nat) :
    (t.within s base).commentEnd? (base + p) = (t.commentEnd? p).map (base + ·) := by
  simp only [Scanner.commentEnd?, limit_within, Nat.add_sub_add_left]
  refine Source.seek_moved fun q _ => ?_
  rw [h.charAt?, Nat.add_assoc, h.charAt?]

theorem hasLineBreak (le : b ≤ t.source.size) :
    (t.within s base).hasLineBreak (base + a) (base + b) = t.hasLineBreak a b := by
  simp only [Scanner.hasLineBreak, Nat.add_sub_add_left,
    Source.seek_moved fun q _ => h.lineBreakAt le q, Option.isSome_map]

theorem markDoc (p : Nat) : (t.within s base).markDoc (base + p) = (t.markDoc p).within s base := by
  simp only [Scanner.markDoc, Nat.add_assoc, h.charAt?]
  split <;> rfl

theorem closeBlockComment (p : Nat) :
    (t.within s base).closeBlockComment (base + p) = (t.closeBlockComment p).within s base := by
  simp only [Scanner.closeBlockComment, h.commentEnd?]
  cases t.commentEnd? p with
  | some q => rfl
  | none =>
    let u : Scanner := { t with
      stop := t.limit, kind := .multiLineCommentTrivia
      flags := { t.flags with unterminated := true } }
    have reported : (u.within s base).report .asteriskSlashExpected (base + t.limit)
        (base + t.limit) [] = _ := report_within
    exact reported

theorem scanBlockComment :
    (t.within s base).scanBlockComment = t.scanBlockComment.within s base := by
  have checked : (t.check (t.stop + 2 ≤ t.limit)).Fits s base := h.at rfl rfl h.boundary
  have marked : ((t.check (t.stop + 2 ≤ t.limit)).markDoc (t.stop + 2)).Fits s base := by
    unfold Scanner.markDoc
    split
    · exact h.at rfl rfl h.boundary
    · exact checked
  have inside : (t.commentEnd? (t.stop + 2)).getD t.limit ≤ t.source.size := by
    cases found : t.commentEnd? (t.stop + 2) with
    | none => exact Nat.le_of_eq h.whole
    | some q =>
      have below := (Source.seek_spec found).2.1
      exact Nat.le_of_lt (h.whole ▸ below)
  simp only [Scanner.scanBlockComment, stop_within, limit_within, Nat.add_assoc base,
    Nat.add_le_add_iff_left, check_within, checked.markDoc, marked.closeBlockComment,
    h.commentEnd?, Option.getD_map, h.hasLineBreak inside]
  split <;> rfl

end

/-- Where no seven equal signs stand, no marker is seen, neither here nor from around. -/
theorem not_isConflictMarker (h : t.Fits s base) (plain : t.source.Unmarked)
    (found : t.charAt? p = some c) (sign : c ∈ ['<', '=', '>', '|']) :
    (t.within s base).isConflictMarker (base + p) = false ∧ t.isConflictMarker p = false := by
  have unequal : ¬ ∀ i < 7, t.charAt? (p + i) = t.charAt? p := fun same =>
    plain.marker c sign p fun i hi => (charAt?_eq_some.mp ((same i hi).trans found)).2
  refine ⟨Bool.eq_false_iff.mpr fun marks => unequal fun i hi => ?_,
    Bool.eq_false_iff.mpr fun marks => unequal (charAt?_of_isConflictMarker marks)⟩
  have same := charAt?_of_isConflictMarker marks i hi
  rwa [Nat.add_assoc, h.charAt?, h.charAt?] at same

theorem scanTrivia (h : t.Fits s base) (plain : t.source.Unmarked) :
    (t.within s base).scanTrivia = (t.scanTrivia.1, t.scanTrivia.2.within s base) := by
  have blanks := h.scanBlanks
  have touched := h.touch t.stop
  have fits := h.onward (onward_touch_stop t)
  unfold Scanner.scanTrivia
  simp only [h.peek, stop_within]
  split
  · exact congrArg (true, markLineBreak ·) take_within
  · exact congrArg (true, markLineBreak ·) take_within
  · rw [blanks]
  · rw [blanks]
  · rw [blanks]
  · rw [blanks]
  · next sign =>
    -- The start of the text around need not be where the excerpt begins.
    have off (n : Nat) (first : n = 0 → t.stop = 0) :
        (n == 0 && t.peek 1 == some '!') = false := by
      rw [Bool.eq_false_iff]
      intro both
      obtain ⟨zero, second⟩ := Bool.and_eq_true_iff.mp both
      have begins := first (eq_of_beq zero)
      have sign := (charAt?_eq_some.mp sign).2
      have second := (charAt?_eq_some.mp (eq_of_beq second)).2
      rw [begins] at sign second
      exact plain.script ⟨sign, second⟩
    rw [off (base + t.stop) (by omega), off t.stop id]
    rfl
  · split
    · rw [h.scanLineComment]
    · split
      · rw [h.scanBlockComment]
      · rfl
  · next c _ _ _ _ _ _ _ _ found =>
    split
    · cases sign : c == '<' || c == '=' || c == '>' || c == '|' with
      | false => rfl
      | true =>
        obtain ⟨around, here⟩ := h.not_isConflictMarker (p := t.stop) plain found (by
          simpa [or_assoc] using sign)
        rw [around, here]
        rfl
    · rw [touched]
      split
      · exact congrArg (true, markLineBreak ·) take_within
      split
      · rw [fits.scanBlanks]
      · rfl
  · rw [touched]

theorem scanFrom (fuel : Nat) (h : t.Fits s base) (plain : t.source.Unmarked) :
    Scanner.scanFrom fuel (t.within s base) = (Scanner.scanFrom fuel t).within s base := by
  induction fuel generalizing t with
  | zero => rfl
  | succ fuel ih =>
    have begun : t.restarted.Fits s base := h.at rfl rfl h.boundary
    have around : (t.within s base).restarted.scanTrivia = _ := begun.scanTrivia plain
    have ends : (t.within s base).restarted.atEnd = t.restarted.atEnd :=
      atEnd_within (t := t.restarted) (s := s)
    cases ended : t.restarted.atEnd with
    | true =>
      rw [ended] at ends
      rw [scanFrom_end ended, scanFrom_end ends]
      rfl
    | false =>
      rw [ended] at ends
      obtain ⟨onward, _, _⟩ := scanTrivia_spec t.restarted
      cases found : t.restarted.scanTrivia with
      | mk any u =>
        rw [found] at onward around
        have behind := begun.onward onward
        cases any with
        | false =>
          rw [scanFrom_token ended found, scanFrom_token ends around]
          exact behind.scanToken
        | true =>
          have source : u.source = t.source := onward.source
          cases keeps : u.keepsTrivia with
          | true => rw [scanFrom_kept ended found keeps, scanFrom_kept ends around keeps]
          | false =>
            rw [scanFrom_trivia ended found keeps, scanFrom_trivia ends around keeps]
            exact ih behind (source ▸ plain)

theorem scan (h : t.Fits s base) (plain : t.source.Unmarked) :
    (t.within s base).scan = t.scan.within s base := by
  have begun : t.begin.Fits s base := h.at rfl rfl h.boundary
  show Scanner.scanFrom (base + t.limit - (base + t.stop) + 1) (t.begin.within s base) = _
  rw [Nat.add_sub_add_left, begun.scanFrom _ plain]
  rfl

theorem rescanGreater (h : t.Fits s base) :
    (t.within s base).rescanGreater = t.rescanGreater.within s base := by
  simp only [Scanner.rescanGreater, kind_within, h.peek, take_within, ite_within]

theorem patternEnd (h : t.Fits s base) (fuel p : Nat) (escaped inClass : Bool) :
    (t.within s base).patternEnd fuel (base + p) escaped inClass =
      (base + (t.patternEnd fuel p escaped inClass).1,
        (t.patternEnd fuel p escaped inClass).2) := by
  induction fuel generalizing p escaped inClass with
  | zero => rfl
  | succ fuel ih =>
    rw [Scanner.patternEnd, Scanner.patternEnd, limit_within,
      h.lineBreakAt (Nat.le_of_eq h.whole), h.charAt?]
    split
    · rfl
    split
    · rfl
    · dsimp only
      simp only [Nat.add_assoc, ih]
      split
      · rfl
      split
      · rfl
      split
      · rfl
      split
      · rfl
      split <;> rfl

theorem closePattern {e : Nat} (h : t.Fits s base) (ending : t.source.isBoundary e) :
    (t.within s base).closePattern (base + e) = (t.closePattern e).within s base := by
  have last := Source.isBoundary_skipWhile t.limit isIdentifierPart ending
  have fits : Fits { t.touch e with
      stop := t.source.skipWhile t.limit isIdentifierPart e
      kind := .regularExpressionLiteral } s base := h.at rfl rfl last
  show Scanner.setValue { (t.within s base).touch (base + e) with
    stop := s.source.skipWhile (base + t.limit) isIdentifierPart (base + e)
    kind := .regularExpressionLiteral } = _
  rw [h.touch, h.skipWhile]
  exact fits.setValue

theorem rescanSlash (h : t.Fits s base) (sound : t.Sound) :
    (t.within s base).rescanSlash = t.rescanSlash.within s base := by
  unfold Scanner.rescanSlash
  rw [kind_within]
  split
  · rfl
  · next slash =>
    have reopens : t.kind.reopens := by
      simp only [Bool.and_eq_true, bne_iff_ne, not_and, Decidable.not_not] at slash
      by_cases same : t.kind = .slashToken
      · rw [same]; rfl
      · rw [slash same]; rfl
    obtain ⟨c, found, thin⟩ := sound.thin reopens
    have first : t.source.isBoundary (t.start + 1) := thin ▸ Source.isBoundary_next found
    obtain ⟨_, ending⟩ :=
      patternEnd_spec (s := t) (t.limit - (t.start + 1) + 1) (t.start + 1) false false first
    simp only [start_within, limit_within, Nat.add_assoc base, Nat.add_sub_add_left, h.patternEnd]
    generalize t.patternEnd (t.limit - (t.start + 1) + 1) (t.start + 1) false false = e at ending
    obtain ⟨e, closed⟩ := e
    let u : Scanner := t.check (e ≤ t.limit || e == t.start + 1)
    have fits : u.Fits s base := h.at rfl rfl h.boundary
    have checked : (t.within s base).check
        (base + e ≤ base + t.limit || base + e == base + (t.start + 1)) = u.within s base := by
      have same : (base + e == base + (t.start + 1)) = (e == t.start + 1) :=
        Bool.eq_iff_iff.mpr (by simp)
      rw [same, check_within]
      simp only [Nat.add_le_add_iff_left, u]
    dsimp only
    rw [checked]
    cases closed with
    | true => exact fits.closePattern ending
    | false =>
      let v : Scanner := { u with flags := { u.flags with unterminated := true } }
      have reported : (v.within s base).report .unterminatedRegularExpression (base + t.start)
        (base + e) [] = _ := report_within
      have fits : Fits (v.report .unterminatedRegularExpression t.start e []) s base :=
        fits.at rfl rfl fits.boundary
      exact (congrArg (Scanner.closePattern · (base + e)) reported).trans
        (fits.closePattern ending)

theorem rescanTemplate (h : t.Fits s base) (sound : t.Sound) (tagged : Bool) :
    (t.within s base).rescanTemplate tagged = (t.rescanTemplate tagged).within s base := by
  unfold Scanner.rescanTemplate
  rw [kind_within]
  split
  · rfl
  · next opens =>
    have reopens : t.kind.reopens := by
      simp only [Bool.and_eq_true, bne_iff_ne, not_and, Decidable.not_not] at opens
      by_cases brace : t.kind = .closeBraceToken
      · rw [brace]; rfl
      by_cases head : t.kind = .templateHead
      · rw [head]; rfl
      · rw [opens ⟨brace, head⟩]; rfl
    obtain ⟨c, found, thin⟩ := sound.thin reopens
    have below : t.start < t.limit := h.whole ▸ Source.charAt?_lt found
    have begun (f : TokenFlags) : (t.reopened f).Fits s base := h.at rfl rfl sound.start
    exact (begun _).scanTemplate _ (charAt?_eq_some.mpr ⟨below, found⟩) thin

theorem scanDocWord (h : t.Fits s base) :
    (t.within s base).scanDocWord = t.scanDocWord.within s base := by
  have boundary := Source.isBoundary_skipWhile t.limit
    (fun c => isIdentifierPart c || c == '-') h.boundary
  simp only [Scanner.scanDocWord, stop_within, limit_within, source_within, h.skipWhile]
  generalize t.source.skipWhile t.limit (fun c => isIdentifierPart c || c == '-') t.stop = e
    at boundary
  have word : Fits { t with stop := e } s base := h.at rfl rfl boundary
  have value : (({ t with stop := e } : Scanner).within s base).setValue = _ := word.setValue
  exact congrArg (fun u : Scanner => { u with kind := Kind.ofWord u.value }) value

theorem scanDocToken (h : t.Fits s base) :
    (t.within s base).scanDocToken = t.scanDocToken.within s base := by
  have begun : t.opened.Fits s base := h.at rfl rfl h.boundary
  unfold Scanner.scanDocToken
  extract_lets _ _ around _ _ here
  have fits : here.Fits s base := begun.onward (onward_touch_stop _)
  have touched : around = here.within s base := begun.touch t.opened.stop
  rw [touched, fits.peek, fits.peek]
  split
  · rfl
  · simp only [scanLineBreak, take_within, fits.scanBlanks, fits.scanDocWord, ite_within]
    rfl

end Fits

/-- The call is for a token of a program or of documentation, not of markup. -/
def Call.plain : Call → Bool
  | .read .plain | .docToken | .reread .greater | .reread .slash | .reread (.template _) => true
  | _ => false

theorem Safe.fits {part : Source} (h : Safe part t) (excerpt : part.Excerpt s.source base) :
    t.Fits s base := ⟨h.sound.stands, h.source ▸ excerpt⟩

/-- A call in a range is a call in its text. -/
theorem Call.apply_within {part : Source} {call : Call} (plain : call.plain)
    (excerpt : part.Excerpt s.source base) (unmarked : part.Unmarked) (h : Safe part t) :
    call.apply (t.within s base) = (call.apply t).within s base := by
  have fits := h.fits excerpt
  have unmarked : t.source.Unmarked := h.source ▸ unmarked
  cases call with
  | read r =>
    cases r with
    | plain => exact fits.scan unmarked
    | content => cases plain
    | attributeValue => cases plain
  | reread r =>
    cases r with
    | greater => exact fits.rescanGreater
    | slash => exact fits.rescanSlash h.sound
    | template tagged => exact fits.rescanTemplate h.sound tagged
    | content => cases plain
    | tagName => cases plain
  | docToken => exact fits.scanDocToken
  | keepTrivia keeps => cases plain

theorem Call.keepsTrivia_apply {call : Call} (plain : call.plain) (h : t.Sound) :
    (call.apply t).keepsTrivia = t.keepsTrivia := by
  cases call with
  | read r => exact (r.follows h).keeps.keepsTrivia
  | reread r => exact (r.stays h).2.2.1.keepsTrivia
  | docToken => exact (follows_scanDocToken h.stands).keeps.keepsTrivia
  | keepTrivia keeps => cases plain

namespace Session

/-- No call of the session is for a token of markup. -/
def plain : Session → Bool
  | done => true
  | call c rest => c.plain && rest.plain
  | trial inner _ rest => inner.plain && rest.plain

theorem truncate_append (ds es : Diagnostics) (n : Nat) :
    Diagnostics.truncate (ds ++ es) (ds.size + n) = ds ++ Diagnostics.truncate es n := by
  rw [← Array.toList_inj]
  simp [Diagnostics.truncate, List.take_of_length_le]

theorem rewind_within :
    (t.within s base).rewind (u.within s base).bookmark = (t.rewind u.bookmark).within s base := by
  have kept : (s.pending ++ t.pending.map (·.moved base)).truncate
      (s.pending ++ u.pending.map (·.moved base)).size =
      s.pending ++ (t.pending.truncate u.pending.size).map (·.moved base) := by
    rw [Array.size_append, Array.size_map, truncate_append]
    simp [Diagnostics.truncate]
  simp only [rewind, bookmark, within, kept]

/-- Going back from a range leaves nothing of what was read there. -/
theorem rewind_bookmark (intact : t.torn = false) (keeps : t.keepsTrivia = s.keepsTrivia) :
    (t.within s base).rewind s.bookmark = s := by
  have kept := truncate_append s.pending (t.pending.map (·.moved base)) 0
  have none : Diagnostics.truncate (t.pending.map (·.moved base)) 0 = #[] := by
    simp [Diagnostics.truncate]
  rw [Nat.add_zero, none, Array.append_empty] at kept
  simp only [rewind, bookmark, within, kept, intact, keeps, Bool.or_false]

theorem settle_within (kept : Bool) : settle kept (u.within s base) (t.within s base) =
    (settle kept u t).within s base := by
  cases kept with
  | true => rfl
  | false => exact rewind_within

theorem keepsTrivia_run {src : Source} {calls : Session} (plain : calls.plain)
    (h : Safe src t) : (calls.run t).keepsTrivia = t.keepsTrivia := by
  induction calls generalizing t with
  | done => rfl
  | call c rest ih =>
    obtain ⟨first, behind⟩ := Bool.and_eq_true_iff.mp plain
    exact (ih behind (h.apply c)).trans (Call.keepsTrivia_apply first h.sound)
  | trial inner kept rest inside after =>
    obtain ⟨first, behind⟩ := Bool.and_eq_true_iff.mp plain
    refine (after behind (h.settle (h.run inner) kept)).trans ?_
    cases kept <;> exact inside first h

/-- A session in a range is a session in its text. -/
theorem run_within {part : Source} {calls : Session} (plain : calls.plain)
    (excerpt : part.Excerpt s.source base) (unmarked : part.Unmarked) (h : Safe part t) :
    calls.run (t.within s base) = (calls.run t).within s base := by
  induction calls generalizing t with
  | done => rfl
  | call c rest ih =>
    obtain ⟨first, behind⟩ := Bool.and_eq_true_iff.mp plain
    rw [run, Call.apply_within first excerpt unmarked h, ih behind (h.apply c)]
    rfl
  | trial inner kept rest inside after =>
    obtain ⟨first, behind⟩ := Bool.and_eq_true_iff.mp plain
    rw [run, inside first h, settle_within, after behind (h.settle (h.run inner) kept)]
    rfl

theorem trace_within {part : Source} {calls : Session} (plain : calls.plain)
    (excerpt : part.Excerpt s.source base) (unmarked : part.Unmarked) (h : Safe part t) :
    calls.trace (t.within s base) = (calls.trace t).map (·.within s base) := by
  induction calls generalizing t with
  | done => rfl
  | call c rest ih =>
    obtain ⟨first, behind⟩ := Bool.and_eq_true_iff.mp plain
    rw [trace, Call.apply_within first excerpt unmarked h, ih behind (h.apply c)]
    rfl
  | trial inner kept rest inside after =>
    obtain ⟨first, behind⟩ := Bool.and_eq_true_iff.mp plain
    rw [trace, inside first h, run_within first excerpt unmarked h, settle_within,
      after behind (h.settle (h.run inner) kept), trace, List.map_append]

/-- Inside a range, token by token, a scanner reads what a new scanner does that has the text of
the range alone: kinds, values and flags are the same, offsets are moved by where the range
begins, and new diagnostics come behind those that were pending. Then the scanner goes back to
where it was as if nothing had been read. The text of the range must not begin as the first line
of a script does, nor hold the signs of a conflict marker. -/
theorem trace_narrow (s : Scanner) (start length : Nat) (calls : Session) (plain : calls.plain)
    (first : s.source.isBoundary start)
    (last : s.source.isBoundary (min (start + length) s.source.size))
    (script :
      ¬ ['#', '!'] <+: (s.source.slice start (min (start + length) s.source.size)).toList)
    (marker : ∀ c ∈ ['<', '=', '>', '|'], ¬ List.replicate 7 c <:+:
      (s.source.slice start (min (start + length) s.source.size)).toList) :
    let alone := ofSource
      (.ofString (s.source.slice start (min (start + length) s.source.size))) s.keepsTrivia
    calls.trace (s.narrow start length) = (calls.trace alone).map (·.within s start) ∧
      (calls.run (s.narrow start length)).rewind s.bookmark = s := by
  intro alone
  have inside := Source.le_size_of_isBoundary first
  obtain ⟨excerpt, size⟩ := Source.excerpt_slice
    (Source.sliceable_of (Nat.le_min.mpr ⟨Nat.le_add_right start length, inside⟩) first last)
  have unmarked : alone.source.Unmarked := Source.unmarked_of script marker
  have safe : Safe alone.source alone := safe_ofSource alone.source s.keepsTrivia
  have narrowed : s.narrow start length = alone.within s start := by
    have limit : start + alone.limit = min (start + length) s.source.size := size
    simp only [narrow, reset, within, ← limit]
    simp [alone, ofSource]
  refine ⟨?_, ?_⟩
  · rw [narrowed]
    exact trace_within plain excerpt unmarked safe
  · rw [narrowed, run_within plain excerpt unmarked safe]
    exact rewind_bookmark (safe.run calls).intact (keepsTrivia_run plain safe)

/-- A pattern that goes on to the end of the range, not to the slash behind it. -/
theorem trace_narrow_unclosed_pattern :
    let s := (ofSource (.ofString "a(/é/)") false).scan
    let calls := Session.call (.read .plain) (call (.reread .slash) done)
    let alone := ofSource (.ofString "/é") false
    calls.trace (s.narrow 2 3) = (calls.trace alone).map (·.within s 2) ∧
      (calls.run (s.narrow 2 3)).rewind s.bookmark = s := by
  intro s calls alone
  have none : ['<', '=', '>', '|'].all fun c =>
      ¬ List.replicate 7 c <:+: (s.source.slice 2 (min (2 + 3) s.source.size)).toList := by
    decide
  exact trace_narrow s 2 3 calls rfl (by decide) (by decide) (by decide)
    fun c hc => of_decide_eq_true (List.all_eq_true.mp none c hc)

end Session

end Scanner
end ScriptGrammar
