import ScriptGrammar.Proofs.Scanner.Reading
import ScriptGrammar.Scanner.Doc

/-!
# Calls in any order

A scanner may be asked for tokens in any way and in any order, and be taken back to where it was.
What one call needs is little: the token lies on boundaries, and a kind that is read again stands
for a first character of one byte. Every call keeps that and tears nothing, so no sequence of
calls does.
-/

namespace ScriptGrammar

namespace Scanner

variable {src : Source} {s t : Scanner} {c : Char}

theorem Reads.of_touch (h : Reads (s.touch s.stop) t) : Reads s t :=
  ⟨(onward_touch_stop s).trans h.onward, fun hs => h.lt ((onward_touch_stop s).stands hs), h.kind,
    h.thin⟩

theorem reads_scanLineBreak {n : Nat} (positive : 0 < n)
    (h : s.source.isBoundary (s.stop + n)) : Reads s (s.scanLineBreak n) :=
  ⟨onward_scanLineBreak h, fun _ => Nat.lt_add_of_pos_right positive, fun no => (nomatch no),
    fun no => (nomatch no)⟩

theorem reads_scanDocWord (h : s.peek 0 = some c) (begins : isIdentifierStart c) :
    Reads s s.scanDocWord := by
  obtain ⟨below, hc⟩ := charAt?_eq_some.mp h
  have far : s.stop < s.scanDocWord.stop :=
    Source.lt_skipWhile hc below (by simp [isIdentifierPart_of_isIdentifierStart begins])
  have word : s.scanDocWord.kind.isWord := Kind.isWord_ofWord _
  refine ⟨?_, fun _ => far, Kind.ne_endOfFile_of_isWord word, fun hk => ?_⟩
  · refine .trans (Onward.moved _ _ _ _ fun hs => ?_)
      ((onward_setValue _).trans (Onward.marked _ _ _))
    exact ⟨Nat.le_of_lt far, Source.isBoundary_skipWhile _ _ hs.boundary⟩
  · exact absurd hk (by simp [Kind.not_reopens_of_isWord word])

theorem follows_scanDocToken (hs : s.Stands) : Follows s s.scanDocToken := by
  have fresh := fresh_opened hs
  have touched := onward_touch_stop s.opened
  simp only [scanDocToken]
  split
  · next none =>
    have none : s.opened.peek 0 = .none := none
    have ends : s.opened.atEnd := by
      by_cases ends : s.opened.atEnd
      · exact ends
      · obtain ⟨c, hc⟩ := exists_peek fresh.toStands ends
        rw [hc] at none
        cases none
    have begun := fresh.begun rfl
    exact .of_reaches ((reaches_end (touched.fresh fresh) rfl ends).after (touched.keeps begun)
      (touched.clean begun).2) rfl
  · next c h =>
    have h : (s.opened.touch s.opened.stop).peek 0 = some c := h
    refine .of_reads (.of_touch ?_) hs
    have behind := peek_boundary h
    split
    · next feed =>
      obtain rfl : c = '\n' := by simpa using feed
      exact reads_scanLineBreak Nat.one_pos behind
    split
    · next feed =>
      obtain rfl : c = '\r' := by simpa using feed
      split
      · next line =>
        have line : s.opened.charAt? (s.stop + 1) = some '\n' := beq_iff_eq.mp line
        exact reads_scanLineBreak Nat.two_pos (isBoundary_succ line rfl)
      · exact reads_scanLineBreak Nat.one_pos behind
    split
    · next blank =>
      exact ⟨onward_scanBlanks _, fun _ => lt_scanBlanks h blank, fun no => (nomatch no),
        fun no => (nomatch no)⟩
    split
    · next at_ =>
      obtain rfl : c = '@' := by simpa using at_
      exact reads_one h rfl (by decide)
    split
    · next star =>
      obtain rfl : c = '*' := by simpa using star
      exact reads_one h rfl (by decide)
    split
    · next begins => exact reads_scanDocWord h begins
    · exact ⟨onward_take _ fun _ => behind, fun _ => Nat.lt_add_of_pos_right c.utf8Size_pos,
        fun no => (nomatch no), fun no => (nomatch no)⟩

/-- One thing a scanner is asked for. -/
inductive Call where
  | read (r : Reading)
  | reread (r : Rereading)
  | docToken
  | keepTrivia (keeps : Bool)

def Call.apply : Call → Scanner → Scanner
  | .read r, s => r.apply s
  | .reread r, s => r.apply s
  | .docToken, s => s.scanDocToken
  | .keepTrivia keeps, s => { s with keepsTrivia := keeps }

/-- A sound scanner of `src` that has torn nothing, and reported only about text between
boundaries. -/
structure Safe (src : Source) (s : Scanner) : Prop where
  source : s.source = src
  sound : s.Sound
  intact : s.torn = false
  pending : ∀ d ∈ s.pending, src.sliceable d.range.pos d.range.stop

theorem safe_ofSource (src : Source) (keepsTrivia : Bool) :
    Safe src (ofSource src keepsTrivia) where
  source := rfl
  sound :=
    ⟨⟨rfl, Source.isBoundary_zero⟩, Source.isBoundary_zero, Source.isBoundary_zero, Nat.le_refl _,
      Nat.le_refl _, fun no => (nomatch no), fun no => (nomatch no)⟩
  intact := rfl
  pending _ no := absurd no (Array.not_mem_empty _)

theorem Safe.step (h : Safe src s) (sound : t.Sound) (keeps : Keeps s t)
    (reported : Reported s.source s.pending t.pending) : Safe src t := by
  obtain ⟨more, same, sliceable⟩ := reported
  refine ⟨keeps.source.trans h.source, sound, keeps.torn.trans h.intact, fun d hd => ?_⟩
  rw [same] at hd
  rcases Array.mem_append.mp hd with old | new
  · exact h.pending d old
  · exact h.source ▸ sliceable d new

theorem Safe.follows (h : Safe src s) (f : Follows s t) : Safe src t :=
  h.step f.sound f.keeps f.reported

theorem Safe.apply (h : Safe src s) (call : Call) : Safe src (call.apply s) := by
  cases call with
  | read r => exact h.follows (r.follows h.sound)
  | reread r =>
    obtain ⟨sound, _, keeps, _⟩ := r.stays h.sound
    exact h.step sound keeps (r.reported h.sound)
  | docToken => exact h.follows (follows_scanDocToken h.sound.stands)
  | keepTrivia keeps =>
    obtain ⟨stands, full, start, full_le, start_le, ended, thin⟩ := h.sound
    exact ⟨h.source, ⟨⟨stands.whole, stands.boundary⟩, full, start, full_le, start_le, ended, thin⟩,
      h.intact, h.pending⟩

/-- Calls one after another. Those of a trial are taken back unless it is kept: a look ahead never
is, an attempt is if it found something. -/
inductive Session where
  | done
  | call (c : Call) (rest : Session)
  | trial (inner : Session) (kept : Bool) (rest : Session)

namespace Session

/-- Where a trial begun at `s` leaves the scanner that it took to `t`. -/
def settle (kept : Bool) (s t : Scanner) : Scanner := if kept then t else t.rewind s.bookmark

def run : Session → Scanner → Scanner
  | done, s => s
  | call c rest, s => rest.run (c.apply s)
  | trial inner kept rest, s => rest.run (settle kept s (inner.run s))

/-- The scanner at first and after each call, those of trials included. -/
def trace : Session → Scanner → List Scanner
  | done, s => [s]
  | call c rest, s => s :: rest.trace (c.apply s)
  | trial inner kept rest, s => inner.trace s ++ rest.trace (settle kept s (inner.run s))

end Session

/-- Going back gives the token up, not what was torn, so both scanners have to be safe. -/
theorem Safe.rewind (h : Safe src s) (k : Safe src t) : Safe src (t.rewind s.bookmark) := by
  have same : t.source = s.source := k.source.trans h.source.symm
  obtain ⟨stands, full, start, full_le, start_le, ended, thin⟩ := h.sound
  refine ⟨k.source, ⟨⟨?_, ?_⟩, ?_, ?_, full_le, start_le, ?_, ?_⟩, k.intact, fun d hd => ?_⟩
  · exact same ▸ stands.whole
  · exact same ▸ stands.boundary
  · exact same ▸ full
  · exact same ▸ start
  · exact same ▸ ended
  · exact same ▸ thin
  · obtain ⟨i, hi, rfl⟩ := Array.mem_extract_iff_getElem.mp hd
    exact k.pending _ (Array.getElem_mem _)

theorem Safe.settle (h : Safe src s) (k : Safe src t) (kept : Bool) :
    Safe src (Session.settle kept s t) := by
  cases kept with
  | true => exact k
  | false => exact h.rewind k

theorem Safe.run (h : Safe src s) (calls : Session) : Safe src (calls.run s) := by
  induction calls generalizing s with
  | done => exact h
  | call c rest ih => exact ih (h.apply c)
  | trial inner kept rest inside behind => exact behind (h.settle (inside h) kept)

theorem Safe.trace (h : Safe src s) (calls : Session) : ∀ t ∈ calls.trace s, Safe src t := by
  induction calls generalizing s with
  | done =>
    intro t ht
    rw [List.mem_singleton.mp ht]
    exact h
  | call c rest ih =>
    intro t ht
    rcases List.mem_cons.mp ht with rfl | ht
    · exact h
    · exact ih (h.apply c) t ht
  | trial inner kept rest inside behind =>
    intro t ht
    rcases List.mem_append.mp ht with ht | ht
    · exact inside h t ht
    · exact behind (h.settle (h.run inner) kept) t ht

namespace Session

/-- However a scanner is called, it cuts the text at boundaries only. After each call the token
lies in the text, trivia before it first, on boundaries, and so does what every diagnostic is
about. -/
theorem trace_in_bounds (src : Source) (keepsTrivia : Bool) (calls : Session) :
    ∀ t ∈ calls.trace (ofSource src keepsTrivia),
      t.torn = false ∧
      (t.fullStart ≤ t.start ∧ t.start ≤ t.stop ∧ t.stop ≤ src.size) ∧
      (src.isBoundary t.fullStart ∧ src.isBoundary t.start ∧ src.isBoundary t.stop) ∧
      ∀ d ∈ t.pending, d.range.pos ≤ d.range.stop ∧ d.range.stop ≤ src.size ∧
        src.isBoundary d.range.pos ∧ src.isBoundary d.range.stop := by
  intro t ht
  obtain ⟨rfl, sound, intact, pending⟩ := (safe_ofSource src keepsTrivia).trace calls t ht
  refine ⟨intact, ⟨sound.fullStart_le, sound.start_le, sound.stop_le⟩,
    ⟨sound.fullStart, sound.start, sound.stands.boundary⟩, fun d hd => ?_⟩
  have sliceable := pending d hd
  simp only [Source.sliceable, Bool.and_eq_true, decide_eq_true_eq] at sliceable
  obtain ⟨⟨le, first⟩, last⟩ := sliceable
  exact ⟨le, Source.le_size_of_isBoundary last, first, last⟩

/-- A pattern that does not end, first looked at and then read. -/
theorem trace_in_bounds_unclosed_pattern :
    let s := (ofSource (.ofString "/é") false).scan
    let look := call (.reread .slash) done
    let calls := call (.read .plain) (trial look false look)
    s.rescanSlash ∈ calls.trace (ofSource (.ofString "/é") false) ∧
      s.rescanSlash.torn = false ∧ s.rescanSlash.stop ≤ 3 ∧
      ∀ d ∈ s.rescanSlash.pending, d.range.pos ≤ d.range.stop ∧ d.range.stop ≤ 3 := by
  intro s look calls
  have member : s.rescanSlash ∈ calls.trace (ofSource (.ofString "/é") false) :=
    .tail _ (List.mem_append_left _ (.tail _ (.head _)))
  have size : (Source.ofString "/é").size = 3 := by decide
  obtain ⟨intact, ⟨_, _, inside⟩, _, pending⟩ :=
    trace_in_bounds (.ofString "/é") false calls s.rescanSlash member
  rw [size] at inside
  refine ⟨member, intact, inside, fun d hd => ?_⟩
  obtain ⟨le, last, _, _⟩ := pending d hd
  exact ⟨le, size ▸ last⟩

end Session

end Scanner
end ScriptGrammar
