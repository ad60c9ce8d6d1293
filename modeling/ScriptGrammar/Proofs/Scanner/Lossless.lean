import ScriptGrammar.Listing
import ScriptGrammar.Proofs.Scanner.Reading

/-!
# Nothing of the text is lost

Scanning goes on until the source ends, since every token takes something. With trivia kept, the
tokens lie end to end, so their texts are the whole text again.
-/

namespace ScriptGrammar.Scanner

variable {s t last : Scanner} {ts : List Scanner} {src : Source} {a b : Nat}

/-- One turn of a scan: whether it found trivia, and the scanner behind what it found. -/
def turn (s : Scanner) : Bool × Scanner :=
  let s := { s with start := s.stop }
  if s.atEnd then (false, { s with kind := .endOfFileToken })
  else
    let (any, t) := s.scanTrivia
    (any, if any then t else t.scanToken)

/-- A scan turns on as long as it finds trivia that is not kept. -/
theorem scanFrom_succ (fuel : Nat) (s : Scanner) : scanFrom (fuel + 1) s =
    if s.turn.1 && !s.turn.2.keepsTrivia then scanFrom fuel s.turn.2 else s.turn.2 := by
  rw [scanFrom, turn]
  dsimp only
  split
  · rfl
  · cases ({ s with start := s.stop } : Scanner).scanTrivia with
    | mk any t =>
      cases any with
      | true => cases keeps : t.keepsTrivia <;> simp [keeps]
      | false => simp

theorem turn_spec (hs : s.Stands) :
    s.turn.2.start = s.stop ∧ s.turn.2.keepsTrivia = s.keepsTrivia := by
  simp only [turn]
  split
  · exact ⟨rfl, rfl⟩
  · next more =>
    obtain ⟨onward, _, still⟩ := scanTrivia_spec { s with start := s.stop }
    cases found : ({ s with start := s.stop } : Scanner).scanTrivia with
    | mk any t =>
      rw [found] at onward still
      cases any with
      | true => exact ⟨onward.start, onward.keepsTrivia⟩
      | false =>
        have stands : t.Stands := onward.stands ⟨hs.whole, hs.boundary⟩
        have reads := reads_scanToken stands (by
          rw [atEnd, still rfl, onward.limit]
          exact more)
        exact ⟨reads.onward.start.trans onward.start,
          reads.onward.keepsTrivia.trans onward.keepsTrivia⟩

/-- With trivia kept, one turn is a scan. -/
theorem scan_of_keepsTrivia (hs : s.Stands) (keeps : s.keepsTrivia) :
    s.scan = s.begin.turn.2 := by
  have same := (turn_spec (s := s.begin) ⟨hs.whole, hs.boundary⟩).2
  have kept : s.begin.turn.2.keepsTrivia = true := same.trans keeps
  rw [scan, scanFrom_succ, kept]
  simp

theorem start_scan (hs : s.Stands) (keeps : s.keepsTrivia) : s.scan.start = s.stop := by
  rw [scan_of_keepsTrivia hs keeps]
  exact (turn_spec (s := s.begin) ⟨hs.whole, hs.boundary⟩).1

/-- Scanning from `s` on gives the tokens `ts`, then the one that ends the source. -/
inductive Runs : Scanner → List Scanner → Scanner → Prop
  | ends {s : Scanner} (h : s.scan.kind = .endOfFileToken) : Runs s [] s.scan
  | goes {s last : Scanner} {ts : List Scanner} (h : s.scan.kind ≠ .endOfFileToken)
      (rest : Runs s.scan ts last) : Runs s (s.scan :: ts) last

/-- A token behind the cursor leaves less to read. -/
theorem lt_scan (hs : s.Stands) (more : s.scan.kind ≠ .endOfFileToken) : s.stop < s.scan.stop := by
  have follows := follows_scan hs
  have le := follows.sound.fullStart_le
  rw [follows.fullStart] at le
  exact Nat.lt_of_le_of_lt le (follows.filled more)

theorem runs_stations (fuel : Nat) (s : Scanner) (hs : s.Stands)
    (enough : s.limit - s.stop < fuel) :
    ∃ ts last, Runs s ts last ∧ stations fuel s = ts ++ [last] := by
  induction fuel generalizing s with
  | zero => omega
  | succ fuel ih =>
    simp only [stations]
    by_cases ended : s.scan.kind = .endOfFileToken
    · exact ⟨[], s.scan, .ends ended, by simp [ended]⟩
    · have follows := follows_scan hs
      have stands := follows.sound.stands
      have lt := lt_scan hs ended
      have bound := stop_le_limit stands
      have limit := follows.keeps.limit
      obtain ⟨ts, last, runs, same⟩ := ih s.scan stands (by omega)
      exact ⟨s.scan :: ts, last, .goes ended runs, by simp [ended, same]⟩

theorem runs_rest (hs : s.Stands) : ∃ ts last, Runs s ts last ∧ s.rest = ts ++ [last] :=
  runs_stations _ s hs (Nat.lt_succ_self _)

theorem Runs.kind (h : Runs s ts last) :
    (∀ t ∈ ts, t.kind ≠ .endOfFileToken) ∧ last.kind = .endOfFileToken := by
  induction h with
  | ends h => exact ⟨by simp, h⟩
  | goes h _ ih => simpa [h] using ih

theorem Runs.sound (h : Runs s ts last) (hs : s.Stands) :
    ∀ t ∈ ts, t.Sound ∧ t.source = s.source := by
  induction h with
  | ends h => simp
  | goes h rest ih =>
    have follows := follows_scan hs
    have behind := ih follows.sound.stands
    rw [follows.keeps.source] at behind
    intro t ht
    rcases List.mem_cons.mp ht with rfl | ht
    · exact ⟨follows.sound, follows.keeps.source⟩
    · exact behind t ht

theorem Sound.slice?_eq (h : s.Sound) : s.source.slice? s.start s.stop = some s.text :=
  if_pos (Source.sliceable_of h.start_le h.start h.stands.boundary)

/-- Tokens that are not empty lie end to end from `a` to `b`. -/
def Tiles : Nat → List Scanner → Nat → Prop
  | a, [], b => a = b
  | a, t :: ts, b => t.start = a ∧ a < t.stop ∧ Tiles t.stop ts b

theorem Runs.tiles (h : Runs s ts last) (hs : s.Stands) (keeps : s.keepsTrivia) :
    Tiles s.stop ts s.source.size ∧ last.start = s.source.size ∧ last.stop = s.source.size := by
  induction h with
  | @ends s h =>
    have follows := follows_scan hs
    have last := follows.sound.ended h
    have le := follows.sound.start_le
    have bound := follows.sound.stop_le
    have start := start_scan hs keeps
    rw [follows.keeps.source] at last bound
    exact ⟨by simp only [Tiles]; omega, last, by omega⟩
  | @goes s _ _ h rest ih =>
    have follows := follows_scan hs
    have start := start_scan hs keeps
    have behind := ih follows.sound.stands (follows.keeps.keepsTrivia.trans keeps)
    rw [follows.keeps.source] at behind
    exact ⟨⟨start, lt_scan hs h, behind.1⟩, behind.2⟩

theorem Tiles.le (h : Tiles a ts b) : a ≤ b := by
  induction ts generalizing a with
  | nil => exact Nat.le_of_eq h
  | cons t ts ih =>
    obtain ⟨_, lt, rest⟩ := h
    exact Nat.le_trans (Nat.le_of_lt lt) (ih rest)

theorem Tiles.join_text (h : Tiles a ts b) (same : ∀ t ∈ ts, t.source = src) :
    String.join (ts.map text) = src.slice a b := by
  induction ts generalizing a with
  | nil =>
    obtain rfl : a = b := h
    rw [Source.slice_self]
    rfl
  | cons t ts ih =>
    obtain ⟨rfl, lt, rest⟩ := h
    have own : t.source = src := same t (.head _)
    rw [List.map_cons, String.join_cons, ih rest fun u hu => same u (.tail _ hu), text, own]
    exact Source.slice_append (Nat.le_of_lt lt) rest.le

/-- Scanning a whole text, trivia kept, ends, and gives the text piece by piece: no token before
the end is empty, each begins where the last one ended, from the start of the text to its end.
These tokens are what a listing shows. -/
theorem scan_lossless (src : Source) :
    ∃ tokens last, Runs (ofSource src true) tokens last ∧
      (ofSource src true).rest = tokens ++ [last] ∧
      ((∀ t ∈ tokens, t.kind ≠ .endOfFileToken) ∧ last.kind = .endOfFileToken) ∧
      (Tiles 0 tokens src.text.utf8ByteSize ∧ last.start = src.text.utf8ByteSize ∧
        last.stop = src.text.utf8ByteSize) ∧
      (∀ t ∈ tokens, src.slice? t.start t.stop = some t.text) ∧
      String.join (tokens.map text) = src.text ∧
      (TokenListing.ofSource src).text = String.join (tokens.map listingLine) := by
  have stands : (ofSource src true).Stands := ⟨rfl, Source.isBoundary_zero⟩
  obtain ⟨tokens, last, runs, rest⟩ := runs_rest stands
  have tiles := runs.tiles stands rfl
  have sound := runs.sound stands
  have whole := tiles.1.join_text fun t ht => (sound t ht).2
  rw [← Source.size_eq_utf8ByteSize]
  refine ⟨tokens, last, runs, rest, runs.kind, tiles, fun t ht => ?_, ?_, ?_⟩
  · obtain ⟨sound, same⟩ := sound t ht
    have cut := sound.slice?_eq
    rw [same] at cut
    exact cut
  · exact whole.trans Source.slice_all
  · simp [TokenListing.ofSource, rest]

end ScriptGrammar.Scanner
