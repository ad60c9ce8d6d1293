import ScriptGrammar.Proofs.Scanner.Behind
import ScriptGrammar.Proofs.Scanner.Lossless

/-!
# Trivia kept and trivia passed over

A scanner that passes trivia over goes through the stations of one that keeps it, those of trivia
left out. It differs there in two things only: its token reaches back over the trivia, and has its
flags.
-/

namespace ScriptGrammar

theorem Kind.not_isTrivia_of_isWord {k : Kind} (h : k.isWord) : k.isTrivia = false := by
  cases k <;> first | rfl | exact absurd h (by decide)

/-- A kind of token that is no trivia, no number and no word. -/
def Kind.isSign (k : Kind) : Bool :=
  !(k.isTrivia || k.isWord || k == .numericLiteral || k == .bigIntLiteral)

theorem Kind.isSign_of_isPunctuation {k : Kind} (h : k.isPunctuation) : k.isSign := by
  cases k <;> first | rfl | exact absurd h (by decide)

theorem Kind.not_isTrivia_of_isSign {k : Kind} (h : k.isSign) : k.isTrivia = false := by
  cases k <;> first | rfl | exact absurd h (by decide)

namespace Scanner

variable {s t : Scanner} {full : Nat} {f : TokenFlags}

/-- What is read from `s` on: a number where one begins, a name where one begins, or something that
is neither. -/
inductive Finds (s : Scanner) : Scanner → Prop
  | sign {t : Scanner} (other : t.kind.isSign) : Finds s t
  | number {c : Char} (here : s.peek 0 = some c)
      (digit : c.isDigit ∨ c = '.' ∧ (s.peek 1).any Char.isDigit) : Finds s s.scanNumber
  | word (begins : s.isIdentifierAt s.stop) (ok : Bool) : Finds s (s.check ok).scanIdentifier

theorem isSign_scanTemplate (reports : Bool) (s : Scanner) :
    (s.scanTemplate reports).kind.isSign := by
  simp only [scanTemplate]
  generalize (if reports = true then EscapeContext.template else .taggedTemplate) = context
  split <;> split <;> rfl

theorem finds_scanWord (s : Scanner) : Finds s s.scanWord := by
  simp only [scanWord]
  split
  · next begins =>
    obtain ⟨ok, same⟩ := touchName_eq s.stop s
    rw [same]
    exact .word begins ok
  · exact .sign rfl

theorem finds_scanToken (s : Scanner) : Finds s s.scanToken := by
  have chooses := chooses_scanToken s
  generalize s.scanToken = t at chooses ⊢
  cases chooses with
  | sign signs => exact .sign (Kind.isSign_of_isPunctuation signs.spec.1)
  | number c here digit => exact .number here digit
  | string quote =>
    apply Finds.sign
    simp only [scanString]
    split <;> rfl
  | template => exact .sign (isSign_scanTemplate false s)
  | privateName =>
    apply Finds.sign
    simp only [scanPrivateIdentifier]
    split <;> rfl
  | word => exact finds_scanWord s
  | ended => exact .sign rfl

theorem isTrivia_scanToken (s : Scanner) : s.scanToken.kind.isTrivia = false := by
  have found := finds_scanToken s
  generalize s.scanToken = t at found
  cases found with
  | sign other => exact Kind.not_isTrivia_of_isSign other
  | number => rcases kind_scanNumber s with kind | kind <;> rw [kind] <;> rfl
  | word => exact Kind.not_isTrivia_of_isWord (isWord_scanIdentifier _)

theorem isTrivia_turn (s : Scanner) : s.turn.2.kind.isTrivia = s.turn.1 := by
  simp only [turn]
  split
  · rfl
  · cases found : ({ s with start := s.stop } : Scanner).scanTrivia with
    | mk any t =>
      cases any with
      | true =>
        have trivia := kind_scanTrivia (s := { s with start := s.stop }) (by rw [found])
        rw [found] at trivia
        exact trivia
      | false => exact isTrivia_scanToken t

theorem turn_behind (plain : f.unicodeEscape = false) :
    (s.behind full f).turn = (s.turn.1, s.turn.2.behind full f) := by
  let b : Scanner := { s with start := s.stop }
  show (if (b.behind full f).atEnd then (false, { b.behind full f with kind := .endOfFileToken })
    else ((b.behind full f).scanTrivia.1, if (b.behind full f).scanTrivia.1
      then (b.behind full f).scanTrivia.2 else (b.behind full f).scanTrivia.2.scanToken)) = _
  rw [atEnd_behind, scanTrivia_behind, scanToken_behind plain, ← ite_behind]
  simp only [turn]
  split
  · rfl
  · rfl

/-- Trivia leaves the value alone, and notes no escape. -/
theorem scanTrivia_keeps (s : Scanner) : s.scanTrivia.2.value = s.value ∧
    s.scanTrivia.2.flags.unicodeEscape = s.flags.unicodeEscape := by
  have tries := tries_scanTrivia s
  generalize s.scanTrivia = r at tries ⊢
  cases tries with
  | lineBreak _ touched =>
    obtain ⟨ok, rfl⟩ := touched.check
    exact ⟨rfl, rfl⟩
  | blanks _ touched =>
    obtain ⟨ok, rfl⟩ := touched.check
    exact ⟨rfl, rfl⟩
  | script => exact ⟨rfl, rfl⟩
  | lineComment => exact ⟨rfl, rfl⟩
  | blockComment =>
    have closes := closes_scanBlockComment s
    generalize s.scanBlockComment = t at closes ⊢
    cases closes <;> exact ⟨rfl, rfl⟩
  | marker => exact ⟨rfl, rfl⟩
  | solid _ touched =>
    obtain ⟨ok, rfl⟩ := touched.check
    exact ⟨rfl, rfl⟩
  | ended touched =>
    obtain ⟨ok, rfl⟩ := touched.check
    exact ⟨rfl, rfl⟩

theorem turn_keeps (found : s.turn.1 = true) : s.turn.2.value = s.value ∧
    s.turn.2.flags.unicodeEscape = s.flags.unicodeEscape := by
  have keeps := scanTrivia_keeps { s with start := s.stop }
  simp only [turn] at found ⊢
  split
  · next ends => simp [ends] at found
  · next more =>
    rw [if_neg more] at found
    dsimp only at found
    rw [if_pos found]
    exact keeps

/-- The stations of a scanner that keeps trivia, as one that passes it over has them. Trivia not
yet passed on to a token began at `full` and left `f`. -/
def withoutTrivia : (full : Nat) → (f : TokenFlags) → List Scanner → List Scanner
  | _, _, [] => []
  | full, f, t :: ts =>
    if t.kind.isTrivia then withoutTrivia full (t.flags.union f) ts
    else t.behind full f :: withoutTrivia t.stop {} ts

/-- The stations from `t` on. -/
def trail (fuel : Nat) (t : Scanner) : List Scanner :=
  if t.kind == .endOfFileToken then [t] else t :: stations fuel t

theorem stations_succ (fuel : Nat) (s : Scanner) : stations (fuel + 1) s = trail fuel s.scan := rfl

/-- Behind a token, nothing of the trivia before it is left. -/
theorem scan_behind (s : Scanner) : (s.behind full f).scan =
    scanFrom (s.limit - s.stop + 1) (s.begin.behind s.stop {}) := rfl

/-- Trivia found and not kept is where the next turn begins. -/
theorem behind_begin (h : t.value = "") :
    t.behind full f = t.begin.behind full (t.flags.union f) := by
  simp only [behind, begin, h]
  rfl

/-- A scan that is behind trivia already leads to the next stations that are no trivia. -/
theorem trail_behind {k m n : Nat} (hs : s.Stands) (keeps : s.keepsTrivia)
    (plain : f.unicodeEscape = false) (hk : s.limit - s.stop < k) (hm : s.limit - s.stop ≤ m)
    (hn : s.limit - s.stop < n) :
    trail m (scanFrom n (s.begin.behind full f)) = withoutTrivia full f (stations k s) := by
  induction k generalizing s full f m n with
  | zero => omega
  | succ k ih =>
    obtain ⟨n, rfl⟩ : ∃ i, n = i + 1 := ⟨n - 1, by omega⟩
    have follows := follows_scan hs
    have stands := follows.sound.stands
    have kept : s.scan.keepsTrivia := follows.keeps.keepsTrivia.trans keeps
    have limit := follows.keeps.limit
    have bound := stop_le_limit stands
    have same : s.begin.turn.2 = s.scan := (scan_of_keepsTrivia hs keeps).symm
    have trivia := isTrivia_turn s.begin
    rw [same] at trivia
    have turned : scanFrom (n + 1) (s.begin.behind full f) =
        if s.scan.kind.isTrivia then scanFrom n (s.scan.behind full f)
        else s.scan.behind full f := by
      rw [scanFrom_succ, turn_behind plain, same, trivia]
      cases s.begin.turn.1 <;> rfl
    rw [turned, stations_succ]
    by_cases found : s.scan.kind.isTrivia = true
    · have more : s.scan.kind ≠ .endOfFileToken := by
        intro ended
        rw [ended] at found
        cases found
      have lt := lt_scan hs more
      obtain ⟨value, escape⟩ := turn_keeps (s := s.begin) (trivia.symm.trans found)
      rw [same] at value escape
      have still : (s.scan.flags.union f).unicodeEscape = false := by
        simp [TokenFlags.union, escape, plain, begin]
      rw [if_pos found, behind_begin value, ih stands kept still (by omega) (by omega) (by omega)]
      simp [trail, more, withoutTrivia, found]
    · rw [if_neg found]
      by_cases ended : s.scan.kind = .endOfFileToken
      · simp [trail, ended, withoutTrivia, show Kind.endOfFileToken.isTrivia = false from rfl]
      · have lt := lt_scan hs ended
        obtain ⟨m, rfl⟩ : ∃ i, m = i + 1 := ⟨m - 1, by omega⟩
        have next : stations (m + 1) (s.scan.behind full f) =
            withoutTrivia s.scan.stop {} (stations k s.scan) := by
          rw [stations_succ, scan_behind]
          exact ih stands kept rfl (by omega) (by omega) (by omega)
        simp [trail, ended, withoutTrivia, found, next]

/-- Passing trivia over leaves out its stations. -/
theorem rest_withoutTrivia (src : Source) :
    (ofSource src false).rest = withoutTrivia 0 {} (ofSource src true).rest := by
  have stands : (ofSource src true).Stands := ⟨rfl, Source.isBoundary_zero⟩
  have same : ofSource src false = (ofSource src true).behind 0 {} := rfl
  rw [same, rest, rest, stations_succ, scan_behind]
  exact trail_behind stands rfl rfl (Nat.lt_succ_self _) (Nat.le_refl _) (Nat.lt_succ_self _)

/-- Kind, range and value of the token. -/
def reading (s : Scanner) : Kind × Range × String := (s.kind, s.range, s.value)

/-- For each token that is no trivia, its own flags and those of the trivia before it. -/
def gatheredFlags : (f : TokenFlags) → List Scanner → List TokenFlags
  | _, [] => []
  | f, t :: ts =>
    if t.kind.isTrivia then gatheredFlags (t.flags.union f) ts
    else t.flags.union f :: gatheredFlags {} ts

theorem map_reading_withoutTrivia (full : Nat) (f : TokenFlags) (ts : List Scanner) :
    (withoutTrivia full f ts).map reading =
      (ts.filter fun t => !t.kind.isTrivia).map reading := by
  induction ts generalizing full f with
  | nil => rfl
  | cons t ts ih =>
    by_cases h : t.kind.isTrivia = true
    · simp [withoutTrivia, h, ih]
    · simp only [withoutTrivia, h, Bool.false_eq_true, if_false, List.map_cons, ih, Bool.not_false,
        List.filter_cons_of_pos]
      rfl

theorem map_flags_withoutTrivia (full : Nat) (f : TokenFlags) (ts : List Scanner) :
    (withoutTrivia full f ts).map (·.flags) = gatheredFlags f ts := by
  induction ts generalizing full f with
  | nil => rfl
  | cons t ts ih =>
    by_cases h : t.kind.isTrivia = true
    · simp [withoutTrivia, gatheredFlags, h, ih]
    · simp [withoutTrivia, gatheredFlags, h, ih, behind]

theorem withoutTrivia_concat (h : t.kind.isTrivia = false) (full : Nat) (f : TokenFlags)
    (ts : List Scanner) :
    ∃ us full' f', withoutTrivia full f (ts ++ [t]) = us ++ [t.behind full' f'] := by
  induction ts generalizing full f with
  | nil => exact ⟨[], full, f, by simp [withoutTrivia, h]⟩
  | cons u ts ih =>
    by_cases trivia : u.kind.isTrivia = true
    · obtain ⟨us, full', f', same⟩ := ih full (u.flags.union f)
      exact ⟨us, full', f', by simp [withoutTrivia, trivia, same]⟩
    · obtain ⟨us, full', f', same⟩ := ih u.stop {}
      exact ⟨u.behind full f :: us, full', f', by simp [withoutTrivia, trivia, same]⟩

/-- Scanning with and without trivia gives the same tokens, trivia left out, and the same
diagnostics. What passed trivia leaves on a token are its flags. -/
theorem modes_agree (src : Source) :
    ∃ tokens last all allLast,
      Runs (ofSource src false) tokens last ∧ Runs (ofSource src true) all allLast ∧
      (tokens ++ [last]).map reading =
        ((all ++ [allLast]).filter fun t => !t.kind.isTrivia).map reading ∧
      (tokens ++ [last]).map (·.flags) = gatheredFlags {} (all ++ [allLast]) ∧
      last.pending = allLast.pending := by
  obtain ⟨tokens, last, runs, rest⟩ :=
    runs_rest (s := ofSource src false) ⟨rfl, Source.isBoundary_zero⟩
  obtain ⟨all, allLast, allRuns, allRest⟩ :=
    runs_rest (s := ofSource src true) ⟨rfl, Source.isBoundary_zero⟩
  have same := rest_withoutTrivia src
  rw [rest, allRest] at same
  have ended : allLast.kind.isTrivia = false := by
    rw [allRuns.kind.2]
    rfl
  obtain ⟨us, full, f, split⟩ := withoutTrivia_concat ended 0 {} all
  have last : last = allLast.behind full f := by
    have both := same.trans split
    simpa using congrArg List.getLast? both
  refine ⟨tokens, _, all, allLast, runs, allRuns, ?_, ?_, ?_⟩
  · rw [same]
    exact map_reading_withoutTrivia _ _ _
  · rw [same]
    exact map_flags_withoutTrivia _ _ _
  · rw [last]
    rfl

end Scanner
end ScriptGrammar
