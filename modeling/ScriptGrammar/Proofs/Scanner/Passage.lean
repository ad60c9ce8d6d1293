import ScriptGrammar.Proofs.Scanner.Facing
import ScriptGrammar.Proofs.Scanner.Modes

/-!
# From one token to the next

A scan passes over trivia, run by run, until it comes to a token. Whatever every run of trivia
keeps holds where the token begins, so a property of that place is shown for a single run.
-/

namespace ScriptGrammar.Scanner

variable {s t v : Scanner}

theorem stands_ofSource (src : Source) (keepsTrivia : Bool) : (ofSource src keepsTrivia).Stands :=
  ⟨rfl, Source.isBoundary_zero⟩

/-- The scanner `v` stands behind all trivia, and the token `t` is read there. -/
structure Arrives (v t : Scanner) : Prop where
  start : v.start = v.stop
  more : v.atEnd = false
  solid : v.scanTrivia.1 = false
  token : ∃ ok, t = (v.check ok).scanToken

/-- Where there is no trivia, nothing changes that is looked at. -/
theorem scanTrivia_solid (solid : s.scanTrivia.1 = false) : ∃ ok, s.scanTrivia.2 = s.check ok := by
  have tries := tries_scanTrivia s
  generalize s.scanTrivia = r at tries solid ⊢
  cases tries with
  | solid _ touched => exact touched.check
  | ended touched => exact touched.check
  | _ => cases solid

/-- What a run of trivia reports: nothing, a marker of an unresolved merge, or that a comment goes
on to the end of the text. -/
theorem pending_scanTrivia (s : Scanner) :
    s.scanTrivia.2.pending = s.pending ∨
    (∃ r, s.scanTrivia.2.pending = s.pending.report r .conflictMarker []) ∨
    s.scanTrivia.2.atEnd ∧
      ∃ r, s.scanTrivia.2.pending = s.pending.report r .asteriskSlashExpected [] := by
  have tries := tries_scanTrivia s
  generalize s.scanTrivia = r at tries ⊢
  cases tries with
  | lineBreak _ touched =>
    obtain ⟨ok, rfl⟩ := touched.check
    exact .inl rfl
  | blanks _ touched =>
    obtain ⟨ok, rfl⟩ := touched.check
    exact .inl rfl
  | script => exact .inl rfl
  | lineComment => exact .inl rfl
  | blockComment =>
    have closes := closes_scanBlockComment s
    generalize s.scanBlockComment = t at closes ⊢
    cases closes with
    | closed => exact .inl rfl
    | unclosed => exact .inr (.inr ⟨decide_eq_true (Nat.le_refl s.limit), _, rfl⟩)
  | marker => exact .inr (.inl ⟨_, rfl⟩)
  | solid _ touched =>
    obtain ⟨ok, rfl⟩ := touched.check
    exact .inl rfl
  | ended touched =>
    obtain ⟨ok, rfl⟩ := touched.check
    exact .inl rfl

section

variable {Q : Scanner → Prop} (restart : ∀ u, Q u → Q u.restarted)
  (passes : ∀ u, Q u → u.atEnd = false → u.scanTrivia.1 = true → Q u.scanTrivia.2)

include restart passes

/-- What holds at first and is kept by a run of trivia holds where the token begins. -/
theorem arrives_scanFrom (fuel : Nat) (s : Scanner) (h : Q s)
    (other : fuel = 0 → s.kind.isTrivia) (token : (scanFrom fuel s).kind.isTrivia = false)
    (more : (scanFrom fuel s).kind ≠ .endOfFileToken) :
    ∃ v, Q v ∧ Arrives v (scanFrom fuel s) := by
  induction fuel generalizing s with
  | zero =>
    have trivia := other rfl
    rw [scanFrom] at token
    rw [token] at trivia
    cases trivia
  | succ fuel ih =>
    cases ended : s.restarted.atEnd with
    | true =>
      rw [scanFrom_end ended] at more
      exact absurd rfl more
    | false =>
      cases found : s.restarted.scanTrivia with
      | mk any t =>
        cases any with
        | false =>
          have solid : s.restarted.scanTrivia.1 = false := by rw [found]
          obtain ⟨ok, same⟩ := scanTrivia_solid solid
          rw [found] at same
          exact ⟨s.restarted, restart s h, rfl, ended, solid, ok,
            same ▸ scanFrom_token ended found⟩
        | true =>
          have some : s.restarted.scanTrivia.1 = true := by rw [found]
          have trivia : t.kind.isTrivia := by
            have trivia := kind_scanTrivia some
            rw [found] at trivia
            exact trivia
          have kept : Q t := by
            have kept := passes _ (restart s h) ended some
            rw [found] at kept
            exact kept
          cases keeps : t.keepsTrivia with
          | true =>
            rw [scanFrom_kept ended found keeps, trivia] at token
            cases token
          | false =>
            rw [scanFrom_trivia ended found keeps] at token more ⊢
            exact ih t kept (fun _ => trivia) token more

end

/-- A scanner that passes trivia over comes to something else. -/
theorem isTrivia_scanFrom (fuel : Nat) (s : Scanner) (stands : s.Stands)
    (skips : s.keepsTrivia = false) (enough : s.limit - s.stop < fuel) :
    (scanFrom fuel s).kind.isTrivia = false := by
  induction fuel generalizing s with
  | zero => omega
  | succ fuel ih =>
    cases ended : s.restarted.atEnd with
    | true =>
      rw [scanFrom_end ended]
      rfl
    | false =>
      obtain ⟨onward, lt, _⟩ := scanTrivia_spec s.restarted
      cases found : s.restarted.scanTrivia with
      | mk any t =>
        rw [found] at onward lt
        cases any with
        | false =>
          rw [scanFrom_token ended found]
          exact isTrivia_scanToken t
        | true =>
          have restarted : s.restarted.Stands := ⟨stands.whole, stands.boundary⟩
          have lt : s.stop < t.stop := lt rfl restarted
          have behind : t.Stands := onward.stands restarted
          have bound := stop_le_limit behind
          have limit : t.limit = s.limit := onward.limit
          have keeps : t.keepsTrivia = false := onward.keepsTrivia.trans skips
          rw [scanFrom_trivia ended found keeps]
          exact ih t behind keeps (by omega)

theorem isTrivia_scan (stands : s.Stands) (skips : s.keepsTrivia = false) :
    s.scan.kind.isTrivia = false :=
  isTrivia_scanFrom _ s.begin ⟨stands.whole, stands.boundary⟩ skips (Nat.lt_succ_self _)

/-- Trivia was passed over, from a token on that ended at `s`. -/
structure Passing (s v : Scanner) : Prop where
  source : v.source = s.source
  limit : v.limit = s.limit
  fullStart : v.fullStart = s.stop
  value : v.value = ""
  forward : s.Stands → s.stop ≤ v.stop ∧ s.source.isBoundary v.stop

namespace Passing

theorem begin (s : Scanner) : Passing s s.begin :=
  ⟨rfl, rfl, rfl, rfl, fun hs => ⟨Nat.le_refl _, hs.boundary⟩⟩

theorem restarted (h : Passing s v) : Passing s v.restarted :=
  ⟨h.source, h.limit, h.fullStart, h.value, h.forward⟩

theorem check (h : Passing s v) (ok : Bool) : Passing s (v.check ok) :=
  ⟨h.source, h.limit, h.fullStart, h.value, h.forward⟩

theorem stands (h : Passing s v) (hs : s.Stands) : v.Stands :=
  ⟨by rw [h.limit, h.source]; exact hs.whole, by rw [h.source]; exact (h.forward hs).2⟩

theorem trivia (h : Passing s v) : Passing s v.scanTrivia.2 := by
  obtain ⟨onward, _, _⟩ := scanTrivia_spec v
  refine ⟨onward.source.trans h.source, onward.limit.trans h.limit,
    onward.fullStart.trans h.fullStart, (scanTrivia_keeps v).1.trans h.value, fun hs => ?_⟩
  obtain ⟨le, boundary⟩ := onward.forward (h.stands hs)
  rw [h.source] at boundary
  exact ⟨Nat.le_trans (h.forward hs).1 le, boundary⟩

end Passing

/-- A scan that finds a token passes over trivia and reads it. -/
theorem arrives_scan {Q : Scanner → Prop} (restart : ∀ u, Q u → Q u.restarted)
    (passes : ∀ u, Passing s u → Q u → u.atEnd = false → u.scanTrivia.1 = true →
      Q u.scanTrivia.2)
    (begins : Q s.begin) (token : s.scan.kind.isTrivia = false)
    (more : s.scan.kind ≠ .endOfFileToken) : ∃ v, Passing s v ∧ Q v ∧ Arrives v s.scan := by
  obtain ⟨v, ⟨passing, kept⟩, arrives⟩ :=
    arrives_scanFrom (Q := fun u => Passing s u ∧ Q u)
      (fun u h => ⟨h.1.restarted, restart u h.2⟩)
      (fun u h goes some => ⟨h.1.trivia, passes u h.1 h.2 goes some⟩)
      (s.limit - s.stop + 1) s.begin ⟨.begin s, begins⟩ (fun none => (nomatch none)) token more
  exact ⟨v, passing, kept, arrives⟩

theorem exists_arrives (token : s.scan.kind.isTrivia = false)
    (more : s.scan.kind ≠ .endOfFileToken) : ∃ v, Passing s v ∧ Arrives v s.scan := by
  obtain ⟨v, passing, -, arrives⟩ := arrives_scan (Q := fun _ => True) (fun _ => id)
    (fun _ _ _ _ _ => trivial) trivial token more
  exact ⟨v, passing, arrives⟩

end ScriptGrammar.Scanner
