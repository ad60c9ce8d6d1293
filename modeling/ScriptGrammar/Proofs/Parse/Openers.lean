import ScriptGrammar.Proofs.Parse.Frame
import ScriptGrammar.Proofs.Scanner.Passage

/-!
# Tokens told by their first character

An opening parenthesis, a `<`, a brace and a template each begin with a character of their own,
and so does the brace that may be read again as a piece of a template. In a source without this
character no parse ever comes to such a token, whatever it tries.
-/

namespace ScriptGrammar

/-- The character that a token of this kind begins with, for the kinds told by it. -/
def Kind.opener? : Kind → Option Char
  | .openParenToken => some '('
  | .lessThanToken => some '<'
  | .openBraceToken => some '\x7b'
  | .closeBraceToken => some '\x7d'
  | .noSubstitutionTemplateLiteral | .templateHead => some '\x60'
  | _ => none

/-- No character of `cs` tells a token of this kind. -/
def Kind.Avoids (k : Kind) (cs : List Char) : Prop := ∀ c ∈ cs, k.opener? ≠ some c

/-- No character of `cs` occurs in the source. -/
def Source.Avoids (src : Source) (cs : List Char) : Prop := ∀ c ∈ cs, ∀ p, src.charAt? p ≠ some c

theorem Kind.avoids_of_opener? {k : Kind} {cs : List Char} (h : k.opener? = none) :
    k.Avoids cs := fun _ _ told => by
  rw [h] at told
  cases told

theorem Kind.opener?_of_isWord {k : Kind} (h : k.isWord) : k.opener? = none := by
  cases k <;> first | rfl | exact absurd h (by decide)

theorem Kind.opener?_of_isTrivia {k : Kind} (h : k.isTrivia) : k.opener? = none := by
  cases k <;> first | rfl | exact absurd h (by decide)

namespace Scanner

variable {s t : Scanner} {c d : Char} {cs : List Char}

theorem opener?_of_mem_punctuators {e : Kind × String} (listed : e ∈ Kind.punctuators)
    (h : e.1.opener? = some d) : e.2.toList.head? = some d := by
  have all : ∀ e ∈ Kind.punctuators, e.1.opener?.all (e.2.toList.head? == some ·) := by
    decide +kernel
  have told := all e listed
  rw [h] at told
  exact eq_of_beq told

theorem opener?_ite {p : Prop} [Decidable p] (hs : s.kind.opener? = none)
    (ht : t.kind.opener? = none) : (if p then s else t).kind.opener? = none := by
  split
  · exact hs
  · exact ht

theorem opener?_scanTemplate (reports : Bool) (s : Scanner) :
    (s.scanTemplate reports).kind.opener? = none ∨
      (s.scanTemplate reports).kind.opener? = some '\x60' := by
  simp only [scanTemplate]
  generalize (if reports = true then EscapeContext.template else .taggedTemplate) = context
  split <;> split <;> first | exact .inl rfl | exact .inr rfl

/-- A token with an opener begins with it. -/
theorem opener?_scanToken (h : s.scanToken.kind.opener? = some d) : s.peek 0 = some d := by
  have chooses := chooses_scanToken s
  generalize s.scanToken = t at chooses h
  have none {t : Scanner} (plain : t.kind.opener? = none) (h : t.kind.opener? = some d) :
      s.peek 0 = some d := by
    rw [plain] at h
    cases h
  cases chooses with
  | sign signs =>
    obtain ⟨_, _, c, cs, rfl⟩ := signs.spec
    have told := opener?_of_mem_punctuators signs.listed h
    rw [String.toList_ofList] at told
    exact signs.meets.1.trans told
  | number => exact none (by rcases kind_scanNumber s with h | h <;> rw [h] <;> rfl) h
  | string quote => exact none (opener?_ite rfl rfl) h
  | template here =>
    rcases opener?_scanTemplate false s with plain | template
    · exact none plain h
    · exact here.trans (template.symm.trans h)
  | privateName => exact none (opener?_ite rfl rfl) h
  | word =>
    exact none (opener?_ite (Kind.opener?_of_isWord (isWord_scanIdentifier _)) rfl) h
  | ended => exact none rfl h

theorem avoids_of_begins (lacks : s.source.Avoids cs)
    (begins : ∀ d, t.kind.opener? = some d → s.peek 0 = some d) : t.kind.Avoids cs :=
  fun d among told => lacks d among _ (charAt?_eq_some.mp (begins d told)).2

theorem avoids_scan (lacks : s.source.Avoids cs) : s.scan.kind.Avoids cs := by
  intro d among told
  have other (k : Kind) (plain : k.opener? = none) : s.scan.kind ≠ k := by
    rintro rfl
    cases plain.symm.trans told
  have token : s.scan.kind.isTrivia = false := Bool.eq_false_iff.mpr fun trivia =>
    other _ (Kind.opener?_of_isTrivia trivia) rfl
  obtain ⟨v, passing, arrives⟩ := exists_arrives token (other _ rfl)
  obtain ⟨ok, same⟩ := arrives.token
  have lacks : (v.check ok).source.Avoids cs := passing.source ▸ lacks
  exact avoids_of_begins lacks (fun _ => opener?_scanToken) d among (same ▸ told)

theorem avoids_scanContent (lacks : s.source.Avoids cs) : s.scanContent.kind.Avoids cs := by
  have begins : s.scanContent.kind.opener? = none ∨
      s.scanContent.kind.opener? = s.peek 0 := by
    simp only [scanContent, scanContentRun]
    split
    · exact .inl rfl
    split
    · next here =>
      split
      · exact .inl rfl
      · exact .inr here.symm
    · next here => exact .inr here.symm
    · split
      · exact .inl rfl
      · simp only [kind_setValue]
        split <;> exact .inl rfl
  rcases begins with plain | begins
  · exact Kind.avoids_of_opener? plain
  · exact avoids_of_begins (s := s) lacks fun d opens => begins ▸ opens

theorem avoids_scanAttributeValue (lacks : s.source.Avoids cs) :
    s.scanAttributeValue.kind.Avoids cs := by
  unfold scanAttributeValue
  split
  · split
    · dsimp only
      split <;> exact Kind.avoids_of_opener? rfl
    · exact avoids_scan lacks
  · exact avoids_scan lacks

/-- Only what begins with a brace or is a template is read again as a template. -/
theorem avoids_rescanTemplate (tagged : Bool) (closed : '\x60' ∈ cs → '\x7d' ∈ cs)
    (plain : s.kind.Avoids cs) : (s.rescanTemplate tagged).kind.Avoids cs := by
  unfold rescanTemplate
  split
  · exact plain
  · next other =>
    have other : s.kind = .closeBraceToken ∨ s.kind = .templateHead ∨
        s.kind = .noSubstitutionTemplateLiteral := by grind
    intro d among told
    rcases opener?_scanTemplate (!tagged) _ with bare | template
    · rw [bare] at told
      cases told
    · obtain rfl : '\x60' = d := Option.some.inj (template.symm.trans told)
      rcases other with opens | opens | opens <;> rw [opens] at plain
      · exact plain _ (closed among) rfl
      · exact plain _ among rfl
      · exact plain _ among rfl

theorem avoids_reread (r : Rereading) (closed : '\x60' ∈ cs → '\x7d' ∈ cs)
    (lacks : s.source.Avoids cs) (plain : s.kind.Avoids cs) : (r.apply s).kind.Avoids cs := by
  cases r with
  | greater =>
    rcases rescanGreater_cases s with same | ⟨_, n, k, d, same, long, _⟩
    · exact (congrArg (·.kind.Avoids cs) same).mpr plain
    · refine (congrArg (·.kind.Avoids cs) same).mpr (Kind.avoids_of_opener? ?_)
      show k.opener? = none
      cases k <;> first | rfl | cases long
  | slash =>
    show s.rescanSlash.kind.Avoids cs
    unfold rescanSlash
    split
    · exact plain
    · exact Kind.avoids_of_opener? rfl
  | template tagged => exact avoids_rescanTemplate tagged closed plain
  | content => exact avoids_scanContent (s := { s with stop := s.fullStart }) lacks
  | tagName =>
    show s.scanTagName.kind.Avoids cs
    cases word : s.kind.isWord with
    | true => exact Kind.avoids_of_opener? (Kind.opener?_of_isWord (isWord_scanTagName word))
    | false =>
      rw [scanTagName_of_not_isWord word]
      exact plain

end Scanner

namespace Parse

open Scanner

variable {s t : State} {cs : List Char}

/-- No parse of a source without the characters comes to a token told by one. -/
theorem Moves.avoids (m : Moves s t) (h : s.Clear) (closed : '\x60' ∈ cs → '\x7d' ∈ cs)
    (lacks : s.scanner.source.Avoids cs) (plain : s.token.Avoids cs) : t.token.Avoids cs := by
  induction m with
  | refl => exact plain
  | trans first _ ih₁ ih₂ =>
    have frame := first.frame h
    exact ih₂ frame.clear (frame.scanner.source ▸ lacks) (ih₁ h lacks plain)
  | advance r s =>
    cases r with
    | plain => exact avoids_scan lacks
    | content => exact avoids_scanContent lacks
    | attributeValue => exact avoids_scanAttributeValue lacks
  | reread r s => exact avoids_reread r closed lacks plain
  | report | close | closeMissing | enterName | starve | checkTurn | rolledBack => exact plain
  | inContext _ _ ih | inList _ _ ih | nested _ ih | kept _ ih =>
    exact ih ⟨h.sound, h.quiet⟩ lacks plain

end Parse
end ScriptGrammar
