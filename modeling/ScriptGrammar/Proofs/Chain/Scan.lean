import ScriptGrammar.Proofs.Chain.Nesting
import ScriptGrammar.Proofs.Scanner.Facing

/-!
# Reading the words of a chain

The scanner takes the words of a chain one by one. A name comes whole, an operator too, but for
those that begin with `>`: of them the first character comes alone, and the rest with it when the
token is read again.
-/

namespace ScriptGrammar

open OperatorChain (tail)

namespace PlainName

variable (n : PlainName)

theorem spec : n.text.toList.head?.any isIdentifierStart ∧
    (∀ c ∈ n.text.toList, isIdentifierPart c) ∧ Kind.ofWord n.text = .identifier := by
  simpa [isPlainName, and_assoc] using n.plain

end PlainName

namespace Scanner

variable {s : Scanner} {cs : List Char}

theorem endsWord_space (cs : List Char) : EndsWord (' ' :: cs) := by
  intro c same
  obtain rfl : ' ' = c := Option.some.inj same
  decide

theorem endsWord_tail (r : List (Operator × PlainName)) : EndsWord (tail r) := by
  cases r with
  | nil => exact fun _ no => (nomatch no)
  | cons p r => exact endsWord_space _

theorem solid_word {name : List Char} (h : s.Faces (name ++ cs))
    (start : name.head?.any isIdentifierStart) : s.scanTrivia = (false, s) := by
  cases name with
  | nil => cases start
  | cons c name =>
    have start : isIdentifierStart c := start
    have other (d : Char) (hd : isIdentifierStart d = false) : c ≠ d := by
      rintro rfl
      rw [hd] at start
      cases start
    refine scanTrivia_eq h (not_isSpace_of_isIdentifierStart start)
      ⟨other _ (by decide), other _ (by decide)⟩ fun among => ?_
    have none : ['<', '=', '>', '|'].all (!isIdentifierStart ·) := by decide
    have none := List.all_eq_true.mp none c among
    rw [start] at none
    cases none

/-- A word is read from its first character on, a blank before it passed over. -/
theorem took_scan_word {name : List Char} (h : s.Faces (' ' :: (name ++ cs)))
    (skips : s.keepsTrivia = false) (start : name.head?.any isIdentifierStart)
    (parts : ∀ d ∈ name, isIdentifierPart d) (ends : EndsWord cs) :
    Took s s.scan (Kind.ofWord (String.ofList name)) cs ∧ s.scan.value = String.ofList name := by
  have read := took_word h.blanked start parts ends rfl rfl
  have solid := solid_word h.blanked start
  cases name with
  | nil => cases start
  | cons c name =>
    rw [← scan_eq_of_blank h skips (not_isSpace_of_isIdentifierStart start) solid] at read
    exact ⟨⟨read.1.kind, read.1.faces, read.1.pending⟩, read.2⟩

/-- Seven equal characters would make a marker. -/
theorem not_isConflictMarker {i : Nat} (hi : i < markerLength) (differs : s.peek i ≠ s.peek 0) :
    s.isConflictMarker s.stop = false := by
  rw [Bool.eq_false_iff]
  intro marker
  simp only [isConflictMarker, Bool.and_eq_true, List.all_eq_true, beq_iff_eq] at marker
  exact differs (marker.1.2 i (List.mem_range.mpr hi))

theorem kind_take (n : Nat) (k : Kind) : (s.take n k).kind = k := rfl

theorem took_take {as : List Char} (h : s.Faces (as ++ cs)) (thin : ∀ a ∈ as, a.utf8Size = 1)
    (k : Kind) : Took s (s.take as.length k) k cs :=
  ⟨rfl, h.moved rfl rfl (by rw [length_layout_of_thin thin]; rfl), rfl⟩

/-- An operator that is no word is taken whole, if need be on second reading. It is no trivia: the
blank behind it tells it from a comment and from a marker. -/
theorem scanToken_sign {e : Kind × String} (listed : e ∈ joiningOperators)
    (sign : e.1.isWord = false) (h : s.Faces (e.2.toList ++ ' ' :: cs)) :
    s.scanTrivia = (false, s) ∧ Took s s.scanToken.rescanGreater e.1 (' ' :: cs) := by
  have thin : ∀ a ∈ e.2.toList, a.utf8Size = 1 := by
    have all : ∀ e ∈ joiningOperators, e.2.toList.all (·.utf8Size == 1) := by decide
    simpa using all e listed
  have short : ∀ e ∈ joiningOperators, e.1.isWord = false → e.2.toList.length < markerLength ∧
      e.2.toList.head? ≠ none ∧ e.2.toList.head? ≠ some ' ' := by decide
  have peek (i : Nat) (le : i ≤ e.2.toList.length) : s.peek i = (e.2.toList ++ ' ' :: cs)[i]? :=
    h.peek_thin thin le
  have plain : s.isConflictMarker s.stop = false := by
    obtain ⟨lt, some, other⟩ := short e listed sign
    apply not_isConflictMarker lt
    rw [peek _ (Nat.le_refl _), peek 0 (Nat.zero_le _)]
    cases first : e.2.toList with
    | nil => exact absurd (by rw [first]; rfl) some
    | cons c as =>
      rw [first] at other
      simpa [eq_comm] using other
  suffices s.scanTrivia = (false, s) ∧
      s.scanToken.rescanGreater = s.take e.2.toList.length e.1 by
    exact ⟨this.1, this.2 ▸ took_take h thin e.1⟩
  simp only [joiningOperators, List.mem_cons, List.not_mem_nil, or_false] at listed
  rcases listed with rfl | rfl | rfl | rfl | rfl | rfl | rfl | rfl | rfl | rfl | rfl | rfl | rfl |
    rfl | rfl | rfl | rfl | rfl | rfl | rfl | rfl | rfl | rfl | rfl | rfl
  all_goals first
    | exact absurd sign (by decide)
    | exact ⟨by simp [scanTrivia, isAscii, peek, plain],
        by simp [scanToken, loneToken?, scanOperatorOrWord, scanQuestion, scanLess, scanEquals,
          scanExclamation, scanDoubled, scanStep, scanWithEquals, rescanGreater, peek_take,
          take_take, kind_take, peek]⟩

theorem pending_rescanGreater (s : Scanner) : s.rescanGreater.pending = s.pending := by
  rcases rescanGreater_cases s with same | ⟨_, n, k, _, same, _⟩
  · rw [same]
  · rw [same]
    rfl

/-- An operator with a blank on each side. -/
theorem took_scan_operator (o : Operator) (h : s.Faces (' ' :: (o.text.toList ++ ' ' :: cs)))
    (skips : s.keepsTrivia = false) : Took s s.scan.rescanGreater o.kind (' ' :: cs) := by
  cases sign : o.kind.isWord with
  | true =>
    have words : ∀ e ∈ joiningOperators, e.1.isWord = true →
        e.2.toList.head?.any isIdentifierStart ∧ e.2.toList.all isIdentifierPart ∧
        Kind.ofWord (String.ofList e.2.toList) = e.1 ∧ e.1 ≠ .greaterThanToken := by decide
    obtain ⟨start, parts, kind, other⟩ := words _ o.listed sign
    obtain ⟨took, _⟩ := took_scan_word h skips start (List.all_eq_true.mp parts)
      (endsWord_space cs)
    have kind := took.kind.trans kind
    rcases rescanGreater_cases s.scan with same | ⟨angle, _⟩
    · rw [same]
      exact ⟨kind, took.faces, took.pending⟩
    · exact absurd (kind.symm.trans angle) other
  | false =>
    have solid : ∀ e ∈ joiningOperators, e.2.toList.head?.any fun c => !isSpace c := by decide
    obtain ⟨plain, took⟩ := scanToken_sign o.listed sign h.blanked
    have solid := solid _ o.listed
    cases first : o.text.toList with
    | nil =>
      simp only [first] at solid
      cases solid
    | cons c as =>
      simp only [first] at solid h
      have scanned := scan_eq_of_blank h skips (by simpa using solid) plain
      rw [scanned]
      exact ⟨took.kind, took.faces, took.pending⟩

/-- The scanner has taken the name `n`, and the operators and names `r` are left. -/
structure OnName (s : Scanner) (n : PlainName) (r : List (Operator × PlainName)) : Prop where
  kind : s.kind = .identifier
  value : s.value = n.text
  faces : s.Faces (tail r)

/-- The scanner has taken the operator `o`, perhaps only on second reading. -/
structure OnOperator (s : Scanner) (o : Operator) (n : PlainName)
    (r : List (Operator × PlainName)) : Prop where
  kind : s.kind = o.kind
  faces : s.Faces (' ' :: (n.text.toList ++ tail r))

/-- The scanner is on the first word behind a name. -/
def Behind (s : Scanner) : List (Operator × PlainName) → Prop
  | [] => s.kind = .endOfFileToken
  | (o, n) :: r => s.rescanGreater.OnOperator o n r

theorem onName_scan {n : PlainName} {r : List (Operator × PlainName)}
    (h : s.Faces (' ' :: (n.text.toList ++ tail r))) (skips : s.keepsTrivia = false) :
    s.scan.OnName n r ∧ s.scan.pending = s.pending := by
  obtain ⟨start, parts, kind⟩ := n.spec
  obtain ⟨took, value⟩ := took_scan_word h skips start parts (endsWord_tail r)
  rw [String.ofList_toList] at took value
  exact ⟨⟨took.kind.trans kind, value, took.faces⟩, took.pending⟩

/-- The first name of a chain has no blank before it. -/
theorem onName_scan_first {n : PlainName} {r : List (Operator × PlainName)}
    (h : s.Faces (n.text.toList ++ tail r)) : s.scan.OnName n r ∧ s.scan.pending = s.pending := by
  obtain ⟨start, parts, kind⟩ := n.spec
  have opened : s.opened.Faces (n.text.toList ++ tail r) := ⟨h.whole, h.text⟩
  obtain ⟨took, value⟩ := took_word opened start parts (endsWord_tail r) rfl rfl
  have solid := solid_word opened start
  have scanned : s.scan = s.opened.scanToken := by
    cases first : n.text.toList with
    | nil =>
      rw [first] at start
      cases start
    | cons c cs =>
      rw [first] at h
      exact scan_eq h solid
  rw [String.ofList_toList] at took value
  rw [scanned]
  exact ⟨⟨took.kind.trans kind, value, took.faces⟩, took.pending⟩

theorem behind_scan {r : List (Operator × PlainName)} (h : s.Faces (tail r))
    (skips : s.keepsTrivia = false) : s.scan.Behind r ∧ s.scan.pending = s.pending := by
  cases r with
  | nil =>
    rw [scan_end h]
    exact ⟨rfl, rfl⟩
  | cons p r =>
    have took := took_scan_operator p.1 h skips
    exact ⟨⟨took.kind, took.faces⟩, (pending_rescanGreater _).symm.trans took.pending⟩

end Scanner
end ScriptGrammar
