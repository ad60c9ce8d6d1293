import ScriptGrammar.Proofs.Scanner.Onward
import ScriptGrammar.Scanner.Rescan

/-!
# What a token begins as

The table of punctuators is looked at by the first character: each branch of the scanner has its
own few, and takes the longest of them that it meets. So a token is the longest punctuator that a
scan looks for, or it is a number, a string, a template or a name, told by its first character.
-/

namespace ScriptGrammar

namespace Kind

/-- The operators that a `>` may turn out to begin. -/
def extendsGreater : Kind → Bool
  | .greaterThanEqualsToken | .greaterThanGreaterThanToken | .greaterThanGreaterThanEqualsToken
  | .greaterThanGreaterThanGreaterThanToken | .greaterThanGreaterThanGreaterThanEqualsToken => true
  | _ => false

/-- The punctuators that a scan may take: it takes a `>` alone and leaves `</` to content. -/
def isScanned (k : Kind) : Bool := !k.extendsGreater && k != .lessThanSlashToken

/-- The punctuators that a `>` may turn out to be. -/
def isAngle (k : Kind) : Bool := k == .greaterThanToken || k.extendsGreater

/-- The punctuators that a scan may take, by their first character. -/
def signTable : List (Char × List (Kind × List Char)) := [
  ('(', [(.openParenToken, ['('])]), (')', [(.closeParenToken, [')'])]),
  ('\x7b', [(.openBraceToken, ['\x7b'])]), ('\x7d', [(.closeBraceToken, ['\x7d'])]),
  ('[', [(.openBracketToken, ['['])]), (']', [(.closeBracketToken, [']'])]),
  (';', [(.semicolonToken, [';'])]), (',', [(.commaToken, [','])]),
  (':', [(.colonToken, [':'])]), ('~', [(.tildeToken, ['~'])]), ('@', [(.atToken, ['@'])]),
  ('>', [(.greaterThanToken, ['>'])]), ('#', [(.hashToken, ['#'])]),
  ('\x60', [(.backtickToken, ['\x60'])]),
  ('.', [(.dotToken, ['.']), (.dotDotDotToken, ['.', '.', '.'])]),
  ('?', [(.questionToken, ['?']), (.questionDotToken, ['?', '.']),
    (.questionQuestionToken, ['?', '?']), (.questionQuestionEqualsToken, ['?', '?', '='])]),
  ('<', [(.lessThanToken, ['<']), (.lessThanLessThanToken, ['<', '<']),
    (.lessThanEqualsToken, ['<', '=']), (.lessThanLessThanEqualsToken, ['<', '<', '='])]),
  ('=', [(.equalsToken, ['=']), (.equalsEqualsToken, ['=', '=']),
    (.equalsGreaterThanToken, ['=', '>']), (.equalsEqualsEqualsToken, ['=', '=', '='])]),
  ('!', [(.exclamationToken, ['!']), (.exclamationEqualsToken, ['!', '=']),
    (.exclamationEqualsEqualsToken, ['!', '=', '='])]),
  ('+', [(.plusToken, ['+']), (.plusPlusToken, ['+', '+']), (.plusEqualsToken, ['+', '='])]),
  ('-', [(.minusToken, ['-']), (.minusMinusToken, ['-', '-']), (.minusEqualsToken, ['-', '='])]),
  ('*', [(.asteriskToken, ['*']), (.asteriskAsteriskToken, ['*', '*']),
    (.asteriskEqualsToken, ['*', '=']), (.asteriskAsteriskEqualsToken, ['*', '*', '='])]),
  ('/', [(.slashToken, ['/']), (.slashEqualsToken, ['/', '='])]),
  ('%', [(.percentToken, ['%']), (.percentEqualsToken, ['%', '='])]),
  ('&', [(.ampersandToken, ['&']), (.ampersandAmpersandToken, ['&', '&']),
    (.ampersandEqualsToken, ['&', '=']), (.ampersandAmpersandEqualsToken, ['&', '&', '='])]),
  ('|', [(.barToken, ['|']), (.barBarToken, ['|', '|']), (.barEqualsToken, ['|', '=']),
    (.barBarEqualsToken, ['|', '|', '='])]),
  ('^', [(.caretToken, ['^']), (.caretEqualsToken, ['^', '='])])]

def signsFrom (c : Char) : List (Kind × List Char) :=
  ((signTable.find? (·.1 == c)).map (·.2)).getD []

/-- The table of signs is that of the punctuators, all of them in characters of one byte. -/
theorem signTable_spec :
    (∀ f ∈ signTable, ∀ e ∈ f.2, (e.1, String.ofList e.2) ∈ punctuators) ∧
    ∀ e ∈ punctuators, e.2.toList.all (·.utf8Size == 1) ∧
      (e.1.isScanned → e.2.toList.head?.all fun c => (signsFrom c).contains (e.1, e.2.toList)) := by
  decide +kernel

/-- What may stand behind a `>` for it to turn out to be one of them. -/
def angleTails : List (Kind × List Char) := [
  (.greaterThanToken, []), (.greaterThanEqualsToken, ['=']), (.greaterThanGreaterThanToken, ['>']),
  (.greaterThanGreaterThanEqualsToken, ['>', '=']),
  (.greaterThanGreaterThanGreaterThanToken, ['>', '>']),
  (.greaterThanGreaterThanGreaterThanEqualsToken, ['>', '>', '='])]

theorem angleTails_spec :
    (∀ e ∈ angleTails, (e.1, String.ofList ('>' :: e.2)) ∈ punctuators ∧ e.1.isAngle) ∧
    ∀ e ∈ punctuators, e.1.isAngle → e.2.toList.head? = some '>' ∧
      (e.1, e.2.toList.tail) ∈ angleTails := by
  decide +kernel

/-- A punctuator of the table is not empty, and spelled as the table says. -/
theorem spec_of_mem_punctuators {e : Kind × String} (h : e ∈ punctuators) :
    e.1.isPunctuation ∧ e.1.text? = some e.2 ∧ e.2 ≠ "" := by
  have all : ∀ e ∈ punctuators, e.1.isPunctuation ∧ e.1.text? = some e.2 ∧ e.2 ≠ "" := by
    decide +kernel
  exact all e h

end Kind

namespace Scanner

variable {s t : Scanner} {c : Char} {k : Kind} {cs : List Char} {family : Kind → Bool}

/-- The punctuators that a scan looks for at `p`; what stands before a digit is no `?.`. -/
def seeks (s : Scanner) (p : Nat) (k : Kind) : Bool :=
  k.isScanned && !(k == .questionDotToken && (s.charAt? (p + 2)).any Char.isDigit)

/-- The characters, of one byte each, stand from `n` bytes behind the cursor on. -/
def Meets (s : Scanner) (n : Nat) : List Char → Prop
  | [] => True
  | c :: cs => s.peek n = some c ∧ c.utf8Size = 1 ∧ s.Meets (n + 1) cs

theorem peek_take {n : Nat} {k : Kind} (i : Nat) : (s.take n k).peek i = s.peek (n + i) := by
  simp only [peek, take, Nat.add_assoc]
  rfl

theorem take_take (m n : Nat) (k l : Kind) : (s.take m k).take n l = s.take (m + n) l := by
  simp only [take, Nat.add_assoc]

theorem meets_take {m n : Nat} : (s.take m k).Meets n cs ↔ s.Meets (m + n) cs := by
  induction cs generalizing n with
  | nil => exact Iff.rfl
  | cons c cs ih =>
    unfold Meets
    rw [peek_take, ih, Nat.add_assoc]

theorem Meets.isBoundary {n : Nat} (h : s.Meets n (c :: cs)) :
    s.source.isBoundary (s.stop + (n + (c :: cs).length)) := by
  induction cs generalizing n c with
  | nil => exact isBoundary_succ h.1 h.2.1
  | cons d cs ih =>
    have rest := ih h.2.2
    rwa [Nat.add_right_comm, Nat.add_assoc] at rest

/-- The sign `cs` is taken at the cursor, and no longer one of the family is met there. -/
structure Signs (family : Kind → Bool) (s t : Scanner) (cs : List Char) : Prop where
  token : t = s.take cs.length t.kind
  listed : (t.kind, String.ofList cs) ∈ Kind.punctuators
  member : family t.kind
  meets : s.Meets 0 cs
  longest : ∀ e ∈ Kind.punctuators, family e.1 → s.Meets 0 e.2.toList →
    e.2.toList.length ≤ cs.length

theorem Signs.spec (h : Signs family s t cs) :
    t.kind.isPunctuation ∧ t.kind.text? = some (String.ofList cs) ∧ ∃ d ds, cs = d :: ds := by
  obtain ⟨sign, spelled, some⟩ := Kind.spec_of_mem_punctuators h.listed
  refine ⟨sign, spelled, List.exists_cons_of_ne_nil ?_⟩
  rintro rfl
  exact some rfl

/-- The punctuators of a family that begin with `c`. -/
structure Begins (family : Kind → Bool) (c : Char) (signs : List (Kind × List Char)) : Prop where
  all : ∀ e ∈ Kind.punctuators, e.2.toList.head? = some c → family e.1 → (e.1, e.2.toList) ∈ signs
  listed : ∀ e ∈ signs, (e.1, String.ofList e.2) ∈ Kind.punctuators

theorem begins_signsFrom (c : Char) : Begins Kind.isScanned c (Kind.signsFrom c) where
  all e he head scanned := by
    have among := (Kind.signTable_spec.2 e he).2 scanned
    rw [head] at among
    exact List.contains_iff_mem.mp among
  listed e he := by
    unfold Kind.signsFrom at he
    cases found : Kind.signTable.find? (·.1 == c) with
    | none =>
      rw [found] at he
      cases he
    | some f =>
      rw [found] at he
      exact Kind.signTable_spec.1 f (List.mem_of_find?_eq_some found) e he

/-- Of the signs that begin with the character at the cursor, none that is met is longer. -/
theorem signs_take {wider : Kind → Bool} {signs : List (Kind × List Char)}
    (within : ∀ k, family k → wider k) (h : s.peek 0 = some c) (begins : Begins wider c signs)
    (cs : List Char) (mine : (k, cs) ∈ signs) (member : family k) (meets : s.Meets 0 cs)
    (bound : ∀ e ∈ signs, family e.1 → s.Meets 0 e.2 → e.2.length ≤ cs.length) :
    Signs family s (s.take cs.length k) cs := by
  refine ⟨rfl, begins.listed _ mine, member, meets, fun e he other met => ?_⟩
  cases text : e.2.toList with
  | nil => exact Nat.zero_le _
  | cons d ds =>
    rw [text] at met
    obtain rfl : d = c := Option.some.inj (met.1.symm.trans h)
    have among := begins.all e he (by rw [text]; rfl) (within _ other)
    rw [text] at among
    exact bound _ among other met

/-- What a token is: the longest sign that a scan looks for, or what its first character tells. -/
inductive Chooses (s : Scanner) : Scanner → Prop
  | sign {k : Kind} {cs : List Char} (signs : Signs (s.seeks s.stop) s (s.take cs.length k) cs) :
      Chooses s (s.take cs.length k)
  | number (c : Char) (here : s.peek 0 = some c)
      (digit : c.isDigit ∨ c = '.' ∧ (s.peek 1).any Char.isDigit) : Chooses s s.scanNumber
  | string (quote : Char) (here : s.peek 0 = some quote) (among : quote ∈ ['\x27', '\x22']) :
      Chooses s (s.scanString quote)
  | template (here : s.peek 0 = some '\x60') : Chooses s (s.scanTemplate false)
  | privateName (here : s.peek 0 = some '#') : Chooses s s.scanPrivateIdentifier
  | word (c : Char) (here : s.peek 0 = some c) : Chooses s s.scanWord
  | ended (none : s.peek 0 = none) : Chooses s s.scanInvalidCharacter

theorem chooses_take {signs : List (Kind × List Char)} (h : s.peek 0 = some c)
    (begins : Begins Kind.isScanned c signs) (cs : List Char) (mine : (k, cs) ∈ signs)
    (sought : s.seeks s.stop k) (meets : s.Meets 0 cs)
    (bound : ∀ e ∈ signs, s.seeks s.stop e.1 → s.Meets 0 e.2 → e.2.length ≤ cs.length) :
    Chooses s (s.take cs.length k) := by
  have within (k : Kind) (sought : s.seeks s.stop k) : k.isScanned :=
    (Bool.and_eq_true_iff.mp sought).1
  exact .sign (signs_take within h begins cs mine sought meets bound)

theorem chooses_one (h : s.peek 0 = some c) (thin : c.utf8Size = 1)
    (begins : Begins Kind.isScanned c [(k, [c])]) (sought : s.seeks s.stop k) :
    Chooses s (s.take 1 k) :=
  chooses_take h begins [c] (by simp) sought ⟨h, thin, trivial⟩ (by simp)

section Operators

variable {one two oneEquals twoEquals : Kind} (h : s.peek 0 = some c) (thin : c.utf8Size = 1)

include h thin

theorem chooses_scanWithEquals
    (begins : Begins Kind.isScanned c [(one, [c]), (oneEquals, [c, '='])])
    (sought : s.seeks s.stop one ∧ s.seeks s.stop oneEquals) :
    Chooses s (s.scanWithEquals one oneEquals) := by
  simp only [scanWithEquals]
  split
  · next h₁ =>
    exact chooses_take h begins [c, '='] (by simp) sought.2
      ⟨h, thin, eq_of_beq h₁, rfl, trivial⟩ (by simp)
  · next h₁ =>
    have h₁ : s.peek 1 ≠ some '=' := by simpa using h₁
    exact chooses_take h begins [c] (by simp) sought.1 ⟨h, thin, trivial⟩ (by simp [Meets, h₁])

theorem chooses_scanStep
    (begins : Begins Kind.isScanned c [(one, [c]), (two, [c, c]), (oneEquals, [c, '='])])
    (sought : s.seeks s.stop one ∧ s.seeks s.stop two ∧ s.seeks s.stop oneEquals) :
    Chooses s (s.scanStep c one two oneEquals) := by
  simp only [scanStep]
  split
  · next h₁ =>
    exact chooses_take h begins [c, c] (by simp) sought.2.1 ⟨h, thin, eq_of_beq h₁, thin, trivial⟩
      (by simp)
  · next h₁ =>
    have h₁ : s.peek 1 ≠ some c := by simpa using h₁
    split
    · next h₂ =>
      exact chooses_take h begins [c, '='] (by simp) sought.2.2
        ⟨h, thin, eq_of_beq h₂, rfl, trivial⟩ (by simp)
    · next h₂ =>
      have h₂ : s.peek 1 ≠ some '=' := by simpa using h₂
      exact chooses_take h begins [c] (by simp) sought.1 ⟨h, thin, trivial⟩
        (by simp [Meets, h₁, h₂])

theorem chooses_scanDoubled
    (begins : Begins Kind.isScanned c [(one, [c]), (two, [c, c]), (oneEquals, [c, '=']),
      (twoEquals, [c, c, '='])])
    (sought : s.seeks s.stop one ∧ s.seeks s.stop two ∧ s.seeks s.stop oneEquals ∧
      s.seeks s.stop twoEquals) :
    Chooses s (s.scanDoubled c one two oneEquals twoEquals) := by
  simp only [scanDoubled]
  split
  · next h₁ =>
    have h₁ := eq_of_beq h₁
    split
    · next h₂ =>
      exact chooses_take h begins [c, c, '='] (by simp) sought.2.2.2
        ⟨h, thin, h₁, thin, eq_of_beq h₂, rfl, trivial⟩ (by simp)
    · next h₂ =>
      have h₂ : s.peek 2 ≠ some '=' := by simpa using h₂
      exact chooses_take h begins [c, c] (by simp) sought.2.1 ⟨h, thin, h₁, thin, trivial⟩
        (by simp [Meets, h₂])
  · next h₁ =>
    have h₁ : s.peek 1 ≠ some c := by simpa using h₁
    split
    · next h₂ =>
      exact chooses_take h begins [c, '='] (by simp) sought.2.2.1
        ⟨h, thin, eq_of_beq h₂, rfl, trivial⟩ (by simp [Meets, h₁])
    · next h₂ =>
      have h₂ : s.peek 1 ≠ some '=' := by simpa using h₂
      exact chooses_take h begins [c] (by simp) sought.1 ⟨h, thin, trivial⟩
        (by simp [Meets, h₁, h₂])

end Operators

theorem chooses_scanQuestion (h : s.peek 0 = some '?') : Chooses s s.scanQuestion := by
  have begins : Begins Kind.isScanned '?' [(.questionToken, ['?']), (.questionDotToken, ['?', '.']),
      (.questionQuestionToken, ['?', '?']), (.questionQuestionEqualsToken, ['?', '?', '='])] :=
    begins_signsFrom '?'
  simp only [scanQuestion]
  split
  · next h₁ =>
    have h₁ := eq_of_beq h₁
    split
    · next h₂ =>
      exact chooses_take h begins ['?', '?', '='] (by simp) rfl
        ⟨h, rfl, h₁, rfl, eq_of_beq h₂, rfl, trivial⟩ (by simp)
    · next h₂ =>
      have h₂ : s.peek 2 ≠ some '=' := by simpa using h₂
      exact chooses_take h begins ['?', '?'] (by simp) rfl ⟨h, rfl, h₁, rfl, trivial⟩
        (by simp [Meets, h₂])
  · next h₁ =>
    have h₁ : s.peek 1 ≠ some '?' := by simpa using h₁
    split
    · next h₂ =>
      obtain ⟨dot, digit⟩ := Bool.and_eq_true_iff.mp h₂
      have sought : s.seeks s.stop .questionDotToken := digit
      exact chooses_take h begins ['?', '.'] (by simp) sought
        ⟨h, rfl, eq_of_beq dot, rfl, trivial⟩ (by simp [Meets, h₁])
    · next h₂ =>
      -- A `?.` that is not taken stands before a digit.
      have h₂ : s.seeks s.stop .questionDotToken → s.peek 1 ≠ some '.' := by
        intro (sought : (!(s.peek 2).any Char.isDigit) = true)
        simpa [sought] using h₂
      refine chooses_take h begins ['?'] (by simp) rfl ⟨h, rfl, trivial⟩ ?_
      simpa [Meets, h₁] using fun sought _ _ here _ => h₂ sought here

theorem chooses_scanLess (h : s.peek 0 = some '<') : Chooses s s.scanLess :=
  have doubled : Chooses s (s.scanDoubled '<' .lessThanToken .lessThanLessThanToken
      .lessThanEqualsToken .lessThanLessThanEqualsToken) :=
    chooses_scanDoubled h rfl (begins_signsFrom _) ⟨rfl, rfl, rfl, rfl⟩
  doubled

theorem chooses_scanEquals (h : s.peek 0 = some '=') : Chooses s s.scanEquals := by
  have begins : Begins Kind.isScanned '=' [(.equalsToken, ['=']), (.equalsEqualsToken, ['=', '=']),
      (.equalsGreaterThanToken, ['=', '>']), (.equalsEqualsEqualsToken, ['=', '=', '='])] :=
    begins_signsFrom '='
  simp only [scanEquals]
  split
  · next h₁ =>
    have h₁ := eq_of_beq h₁
    split
    · next h₂ =>
      exact chooses_take h begins ['=', '=', '='] (by simp) rfl
        ⟨h, rfl, h₁, rfl, eq_of_beq h₂, rfl, trivial⟩ (by simp)
    · next h₂ =>
      have h₂ : s.peek 2 ≠ some '=' := by simpa using h₂
      exact chooses_take h begins ['=', '='] (by simp) rfl ⟨h, rfl, h₁, rfl, trivial⟩
        (by simp [Meets, h₂])
  · next h₁ =>
    have h₁ : s.peek 1 ≠ some '=' := by simpa using h₁
    split
    · next h₂ =>
      exact chooses_take h begins ['=', '>'] (by simp) rfl
        ⟨h, rfl, eq_of_beq h₂, rfl, trivial⟩ (by simp [Meets, h₁])
    · next h₂ =>
      have h₂ : s.peek 1 ≠ some '>' := by simpa using h₂
      exact chooses_take h begins ['='] (by simp) rfl ⟨h, rfl, trivial⟩
        (by simp [Meets, h₁, h₂])

theorem chooses_scanExclamation (h : s.peek 0 = some '!') : Chooses s s.scanExclamation := by
  have begins : Begins Kind.isScanned '!' [(.exclamationToken, ['!']),
      (.exclamationEqualsToken, ['!', '=']), (.exclamationEqualsEqualsToken, ['!', '=', '='])] :=
    begins_signsFrom '!'
  simp only [scanExclamation]
  split
  · next h₁ =>
    have h₁ := eq_of_beq h₁
    split
    · next h₂ =>
      exact chooses_take h begins ['!', '=', '='] (by simp) rfl
        ⟨h, rfl, h₁, rfl, eq_of_beq h₂, rfl, trivial⟩ (by simp)
    · next h₂ =>
      have h₂ : s.peek 2 ≠ some '=' := by simpa using h₂
      exact chooses_take h begins ['!', '='] (by simp) rfl ⟨h, rfl, h₁, rfl, trivial⟩
        (by simp [Meets, h₂])
  · next h₁ =>
    have h₁ : s.peek 1 ≠ some '=' := by simpa using h₁
    exact chooses_take h begins ['!'] (by simp) rfl ⟨h, rfl, trivial⟩ (by simp [Meets, h₁])

theorem chooses_scanDot (h : s.peek 0 = some '.') : Chooses s s.scanDot := by
  have begins : Begins Kind.isScanned '.'
      [(.dotToken, ['.']), (.dotDotDotToken, ['.', '.', '.'])] :=
    begins_signsFrom '.'
  simp only [scanDot]
  split
  · next both =>
    obtain ⟨h₁, h₂⟩ := Bool.and_eq_true_iff.mp both
    exact chooses_take h begins ['.', '.', '.'] (by simp) rfl
      ⟨h, rfl, eq_of_beq h₁, rfl, eq_of_beq h₂, rfl, trivial⟩ (by simp)
  · next single =>
    have single : s.peek 1 = some '.' → s.peek 2 ≠ some '.' := by simpa using single
    split
    · next digit => exact .number '.' h (.inr ⟨rfl, digit⟩)
    · exact chooses_take h begins ['.'] (by simp) rfl ⟨h, rfl, trivial⟩
        (by simpa [Meets] using fun _ _ _ h₁ _ h₂ => absurd h₂ (single h₁))

theorem chooses_scanOperatorOrWord (h : s.peek 0 = some c) :
    Chooses s (s.scanOperatorOrWord c) := by
  unfold scanOperatorOrWord
  split
  · exact chooses_scanDot h
  · exact chooses_scanQuestion h
  · exact chooses_scanLess h
  · exact chooses_scanEquals h
  · exact chooses_scanExclamation h
  · exact chooses_scanStep h rfl (begins_signsFrom _) ⟨rfl, rfl, rfl⟩
  · exact chooses_scanStep h rfl (begins_signsFrom _) ⟨rfl, rfl, rfl⟩
  · exact chooses_scanDoubled h rfl (begins_signsFrom _) ⟨rfl, rfl, rfl, rfl⟩
  · exact chooses_scanWithEquals h rfl (begins_signsFrom _) ⟨rfl, rfl⟩
  · exact chooses_scanWithEquals h rfl (begins_signsFrom _) ⟨rfl, rfl⟩
  · exact chooses_scanDoubled h rfl (begins_signsFrom _) ⟨rfl, rfl, rfl, rfl⟩
  · exact chooses_scanDoubled h rfl (begins_signsFrom _) ⟨rfl, rfl, rfl, rfl⟩
  · exact chooses_scanWithEquals h rfl (begins_signsFrom _) ⟨rfl, rfl⟩
  · exact .string _ h (by simp)
  · exact .string _ h (by simp)
  · exact .template h
  · exact .privateName h
  · split
    · next digit => exact .number c h (.inl digit)
    · exact .word c h

theorem chooses_scanToken (s : Scanner) : Chooses s s.scanToken := by
  simp only [scanToken]
  split
  · next c h =>
    split
    · next k lone =>
      unfold loneToken? at lone
      split at lone
      all_goals first
        | cases lone
          exact chooses_one h rfl (begins_signsFrom _) rfl
        | cases lone
    · exact chooses_scanOperatorOrWord h
  · next none => exact .ended none

theorem rescanGreater_of_kind_ne (other : s.kind ≠ .greaterThanToken) : s.rescanGreater = s := by
  simp [rescanGreater, other]

/-- A `>` goes on to the longest operator that stands there. -/
theorem rescanGreater_eq (angle : s.kind = .greaterThanToken) :
    ∃ cs k, s.rescanGreater = s.take cs.length k ∧ (k, cs) ∈ Kind.angleTails ∧ s.Meets 0 cs ∧
      ∀ e ∈ Kind.angleTails, s.Meets 0 e.2 → e.2.length ≤ cs.length := by
  have goes : ¬ (s.kind != .greaterThanToken) = true := by simp [angle]
  rw [rescanGreater, if_neg goes]
  split
  · next h₀ =>
    have h₀ := eq_of_beq h₀
    split
    · next h₁ =>
      have h₁ := eq_of_beq h₁
      split
      · next h₂ =>
        exact ⟨['>', '>', '='], _, rfl, by simp [Kind.angleTails],
          ⟨h₀, rfl, h₁, rfl, eq_of_beq h₂, rfl, trivial⟩, by simp [Kind.angleTails]⟩
      · next h₂ =>
        have h₂ : s.peek 2 ≠ some '=' := by simpa using h₂
        exact ⟨['>', '>'], _, rfl, by simp [Kind.angleTails], ⟨h₀, rfl, h₁, rfl, trivial⟩,
          by simp [Kind.angleTails, Meets, h₂]⟩
    · next h₁ =>
      have h₁ : s.peek 1 ≠ some '>' := by simpa using h₁
      split
      · next h₂ =>
        exact ⟨['>', '='], _, rfl, by simp [Kind.angleTails],
          ⟨h₀, rfl, eq_of_beq h₂, rfl, trivial⟩, by simp [Kind.angleTails, Meets, h₁]⟩
      · next h₂ =>
        have h₂ : s.peek 1 ≠ some '=' := by simpa using h₂
        exact ⟨['>'], _, rfl, by simp [Kind.angleTails], ⟨h₀, rfl, trivial⟩,
          by simp [Kind.angleTails, Meets, h₁, h₂]⟩
  · next h₀ =>
    have h₀ : s.peek 0 ≠ some '>' := by simpa using h₀
    split
    · next h₁ =>
      exact ⟨['='], _, rfl, by simp [Kind.angleTails], ⟨eq_of_beq h₁, rfl, trivial⟩,
        by simp [Kind.angleTails, Meets, h₀]⟩
    · next h₁ =>
      have h₁ : s.peek 0 ≠ some '=' := by simpa using h₁
      have same : s = s.take 0 .greaterThanToken := by rw [← angle]; rfl
      exact ⟨[], _, same, by simp [Kind.angleTails], trivial,
        by simp [Kind.angleTails, Meets, h₀, h₁]⟩

end Scanner
end ScriptGrammar
