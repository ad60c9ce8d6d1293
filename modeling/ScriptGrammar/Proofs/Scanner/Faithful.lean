import ScriptGrammar.Proofs.Scanner.Passage
import ScriptGrammar.Proofs.Scanner.Spelling

/-!
# What a token says of the text it stands on

A token is faithful if its kind and its value are what the text between its ends tells: the fixed
spelling of a punctuator or a keyword, a name with its escapes decoded, a number or a regular
expression as it is written. Every way to read a token of plain source gives a faithful one, and
so does every way to read it again.
-/

namespace ScriptGrammar

namespace Kind

/-- The tokens that tell the text they stand on. -/
def isLeaf (k : Kind) : Bool :=
  k.isPunctuation || k.isWord || [.privateIdentifier, .numericLiteral, .bigIntLiteral,
    .regularExpressionLiteral].contains k

variable {k : Kind}

/-- Only punctuators and keywords have a fixed spelling. -/
theorem isPunctuation_or_of_text? {text : String} (h : k.text? = some text) :
    k.isPunctuation ∨ k.isKeywordToken := by
  have words : ∀ e ∈ keywords, e.1.isKeywordToken := by decide +kernel
  have listed {es : List (Kind × String)} (h : (es.find? (·.1 == k)).map (·.2) = some text) :
      ∃ e ∈ es, e.1 = k := by
    obtain ⟨e, found, _⟩ := Option.map_eq_some_iff.mp h
    exact ⟨e, List.mem_of_find?_eq_some found, by simpa using List.find?_some found⟩
  unfold text? at h
  cases sign : k.punctuationText? with
  | some _ =>
    rw [sign] at h
    obtain ⟨e, he, rfl⟩ := listed (sign.trans h)
    exact .inl (spec_of_mem_punctuators he).1
  | none =>
    rw [sign] at h
    obtain ⟨e, he, rfl⟩ := listed h
    exact .inr (words e he)

theorem not_isKeywordToken_of_isPunctuation (h : k.isPunctuation) : k.isKeywordToken = false := by
  have apart : questionQuestionEqualsToken.index < breakKeyword.index := by decide
  simp only [isPunctuation, isKeywordToken, between, Bool.and_eq_true, decide_eq_true_eq,
    Bool.and_eq_false_iff, decide_eq_false_iff_not] at h ⊢
  omega

theorem not_isLeaf_of_isTrivia (h : k.isTrivia) : k.isLeaf = false := by
  cases k <;> first | rfl | cases h

theorem text?_of_ofKeyword? {word : String} (h : ofKeyword? word = some k) :
    k.text? = some word := by
  have all : ∀ e ∈ keywords, e.1.text? = some e.2 := by decide +kernel
  obtain ⟨e, found, rfl⟩ := Option.map_eq_some_iff.mp h
  have same : e.2 = word := by simpa using List.find?_some found
  rw [all e (List.mem_of_find?_eq_some found), same]

end Kind

namespace Scanner

variable {s t : Scanner} {c d e : Char} {k : Kind}

/-- Kind and value are what the text of the token tells. -/
structure Faithful (s : Scanner) : Prop where
  spelled : ∀ text, s.kind.text? = some text → s.text = text
  named : s.kind.isWord ∨ s.kind = .privateIdentifier →
    s.value = String.ofList (unescape s.text.toList)
  written : s.kind ∈ [.numericLiteral, .bigIntLiteral, .regularExpressionLiteral] →
    s.value = s.text

theorem faithful_of_not_isLeaf (h : s.kind.isLeaf = false) : s.Faithful := by
  simp only [Kind.isLeaf, Bool.or_eq_false_iff] at h
  obtain ⟨⟨sign, word⟩, other⟩ := h
  refine ⟨fun text spelled => ?_, fun name => ?_, fun literal => ?_⟩
  · rcases Kind.isPunctuation_or_of_text? spelled with h | h
    · rw [sign] at h; cases h
    · simp [Kind.isWord, h] at word
  · rcases name with h | h
    · rw [word] at h; cases h
    · simp [h] at other
  · simp_all

theorem faithful_sign (sign : s.kind.isPunctuation) (spelled : s.kind.text? = some s.text) :
    s.Faithful := by
  have other (k : Kind) (plain : k.isPunctuation = false) : s.kind ≠ k := by
    rintro rfl
    rw [plain] at sign
    cases sign
  refine ⟨fun text same => Option.some.inj (spelled.symm.trans same), fun name => ?_,
    fun literal => ?_⟩
  · rcases name with word | same
    · simp [Kind.isWord, Kind.not_isKeywordToken_of_isPunctuation sign,
        other .identifier rfl] at word
    · exact absurd same (other _ rfl)
  · simp [other .numericLiteral rfl, other .bigIntLiteral rfl,
      other .regularExpressionLiteral rfl] at literal

theorem Meets.chars {n : Nat} {cs : List Char} (h : s.Meets n cs) :
    s.source.chars (s.stop + n) (s.stop + (n + cs.length)) = cs := by
  induction cs generalizing n with
  | nil => exact Source.chars_self _
  | cons c cs ih =>
    obtain ⟨here, thin, rest⟩ := h
    have behind := ih rest
    rw [chars_next here thin (by rw [List.length_cons]; omega)]
    rw [show n + (c :: cs).length = n + 1 + cs.length by rw [List.length_cons]; omega]
    exact congrArg (c :: ·) behind

/-- What is told of a scanner about to read a token. -/
structure Afresh (s : Scanner) : Prop where
  start : s.start = s.stop
  value : s.value = ""

theorem Afresh.text (fresh : s.Afresh) (source : t.source = s.source)
    (start : t.start = s.start) : t.text = String.ofList (s.source.chars s.stop t.stop) := by
  rw [Scanner.text, source, start, fresh.start]
  rfl

/-- The punctuator is spelled by the characters. -/
def Sign (k : Kind) (cs : List Char) : Prop :=
  k.isPunctuation = true ∧ k.text? = some (String.ofList cs)

theorem Afresh.sign (fresh : s.Afresh) (cs : List Char) (meets : s.Meets 0 cs)
    (sign : Sign k cs) : (s.take cs.length k).Faithful := by
  refine faithful_sign sign.1 (sign.2.trans ?_)
  have whole := meets.chars
  rw [Nat.zero_add] at whole
  rw [fresh.text (t := s.take cs.length k) rfl rfl]
  exact congrArg (fun cs => some (String.ofList cs)) whole.symm

/-- A literal that is kept as it is written. -/
theorem faithful_literal (kind : s.kind = k)
    (literal : k ∈ [.numericLiteral, .bigIntLiteral, .regularExpressionLiteral])
    (value : s.value = s.text) : s.Faithful := by
  have other : k.text? = none ∧ ¬ (k.isWord ∨ k = .privateIdentifier) := by
    simp only [List.mem_cons, List.not_mem_nil, or_false] at literal
    rcases literal with rfl | rfl | rfl <;> decide
  rw [← kind] at other
  refine ⟨fun text spelled => ?_, fun name => absurd name other.2, fun _ => value⟩
  rw [other.1] at spelled
  cases spelled

theorem value_checkNumberEnd (h : s.value = s.text) :
    s.checkNumberEnd.value = s.checkNumberEnd.text := by
  simp only [checkNumberEnd]
  split <;> exact h

theorem value_finishNumber (allowed : Bool) (s : Scanner) :
    (s.finishNumber allowed).value = (s.finishNumber allowed).text := value_checkNumberEnd rfl

theorem value_scanRadix (isDigit : Char → Bool) (m : Message) (s : Scanner) :
    (s.scanRadix isDigit m).value = (s.scanRadix isDigit m).text := by
  simp only [scanRadix]
  split <;> exact value_finishNumber _ _

theorem value_scanNumber (s : Scanner) : s.scanNumber.value = s.scanNumber.text := by
  have decimal (s : Scanner) : s.scanDecimal.value = s.scanDecimal.text := value_finishNumber _ _
  simp only [scanNumber]
  split
  · split
    iterate 6 exact value_scanRadix _ _ _
    · split
      · simp only [scanLeadingZero]
        split
        · exact value_checkNumberEnd rfl
        · exact decimal _
      · exact decimal _
    · exact decimal _
  · exact decimal _

theorem faithful_scanNumber (s : Scanner) : s.scanNumber.Faithful := by
  rcases kind_scanNumber s with kind | kind
  · exact faithful_literal kind (by simp) (value_scanNumber s)
  · exact faithful_literal kind (by simp) (value_scanNumber s)

theorem faithful_scanInvalidCharacter (s : Scanner) : s.scanInvalidCharacter.Faithful :=
  faithful_of_not_isLeaf rfl

theorem faithful_name (kind : s.kind.isWord ∨ s.kind = .privateIdentifier)
    (value : s.value = String.ofList (unescape s.text.toList))
    (spelled : ∀ text, s.kind.text? = some text → s.text = text) : s.Faithful := by
  refine ⟨spelled, fun _ => value, fun literal => ?_⟩
  simp only [List.mem_cons, List.not_mem_nil, or_false] at literal
  rcases literal with same | same | same <;> rw [same] at kind <;> exact absurd kind (by decide)

/-- What a name is read to, from its beginning on. -/
theorem Spells.value_eq {text : List Char} (h : Spells s t text) (fresh : s.Afresh)
    (source : t.source = s.source) (start : t.start = s.start) :
    t.value = String.ofList (unescape t.text.toList) := by
  rw [fresh.text source start, h.value, fresh.value, String.toList_ofList, h.decodes.unescape_eq,
    String.empty_append]

theorem faithful_scanIdentifier (fresh : s.Afresh) (hs : s.Stands) : s.scanIdentifier.Faithful := by
  obtain ⟨text, spells⟩ := spells_takeParts (s.limit - s.stop) s hs
  have onward := onward_scanIdentifier s
  have read : Spells s s.scanIdentifier text := ⟨spells.value, spells.decodes, spells.plain⟩
  refine faithful_name (.inl (isWord_scanIdentifier s))
    (read.value_eq fresh onward.source onward.start) fun word spelled => ?_
  -- Only a name without an escape is looked up among the keywords.
  have plain : s.scanParts.flags.unicodeEscape = false := by
    rw [Bool.eq_false_iff]
    intro escaped
    have kind : s.scanIdentifier.kind = .identifier := if_pos escaped
    rw [kind] at spelled
    cases spelled
  have kind : s.scanIdentifier.kind = Kind.ofWord s.scanParts.value :=
    if_neg (by simp [plain])
  have value : s.scanParts.value = String.ofList text := by
    rw [show s.scanParts.value = _ from spells.value, fresh.value, String.empty_append]
  rw [kind, Kind.ofWord_eq] at spelled
  cases found : Kind.ofKeyword? s.scanParts.value with
  | none => rw [found] at spelled; cases spelled
  | some k =>
    rw [found, Option.getD_some, Kind.text?_of_ofKeyword? found] at spelled
    rw [fresh.text onward.source onward.start, (read.plain plain).2, ← value]
    exact Option.some.inj spelled

theorem Afresh.check (fresh : s.Afresh) (ok : Bool) : (s.check ok).Afresh :=
  ⟨fresh.start, fresh.value⟩

theorem faithful_scanWord (fresh : s.Afresh) (hs : s.Stands) : s.scanWord.Faithful := by
  obtain ⟨ok, same⟩ := touchName_eq s.stop s
  simp only [scanWord, same]
  split
  · exact faithful_scanIdentifier (fresh.check ok) ⟨hs.whole, hs.boundary⟩
  · exact faithful_scanInvalidCharacter _

theorem faithful_scanPrivateIdentifier (fresh : s.Afresh) (hs : s.Stands)
    (h : s.peek 0 = some '#') : s.scanPrivateIdentifier.Faithful := by
  obtain ⟨ok, same⟩ := touchName_eq (s.stop + 1) s
  simp only [scanPrivateIdentifier, same]
  split
  · have here : s.charAt? s.stop = some '#' := h
    have stands : Stands { s.check ok with stop := s.stop + 1, value := "#" } :=
      ⟨hs.whole, isBoundary_succ here rfl⟩
    have onward := onward_scanParts { s.check ok with stop := s.stop + 1, value := "#" }
    obtain ⟨text, rest⟩ := spells_takeParts (s.limit - (s.stop + 1)) _ stands
    have sign : Spells s { s.check ok with stop := s.stop + 1, value := "#" } ['#'] := by
      have one : s.source.chars s.stop (s.stop + 1) = ['#'] := by
        rw [chars_next here rfl (Nat.le_refl _), Source.chars_self]
      refine ⟨by rw [fresh.value]; rfl, ?_, fun plain => ⟨plain, one⟩⟩
      rw [one]
      exact .plain (by decide)
    have whole := sign.trans rest rfl (Nat.le_succ _) (onward.forward stands).1
    refine faithful_name (.inr rfl) ?_ fun _ no => (by cases no)
    exact Spells.value_eq (t := _) ⟨whole.value, whole.decodes, whole.plain⟩ fresh
      onward.source onward.start
  · exact faithful_scanInvalidCharacter _

theorem faithful_scanTemplate (reports : Bool) (s : Scanner) :
    (s.scanTemplate reports).Faithful := by
  apply faithful_of_not_isLeaf
  simp only [scanTemplate]
  generalize (if reports = true then EscapeContext.template else .taggedTemplate) = context
  split <;> split <;> rfl

theorem faithful_scanString (quote : Char) (s : Scanner) : (s.scanString quote).Faithful := by
  apply faithful_of_not_isLeaf
  simp only [scanString]
  split <;> rfl

theorem faithful_scanToken (fresh : s.Afresh) (hs : s.Stands) : s.scanToken.Faithful := by
  have chooses := chooses_scanToken s
  generalize s.scanToken = t at chooses ⊢
  cases chooses with
  | sign signs =>
    obtain ⟨sign, spelled, _⟩ := signs.spec
    exact fresh.sign _ signs.meets ⟨sign, spelled⟩
  | number => exact faithful_scanNumber s
  | string quote => exact faithful_scanString quote s
  | template => exact faithful_scanTemplate false s
  | privateName here => exact faithful_scanPrivateIdentifier fresh hs here
  | word => exact faithful_scanWord fresh hs
  | ended => exact faithful_scanInvalidCharacter s

theorem faithful_scan (hs : s.Stands) : s.scan.Faithful := by
  cases leaf : s.scan.kind.isLeaf with
  | false => exact faithful_of_not_isLeaf leaf
  | true =>
    have token : s.scan.kind.isTrivia = false := Bool.eq_false_iff.mpr fun trivia => by
      rw [Kind.not_isLeaf_of_isTrivia trivia] at leaf
      cases leaf
    have more : s.scan.kind ≠ .endOfFileToken := by
      intro ended
      rw [ended] at leaf
      cases leaf
    obtain ⟨v, passing, arrives⟩ := exists_arrives token more
    obtain ⟨ok, same⟩ := arrives.token
    have stands := (passing.check ok).stands hs
    rw [same]
    exact faithful_scanToken ⟨arrives.start, passing.value⟩ stands

/-- A `>` goes on. -/
theorem Faithful.extend (h : s.Faithful) (angle : s.kind = .greaterThanToken)
    (le : s.start ≤ s.stop) (cs : List Char) (meets : s.Meets 0 cs) (sign : Sign k ('>' :: cs)) :
    (s.take cs.length k).Faithful := by
  have first : s.text = ">" := h.spelled ">" (by rw [angle]; rfl)
  have whole := meets.chars
  rw [Nat.zero_add] at whole
  have text : (s.take cs.length k).text = s.text ++ s.source.slice s.stop (s.stop + cs.length) :=
    (Source.slice_append le (Nat.le_add_right _ _)).symm
  refine faithful_sign sign.1 (sign.2.trans (congrArg some ?_))
  rw [text, first, Source.slice, show s.source.chars s.stop (s.stop + cs.length) = cs from whole,
    ← String.ofList_toList (s := ">"), ← String.ofList_append]
  rfl

theorem faithful_rescanGreater (h : s.Faithful) (le : s.start ≤ s.stop) :
    s.rescanGreater.Faithful := by
  by_cases angle : s.kind = .greaterThanToken
  · obtain ⟨cs, k, same, mine, meets, _⟩ := rescanGreater_eq angle
    obtain ⟨sign, spelled, _⟩ := Kind.spec_of_mem_punctuators (Kind.angleTails_spec.1 _ mine).1
    rw [same]
    exact h.extend angle le cs meets ⟨sign, spelled⟩
  · rw [rescanGreater_of_kind_ne angle]
    exact h

theorem faithful_rescanSlash (h : s.Faithful) : s.rescanSlash.Faithful := by
  unfold rescanSlash
  split
  · exact h
  · exact faithful_literal (k := .regularExpressionLiteral) rfl (by simp) rfl

theorem faithful_rescanTemplate (h : s.Faithful) (tagged : Bool) :
    (s.rescanTemplate tagged).Faithful := by
  unfold rescanTemplate
  split
  · exact h
  · exact faithful_scanTemplate _ _

end Scanner
end ScriptGrammar
