import ScriptGrammar.Proofs.Scanner.Escapes
import ScriptGrammar.Proofs.Scanner.Faithful
import ScriptGrammar.Proofs.Scanner.Passage

/-!
# The longest punctuator

Where a scan comes to a punctuator it takes the longest one of the table that stands there, but
for those that are left to a second reading. The table is looked at by the first character: each
branch of the scanner has its own few punctuators, and takes the longest of them that it meets.
-/

namespace ScriptGrammar

namespace Scanner

variable {s t : Scanner} {c : Char} {k : Kind} {cs : List Char} {p : Nat} {family : Kind → Bool}

/-- Of a family of punctuators, `k` with the given text is the longest that stands at `p`. -/
structure LongestSign (s : Scanner) (family : Kind → Bool) (p : Nat) (k : Kind) (text : String) :
    Prop where
  listed : (k, text) ∈ Kind.punctuators
  member : family k
  stands : s.source.Holds s.limit p text.toList
  longest : ∀ e ∈ Kind.punctuators, family e.1 → s.source.Holds s.limit p e.2.toList →
    e.2.length ≤ text.length

theorem utf8Size_of_mem_punctuators :
    ∀ e ∈ Kind.punctuators, ∀ c ∈ e.2.toList, c.utf8Size = 1 := by
  intro e he c hc
  exact eq_of_beq (List.all_eq_true.mp (Kind.signTable_spec.2 e he).1 c hc)

/-- Text of one byte a character stands at the cursor just if its characters are met there. -/
theorem meets_iff {n : Nat} (thin : ∀ c ∈ cs, c.utf8Size = 1) :
    s.Meets n cs ↔ s.source.Holds s.limit (s.stop + n) cs := by
  induction cs generalizing n with
  | nil => exact Iff.rfl
  | cons c cs ih =>
    obtain ⟨first, others⟩ := List.forall_mem_cons.mp thin
    have rest := ih (n := n + 1) others
    constructor
    · rintro ⟨here, _, behind⟩
      refine ⟨here, ?_⟩
      rw [first]
      exact rest.mp behind
    · rintro ⟨here, behind⟩
      rw [first] at behind
      exact ⟨here, first, rest.mpr behind⟩

/-- What is taken where a token begins is the longest sign there. -/
theorem Signs.longestSign (h : Signs family s t cs) : t.text = String.ofList cs →
    t.LongestSign family s.stop t.kind t.text := by
  intro text
  have source : t.source = s.source := by rw [h.token]; rfl
  have limit : t.limit = s.limit := by rw [h.token]; rfl
  have thin := utf8Size_of_mem_punctuators _ h.listed
  rw [String.toList_ofList] at thin
  refine ⟨text ▸ h.listed, h.member, ?_, fun e he family stands => ?_⟩
  · rw [text, String.toList_ofList, source, limit]
    exact (meets_iff thin).mp h.meets
  · rw [source, limit] at stands
    have met := (meets_iff (n := 0) (utf8Size_of_mem_punctuators e he)).mpr stands
    rw [text, String.length_ofList, ← String.length_toList]
    exact h.longest e he family met

/-- If the token is a punctuator, it is the longest that a scan looks for. -/
def TakesSign (s t : Scanner) : Prop :=
  t.kind.isPunctuation → ∃ cs, Signs (s.seeks s.stop) s t cs

theorem takesSign_of_other (other : t.kind.isPunctuation = false) : TakesSign s t := by
  intro sign
  rw [other] at sign
  cases sign

theorem not_isPunctuation_of_isWord (word : k.isWord) : k.isPunctuation = false := by
  rw [Bool.eq_false_iff]
  intro sign
  simp only [Kind.isWord, Kind.not_isKeywordToken_of_isPunctuation sign, Bool.or_false,
    beq_iff_eq] at word
  rw [word] at sign
  cases sign

theorem not_isPunctuation_scanString (quote : Char) (s : Scanner) :
    (s.scanString quote).kind.isPunctuation = false := by
  simp only [scanString]
  split <;> rfl

theorem not_isPunctuation_scanTemplate (reports : Bool) (s : Scanner) :
    (s.scanTemplate reports).kind.isPunctuation = false := by
  simp only [scanTemplate]
  generalize (if reports = true then EscapeContext.template else .taggedTemplate) = context
  split <;> split <;> rfl

theorem not_isPunctuation_scanNumber (s : Scanner) : s.scanNumber.kind.isPunctuation = false := by
  rcases kind_scanNumber s with kind | kind <;> rw [kind] <;> rfl

theorem not_isPunctuation_scanWord (s : Scanner) : s.scanWord.kind.isPunctuation = false := by
  simp only [scanWord]
  split
  · exact not_isPunctuation_of_isWord (isWord_scanIdentifier _)
  · rfl

/-- A punctuator that is read is the longest that a scan looks for. -/
theorem takesSign_scanToken (s : Scanner) : TakesSign s s.scanToken := by
  have chooses := chooses_scanToken s
  generalize s.scanToken = t at chooses ⊢
  cases chooses with
  | sign signs => exact fun _ => ⟨_, signs⟩
  | number => exact takesSign_of_other (not_isPunctuation_scanNumber s)
  | string quote => exact takesSign_of_other (not_isPunctuation_scanString quote s)
  | template => exact takesSign_of_other (not_isPunctuation_scanTemplate _ s)
  | privateName =>
    refine takesSign_of_other ?_
    simp only [scanPrivateIdentifier]
    split <;> rfl
  | word => exact takesSign_of_other (not_isPunctuation_scanWord s)
  | ended => exact takesSign_of_other rfl

/-- The longest sign that a `>` begins is taken. -/
theorem signs_rescanGreater (h : s.peek 0 = some '>') :
    ∃ cs, Signs Kind.isAngle s (s.take 1 .greaterThanToken).rescanGreater cs := by
  obtain ⟨cs, k, same, mine, meets, bound⟩ :=
    rescanGreater_eq (s := s.take 1 .greaterThanToken) rfl
  obtain ⟨listed, member⟩ := Kind.angleTails_spec.1 _ mine
  rw [take_take, Nat.add_comm] at same
  have meets : s.Meets 1 cs := (meets_take (n := 0)).mp meets
  rw [same]
  refine ⟨'>' :: cs, rfl, listed, member, ⟨h, rfl, meets⟩, fun e he family met => ?_⟩
  obtain ⟨head, tail⟩ := Kind.angleTails_spec.2 e he family
  obtain ⟨ds, text⟩ : ∃ ds, e.2.toList = '>' :: ds := List.head?_eq_some_iff.mp head
  rw [text] at tail met ⊢
  exact Nat.succ_le_succ (bound _ tail ((meets_take (n := 0)).mpr met.2.2))

theorem not_isTrivia_of_isPunctuation (sign : k.isPunctuation) : k.isTrivia = false := by
  rw [Bool.eq_false_iff]
  intro trivia
  have leaf := Kind.not_isLeaf_of_isTrivia trivia
  simp [Kind.isLeaf, sign] at leaf

/-- Where a scan comes to a punctuator, that is the longest sign it looks for there. -/
theorem signs_scan {Q : Scanner → Prop} (restart : ∀ u, Q u → Q u.restarted)
    (passes : ∀ u, Passing s u → Q u → u.atEnd = false → u.scanTrivia.1 = true →
      Q u.scanTrivia.2)
    (begins : Q s.begin) (sign : s.scan.kind.isPunctuation) :
    ∃ v ok cs, Passing s v ∧ Q v ∧ Arrives v s.scan ∧
      Signs (v.seeks v.stop) (v.check ok) s.scan cs := by
  have more : s.scan.kind ≠ .endOfFileToken := by
    intro ended
    rw [ended] at sign
    cases sign
  obtain ⟨v, passing, kept, arrives⟩ :=
    arrives_scan restart passes begins (not_isTrivia_of_isPunctuation sign) more
  obtain ⟨ok, same⟩ := arrives.token
  have takes := takesSign_scanToken (v.check ok)
  rw [← same] at takes
  obtain ⟨cs, signs⟩ := takes sign
  exact ⟨v, ok, cs, passing, kept, arrives, signs⟩

/-- The text of a sign that was read is the sign. -/
theorem Signs.text (h : Signs family s t cs) (start : s.start = s.stop) :
    t.start = s.stop ∧ t.text = String.ofList cs := by
  have begins : t.start = s.stop := by
    rw [h.token]
    exact start
  have chars := h.meets.chars
  rw [Nat.zero_add] at chars
  refine ⟨begins, ?_⟩
  have cut : t.text = String.ofList (s.source.chars s.stop (s.stop + cs.length)) := by
    rw [Scanner.text, begins, h.token]
    rfl
  rw [cut]
  exact congrArg String.ofList chars

/-- A token of a kind with a fixed spelling is spelled so. A punctuator is the longest of those
that a scan may take, and that a `?.` before a digit is not. A `>` read again is the longest
operator that it begins, and reading it once more changes nothing. -/
theorem scan_longest (s : Scanner) (stands : s.Stands) :
    (∀ text, s.scan.kind.text? = some text → s.scan.text = text) ∧
    (s.scan.kind.isPunctuation →
      s.scan.LongestSign (s.scan.seeks s.scan.start) s.scan.start s.scan.kind s.scan.text) ∧
    (s.scan.kind = .greaterThanToken →
      let r := s.scan.rescanGreater
      r.start = s.scan.start ∧ r.LongestSign Kind.isAngle s.scan.start r.kind r.text ∧
        r.rescanGreater = r) := by
  have found (sign : s.scan.kind.isPunctuation) := signs_scan (Q := fun _ => True) (fun _ => id)
    (fun _ _ _ _ _ => trivial) trivial sign
  refine ⟨(faithful_scan stands).spelled, fun sign => ?_, fun angle => ?_⟩
  · obtain ⟨v, ok, cs, _, _, arrives, signs⟩ := found sign
    obtain ⟨begins, text⟩ := signs.text arrives.start
    have same : s.scan.seeks s.scan.start = v.seeks v.stop := by
      rw [begins, signs.token]
      rfl
    rw [same, begins]
    exact signs.longestSign text
  · obtain ⟨v, ok, cs, _, _, arrives, signs⟩ := found (by rw [angle]; rfl)
    have single : ∀ e ∈ Kind.punctuators, e.1 = .greaterThanToken → e.2 = ">" := by
      decide +kernel
    have one : String.ofList cs = ">" := single _ signs.listed angle
    obtain rfl : cs = ['>'] := by
      rw [← String.toList_ofList (l := cs), one]
      decide +kernel
    have token : s.scan = (v.check ok).take 1 .greaterThanToken := by
      rw [signs.token, angle]
      rfl
    obtain ⟨ds, again⟩ := signs_rescanGreater signs.meets.1
    rw [← token] at again
    obtain ⟨still, text⟩ := again.text arrives.start
    dsimp only
    rw [(signs.text arrives.start).1]
    exact ⟨still, again.longestSign text, rescanGreater_rescanGreater _⟩

/-- Of `>>>=` a scan takes the first character, and a second reading all. -/
theorem scan_longest_angles :
    let s := (ofSource (.ofString ">>>=b") false).scan
    (s.kind = .greaterThanToken ∧ s.text = ">") ∧
      s.rescanGreater.LongestSign Kind.isAngle 0 .greaterThanGreaterThanGreaterThanEqualsToken
        ">>>=" ∧
      s.rescanGreater.rescanGreater = s.rescanGreater := by
  intro s
  have kind : s.kind = .greaterThanToken := by decide +kernel
  obtain ⟨spelled, _, again⟩ := scan_longest _ (stands_ofSource (.ofString ">>>=b") false)
  obtain ⟨_, longest, still⟩ := again kind
  have kind' : s.rescanGreater.kind = .greaterThanGreaterThanGreaterThanEqualsToken := by
    decide +kernel
  have text' : s.rescanGreater.text = ">>>=" := by decide +kernel
  have start : s.start = 0 := by decide +kernel
  refine ⟨⟨kind, spelled ">" (by rw [kind]; rfl)⟩, ?_, still⟩
  rw [← kind', ← text', ← start]
  exact longest

end Scanner
end ScriptGrammar
