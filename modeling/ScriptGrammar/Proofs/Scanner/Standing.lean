import ScriptGrammar.Proofs.Scanner.Parts
import ScriptGrammar.Proofs.Scanner.Quoted
import ScriptGrammar.Proofs.Scanner.SignTable
import ScriptGrammar.Scanner.Markup
import ScriptGrammar.Scanner.Rescan

/-!
# Where the scanner stands after a token

A token lies between two boundaries, is not empty, and only the end of the text gives the token
that ends the source. Reading a token again relies on its kind alone, so the kinds for which that
is done are shown to begin with a character of one byte.
-/

namespace ScriptGrammar

/-- Tokens that are read again from behind their first byte. -/
def Kind.reopens : Kind → Bool
  | .slashToken | .slashEqualsToken | .closeBraceToken | .templateHead
  | .noSubstitutionTemplateLiteral => true
  | _ => false

theorem Kind.mayBeKeyword_of_ofKeyword? {word : String} {k : Kind}
    (h : ofKeyword? word = some k) : mayBeKeyword word := by
  have all : ∀ e ∈ keywords, mayBeKeyword e.2 := by decide
  obtain ⟨e, found, _⟩ := Option.map_eq_some_iff.mp h
  have spelled : e.2 = word := by simpa using List.find?_some found
  rw [← spelled]
  exact all e (List.mem_of_find?_eq_some found)

/-- Nothing that is not looked up is a keyword. -/
theorem Kind.ofWord_eq (word : String) :
    Kind.ofWord word = (ofKeyword? word).getD .identifier := by
  rw [ofWord]
  split
  · rfl
  · next other =>
    cases found : ofKeyword? word with
    | none => rfl
    | some k => exact absurd (mayBeKeyword_of_ofKeyword? found) other

theorem Kind.ofWord_mem (word : String) :
    Kind.ofWord word = .identifier ∨ ∃ e ∈ Kind.keywords, Kind.ofWord word = e.1 := by
  simp only [ofWord_eq, ofKeyword?]
  cases found : keywords.find? (·.2 == word) with
  | none => exact .inl rfl
  | some e => exact .inr ⟨e, List.mem_of_find?_eq_some found, rfl⟩

theorem Kind.isWord_ofWord (word : String) : (Kind.ofWord word).isWord := by
  rcases ofWord_mem word with same | ⟨e, he, same⟩
  · rw [same]; decide
  · have all : ∀ e ∈ keywords, e.1.isWord := by decide
    rw [same]
    exact all e he

theorem Kind.not_reopens_of_isWord {k : Kind} (h : k.isWord) : k.reopens = false := by
  cases k <;> first | rfl | exact absurd h (by decide)

theorem Kind.not_reopens_of_isTrivia {k : Kind} (h : k.isTrivia) : k.reopens = false := by
  cases k <;> first | rfl | exact absurd h (by decide)

theorem Kind.ne_endOfFile_of_isWord {k : Kind} (h : k.isWord) : k ≠ .endOfFileToken := by
  rintro rfl
  exact absurd h (by decide)

namespace Scanner

variable {s t : Scanner} {c d e : Char} {k : Kind}

/-- A token was read from the cursor on. -/
structure Reads (s t : Scanner) : Prop where
  onward : Onward s t
  lt : s.Stands → s.stop < t.stop
  kind : t.kind ≠ .endOfFileToken
  thin : t.kind.reopens → ∃ c, s.peek 0 = some c ∧ c.utf8Size = 1

theorem Reads.of_thin (onward : Onward s t) (lt : s.Stands → s.stop < t.stop)
    (h : s.peek 0 = some c) (hc : c.utf8Size = 1) (hk : t.kind ≠ .endOfFileToken) : Reads s t :=
  ⟨onward, lt, hk, fun _ => ⟨c, h, hc⟩⟩

theorem reads_take {n : Nat} (positive : 0 < n) (h : s.peek 0 = some c) (hc : c.utf8Size = 1)
    (hb : s.source.isBoundary (s.stop + n)) (hk : k ≠ .endOfFileToken) : Reads s (s.take n k) :=
  .of_thin (onward_take k fun _ => hb) (fun _ => Nat.lt_add_of_pos_right positive) h hc hk

theorem reads_one (h : s.peek 0 = some c) (hc : c.utf8Size = 1) (hk : k ≠ .endOfFileToken) :
    Reads s (s.take 1 k) :=
  reads_take Nat.one_pos h hc (isBoundary_succ h hc) hk

theorem reads_two (h : s.peek 0 = some c) (hc : c.utf8Size = 1)
    (h₁ : (s.peek 1 == some d) = true) (hd : d.utf8Size = 1) (hk : k ≠ .endOfFileToken) :
    Reads s (s.take 2 k) :=
  reads_take Nat.two_pos h hc
    (isBoundary_succ (p := s.stop + 1) (c := d) (by simpa [peek] using h₁) hd) hk

theorem Signs.reads {family : Kind → Bool} {cs : List Char} (h : Signs family s t cs) :
    Reads s t := by
  obtain ⟨sign, _, c, cs, rfl⟩ := h.spec
  have behind := h.meets.isBoundary
  rw [Nat.zero_add] at behind
  rw [h.token]
  refine reads_take (Nat.succ_pos _) h.meets.1 h.meets.2.1 behind fun ended => ?_
  rw [ended] at sign
  cases sign

theorem kind_checkNumberEnd (s : Scanner) : s.checkNumberEnd.kind = s.kind := by
  simp only [checkNumberEnd]
  split <;> rfl

theorem kind_finishNumber (allowed : Bool) (s : Scanner) :
    (s.finishNumber allowed).kind = .bigIntLiteral ∨
      (s.finishNumber allowed).kind = .numericLiteral := by
  simp only [finishNumber]
  rw [kind_checkNumberEnd]
  split
  · exact .inl rfl
  · exact .inr rfl

theorem kind_scanDecimal (s : Scanner) :
    s.scanDecimal.kind = .bigIntLiteral ∨ s.scanDecimal.kind = .numericLiteral :=
  kind_finishNumber _ _

theorem kind_scanRadix (isDigit : Char → Bool) (m : Message) (s : Scanner) :
    (s.scanRadix isDigit m).kind = .bigIntLiteral ∨
      (s.scanRadix isDigit m).kind = .numericLiteral := by
  simp only [scanRadix]
  split
  · exact kind_finishNumber _ _
  · exact kind_finishNumber _ _

theorem kind_scanNumber (s : Scanner) :
    s.scanNumber.kind = .bigIntLiteral ∨ s.scanNumber.kind = .numericLiteral := by
  simp only [scanNumber]
  split
  · split
    · exact kind_scanRadix _ _ _
    · exact kind_scanRadix _ _ _
    · exact kind_scanRadix _ _ _
    · exact kind_scanRadix _ _ _
    · exact kind_scanRadix _ _ _
    · exact kind_scanRadix _ _ _
    · split
      · simp only [scanLeadingZero]
        split
        · exact .inr (kind_checkNumberEnd _)
        · exact kind_scanDecimal _
      · exact kind_scanDecimal _
    · exact kind_scanDecimal _
  · exact kind_scanDecimal _

theorem reads_scanNumber (h : s.peek 0 = some c) (number : c.isDigit ∨ c = '.') :
    Reads s s.scanNumber := by
  obtain ⟨onward, lt⟩ := scanNumber_spec h number
  have hc : c.utf8Size = 1 := by
    rcases number with digit | rfl
    · exact utf8Size_of_isDigit digit
    · rfl
  refine .of_thin onward lt h hc ?_
  rcases kind_scanNumber s with hk | hk <;> rw [hk] <;> decide

theorem isWord_scanIdentifier (s : Scanner) : s.scanIdentifier.kind.isWord := by
  simp only [scanIdentifier]
  split
  · decide
  · exact Kind.isWord_ofWord _

theorem reads_scanInvalidCharacter (h : s.Stands → ¬ s.atEnd) :
    Reads s s.scanInvalidCharacter where
  onward := onward_scanInvalidCharacter s h
  lt _ := lt_scanInvalidCharacter s
  kind := by simp [scanInvalidCharacter, take, report]
  thin h := by simp [scanInvalidCharacter, take, report, Kind.reopens] at h

/-- What is read behind a touched character is read from the scanner itself. -/
theorem Reads.of_touchName {p : Nat} (hp : s.Begun → s.source.isBoundary p)
    (h : Reads (s.touchName p) t) : Reads s t := by
  have onward := onward_touchName hp
  refine ⟨onward.trans h.onward, fun hs => ?_, h.kind, fun hk => ?_⟩
  · simpa using h.lt (onward.stands hs)
  · simpa [peek] using h.thin hk

theorem reads_scanWord (more : ¬ s.atEnd) : Reads s s.scanWord := by
  have onward := onward_touchName (p := s.stop) (fun hs : s.Begun => hs.boundary)
  have still : ¬ (s.touchName s.stop).atEnd := by simpa [atEnd, onward.limit] using more
  apply Reads.of_touchName (fun hs => hs.boundary)
  simp only [scanWord]
  split
  · next begins =>
    have word := isWord_scanIdentifier (s.touchName s.stop)
    refine ⟨onward_scanIdentifier _, fun ht => ?_, Kind.ne_endOfFile_of_isWord word, fun hk => ?_⟩
    · exact lt_scanParts ht still (by simpa using begins)
    · exact absurd hk (by simp [Kind.not_reopens_of_isWord word])
  · exact reads_scanInvalidCharacter fun _ => still

theorem reads_scanPrivateIdentifier (hs : s.Stands) (h : s.peek 0 = some '#') :
    Reads s s.scanPrivateIdentifier := by
  have hb : s.source.isBoundary (s.stop + 1) := isBoundary_succ h rfl
  have onward := onward_touchName (p := s.stop + 1) (fun _ : s.Begun => hb)
  apply Reads.of_touchName (fun _ => hb)
  simp only [scanPrivateIdentifier]
  split
  · have parts := onward_scanParts
      { s.touchName (s.stop + 1) with stop := s.stop + 1, value := "#" }
    have begun : ({ s.touchName (s.stop + 1) with stop := s.stop + 1, value := "#" }).Stands :=
      ⟨(onward.stands hs).whole, onward.source ▸ hb⟩
    refine ⟨?_, fun _ => ?_, by simp, by simp [Kind.reopens]⟩
    · refine .trans (Onward.moved _ _ _ _ fun _ => ?_) (parts.trans (Onward.marked _ _ _))
      exact ⟨by simp, onward.source ▸ hb⟩
    · exact Nat.lt_of_lt_of_le (by simp) (parts.forward begun).1
  · apply reads_scanInvalidCharacter
    intro _
    have below := peek_lt h
    simpa [atEnd, onward.limit] using below

theorem reads_scanString {quote : Char} (h : s.peek 0 = some quote) (thin : quote.utf8Size = 1) :
    Reads s (s.scanString quote) := by
  obtain ⟨onward, lt⟩ := scanString_spec h thin
  refine .of_thin onward lt h thin ?_
  simp only [scanString]
  split <;> simp [take, markUnterminated, report]

theorem kind_scanTemplate_ne (reports : Bool) (s : Scanner) :
    (s.scanTemplate reports).kind ≠ .endOfFileToken := by
  simp only [scanTemplate]
  generalize (if reports = true then EscapeContext.template else .taggedTemplate) = context
  split <;> split <;> simp [take, markUnterminated, report]

theorem reads_scanTemplate (reports : Bool) (h : s.peek 0 = some c) (thin : c.utf8Size = 1) :
    Reads s (s.scanTemplate reports) := by
  obtain ⟨onward, lt⟩ := scanTemplate_spec reports h thin
  exact .of_thin onward lt h thin (kind_scanTemplate_ne reports s)

theorem reads_scanToken (hs : s.Stands) (more : ¬ s.atEnd) : Reads s s.scanToken := by
  have chooses := chooses_scanToken s
  generalize s.scanToken = t at chooses ⊢
  cases chooses with
  | sign signs => exact signs.reads
  | number c here digit => exact reads_scanNumber here (digit.imp id And.left)
  | string quote here among =>
    refine reads_scanString here ?_
    simp only [List.mem_cons, List.not_mem_nil, or_false] at among
    rcases among with rfl | rfl <;> rfl
  | template here => exact reads_scanTemplate false here rfl
  | privateName here => exact reads_scanPrivateIdentifier hs here
  | word c here => exact reads_scanWord more
  | ended none => exact reads_scanInvalidCharacter fun _ => more

/-- The token at the cursor lies on boundaries, and only the end of the text ends the source. -/
structure Sound (s : Scanner) : Prop where
  stands : s.Stands
  fullStart : s.source.isBoundary s.fullStart
  start : s.source.isBoundary s.start
  fullStart_le : s.fullStart ≤ s.start
  start_le : s.start ≤ s.stop
  ended : s.kind = .endOfFileToken → s.start = s.source.size
  thin : s.kind.reopens → ∃ c, s.source.charAt? s.start = some c ∧ c.utf8Size = 1

/-- Only the token at the end is empty. -/
def Filled (s : Scanner) : Prop := s.kind ≠ .endOfFileToken → s.start < s.stop

/-- The source, its limit and the treatment of trivia are the same, and no cut inside a
character came in between. -/
structure Keeps (s t : Scanner) : Prop where
  source : t.source = s.source
  limit : t.limit = s.limit
  keepsTrivia : t.keepsTrivia = s.keepsTrivia
  torn : t.torn = s.torn

theorem Keeps.refl (s : Scanner) : Keeps s s := ⟨rfl, rfl, rfl, rfl⟩

theorem Keeps.trans {u : Scanner} (h : Keeps s t) (k : Keeps t u) : Keeps s u :=
  ⟨k.source.trans h.source, k.limit.trans h.limit, k.keepsTrivia.trans h.keepsTrivia,
    k.torn.trans h.torn⟩

theorem Onward.keeps (h : Onward s t) (hs : s.Begun) : Keeps s t :=
  ⟨h.source, h.limit, h.keepsTrivia, (h.clean hs).1⟩

theorem Sound.stop_le (h : s.Sound) : s.stop ≤ s.source.size :=
  Source.le_size_of_isBoundary h.stands.boundary

theorem Sound.withPending (h : s.Sound) (d : Diagnostics) : Sound { s with pending := d } :=
  ⟨⟨h.stands.whole, h.stands.boundary⟩, h.fullStart, h.start, h.fullStart_le, h.start_le, h.ended,
    h.thin⟩

theorem Keeps.withPending (h : Keeps s t) (d : Diagnostics) : Keeps s { t with pending := d } :=
  ⟨h.source, h.limit, h.keepsTrivia, h.torn⟩

/-- A token is about to be read, and what is read from `fullStart` on belongs to it. -/
structure Fresh (s : Scanner) : Prop extends Stands s where
  fullStart : s.source.isBoundary s.fullStart
  fullStart_le : s.fullStart ≤ s.stop

theorem Fresh.begun (h : s.Fresh) (begun : s.start = s.stop) : s.Begun :=
  ⟨h.toStands, begun ▸ h.boundary, Nat.le_of_eq begun⟩

theorem Onward.fresh (h : Onward s t) (hs : s.Fresh) : t.Fresh where
  toStands := h.stands hs.toStands
  fullStart := by rw [h.source, h.fullStart]; exact hs.fullStart
  fullStart_le := by
    rw [h.fullStart]
    exact Nat.le_trans hs.fullStart_le (h.forward hs.toStands).1

/-- A token was read. -/
structure Reaches (s t : Scanner) : Prop where
  sound : t.Sound
  filled : t.Filled
  keeps : Keeps s t
  reported : Reported s.source s.pending t.pending

theorem Reaches.after {b : Scanner} (h : Reaches b t) (keeps : Keeps s b)
    (reported : Reported s.source s.pending b.pending) : Reaches s t :=
  ⟨h.sound, h.filled, keeps.trans h.keeps, reported.trans (keeps.source ▸ h.reported)⟩

theorem Reads.reaches (h : Reads s t) (hs : s.Fresh) (begun : s.start = s.stop) :
    Reaches s t := by
  have lt := h.lt hs.toStands
  have onward := h.onward
  obtain ⟨torn, reported⟩ := onward.clean (hs.begun begun)
  refine ⟨⟨onward.stands hs.toStands, (onward.fresh hs).fullStart, ?_, ?_, ?_,
    fun hk => absurd hk h.kind, fun hk => ?_⟩, fun _ => ?_,
    onward.keeps (hs.begun begun), reported⟩
  · rw [onward.source, onward.start, begun]; exact hs.boundary
  · rw [onward.fullStart, onward.start, begun]; exact hs.fullStart_le
  · rw [onward.start, begun]; exact Nat.le_of_lt lt
  · obtain ⟨c, hc, thin⟩ := h.thin hk
    refine ⟨c, ?_, thin⟩
    rw [onward.source, onward.start, begun]
    exact (charAt?_eq_some.mp hc).2
  · rw [onward.start, begun]; exact lt

/-- The token that ends the source. -/
theorem reaches_end (hs : s.Fresh) (begun : s.start = s.stop) (ends : s.atEnd) :
    Reaches s { s with kind := .endOfFileToken } := by
  have ends : s.limit ≤ s.stop := by simpa [atEnd] using ends
  have last : s.stop = s.source.size := by
    rw [← hs.whole]
    exact Nat.le_antisymm (stop_le_limit hs.toStands) ends
  refine ⟨⟨⟨hs.whole, hs.boundary⟩, hs.fullStart, begun ▸ hs.boundary, begun ▸ hs.fullStart_le,
    Nat.le_of_eq begun, fun _ => begun.trans last, fun hk => ?_⟩, fun hk => absurd rfl hk,
    ⟨rfl, rfl, rfl, rfl⟩, .refl _ _⟩
  cases hk

theorem kind_scanTrivia (h : s.scanTrivia.1 = true) : s.scanTrivia.2.kind.isTrivia := by
  have tries := tries_scanTrivia s
  generalize s.scanTrivia = r at tries h ⊢
  cases tries with
  | lineBreak => rfl
  | blanks => rfl
  | script => rfl
  | lineComment => rfl
  | blockComment =>
    have closes := closes_scanBlockComment s
    generalize s.scanBlockComment = t at closes ⊢
    cases closes <;> rfl
  | marker => rfl
  | solid => cases h
  | ended => cases h

theorem reads_scanTrivia (h : s.scanTrivia.1 = true) : Reads s s.scanTrivia.2 := by
  obtain ⟨onward, lt, _⟩ := scanTrivia_spec s
  have trivia := kind_scanTrivia h
  refine ⟨onward, lt h, ?_, fun hk => ?_⟩
  · intro hk
    rw [hk] at trivia
    exact absurd trivia (by decide)
  · exact absurd hk (by simp [Kind.not_reopens_of_isTrivia trivia])

/-- One more turn than there are bytes left leads to a token. -/
theorem reaches_scanFrom (fuel : Nat) (s : Scanner) (hs : s.Fresh)
    (enough : s.limit - s.stop < fuel) :
    Reaches s (scanFrom fuel s) ∧ (scanFrom fuel s).fullStart = s.fullStart := by
  induction fuel generalizing s with
  | zero => omega
  | succ fuel ih =>
    generalize hb : ({ s with start := s.stop } : Scanner) = b
    have fresh : b.Fresh := by
      rw [← hb]
      exact ⟨⟨hs.whole, hs.boundary⟩, hs.fullStart, hs.fullStart_le⟩
    have begun : b.start = b.stop := by rw [← hb]
    have same : b.fullStart = s.fullStart := by rw [← hb]
    have stop : b.stop = s.stop := by rw [← hb]
    have limit : b.limit = s.limit := by rw [← hb]
    have from_ {t : Scanner} (h : Reaches b t) : Reaches s t := by
      rw [← hb] at h
      exact h.after ⟨rfl, rfl, rfl, rfl⟩ (.refl _ _)
    rw [scanFrom, hb]
    split
    · next ends => exact ⟨from_ (reaches_end fresh begun ends), same⟩
    · next more =>
      have trivia := scanTrivia_spec b
      cases found : b.scanTrivia with
      | mk any t =>
        rw [found] at trivia
        obtain ⟨onward, lt, still⟩ := trivia
        have tfresh := onward.fresh fresh
        have keeps := onward.keeps (fresh.begun begun)
        have reported := (onward.clean (fresh.begun begun)).2
        cases any with
        | true =>
          have lt := lt rfl fresh.toStands
          have bound := stop_le_limit tfresh.toStands
          have tlimit := keeps.limit
          dsimp only at lt bound tlimit ⊢
          split
          · have reads := reads_scanTrivia (s := b) (by rw [found])
            rw [found] at reads
            exact ⟨from_ (reads.reaches fresh begun), onward.fullStart.trans same⟩
          · obtain ⟨reaches, full⟩ := ih t tfresh (by omega)
            exact ⟨from_ (reaches.after keeps reported),
              full.trans (onward.fullStart.trans same)⟩
        | false =>
          have still := still rfl
          dsimp only at still ⊢ tfresh
          have reads := reads_scanToken tfresh.toStands (by
            rw [atEnd, still, onward.limit]
            exact more)
          have tbegun : t.start = t.stop := by rw [onward.start, begun, still]
          exact ⟨from_ ((reads.reaches tfresh tbegun).after keeps reported),
            reads.onward.fullStart.trans (onward.fullStart.trans same)⟩

theorem reaches_scan (hs : s.Stands) : Reaches s s.scan ∧ s.scan.fullStart = s.stop := by
  have fresh : s.begin.Fresh := ⟨⟨hs.whole, hs.boundary⟩, hs.boundary, Nat.le_refl _⟩
  obtain ⟨reaches, full⟩ := reaches_scanFrom (s.limit - s.stop + 1) s.begin fresh
    (Nat.lt_succ_self _)
  exact ⟨reaches.after ⟨rfl, rfl, rfl, rfl⟩ (.refl _ _), full⟩

end Scanner
end ScriptGrammar
