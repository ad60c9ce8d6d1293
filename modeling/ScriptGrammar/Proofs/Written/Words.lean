import ScriptGrammar.Proofs.Chain.Scan
import ScriptGrammar.Proofs.Scanner.Escapes
import ScriptGrammar.Proofs.Scanner.Lexing

/-!
# Written words

A source may be given as a list of words: names, keywords and signs, each behind the one before it
or behind one blank. Where no two of them run together, the scanner takes them one by one.
-/

namespace ScriptGrammar

open Scanner (EndsWord endsWord_space)

/-- A token as it is written. -/
structure Word where
  kind : Kind
  text : String
  /-- A blank stands before it. -/
  spaced : Bool

/-- The signs that words are made of. -/
def writtenSigns : List (Kind × String) := [
  (.openParenToken, "("), (.closeParenToken, ")"), (.openBracketToken, "["),
  (.closeBracketToken, "]"), (.semicolonToken, ";"), (.commaToken, ","), (.lessThanToken, "<"),
  (.greaterThanToken, ">"), (.equalsToken, "="), (.equalsGreaterThanToken, "=>")]

/-- Characters that make another sign of the one before them. -/
def joiningChars : List Char := ['=', '<', '>']

/-- The signs that begin with one of them. -/
def joiningSigns : List Kind :=
  [.equalsToken, .lessThanToken, .greaterThanToken, .equalsGreaterThanToken]

namespace Word

def name (n : PlainName) (spaced : Bool) : Word := ⟨.identifier, n.text, spaced⟩

/-- A keyword or a sign. -/
def fixed (k : Kind) (spaced : Bool) : Word := ⟨k, k.text?.getD "", spaced⟩

@[simp] theorem kind_name (n : PlainName) (spaced : Bool) : (name n spaced).kind = .identifier :=
  rfl

@[simp] theorem kind_fixed (k : Kind) (spaced : Bool) : (fixed k spaced).kind = k := rfl

/-- How far the token is from the one before it. -/
def gap (w : Word) : Nat := w.spaced.toNat

def chars (w : Word) : List Char := List.replicate w.gap ' ' ++ w.text.toList

@[simp] theorem chars_name (n : PlainName) (spaced : Bool) :
    (name n spaced).chars = List.replicate spaced.toNat ' ' ++ n.text.toList := rfl

/-- The text is that of a token of this kind. -/
inductive Spelled (w : Word) : Prop where
  | word (start : w.text.toList.head?.any isIdentifierStart)
      (parts : ∀ c ∈ w.text.toList, isIdentifierPart c) (kind : Kind.ofWord w.text = w.kind)
  | sign (listed : (w.kind, w.text) ∈ writtenSigns)

theorem spelled_sign {k : Kind} {spaced : Bool}
    (listed : (k, k.text?.getD "") ∈ writtenSigns) : (fixed k spaced).Spelled := .sign listed

/-- Side by side the two stay apart. -/
def meets (w v : Word) : Bool :=
  v.spaced || if w.kind.isWord then !v.kind.isWord else !joiningSigns.contains v.kind

/-- The text goes on so that the word is taken as it is. -/
def EndsBefore (w : Word) (cs : List Char) : Prop :=
  if w.kind.isWord then EndsWord cs else ∀ c, cs.head? = some c → c ∉ joiningChars

theorem spelled_name (n : PlainName) (spaced : Bool) : (name n spaced).Spelled :=
  .word n.spec.1 n.spec.2.1 n.spec.2.2

end Word

/-- How the words are written. -/
def spell (ws : List Word) : List Char := ws.flatMap Word.chars

@[simp] theorem spell_nil : spell [] = [] := rfl

@[simp] theorem spell_cons (w : Word) (ws : List Word) : spell (w :: ws) = w.chars ++ spell ws :=
  rfl

@[simp] theorem spell_append (vs ws : List Word) : spell (vs ++ ws) = spell vs ++ spell ws :=
  List.flatMap_append

/-- Each word can be read, and none runs into the next. -/
def Legible : List Word → Prop
  | [] => True
  | w :: ws => w.Spelled ∧ (∀ v ∈ ws.head?, w.meets v) ∧ Legible ws

theorem Legible.cons {w v : Word} {ws : List Word} (spelled : w.Spelled) (apart : w.meets v)
    (legible : Legible (v :: ws)) : Legible (w :: v :: ws) :=
  ⟨spelled, fun _ same => by cases same; exact apart, legible⟩

theorem Legible.name {n : PlainName} {spaced : Bool} {v : Word} {ws : List Word}
    (apart : v.spaced || !v.kind.isWord) (legible : Legible (v :: ws)) :
    Legible (.name n spaced :: v :: ws) := .cons (Word.spelled_name n spaced) apart legible

theorem Legible.sign {k : Kind} {spaced : Bool} {v : Word} {ws : List Word}
    (listed : (k, k.text?.getD "") ∈ writtenSigns) (apart : (Word.fixed k spaced).meets v)
    (legible : Legible (v :: ws)) : Legible (.fixed k spaced :: v :: ws) :=
  .cons (Word.spelled_sign listed) apart legible

namespace Word

variable {w v : Word} {cs : List Char} {ws : List Word}

theorem Spelled.isWord_iff (h : w.Spelled) :
    w.kind.isWord ↔ w.text.toList.head?.any isIdentifierStart := by
  cases h with
  | word start _ kind => exact iff_of_true (kind ▸ Kind.isWord_ofWord _) start
  | sign listed =>
    have all : ∀ e ∈ writtenSigns, e.1.isWord = false ∧
        e.2.toList.head?.any isIdentifierStart = false := by decide
    obtain ⟨word, start⟩ := all _ listed
    simp only at word start
    simp [word, start]

/-- A word has a first character, which is no blank. -/
theorem Spelled.exists_cons (h : w.Spelled) :
    ∃ c more, w.text.toList = c :: more ∧ isSpace c = false := by
  cases h with
  | word start =>
    cases chars : w.text.toList with
    | nil => simp [chars] at start
    | cons c more =>
      rw [chars] at start
      exact ⟨c, more, rfl, Scanner.not_isSpace_of_isIdentifierStart start⟩
  | sign listed =>
    have all : ∀ e ∈ writtenSigns, e.2.toList.head?.any (!isSpace ·) := by decide
    have all := all _ listed
    cases chars : w.text.toList with
    | nil => simp [chars] at all
    | cons c more => exact ⟨c, more, rfl, by simpa [chars] using all⟩

theorem not_mem_joiningChars {c : Char} (start : isIdentifierStart c) : c ∉ joiningChars := by
  intro among
  have none : joiningChars.all (!isIdentifierStart ·) := by decide
  have none := List.all_eq_true.mp none c among
  rw [start] at none
  cases none

theorem Spelled.isIdentifierStart {c : Char} {more : List Char} (h : w.Spelled)
    (chars : w.text.toList = c :: more) (word : w.kind.isWord) : isIdentifierStart c := by
  have start := h.isWord_iff.mp word
  rw [chars] at start
  exact start

theorem Spelled.first_of_sign {c : Char} {more : List Char} (h : w.Spelled)
    (chars : w.text.toList = c :: more) (sign : w.kind.isWord = false) :
    (isIdentifierPart c = false ∧ c ≠ '\x5c') ∧ (c ∈ joiningChars → w.kind ∈ joiningSigns) := by
  cases h with
  | word _ _ kind =>
    have word := Kind.isWord_ofWord w.text
    rw [kind, sign] at word
    cases word
  | sign listed =>
    have all : ∀ e ∈ writtenSigns, e.2.toList.head?.all fun c =>
        (!isIdentifierPart c && c != '\x5c') &&
          (!joiningChars.contains c || joiningSigns.contains e.1) := by decide
    have all := all _ listed
    simpa [chars, Decidable.imp_iff_not_or] using all

theorem endsBefore_of_meets (h : w.meets v) (spelled : v.Spelled) :
    w.EndsBefore (v.chars ++ cs) := by
  unfold meets at h
  unfold EndsBefore chars gap
  cases spaced : v.spaced with
  | true =>
    split
    · exact endsWord_space _
    · rintro c ⟨⟩
      decide
  | false =>
    obtain ⟨c, more, chars, -⟩ := spelled.exists_cons
    rw [spaced, Bool.false_or] at h
    simp only [Bool.toNat_false, List.replicate_zero, List.nil_append, chars]
    cases word : v.kind.isWord with
    | true =>
      split
      · next left => simp [left, word] at h
      · rintro _ ⟨⟩
        exact not_mem_joiningChars (spelled.isIdentifierStart chars word)
    | false =>
      obtain ⟨apart, joins⟩ := spelled.first_of_sign chars word
      split
      · rintro _ ⟨⟩
        exact apart
      · next left =>
        rintro _ ⟨⟩ among
        simp [left, joins among] at h

theorem endsBefore_nil (w : Word) : w.EndsBefore [] := by
  unfold EndsBefore
  split <;> exact fun _ no => (nomatch no)

end Word

theorem Legible.endsBefore {w : Word} {ws : List Word} (h : Legible (w :: ws)) :
    w.EndsBefore (spell ws) := by
  obtain ⟨_, meets, rest⟩ := h
  cases ws with
  | nil => exact w.endsBefore_nil
  | cons v ws => exact Word.endsBefore_of_meets (meets v rfl) rest.1

namespace Scanner

variable {s t : Scanner} {w : Word} {ws : List Word} {cs : List Char}

/-- A sign is taken whole, and is no trivia. -/
theorem scanToken_writtenSign {e : Kind × String} (listed : e ∈ writtenSigns)
    (ends : ∀ c, cs.head? = some c → c ∉ joiningChars) (h : s.Faces (e.2.toList ++ cs)) :
    s.scanTrivia = (false, s) ∧ Took s s.scanToken e.1 cs := by
  have thin : ∀ a ∈ e.2.toList, a.utf8Size = 1 := by
    have all : ∀ e ∈ writtenSigns, e.2.toList.all (·.utf8Size == 1) := by decide
    simpa using all e listed
  have peek (i : Nat) (le : i ≤ e.2.toList.length) : s.peek i = (e.2.toList ++ cs)[i]? :=
    h.peek_thin thin le
  have behind (c : Char) (joins : c ∈ joiningChars) : cs[0]? ≠ some c := by
    rw [← List.head?_eq_getElem?]
    exact fun same => ends c same joins
  have noEquals := behind '=' (by decide)
  have noLess := behind '<' (by decide)
  have noGreater := behind '>' (by decide)
  -- Two characters suffice to tell the sign from a marker.
  have plain : s.peek 0 ∈ [some '<', some '=', some '>'] → s.isConflictMarker s.stop = false := by
    intro among
    refine not_isConflictMarker (i := 1) (by decide) ?_
    simp only [writtenSigns, List.mem_cons, List.not_mem_nil, or_false] at listed
    rcases listed with rfl | rfl | rfl | rfl | rfl | rfl | rfl | rfl | rfl | rfl
    all_goals simp_all
  suffices s.scanTrivia = (false, s) ∧ s.scanToken = s.take e.2.toList.length e.1 by
    exact ⟨this.1, this.2 ▸ took_take h thin e.1⟩
  simp only [writtenSigns, List.mem_cons, List.not_mem_nil, or_false] at listed
  rcases listed with rfl | rfl | rfl | rfl | rfl | rfl | rfl | rfl | rfl | rfl
  all_goals
    simp only [String.reduceToList, List.length_cons, List.length_nil] at peek plain
    simp [scanTrivia, isAscii, scanToken, loneToken?, scanOperatorOrWord, scanLess, scanEquals,
      peek, plain, noEquals, noLess, noGreater]

/-- A word at the cursor is taken whole. -/
theorem took_written (h : s.Faces (w.text.toList ++ cs)) (spelled : w.Spelled)
    (ends : w.EndsBefore cs) (value : s.value = "") (flags : s.flags = {}) :
    s.scanTrivia = (false, s) ∧ Took s s.scanToken w.kind cs ∧
      (w.kind.isWord → s.scanToken.value = w.text) := by
  have isWord := spelled.isWord_iff
  unfold Word.EndsBefore at ends
  cases spelled with
  | word start parts kind =>
    rw [if_pos (isWord.mpr start)] at ends
    obtain ⟨took, text⟩ := took_word h start parts ends value flags
    rw [String.ofList_toList] at took text
    exact ⟨solid_word h start, kind ▸ took, fun _ => text⟩
  | sign listed =>
    have noWord : w.kind.isWord = false := by
      have all : ∀ e ∈ writtenSigns, e.1.isWord = false := by decide
      exact all _ listed
    rw [if_neg (by simp [noWord])] at ends
    obtain ⟨solid, took⟩ := scanToken_writtenSign listed ends h
    exact ⟨solid, took, fun word => by rw [noWord] at word; cases word⟩

/-- The scanner has taken the word `w`, and the words `ws` are left. -/
structure On (s : Scanner) (w : Word) (ws : List Word) : Prop where
  kind : s.kind = w.kind
  value : w.kind.isWord → s.value = w.text
  start : s.start = s.fullStart + w.gap
  sameLine : s.flags.precedingLineBreak = false
  faces : s.Faces (spell ws)

/-- From `v` on `s` takes its next token `w`, a blank being passed over. -/
structure Comes (s v : Scanner) (w : Word) (cs : List Char) : Prop where
  scans : v.scanTrivia = (false, v) → s.scan = v.scanToken
  faces : v.Faces (w.text.toList ++ cs)
  stands : v.Stands
  value : v.value = ""
  flags : v.flags = {}
  start : v.start = s.stop + w.gap
  pending : v.pending = s.pending

theorem exists_comes (stands : s.Stands) (h : s.Faces (w.chars ++ cs))
    (skips : s.keepsTrivia = false) (spelled : w.Spelled) : ∃ v, Comes s v w cs := by
  obtain ⟨c, more, chars, solid⟩ := spelled.exists_cons
  rw [Word.chars, List.append_assoc] at h
  unfold Word.gap at h
  cases spaced : w.spaced with
  | false =>
    simp only [spaced, Bool.toNat_false, List.replicate_zero, List.nil_append] at h
    refine ⟨s.opened, ?_, h.congr rfl rfl rfl, ⟨stands.whole, stands.boundary⟩, rfl, rfl, ?_, rfl⟩
    · rw [chars] at h
      exact scan_eq h
    · rw [Word.gap, spaced]
      rfl
  | true =>
    simp only [spaced, Bool.toNat_true, List.replicate_one, List.singleton_append] at h
    have faces := h.blanked
    have boundary : s.source.isBoundary (s.stop + 1) := by
      rw [chars] at faces
      exact faces.text.isBoundary
    refine ⟨s.blanked, ?_, faces, ⟨stands.whole, boundary⟩, rfl, rfl, ?_, rfl⟩
    · rw [chars] at h
      exact scan_eq_of_blank h skips solid
    · rw [Word.gap, spaced]
      rfl

theorem on_scan (stands : s.Stands) (h : s.Faces (spell (w :: ws))) (skips : s.keepsTrivia = false)
    (legible : Legible (w :: ws)) : s.scan.On w ws ∧ s.scan.pending = s.pending := by
  obtain ⟨v, comes⟩ := exists_comes stands h skips legible.1
  obtain ⟨solid, took, text⟩ :=
    took_written comes.faces legible.1 legible.endsBefore comes.value comes.flags
  have scan : s.scan = v.scanToken := comes.scans solid
  have more : ¬ v.atEnd := by
    obtain ⟨c, more, chars, -⟩ := legible.1.exists_cons
    have faces := comes.faces
    rw [chars] at faces
    simp [faces.not_atEnd]
  have onward := (reads_scanToken comes.stands more).onward
  have sameLine : v.scanToken.flags.precedingLineBreak = false := by
    have noted : v.scanToken.flags.noted = v.flags.noted := (lexes_scanToken v).1
    rw [comes.flags] at noted
    exact congrArg Prod.fst noted
  have full : s.scan.fullStart = s.stop := (follows_scan stands).fullStart
  have began : s.scan.start = s.scan.fullStart + w.gap := by
    rw [full, scan, onward.start, comes.start]
  rw [scan] at began ⊢
  exact ⟨⟨took.kind, text, began, sameLine, took.faces⟩, took.pending.trans comes.pending⟩

end Scanner
end ScriptGrammar
