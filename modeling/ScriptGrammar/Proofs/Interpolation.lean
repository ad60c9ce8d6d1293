import Mathlib.Data.List.Infix
import ScriptGrammar.Diagnostic

/-!
# All arguments at once

The places of a template are read off the template, in one pass, and all are filled together: what
comes out of an argument is not read again. The program puts the arguments in one after another and
reads each time the text that the earlier ones left. The two agree as long as no argument brings a
place for a later one into the text, by itself or together with the text beside it: then each pass
finds the places that the template has for its argument, and nothing else.

A place opens with a brace and has no other opening brace, so places do not overlap. What a pass
finds can therefore be counted: the places that are not filled yet are all there, and a place beside
them makes one more.
-/

namespace ScriptGrammar
namespace Template

/-- A piece of a template: a character, or the place of an argument. -/
inductive Piece where
  | char (c : Char)
  | place (i : Nat)
deriving DecidableEq

/-- The argument, of the first `n`, whose place the text begins with. -/
def placeAhead? (n : Nat) (text : List Char) : Option Nat :=
  (List.range n).find? fun i => (placeholder i).isPrefixOf text

/-- The pieces of a template for `n` arguments, from behind the first `skip` characters. -/
def pieces (n : Nat) : (skip : Nat) → List Char → List Piece
  | _, [] => []
  | skip + 1, _ :: cs => pieces n skip cs
  | 0, c :: cs =>
    match placeAhead? n (c :: cs) with
    | some i => .place i :: pieces n ((placeholder i).length - 1) cs
    | none => .char c :: pieces n 0 cs

/-- What stands in the place of a piece: for an argument that is not there, the place itself. -/
def Piece.fill (args : List String) : Piece → List Char
  | .char c => [c]
  | .place i => (args[i]?.map String.toList).getD (placeholder i)

def spell (args : List String) (ps : List Piece) : List Char := ps.flatMap (Piece.fill args)

def piecesFor (args : List String) (template : String) : List Piece :=
  pieces args.length 0 template.toList

/-- Puts all arguments into the places that the template has for them. -/
def substitute (template : String) (args : List String) : String :=
  String.ofList (spell args (piecesFor args template))

/-- How often a word stands in a text. -/
def occurrences (word text : List Char) : Nat := text.tails.countP (word.isPrefixOf ·)

/-- No argument brings a place for a later one into the text: the pass for an argument finds its
place as often as it stands in the template. -/
def Settled (template : String) (args : List String) : Prop :=
  ∀ k < args.length, occurrences (placeholder k) (interpolate template (args.take k)).toList =
    occurrences (placeholder k) template.toList

instance (template : String) (args : List String) : Decidable (Settled template args) :=
  inferInstanceAs (Decidable (∀ k < args.length, _ = _))

variable {n i j k : Nat} {c : Char} {a b cs text rest word new : List Char} {args : List String}
variable {template : String}

theorem placeholder_append_inj (same : placeholder i ++ a = placeholder j ++ b) :
    i = j ∧ a = b := by
  have digits (i : Nat) : ∀ d ∈ Nat.toDigits 10 i, d.isDigit = true := fun _ hd =>
    Nat.isDigit_of_mem_toDigits (by decide) (by decide) hd
  have number (i : Nat) (a : List Char) :
      (Nat.toDigits 10 i ++ '\x7d' :: a).takeWhile Char.isDigit = Nat.toDigits 10 i := by
    rw [List.takeWhile_append_of_pos (digits i)]
    exact List.append_nil _
  have inner : Nat.toDigits 10 i ++ '\x7d' :: a = Nat.toDigits 10 j ++ '\x7d' :: b := by
    simpa [placeholder] using same
  have numbers : Nat.toDigits 10 i = Nat.toDigits 10 j := by
    rw [← number i a, inner, number]
  refine ⟨?_, (List.cons.inj (List.append_cancel_left (numbers ▸ inner))).2⟩
  rw [← Nat.ofDigitChars_ten_toDigits (n := i), numbers, Nat.ofDigitChars_ten_toDigits]

theorem placeholder_ne_nil (i : Nat) : placeholder i ≠ [] := List.cons_ne_nil _ _

/-- A place opens with its only opening brace. -/
theorem placeholder_eq (i : Nat) : ∃ cs, placeholder i = '\x7b' :: cs ∧ '\x7b' ∉ cs := by
  refine ⟨_, rfl, fun opening => ?_⟩
  rcases List.mem_append.mp opening with digit | closing
  · have digit := Nat.isDigit_of_mem_toDigits (by decide) (by decide) digit
    cases digit
  · cases List.mem_singleton.mp closing

theorem placeAhead?_eq_some_iff :
    placeAhead? n text = some i ↔ i < n ∧ ∃ rest, text = placeholder i ++ rest := by
  have found {i : Nat} (h : placeAhead? n text = some i) :
      i < n ∧ ∃ rest, text = placeholder i ++ rest := by
    have reads := List.find?_some h
    obtain ⟨rest, same⟩ := List.isPrefixOf_iff_prefix.mp reads
    exact ⟨List.mem_range.mp (List.mem_of_find?_eq_some h), rest, same.symm⟩
  refine ⟨found, fun ⟨lt, rest, reads⟩ => ?_⟩
  have any : (placeAhead? n text).isSome := by
    refine List.find?_isSome.mpr ⟨i, List.mem_range.mpr lt, List.isPrefixOf_iff_prefix.mpr ?_⟩
    exact ⟨rest, reads.symm⟩
  obtain ⟨j, ahead⟩ := Option.isSome_iff_exists.mp any
  obtain ⟨_, rest', reads'⟩ := found ahead
  obtain ⟨rfl, _⟩ := placeholder_append_inj (reads'.symm.trans reads)
  exact ahead

theorem pieces_drop (n skip : Nat) (text : List Char) :
    pieces n skip text = pieces n 0 (text.drop skip) := by
  induction skip generalizing text with
  | zero => rfl
  | succ skip ih =>
    cases text with
    | nil => rfl
    | cons c cs => exact ih cs

theorem pieces_place (lt : i < n) (rest : List Char) :
    pieces n 0 (placeholder i ++ rest) = .place i :: pieces n 0 rest := by
  have ahead := placeAhead?_eq_some_iff.mpr ⟨lt, rest, rfl⟩
  obtain ⟨cs, same, _⟩ := placeholder_eq i
  rw [same, List.cons_append] at ahead ⊢
  simp only [pieces, ahead]
  rw [pieces_drop, same, List.length_cons, Nat.add_sub_cancel, List.drop_left]

theorem pieces_char (bare : placeAhead? n (c :: cs) = none) :
    pieces n 0 (c :: cs) = .char c :: pieces n 0 cs := by
  simp only [pieces, bare]

/-- A template is read place by place, and what begins no place character by character. -/
@[elab_as_elim]
theorem piecesInduction {motive : List Char → Prop} (n : Nat) (text : List Char)
    (nil : motive [])
    (place : ∀ i rest, i < n → motive rest → motive (placeholder i ++ rest))
    (char : ∀ c cs, placeAhead? n (c :: cs) = none → motive cs → motive (c :: cs)) :
    motive text := by
  induction size : text.length using Nat.strongRecOn generalizing text with
  | ind _ shorter =>
    subst size
    cases text with
    | nil => exact nil
    | cons c cs =>
      cases ahead : placeAhead? n (c :: cs) with
      | none => exact char c cs ahead (shorter cs.length (Nat.lt_succ_self _) cs rfl)
      | some i =>
        obtain ⟨below, rest, same⟩ := placeAhead?_eq_some_iff.mp ahead
        rw [same] at shorter ⊢
        refine place i rest below (shorter rest.length ?_ rest rfl)
        rw [List.length_append]
        exact Nat.lt_add_of_pos_left (List.length_pos_iff.mpr (placeholder_ne_nil i))

theorem spell_cons (args : List String) (p : Piece) (ps : List Piece) :
    spell args (p :: ps) = p.fill args ++ spell args ps := List.flatMap_cons

/-- Nothing of a template is lost. -/
theorem spell_pieces (n : Nat) (text : List Char) : spell [] (pieces n 0 text) = text := by
  induction text using piecesInduction n with
  | nil => rfl
  | place i rest lt ih =>
    rw [pieces_place lt, spell_cons, ih]
    rfl
  | char c cs bare ih =>
    rw [pieces_char bare, spell_cons, ih]
    rfl

theorem occurrences_cons (word : List Char) (c : Char) (cs : List Char) :
    occurrences word (c :: cs) =
      occurrences word cs + if word.isPrefixOf (c :: cs) then 1 else 0 := by
  rw [occurrences, List.tails_cons, List.countP_cons]
  rfl

theorem occurrences_append_le (word a rest : List Char) :
    occurrences word rest ≤ occurrences word (a ++ rest) := by
  induction a with
  | nil => exact Nat.le_refl _
  | cons c a ih =>
    rw [List.cons_append, occurrences_cons]
    exact Nat.le_add_right_of_le ih

/-- No place begins where there is no opening brace. -/
theorem occurrences_append (plain : '\x7b' ∉ a) (rest : List Char) :
    occurrences (placeholder k) (a ++ rest) = occurrences (placeholder k) rest := by
  induction a with
  | nil => rfl
  | cons c a ih =>
    have other := List.ne_of_not_mem_cons plain
    have plain := List.not_mem_of_not_mem_cons plain
    have no : (placeholder k).isPrefixOf (c :: (a ++ rest)) = false := by
      simp [placeholder, List.isPrefixOf, other]
    rw [List.cons_append, occurrences_cons, no, ih plain]
    rfl

theorem occurrences_place (i : Nat) (rest : List Char) :
    occurrences (placeholder k) (placeholder i ++ rest) =
      occurrences (placeholder k) rest + if i = k then 1 else 0 := by
  have reads : (placeholder k).isPrefixOf (placeholder i ++ rest) = decide (i = k) := by
    rw [Bool.eq_iff_iff, List.isPrefixOf_iff_prefix, decide_eq_true_iff]
    constructor
    · rintro ⟨behind, same⟩
      exact (placeholder_append_inj same).1.symm
    · rintro rfl
      exact List.prefix_append _ _
  obtain ⟨cs, same, plain⟩ := placeholder_eq i
  rw [same, List.cons_append] at reads ⊢
  rw [occurrences_cons, reads, occurrences_append plain]
  simp

/-- The template has as many places for an argument as its place stands there. -/
theorem count_pieces (lt : k < n) (text : List Char) :
    (pieces n 0 text).count (.place k) = occurrences (placeholder k) text := by
  induction text using piecesInduction n with
  | nil => rfl
  | place i rest below ih =>
    rw [pieces_place below, List.count_cons, ih, occurrences_place]
    simp
  | char c cs bare ih =>
    have no : (placeholder k).isPrefixOf (c :: cs) = false := by
      refine Bool.eq_false_iff.mpr fun reads => ?_
      obtain ⟨rest, same⟩ := List.isPrefixOf_iff_prefix.mp reads
      rw [placeAhead?_eq_some_iff.mpr ⟨lt, rest, same.symm⟩] at bare
      cases bare
    rw [pieces_char bare, List.count_cons, ih, occurrences_cons, no]
    rfl

theorem replaceWord_nil (word new : List Char) (fuel : Nat) :
    replaceWord word new fuel [] = [] := by
  cases fuel <;> rfl

/-- More fuel than characters changes nothing. -/
theorem replaceWord_enough (nonempty : word ≠ []) {f g : Nat} (hf : text.length ≤ f)
    (hg : text.length ≤ g) : replaceWord word new f text = replaceWord word new g text := by
  induction f generalizing g text with
  | zero =>
    obtain rfl := List.length_eq_zero_iff.mp (Nat.le_zero.mp hf)
    rw [replaceWord_nil, replaceWord_nil]
  | succ f ih =>
    cases text with
    | nil => rw [replaceWord_nil, replaceWord_nil]
    | cons c cs =>
      obtain ⟨g, rfl⟩ : ∃ g', g = g' + 1 :=
        Nat.exists_eq_add_one.mpr (Nat.zero_lt_of_lt hg)
      rw [List.length_cons, Nat.add_le_add_iff_right] at hf hg
      have behind : ((c :: cs).drop word.length).length ≤ cs.length := by
        have := List.length_pos_iff.mpr nonempty
        rw [List.length_drop, List.length_cons]
        omega
      rw [replaceWord, replaceWord, ih hf hg,
        ih (Nat.le_trans behind hf) (Nat.le_trans behind hg)]

/-- What holds no occurrence stays, and the pass goes on behind it. -/
theorem replaceWord_append (clear : occurrences word (a ++ rest) = occurrences word rest) :
    replaceWord word new (a ++ rest).length (a ++ rest) =
      a ++ replaceWord word new rest.length rest := by
  induction a with
  | nil => rfl
  | cons c a ih =>
    rw [List.cons_append, occurrences_cons] at clear
    have more := occurrences_append_le word a rest
    have no : ¬ word.isPrefixOf (c :: (a ++ rest)) = true := by
      intro reads
      rw [if_pos reads] at clear
      omega
    rw [if_neg no] at clear
    rw [List.cons_append, List.length_cons, replaceWord, if_neg no, ih clear, List.cons_append]

/-- An occurrence is replaced, and what was put in is not read again. -/
theorem replaceWord_word (nonempty : word ≠ []) (rest : List Char) :
    replaceWord word new (word ++ rest).length (word ++ rest) =
      new ++ replaceWord word new rest.length rest := by
  cases word with
  | nil => exact absurd rfl nonempty
  | cons c cs =>
    have reads : (c :: cs).isPrefixOf (c :: (cs ++ rest)) = true :=
      List.isPrefixOf_iff_prefix.mpr (List.prefix_append (c :: cs) rest)
    have behind : (c :: (cs ++ rest)).drop (c :: cs).length = rest := List.drop_left
    rw [List.cons_append, List.length_cons, replaceWord, if_pos reads, behind]
    refine congrArg (new ++ ·) (replaceWord_enough nonempty ?_ (Nat.le_refl _))
    rw [List.length_append]
    exact Nat.le_add_left _ _

theorem fill_take_self (args : List String) (k : Nat) :
    (Piece.place k).fill (args.take k) = placeholder k := by
  rw [Piece.fill, List.getElem?_take_eq_none (Nat.le_refl k)]
  rfl

theorem fill_take_succ_self (lt : k < args.length) :
    (Piece.place k).fill (args.take (k + 1)) = args[k].toList := by
  rw [Piece.fill, List.getElem?_take_of_lt (Nat.lt_succ_self k), List.getElem?_eq_getElem lt]
  rfl

theorem fill_take_succ {p : Piece} (other : p ≠ .place k) :
    p.fill (args.take (k + 1)) = p.fill (args.take k) := by
  cases p with
  | char c => rfl
  | place i =>
    have ne : i ≠ k := fun same => other (congrArg Piece.place same)
    rw [Piece.fill, Piece.fill, List.getElem?_take, List.getElem?_take]
    simp only [Nat.lt_succ_iff_lt_or_eq, ne, or_false]

/-- Places that are not filled yet stand in the text. -/
theorem count_le_occurrences (args : List String) (k : Nat) (ps : List Piece) :
    ps.count (.place k) ≤ occurrences (placeholder k) (spell (args.take k) ps) := by
  induction ps with
  | nil => exact Nat.zero_le _
  | cons p ps ih =>
    rw [spell_cons]
    by_cases here : p = .place k
    · rw [here, fill_take_self, occurrences_place, if_pos rfl, List.count_cons_self]
      exact Nat.add_le_add_right ih 1
    · rw [List.count_cons_of_ne here]
      exact Nat.le_trans ih (occurrences_append_le _ _ _)

/-- A pass that finds no more than the template's places fills these. -/
theorem replaceWord_spell (lt : k < args.length) (ps : List Piece)
    (own : occurrences (placeholder k) (spell (args.take k) ps) = ps.count (.place k)) :
    replaceWord (placeholder k) args[k].toList (spell (args.take k) ps).length
      (spell (args.take k) ps) = spell (args.take (k + 1)) ps := by
  induction ps with
  | nil => rfl
  | cons p ps ih =>
    have counted := count_le_occurrences args k ps
    rw [spell_cons] at own ⊢
    rw [spell_cons (args.take (k + 1))]
    by_cases here : p = .place k
    · subst here
      rw [fill_take_self, occurrences_place, if_pos rfl, List.count_cons_self] at own
      rw [fill_take_self, fill_take_succ_self lt, replaceWord_word (placeholder_ne_nil k),
        ih (Nat.add_right_cancel own)]
    · rw [List.count_cons_of_ne here] at own
      have more := occurrences_append_le (placeholder k) (p.fill (args.take k))
        (spell (args.take k) ps)
      rw [replaceWord_append (by omega), fill_take_succ here, ih (by omega)]

theorem interpolateFrom_concat (i : Nat) (text : List Char) (args : List String) (a : String) :
    interpolateFrom i text (args ++ [a]) =
      replaceWord (placeholder (i + args.length)) a.toList (interpolateFrom i text args).length
        (interpolateFrom i text args) := by
  induction args generalizing i text with
  | nil => rfl
  | cons b args ih =>
    rw [List.cons_append, interpolateFrom, interpolateFrom, ih, List.length_cons,
      Nat.add_assoc, Nat.add_comm 1]

theorem interpolate_take_succ (template : String) (lt : k < args.length) :
    (interpolate template (args.take (k + 1))).toList =
      replaceWord (placeholder k) args[k].toList (interpolate template (args.take k)).toList.length
        (interpolate template (args.take k)).toList := by
  rw [interpolate, interpolate, String.toList_ofList, String.toList_ofList,
    ← List.take_append_getElem lt, interpolateFrom_concat, Nat.zero_add,
    List.length_take_of_le (Nat.le_of_lt lt)]

/-- What the first passes leave: the template with the first arguments in their places. -/
theorem interpolate_take (le : k ≤ args.length)
    (own : ∀ j < k, occurrences (placeholder j) (spell (args.take j) (piecesFor args template)) =
      (piecesFor args template).count (.place j)) :
    (interpolate template (args.take k)).toList =
      spell (args.take k) (piecesFor args template) := by
  induction k with
  | zero =>
    rw [List.take_zero, piecesFor, spell_pieces, interpolate, String.toList_ofList, interpolateFrom]
  | succ k ih =>
    have text := ih (Nat.le_of_succ_le le) fun j lt => own j (Nat.lt_succ_of_lt lt)
    rw [interpolate_take_succ template le, text,
      replaceWord_spell le _ (own k (Nat.lt_succ_self k))]

/-- The passes may be judged by what the arguments before them spell together. -/
theorem settled_iff : Settled template args ↔ ∀ k < args.length,
    occurrences (placeholder k) (spell (args.take k) (piecesFor args template)) =
      (piecesFor args template).count (.place k) := by
  constructor
  · intro settled k
    induction k using Nat.strongRecOn with
    | ind k before =>
      intro lt
      have text := interpolate_take (Nat.le_of_lt lt) fun j less =>
        before j less (Nat.lt_trans less lt)
      rw [← text, settled k lt, piecesFor, count_pieces lt]
  · intro own k lt
    rw [interpolate_take (Nat.le_of_lt lt) fun j less => own j (Nat.lt_trans less lt), own k lt,
      piecesFor, count_pieces lt]

/-- Where no argument brings a place for a later one into the text, all arguments are put into the
template at once: each place that the template has for an argument holds that argument, and
the rest of the template and the arguments stand there as they are. -/
theorem interpolate_eq_substitute (settled : Settled template args) :
    interpolate template args = substitute template args := by
  have text := interpolate_take (Nat.le_refl _) (settled_iff.mp settled)
  rw [List.take_length] at text
  rw [substitute, ← text, String.ofList_toList]

/-- A later argument may be spelled like the place of an earlier one. -/
theorem interpolate_eq_substitute_earlier :
    Settled "\x7b0\x7d and \x7b1\x7d" ["a", "\x7b0\x7d"] ∧
      interpolate "\x7b0\x7d and \x7b1\x7d" ["a", "\x7b0\x7d"] = "a and \x7b0\x7d" := by
  have settled : Settled "\x7b0\x7d and \x7b1\x7d" ["a", "\x7b0\x7d"] := by decide
  exact ⟨settled, (interpolate_eq_substitute settled).trans (by decide)⟩

/-- An earlier argument spelled like the place of a later one is replaced by that. -/
theorem interpolate_ne_substitute :
    interpolate "\x7b0\x7d and \x7b1\x7d" ["\x7b1\x7d", "b"] ≠
      substitute "\x7b0\x7d and \x7b1\x7d" ["\x7b1\x7d", "b"] := by
  decide

/-- One argument is put in at once, whatever it holds. -/
theorem settled_of_length_le_one (few : args.length ≤ 1) : Settled template args := by
  intro k lt
  obtain rfl : k = 0 := by omega
  rw [List.take_zero, interpolate, String.toList_ofList, interpolateFrom]

/-- Where no brace opens beside the places, only places that are not filled yet are found. -/
theorem occurrences_spell {given : List String} {ps : List Piece} (earlier : given.length ≤ k)
    (plain : ∀ a ∈ given, '\x7b' ∉ a.toList) (beside : .char '\x7b' ∉ ps) :
    occurrences (placeholder k) (spell given ps) = ps.count (.place k) := by
  induction ps with
  | nil => rfl
  | cons p ps ih =>
    have counted := ih (List.not_mem_of_not_mem_cons beside)
    rw [spell_cons]
    cases p with
    | char c =>
      have other : '\x7b' ≠ c := fun same =>
        List.ne_of_not_mem_cons beside (congrArg Piece.char same)
      rw [List.count_cons_of_ne Piece.noConfusion, ← counted]
      exact occurrences_append (by simpa [Piece.fill] using other) _
    | place i =>
      cases put : given[i]? with
      | none =>
        rw [Piece.fill, put, Option.map_none, Option.getD_none, occurrences_place, counted,
          List.count_cons]
        simp
      | some a =>
        have lt : i < given.length := (List.getElem?_eq_some_iff.mp put).1
        have other : Piece.place i ≠ .place k := by
          rintro ⟨⟩
          omega
        rw [Piece.fill, put, List.count_cons_of_ne other, ← counted]
        exact occurrences_append (plain a (List.mem_of_getElem? put)) _

/-- Without an opening brace in an argument, or in the template beside its places, each place is one
of the template's. The last argument is read by no pass and may hold anything. -/
theorem settled_of_plain (plain : ∀ a ∈ args.dropLast, '\x7b' ∉ a.toList)
    (beside : .char '\x7b' ∉ piecesFor args template) : Settled template args := by
  refine settled_iff.mpr fun k lt => occurrences_spell ?_ (fun a given => plain a ?_) beside
  · exact List.length_take_le k args
  · rw [List.dropLast_eq_take]
    exact List.take_subset_take_left args (Nat.le_pred_of_lt lt) given

/-- A brace of the template can close around an argument, which has none. -/
example : interpolate "\x7b\x7b0\x7d\x7d" ["1", "b"] = "b" := by decide

end Template
end ScriptGrammar
