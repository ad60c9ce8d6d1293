import ScriptGrammar.Proofs.Scanner.Passage
import ScriptGrammar.Proofs.Scanner.Searches
import ScriptGrammar.Proofs.Scanner.Words

/-!
# Names in tags

A word in a tag goes on with hyphens and more of a name, each character plain or by its code. The
value is then cut from the text again, so that escapes stay in it as they are written.
-/

namespace ScriptGrammar

variable {c : Char} {name name' text text' first : List Char} {escaped : Bool}

/-- A run of hyphens and name characters as it may be written. -/
inductive TagText : (name text : List Char) → Prop
  | nil : TagText [] []
  | plain {c : Char} {name text : List Char} (part : isIdentifierPart c ∨ c = '-')
      (rest : TagText name text) : TagText (c :: name) (c :: text)
  | escape {c : Char} {name first text : List Char} (code : EscapeOf c first)
      (part : isIdentifierPart c) (rest : TagText name text) : TagText (c :: name) (first ++ text)

theorem EscapeOf.decodes (h : EscapeOf c first) : Decodes first [c] := by
  cases h with
  | four length hex code => exact decodes_four length hex (code ▸ charOfCode?_toNat c)
  | braced some hex code => exact decodes_braced some hex (code ▸ charOfCode?_toNat c)

theorem ne_slash_of_isIdentifierPart (h : isIdentifierPart c) : c ≠ '\x5c' := by
  rintro rfl
  exact absurd h (by decide)

/-- A name is written with an escape if there is a backslash in it. -/
theorem NameText.escaped_iff (h : NameText name text escaped)
    (parts : ∀ d ∈ name, isIdentifierPart d) : escaped = true ↔ '\x5c' ∈ text := by
  induction h with
  | nil => simp
  | plain c rest ih =>
    obtain ⟨part, parts⟩ := List.forall_mem_cons.mp parts
    rw [List.mem_cons, ih parts]
    exact (or_iff_right (ne_slash_of_isIdentifierPart part).symm).symm
  | escape code rest ih =>
    obtain ⟨cs, rfl⟩ := code.begins
    exact iff_of_true rfl List.mem_cons_self

theorem NameText.tagText (h : NameText name text escaped)
    (parts : ∀ d ∈ name, isIdentifierPart d) : TagText name text := by
  induction h with
  | nil => exact .nil
  | plain c rest ih =>
    obtain ⟨part, parts⟩ := List.forall_mem_cons.mp parts
    exact .plain (.inl part) (ih parts)
  | escape code rest ih =>
    obtain ⟨part, parts⟩ := List.forall_mem_cons.mp parts
    exact .escape code part (ih parts)

namespace TagText

theorem append (h : TagText name text) (k : TagText name' text') :
    TagText (name ++ name') (text ++ text') := by
  induction h with
  | nil => exact k
  | plain part _ ih => exact .plain part ih
  | escape code part _ ih =>
    rw [List.append_assoc]
    exact .escape code part ih

theorem decodes (h : TagText name text) : Decodes text name := by
  induction h with
  | nil => exact .nil
  | @plain c _ _ part _ ih =>
    have plain : c ≠ '\x5c' := by
      rcases part with part | rfl
      · exact ne_slash_of_isIdentifierPart part
      · decide
    exact Decodes.append (.plain plain) ih
  | escape code _ _ ih => exact code.decodes.append ih

theorem slash_not_mem (h : TagText name text) : '\x5c' ∉ name := by
  induction h with
  | nil => exact List.not_mem_nil
  | plain part _ ih =>
    rcases part with part | rfl
    · exact List.not_mem_cons_of_ne_of_not_mem (ne_slash_of_isIdentifierPart part).symm ih
    · exact List.not_mem_cons_of_ne_of_not_mem (by decide) ih
  | escape _ part _ ih =>
    exact List.not_mem_cons_of_ne_of_not_mem (ne_slash_of_isIdentifierPart part).symm ih

/-- What is written without escapes stands for itself, and nothing else does. -/
theorem eq_iff (h : TagText name text) : text = name ↔ '\x5c' ∉ text := by
  constructor
  · rintro rfl
    exact h.slash_not_mem
  · intro none
    induction h with
    | nil => rfl
    | plain _ _ ih => rw [ih fun among => none (List.mem_cons_of_mem _ among)]
    | escape code _ _ _ =>
      obtain ⟨cs, rfl⟩ := code.begins
      exact absurd List.mem_cons_self none

end TagText

theorem Kind.not_isWord_of_isSign {k : Kind} (h : k.isSign) : k.isWord = false := by
  cases k <;> first | rfl | exact absurd h (by decide)

/-- A keyword is spelled without backslashes. -/
theorem Kind.ofKeyword?_of_slash {word : String} (h : '\x5c' ∈ word.toList) :
    Kind.ofKeyword? word = none := by
  have all : ∀ e ∈ keywords, '\x5c' ∉ e.2.toList := by decide +kernel
  refine Option.map_eq_none_iff.mpr (List.find?_eq_none.mpr fun e among same => ?_)
  obtain rfl := eq_of_beq same
  exact all e among h

namespace Scanner

variable {s t v : Scanner} {p length : Nat}

theorem escapeAt?_le {e : UnicodeEscape} (h : s.escapeAt? p = some e) :
    p + e.length ≤ s.limit := by
  unfold escapeAt? at h
  split at h
  · split at h
    · dsimp only at h
      have le := Source.le_skipWhile s.source s.limit isHexDigit (p + 3)
      split at h
      · cases h
      · next closed =>
        simp only [Bool.or_eq_true, not_or, bne_iff_ne, ne_eq, Decidable.not_not] at closed
        have below := (charAt?_eq_some.mp closed.2).1
        obtain rfl := Option.some.inj h
        dsimp only
        omega
    · split at h
      · next digits =>
        obtain rfl := Option.some.inj h
        exact of_decide_eq_true (Bool.and_eq_true_iff.mp digits).1
      · cases h
  · cases h

theorem toNat_of_charOfCode? {n : Nat} (h : charOfCode? n = some c) : n = c.toNat := by
  unfold charOfCode? at h
  split at h
  · next valid =>
    obtain rfl := Option.some.inj h
    rw [Char.ofNat, dif_pos valid]
    rfl
  · cases h

theorem charAt?_of_unicodeEscape? (h : s.unicodeEscape? p = some (c, length)) :
    s.charAt? p = some '\x5c' := by
  obtain ⟨e, found, _⟩ := Option.bind_eq_some_iff.mp h
  unfold escapeAt? at found
  split at found
  · next letters => exact eq_of_beq (Bool.and_eq_true_iff.mp letters).1
  · cases found

/-- Where an escape is read, it stands. -/
theorem escapeOf_unicodeEscape? (h : s.unicodeEscape? p = some (c, length)) :
    ∃ first, EscapeOf c first ∧ s.source.Holds s.limit p first ∧
      (layout first).length = length := by
  have inside : p + length ≤ s.limit := by
    obtain ⟨e, found, rest⟩ := Option.bind_eq_some_iff.mp h
    obtain ⟨_, _, same⟩ := Option.bind_eq_some_iff.mp rest
    obtain ⟨_, rfl⟩ : _ ∧ e.length = length := by simpa using same
    exact escapeAt?_le found
  have begins : s.source.isBoundary p :=
    Source.isBoundary_of_charAt? (charAt?_eq_some.mp (charAt?_of_unicodeEscape? h)).2
  obtain ⟨holds, stop⟩ := Source.holds_chars (Nat.le_add_right p length) begins
    (unicodeEscape?_spec h).2 inside
  refine ⟨_, ?_, holds, Nat.add_left_cancel stop⟩
  obtain ⟨digits, hex, code, ⟨four, text⟩ | ⟨some, text⟩⟩ := chars_escape h
  · rw [text]
    exact .four four hex (toNat_of_charOfCode? code)
  · rw [text]
    exact .braced some hex (toNat_of_charOfCode? code)

/-- No part of a name stands at the cursor. -/
def NoPart (s : Scanner) : Prop :=
  ∀ c first, isIdentifierPart c → first = [c] ∨ EscapeOf c first →
    ¬ s.source.Holds s.limit s.stop first

theorem noPart_of (plain : ∀ c, s.peek 0 = some c → c ≠ '\x5c' → isIdentifierPart c = false)
    (escape : ∀ c length, s.unicodeEscape? s.stop = some (c, length) →
      isIdentifierPart c = false) : NoPart s := by
  rintro c first part (rfl | code) holds
  · rw [plain c holds.1 (ne_slash_of_isIdentifierPart part)] at part
    cases part
  · rw [escape c _ (unicodeEscape?_eq code holds)] at part
    cases part

theorem noPart_of_end (ends : s.limit ≤ s.stop) : NoPart s := by
  have none (c : Char) (here : s.charAt? s.stop = some c) : False :=
    absurd (charAt?_eq_some.mp here).1 (Nat.not_lt.mpr ends)
  exact noPart_of (fun c here => (none c here).elim) fun c length escape =>
    (none _ (charAt?_of_unicodeEscape? escape)).elim

/-- From `s` to `t` a name was taken as far as it goes. -/
structure Taken (s t : Scanner) (name text : List Char) (escaped : Bool) : Prop where
  spelled : NameText name text escaped
  parts : ∀ d ∈ name, isIdentifierPart d
  holds : s.source.Holds s.limit s.stop text
  names : Names s t text name escaped
  ended : NoPart t

namespace Taken

theorem still (names : Names s t [] [] false) (ended : NoPart t) : Taken s t [] [] false :=
  ⟨.nil, by simp, trivial, names, ended⟩

/-- One more part was taken before. -/
theorem plain (h : Taken t v name text escaped) (names : Names s t [c] [c] false)
    (here : s.peek 0 = some c) (part : isIdentifierPart c) :
    Taken s v (c :: name) (c :: text) escaped := by
  refine ⟨.plain c h.spelled, List.forall_mem_cons.mpr ⟨part, h.parts⟩, ⟨here, ?_⟩, ?_, h.ended⟩
  · have rest := h.holds
    rw [names.source, names.limit, names.stop, length_layout_cons] at rest
    exact rest
  · exact names.trans h.names

theorem escape (h : Taken t v name text escaped) (names : Names s t first [c] true)
    (code : EscapeOf c first) (holds : s.source.Holds s.limit s.stop first)
    (part : isIdentifierPart c) : Taken s v (c :: name) (first ++ text) true := by
  refine ⟨.escape code h.spelled, List.forall_mem_cons.mpr ⟨part, h.parts⟩, ?_, ?_, h.ended⟩
  · have rest := h.holds
    rw [names.source, names.limit, names.stop] at rest
    exact Source.holds_append.mpr ⟨holds, rest⟩
  · exact names.trans h.names

end Taken

theorem taken_takeParts (fuel : Nat) (s : Scanner) (begins : s.source.isBoundary s.stop)
    (room : s.limit - s.stop ≤ fuel) :
    ∃ name text escaped, Taken s (takeParts fuel s) name text escaped := by
  induction fuel generalizing s with
  | zero =>
    have ends : s.limit ≤ s.stop := by omega
    exact ⟨[], [], false, .still (.still s) (noPart_of_end ends)⟩
  | succ fuel ih =>
    rw [takeParts]
    split
    · next ends => exact ⟨[], [], false, .still (.still s) (noPart_of_end (of_decide_eq_true ends))⟩
    split
    · next slash =>
      have here : s.peek 0 = some '\x5c' := eq_of_beq slash
      have touched := names_touchEscape s.stop s
      obtain ⟨ok, same⟩ := touchEscape_eq s.stop s
      rw [same] at touched ⊢
      dsimp only
      have other : ∀ c, s.peek 0 = some c → c ≠ '\x5c' → isIdentifierPart c = false :=
        fun c seen plain => absurd (Option.some.inj (seen.symm.trans here)) plain
      split
      · next c length found =>
        split
        · next part =>
          obtain ⟨first, code, holds, rfl⟩ := escapeOf_unicodeEscape? found
          have behind := holds.isBoundary_end begins
          have positive := (unicodeEscape?_spec found).1
          obtain ⟨name, text, escaped, rest⟩ := ih { s.check ok with
            stop := s.stop + (layout first).length, value := s.value.push c
            flags := { s.flags with unicodeEscape := true } } behind (by dsimp only [check]; omega)
          exact ⟨_, _, _, rest.escape (touched.trans (names_escape c first _)) code holds part⟩
        · next bare =>
          refine ⟨[], [], false, .still touched (noPart_of other fun d length again => ?_)⟩
          obtain ⟨rfl, _⟩ := Prod.mk.inj (Option.some.inj (found.symm.trans again))
          exact Bool.eq_false_iff.mpr bare
      · next unread =>
        refine ⟨[], [], false, .still touched (noPart_of other fun d length read => ?_)⟩
        cases unread.symm.trans read
    · next plain =>
      have plain : s.peek 0 ≠ some '\x5c' := fun slash => plain (beq_iff_eq.mpr slash)
      have bare : ∀ c length, s.unicodeEscape? s.stop = some (c, length) →
          isIdentifierPart c = false :=
        fun c length escape => absurd (charAt?_of_unicodeEscape? escape) plain
      have touched := names_touch (s := s) begins
      dsimp only
      split
      · next c here =>
        split
        · next part =>
          have positive := c.utf8Size_pos
          obtain ⟨name, text, escaped, rest⟩ := ih { s.touch s.stop with
            stop := s.stop + c.utf8Size, value := s.value.push c } (peek_boundary here)
            (by dsimp only [touch, check]; omega)
          exact ⟨_, _, _, rest.plain (touched.trans (names_plain c _)) here part⟩
        · next other =>
          refine ⟨[], [], false, .still touched (noPart_of (fun d seen _ => ?_) bare)⟩
          obtain rfl := Option.some.inj (here.symm.trans seen)
          exact Bool.eq_false_iff.mpr other
      · next none =>
        refine ⟨[], [], false, .still touched (noPart_of (fun d seen _ => ?_) bare)⟩
        cases none.symm.trans seen

theorem taken_scanParts (begins : s.source.isBoundary s.stop) :
    ∃ name text escaped, Taken s s.scanParts name text escaped := by
  obtain ⟨name, text, escaped, taken⟩ := taken_takeParts _ s begins (Nat.le_refl _)
  have cut : Names (takeParts (s.limit - s.stop) s) s.scanParts [] [] false := by
    refine .check fun _ => ?_
    rw [taken.names.source, taken.names.stop]
    exact taken.holds.sliceable begins
  have whole := taken.names.trans cut
  rw [List.append_nil, List.append_nil, Bool.or_false] at whole
  exact ⟨name, text, escaped, taken.spelled, taken.parts, taken.holds, whole, taken.ended⟩

/-- Neither a hyphen nor a part of a name stands at the cursor. -/
def TagEnds (s : Scanner) : Prop :=
  ∀ name text, TagText name text → s.source.Holds s.limit s.stop text → text = []

theorem tagEnds_of (ended : NoPart s) (other : s.peek 0 ≠ some '-') : TagEnds s := by
  intro name text spelled holds
  cases spelled with
  | nil => rfl
  | plain part rest =>
    rcases part with part | rfl
    · exact absurd ⟨holds.1, trivial⟩ (ended _ _ part (.inl rfl))
    · exact absurd holds.1 other
  | escape code part rest =>
    exact absurd (Source.holds_append.mp holds).1 (ended _ _ part (.inr code))

/-- From `s` to `t` a word in a tag was taken as far as it goes. -/
structure TagTaken (s t : Scanner) (name text : List Char) : Prop where
  spelled : TagText name text
  holds : s.source.Holds s.limit s.stop text
  denotes : ∃ noted, Denotes s t text noted
  ended : TagEnds t

theorem TagTaken.after {name name' text text' noted : List Char} (h : TagTaken t v name' text')
    (spelled : TagText name text) (holds : s.source.Holds s.limit s.stop text)
    (denotes : Denotes s t text noted) : TagTaken s v (name ++ name') (text ++ text') := by
  obtain ⟨noted', rest⟩ := h.denotes
  refine ⟨spelled.append h.spelled, Source.holds_append.mpr ⟨holds, ?_⟩,
    ⟨_, denotes.trans rest⟩, h.ended⟩
  have later := h.holds
  rwa [denotes.source, denotes.limit, denotes.stop] at later

theorem tagTaken_takeTagName (fuel : Nat) (s : Scanner) (begins : s.source.isBoundary s.stop)
    (room : s.limit - s.stop < fuel) : ∃ name text, TagTaken s (takeTagName fuel s) name text := by
  induction fuel generalizing s with
  | zero => omega
  | succ fuel ih =>
    have still (t : Scanner) (same : Denotes s t [] []) (ended : TagEnds t) :
        ∃ name text, TagTaken s t name text := ⟨[], [], .nil, trivial, ⟨_, same⟩, ended⟩
    rw [takeTagName]
    split
    · next ends =>
      have ends : s.limit ≤ s.stop := of_decide_eq_true ends
      refine still s (.refl s) (tagEnds_of (noPart_of_end ends) fun here => ?_)
      exact absurd (peek_lt here) (Nat.not_lt.mpr ends)
    next more =>
    have more : s.stop < s.limit := Nat.lt_of_not_le fun ends => more (decide_eq_true ends)
    split
    · next hyphen =>
      have here : s.peek 0 = some '-' := eq_of_beq hyphen
      obtain ⟨name, text, rest⟩ := ih { s with stop := s.stop + 1 } (peek_boundary here)
        (by have := peek_lt here; dsimp only; omega)
      exact ⟨_, _, rest.after (.plain (.inr rfl) .nil) ⟨here, trivial⟩ (denotes_pass '-' s)⟩
    · next other =>
      obtain ⟨name, text, escaped, taken⟩ := taken_scanParts begins
      have stop := taken.names.stop
      have positive := length_le_layout text
      dsimp only
      split
      · next same =>
        have same : s.scanParts.stop = s.stop := eq_of_beq same
        obtain rfl : text = [] := List.eq_nil_of_length_eq_zero (by omega)
        obtain rfl : name = [] := List.eq_nil_of_length_eq_zero
          (Nat.le_zero.mp taken.spelled.length_le)
        have here : s.scanParts.peek 0 = s.peek 0 := by
          rw [peek, peek, charAt?, charAt?, taken.names.source, taken.names.limit, same]
        refine still _ taken.names.toDenotes (tagEnds_of taken.ended fun hyphen => ?_)
        exact other (beq_iff_eq.mpr (here.symm.trans hyphen))
      · next goes =>
        have goes : s.scanParts.stop ≠ s.stop := fun same => goes (beq_iff_eq.mpr same)
        have below : s.scanParts.limit - s.scanParts.stop < fuel := by
          rw [taken.names.limit]
          omega
        have behind : s.scanParts.source.isBoundary s.scanParts.stop := by
          rw [taken.names.source, stop]
          exact taken.holds.isBoundary_end begins
        obtain ⟨_, _, rest⟩ := ih s.scanParts behind below
        exact ⟨_, _, rest.after (taken.spelled.tagText taken.parts) taken.holds
          taken.names.toDenotes⟩

/-- A word is read where a name begins. -/
theorem word_scanToken (word : s.scanToken.kind.isWord) :
    s.isIdentifierAt s.stop ∧ ∃ ok, s.scanToken = (s.check ok).scanIdentifier := by
  have found := finds_scanToken s
  generalize s.scanToken = t at found word
  cases found with
  | sign other =>
    rw [Kind.not_isWord_of_isSign other] at word
    cases word
  | number =>
    rcases kind_scanNumber s with kind | kind <;> rw [kind] at word <;> cases word
  | word begins ok => exact ⟨begins, ok, rfl⟩

theorem isBoundary_of_isIdentifierAt (h : s.isIdentifierAt p) : s.source.isBoundary p := by
  have seen : ∃ c, s.charAt? p = some c := by
    unfold isIdentifierAt at h
    split at h
    · next slash => exact ⟨_, eq_of_beq slash⟩
    · exact (Option.any_eq_true _ _).mp h |>.imp fun _ found => found.1
  obtain ⟨c, here⟩ := seen
  exact Source.isBoundary_of_charAt? (charAt?_eq_some.mp here).2

/-- The token is a word, written as `text`, and stands for `name`. -/
structure IsWordToken (t : Scanner) (name text : List Char) : Prop where
  spelled : TagText name text
  begins : t.source.isBoundary t.start
  holds : t.source.Holds t.limit t.start text
  stop : t.stop = t.start + (layout text).length
  value : t.value = String.ofList name
  kind : t.kind = if '\x5c' ∈ text then .identifier else Kind.ofWord t.value

theorem isWordToken_scanIdentifier (begins : s.source.isBoundary s.stop) (start : s.start = s.stop)
    (value : s.value = "") (plain : s.flags.unicodeEscape = false) :
    ∃ name text, IsWordToken s.scanIdentifier name text := by
  obtain ⟨name, text, escaped, taken⟩ := taken_scanParts begins
  have names := taken.names
  have first : s.scanParts.start = s.stop := names.start.trans start
  have escape : s.scanParts.flags.unicodeEscape = true ↔ '\x5c' ∈ text := by
    rw [names.escape, ← taken.spelled.escaped_iff taken.parts, plain, Bool.false_or]
  refine ⟨name, text, taken.spelled.tagText taken.parts, ?_, ?_, ?_, ?_, ?_⟩
  · show s.scanParts.source.isBoundary s.scanParts.start
    rw [names.source, first]
    exact begins
  · show s.scanParts.source.Holds s.scanParts.limit s.scanParts.start text
    rw [names.source, names.limit, first]
    exact taken.holds
  · show s.scanParts.stop = s.scanParts.start + _
    rw [first]
    exact names.stop
  · refine names.value.trans ?_
    rw [value, String.empty_append]
  · simp only [scanIdentifier, escape]

theorem isWordToken_scan (word : s.scan.kind.isWord) :
    ∃ name text, IsWordToken s.scan name text := by
  obtain ⟨v, passing, plain, arrives⟩ := arrives_scan
    (Q := fun v => v.flags.unicodeEscape = false) (fun _ plain => plain)
    (fun u _ plain _ _ => (scanTrivia_keeps u).2.trans plain) rfl
    (Kind.not_isTrivia_of_isWord word) (Kind.ne_endOfFile_of_isWord word)
  obtain ⟨ok, token⟩ := arrives.token
  rw [token] at word ⊢
  obtain ⟨begins, ok', same⟩ := word_scanToken word
  rw [same]
  exact isWordToken_scanIdentifier (isBoundary_of_isIdentifierAt begins) arrives.start
    passing.value plain

theorem scanTagName_eq (word : s.kind.isWord) :
    s.scanTagName = { (takeTagName (s.limit - s.stop + 1) s).setValue with
      kind := Kind.ofWord (takeTagName (s.limit - s.stop + 1) s).text } := by
  rw [scanTagName, word]
  rfl

namespace IsWordToken

variable {name more own run : List Char}

theorem text_eq (h : IsWordToken t name own) : t.text = String.ofList own := by
  rw [Scanner.text, Source.slice, h.stop, h.holds.chars]

/-- The kind of a word is told by its spelling, and with a backslash that is none of a keyword. -/
theorem kind_eq (h : IsWordToken t name own) :
    t.kind = (Kind.ofKeyword? (String.ofList own)).getD .identifier := by
  rw [h.kind]
  split
  · next slash => rw [Kind.ofKeyword?_of_slash (by simpa using slash), Option.getD_none]
  · next plain => rw [Kind.ofWord_eq, h.value, h.spelled.eq_iff.mpr plain]

theorem boundary (h : IsWordToken t name own) : t.source.isBoundary t.stop := by
  rw [h.stop]
  exact h.holds.isBoundary_end h.begins

/-- A word and what goes on with it stand side by side. -/
theorem holds_append (h : IsWordToken t name own) (rest : t.source.Holds t.limit t.stop run) :
    t.source.Holds t.limit t.start (own ++ run) := by
  refine Source.holds_append.mpr ⟨h.holds, ?_⟩
  rwa [h.stop] at rest

end IsWordToken

/-- The word at `t` is read on as a name in a tag that is written as `text`. -/
structure IsTagName (t u : Scanner) (text : List Char) : Prop where
  fullStart : u.fullStart = t.fullStart
  start : u.start = t.start
  pending : u.pending = t.pending
  torn : t.source.isBoundary t.limit → u.torn = t.torn
  text : u.text = String.ofList text
  value : u.value = u.text
  kind : u.kind = (Kind.ofKeyword? u.text).getD .identifier

theorem isTagName_setValue {name own more run : List Char} (token : IsWordToken t name own)
    (taken : TagTaken t v more run) :
    IsTagName t { v.setValue with kind := Kind.ofWord v.text } (own ++ run) := by
  obtain ⟨noted, denotes⟩ := taken.denotes
  have whole := token.holds_append taken.holds
  have stop : v.stop = t.start + (layout (own ++ run)).length := by
    rw [denotes.stop, token.stop, length_layout_append, Nat.add_assoc]
  have cut : v.source.slice v.start v.stop = String.ofList (own ++ run) := by
    rw [Source.slice, denotes.source, denotes.start, stop, whole.chars]
  refine ⟨denotes.fullStart, denotes.start, denotes.pending, fun limit => ?_, cut, rfl, ?_⟩
  · show (v.torn || !v.source.sliceable v.start v.stop) = t.torn
    rw [denotes.torn limit, denotes.source, denotes.start, stop, whole.sliceable token.begins]
    simp
  · rw [← Kind.ofWord_eq]
    rfl

/-- A word in a tag is all that goes on with it, cut from the text: a keyword only if it is spelled
as one. Its value is what it stands for if it has no backslash, and only then. A word with nothing
to go on with keeps its kind and its place, and its value unless that is written with an escape. -/
theorem scanTagName_word (s : Scanner) (word : s.scan.kind.isWord) :
    let t := s.scan
    let u := t.scanTagName
    (∃ name run, TagText name run ∧ t.source.Holds t.limit t.stop run ∧
      u.stop = t.stop + (layout run).length ∧
      ∀ name run, TagText name run → t.source.Holds t.limit u.stop run → run = []) ∧
    (u.fullStart = t.fullStart ∧ u.start = t.start ∧ u.pending = t.pending ∧
      (t.source.isBoundary t.limit → u.torn = t.torn)) ∧
    (u.value = u.text ∧ u.kind = (Kind.ofKeyword? u.text).getD .identifier ∧
      (u.value = String.ofList (unescape u.text.toList) ↔ '\x5c' ∉ u.text.toList)) ∧
    (u.stop = t.stop → u.kind = t.kind ∧ u.range = t.range ∧
      (u.value = t.value ↔ '\x5c' ∉ t.text.toList)) := by
  intro t u
  obtain ⟨name, own, token⟩ := isWordToken_scan word
  obtain ⟨more, run, taken⟩ := tagTaken_takeTagName (t.limit - t.stop + 1) t token.boundary
    (Nat.lt_succ_self _)
  obtain ⟨noted, denotes⟩ := taken.denotes
  have goes : u = _ := scanTagName_eq word
  have read : IsTagName t u (own ++ run) := goes ▸ isTagName_setValue token taken
  generalize takeTagName (t.limit - t.stop + 1) t = v at goes taken denotes
  have ends : u.stop = v.stop := by
    rw [goes]
    rfl
  have spelled : TagText (name ++ more) (own ++ run) := token.spelled.append taken.spelled
  refine ⟨⟨more, run, taken.spelled, taken.holds, ends.trans denotes.stop, ?_⟩,
    ⟨read.fullStart, read.start, read.pending, read.torn⟩, ⟨read.value, read.kind, ?_⟩,
    fun still => ?_⟩
  · intro name' run' next holds
    refine taken.ended name' run' next ?_
    rwa [denotes.source, denotes.limit, ← ends]
  · rw [read.value, read.text, String.toList_ofList, spelled.decodes.unescape_eq,
      String.ofList_inj]
    exact spelled.eq_iff
  · have none : run = [] := by
      have length := length_le_layout run
      have far := denotes.stop
      exact List.eq_nil_of_length_eq_zero (by omega)
    have text : u.text = String.ofList own := by rw [read.text, none, List.append_nil]
    refine ⟨?_, ?_, ?_⟩
    · rw [read.kind, text, token.kind_eq]
    · rw [Token.range, Token.range, still, read.start]
    · rw [read.value, text, token.text_eq, String.toList_ofList, token.value, String.ofList_inj]
      exact token.spelled.eq_iff

/-- A name goes on with hyphens, a letter by its code and a keyword, behind a blank. -/
theorem scanTagName_word_hyphens :
    let t := (Scanner.ofSource (.ofString " data--\\u0061b-for=") false).scan
    let u := t.scanTagName
    (t.kind = .identifier ∧ t.value = "data" ∧ t.start = 1 ∧ t.stop = 5) ∧
      (u.start = 1 ∧ u.stop = 18 ∧ u.pending = #[]) ∧
      u.kind = .identifier ∧ u.value = "data--\\u0061b-for" := by
  have found := scanTagName_word (.ofSource (.ofString " data--\\u0061b-for=") false)
    (by decide +kernel)
  -- The token gets a name of its own, or its fields are computed again where they are compared.
  obtain ⟨t, scanned⟩ :
      ∃ t, (Scanner.ofSource (.ofString " data--\\u0061b-for=") false).scan = t := ⟨_, rfl⟩
  have token : t.kind = .identifier ∧ t.value = "data" ∧ t.start = 1 ∧ t.stop = 5 := by
    rw [← scanned]
    decide +kernel
  have text : t.scanTagName.stop = 18 ∧ t.scanTagName.text = "data--\\u0061b-for" := by
    rw [← scanned]
    decide +kernel
  have quiet : t.pending = #[] := by
    rw [← scanned]
    decide +kernel
  have plain : (Kind.ofKeyword? "data--\\u0061b-for").getD .identifier = .identifier := by
    decide +kernel
  rw [scanned] at found ⊢
  obtain ⟨_, ⟨_, start, pending, _⟩, ⟨value, kind, _⟩, _⟩ := found
  rw [text.2] at value kind
  exact ⟨token, ⟨start.trans token.2.2.1, text.1, pending.trans quiet⟩, kind.trans plain, value⟩

/-- A letter written by its code is the value of the name, and no longer in a tag. -/
theorem scanTagName_escapes :
    let t := (Scanner.ofSource (.ofString "\\u0061 b") false).scan
    t.kind = .identifier ∧ t.value = "a" ∧ t.scanTagName.range = t.range ∧
      t.scanTagName.value = "\\u0061" := by
  decide +kernel

end Scanner
end ScriptGrammar
