import ScriptGrammar.Proofs.Scanner.DocTokens

/-!
# Tags of documentation comments

Whether an `@` opens a tag is told by the text before it, read backwards from the `@`. An `@` that
may open a tag takes the token behind it along, a word or not: white space that is taken so does
not count as white space before the next `@`.
-/

namespace ScriptGrammar

/-- White space of the kinds that count before a tag. -/
def isGap (c : Char) : Bool := isBlank c || c == '\n' || c == '\r'

/-- The white space `d` goes on with what `c` right before it begins. -/
def joins (c d : Char) : Bool := isBlank c && isBlank d || c == '\r' && d == '\n'

mutual

/-- Whether an `@` may open a tag behind this text, which is given backwards: at the start, behind
white space, and behind stars that follow one of these. -/
def mayTag : (before : List Char) → Bool
  | [] => true
  | c :: cs => if c == '*' then mayTag cs else isGap c && !takesGap c cs

/-- Whether the white space that goes on with `d` behind this text, which is given backwards, is
taken along by an `@`. -/
def takesGap : (d : Char) → (before : List Char) → Bool
  | _, [] => false
  | d, c :: cs => if joins c d then takesGap c cs else c == '@' && mayTag cs

end

/-- The text, given backwards, ends in an `@` that may open a tag. -/
def endsInSign : (before : List Char) → Bool
  | [] => false
  | c :: cs => c == '@' && mayTag cs

/-- The text, given backwards, ends in white space that has no `@` right before it. -/
def endsInGap (before : List Char) : Bool :=
  before.head?.any isGap && (before.dropWhile isGap).head? != some '@'

/-- The words behind each `@` for which `opens` holds of the text before, which is given backwards.
-/
def tagsIn (opens : List Char → Bool) : (before text : List Char) → List String
  | _, [] => []
  | before, c :: cs =>
    let rest := tagsIn opens (c :: before) cs
    if c == '@' && opens before && cs.head?.any isIdentifierStart then
      String.ofList (cs.takeWhile isDocPart) :: rest
    else rest

variable {c d : Char} {before cs text rest : List Char} {k : Kind} {opens : List Char → Bool}

theorem mayTag_star : mayTag ('*' :: cs) = mayTag cs := by
  rw [mayTag]
  rfl

theorem mayTag_gap (gap : isGap c) : mayTag (c :: cs) = !takesGap c cs := by
  have star : c ≠ '*' := by
    rintro rfl
    cases gap
  rw [mayTag, beq_false_of_ne star, gap, Bool.true_and]
  rfl

theorem mayTag_other (solid : isGap c = false) (star : c ≠ '*') : mayTag (c :: cs) = false := by
  rw [mayTag, beq_false_of_ne star, solid, Bool.false_and]
  rfl

theorem endsInSign_other (other : c ≠ '@') : endsInSign (c :: cs) = false := by
  rw [endsInSign, beq_false_of_ne other, Bool.false_and]

/-- White space that goes on from here is all that is read back of it. -/
theorem takesGap_first (first : ∀ c, before.head? = some c → joins c d = false) :
    takesGap d before = endsInSign before := by
  cases before with
  | nil => rfl
  | cons c cs =>
    rw [takesGap, first c rfl]
    rfl

theorem joins_ret (c : Char) : joins c '\r' = false := by
  have solid : isBlank '\r' = false := rfl
  simp [joins, solid]

theorem isGap_of_isBlank (blank : isBlank c) : isGap c := by simp [isGap, blank]

theorem isGap_of_joins (h : joins c d) : isGap c := by
  rcases Bool.or_eq_true_iff.mp h with blanks | line
  · exact isGap_of_isBlank (Bool.and_eq_true_iff.mp blanks).1
  · simp [isGap, eq_of_beq (Bool.and_eq_true_iff.mp line).1]

theorem takesGap_blanks (blank : ∀ e ∈ d :: cs, isBlank e)
    (first : ∀ c, before.head? = some c → isBlank c = false) :
    takesGap d (cs ++ before) = endsInSign before := by
  have last (e : Char) (he : isBlank e) (c : Char) (hc : isBlank c = false) :
      joins c e = false := by
    have feed : e ≠ '\n' := by
      rintro rfl
      cases he
    simp [joins, hc, feed]
  induction cs generalizing d with
  | nil => exact takesGap_first fun c here => last d (blank d List.mem_cons_self) c (first c here)
  | cons c cs ih =>
    obtain ⟨later, blank⟩ := List.forall_mem_cons.mp blank
    have joined : joins c d := by simp [joins, later, blank c List.mem_cons_self]
    rw [List.cons_append, takesGap, if_pos joined]
    exact ih blank

/-- What takes white space along comes right before it. -/
theorem head?_of_takesGap (h : takesGap d cs) : (cs.dropWhile isGap).head? = some '@' := by
  induction cs generalizing d with
  | nil => cases h
  | cons c cs ih =>
    rw [takesGap] at h
    split at h
    · next joined =>
      rw [List.dropWhile_cons_of_pos (isGap_of_joins joined)]
      exact ih h
    · obtain rfl : c = '@' := eq_of_beq (Bool.and_eq_true_iff.mp h).1
      rfl

/-- An `@` behind white space may open a tag, unless an `@` comes right before that. -/
theorem mayTag_of_endsInGap (h : endsInGap before) : mayTag before := by
  obtain ⟨gap, apart⟩ := Bool.and_eq_true_iff.mp h
  cases before with
  | nil => cases gap
  | cons c cs =>
    have gap : isGap c := gap
    rw [mayTag_gap gap, Bool.not_eq_true', Bool.eq_false_iff]
    intro takes
    rw [List.dropWhile_cons_of_pos gap] at apart
    exact bne_iff_ne.mp apart (head?_of_takesGap takes)

/-- The more an `@` may open a tag, the more words are listed. -/
theorem tagsIn_sublist {p q : List Char → Bool} (le : ∀ cs, p cs → q cs) (before text : List Char) :
    (tagsIn p before text).Sublist (tagsIn q before text) := by
  induction text generalizing before with
  | nil => exact .slnil
  | cons c cs ih =>
    rw [tagsIn, tagsIn]
    split
    · next tag =>
      have more : (c == '@' && q before && cs.head?.any isIdentifierStart) = true := by
        simp only [Bool.and_eq_true] at tag ⊢
        exact ⟨⟨tag.1.1, le before tag.1.2⟩, tag.2⟩
      rw [if_pos more]
      exact (ih _).cons_cons _
    · split
      · exact (ih _).cons _
      · exact ih _

theorem tagsIn_sign (fresh : opens before) :
    tagsIn opens before ('@' :: cs) =
      if cs.head?.any isIdentifierStart then
        String.ofList (cs.takeWhile isDocPart) :: tagsIn opens ('@' :: before) cs
      else tagsIn opens ('@' :: before) cs := by
  rw [tagsIn, fresh]
  rfl

theorem tagsIn_cons (stale : c = '@' → opens before = false) :
    tagsIn opens before (c :: cs) = tagsIn opens (c :: before) cs := by
  have none : (c == '@' && opens before && cs.head?.any isIdentifierStart) = false := by
    by_cases sign : c = '@'
    · rw [stale sign, Bool.and_false, Bool.false_and]
    · rw [beq_false_of_ne sign, Bool.false_and, Bool.false_and]
  rw [tagsIn]
  exact if_neg (Bool.eq_false_iff.mp none)

theorem tagsIn_append (none : '@' ∉ text) :
    tagsIn opens before (text ++ rest) = tagsIn opens (text.reverse ++ before) rest := by
  induction text generalizing before with
  | nil => rfl
  | cons c cs ih =>
    have other : c ≠ '@' := fun same => none (same ▸ List.mem_cons_self)
    rw [List.cons_append, tagsIn_cons fun same => absurd same other,
      ih fun among => none (List.mem_cons_of_mem _ among), List.reverse_cons, List.append_assoc]
    rfl

theorem not_isIdentifierPart_of_isBlank (blank : isBlank c) : isIdentifierPart c = false := by
  have apart : ∀ r ∈ letterRanges ++ markRanges, r.2 < 0x2000 ∨ 0x200b < r.1 := by decide +kernel
  simp only [isBlank, Bool.or_eq_true, beq_iff_eq, Bool.and_eq_true, decide_eq_true_eq] at blank
  rcases blank with ((((((((((rfl | rfl) | rfl) | rfl) | rfl) | rfl) | rfl) | wide) | rfl) | rfl) |
    rfl) | rfl
  case inl.inl.inl.inl.inr =>
    have low : 0x2000 ≤ c.toNat := wide.1
    have high : c.toNat ≤ 0x200b := wide.2
    have beyond : isAscii c = false := decide_eq_false (by omega)
    have letter : inRanges letterRanges c = false :=
      Scanner.not_inRanges (fun r hr => apart r (List.mem_append_left _ hr)) low high
    have mark : inRanges markRanges c = false :=
      Scanner.not_inRanges (fun r hr => apart r (List.mem_append_right _ hr)) low high
    simp [isIdentifierPart, beyond, letter, mark]
  all_goals decide +kernel

theorem isDocPart_plain (part : isDocPart c) : isGap c = false ∧ c ≠ '*' ∧ c ≠ '@' := by
  have none : ['\n', '\r', '*', '@'].all (!isDocPart ·) := by decide
  have other {d : Char} (among : d ∈ ['\n', '\r', '*', '@']) : c ≠ d := by
    rintro rfl
    have none := List.all_eq_true.mp none c among
    rw [part] at none
    cases none
  have solid : isBlank c = false := Bool.eq_false_iff.mpr fun blank => by
    have hyphen : c ≠ '-' := by
      rintro rfl
      cases blank
    simp [isDocPart, not_isIdentifierPart_of_isBlank blank, hyphen] at part
  refine ⟨?_, other (by decide), other (by decide)⟩
  simp [isGap, solid, other (d := '\n') (by decide), other (d := '\r') (by decide)]

theorem isDocOther_plain (other : isDocOther c) : isGap c = false ∧ c ≠ '*' ∧ c ≠ '@' := by
  simp_all [isDocOther, isGap]

/-- Whether an `@` may open a tag behind a token of kind `k`, which is `taken` along by an `@` or
not, if one may before the token. -/
def freshAfter (k : Kind) (taken fresh : Bool) : Bool :=
  match k with
  | .newLineTrivia | .whitespaceTrivia => !taken
  | .asteriskToken => fresh
  | _ => false

theorem freshAfter_of_isWord (word : k.isWord) (taken fresh : Bool) :
    freshAfter k taken fresh = false ∧ (k == .atToken) = false := by
  cases k <;> first | exact ⟨rfl, rfl⟩ | exact absurd word (by decide)

/-- No white space goes on from one text, which is given backwards, into the other. -/
def GapsApart (before rest : List Char) : Prop :=
  ∀ c d, before.head? = some c → rest.head? = some d → joins c d = false

theorem gapsApart_start : GapsApart [] rest := by
  intro c d same _
  cases same

theorem gapsApart_end : GapsApart before [] := by
  intro c d _ same
  cases same

theorem gapsApart_feed : GapsApart ('\n' :: before) rest := by
  intro c d same _
  obtain rfl := Option.some.inj same
  rfl

theorem gapsApart_of_solid (solid : isGap c = false) : GapsApart (c :: before) rest := by
  intro e d same _
  obtain rfl := Option.some.inj same
  exact Bool.eq_false_iff.mpr fun joined => by
    rw [isGap_of_joins joined] at solid
    cases solid

/-- The last character of a text stands first in the text read backwards. -/
theorem exists_last (c : Char) (cs before : List Char) :
    ∃ d ds, (∀ e ∈ d :: ds, e ∈ c :: cs) ∧ (c :: cs).reverse ++ before = d :: (ds ++ before) := by
  cases same : (c :: cs).reverse with
  | nil => exact absurd same (by simp)
  | cons d ds => exact ⟨d, ds, fun e he => List.mem_reverse.mp (same ▸ he), rfl⟩

/-- What a token leaves for the next `@`. -/
theorem DocText.leaves (h : DocText k text rest) (some : text ≠ [])
    (apart : GapsApart before (text ++ rest)) :
    mayTag (text.reverse ++ before) = freshAfter k (endsInSign before) (mayTag before) ∧
      endsInSign (text.reverse ++ before) = (k == .atToken && mayTag before) ∧
      GapsApart (text.reverse ++ before) rest := by
  cases h with
  | ending => exact absurd rfl some
  | feed =>
    have first : takesGap '\n' before = endsInSign before :=
      takesGap_first fun c here => apart c '\n' here rfl
    exact ⟨(mayTag_gap rfl).trans (congrArg _ first), endsInSign_other (by decide), gapsApart_feed⟩
  | both =>
    have first : takesGap '\n' ('\r' :: before) = endsInSign before := by
      rw [takesGap, if_pos (by rfl)]
      exact takesGap_first fun c _ => joins_ret c
    exact ⟨(mayTag_gap rfl).trans (congrArg _ first), endsInSign_other (by decide), gapsApart_feed⟩
  | ret ends =>
    have first : takesGap '\r' before = endsInSign before := takesGap_first fun c _ => joins_ret c
    refine ⟨(mayTag_gap rfl).trans (congrArg _ first), endsInSign_other (by decide), ?_⟩
    intro c d same next
    obtain rfl := Option.some.inj same
    have feed : d ≠ '\n' := by
      rintro rfl
      exact ends next
    rw [joins, beq_false_of_ne feed]
    rfl
  | @blanks c more _ blank ends =>
    obtain ⟨d, ds, among, same⟩ := exists_last c more before
    have all : ∀ e ∈ d :: ds, isBlank e := fun e he => blank e (among e he)
    have last := all d List.mem_cons_self
    have first : takesGap d (ds ++ before) = endsInSign before := by
      refine takesGap_blanks all fun e here => ?_
      have joined := apart e c here rfl
      simp only [joins, Bool.or_eq_false_iff, blank c List.mem_cons_self, Bool.and_true] at joined
      exact joined.1
    rw [same]
    refine ⟨(mayTag_gap (isGap_of_isBlank last)).trans (congrArg _ first), endsInSign_other ?_, ?_⟩
    · rintro rfl
      cases last
    · intro e f here next
      obtain rfl := Option.some.inj here
      have ret : d ≠ '\r' := by
        rintro rfl
        cases last
      rw [joins, ends f next, beq_false_of_ne ret, Bool.and_false, Bool.false_and]
      rfl
  | sign => exact ⟨mayTag_other rfl (by decide), rfl, gapsApart_of_solid rfl⟩
  | star => exact ⟨mayTag_star, endsInSign_other (by decide), gapsApart_of_solid rfl⟩
  | @word c more _ start parts ends =>
    obtain ⟨d, ds, among, same⟩ := exists_last c more before
    obtain ⟨solid, star, sign⟩ := isDocPart_plain (parts d (among d List.mem_cons_self))
    obtain ⟨stale, other⟩ := freshAfter_of_isWord (Kind.isWord_ofWord (String.ofList (c :: more)))
      (endsInSign before) (mayTag before)
    rw [same, stale, other]
    exact ⟨mayTag_other solid star, endsInSign_other sign, gapsApart_of_solid solid⟩
  | other plain =>
    obtain ⟨solid, star, sign⟩ := isDocOther_plain plain
    exact ⟨mayTag_other solid star, endsInSign_other sign, gapsApart_of_solid solid⟩

theorem DocText.ending_iff (h : DocText k text rest) : k = .endOfFileToken ↔ text = [] := by
  cases h with
  | ending => exact iff_of_true rfl rfl
  | word =>
    exact iff_of_false (Kind.ne_endOfFile_of_isWord (Kind.isWord_ofWord _)) (List.cons_ne_nil _ _)
  | _ => exact iff_of_false (by decide) (List.cons_ne_nil _ _)

theorem DocText.rest_nil (h : DocText k [] rest) : rest = [] := by
  cases h
  rfl

theorem DocText.eq_sign (h : DocText k text rest) (sign : k = .atToken) : text = ['@'] := by
  cases h with
  | sign => rfl
  | @word c more =>
    have word := Kind.isWord_ofWord (String.ofList (c :: more))
    rw [sign] at word
    cases word
  | _ => cases sign

theorem DocText.sign_not_mem (h : DocText k text rest) (other : k ≠ .atToken) : '@' ∉ text := by
  cases h with
  | sign => exact absurd rfl other
  | blanks blank =>
    intro among
    cases blank _ among
  | word start parts => exact fun among => (isDocPart_plain (parts _ among)).2.2 rfl
  | other plain =>
    rintro among
    exact (isDocOther_plain plain).2.2 (List.mem_singleton.mp among).symm
  | _ => decide

/-- Over a token no tag begins, unless it is an `@` that may open one. -/
theorem DocText.tagsIn_token (h : DocText k text rest)
    (stale : k = .atToken → opens before = false) :
    tagsIn opens before (text ++ rest) = tagsIn opens (text.reverse ++ before) rest := by
  by_cases sign : k = .atToken
  · obtain rfl := h.eq_sign sign
    exact tagsIn_cons fun _ => stale sign
  · exact tagsIn_append (h.sign_not_mem sign)

/-- What a token leaves that is taken along. -/
theorem DocText.leaves_taken (h : DocText k text rest) (apart : GapsApart before (text ++ rest))
    (taken : endsInSign before) (stale : mayTag before = false) :
    mayTag (text.reverse ++ before) = false ∧
      (rest ≠ [] → endsInSign (text.reverse ++ before) = false) ∧
      GapsApart (text.reverse ++ before) rest := by
  by_cases none : text = []
  · subst none
    obtain rfl := h.rest_nil
    exact ⟨stale, fun no => absurd rfl no, gapsApart_end⟩
  · obtain ⟨opens, clear, later⟩ := h.leaves none apart
    refine ⟨opens.trans ?_, fun _ => ?_, later⟩
    · rw [taken, stale]
      unfold freshAfter
      split <;> rfl
    · rw [clear, stale, Bool.and_false]

/-- A word is told by its first character. -/
theorem DocText.word_iff (h : DocText k text rest) :
    k.isWord ↔ (text ++ rest).head?.any isIdentifierStart := by
  cases h with
  | word start => exact iff_of_true (Kind.isWord_ofWord _) start
  | @blanks c _ _ blank =>
    refine iff_of_false (by decide) fun start => ?_
    have solid := Scanner.not_isSpace_of_isIdentifierStart (c := c) start
    simp [isSpace, blank c List.mem_cons_self] at solid
  | @other c _ plain =>
    refine iff_of_false (by decide) fun start => ?_
    have start : isIdentifierStart c := start
    simp [isDocOther, start] at plain
  | _ => exact iff_of_false (by decide) fun no => Bool.false_ne_true no

/-- A word is taken to its end. -/
theorem DocText.takeWhile (h : DocText k text rest) (word : k.isWord) :
    (text ++ rest).takeWhile isDocPart = text := by
  cases h with
  | word start parts ends =>
    have none : rest.takeWhile isDocPart = [] := by
      cases rest with
      | nil => rfl
      | cons d ds => exact List.takeWhile_cons_of_neg (Bool.eq_false_iff.mp (ends d rfl))
    rw [List.takeWhile_append_of_pos parts, none, List.append_nil]
  | _ => cases word

namespace Scanner

variable {s t u : Scanner} {fuel : Nat} {fresh : Bool}

theorem docTags_next (more : s.scanDocToken.kind ≠ .endOfFileToken)
    (other : s.scanDocToken.kind ≠ .atToken) : docTags (fuel + 1) fresh s =
      docTags fuel (freshAfter s.scanDocToken.kind false fresh) s.scanDocToken := by
  rw [docTags]
  dsimp only
  split
  · next same => exact absurd same more
  · next same => exact absurd same other
  · next same =>
    rw [same]
    rfl
  · next same =>
    rw [same]
    rfl
  · next same =>
    rw [same]
    rfl
  · next line blanks star =>
    have stale : freshAfter s.scanDocToken.kind false fresh = false := by
      unfold freshAfter
      split
      · next same => exact absurd same line
      · next same => exact absurd same blanks
      · next same => exact absurd same star
      · rfl
    rw [stale]

/-- An `@` that may open a tag takes the next token along. -/
theorem docTags_sign (sign : s.scanDocToken.kind = .atToken) :
    let t := s.scanDocToken
    let u := t.scanDocToken
    docTags (fuel + 1) true s =
      (if u.kind.isWord && u.start == t.stop then u.text :: (docTags fuel false u).1
        else (docTags fuel false u).1, (docTags fuel false u).2) := by
  intro t u
  rw [docTags]
  dsimp only
  rw [sign]
  rfl

/-- What is taken along by an `@` is a tag if a word begins right behind the `@`. -/
theorem DocStep.tag (h : DocStep s t text) (tags : List String) :
    (if t.kind.isWord && t.start == s.stop then t.text :: tags else tags) =
      if s.ahead.head?.any isIdentifierStart then
        String.ofList (s.ahead.takeWhile isDocPart) :: tags
      else tags := by
  have begins : (t.start == s.stop) = true := beq_iff_eq.mpr h.start
  rw [begins, Bool.and_true, h.ahead]
  by_cases word : t.kind.isWord
  · rw [if_pos word, if_pos (h.kind.word_iff.mp word), h.kind.takeWhile word, h.text]
  · rw [if_neg word, if_neg fun start => word (h.kind.word_iff.mpr start)]

/-- The text `before` the cursor tells whether an `@` here may open a tag, and no `@` takes along
what comes next. -/
structure DocReady (s : Scanner) (before : List Char) (fresh : Bool) : Prop where
  begins : s.source.isBoundary s.stop
  ends : s.source.isBoundary s.limit
  apart : GapsApart before s.ahead
  opens : mayTag before = fresh
  clear : s.ahead ≠ [] → endsInSign before = false

theorem DocReady.next (h : DocReady s before fresh) (step : DocStep s t text) (some : text ≠ [])
    (stale : t.kind = .atToken → fresh = false) :
    DocReady t (text.reverse ++ before) (freshAfter t.kind false fresh) := by
  have apart := h.apart
  rw [step.ahead] at apart
  obtain ⟨opens, clear, apart⟩ := step.kind.leaves some apart
  refine ⟨step.boundary h.begins, ?_, apart, ?_, fun _ => ?_⟩
  · rw [step.source, step.limit]
    exact h.ends
  · rw [opens, h.clear (by simp [step.ahead, some]), h.opens]
  · rw [clear, h.opens]
    by_cases sign : t.kind = .atToken
    · rw [stale sign, Bool.and_false]
    · rw [beq_false_of_ne sign, Bool.false_and]

/-- An `@` that may open a tag leaves what comes behind the next token. -/
theorem DocReady.taken (h : DocReady s before true) (sign : DocStep s t ['@'])
    (step : DocStep t u text) : DocReady u (text.reverse ++ '@' :: before) false := by
  have apart : GapsApart ('@' :: before) (text ++ u.ahead) := gapsApart_of_solid rfl
  obtain ⟨opens, clear, apart⟩ :=
    step.kind.leaves_taken apart h.opens (mayTag_other rfl (by decide))
  refine ⟨step.boundary (sign.boundary h.begins), ?_, apart, opens, clear⟩
  rw [step.source, step.limit, sign.source, sign.limit]
  exact h.ends

/-- What is found from `s` on: the words told by the text, and nothing else changes. -/
structure DocTagged (s : Scanner) (before : List Char) (found : List String × Scanner) : Prop
    extends Keeps s found.2 where
  tags : found.1 = tagsIn mayTag before s.ahead
  pending : found.2.pending = s.pending

theorem DocTagged.after {found : List String × Scanner} (step : DocStep s t text)
    (stale : t.kind = .atToken → mayTag before = false)
    (h : DocTagged t (text.reverse ++ before) found) : DocTagged s before found where
  toKeeps := step.toKeeps.trans h.toKeeps
  tags := by rw [h.tags, step.ahead, step.kind.tagsIn_token stale]
  pending := h.pending.trans step.pending

theorem docTagged_docTags (fuel : Nat) (fresh : Bool) (s : Scanner) (before : List Char)
    (ready : DocReady s before fresh) (room : s.ahead.length < fuel) :
    DocTagged s before (docTags fuel fresh s) := by
  induction fuel generalizing fresh s before with
  | zero => omega
  | succ fuel ih =>
    obtain ⟨text, step⟩ := docStep_scanDocToken ready.begins ready.ends
    rw [step.ahead, List.length_append] at room
    by_cases finished : s.scanDocToken.kind = .endOfFileToken
    · obtain rfl := step.kind.ending_iff.mp finished
      have none : s.ahead = [] := by rw [step.ahead, step.kind.rest_nil, List.append_nil]
      have stops : docTags (fuel + 1) fresh s = ([], s.scanDocToken) := by
        rw [docTags]
        dsimp only
        rw [finished]
      rw [stops]
      exact ⟨step.toKeeps, by rw [none]; rfl, step.pending⟩
    have some : text ≠ [] := fun none => finished (step.kind.ending_iff.mpr none)
    have positive := List.length_pos_iff.mpr some
    by_cases sign : s.scanDocToken.kind = .atToken
    · cases fresh with
      | false =>
        have stale : docTags (fuel + 1) false s = docTags fuel false s.scanDocToken := by
          rw [docTags]
          dsimp only
          rw [sign]
          rfl
        have later := ready.next step some fun _ => rfl
        rw [sign] at later
        rw [stale]
        exact .after step (fun _ => ready.opens) (ih _ _ _ later (by omega))
      | true =>
        obtain rfl := step.kind.eq_sign sign
        obtain ⟨more, next⟩ := docStep_scanDocToken (step.boundary ready.begins) (by
          rw [step.source, step.limit]
          exact ready.ends)
        rw [next.ahead, List.length_append] at room
        have rest := DocTagged.after next (fun _ => mayTag_other rfl (by decide))
          (ih _ _ _ (ready.taken step next) (by omega))
        rw [docTags_sign sign]
        refine ⟨step.toKeeps.trans rest.toKeeps, ?_, rest.pending.trans step.pending⟩
        rw [step.ahead, List.singleton_append, tagsIn_sign ready.opens, ← rest.tags]
        exact next.tag _
    · rw [docTags_next finished sign]
      exact .after step (fun same => absurd same sign)
        (ih _ _ _ (ready.next step some fun same => absurd same sign) (by omega))

/-- Where nothing else has changed, a scanner that goes back is what it was. -/
theorem rewind_quiet (source : t.source = s.source) (keepsTrivia : t.keepsTrivia = s.keepsTrivia)
    (torn : t.torn = s.torn) (pending : t.pending = s.pending) : t.rewind s.bookmark = s := by
  have quiet : t.pending.truncate s.pending.size = s.pending := by
    simp [Diagnostics.truncate, pending]
  cases s
  cases t
  simp_all [rewind, bookmark]

/-- The tags of a comment are the words behind each `@` that may open one, and the scanner stays
as it is. Among them are the words behind each `@` that comes after white space with no `@` right
before it. -/
theorem docCommentTags_eq (s : Scanner) (comment : Range)
    (first : s.source.isBoundary comment.pos) (last : s.source.isBoundary comment.stop)
    (le : comment.pos ≤ comment.stop) :
    let text := s.source.chars comment.pos comment.stop
    s.docCommentTags comment = (tagsIn mayTag [] text, s) ∧
      (tagsIn endsInGap [] text).Sublist (tagsIn mayTag [] text) := by
  intro text
  refine ⟨?_, tagsIn_sublist (fun _ => mayTag_of_endsInGap) [] text⟩
  have limit : min (comment.pos + comment.length) s.source.size = comment.stop := by
    have inside := Source.le_size_of_isBoundary last
    rw [Range.length]
    omega
  let b := s.narrow comment.pos comment.length
  have reads : b.limit = comment.stop := limit
  have ready : DocReady b [] true := by
    refine ⟨first, ?_, gapsApart_start, rfl, fun _ => rfl⟩
    rw [reads]
    exact last
  have ahead : b.ahead = text := by
    rw [Scanner.ahead, reads]
    rfl
  have room : b.ahead.length < s.source.size + 1 := by
    obtain ⟨holds, _⟩ := Source.holds_chars le first last (Source.le_size_of_isBoundary last)
    have length : text.length ≤ s.source.size - comment.pos := holds.length_le
    rw [ahead]
    omega
  have found := docTagged_docTags (s.source.size + 1) true b [] ready room
  have tags := found.tags
  rw [ahead] at tags
  exact Prod.ext tags
    (rewind_quiet (s := s) found.source found.keepsTrivia found.torn found.pending)

/-- An `@` behind the opening, behind a star, behind a separator of lines, behind a blank and a tab.
The one behind a star and the one behind the tab are found; the star is no white space. -/
theorem docCommentTags_eq_lines :
    let s := Scanner.ofSource (.ofString "x /**@a é\r\n *@b-c\u2028@d @ @e\t@f */") false
    let text := s.source.chars 2 34
    s.docCommentTags ⟨2, 34⟩ = (["b-c", "f"], s) ∧ tagsIn endsInGap [] text = ["f"] ∧
      (tagsIn endsInGap [] text).Sublist ["b-c", "f"] := by
  intro s text
  have tags : tagsIn mayTag [] text = ["b-c", "f"] := by decide +kernel
  have apart : tagsIn endsInGap [] text = ["f"] := by decide +kernel
  obtain ⟨found, part⟩ :=
    docCommentTags_eq s ⟨2, 34⟩ (by decide +kernel) (by decide +kernel) (by decide)
  exact ⟨found.trans (congrArg (·, s) tags), apart, tags ▸ part⟩

/-- An `@` alone takes along the blank behind it, and the tag after that is not found. -/
theorem docCommentTags_misses :
    let s := Scanner.ofSource (.ofString "/** @ @param */") false
    (s.docCommentTags ⟨0, 15⟩).1 = [] ∧
      tagsIn (·.head?.any isSpace) [] (s.source.chars 0 15) = ["param"] := by
  decide +kernel

end Scanner
end ScriptGrammar
