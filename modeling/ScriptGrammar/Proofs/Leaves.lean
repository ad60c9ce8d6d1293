import ScriptGrammar.Proofs.TreeShape

/-!
# Leaves and the text they stand on

The text of a leaf is taken from the scanner before its token is passed, and its range is made up
afterwards from the end of the last token and the place of the latest placeholder. In plain source
the two agree: a placeholder never stands behind the token at the cursor, so a leaf ends where its
token does. What a token says of its text, at every state of a parse, then holds of all leaves.
-/

namespace ScriptGrammar

open Parse

theorem Scanner.Faithful.withPending {s : Scanner} (h : s.Faithful) (d : Diagnostics) :
    ({ s with pending := d } : Scanner).Faithful := ⟨h.spelled, h.named, h.written⟩

namespace Node

/-- A leaf is spelled as the source has it. Names are decoded, and a placeholder stands for any
token but a number or a regular expression. -/
structure Quotes (src : Source) (n : Node) : Prop where
  spelled : n.isMissing = false → ∀ text, n.kind.text? = some text →
    src.slice n.range.pos n.range.stop = text
  identifier : n.isMissing = false → n.kind = .identifier → ∃ keyword,
    n.detail =
      .name (String.ofList (unescape (src.slice n.range.pos n.range.stop).toList)) keyword
  privateIdentifier : n.isMissing = false → n.kind = .privateIdentifier →
    n.detail =
      .privateName (String.ofList (unescape (src.slice n.range.pos n.range.stop).toList))
  literal : n.kind.isVerbatim → ∃ flags,
    n.detail = .literal (src.slice n.range.pos n.range.stop) flags

variable {src : Source} {n : Node}

theorem Quotes.as (n : Node) (p : Part) (h : n.Quotes src) : (n.as p).Quotes src := by
  obtain ⟨spelled, identifier, privateIdentifier, literal⟩ := h
  exact ⟨by simpa using spelled, by simpa using identifier, by simpa using privateIdentifier,
    by simpa using literal⟩

end Node

theorem Kind.isLeaf_of_text? {k : Kind} {text : String} (h : k.text? = some text) :
    k.isLeaf := by
  rcases isPunctuation_or_of_text? h with sign | word
  · simp [isLeaf, sign]
  · simp [isLeaf, isWord, word]

theorem Kind.isLeaf_of_isVerbatim {k : Kind} (h : k.isVerbatim) : k.isLeaf := by
  cases k <;> first | rfl | cases h

section Closing

variable {src : Source} {info : NodeInfo} {detail : Detail} {slots : List Slot} {s t : State}

theorem quotes_of_not_isLeaf (other : info.kind.isLeaf = false) :
    (Node.ofSlots info detail slots).Quotes src := by
  have no {k : Kind} (leaf : k.isLeaf) : info.kind ≠ k := by
    rintro rfl
    rw [other] at leaf
    cases leaf
  exact ⟨fun _ _ spelled => absurd rfl (no (Kind.isLeaf_of_text? spelled)),
    fun _ same => absurd same (no rfl), fun _ same => absurd same (no rfl),
    fun verbatim => absurd rfl (no (Kind.isLeaf_of_isVerbatim verbatim))⟩

/-- A placeholder has no text to be compared with. -/
theorem quotes_missing (missing : info.flags.missing = true)
    (other : info.kind.isVerbatim = false) : (Node.ofSlots info detail slots).Quotes src := by
  have gone : (Node.ofSlots info detail slots).isMissing ≠ false := fun there =>
    nomatch there.symm.trans missing
  exact ⟨fun there => absurd there gone, fun there => absurd there gone,
    fun there => absurd there gone, fun verbatim => nomatch other.symm.trans verbatim⟩

/-- A leaf on a token is spelled as the token is. -/
theorem quotes_of_tells {kind : Kind} (same : info.kind = kind)
    (range : info.range = ⟨s.tokenPos, s.scanner.stop⟩) (faithful : s.scanner.Faithful)
    (tells : Tells s kind detail) : (Node.ofSlots info detail slots).Quotes s.scanner.source := by
  have text : s.scanner.source.slice info.range.pos info.range.stop = s.scanner.text := by
    rw [range]
    rfl
  -- The rules of a leaf, over its kind and detail, with its text read off the token.
  suffices rules : (∀ text, kind.text? = some text → s.scanner.text = text) ∧
      (kind = .identifier → ∃ keyword,
        detail = .name (String.ofList (unescape s.scanner.text.toList)) keyword) ∧
      (kind = .privateIdentifier →
        detail = .privateName (String.ofList (unescape s.scanner.text.toList))) ∧
      (kind.isVerbatim → ∃ flags, detail = .literal s.scanner.text flags) by
    rw [← text, ← same] at rules
    obtain ⟨spelled, identifier, privateIdentifier, literal⟩ := rules
    exact ⟨fun _ => spelled, fun _ => identifier, fun _ => privateIdentifier, literal⟩
  cases tells with
  | sign plain =>
    have other {k : Kind} (away : k.isPlain = false) : s.token ≠ k := by
      intro at_
      rw [at_, away] at plain
      cases plain
    have verbatim := Kind.isVerbatim_of_isPlain plain
    exact ⟨faithful.spelled, fun at_ => absurd at_ (other rfl), fun at_ => absurd at_ (other rfl),
      fun literal => nomatch verbatim.symm.trans literal⟩
  | word word keyword =>
    have unspelled : Kind.identifier.text? = none := by decide +kernel
    refine ⟨fun _ spelled => (nomatch unspelled.symm.trans spelled), fun _ => ⟨keyword, ?_⟩,
      nofun, nofun⟩
    rw [faithful.named (.inl word)]
  | privateName at_ =>
    have unspelled : Kind.privateIdentifier.text? = none := by decide +kernel
    refine ⟨fun _ spelled => (nomatch unspelled.symm.trans spelled), nofun, fun _ => ?_, nofun⟩
    rw [faithful.named (.inr at_)]
  | text isText flags =>
    have other {k : Kind} (away : k.isText = false) : s.token ≠ k := by
      intro at_
      rw [at_, away] at isText
      cases isText
    refine ⟨faithful.spelled, fun at_ => absurd at_ (other rfl), fun at_ => absurd at_ (other rfl),
      fun verbatim => ⟨flags, ?_⟩⟩
    have among : s.token ∈ [.numericLiteral, .bigIntLiteral, .regularExpressionLiteral] := by
      cases at_ : s.token <;> first | decide | (rw [at_] at verbatim; cases verbatim)
    rw [faithful.written among]

/-- A leaf ends where its token does. -/
theorem range_close_leaf (h : s.Steady) (passes : Passes s t) (missing : s.missingAt ≤ s.tokenPos)
    (kind : Kind) : (t.close kind s.nodeStart).1.range = ⟨s.tokenPos, s.scanner.stop⟩ := by
  have le : s.tokenPos ≤ s.scanner.stop := h.clear.sound.start_le
  have stop : (t.close kind s.nodeStart).1.range.stop = s.scanner.stop := by
    have last := passes.prevEnd
    have placeholder := passes.missingAt
    have pos : s.nodeStart.pos = s.tokenPos := rfl
    simp only [State.close, pos]
    split <;> omega
  exact congrArg (Range.mk s.tokenPos) stop

end Closing

/-- Every parse of plain source leaves its nodes so. -/
theorem Parse.Yields.quotes {s t : State} {ns : List Node} (y : Yields s t ns) (h : s.Steady)
    (plain : s.options.isJsx = false) (missing : s.missingAt ≤ s.tokenPos)
    (faithful : s.scanner.Faithful) :
    t.scanner.Faithful ∧ ∀ n ∈ ns, ∀ m ∈ n.postorder, m.Quotes s.scanner.source := by
  have whole {src : Source} {info : NodeInfo} {detail : Detail} {slots : List Slot}
      (here : (Node.ofSlots info detail slots).Quotes src)
      (below : ∀ n ∈ slots.flatMap held, ∀ m ∈ n.postorder, m.Quotes src) :
      ∀ n ∈ [Node.ofSlots info detail slots], ∀ m ∈ n.postorder, m.Quotes src :=
    List.forall_mem_singleton.mpr (Node.forall_postorder_ofSlots Node.Quotes.as here below)
  induction y with
  | refl | enterName => exact ⟨faithful, fun _ no => (nomatch no)⟩
  | trans first second ih₁ ih₂ =>
    have steady := (first.keeps h).steady
    have frame := first.frame h
    have one := ih₁ h plain missing faithful
    have placed := first.placed h (.inl plain) missing
    have two := ih₂ steady (frame.options ▸ plain) placed.missing one.1
    refine ⟨two.1, fun n hn => (List.mem_append.mp hn).elim (one.2 n) fun hn => ?_⟩
    exact frame.scanner.source ▸ two.2 n hn
  | drop _ sub ih =>
    have all := ih h plain missing faithful
    exact ⟨all.1, fun n hn => all.2 n (sub.subset hn)⟩
  | @advance r s markup =>
    have read : r = .plain := Decidable.byContradiction fun other =>
      nomatch plain.symm.trans (markup other)
    subst read
    have next := Scanner.faithful_scan h.clear.sound.stands
    exact ⟨next.withPending _, fun _ no => (nomatch no)⟩
  | greater s =>
    have again := Scanner.faithful_rescanGreater faithful h.clear.sound.start_le
    exact ⟨again.withPending _, fun _ no => (nomatch no)⟩
  | @settle r s t ns markup settled _ _ ih =>
    have other (is : r.isMarkup) : False := nomatch plain.symm.trans (markup is)
    have start : s.tokenPos = (s.reread r).tokenPos :=
      (State.tokenPos_reread (fun content => other (by rw [content]; rfl)) h.clear).symm
    have again : (r.apply s.scanner).Faithful := by
      cases r with
      | greater => exact Scanner.faithful_rescanGreater faithful h.clear.sound.start_le
      | slash => exact Scanner.faithful_rescanSlash faithful
      | template tagged => exact Scanner.faithful_rescanTemplate faithful tagged
      | content | tagName => exact absurd rfl other
    have rest := ih (h.reread r settled) plain (start ▸ missing) (again.withPending _)
    exact (frame_reread r h.clear).scanner.source ▸ rest
  | report _ _ _ _ _ ih => exact ih h plain missing faithful
  | inContext c _ ih => exact ih (h.inContext c) plain missing faithful
  | inList l _ ih => exact ih (h.inList l) plain missing faithful
  | nested _ ih => exact ih (h.nested _) plain missing faithful
  | kept _ ih => exact ih h.openAttempt plain missing faithful
  | rolledBack inner =>
    rw [inner.rollback_eq h]
    exact ⟨faithful, fun _ no => (nomatch no)⟩
  | @node kind detail slots s t info inner marked formed _ _ ih =>
    have below := ih h plain missing faithful
    refine ⟨below.1, whole ?_ below.2⟩
    have same : info.kind = kind := marked.kind
    cases leaf : kind.isLeaf with
    | false => exact quotes_of_not_isLeaf (same ▸ leaf)
    | true =>
      obtain ⟨_, passes, tells⟩ := formed.leaf leaf
      have range := marked.range.trans (range_close_leaf h passes missing kind)
      exact quotes_of_tells same range faithful tells
  | around kind slots _ fits formed _ _ ih =>
    have below := ih h plain missing faithful
    refine ⟨below.1, whole (quotes_of_not_isLeaf (Bool.eq_false_iff.mpr fun leaf => ?_))
      (fits ▸ below.2)⟩
    simp [(formed.leaf leaf).1] at fits
  | @missing kind detail s _ other =>
    have none : ∀ n ∈ ([] : List Slot).flatMap held, ∀ m ∈ n.postorder,
        m.Quotes s.scanner.source := fun _ no => (nomatch no)
    have here : (Node.ofSlots (s.closeMissing kind).1 detail []).Quotes s.scanner.source :=
      quotes_missing rfl other
    exact ⟨faithful, whole here none⟩
  | missingAround kind slots _ _ fits _ _ formed _ ih =>
    have below := ih h plain missing faithful
    refine ⟨below.1, whole (quotes_of_not_isLeaf (Bool.eq_false_iff.mpr fun leaf => ?_))
      (fits ▸ below.2)⟩
    simp [(formed.leaf leaf).1] at fits
  | missingTag jsx => exact nomatch plain.symm.trans jsx

namespace Document

theorem quotes_root (names : NameTable) {options : Options} (src : Source)
    (plain : options.isJsx = false) :
    ∀ n ∈ (parseWith names options src).root.postorder, n.Quotes src := by
  have stands := (clear_ofSource options names src).sound.stands
  have first : (first names options src).scanner.Faithful :=
    (Scanner.faithful_scan stands).withPending _
  have inner := (yields_inner names options src).quotes (steady_first names options src) plain
    (Nat.zero_le _) first
  rw [source_first] at inner
  refine forall_postorder_root names options src Node.Quotes.as ?_ inner.2
  rw [parseWith_eq, run_eq]
  exact quotes_of_not_isLeaf rfl

/-- In the tree of plain source every leaf that is no placeholder has the spelling of its kind, and
a name is what the source has there, decoded. A number or a regular expression is never a
placeholder, and is what the source has there as it stands. -/
theorem parse_quotes_source (names : NameTable) (options : Options) (src : Source)
    (standard : options.variant = .standard) :
    ∀ n ∈ (parseWith names options src).root.postorder,
      (n.isMissing = false →
        (∀ text, n.kind.text? = some text → src.slice n.range.pos n.range.stop = text) ∧
        (n.kind = .identifier → ∃ keyword, n.detail =
          .name (String.ofList (unescape (src.slice n.range.pos n.range.stop).toList)) keyword) ∧
        (n.kind = .privateIdentifier → n.detail =
          .privateName (String.ofList (unescape (src.slice n.range.pos n.range.stop).toList)))) ∧
      (n.kind ∈ [.numericLiteral, .bigIntLiteral, .regularExpressionLiteral] →
        ∃ flags, n.detail = .literal (src.slice n.range.pos n.range.stop) flags) := by
  have plain : options.isJsx = false := by simp [Options.isJsx, standard]
  intro n hn
  obtain ⟨spelled, identifier, privateIdentifier, literal⟩ := quotes_root names src plain n hn
  refine ⟨fun there => ⟨spelled there, identifier there, privateIdentifier there⟩, fun among => ?_⟩
  simp only [List.mem_cons, List.not_mem_nil, or_false] at among
  rcases among with kind | kind | kind
  all_goals exact literal (kind ▸ rfl)

/-- A name that begins with an escape, and a number. -/
theorem parse_quotes_source_escape :
    (∃ n ∈ (parseWith {} {} (.ofString "\\u0061b = 0x1F")).root.postorder,
      n.nameText = "ab" ∧ ∃ keyword, n.detail = .name (String.ofList (unescape
        ((Source.ofString "\\u0061b = 0x1F").slice n.range.pos n.range.stop).toList)) keyword) ∧
    ∃ n ∈ (parseWith {} {} (.ofString "\\u0061b = 0x1F")).root.postorder,
      n.range = ⟨10, 14⟩ ∧ ∃ flags, n.detail = .literal
        ((Source.ofString "\\u0061b = 0x1F").slice n.range.pos n.range.stop) flags := by
  have name : (parseWith {} {} (.ofString "\\u0061b = 0x1F")).root.postorder.any fun n =>
      n.kind == .identifier && !n.isMissing && n.nameText == "ab" := by decide +kernel
  have number : (parseWith {} {} (.ofString "\\u0061b = 0x1F")).root.postorder.any fun n =>
      n.kind == .numericLiteral && n.range == ⟨10, 14⟩ := by decide +kernel
  obtain ⟨n, hn, named⟩ := List.any_eq_true.mp name
  obtain ⟨m, hm, counted⟩ := List.any_eq_true.mp number
  simp only [Bool.and_eq_true, Bool.not_eq_true', beq_iff_eq] at named counted
  obtain ⟨there, -⟩ := parse_quotes_source {} {} _ rfl n hn
  obtain ⟨-, literal⟩ := parse_quotes_source {} {} _ rfl m hm
  refine ⟨⟨n, hn, named.2, (there named.1.2).2.1 named.1.1⟩, m, hm, counted.2, literal ?_⟩
  rw [counted.1]
  exact List.mem_cons_self

end Document
end ScriptGrammar
