import ScriptGrammar.Proofs.Written.Statements

/-!
# Parentheses and angle brackets

Names in parentheses are tried as parameters first, and the attempt is given up unless an arrow
follows them. Names in angle brackets behind an operand are tried as type arguments, and kept where
a call follows.
-/

namespace ScriptGrammar

open Parse ScriptGrammar.Parser

variable {src : Source} {d : Nat} {ws rest : List Word} {n y : PlainName} {ns : List PlainName}
  {b arrowTypes : Bool}

/-- Names in parentheses. -/
def inParens (n : PlainName) (ns : List PlainName) (ws : List Word) : List Word :=
  .fixed .openParenToken false :: .name n false ::
    (namesBehind ns ++ .fixed .closeParenToken false :: ws)

theorem reads_arrowWalk : Reads src d arrowWalk (inParens n ns ws)
    (namesBehind ns ++ .fixed .closeParenToken false :: ws) (· = .maybe) := by
  have behind : headKind (namesBehind ns ++ .fixed .closeParenToken false :: ws) ∈
      [.commaToken, .closeParenToken] := by
    cases ns with
    | nil => simp [namesBehind]
    | cons m ns => exact List.mem_cons_self
  have name : Reads src d arrowAfterName (.name n false ::
      (namesBehind ns ++ .fixed .closeParenToken false :: ws))
      (namesBehind ns ++ .fixed .closeParenToken false :: ws) (· = .maybe) := by
    refine Reads.bind (P := (· ∈ [.commaToken, .closeParenToken]))
      (Reads.next.bind fun _ _ => .answer fun s at_ => at_.token ▸ behind) fun k among => ?_
    simp only [List.mem_cons, List.not_mem_nil, or_false] at among
    rcases among with rfl | rfl <;> exact .pure rfl
  refine (Reads.accept_none rfl).known ?_
  refine .token (Reads.next.bind fun _ _ => .token ?_)
  refine (Reads.and_false (.pure rfl)).known ?_
  refine .read (fun s at_ => at_.atIdentifier) name

theorem At.onNewLine {w : Word} {s : State} (h : At src d s (w :: ws)) : s.onNewLine = false :=
  h.here.sameLine

section Grammars

variable [Grammar]

omit [Grammar] in
theorem reads_arrowModifiers_none (plain : (headKind ws == .asyncKeyword) = false) :
    Reads src d arrowModifiers ws ws (· = none) := by
  refine (Reads.acceptToken_none plain).known ?_
  exact .pure rfl

theorem reads_typeParameters_none (plain : (headKind ws == .lessThanToken) = false) :
    Reads src d typeParameters ws ws (· = none) := .isAt (by rw [plain]; exact .pure rfl)

theorem reads_returnType_none (plain : (headKind ws == .colonToken) = false) :
    Reads src d (returnType false) ws ws (· = none) := by
  refine (Reads.accept_none plain).known ?_
  refine (Reads.and_false (.pure rfl)).known ?_
  exact .pure rfl

omit [Grammar] in
/-- Nothing was reported since an attempt began. -/
theorem reads_noErrors {α : Type} {f : Bool → Parser α} {P : α → Prop} {tried : Bool}
    (goOn : Reads src d (f false) ws rest P) :
    Reads src d (Parser.read (fun s => tried && decide (0 < s.diagnostics.size)) >>= f) ws rest P :=
  .read (fun s at_ => by rw [at_.silent]; simp) goOn

/-- A tried arrow function is given up where no arrow follows the parameters. -/
theorem reads_parenthesizedArrow_none {w : Word} (binds : BindsNames src d)
    (closed : w.kind ∈ closingKinds) :
    Reads src d (parenthesizedArrow true arrowTypes) (inParens n ns (w :: ws)) (w :: ws)
      (· = none) := by
  refine .nodeStart fun start began => .read (a := 0) (fun s at_ => by rw [at_.silent]; rfl) ?_
  refine (reads_arrowModifiers_none rfl).known ?_
  refine (reads_typeParameters_none rfl).known ?_
  refine .read (a := false) (fun s at_ => by rw [at_.token]; rfl) ?_
  refine (reads_parameters binds ns).bind fun params made => reads_noErrors ?_
  have noColon : (headKind (w :: ws) == .colonToken) = false := headKind_beq closed (by decide)
  refine .isAt ((reads_returnType_none noColon).known ?_)
  refine .read (a := true) (fun s at_ => ?_) (.pure rfl)
  have all : ∀ k ∈ closingKinds,
      [Kind.equalsGreaterThanToken, .openBraceToken].contains k = false := by decide
  rw [at_.token, headKind_cons, all _ closed]
  simp

/-- A function of names that gives one of them, or another name. -/
def PlainName.arrow (n : PlainName) (ns : List PlainName) (y : PlainName) : Node :=
  .plain .arrowFunction [.optList .modifiers none, .optList .typeParameters none,
    .list .parameters ((n :: ns).map fun m => m.node.asParameter), .opt .returnType none,
    .one .equalsGreaterThanToken (.token .equalsGreaterThanToken), .one .body y.node]

theorem reads_parenthesizedArrow (binds : BindsNames src d) (names : ReadsNames src)
    (room : d < maxDepth) (closed : headKind ws ∈ closingKinds) :
    Reads src d (parenthesizedArrow true arrowTypes)
      (inParens n ns (.fixed .equalsGreaterThanToken true :: .name y true :: ws)) ws
      fun o => ∃ node, o = some node ∧ node.bare = n.arrow ns y := by
  refine .nodeStart fun start began => .read (a := 0) (fun s at_ => by rw [at_.silent]; rfl) ?_
  refine (reads_arrowModifiers_none rfl).known ?_
  refine (reads_typeParameters_none rfl).known ?_
  refine .read (a := false) (fun s at_ => by rw [at_.token]; rfl) ?_
  refine (reads_parameters binds ns).bind fun params made => reads_noErrors ?_
  refine .isAt ((reads_returnType_none rfl).known ?_)
  refine .read (a := false) (fun s at_ => ?_) ?_
  · rw [at_.silent, at_.token, at_.onNewLine]
    rfl
  have arrow : Reads src d arrowToken (.fixed .equalsGreaterThanToken true :: .name y true :: ws)
      (.name y true :: ws) (·.bare = .token .equalsGreaterThanToken) := by
    refine .read (a := false) (fun s at_ => by rw [at_.onNewLine, Bool.and_false]) ?_
    exact .ifAt rfl (.takeToken rfl)
  have body : Reads src d (arrowBody {} arrowTypes) (.name y true :: ws) ws (·.bare = y.node) :=
    .ifNotAt rfl (.inContext rfl (names room closed))
  refine arrow.bind fun arrow madeArrow => body.bind fun body madeBody => ?_
  refine .read (a := false) (fun s at_ => by simp) ?_
  refine Reads.bind (.buildModified began ?_ rfl rfl) fun node bare =>
    .pure ⟨node, rfl, bare.trans ?_⟩
  · exact ⟨inParens n ns [.fixed .equalsGreaterThanToken true, .name y true], by simp [inParens]⟩
  · simp [Slot.map, Signature.slots, made, madeArrow, madeBody, PlainName.arrow]

/-- The look ahead cannot tell, so the function is tried. -/
theorem reads_parenthesizedArrow?_of_maybe {P : Option Node → Prop}
    (tried : Reads src d (attempt (parenthesizedArrow true arrowTypes)) (inParens n ns ws) rest P) :
    Reads src d (parenthesizedArrow? arrowTypes) (inParens n ns ws) rest P := by
  refine .isAtAny ((Reads.ahead reads_arrowWalk).known ?_)
  exact tried

theorem reads_assignmentStep_arrow (binds : BindsNames src (d + 1)) (names : ReadsNames src)
    (room : d + 1 < maxDepth) (closed : headKind ws ∈ closingKinds) :
    Reads src d (assignmentStep arrowTypes)
      (inParens n ns (.fixed .equalsGreaterThanToken true :: .name y true :: ws)) ws
      (·.bare = n.arrow ns y) := by
  refine .nested (Nat.lt_of_succ_lt room) (Reads.known (a := false) (.isAt (.pure rfl)) ?_)
  refine (reads_parenthesizedArrow?_of_maybe
    (.attempt (reads_parenthesizedArrow binds names room closed))).bind ?_
  rintro _ ⟨node, rfl, made⟩
  exact .pure made

theorem reads_assignmentStep_parens {w : Word} {P : Node → Prop} (binds : BindsNames src (d + 1))
    (room : d < maxDepth) (closed : w.kind ∈ closingKinds)
    (binary : Reads src (d + 1) (Grammar.parse (.binary .assignment arrowTypes))
      (inParens n ns (w :: ws)) (w :: ws) P) :
    Reads src d (assignmentStep arrowTypes) (inParens n ns (w :: ws)) (w :: ws) P :=
  reads_assignmentStep room (by simp [inParens, openingKinds])
    (reads_parenthesizedArrow?_of_maybe
      (.attempt_none (reads_parenthesizedArrow_none binds closed)))
    (reads_simpleArrow?_sign (by simp [inParens])) binary

end Grammars

section Calls

variable [Grammar]

/-- The grammar reads a name where a type argument may stand. -/
def ReadsTypes (src : Source) : Prop :=
  ∀ {d : Nat} {n : PlainName} {b : Bool} {ws : List Word}, d < maxDepth →
    headKind ws ∈ afterTypeKinds →
    Reads src d (Grammar.parse .type) (.name n b :: ws) ws (·.bare = n.node.asType)

/-- Names in angle brackets. -/
def inAngles (n : PlainName) (ns : List PlainName) (ws : List Word) : List Word :=
  .fixed .lessThanToken false :: .name n false ::
    (namesBehind ns ++ .fixed .greaterThanToken false :: ws)

theorem lists_typeArguments {items : List (List Word)} (types : ReadsTypes src)
    (room : d < maxDepth) (are : AreNames items) (whole : [] ∉ items) :
    Lists src d .typeArguments type (itemShape .asType) items (.fixed .greaterThanToken false)
      rest := by
  refine .ofNames are (by decide : Kind.greaterThanToken ∈ _) (fun n b vs => .token (.isAt ?_))
    (fun n b v vs behind => types room ?_) (fun hole => absurd hole whole) (.token (.isAt ?_))
    fun s at_ => ?_
  · exact reads_startsPlainType false List.mem_cons_self
  · rcases behind with rfl | rfl <;> simp [afterTypeKinds]
  · exact reads_startsPlainType false (by simp)
  · simp [State.endsList, at_.token]

/-- Type arguments are kept where a parenthesis follows. -/
theorem reads_valueTypeArguments (types : ReadsTypes src) (room : d < maxDepth) :
    Reads src d (valueTypeArguments true)
      (inAngles n ns (.fixed .openParenToken false :: ws)) (.fixed .openParenToken false :: ws)
      fun o => ∃ list, o = some list ∧
        list.map Node.bare = (n :: ns).map fun m => m.node.asType := by
  refine .isAt (.read (a := 0) (fun s at_ => by rw [at_.silent]; rfl) ?_)
  refine Reads.next.bind fun _ _ => ?_
  refine Reads.bind (lists_typeArguments types room (areNames_nameItems n ns)
    (nil_not_mem_nameItems n ns)).reads_names ?_
  rintro list ⟨elements, -⟩
  refine .read (a := false) (fun s at_ => ?_) (Reads.next.bind fun _ _ => ?_)
  · rw [at_.token, at_.silent]
    rfl
  · exact .isAtAny (.pure ⟨_, rfl, elements⟩)

theorem reads_arguments (names : ReadsNames src) (room : d < maxDepth) :
    Reads src d arguments
      (.fixed .openParenToken false :: .name y false :: .fixed .closeParenToken false :: ws) ws
      (·.map Node.bare = [y.node]) := by
  refine Reads.bind (P := fun list => list.elements.map Node.bare = [y.node]) ?_
    fun list made => .pure made
  refine (Reads.expect rfl).known ?_
  refine Reads.bind (lists_arguments names room (areNames_nameItems y [])
    (nil_not_mem_nameItems y [])).reads_names ?_
  rintro list ⟨elements, -⟩
  exact (Reads.expect rfl).bind fun _ _ => .pure elements

/-- A call of `f` with type arguments and one argument. -/
def PlainName.call (f n : PlainName) (ns : List PlainName) (y : PlainName) : Node :=
  .plain .callExpression [.one .expression f.node, .opt .questionDotToken none,
    .optList .typeArguments (some ((n :: ns).map fun m => m.node.asType)),
    .list .arguments [y.node]]

/-- What comes behind `f` in a call with type arguments. -/
def callWords (n : PlainName) (ns : List PlainName) (y : PlainName) (ws : List Word) : List Word :=
  inAngles n ns
    (.fixed .openParenToken false :: .name y false :: .fixed .closeParenToken false :: ws)

omit [Grammar] in
theorem suffix_callWords : .fixed .closeParenToken false :: ws <:+ callWords n ns y ws :=
  ⟨inAngles n ns [.fixed .openParenToken false, .name y false], by simp [callWords, inAngles]⟩

omit [Grammar] in
theorem reads_buildLink {start : NodeStart} {slots : List Slot} {shape : Node} {k : Kind}
    {chain : Bool} {vs : List Word} (began : Begins src start.pos vs) (later : ws <:+ vs)
    (real : (k == .omittedExpression) = false)
    (same : .plain k (slots.map (·.map Node.bare)) = shape) :
    Reads src d (buildLink k start chain slots) ws ws (·.bare = shape) :=
  (Reads.close began later real).bind fun info bare => .pure <| by
    have unmarked : ({ info with flags := { info.flags with optionalChain := chain } } :
        NodeInfo).bare = .plain k := bare
    rw [Node.bare_ofSlots, unmarked, ← same]
    rfl

variable {f : PlainName}

theorem reads_link?_call {start : NodeStart} {first : Node} (types : ReadsTypes src)
    (names : ReadsNames src) (room : d < maxDepth)
    (began : Begins src start.pos (.name f b :: callWords n ns y ws))
    (target : first.bare = f.node) :
    Reads src d (link? start ⟨first, false⟩ none true) (callWords n ns y ws) ws
      fun o => ∃ node, o = some node ∧ node.bare = f.call n ns y := by
  refine .token (Reads.bind (.attempt (reads_valueTypeArguments types room)) ?_)
  rintro _ ⟨list, rfl, types⟩
  refine .ifAt rfl (Reads.bind (P := fun node => node.bare = f.call n ns y) ?_
    fun node made => .pure ⟨node, rfl, made⟩)
  refine (reads_arguments names room).bind fun args made => ?_
  refine reads_buildLink began ?_ rfl ?_
  · exact ((List.suffix_cons _ _).trans suffix_callWords).trans (List.suffix_cons _ _)
  · simp [Slot.map, target, types, made, PlainName.call]

theorem reads_leftHandSide_call (types : ReadsTypes src) (names : ReadsNames src)
    (room : d < maxDepth)
    (primary : ∀ ws, Reads src d (Grammar.parse .primary) (.name f b :: ws) ws (·.bare = f.node))
    (closed : headKind ws ∈ closingKinds) :
    Reads src d leftHandSide (.name f b :: callWords n ns y ws) ws (·.bare = f.call n ns y) := by
  refine .nodeStart fun start began => (primary _).bind fun first target => ?_
  unfold postfixes
  refine Reads.bind (P := (·.target.bare = f.call n ns y)) ?_ fun c made => .pure made
  refine .twice (R := (·.target.bare = f.call n ns y)) ⟨_, suffix_callWords⟩ (.token ?_)
    fun c made => .token ?_
  · refine Reads.bind (reads_link?_call types names room began target) ?_
    rintro _ ⟨node, rfl, made⟩
    exact .pure ⟨_, rfl, made⟩
  · rw [postfixTier_of_closed closed]
    exact .pure ⟨c, rfl, made⟩

end Calls
end ScriptGrammar
