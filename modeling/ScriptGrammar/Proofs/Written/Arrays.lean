import ScriptGrammar.Parse.Binding
import ScriptGrammar.Proofs.Written.Statements

/-!
# Reading arrays and array patterns
-/

namespace ScriptGrammar

open Parse ScriptGrammar.Parser

variable {src : Source} {d e : Nat} {w closer : Word} {ws rest : List Word}
  {items : List (List Word)} {n y : PlainName} {b : Bool}

section Grammars

variable [Grammar]

omit [Grammar] in
theorem Lists.reads_bracketed {c : ListContext} {opening closing : Kind} {element : Parser Node}
    {shape : Nat → List Word → Node} (h : Lists src d c element shape items closer rest)
    (opens : (w.kind == opening) = true) (closes : (closer.kind == closing) = true)
    (left : e + extent (separated items ++ closer :: rest) = src.size) :
    Reads src d (bracketed c opening closing element) (w :: (separated items ++ closer :: rest))
      rest fun list => list.elements.map Node.bare = shapes shape e items ∧
        (list.trailingComma = none ∨ [] ∈ items) := by
  refine (Reads.expect opens).known ?_
  refine (h.reads_delimited left).bind fun list made => ?_
  exact (Reads.expect closes).bind fun _ _ => .pure made

/-- Items in brackets. -/
def inBrackets (items : List (List Word)) (ws : List Word) : List Word :=
  .fixed .openBracketToken true :: (separated items ++ .fixed .closeBracketToken false :: ws)

omit [Grammar] in
theorem suffix_inBrackets : ws <:+ inBrackets items ws :=
  ⟨.fixed .openBracketToken true :: (separated items ++ [.fixed .closeBracketToken false]),
    by simp [inBrackets]⟩

omit [Grammar] in
theorem extent_inBrackets : extent (inBrackets items ws) =
    2 + extent (separated items ++ .fixed .closeBracketToken false :: ws) := extent_cons _ _

/-- An array literal. -/
def arrayOf (elements : List Node) : Node :=
  .plain .arrayLiteralExpression [.list .elements elements]

theorem reads_arrayLiteral (names : ReadsNames src) (room : d < maxDepth) (are : AreNames items)
    (left : e + extent (separated items ++ .fixed .closeBracketToken false :: ws) = src.size) :
    Reads src d arrayLiteral (inBrackets items ws) ws
      (·.bare = arrayOf (shapes (itemShape id) e items)) := by
  refine .nodeStart fun start began => ?_
  refine ((lists_arrayLiteral names room are).reads_bracketed rfl rfl left).bind ?_
  rintro list ⟨elements, -⟩
  exact .build began suffix_inBrackets rfl (by simp [Slot.map, elements, arrayOf])

/-- A name is assigned a value. -/
theorem reads_assigned {start : NodeStart} {left r : Node} {vs : List Word} {arrowTypes : Bool}
    (began : Begins src start.pos vs) (later : rest <:+ vs) (target : left.bare = n.node)
    (behind : rest <:+ ws)
    (right : Reads src d (Grammar.parse (.assignment arrowTypes)) ws rest (·.bare = r))
    (closed : headKind rest ∈ closingKinds) :
    Reads src d (binaryRest start .assignment left arrowTypes) (.fixed .equalsToken b :: ws) rest
      (·.bare = n.node.operation .equalsToken r) := by
  have operation : Reads src d (operation? start left .equalsToken arrowTypes)
      (.fixed .equalsToken b :: ws) rest
      fun o => ∃ node, o = some node ∧ node.bare = n.node.operation .equalsToken r := by
    refine .read (a := {}) (fun s at_ => at_.context) ?_
    rw [← Node.kind_bare, target]
    refine (Reads.takeToken rfl).bind fun operator sign => right.bind fun value made => ?_
    exact (reads_buildBinary began later target sign made).bind fun node bare =>
      .pure ⟨node, rfl, bare⟩
  refine .twice (R := (·.bare = n.node.operation .equalsToken r)) (exists_cons_suffix _ behind) ?_
    fun node made => ?_
  · refine .ifNotAt rfl (.token (.ite (fun stops => by cases stops) fun _ => ?_))
    refine Reads.bind operation ?_
    rintro _ ⟨node, rfl, made⟩
    exact .pure ⟨node, rfl, made⟩
  · refine .ifNotAt (headKind_beq closed (by decide)) (.token ?_)
    exact .ite (fun _ => .pure ⟨node, rfl, made⟩) fun goesOn =>
      absurd (stops_of_closed closed) goesOn

/-- An array pattern. -/
def patternOf (elements : List Node) : Node :=
  .plain .arrayBindingPattern [.list .elements elements]

omit [Grammar] in
/-- No element of a pattern of names takes the rest. -/
theorem noDots_of_mem_shapes {node : Node}
    (among : node ∈ shapes (itemShape .asBindingElement) e items) :
    node.childAs? .dotDotDotToken = none := by
  have shape (e : Nat) (us : List Word) :
      (itemShape .asBindingElement e us).childAs? .dotDotDotToken = none := by
    cases us <;> rfl
  fun_induction shapes with
  | case1 => cases among
  | case2 => cases among
  | case3 e us items some ih =>
    rcases List.mem_cons.mp among with rfl | among
    · exact shape e us
    · exact ih among

theorem reads_bindingStep_array (binds : BindsNames src d) (are : AreNames items)
    (left : e + extent (separated items ++ .fixed .closeBracketToken false :: ws) = src.size) :
    Reads src d bindingStep (inBrackets items ws) ws
      (·.bare = patternOf (shapes (itemShape .asBindingElement) e items)) := by
  refine .token (.nodeStart fun start began => ?_)
  refine ((lists_arrayBinding binds are).reads_bracketed rfl rfl left).bind ?_
  rintro list ⟨elements, -⟩
  refine (reads_checkRestComma (.inr ?_)).bind fun _ _ => ?_
  · rw [elements]
    exact fun node => noDots_of_mem_shapes
  · exact .build began suffix_inBrackets rfl (by simp [Slot.map, elements, patternOf])

/-- A pattern that takes apart the value behind it. -/
def declarationOf (pattern value : Node) : Node :=
  .plain .variableDeclaration [.one .name pattern, .opt .exclamationToken none,
    .opt .declaredType none, .opt .initializer (some value)]

theorem reads_variableDeclaration {exclaims : Bool} {pattern : Node} (names : ReadsNames src)
    (room : d < maxDepth) (noName : (pattern.kind == .identifier) = false)
    (binding : Reads src d (Grammar.parse .binding) ws
      (.fixed .equalsToken true :: .name y true :: rest) (·.bare = pattern))
    (later : rest <:+ ws) (closed : headKind rest ∈ closingKinds) :
    Reads src d (variableDeclaration exclaims) ws rest (·.bare = declarationOf pattern y.node) := by
  refine .nodeStart fun start began => binding.bind fun name made => ?_
  refine .read (a := false) (fun s at_ => ?_) ?_
  · rw [← Node.kind_bare, made, noName]
    simp
  refine Reads.known (a := none) (.pure rfl) ?_
  refine Reads.known (Reads.after_none rfl) ?_
  refine .isAtAny (Reads.bind (.after rfl (names room closed)) ?_)
  rintro _ ⟨value, rfl, given⟩
  exact .build began later rfl (by simp [Slot.map, made, given, declarationOf])

omit [Grammar] in
/-- A list of one declaration, whose shape may go by where it begins. -/
theorem lists_declaration {us : List Word} {shape : Nat → Node} {declaration : Parser Node}
    (opens : headKind us = .openBracketToken)
    (declares : ∀ v vs e, v.kind ∈ closingKinds → e + extent (us ++ v :: vs) = src.size →
      Reads src d declaration (us ++ v :: vs) (v :: vs) (·.bare = shape e)) :
    Lists src d .variableDeclarations declaration (fun e _ => shape e) [us] .semicolon rest := by
  have some : us ≠ [] := by
    rintro rfl
    cases opens
  refine ⟨?_, ?_, ?_, ?_, rfl, ?_⟩
  · intro vs among v ws _
    obtain rfl := List.mem_singleton.mp among
    refine .token (.answer fun s at_ => ?_)
    have head : headKind (vs ++ v :: ws) = .openBracketToken := by
      cases vs with
      | nil => exact absurd rfl some
      | cons u vs => exact opens
    rw [at_.atBinding, head]
    rfl
  · intro vs among v ws behind e left
    obtain rfl := List.mem_singleton.mp among
    refine declares v ws e ?_ left
    rcases behind with rfl | ⟨rfl, -⟩ <;> simp [closingKinds, Word.semicolon]
  · exact .token (.answer fun s at_ => by rw [at_.atBinding]; rfl)
  · intro s at_
    simp [State.endsList, State.atSemicolon, at_.token, Word.semicolon]
  · exact fun hole => absurd (List.mem_singleton.mp hole).symm some

/-- The one declaration of a pattern that takes `y` apart. -/
theorem lists_pattern (names : ReadsNames src) (room : d < maxDepth)
    (binding : ∀ e ws,
      e + extent (separated items ++ .fixed .closeBracketToken false :: ws) = src.size →
      Reads src d (Grammar.parse .binding) (inBrackets items ws) ws
        (·.bare = patternOf (shapes (itemShape .asBindingElement) e items))) :
    Lists src d .variableDeclarations (variableDeclaration true)
      (fun e _ =>
        declarationOf (patternOf (shapes (itemShape .asBindingElement) (e + 2) items)) y.node)
      [inBrackets items [.fixed .equalsToken true, .name y true]] .semicolon rest := by
  have joined (v : Word) (vs : List Word) :
      inBrackets items [.fixed .equalsToken true, .name y true] ++ v :: vs =
        inBrackets items (.fixed .equalsToken true :: .name y true :: v :: vs) := by
    simp [inBrackets]
  refine lists_declaration rfl fun v vs e closed left => ?_
  rw [joined] at left ⊢
  refine reads_variableDeclaration names room rfl (binding (e + 2) _ ?_) ?_ closed
  · rw [extent_inBrackets] at left
    omega
  · exact (List.suffix_append [_, _] _).trans suffix_inBrackets

omit [Grammar] in
theorem reads_variableKeyword :
    Reads src d variableKeyword (.fixed .letKeyword b :: ws) ws fun _ => True :=
  .token (Reads.next.bind fun _ _ => .pure trivial)

/-- Declarations, as they stand in a statement. -/
def declaring (declarations : List Node) : Node :=
  .plain .variableDeclarationList [.list .declarations declarations]

theorem reads_variableDeclarationList {shape : Nat → List Word → Node}
    (h : Lists src d .variableDeclarations (variableDeclaration true) shape items .semicolon rest)
    (left : e + extent (separated items ++ .semicolon :: rest) = src.size)
    (noOf : (headKind (separated items ++ .semicolon :: rest) == .ofKeyword) = false) :
    Reads src d (variableDeclarationList false)
      (.fixed .letKeyword b :: (separated items ++ .semicolon :: rest)) (.semicolon :: rest)
      (·.bare = declaring (shapes shape e items)) := by
  refine .nodeStart fun start began => reads_variableKeyword.bind fun mark _ => ?_
  have noOf : Reads src d (isAt .ofKeyword <&&> aheadNext soleNameWalk)
      (separated items ++ .semicolon :: rest) (separated items ++ .semicolon :: rest) (· = false) :=
    .and_false (.answer fun s at_ => by rw [at_.token, noOf])
  refine noOf.known ?_
  have inside : Reads src d (inContext ({ · with disallowIn := false })
      (delimited .variableDeclarations (variableDeclaration true)))
      (separated items ++ .semicolon :: rest) (.semicolon :: rest)
      (·.elements.map Node.bare = shapes shape e items) :=
    .inContext rfl ((h.reads_delimited left).mono fun _ => And.left)
  refine Reads.bind inside fun list made => ?_
  refine Reads.known (a := list.elements) (.pure rfl) ?_
  refine (Reads.close began (k := .variableDeclarationList) ?_ rfl).bind fun info bare => .pure ?_
  · exact ⟨.fixed .letKeyword b :: separated items, by simp⟩
  · have unmarked : ({ info with flags := mark info.flags } : NodeInfo).bare =
      .plain .variableDeclarationList := bare
    rw [Node.bare_ofSlots, unmarked]
    simp [Slot.map, made, declaring, Node.plain]

theorem reads_letStatement {shape : Nat → List Word → Node} (room : d < maxDepth)
    (h : Lists src (d + 1) .variableDeclarations (variableDeclaration true) shape items .semicolon
      rest)
    (left : e + extent (separated items ++ .semicolon :: rest) = src.size)
    (opens : headKind (separated items ++ .semicolon :: rest) = .openBracketToken) :
    Reads src d statementStep (.fixed .letKeyword b :: (separated items ++ .semicolon :: rest)) rest
      (·.bare = .plain .variableStatement [.optList .modifiers none,
        .one .declarationList (declaring (shapes shape e items))]) := by
  have binds : Reads src (d + 1) isLetDeclaration
      (.fixed .letKeyword b :: (separated items ++ .semicolon :: rest))
      (.fixed .letKeyword b :: (separated items ++ .semicolon :: rest)) (· = true) :=
    .aheadNext (.answer fun s at_ => by rw [at_.atBinding, opens]; rfl)
  refine .nested room (.token (Reads.known binds ?_))
  refine .nodeStart fun start began => ?_
  refine Reads.bind (reads_variableDeclarationList h left (by rw [opens]; rfl)) fun list made => ?_
  refine reads_semicolon.bind fun _ _ => .buildModified began ?_ rfl (by simp [Slot.map, made])
  exact ⟨.fixed .letKeyword b :: (separated items ++ [.semicolon]), by simp⟩

end Grammars
end ScriptGrammar
