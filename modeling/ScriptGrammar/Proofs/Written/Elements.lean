import ScriptGrammar.Parse.Primary
import ScriptGrammar.Proofs.Written.Types

/-!
# Reading the elements of lists

Parameters, type arguments, arguments and the elements of arrays, each of them a name. An array may
leave elements out.
-/

namespace ScriptGrammar

open Parse ScriptGrammar.Parser

variable {src : Source} {d e : Nat} {ws rest vs : List Word} {n : PlainName} {b : Bool}
  {c : ListContext} {element : Parser Node} {closer : Word} {items : List (List Word)}
  {of : Node → Node}

/-- The word as an identifier. -/
def Word.node (w : Word) : Node := .leaf (.plain .identifier) (.name w.text none)

/-- What an item is, a name being made an element by `of`. -/
def itemShape (of : Node → Node) : Nat → List Word → Node
  | e, [] => .hole e
  | _, w :: _ => of w.node

/-- The items are names, or left out. -/
def AreNames (items : List (List Word)) : Prop :=
  ∀ us ∈ items, us = [] ∨ ∃ (n : PlainName) (b : Bool), us = [.name n b]

/-- A list of names goes by what it does at a name, at a comma and at the end. -/
theorem Lists.ofNames (names : AreNames items)
    (closed : closer.kind ∈ [.closeParenToken, .closeBracketToken, .greaterThanToken])
    (starts : ∀ (n : PlainName) b vs,
      Reads src d (startsElement c false) (.name n b :: vs) (.name n b :: vs) (· = true))
    (reads : ∀ (n : PlainName) b v vs, v = .comma ∨ v = closer →
      Reads src d element (.name n b :: v :: vs) (v :: vs) (·.bare = of n.node))
    (holes : [] ∈ items → c.allowsTrailingComma ∧
      (∀ vs, Reads src d (startsElement c false) (.comma :: vs) (.comma :: vs) (· = true)) ∧
      ∀ vs e, e + extent (.comma :: vs) = src.size →
        Reads src d element (.comma :: vs) (.comma :: vs) (·.bare = .hole e))
    (stops : Reads src d (startsElement c false) (closer :: rest) (closer :: rest) (· = false))
    (ends : ∀ s, At src d s (closer :: rest) → s.endsList c = true) :
    Lists src d c element (itemShape of) items closer rest := by
  refine ⟨?_, ?_, stops, ends, ?_, fun hole => (holes hole).1⟩
  · rintro us among v vs behind
    rcases names us among with rfl | ⟨n, b, rfl⟩
    · obtain rfl := behind.resolve_right fun no => no.2 rfl
      exact (holes among).2.1 vs
    · exact starts n b (v :: vs)
  · rintro us among v vs behind e left
    rcases names us among with rfl | ⟨n, b, rfl⟩
    · obtain rfl := behind.resolve_right fun no => no.2 rfl
      exact (holes among).2.2 vs e left
    · exact reads n b v vs (behind.imp_right And.left)
  · simp only [List.mem_cons, List.not_mem_nil, or_false] at closed
    rcases closed with kind | kind | kind <;> rw [kind] <;> rfl

/-- A name and others behind it, none left out. -/
def nameItems (n : PlainName) (ns : List PlainName) : List (List Word) :=
  [.name n false] :: ns.map fun m => [.name m true]

theorem separated_nameItems (n : PlainName) (ns : List PlainName) :
    separated (nameItems n ns) = .name n false :: namesBehind ns := by
  have tail (w : Word) :
      separated ([w] :: ns.map fun m => [.name m true]) = w :: namesBehind ns := by
    induction ns generalizing w with
    | nil => exact separated_singleton [w]
    | cons m ns ih =>
      rw [List.map_cons, separated_cons_cons, ih]
      rfl
  exact tail _

theorem shapes_nameItems (n : PlainName) (ns : List PlainName) :
    shapes (itemShape of) e (nameItems n ns) = (n :: ns).map fun m => of m.node := by
  have tail (w : Word) (e : Nat) : shapes (itemShape of) e ([w] :: ns.map fun m => [.name m true]) =
      of w.node :: ns.map fun m => of m.node := by
    induction ns generalizing w e with
    | nil => rfl
    | cons m ns ih =>
      rw [List.map_cons, shapes, ih]
      · rfl
      · simp
  exact tail _ _

theorem areNames_nameItems (n : PlainName) (ns : List PlainName) : AreNames (nameItems n ns) := by
  rintro us among
  rcases List.mem_cons.mp among with rfl | among
  · exact .inr ⟨n, false, rfl⟩
  · obtain ⟨m, -, rfl⟩ := List.mem_map.mp among
    exact .inr ⟨m, true, rfl⟩

theorem nil_not_mem_nameItems (n : PlainName) (ns : List PlainName) : [] ∉ nameItems n ns := by
  simp [nameItems]

theorem Lists.reads_names {ns : List PlainName}
    (h : Lists src d c element (itemShape of) (nameItems n ns) closer rest) :
    Reads src d (delimited c element) (.name n false :: (namesBehind ns ++ closer :: rest))
      (closer :: rest) fun list =>
        list.elements.map Node.bare = (n :: ns).map (fun m => of m.node) ∧
          list.trailingComma = none := by
  refine .ofLeft fun e left => ?_
  rw [← List.cons_append, ← separated_nameItems] at left ⊢
  refine (h.reads_delimited left).mono ?_
  rintro list ⟨elements, comma⟩
  exact ⟨elements.trans (shapes_nameItems n ns),
    comma.resolve_right (nil_not_mem_nameItems n ns)⟩

/-- In the plain context the token alone tells whether an expression begins, `import` apart. -/
def Kind.beginsExpression (k : Kind) : Bool :=
  k.startsLeftHandSide || k.isIdentifierLike || (k.startsExpression || k.isIdentifierLike) ||
    (k.binaryTier.isValid && Tier.comma.looserThan k.binaryTier)

theorem reads_startsExpression (noImport : (headKind ws == .importKeyword) = false) :
    Reads src d startsExpression ws ws (· = (headKind ws).beginsExpression) := by
  have primary : Reads src d startsLeftHandSide ws ws
      (· = ((headKind ws).startsLeftHandSide || (headKind ws).isIdentifierLike)) :=
    .ifNotAt noImport (.answer fun s at_ => by rw [at_.token, at_.atIdentifier])
  refine .or (.or primary (.answer fun s at_ => ?_)) (.answer fun s at_ => ?_)
  · rw [at_.token, at_.atIdentifier]
  · rw [at_.token]

theorem reads_startsPlainType (inParameter : Bool)
    (plain : headKind ws ∈ [.identifier, .closeParenToken, .greaterThanToken]) :
    Reads src d (startsPlainType inParameter) ws ws (· = (headKind ws == .identifier)) := by
  refine .token ?_
  simp only [List.mem_cons, List.not_mem_nil, or_false] at plain
  rcases plain with kind | kind | kind <;> rw [kind]
  · exact .answer fun s at_ => by rw [at_.atIdentifier, kind]; rfl
  · exact .pure rfl
  · exact .pure rfl

theorem reads_startsParameter
    (plain : headKind ws ∈ [.identifier, .closeParenToken, .greaterThanToken]) :
    Reads src d startsParameter ws ws
      (· = ((headKind ws).startsParameter || headKind ws == .identifier)) :=
  .or (.answer fun s at_ => by rw [at_.token]) (reads_startsPlainType true plain)

section Grammars

variable [Grammar]

/-- A name as a parameter. -/
def Node.asParameter (name : Node) : Node :=
  .plain .parameter (.optList .modifiers none :: parameterSlots none name none none none)

theorem reads_modifiers_none {rules : ModifierRules} :
    Reads src d (modifiers rules) (.name n b :: ws) (.name n b :: ws) (· = none) := by
  have keyword (seen : Bool) : Reads src d (modifier? rules seen) (.name n b :: ws)
      (.name n b :: ws) (· = none) := by
    refine .nodeStart fun start _ => .token ?_
    have plain : Reads src d (pure (rules.staticBlocks && Kind.identifier == .staticKeyword) <&&>
        nextIs .openBraceToken) (.name n b :: ws) (.name n b :: ws) (· = false) := by
      rw [show (Kind.identifier == .staticKeyword) = false from rfl, Bool.and_false]
      exact .pure rfl
    refine .bind plain ?_
    rintro _ rfl
    cases seen <;> exact .pure rfl
  refine Reads.bind (P := (·.2 = [])) (.once ?_) fun found none => .pure (by rw [none]; rfl)
  have next : Reads src d (do
      if ← pure rules.decorators <&&> isAt .atToken then return some (← decorator)
      modifier? rules false) (.name n b :: ws) (.name n b :: ws) (· = none) := by
    cases rules.decorators
    · exact keyword false
    · exact .isAt (keyword false)
  refine next.known ?_
  exact .pure ⟨_, rfl, rfl⟩

theorem reads_parameter
    (binding : Reads src d (Grammar.parse .binding) (.name n b :: ws) ws (·.bare = n.node))
    (closed : headKind ws ∈ closingKinds) :
    Reads src d parameter (.name n b :: ws) ws (·.bare = n.node.asParameter) := by
  refine .nodeStart fun start began => reads_modifiers_none.known ?_
  refine .ifNotAt rfl ((Reads.acceptToken_none rfl).known ?_)
  refine Reads.bind binding fun name made => ?_
  have rest : Reads src d (do
      let question ← acceptToken .questionToken
      let type ← typeAfterColon
      let init ← initializer
      buildModified .parameter start none .none (parameterSlots none name question type init)) ws ws
        (·.bare = n.node.asParameter) := by
    refine (Reads.acceptToken_none (headKind_beq closed (by decide))).known ?_
    refine (Reads.after_none (headKind_beq closed (by decide))).known ?_
    refine (Reads.after_none (headKind_beq closed (by decide))).known ?_
    exact .buildModified began ⟨[_], rfl⟩ rfl
      (by simp [Slot.map, parameterSlots, made, Node.asParameter])
  refine .ite (fun _ => ?_) fun _ => rest
  refine .read (a := false) (fun s at_ => ?_) rest
  have all : ∀ k ∈ closingKinds, k.isModifier = false := by decide
  rw [at_.token, all _ closed]

/-- The grammar reads a name where a binding may stand. -/
def BindsNames (src : Source) (d : Nat) : Prop :=
  ∀ {n : PlainName} {b : Bool} {ws : List Word},
    Reads src d (Grammar.parse .binding) (.name n b :: ws) ws (·.bare = n.node)

theorem lists_parameters (binds : BindsNames src d) (names : AreNames items) (whole : [] ∉ items) :
    Lists src d .parameters parameter (itemShape .asParameter) items
      (.fixed .closeParenToken false) rest := by
  refine .ofNames names (by decide : Kind.closeParenToken ∈ _) (fun n b vs => ?_)
    (fun n b v vs behind => ?_) (fun hole => absurd hole whole) ?_ fun s at_ => ?_
  · exact reads_startsParameter (by decide : Kind.identifier ∈ _)
  · refine reads_parameter binds ?_
    rcases behind with rfl | rfl <;> simp [closingKinds]
  · exact reads_startsParameter (by decide : Kind.closeParenToken ∈ _)
  · simp [State.endsList, at_.token]

omit [Grammar] in
/-- No element but a rest element is followed by no comma. -/
theorem reads_checkRestComma {list : Delimited} (h : list.trailingComma = none ∨
    ∀ n ∈ list.elements.map Node.bare, n.childAs? .dotDotDotToken = none) :
    Reads src d (checkRestComma list) ws ws fun _ => True := by
  unfold checkRestComma
  cases comma : list.trailingComma with
  | none => exact .pure trivial
  | some range =>
    cases last : list.elements.getLast? with
    | none => exact .pure trivial
    | some node =>
      have noDots : node.childAs? .dotDotDotToken = none := by
        have among := List.mem_map_of_mem (f := Node.bare) (List.mem_of_getLast? last)
        have bare := h.resolve_left (by simp [comma]) _ among
        simpa [Node.childAs?_bare] using bare
      dsimp only
      rw [noDots]
      exact .pure trivial

theorem reads_parameters (binds : BindsNames src d) (ns : List PlainName) :
    Reads src d (parameters {}) (.fixed .openParenToken b :: .name n false ::
        (namesBehind ns ++ .fixed .closeParenToken false :: rest)) rest
      fun list => list.map Node.bare = (n :: ns).map fun m => m.node.asParameter := by
  refine (Reads.expect rfl).known ?_
  refine Reads.bind (Reads.inContext rfl (lists_parameters binds (areNames_nameItems n ns)
    (nil_not_mem_nameItems n ns)).reads_names) ?_
  rintro list ⟨elements, comma⟩
  refine (reads_checkRestComma (.inl comma)).bind fun _ _ => ?_
  exact (Reads.expect rfl).bind fun _ _ => .pure elements

theorem reads_argument_name (names : ReadsNames src) (room : d < maxDepth)
    (closed : headKind ws ∈ closingKinds) :
    Reads src d argument (.name n b :: ws) ws (·.bare = n.node) :=
  .token (reads_assignmentWithIn (names room closed))

theorem reads_argument_hole (left : e + extent (.comma :: ws) = src.size) :
    Reads src d argument (.comma :: ws) (.comma :: ws) (·.bare = .hole e) := by
  refine .token (.nodeStart fun start began => (Reads.hole began).mono ?_)
  have pos : start.pos = e := by
    have gap : headGap (.comma :: ws) = 0 := rfl
    unfold Begins at began
    omega
  rintro node made
  rw [made, pos]

theorem lists_arguments (names : ReadsNames src) (room : d < maxDepth) (are : AreNames items)
    (whole : [] ∉ items) :
    Lists src d .argumentExpressions argument (itemShape id) items (.fixed .closeParenToken false)
      rest := by
  refine .ofNames are (by decide : Kind.closeParenToken ∈ _) (fun n b vs => .token ?_)
    (fun n b v vs behind => reads_argument_name names room ?_) (fun hole => absurd hole whole)
    (.token ?_) fun s at_ => ?_
  · exact reads_startsExpression rfl
  · rcases behind with rfl | rfl <;> simp [closingKinds]
  · exact reads_startsExpression rfl
  · simp [State.endsList, at_.token]

theorem lists_arrayLiteral (names : ReadsNames src) (room : d < maxDepth) (are : AreNames items) :
    Lists src d .arrayLiteralMembers argument (itemShape id) items (.fixed .closeBracketToken false)
      rest := by
  refine .ofNames are (by decide : Kind.closeBracketToken ∈ _) (fun n b vs => .token ?_)
    (fun n b v vs behind => reads_argument_name names room ?_)
    (fun _ => ⟨rfl, fun vs => .token (.pure rfl), fun vs e left => reads_argument_hole left⟩)
    (.token ?_) fun s at_ => ?_
  · exact reads_startsExpression rfl
  · rcases behind with rfl | rfl <;> simp [closingKinds]
  · exact reads_startsExpression rfl
  · simp [State.endsList, at_.token]

/-- A name that an array pattern binds. -/
def Node.asBindingElement (name : Node) : Node :=
  .plain .bindingElement [.opt .dotDotDotToken none, .opt .propertyName none, .one .name name,
    .opt .initializer none]

theorem reads_arrayBindingElement_name (binds : BindsNames src d)
    (closed : headKind ws ∈ closingKinds) :
    Reads src d arrayBindingElement (.name n b :: ws) ws (·.bare = n.node.asBindingElement) := by
  refine .nodeStart fun start began => .ifNotAt rfl ((Reads.acceptToken_none rfl).known ?_)
  refine Reads.bind binds fun name made => ?_
  refine (Reads.after_none (headKind_beq closed (by decide))).known ?_
  exact .build began ⟨[_], rfl⟩ rfl (by simp [Slot.map, made, Node.asBindingElement])

theorem reads_arrayBindingElement_hole (left : e + extent (.comma :: ws) = src.size) :
    Reads src d arrayBindingElement (.comma :: ws) (.comma :: ws) (·.bare = .hole e) := by
  refine .nodeStart fun start began => .ifAt rfl ((Reads.hole began).mono ?_)
  have pos : start.pos = e := by
    have gap : headGap (.comma :: ws) = 0 := rfl
    unfold Begins at began
    omega
  rintro node made
  rw [made, pos]

omit [Grammar] in
theorem At.atBinding {s : State} (h : At src d s ws) : s.atBinding =
    (headKind ws == .openBraceToken || headKind ws == .openBracketToken ||
      (headKind ws).isIdentifierLike) := by
  unfold State.atBinding
  rw [h.token, h.atIdentifier]

theorem lists_arrayBinding (binds : BindsNames src d) (are : AreNames items) :
    Lists src d .arrayBindingElements arrayBindingElement (itemShape .asBindingElement) items
      (.fixed .closeBracketToken false) rest := by
  refine .ofNames are (by decide : Kind.closeBracketToken ∈ _) (fun n b vs => .token ?_)
    (fun n b v vs behind => reads_arrayBindingElement_name binds ?_)
    (fun _ => ⟨rfl, fun vs => .token ?_, fun vs e left => reads_arrayBindingElement_hole left⟩)
    (.token ?_) fun s at_ => ?_
  · exact .answer fun s at_ => by rw [at_.atBinding]; rfl
  · rcases behind with rfl | rfl <;> simp [closingKinds]
  · exact .answer fun s at_ => by rw [at_.atBinding]; rfl
  · exact .answer fun s at_ => by rw [at_.atBinding]; rfl
  · simp [State.endsList, at_.token]

end Grammars
end ScriptGrammar
