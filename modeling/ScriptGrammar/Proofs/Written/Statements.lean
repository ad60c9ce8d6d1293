import ScriptGrammar.Proofs.Written.Elements

/-!
# Reading a statement that is the whole source
-/

namespace ScriptGrammar

open Parse ScriptGrammar.Parser

variable {src : Source} {d : Nat} {w : Word} {ws rest : List Word}

/-- The semicolon at the end of a statement. -/
def Word.semicolon : Word := .fixed .semicolonToken false

theorem legible_semicolon : Legible [.semicolon] :=
  ⟨Word.spelled_sign (by decide), by rintro v ⟨⟩, trivial⟩

section Grammars

variable [Grammar]

omit [Grammar] in
theorem reads_acceptSemicolon : Reads src d acceptSemicolon (.semicolon :: ws) ws (· = true) := by
  refine .read (a := true) (fun s at_ => ?_) ?_
  · simp [State.atSemicolon, at_.token, Word.semicolon]
  · exact (Reads.accept rfl).bind fun _ _ => .pure rfl

omit [Grammar] in
theorem reads_semicolon : Reads src d semicolon (.semicolon :: ws) ws fun _ => True := by
  refine reads_acceptSemicolon.known ?_
  exact .pure trivial

theorem reads_expressionStatement {e : Node} (later : rest <:+ ws)
    (expression : Reads src d expressionWithIn ws (.semicolon :: rest) (·.bare = e)) :
    Reads src d expressionStatement ws rest
      (·.bare = .plain .expressionStatement [.one .expression e]) := by
  refine .nodeStart fun start began => Reads.bind expression fun e made => ?_
  have noLabel (c : Bool) : Reads src d (pure c <&&> accept .colonToken) (.semicolon :: rest)
      (.semicolon :: rest) (· = false) := by
    cases c with
    | false => exact .and_false (.pure rfl)
    | true => exact .and_true (.pure rfl) (.accept_none rfl)
  refine (noLabel _).known ?_
  refine reads_acceptSemicolon.known ?_
  exact .build began later rfl (by simp [Slot.map, made])

theorem reads_statementStep {P : Node → Prop} (room : d < maxDepth)
    (opens : headKind ws ∈ openingKinds)
    (statement : Reads src (d + 1) expressionStatement ws rest P) :
    Reads src d statementStep ws rest P := by
  refine .nested room (.token ?_)
  simp only [openingKinds, List.mem_cons, List.not_mem_nil, or_false] at opens
  rcases opens with kind | kind | kind <;> rw [kind] <;> exact statement

end Grammars

theorem reads_startsElement (opens : headKind ws ∈ openingKinds) :
    Reads src d (startsElement .sourceElements false) ws ws (· = true) := by
  have expression : Reads src d startsExpression ws ws (· = true) := by
    have all : ∀ k ∈ openingKinds, k.beginsExpression := by decide
    exact (reads_startsExpression (headKind_beq opens (by decide))).mono fun _ same =>
      same.trans (all _ opens)
  have statement : Reads src d startsStatement ws ws (· = true) := by
    refine .token ?_
    simp only [openingKinds, List.mem_cons, List.not_mem_nil, or_false] at opens
    rcases opens with kind | kind | kind <;> rw [kind] <;> exact expression
  exact .token (.ite (fun recovers => by simp at recovers) fun _ => statement)

/-- A list of the one statement that the words make. -/
theorem reads_listOf {element : Parser Node} {shape : Node}
    (more : (w.kind == .endOfFileToken) = false)
    (begins : Reads src d (startsElement .sourceElements false) (w :: ws) (w :: ws) (· = true))
    (statement : Reads src d element (w :: ws) [] (·.bare = shape)) :
    Reads src d (listOf .sourceElements element) (w :: ws) [] (·.map Node.bare = [shape]) := by
  have ends (vs : List Word) {s : State} (at_ : At src d s vs) :
      s.endsList .sourceElements = (headKind vs == .endOfFileToken) := by
    simp [State.endsList, at_.token]
  refine .inList (Reads.bind (P := (·.map Node.bare = [shape])) ?_ fun found made => .pure ?_)
  · refine .twice (R := (·.map Node.bare = [shape])) (exists_cons_suffix w List.nil_suffix) ?_
      fun found made => ?_
    · refine .read (a := false) (fun s at_ => (ends _ at_).trans more) (begins.known ?_)
      refine .look fun pos => Reads.bind statement fun node made => ?_
      refine .read (a := false) (fun s at_ => by rw [ends _ at_]; exact Bool.and_false _) ?_
      exact .pure ⟨_, rfl, by simp [made]⟩
    · exact .read (a := true) (fun s at_ => ends _ at_) (.pure ⟨found, rfl, made⟩)
  · rw [List.map_reverse, made]
    rfl

theorem reads_goal_primary (fuel : Nat) {n : PlainName} {b : Bool} :
    Reads src d (goal (fuel + 1) .primary) (.name n b :: ws) ws (·.bare = n.node) := by
  let _ : Grammar := ⟨goal fuel⟩
  exact .goal reads_primaryStep_name

theorem reads_goal_binary (fuel : Nat) {arrowTypes : Bool} {min : Tier} {P : Node → Prop}
    (opens : headKind ws ∈ openingKinds) (closed : headKind rest ∈ closingKinds)
    (primary : Reads src d (goal (fuel + 1) .primary) ws rest P) :
    Reads src d (goal (fuel + 2) (.binary min arrowTypes)) ws rest P := by
  let _ : Grammar := ⟨goal (fuel + 1)⟩
  exact .goal (reads_binaryStep opens
    (reads_leftHandSide primary (postfixTier_of_closed closed)) closed)

theorem readsNames_goal (fuel : Nat) : @ReadsNames ⟨goal (fuel + 3)⟩ src := by
  intro d n b arrowTypes ws room closed
  let _ : Grammar := ⟨goal (fuel + 2)⟩
  exact Reads.goal (reads_assignmentStep room List.mem_cons_self
    (reads_parenthesizedArrow?_other List.mem_cons_self)
    (reads_simpleArrow?_name (headKind_beq closed (by decide)))
    (reads_goal_binary fuel List.mem_cons_self closed (reads_goal_primary fuel)))

theorem bindsNames_goal (fuel : Nat) : @BindsNames ⟨goal (fuel + 1)⟩ src d := by
  intro n b ws
  exact @reads_bindingStep_name src d ws n b ⟨goal fuel⟩

theorem reads_goal_statement (fuel : Nat) {e : Node} (opens : headKind ws ∈ openingKinds)
    (later : [.semicolon] <:+ ws)
    (operand : Reads src 1 (goal (fuel + 3) (.assignment true)) ws [.semicolon] (·.bare = e)) :
    Reads src 0 (goal (fuel + 4) .statement) ws []
      (·.bare = .plain .expressionStatement [.one .expression e]) := by
  let _ : Grammar := ⟨goal (fuel + 3)⟩
  have expression : Reads src 1 expression ws [.semicolon] (·.bare = e) :=
    reads_expression (readsNames_goal fuel) (by decide) [] (by decide) rfl later operand
  exact .goal (reads_statementStep (by decide) opens
    (reads_expressionStatement (List.nil_suffix) (reads_expressionWithIn expression)))

namespace Document

variable (names : NameTable) {text : String}

theorem size_of_spelled (spelled : text.toList = spell ws) :
    (Source.ofString text).size = extent ws := by
  rw [Source.size_eq]
  exact congrArg (fun cs => (layout cs).length) spelled

/-- The first word is the first token of the source. -/
theorem at_first (spelled : text.toList = spell (w :: ws)) (legible : Legible (w :: ws)) :
    At (.ofString text) 0 (first names {} (.ofString text)) (w :: ws) := by
  have shows : (Source.ofString text).Shows 0 (spell (w :: ws)) :=
    spelled ▸ Source.shows_ofString text
  have size : extent (w :: ws) = (Source.ofString text).size := (size_of_spelled spelled).symm
  generalize Source.ofString text = src at shows size ⊢
  have clear := clear_ofSource {} names src
  have frame := frame_advance .plain clear
  have steady := steady_first names {} src
  have faces : (Scanner.ofSource src false).Faces (spell (w :: ws)) := ⟨rfl, shows⟩
  obtain ⟨on, quiet⟩ := Scanner.on_scan clear.sound.stands faces rfl legible
  refine ⟨steady.clear, source_first _ _ _, frame.scanner.keepsTrivia, steady.follows, rfl, rfl,
    rfl, ?_, Nat.zero_le _, legible, ?_, on.kind, on.value, on.start, on.sameLine, on.faces.whole,
    on.faces.text⟩
  · have none : (Scanner.ofSource src false).scan.pending = #[] := quiet
    show #[] ++ (Scanner.ofSource src false).scan.pending = #[]
    rw [none]
    rfl
  · show 0 + extent (w :: ws) = src.size
    rw [Nat.zero_add, size]

/-- The parse is this statement, but for ranges, flags and numbers, and nothing is reported. -/
def Gives (d : Document) (statement : Node) : Prop :=
  d.diagnostics = #[] ∧ (d.root.childrenAs .statements).map Node.bare = [statement.as .statements]

/-- A source whose words are read as one statement. -/
theorem gives_of_reads {statement : Node} (begun : At src 0 (first names {} src) (w :: ws))
    (more : (w.kind == .endOfFileToken) = false)
    (begins : Reads src 0 (startsElement .sourceElements false) (w :: ws) (w :: ws) (· = true))
    (reads : ∀ fuel, Reads src 0 (goal (fuel + 16) .statement) (w :: ws) [] (·.bare = statement)) :
    (parseWith names {} src).Gives statement := by
  obtain ⟨fuel, bound⟩ : ∃ fuel, depthBound src = fuel + 16 :=
    ⟨depthBound src - 16, by unfold depthBound; omega⟩
  have list : Reads src 0 (listOf .sourceElements (goal (depthBound src) .statement)) (w :: ws) []
      (·.map Node.bare = [statement]) := reads_listOf more begins (bound ▸ reads fuel)
  obtain ⟨made, behind⟩ : (body names {} src).1.map Node.bare = [statement] ∧
      At src 0 (body names {} src).2 [] := list _ begun
  refine ⟨(diagnostics_parseWith ..).trans behind.silent, ?_⟩
  have parts : ((body names {} src).1.map (·.as .statements)).map Node.bare =
      ((body names {} src).1.map Node.bare).map (·.as .statements) := by simp
  rw [childrenAs_statements, parts, made]
  rfl

/-- A source whose words are read as one assignment expression before a semicolon. -/
theorem gives_expression {e : Node} (spelled : text.toList = spell (w :: ws))
    (legible : Legible (w :: ws)) (opens : w.kind ∈ openingKinds) (later : [.semicolon] <:+ ws)
    (operand : ∀ fuel, Reads (.ofString text) 1 (goal (fuel + 15) (.assignment true)) (w :: ws)
      [.semicolon] (·.bare = e)) :
    (parseWith names {} (.ofString text)).Gives
      (.plain .expressionStatement [.one .expression e]) := by
  have more : (headKind (w :: ws) == .endOfFileToken) = false := headKind_beq opens (by decide)
  refine gives_of_reads names (at_first names spelled legible) more (reads_startsElement opens)
    fun fuel => ?_
  exact reads_goal_statement (fuel + 12) opens (later.trans (List.suffix_cons _ _)) (operand fuel)

end Document
end ScriptGrammar
