import ScriptGrammar.Proofs.Written.Ambiguity

/-!
# Names in brackets

What names in parentheses or angle brackets are is told by what comes behind: an expression before
a semicolon, the parameters of a function before an arrow, type arguments before a call.
-/

namespace ScriptGrammar

open Parse ScriptGrammar.Parser

variable {src : Source} {d : Nat} {ws : List Word} {f n y : PlainName} {ns : List PlainName}

theorem legible_enclosed {opening closing : Kind} {v : Word}
    (opens : (opening, opening.text?.getD "") ∈ writtenSigns)
    (closes : (closing, closing.text?.getD "") ∈ writtenSigns)
    (apart : (Word.fixed closing false).meets v) (legible : Legible (v :: ws)) :
    Legible (.fixed opening false :: .name n false ::
      (namesBehind ns ++ .fixed closing false :: v :: ws)) := by
  have signs : ∀ e ∈ writtenSigns, e.1.isWord = false := by decide
  have noWord : opening.isWord = false := signs _ opens
  have ends : closing.isWord = false := signs _ closes
  refine .sign opens ?_ (legible_names ns ?_ (.sign closes apart legible))
  · simp [Word.meets, noWord, joiningSigns]
  · simp [ends]

theorem readsTypes_goal (fuel : Nat) : @ReadsTypes ⟨goal (fuel + 2)⟩ src := by
  intro d n b ws room behind
  have operand : Reads src (d + 1) (goal (fuel + 1) (.typeOperand .conditional)) (.name n b :: ws)
      ws (·.bare = n.node.asType) := by
    let _ : Grammar := ⟨goal fuel⟩
    exact .goal (reads_typeOperandStep behind)
  let _ : Grammar := ⟨goal (fuel + 1)⟩
  exact Reads.goal (reads_typeStep room operand)

/-- The names in parentheses, as one expression. -/
def PlainName.inParentheses (n : PlainName) (ns : List PlainName) : Node :=
  .plain .parenthesizedExpression [.one .expression (n.node.joinedByCommas ns)]

theorem reads_goal_parens (fuel : Nat) (room : d + 1 < maxDepth) :
    Reads src d (goal (fuel + 7) (.assignment true)) (inParens n ns [.semicolon]) [.semicolon]
      (·.bare = n.inParentheses ns) := by
  have primary : Reads src (d + 1) (goal (fuel + 5) .primary) (inParens n ns [.semicolon])
      [.semicolon] (·.bare = n.inParentheses ns) := by
    let _ : Grammar := ⟨goal (fuel + 4)⟩
    exact .goal (.token (reads_parenthesized (readsNames_goal (fuel + 1)) room ns))
  let _ : Grammar := ⟨goal (fuel + 6)⟩
  exact .goal (reads_assignmentStep_parens (bindsNames_goal (fuel + 5)) (Nat.lt_of_succ_lt room)
    (by decide) (reads_goal_binary (fuel + 4) (by decide : Kind.openParenToken ∈ openingKinds)
      (by decide) primary))

theorem reads_goal_arrow (fuel : Nat) (room : d + 1 < maxDepth) :
    Reads src d (goal (fuel + 4) (.assignment true))
      (inParens n ns [.fixed .equalsGreaterThanToken true, .name y true, .semicolon]) [.semicolon]
      (·.bare = n.arrow ns y) := by
  let _ : Grammar := ⟨goal (fuel + 3)⟩
  exact .goal (reads_assignmentStep_arrow (bindsNames_goal (fuel + 2)) (readsNames_goal fuel) room
    (by decide))

theorem reads_goal_call (fuel : Nat) (room : d + 1 < maxDepth) :
    Reads src d (goal (fuel + 5) (.assignment true))
      (.name f false :: callWords n ns y [.semicolon]) [.semicolon]
      (·.bare = f.call n ns y) := by
  have binary : Reads src (d + 1) (goal (fuel + 4) (.binary .assignment true))
      (.name f false :: callWords n ns y [.semicolon]) [.semicolon] (·.bare = f.call n ns y) := by
    let _ : Grammar := ⟨goal (fuel + 3)⟩
    exact .goal (reads_binaryStep List.mem_cons_self
      (reads_leftHandSide_call (readsTypes_goal (fuel + 1)) (readsNames_goal fuel) room
        (fun _ => reads_goal_primary (fuel + 2)) (by decide)) (by decide))
  let _ : Grammar := ⟨goal (fuel + 4)⟩
  exact .goal (reads_assignmentStep (Nat.lt_of_succ_lt room) List.mem_cons_self
    (reads_parenthesizedArrow?_other List.mem_cons_self) (reads_simpleArrow?_name rfl) binary)

namespace Document

variable (names : NameTable) (n : PlainName) (ns : List PlainName) (f y : PlainName)

theorem gives_parenthesized :
    (parseWith names {} (.ofString
      ("(" ++ ", ".intercalate ((n :: ns).map (·.text)) ++ ");"))).Gives
      (.plain .expressionStatement [.one .expression (n.inParentheses ns)]) := by
  have legible : Legible (inParens n ns [.semicolon]) :=
    legible_enclosed (by decide) (by decide) rfl legible_semicolon
  refine gives_expression names ?_ legible (by decide) ?_ fun fuel =>
    reads_goal_parens (fuel + 8) (by decide)
  · simp only [String.toList_append, toList_names, spell_cons, spell_append,
      List.append_assoc, Word.chars_name]
    rfl
  · exact ⟨.name n false :: (namesBehind ns ++ [.fixed .closeParenToken false]), by simp⟩

theorem gives_arrow :
    (parseWith names {} (.ofString
      ("(" ++ ", ".intercalate ((n :: ns).map (·.text)) ++ ") => " ++ y.text ++ ";"))).Gives
      (.plain .expressionStatement [.one .expression (n.arrow ns y)]) := by
  have arrow : Legible [.fixed .equalsGreaterThanToken true, .name y true, .semicolon] :=
    .sign (by decide) rfl (.name rfl legible_semicolon)
  have legible : Legible (inParens n ns [.fixed .equalsGreaterThanToken true, .name y true,
      .semicolon]) := legible_enclosed (by decide) (by decide) rfl arrow
  refine gives_expression names ?_ legible (by decide) ?_ fun fuel =>
    reads_goal_arrow (fuel + 11) (by decide)
  · simp only [String.toList_append, toList_names, spell_cons, spell_append,
      List.append_assoc, Word.chars_name]
    rfl
  · exact ⟨.name n false :: (namesBehind ns ++ [.fixed .closeParenToken false,
      .fixed .equalsGreaterThanToken true, .name y true]), by simp⟩

theorem gives_call :
    (parseWith names {} (.ofString
      (f.text ++ "<" ++ ", ".intercalate ((n :: ns).map (·.text)) ++ ">(" ++ y.text ++ ");"))).Gives
      (.plain .expressionStatement [.one .expression (f.call n ns y)]) := by
  have arguments : Legible [.fixed .openParenToken false, .name y false,
      .fixed .closeParenToken false, .semicolon] :=
    .sign (by decide) rfl (.name rfl (.sign (by decide) rfl legible_semicolon))
  have legible : Legible (.name f false :: callWords n ns y [.semicolon]) :=
    .name rfl (legible_enclosed (by decide) (by decide) rfl arguments)
  refine gives_expression names ?_ legible List.mem_cons_self ?_ fun fuel =>
    reads_goal_call (fuel + 10) (by decide)
  · simp only [String.toList_append, toList_names, callWords, inAngles, spell_cons, spell_append,
      List.append_assoc, Word.chars_name]
    rfl
  · exact (List.suffix_cons _ _).trans suffix_callWords

/-- What comes behind names in brackets tells what the brackets are. Before a semicolon names in
parentheses are an expression, with the commas as operators; before an arrow they are the parameters
of a function; and names in angle brackets before a call are its type arguments. -/
theorem brackets_told_by_what_follows :
    let listed := ", ".intercalate ((n :: ns).map (·.text))
    (parseWith names {} (.ofString ("(" ++ listed ++ ");"))).Gives
        (.plain .expressionStatement [.one .expression (n.inParentheses ns)]) ∧
      (parseWith names {} (.ofString ("(" ++ listed ++ ") => " ++ y.text ++ ";"))).Gives
        (.plain .expressionStatement [.one .expression (n.arrow ns y)]) ∧
      (parseWith names {} (.ofString
          (f.text ++ "<" ++ listed ++ ">(" ++ y.text ++ ");"))).Gives
        (.plain .expressionStatement [.one .expression (f.call n ns y)]) :=
  ⟨gives_parenthesized names n ns, gives_arrow names n ns y, gives_call names n ns f y⟩

end Document
end ScriptGrammar
