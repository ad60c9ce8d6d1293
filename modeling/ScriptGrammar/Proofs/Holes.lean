import ScriptGrammar.Proofs.Written.Arrays

/-!
# Arrays with holes

Between two commas of an array an item may be left out, and before the first one too. Such a hole is
an element, but for a last one: the comma before it is no more than a comma behind the last element.
-/

namespace ScriptGrammar

open Parse ScriptGrammar.Parser

variable {src : Source} {d e : Nat} {ws : List Word} {x y : PlainName}
  {items : List (List Word)}

theorem reads_goal_arrayOf (fuel : Nat) (room : d + 1 < maxDepth) (are : AreNames items)
    (left : e + extent (separated items ++ [.fixed .closeBracketToken false, .semicolon]) =
      src.size) :
    Reads src d (goal (fuel + 6) (.assignment true)) (inBrackets items [.semicolon]) [.semicolon]
      (·.bare = arrayOf (shapes (itemShape id) e items)) := by
  have primary : Reads src (d + 1) (goal (fuel + 4) .primary) (inBrackets items [.semicolon])
      [.semicolon] (·.bare = arrayOf (shapes (itemShape id) e items)) := by
    let _ : Grammar := ⟨goal (fuel + 3)⟩
    exact .goal (.token (reads_arrayLiteral (readsNames_goal fuel) room are left))
  have bracket : headKind (inBrackets items [.semicolon]) = .openBracketToken := rfl
  have opens : Kind.openBracketToken ∈ openingKinds := by decide
  let _ : Grammar := ⟨goal (fuel + 5)⟩
  exact .goal (reads_assignmentStep (Nat.lt_of_succ_lt room) opens
    (reads_parenthesizedArrow?_other (by simp [bracket]))
    (reads_simpleArrow?_sign (by simp [bracket]))
    (reads_goal_binary (fuel + 3) opens (by decide) primary))

theorem reads_goal_assigned (fuel : Nat) (room : d + 2 < maxDepth) (are : AreNames items)
    (left : e + extent (separated items ++ [.fixed .closeBracketToken false, .semicolon]) =
      src.size) :
    Reads src d (goal (fuel + 8) (.assignment true))
      (.name x false :: .fixed .equalsToken true :: inBrackets items [.semicolon]) [.semicolon]
      (·.bare = x.node.operation .equalsToken (arrayOf (shapes (itemShape id) e items))) := by
  have later : [.semicolon] <:+ inBrackets items [.semicolon] := suffix_inBrackets
  have binary : Reads src (d + 1) (goal (fuel + 7) (.binary .assignment true))
      (.name x false :: .fixed .equalsToken true :: inBrackets items [.semicolon]) [.semicolon]
      (·.bare = x.node.operation .equalsToken (arrayOf (shapes (itemShape id) e items))) := by
    let _ : Grammar := ⟨goal (fuel + 6)⟩
    refine .goal (.nodeStart fun start began => ?_)
    refine Reads.bind (reads_unary List.mem_cons_self
      (reads_leftHandSide (reads_goal_primary (fuel + 5)) rfl) rfl) fun target made => ?_
    exact reads_assigned began ((later.trans (List.suffix_cons _ _)).trans (List.suffix_cons _ _))
      made later (reads_goal_arrayOf fuel room are left) (by decide)
  let _ : Grammar := ⟨goal (fuel + 7)⟩
  exact .goal (reads_assignmentStep (Nat.lt_of_succ_lt (Nat.lt_of_succ_lt room)) List.mem_cons_self
    (reads_parenthesizedArrow?_other List.mem_cons_self) (reads_simpleArrow?_name rfl) binary)

theorem reads_goal_let (fuel : Nat) (room : d + 1 < maxDepth) (are : AreNames items)
    (left : e + extent (inBrackets items [.fixed .equalsToken true, .name y true, .semicolon]) =
      src.size) :
    Reads src d (goal (fuel + 4) .statement)
      (.fixed .letKeyword false ::
        inBrackets items [.fixed .equalsToken true, .name y true, .semicolon]) []
      (·.bare = .plain .variableStatement [.optList .modifiers none, .one .declarationList
        (declaring [declarationOf
          (patternOf (shapes (itemShape .asBindingElement) (e + 2) items)) y.node])]) := by
  let _ : Grammar := ⟨goal (fuel + 3)⟩
  have binding (e : Nat) (ws : List Word)
      (left : e + extent (separated items ++ .fixed .closeBracketToken false :: ws) = src.size) :
      Reads src (d + 1) (goal (fuel + 3) .binding) (inBrackets items ws) ws
        (·.bare = patternOf (shapes (itemShape .asBindingElement) e items)) := by
    let _ : Grammar := ⟨goal (fuel + 2)⟩
    exact .goal (reads_bindingStep_array (bindsNames_goal (fuel + 1)) are left)
  have words : inBrackets items [.fixed .equalsToken true, .name y true, .semicolon] =
      separated [inBrackets items [.fixed .equalsToken true, .name y true]] ++ [.semicolon] := by
    simp [separated_singleton, inBrackets]
  rw [words] at left ⊢
  exact .goal (reads_letStatement (Nat.lt_of_succ_lt room)
    (lists_pattern (readsNames_goal fuel) room binding) left (by rw [separated_singleton]; rfl))

/-- How an item is written, one that is left out being empty. -/
def itemText (item : Option PlainName) : String := item.elim "" (·.text)

def itemWords : Option PlainName → List Word
  | none => []
  | some n => [.name n false]

/-- The elements: every item, but for a hole behind the last comma. -/
def elementItems (items : List (Option PlainName)) : List (Option PlainName) :=
  match items.getLast? with
  | some none => items.dropLast
  | _ => items

/-- The elements with their offsets, the first one beginning at `e`: a hole is where the comma
behind it is, and `of` makes an element of a name. -/
def placed (of : Node → Node) : Nat → List (Option PlainName) → List Node
  | _, [] => []
  | e, none :: items => .hole e :: placed of (e + 1) items
  | e, some n :: items => of n.node :: placed of (e + n.text.utf8ByteSize + 1) items

theorem areNames_itemWords (items : List (Option PlainName)) : AreNames (items.map itemWords) := by
  intro us among
  obtain ⟨item, -, rfl⟩ := List.mem_map.mp among
  cases item with
  | none => exact .inl rfl
  | some n => exact .inr ⟨n, false, rfl⟩

theorem elementItems_cons_cons (i j : Option PlainName) (items : List (Option PlainName)) :
    elementItems (i :: j :: items) = i :: elementItems (j :: items) := by
  unfold elementItems
  rw [List.getLast?_cons_cons, List.dropLast_cons_cons]
  split <;> rfl

example (n : PlainName) : elementItems [none, some n, none, none] = [none, some n, none] := rfl

theorem length_layout_text (text : String) : (layout text.toList).length = text.utf8ByteSize := by
  have size : (Source.ofString text).size = (layout text.toList).length := Source.size_eq
  exact size.symm.trans Source.size_eq_utf8ByteSize

theorem shapes_itemWords {of : Node → Node} (items : List (Option PlainName)) :
    shapes (itemShape of) e (items.map itemWords) = placed of e (elementItems items) := by
  have element (i : Option PlainName) (e : Nat) (rest : List (Option PlainName)) :
      placed of e (i :: rest) =
        itemShape of e (itemWords i) :: placed of (e + extent (itemWords i) + 1) rest := by
    cases i with
    | none => rfl
    | some n =>
      have size : extent (itemWords (some n)) = n.text.utf8ByteSize := by
        rw [← length_layout_text, extent]
        simp [itemWords]
      rw [size]
      rfl
  induction items generalizing e with
  | nil => rfl
  | cons i items ih =>
    cases items with
    | nil =>
      cases i with
      | none => rfl
      | some n => rfl
    | cons j items =>
      rw [elementItems_cons_cons, element, List.map_cons, shapes, ih]
      simp

/-- A hole is at the comma behind it. -/
theorem charAt?_of_hole {of : Node → Node} {items : List (Option PlainName)} {p : Nat}
    {cs : List Char} (real : ∀ n : PlainName, (of n.node).kind ≠ .omittedExpression)
    (shows : src.Shows e (spell (separated (items.map itemWords)) ++ cs))
    (among : .hole p ∈ placed of e (elementItems items)) : src.charAt? p = some ',' := by
  induction items generalizing e with
  | nil => cases among
  | cons i items ih =>
    cases items with
    | nil =>
      cases i with
      | none => cases among
      | some n =>
        have same := List.mem_singleton.mp among
        exact absurd (same ▸ rfl) (real n)
    | cons j items =>
      rw [elementItems_cons_cons] at among
      rw [List.map_cons, List.map_cons, separated_cons_cons, spell_append, spell_cons,
        Word.chars_comma, List.append_assoc, List.append_assoc, ← List.map_cons] at shows
      cases i with
      | none =>
        rcases List.mem_cons.mp among with same | among
        · have place : p = e := congrArg (fun n : Node => n.info.range.pos) same
          exact place ▸ shows.charAt?
        · exact ih shows.behind among
      | some n =>
        rcases List.mem_cons.mp among with same | among
        · exact absurd (same ▸ rfl) (real n)
        · have name : (layout (spell (itemWords (some n)))).length = n.text.utf8ByteSize := by
            simp [itemWords, length_layout_text]
          exact ih (name ▸ shows.skip.behind) among

/-- As they are written. -/
theorem toList_items (items : List (Option PlainName)) :
    (",".intercalate (items.map itemText)).toList = spell (separated (items.map itemWords)) := by
  have comma : ",".toList = [','] := by decide
  have word (i : Option PlainName) : (itemText i).toList = spell (itemWords i) := by
    cases i with
    | none => rfl
    | some n => simp [itemText, itemWords]
  rw [String.toList_intercalate, comma]
  induction items with
  | nil => rfl
  | cons i items ih =>
    cases items with
    | nil => simp [word, separated_singleton]
    | cons j items =>
      simp only [List.map_cons, word] at ih
      simp only [List.map_cons, List.intercalate_cons_cons, separated_cons_cons, ih, word,
        spell_append, spell_cons, Word.chars_comma, List.append_assoc]

/-- Where items or the bracket behind them begin. -/
def itemKinds : List Kind := [.identifier, .commaToken, .closeBracketToken]

theorem headKind_items (items : List (Option PlainName)) :
    headKind (separated (items.map itemWords) ++ .fixed .closeBracketToken false :: ws) ∈
      itemKinds := by
  cases items with
  | nil => simp [separated, itemKinds]
  | cons i items =>
    cases items with
    | nil => cases i <;> simp [separated_singleton, itemWords, itemKinds]
    | cons j items =>
      cases i <;> simp [separated_cons_cons, itemWords, itemKinds]

/-- No sign runs into an item. -/
theorem meets_items {v : Word} {vs : List Word} (sign : v.kind.isWord = false)
    (items : headKind vs ∈ itemKinds) : ∀ u ∈ vs.head?, v.meets u := by
  rintro u same
  have all : ∀ k ∈ itemKinds, joiningSigns.contains k = false := by decide
  cases vs with
  | nil => cases same
  | cons u' vs =>
    cases same
    have apart := all _ items
    rw [headKind_cons] at apart
    rw [Word.meets, if_neg (by simp [sign]), apart]
    simp

theorem legible_items {v : Word} (items : List (Option PlainName))
    (apart : (Word.fixed .closeBracketToken false).meets v) (legible : Legible (v :: ws)) :
    Legible (separated (items.map itemWords) ++ .fixed .closeBracketToken false :: v :: ws) := by
  have closed : Legible (.fixed .closeBracketToken false :: v :: ws) :=
    .sign (by decide) apart legible
  induction items with
  | nil => exact closed
  | cons i items ih =>
    cases items with
    | nil =>
      rw [List.map_singleton, separated_singleton]
      cases i with
      | none => exact closed
      | some n => exact .name rfl closed
    | cons j items =>
      rw [List.map_cons, List.map_cons, separated_cons_cons, List.append_assoc]
      have more : Legible (.comma :: (separated ((j :: items).map itemWords) ++
          .fixed .closeBracketToken false :: v :: ws)) :=
        ⟨Word.spelled_sign (by decide), meets_items rfl (headKind_items (j :: items)), ih⟩
      cases i with
      | none => exact more
      | some n => exact .name rfl more

theorem legible_inBrackets {v : Word} (items : List (Option PlainName))
    (apart : (Word.fixed .closeBracketToken false).meets v) (legible : Legible (v :: ws)) :
    Legible (inBrackets (items.map itemWords) (v :: ws)) :=
  ⟨Word.spelled_sign (by decide), meets_items rfl (headKind_items items),
    legible_items items apart legible⟩

namespace Document

variable (names : NameTable) (x y : PlainName) (items : List (Option PlainName)) {text : String}
  {p : Nat}

/-- The array begins where the words before it end. -/
theorem charAt?_of_mem_placed (of : Node → Node) (vs : List Word)
    (real : ∀ n : PlainName, (of n.node).kind ≠ .omittedExpression)
    (spelled : text.toList = spell (vs ++ inBrackets (items.map itemWords) ws))
    (among : .hole p ∈ placed of (extent vs + 2) (elementItems items)) :
    (Source.ofString text).charAt? p = some ',' := by
  have shows := Source.shows_ofString text
  rw [spelled, spell_append] at shows
  have bracket : (Word.fixed .openBracketToken true).chars = [' ', '['] := by decide
  have inside := shows.skip
  rw [inBrackets, spell_cons, bracket, spell_append, Nat.zero_add] at inside
  exact charAt?_of_hole real inside.skip among

theorem gives_arrayLiteral :
    let text := x.text ++ " = [" ++ ",".intercalate (items.map itemText) ++ "];"
    let elements := placed id (x.text.utf8ByteSize + 4) (elementItems items)
    (parseWith names {} (.ofString text)).Gives (.plain .expressionStatement
      [.one .expression (x.node.operation .equalsToken (arrayOf elements))]) ∧
    ∀ p, .hole p ∈ elements → (Source.ofString text).charAt? p = some ',' := by
  intro text elements
  let before : List Word := [.name x false, .fixed .equalsToken true]
  have spelled : text.toList =
      spell (before ++ inBrackets (items.map itemWords) [.semicolon]) := by
    simp only [text, before, inBrackets, String.toList_append, toList_items, List.cons_append,
      List.nil_append, spell_cons, spell_append, List.append_assoc, Word.chars_name]
    rfl
  have start : extent before = x.text.utf8ByteSize + 2 := by
    have sign : (Word.fixed .equalsToken true).chars = [' ', '='] := by decide
    have blank : (layout [' ', '=']).length = 2 := by decide
    simp [before, extent, sign, blank, length_layout_append, length_layout_text]
  refine ⟨?_, fun p among => ?_⟩
  · have array : Legible (inBrackets (items.map itemWords) [.semicolon]) :=
      legible_inBrackets items rfl legible_semicolon
    have legible : Legible (before ++ inBrackets (items.map itemWords) [.semicolon]) :=
      .name rfl (.sign (by decide) rfl array)
    have whole := size_of_spelled spelled
    rw [extent_append, extent_inBrackets, start] at whole
    rw [show elements = _ from (shapes_itemWords items).symm]
    refine gives_expression names spelled legible List.mem_cons_self
      (suffix_inBrackets.trans (List.suffix_cons _ _)) fun fuel => ?_
    exact reads_goal_assigned (fuel + 7) (by decide) (areNames_itemWords items) (by omega)
  · have real : Kind.identifier ≠ .omittedExpression := by decide
    exact charAt?_of_mem_placed items id before (fun _ => real) spelled (by rw [start]; exact among)

theorem gives_arrayPattern :
    let text := "let [" ++ ",".intercalate (items.map itemText) ++ "] = " ++ y.text ++ ";"
    let elements := placed .asBindingElement 5 (elementItems items)
    (parseWith names {} (.ofString text)).Gives (.plain .variableStatement
      [.optList .modifiers none,
        .one .declarationList (declaring [declarationOf (patternOf elements) y.node])]) ∧
    ∀ p, .hole p ∈ elements → (Source.ofString text).charAt? p = some ',' := by
  intro text elements
  let before : List Word := [.fixed .letKeyword false]
  let behind : List Word := [.fixed .equalsToken true, .name y true, .semicolon]
  have spelled : text.toList = spell (before ++ inBrackets (items.map itemWords) behind) := by
    simp only [text, before, behind, inBrackets, String.toList_append, toList_items,
      List.cons_append, List.nil_append, spell_cons, spell_append, List.append_assoc,
      Word.chars_name]
    rfl
  have start : extent before = 3 := by decide
  refine ⟨?_, fun p among => ?_⟩
  · have value : Legible behind := .sign (by decide) rfl (.name rfl legible_semicolon)
    have keyword : (Word.fixed .letKeyword false).Spelled :=
      .word (by decide) (List.all_eq_true.mp (by decide)) (by decide)
    have legible : Legible (before ++ inBrackets (items.map itemWords) behind) :=
      .cons keyword rfl (legible_inBrackets items rfl value)
    have whole := size_of_spelled spelled
    rw [extent_append, start] at whole
    rw [show elements = _ from (shapes_itemWords items).symm]
    refine gives_of_reads names (at_first names spelled legible) rfl ?_ fun fuel => ?_
    · exact .token (.token (.pure rfl))
    · exact reads_goal_let (fuel + 12) (by decide) (areNames_itemWords items) whole.symm
  · have real : Kind.bindingElement ≠ .omittedExpression := by decide
    exact charAt?_of_mem_placed items .asBindingElement before (fun _ => real) spelled
      (by rw [start]; exact among)

/-- The elements of an array are its items, the holes among them, but for a hole behind the last
comma. So it is where an array is assigned to `x` and where a pattern takes `y` apart. A hole has no
width, and is at the comma behind it. -/
theorem arrays_keep_holes_before_commas :
    let listed := ",".intercalate (items.map itemText)
    let literal := x.text ++ " = [" ++ listed ++ "];"
    let pattern := "let [" ++ listed ++ "] = " ++ y.text ++ ";"
    let elements := placed id (x.text.utf8ByteSize + 4) (elementItems items)
    let bound := placed .asBindingElement 5 (elementItems items)
    ((parseWith names {} (.ofString literal)).Gives (.plain .expressionStatement
        [.one .expression (x.node.operation .equalsToken (arrayOf elements))]) ∧
      ∀ p, .hole p ∈ elements → (Source.ofString literal).charAt? p = some ',') ∧
    (parseWith names {} (.ofString pattern)).Gives (.plain .variableStatement
        [.optList .modifiers none,
          .one .declarationList (declaring [declarationOf (patternOf bound) y.node])]) ∧
      ∀ p, .hole p ∈ bound → (Source.ofString pattern).charAt? p = some ',' :=
  ⟨gives_arrayLiteral names x items, gives_arrayPattern names y items⟩

end Document
end ScriptGrammar
