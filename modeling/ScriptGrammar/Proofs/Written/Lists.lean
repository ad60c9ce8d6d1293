import ScriptGrammar.Proofs.Written.Operands

/-!
# Reading lists

A list with commas is read item by item. An item may be left out where the list takes that, so that
two commas follow one another or one stands first; a comma behind the last item is no more than
that.
-/

namespace ScriptGrammar

open Parse ScriptGrammar.Parser

/-- The comma between two items. -/
def Word.comma : Word := .fixed .commaToken false

@[simp] theorem Word.kind_comma : Word.comma.kind = .commaToken := rfl

@[simp] theorem Word.chars_comma : Word.comma.chars = [','] := by decide

/-- Items with a comma between any two. One that is left out has no words. -/
def separated (items : List (List Word)) : List Word := [Word.comma].intercalate items

theorem separated_singleton (us : List Word) : separated [us] = us := List.intercalate_singleton

theorem separated_cons_cons (us vs : List Word) (items : List (List Word)) :
    separated (us :: vs :: items) = us ++ Word.comma :: separated (vs :: items) := by
  simp [separated, List.intercalate_cons_cons]

/-- What the elements are, `shape` telling that of an item that begins at an offset; the first one
begins at `e`. If the last item is left out, there is no element for it. -/
def shapes (shape : Nat → List Word → Node) : (e : Nat) → List (List Word) → List Node
  | _, [] | _, [[]] => []
  | e, us :: items => shape e us :: shapes shape (e + extent us + 1) items

variable {src : Source} {d e : Nat} {c : ListContext} {element : Parser Node} {closer : Word}
  {us rest : List Word} {items : List (List Word)} {shape : Nat → List Word → Node}

/-- The list `c` goes by these items, up to the token that closes it. -/
structure Lists (src : Source) (d : Nat) (c : ListContext) (element : Parser Node)
    (shape : Nat → List Word → Node) (items : List (List Word)) (closer : Word)
    (rest : List Word) : Prop where
  /-- An item begins with its first word, or with the comma behind it. -/
  starts : ∀ us ∈ items, ∀ v vs, v = .comma ∨ v = closer ∧ us ≠ [] →
    Reads src d (startsElement c false) (us ++ v :: vs) (us ++ v :: vs) (· = true)
  reads : ∀ us ∈ items, ∀ v vs, v = .comma ∨ v = closer ∧ us ≠ [] →
    ∀ e, e + extent (us ++ v :: vs) = src.size →
      Reads src d element (us ++ v :: vs) (v :: vs) (·.bare = shape e us)
  stops : Reads src d (startsElement c false) (closer :: rest) (closer :: rest) (· = false)
  ends : ∀ s, At src d s (closer :: rest) → s.endsList c = true
  noComma : (closer.kind == .commaToken) = false
  trails : [] ∈ items → c.allowsTrailingComma

namespace Lists

/-- An item and the comma behind it. -/
theorem turn_comma (h : Lists src d c element shape items closer rest) (among : us ∈ items)
    {vs : List Word} (left : e + extent (us ++ .comma :: vs) = src.size) (found : Delimited) :
    Reads src d (delimitedTurn c element found) (us ++ .comma :: vs) vs fun x =>
      ∃ node comma, x = .again ⟨node :: found.elements, some comma⟩ ∧ node.bare = shape e us := by
  refine (h.starts us among _ vs (.inl rfl)).known ?_
  refine .look fun pos => (h.reads us among _ vs (.inl rfl) e left).bind fun node made => ?_
  exact .ifAt rfl (.look fun comma => Reads.next.bind fun _ _ => .pure ⟨node, comma, rfl, made⟩)

/-- The last item. -/
theorem turn_last (h : Lists src d c element shape items closer rest) (among : us ∈ items)
    (some : us ≠ []) (left : e + extent (us ++ closer :: rest) = src.size) (found : Delimited) :
    Reads src d (delimitedTurn c element found) (us ++ closer :: rest) (closer :: rest) fun x =>
      ∃ node, x = .done ⟨node :: found.elements, none⟩ ∧ node.bare = shape e us := by
  refine (h.starts us among _ rest (.inr ⟨rfl, some⟩)).known ?_
  have item := h.reads us among _ rest (.inr ⟨rfl, some⟩) e left
  refine .look fun pos => item.bind fun node made => ?_
  refine .ifNotAt h.noComma (.read h.ends ?_)
  exact .pure ⟨node, rfl, made⟩

theorem turn_end (h : Lists src d c element shape items closer rest) (found : Delimited) :
    Reads src d (delimitedTurn c element found) (closer :: rest) (closer :: rest)
      (· = .done found) := by
  refine h.stops.known ?_
  exact .read h.ends (.pure rfl)

/-- What is found so far, where the items `left` are still ahead. -/
structure Found (shape : Nat → List Word → Node) (e : Nat) (items : List (List Word)) (e' : Nat)
    (left : List (List Word)) (found : Delimited) : Prop where
  sub : left ⊆ items
  elements : found.elements.reverse.map Node.bare ++ shapes shape e' left = shapes shape e items
  comma : found.trailingComma = none ∨ left ≠ []

theorem reads_loop (h : Lists src d c element shape items closer rest)
    (left : e + extent (separated items ++ closer :: rest) = src.size) :
    Reads src d (loop {} (delimitedTurn c element)) (separated items ++ closer :: rest)
      (closer :: rest) fun found => found.elements.reverse.map Node.bare = shapes shape e items ∧
        (found.trailingComma = none ∨ [] ∈ items) := by
  refine .loop (fun found us => ∃ e' ahead, us = separated ahead ++ closer :: rest ∧
    e' + extent us = src.size ∧ Found shape e items e' ahead found)
    ⟨e, items, rfl, left, List.Subset.refl _, rfl, .inl rfl⟩ ?_
  rintro found _ ⟨e', ahead, rfl, left, sub, elements, comma⟩
  match ahead with
  | [] =>
    have none : found.trailingComma = none := comma.resolve_right fun some => some rfl
    refine ⟨closer :: rest, (h.turn_end found).mono ?_⟩
    rintro _ rfl
    exact ⟨⟨by simpa [shapes] using elements, .inl none⟩, rfl⟩
  | [[]] =>
    refine ⟨closer :: rest, (h.turn_end found).mono ?_⟩
    rintro _ rfl
    exact ⟨⟨by simpa [shapes] using elements, .inr (sub (by simp))⟩, rfl⟩
  | [u :: us] =>
    rw [separated_singleton] at left ⊢
    refine ⟨closer :: rest, (h.turn_last (sub (by simp)) (by simp) left found).mono ?_⟩
    rintro _ ⟨node, rfl, made⟩
    exact ⟨⟨by simpa [shapes, made] using elements, .inl rfl⟩, rfl⟩
  | us :: vs :: ahead =>
    have first : separated (us :: vs :: ahead) ++ closer :: rest =
        us ++ .comma :: (separated (vs :: ahead) ++ closer :: rest) := by
      rw [separated_cons_cons, List.append_assoc, List.cons_append]
    rw [first] at left ⊢
    refine ⟨separated (vs :: ahead) ++ closer :: rest,
      (h.turn_comma (sub (by simp)) left found).mono ?_⟩
    rintro _ ⟨node, comma, rfl, made⟩
    refine ⟨⟨e' + extent us + 1, vs :: ahead, rfl, ?_, ?_, ?_, .inr (by simp)⟩, .comma, ?_⟩
    · have one : extent (Word.comma :: (separated (vs :: ahead) ++ closer :: rest)) =
          1 + extent (separated (vs :: ahead) ++ closer :: rest) := extent_cons _ _
      rw [extent_append, one] at left
      omega
    · exact fun i hi => sub (List.mem_cons_of_mem _ hi)
    · rw [← elements]
      simp [shapes, made]
    · exact List.suffix_append _ _

theorem reads_delimited (h : Lists src d c element shape items closer rest)
    (left : e + extent (separated items ++ closer :: rest) = src.size) :
    Reads src d (delimited c element) (separated items ++ closer :: rest) (closer :: rest)
      fun list => list.elements.map Node.bare = shapes shape e items ∧
        (list.trailingComma = none ∨ [] ∈ items) := by
  unfold delimited
  refine (Reads.inList (h.reads_loop left)).bind ?_
  rintro found ⟨elements, comma⟩
  cases trailing : found.trailingComma with
  | none => exact .pure ⟨elements, .inl rfl⟩
  | some range =>
    have hole : [] ∈ items := comma.resolve_left (by simp [trailing])
    dsimp only
    rw [h.trails hole]
    exact .pure ⟨elements, .inr hole⟩

end Lists

end ScriptGrammar
