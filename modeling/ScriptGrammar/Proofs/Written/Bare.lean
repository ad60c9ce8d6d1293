import ScriptGrammar.Proofs.Chain.Nesting

/-!
# Bare trees

Two trees have one shape if they are the same but for ranges, flags and numbers. An omitted
expression is nothing but a place, and keeps its range.
-/

namespace ScriptGrammar

namespace NodeInfo

/-- A node of this kind. -/
def plain (kind : Kind) : NodeInfo := { kind, range := .empty 0, flags := {}, id := 0 }

/-- Without range, flags and number. -/
def bare (i : NodeInfo) : NodeInfo :=
  { plain i.kind with
    range := if i.kind == .omittedExpression then i.range else .empty 0
    modifiers := i.modifiers }

@[simp] theorem kind_bare (i : NodeInfo) : i.bare.kind = i.kind := rfl

theorem bare_eq_plain {i : NodeInfo} (kind : (i.kind == .omittedExpression) = false)
    (unmodified : i.modifiers = {}) : i.bare = plain i.kind := by
  simp [bare, plain, kind, unmodified]

end NodeInfo

mutual

/-- The shape of a tree. -/
def Node.bare : Node → Node
  | .mk i p d l children => .mk i.bare p d l (bareAll children)

def bareAll : List Node → List Node
  | [] => []
  | n :: ns => n.bare :: bareAll ns

end

theorem bareAll_eq_map (ns : List Node) : bareAll ns = ns.map Node.bare := by
  induction ns with
  | nil => rfl
  | cons n ns ih => rw [bareAll, ih, List.map_cons]

def Slot.map (f : Node → Node) : Slot → Slot
  | .one p n => .one p (f n)
  | .opt p n => .opt p (n.map f)
  | .list p ns => .list p (ns.map f)
  | .optList p ns => .optList p (ns.map (List.map f))

namespace Node

variable (n : Node) (p : Part)

theorem children_bare : n.bare.children = n.children.map bare := by
  cases n
  exact bareAll_eq_map _

@[simp] theorem kind_bare : n.bare.kind = n.kind := by
  cases n
  rfl

@[simp] theorem part_bare : n.bare.part = n.part := by
  cases n
  rfl

@[simp] theorem bare_as : (n.as p).bare = n.bare.as p := by
  cases n
  rfl

theorem childAs?_bare : n.bare.childAs? p = (n.childAs? p).map bare := by
  rw [childAs?, children_bare, List.find?_map]
  simp only [childAs?, Function.comp_def, part_bare]

theorem nodes_map_bare (s : Slot) : (s.map bare).nodes = s.nodes.map bare := by
  cases s with
  | one p n => simp [Slot.map, Slot.nodes]
  | opt p n => cases n <;> simp [Slot.map, Slot.nodes]
  | list p ns => simp [Slot.map, Slot.nodes]
  | optList p ns => cases ns <;> simp [Slot.map, Slot.nodes]

theorem optional?_map (f : Node → Node) (s : Slot) : (s.map f).optional? = s.optional? := by
  cases s with
  | optList p ns => cases ns <;> rfl
  | _ => rfl

theorem bare_ofSlots (i : NodeInfo) (d : Detail) (slots : List Slot) :
    (ofSlots i d slots).bare = ofSlots i.bare d (slots.map (·.map bare)) := by
  have nodes : (slots.flatMap Slot.nodes).map bare =
      (slots.map (·.map bare)).flatMap Slot.nodes := by
    simp [List.map_flatMap, List.flatMap_map, nodes_map_bare]
  have lists : (slots.map (·.map bare)).filterMap Slot.optional? =
      slots.filterMap Slot.optional? := by
    simp only [List.filterMap_map, Function.comp_def, optional?_map]
  simp only [ofSlots, bare, bareAll_eq_map, nodes, lists]

/-- A node with these parts. -/
def plain (kind : Kind) (slots : List Slot) : Node := .ofSlots (.plain kind) .none slots

/-- A sign or keyword that stands in the tree. -/
def token (kind : Kind) : Node := .leaf (.plain kind) .none

/-- An element left out before the offset `p`. -/
def hole (p : Nat) : Node :=
  .ofSlots { NodeInfo.plain .omittedExpression with range := .empty p } .none []

end Node

/-- The name as an identifier. -/
def PlainName.node (n : PlainName) : Node := .leaf (.plain .identifier) (.name n.text none)

end ScriptGrammar
