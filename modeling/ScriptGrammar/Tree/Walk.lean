import ScriptGrammar.Tree

/-!
# Walking a tree

A walk enters a node, goes through its children unless told to stay out, and leaves it. The
listing with depths and the parent of each node come from the same order.
-/

namespace ScriptGrammar

inductive Visit where
  | enter (node : Node)
  | leave (node : Node)

mutual

/-- The walk from a node, into those for which `into` holds. -/
def Node.visits (into : Node → Bool) : Node → List Visit
  | n@(.mk _ _ _ _ children) =>
    .enter n :: ((if into n then visitsAll into children else []) ++ [.leave n])

def visitsAll (into : Node → Bool) : List Node → List Visit
  | [] => []
  | n :: ns => n.visits into ++ visitsAll into ns

end

def Visit.entered? : Visit → Option Node
  | .enter n => some n
  | .leave _ => none

def Visit.left? : Visit → Option Node
  | .enter _ => none
  | .leave n => some n

namespace Node

/-- The nodes in the order a full walk leaves them. -/
def postorder (n : Node) : List Node := (n.visits fun _ => true).filterMap Visit.left?

end Node

mutual

/-- The node and all below it, parents first, each with its depth. -/
def Node.outline (depth : Nat) : Node → List (Nat × Node)
  | n@(.mk _ _ _ _ children) => (depth, n) :: outlineAll (depth + 1) children

def outlineAll (depth : Nat) : List Node → List (Nat × Node)
  | [] => []
  | n :: ns => n.outline depth ++ outlineAll depth ns

end

/-- The parent of each node but the root, by id. -/
structure Parents where
  entries : List (Nat × Node)

namespace Parents

/-- Follows a walk with the nodes that are open, innermost first. -/
def collect : List Node → List Visit → List (Nat × Node)
  | _, [] => []
  | above, .enter n :: rest =>
    match above with
    | p :: _ => (n.id, p) :: collect (n :: above) rest
    | [] => collect [n] rest
  | above, .leave _ :: rest => collect above.tail rest

def ofRoot (root : Node) : Parents := ⟨collect [] (root.visits fun _ => true)⟩

variable (m : Parents)

def parent? (id : Nat) : Option Node := (m.entries.find? (·.1 == id)).map (·.2)

def climb : (fuel id : Nat) → List Node
  | 0, _ => []
  | fuel + 1, id =>
    match m.parent? id with
    | some p => p :: climb fuel p.id
    | none => []

def size : Nat := m.entries.length

def isEmpty : Bool := m.entries.isEmpty

/-- The nodes above `id`, nearest first. -/
def ancestors (id : Nat) : List Node := m.climb (m.size + 1) id

end Parents
end ScriptGrammar
