import ScriptGrammar.Proofs.Parse.Goals
import ScriptGrammar.Tree.Walk

/-!
# What holds everywhere in a tree

A property of a node and of its children, or of what they carry, at a node and at all nodes below
it. The part a node plays in its parent does not matter.
-/

namespace ScriptGrammar

namespace Node

/-- `P` holds between each node and its children, from here down. -/
inductive Everywhere (P : NodeInfo → List NodeInfo → Prop) : Node → Prop where
  | intro {n : Node} (here : P n.info (n.children.map info))
      (below : ∀ c ∈ n.children, Everywhere P c) : Everywhere P n

variable {P : NodeInfo → List NodeInfo → Prop} {n : Node}

theorem Everywhere.as (h : n.Everywhere P) (p : Part) : (n.as p).Everywhere P := by
  cases h with
  | intro here below =>
    refine .intro ?_ ?_
    · rw [info_as, children_as]
      exact here
    · rw [children_as]
      exact below

theorem infos_nodes (slots : List Slot) :
    (slots.flatMap Slot.nodes).map info = (slots.flatMap held).map info := by
  induction slots with
  | nil => rfl
  | cons slot slots ih =>
    obtain ⟨p, same⟩ := slot.nodes_eq
    simp [same, ih]

theorem Everywhere.ofSlots {node : NodeInfo} {slots : List Slot} (detail : Detail)
    (here : P node ((slots.flatMap held).map info))
    (below : ∀ c ∈ slots.flatMap held, c.Everywhere P) :
    (Node.ofSlots node detail slots).Everywhere P := by
  refine .intro ?_ fun c hc => ?_
  · rw [children_ofSlots, infos_nodes]
    exact here
  · obtain ⟨slot, hs, hc⟩ := List.mem_flatMap.mp hc
    obtain ⟨p, same⟩ := slot.nodes_eq
    rw [same] at hc
    obtain ⟨m, hm, rfl⟩ := List.mem_map.mp hc
    exact (below m (List.mem_flatMap.mpr ⟨slot, hs, hm⟩)).as p

theorem Everywhere.leaf {node : NodeInfo} (detail : Detail) (here : P node []) :
    (Node.leaf node detail).Everywhere P := .intro here fun _ no => (nomatch no)

theorem left_visitsAll (ns : List Node) :
    (visitsAll (fun _ => true) ns).filterMap Visit.left? = ns.flatMap postorder := by
  induction ns with
  | nil => rfl
  | cons n ns ih => simp [visitsAll, ih, postorder]

theorem postorder_eq (n : Node) : n.postorder = n.children.flatMap postorder ++ [n] := by
  cases n with
  | mk i p d l c =>
    rw [postorder, visits, if_pos rfl, List.filterMap_cons_none rfl, List.filterMap_append,
      left_visitsAll]
    rfl

/-- What `P` hands down from a node to its children holds of all nodes. -/
theorem Everywhere.descend {Q : NodeInfo → Prop} (h : n.Everywhere P) (top : Q n.info)
    (down : ∀ parent children, P parent children → Q parent → ∀ c ∈ children, Q c) :
    ∀ m ∈ n.postorder, P m.info (m.children.map info) ∧ Q m.info := by
  induction h with
  | @intro n here _ ih =>
    intro m hm
    rw [postorder_eq] at hm
    rcases List.mem_append.mp hm with below | last
    · obtain ⟨c, hc, hm⟩ := List.mem_flatMap.mp below
      exact ih c hc (down _ _ here top c.info (List.mem_map_of_mem hc)) m hm
    · rw [List.mem_singleton.mp last]
      exact ⟨here, top⟩

theorem Everywhere.all (h : n.Everywhere P) :
    ∀ m ∈ n.postorder, P m.info (m.children.map info) := fun m hm =>
  (h.descend (Q := fun _ => True) trivial (fun _ _ _ _ _ _ => trivial) m hm).1

theorem sizeOf_lt_of_mem_children {c : Node} (h : c ∈ n.children) : sizeOf c < sizeOf n := by
  cases n with
  | mk i p d l children =>
    have := List.sizeOf_lt_of_mem (show c ∈ children from h)
    simp only [mk.sizeOf_spec]
    omega

/-- What a node has if its children have it. -/
@[elab_as_elim]
theorem inductionOn {motive : Node → Prop} (n : Node)
    (node : ∀ n : Node, (∀ c ∈ n.children, motive c) → motive n) : motive n :=
  node n fun c hc =>
    have := sizeOf_lt_of_mem_children hc
    inductionOn c node
termination_by sizeOf n

theorem everywhere_of_forall {n : Node} (all : ∀ m ∈ n.postorder, P m.info (m.children.map info)) :
    n.Everywhere P := by
  induction n using inductionOn with
  | node n ih =>
    rw [postorder_eq] at all
    refine .intro (all n (by simp)) fun c hc => ih c hc fun m hm => ?_
    exact all m (List.mem_append_left _ (List.mem_flatMap.mpr ⟨c, hc, hm⟩))

theorem sublist_children {c : Node} (hc : c ∈ n.children) :
    c.postorder.Sublist (n.children.flatMap postorder) := by
  rw [List.flatMap_def]
  exact List.sublist_flatten_of_mem (List.mem_map_of_mem hc)

section Nodes

variable {P : Node → Prop}

theorem forall_postorder_as (as : ∀ (m : Node) (p : Part), P m → P (m.as p)) (p : Part)
    (all : ∀ m ∈ n.postorder, P m) : ∀ m ∈ (n.as p).postorder, P m := by
  rw [postorder_eq] at all
  rw [postorder_eq, children_as]
  intro m hm
  rcases List.mem_append.mp hm with below | last
  · exact all m (List.mem_append_left _ below)
  · rw [List.mem_singleton.mp last]
    exact as n p (all n (by simp))

theorem forall_postorder_slots {slots : List Slot}
    (as : ∀ (m : Node) (p : Part), P m → P (m.as p))
    (below : ∀ c ∈ slots.flatMap held, ∀ m ∈ c.postorder, P m) :
    ∀ c ∈ slots.flatMap Slot.nodes, ∀ m ∈ c.postorder, P m := by
  intro c hc m hm
  obtain ⟨slot, hs, hc⟩ := List.mem_flatMap.mp hc
  obtain ⟨p, same⟩ := slot.nodes_eq
  rw [same] at hc
  obtain ⟨k, hk, rfl⟩ := List.mem_map.mp hc
  exact forall_postorder_as as p (below k (List.mem_flatMap.mpr ⟨slot, hs, hk⟩)) m hm

theorem forall_postorder_ofSlots {node : NodeInfo} {detail : Detail} {slots : List Slot}
    (as : ∀ (m : Node) (p : Part), P m → P (m.as p)) (here : P (ofSlots node detail slots))
    (below : ∀ c ∈ slots.flatMap held, ∀ m ∈ c.postorder, P m) :
    ∀ m ∈ (ofSlots node detail slots).postorder, P m := by
  rw [postorder_eq, children_ofSlots]
  intro m hm
  rcases List.mem_append.mp hm with inner | last
  · obtain ⟨c, hc, hm⟩ := List.mem_flatMap.mp inner
    exact forall_postorder_slots as below c hc m hm
  · rw [List.mem_singleton.mp last]
    exact here

end Nodes

section Throughout

variable {P : Kind → Range → Detail → List Node → Prop}

/-- `P` holds of each node from here down. -/
def Throughout (P : Kind → Range → Detail → List Node → Prop) (n : Node) : Prop :=
  ∀ m ∈ n.postorder, P m.kind m.range m.detail m.children

theorem throughout_iff :
    n.Throughout P ↔ P n.kind n.range n.detail n.children ∧ ∀ c ∈ n.children, c.Throughout P := by
  unfold Throughout
  rw [postorder_eq]
  constructor
  · intro all
    refine ⟨all n (by simp), fun c hc m hm => all m ?_⟩
    exact List.mem_append_left _ (List.mem_flatMap.mpr ⟨c, hc, hm⟩)
  · rintro ⟨here, below⟩ m hm
    rcases List.mem_append.mp hm with inner | last
    · obtain ⟨c, hc, hm⟩ := List.mem_flatMap.mp inner
      exact below c hc m hm
    · rw [List.mem_singleton.mp last]
      exact here

theorem throughout_ofSlots {node : NodeInfo} {detail : Detail} {slots : List Slot}
    (here : P node.kind node.range detail (slots.flatMap Slot.nodes))
    (below : ∀ c ∈ slots.flatMap held, c.Throughout P) :
    (ofSlots node detail slots).Throughout P :=
  forall_postorder_ofSlots (fun m p hm => by simpa using hm) here below

end Throughout

end Node

namespace Parse

/-- What holds of every node as it is made holds of the nodes that are left and of all below them.
Made of its own is every node but the name in a closing tag that is missing. -/
theorem Yields.forall_made {P : Source → Node → Prop}
    (as : ∀ (src : Source) (m : Node) (p : Part), P src m → P src (m.as p))
    (made : ∀ {s t : State} {n : Node}, Yields s t [n] → s.Steady → P s.scanner.source n)
    (tagName : ∀ {s : State}, s.Steady → s.options.isJsx → s.Blamed → P s.scanner.source
      (.leaf ((s.closeMissing .jsxClosingElement).2.closeMissing .identifier).1 (.name "" none)))
    {s t : State} {ns : List Node} (y : Yields s t ns) (h : s.Steady) :
    ∀ n ∈ ns, ∀ m ∈ n.postorder, P s.scanner.source m := by
  have whole {s t : State} {info : NodeInfo} {detail : Detail} {slots : List Slot}
      (y : Yields s t [.ofSlots info detail slots]) (h : s.Steady)
      (below : ∀ n ∈ slots.flatMap held, ∀ m ∈ n.postorder, P s.scanner.source m) :
      ∀ n ∈ [Node.ofSlots info detail slots], ∀ m ∈ n.postorder, P s.scanner.source m :=
    List.forall_mem_singleton.mpr (Node.forall_postorder_ofSlots (as _) (made y h) below)
  induction y with
  | refl | advance | greater | enterName | rolledBack => exact fun _ no => (nomatch no)
  | trans first second ih₁ ih₂ =>
    intro n hn
    rcases List.mem_append.mp hn with hn | hn
    · exact ih₁ h n hn
    · exact (first.frame h).scanner.source ▸ ih₂ (first.keeps h).steady n hn
  | drop _ sub ih => exact fun n hn => ih h n (sub.subset hn)
  | settle r _ settled _ _ ih =>
    exact fun n hn => (frame_reread r h.clear).scanner.source ▸ ih (h.reread r settled) n hn
  | inContext c _ ih => exact ih (h.inContext c)
  | inList l _ ih => exact ih (h.inList l)
  | nested _ ih => exact ih (h.nested _)
  | kept _ ih => exact ih h.openAttempt
  | report _ _ _ _ _ ih => exact ih h
  | node kind detail slots y marked formed tiered joins ih =>
    exact whole (.node kind detail slots y marked formed tiered joins) h (ih h)
  | around kind slots y fits formed tiered joins ih =>
    exact whole (.around kind slots y fits formed tiered joins) h (fits ▸ ih h)
  | @missing kind detail s blamed other single =>
    have none : ∀ n ∈ ([] : List Slot).flatMap held, ∀ m ∈ n.postorder,
        P s.scanner.source m := fun _ no => (nomatch no)
    exact whole (.missing kind detail blamed other single) h none
  | missingAround kind slots some y fits missing at_ formed tiered ih =>
    exact whole (.missingAround kind slots some y fits missing at_ formed tiered) h (fits ▸ ih h)
  | missingTag jsx blamed =>
    refine whole (.missingTag jsx blamed) h (List.forall_mem_singleton.mpr fun m hm => ?_)
    rw [Node.postorder_eq] at hm
    obtain rfl := List.mem_singleton.mp hm
    exact tagName h jsx blamed

end Parse

namespace Document

variable (names : NameTable) (options : Options) (src : Source)

theorem everywhere_root {P : NodeInfo → List NodeInfo → Prop}
    (here : P (parseWith names options src).root.info
      ((inner names options src).map Node.info))
    (below : ∀ n ∈ inner names options src, n.Everywhere P) :
    (parseWith names options src).root.Everywhere P := by
  have held : [Slot.list .statements (body names options src).1,
      .one .endOfFileToken (ending names options src).1].flatMap held =
      inner names options src := by
    simp [inner]
  rw [← held] at here below
  rw [parseWith_eq, run_eq] at here ⊢
  exact .ofSlots _ here below

theorem forall_postorder_root {P : Node → Prop} (as : ∀ (m : Node) (p : Part), P m → P (m.as p))
    (here : P (parseWith names options src).root)
    (below : ∀ n ∈ inner names options src, ∀ m ∈ n.postorder, P m) :
    ∀ m ∈ (parseWith names options src).root.postorder, P m := by
  rw [parseWith_eq, run_eq] at here ⊢
  exact Node.forall_postorder_ofSlots as here fun n hn => below n (by simpa [inner] using hn)

theorem throughout_root {P : Kind → Range → Detail → List Node → Prop}
    (here : P .sourceFile (parseWith names options src).root.range
      (parseWith names options src).root.detail (parseWith names options src).root.children)
    (below : ∀ n ∈ inner names options src, n.Throughout P) :
    (parseWith names options src).root.Throughout P := by
  refine forall_postorder_root names options src (fun m p hm => by simpa using hm) ?_ below
  rw [parseWith_eq, run_eq] at here ⊢
  exact here

end Document
end ScriptGrammar
