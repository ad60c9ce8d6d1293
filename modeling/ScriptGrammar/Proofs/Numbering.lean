import Mathlib.Data.List.Basic
import Mathlib.Data.List.Flatten
import ScriptGrammar.Proofs.Everywhere

/-!
# The numbers of the nodes

A node gets its number when it is closed, from a counter that an abandoned attempt turns back. No
number occurs twice in a tree all the same: what a parse leaves was numbered between the counter
before it and the counter behind it, and an abandoned attempt leaves nothing. In plain source a
node is closed behind all it holds, so the numbers go up in the order a walk leaves the nodes.
Markup has one node that is numbered before its child.
-/

namespace ScriptGrammar

open Parse

namespace Node

/-- The numbers of the node and of all below it, in the order a walk leaves them. -/
def ids (n : Node) : List Nat := n.postorder.map id

theorem ids_eq (n : Node) : n.ids = n.children.flatMap ids ++ [n.id] := by
  unfold ids
  rw [postorder_eq, List.map_append, List.map_flatMap, List.map_singleton]

theorem ids_as (n : Node) (p : Part) : (n.as p).ids = n.ids := by
  have id : (n.as p).id = n.id := congrArg NodeInfo.id (info_as n p)
  rw [ids_eq, ids_eq n, children_as, id]

theorem ids_ofSlots (info : NodeInfo) (detail : Detail) (slots : List Slot) :
    (ofSlots info detail slots).ids = (slots.flatMap held).flatMap ids ++ [info.id] := by
  have inner : (slots.flatMap Slot.nodes).flatMap ids = (slots.flatMap held).flatMap ids := by
    rw [List.flatMap_assoc, List.flatMap_assoc]
    apply List.flatMap_congr
    intro slot _
    obtain ⟨p, same⟩ := slot.nodes_eq
    rw [same, List.flatMap_map]
    exact List.flatMap_congr fun n _ => ids_as n p
  rw [ids_eq, children_ofSlots, inner]
  rfl

theorem ids_leaf (info : NodeInfo) (detail : Detail) : (leaf info detail).ids = [info.id] :=
  ids_ofSlots info detail []

/-- What a walk leaves of a node inside another, it leaves in the same order. -/
theorem postorder_sublist {m n : Node} (h : m ∈ n.postorder) :
    m.postorder.Sublist n.postorder := by
  induction n using inductionOn with
  | node n ih =>
    rw [postorder_eq] at h
    rcases List.mem_append.mp h with below | last
    · obtain ⟨c, hc, hm⟩ := List.mem_flatMap.mp below
      rw [postorder_eq n]
      exact (ih c hc hm).trans ((sublist_children hc).trans (List.sublist_append_left _ _))
    · rw [List.mem_singleton.mp last]

variable {m n root : Node}

/-- Where the numbers go up, a node has a greater one than all below it. -/
theorem id_lt_of_below (up : root.ids.Pairwise (· < ·)) (hn : n ∈ root.postorder)
    (hm : m ∈ n.children.flatMap postorder) : m.id < n.id := by
  have ids : n.ids.Pairwise (· < ·) := up.sublist ((postorder_sublist hn).map id)
  rw [ids_eq] at ids
  obtain ⟨c, hc, hm⟩ := List.mem_flatMap.mp hm
  have below : m.id ∈ n.children.flatMap Node.ids :=
    List.mem_flatMap.mpr ⟨c, hc, List.mem_map_of_mem hm⟩
  exact (List.pairwise_append.mp ids).2.2 _ below _ (List.mem_singleton_self _)

theorem mem_postorder_self (n : Node) : n ∈ n.postorder := by
  rw [postorder_eq]
  exact List.mem_append_right _ (List.mem_singleton_self n)

theorem id_le_root (up : root.ids.Pairwise (· < ·)) (hn : n ∈ root.postorder) :
    n.id ≤ root.id := by
  rw [postorder_eq] at hn
  rcases List.mem_append.mp hn with below | last
  · exact Nat.le_of_lt (id_lt_of_below up (mem_postorder_self root) below)
  · exact Nat.le_of_eq (congrArg id (List.mem_singleton.mp last))

end Node

/-- Two numbers in the order they are met: they differ, and in plain source they go up. -/
structure Apart (jsx : Bool) (i j : Nat) : Prop where
  ne : i ≠ j
  lt : jsx = false → i < j

/-- Numbers given out while the counter went from `a` to `b`. -/
structure Numbered (jsx : Bool) (a b : Nat) (ids : List Nat) : Prop where
  count : a ≤ b
  since : ∀ i ∈ ids, a ≤ i
  before : ∀ i ∈ ids, i < b
  apart : ids.Pairwise (Apart jsx)

namespace Numbered

variable {jsx : Bool} {a b c : Nat} {is js : List Nat}

theorem none (a : Nat) : Numbered jsx a a [] :=
  ⟨Nat.le_refl a, fun _ no => (nomatch no), fun _ no => (nomatch no), .nil⟩

theorem one (a : Nat) : Numbered jsx a (a + 1) [a] :=
  ⟨Nat.le_succ a, List.forall_mem_singleton.mpr (Nat.le_refl a),
    List.forall_mem_singleton.mpr (Nat.lt_succ_self a), List.pairwise_singleton _ _⟩

theorem drop (h : Numbered jsx a b js) (sub : is.Sublist js) : Numbered jsx a b is :=
  ⟨h.count, fun i hi => h.since i (sub.subset hi), fun i hi => h.before i (sub.subset hi),
    h.apart.sublist sub⟩

theorem trans (h : Numbered jsx a b is) (k : Numbered jsx b c js) :
    Numbered jsx a c (is ++ js) := by
  refine ⟨Nat.le_trans h.count k.count, fun i hi => ?_, fun i hi => ?_, ?_⟩
  · rcases List.mem_append.mp hi with hi | hi
    · exact h.since i hi
    · exact Nat.le_trans h.count (k.since i hi)
  · rcases List.mem_append.mp hi with hi | hi
    · exact Nat.lt_of_lt_of_le (h.before i hi) k.count
    · exact k.before i hi
  · refine List.pairwise_append.mpr ⟨h.apart, k.apart, fun i hi j hj => ?_⟩
    have lt : i < j := Nat.lt_of_lt_of_le (h.before i hi) (k.since j hj)
    exact ⟨Nat.ne_of_lt lt, fun _ => lt⟩

/-- With markup the numbers are only known to differ, so their order does not matter. -/
theorem perm (h : Numbered true a b is) (same : is.Perm js) : Numbered true a b js := by
  refine ⟨h.count, fun i hi => h.since i (same.mem_iff.mpr hi),
    fun i hi => h.before i (same.mem_iff.mpr hi), h.apart.perm same fun apart => ?_⟩
  exact ⟨Ne.symm apart.ne, fun no => (nomatch no)⟩

theorem nodup (h : Numbered jsx a b is) : is.Nodup := h.apart.imp Apart.ne

theorem ascending (h : Numbered false a b is) : is.Pairwise (· < ·) :=
  h.apart.imp fun apart => apart.lt rfl

end Numbered

/-- Every parse numbers its nodes so. -/
theorem Parse.Yields.numbered {s t : State} {ns : List Node} (y : Yields s t ns) (h : s.Steady)
    {jsx : Bool} (variant : s.options.isJsx = jsx) :
    Numbered jsx s.nodeCount t.nodeCount (ns.flatMap Node.ids) := by
  induction y with
  | refl | advance | greater | enterName => exact .none _
  | report _ _ _ _ _ ih => exact ih h variant
  | trans first second ih₁ ih₂ =>
    have options := (first.frame h).options
    rw [List.flatMap_append]
    exact (ih₁ h variant).trans (ih₂ (first.keeps h).steady (options ▸ variant))
  | drop _ sub ih => exact (ih h variant).drop (sub.flatMap Node.ids)
  | settle r _ settled _ _ ih => exact ih (h.reread r settled) variant
  | inContext c _ ih => exact ih (h.inContext c) variant
  | inList l _ ih => exact ih (h.inList l) variant
  | nested _ ih => exact ih (h.nested _) variant
  | kept _ ih => exact ih h.openAttempt variant
  -- The counter is turned back, so these numbers are given out again; the nodes are gone.
  | rolledBack => exact .none _
  | @node kind detail slots s t info _ marked _ _ _ ih =>
    have id : info.id = t.nodeCount := marked.id
    rw [List.flatMap_singleton, Node.ids_ofSlots, id]
    exact (ih h variant).trans (.one _)
  | around kind slots _ fits _ _ _ ih =>
    rw [List.flatMap_singleton, Node.ids_ofSlots, fits]
    exact (ih h variant).trans (.one _)
  | missing kind detail =>
    rw [List.flatMap_singleton, Node.ids_leaf]
    exact .one _
  | missingAround kind slots _ _ fits _ _ _ _ ih =>
    rw [List.flatMap_singleton, Node.ids_ofSlots, fits]
    exact (ih h variant).trans (.one _)
  | @missingTag s markup =>
    obtain rfl : jsx = true := variant.symm.trans markup
    rw [List.flatMap_singleton, Node.ids_ofSlots, List.flatMap_singleton, held_slot_one,
      List.flatMap_singleton, Node.ids_leaf]
    -- The parent took its number first, and a walk leaves it last.
    have both : Numbered true s.nodeCount (s.nodeCount + 2) _ :=
      (Numbered.one s.nodeCount).trans (.one (s.nodeCount + 1))
    exact both.perm List.perm_append_comm

namespace Document

variable (names : NameTable) (options : Options) (src : Source)

/-- The root is numbered last. -/
theorem ids_root : (parseWith names options src).root.ids =
    (inner names options src).flatMap Node.ids ++ [(ending names options src).2.nodeCount] := by
  rw [parseWith_eq, run_eq, Node.ids_ofSlots]
  simp [inner, closed, State.close]

theorem numbered_root : Numbered options.isJsx (first names options src).nodeCount
    ((ending names options src).2.nodeCount + 1) (parseWith names options src).root.ids := by
  have inside : Numbered options.isJsx (first names options src).nodeCount
      (ending names options src).2.nodeCount ((inner names options src).flatMap Node.ids) :=
    (yields_inner names options src).numbered (steady_first names options src) rfl
  rw [ids_root]
  exact inside.trans (.one _)

/-- No two nodes of a tree have the same number. In plain source the numbers go up in the order a
walk leaves the nodes, so that a node has a greater number than all below it, and the root the
greatest. -/
theorem parse_numbers_nodes :
    ((parseWith names options src).root.postorder.map Node.id).Nodup ∧
    (options.variant = .standard →
      ((parseWith names options src).root.postorder.map Node.id).Pairwise (· < ·) ∧
      (∀ n ∈ (parseWith names options src).root.postorder,
        ∀ m ∈ n.children.flatMap Node.postorder, m.id < n.id) ∧
      ∀ n ∈ (parseWith names options src).root.postorder,
        n.id ≤ (parseWith names options src).root.id) := by
  have numbered := numbered_root names options src
  refine ⟨numbered.nodup, fun standard => ?_⟩
  have plain : options.isJsx = false := by simp [Options.isJsx, standard]
  rw [plain] at numbered
  have up := numbered.ascending
  exact ⟨up, fun n hn m hm => Node.id_lt_of_below up hn hm, fun n hn => Node.id_le_root up hn⟩

/-- A comparison, which is first tried as a call with type arguments. -/
theorem parse_numbers_nodes_comparison :
    let root := (parse {} (.ofString "a < b")).root
    (root.postorder.map Node.id).Nodup ∧ (root.postorder.map Node.id).Pairwise (· < ·) ∧
      ∀ n ∈ root.postorder, n.id ≤ root.id := by
  obtain ⟨nodup, standard⟩ := parse_numbers_nodes {} {} (.ofString "a < b")
  obtain ⟨up, _, greatest⟩ := standard rfl
  exact ⟨nodup, up, greatest⟩

end Document

end ScriptGrammar
