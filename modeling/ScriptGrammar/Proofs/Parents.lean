import Mathlib.Data.List.Nodup
import Mathlib.Data.List.Perm.Basic
import ScriptGrammar.Proofs.Everywhere

/-!
# The nodes above a node

Whoever follows a walk with the nodes that are open knows the parent of each node that is entered:
what a walk through a subtree enters into the map are the links of that subtree, and when it is
left the same nodes are open as before. So the map of a tree in which no number occurs twice gives
each node but the root its parent, and following it upward from a node gives the path to the root.

The climb is stated without a bound, as a relation that holds of what was passed once there is no
further parent. That the bounded climb of the program goes that far is a consequence: a path holds
fewer nodes than the tree.
-/

namespace ScriptGrammar

namespace Node

def preorder (n : Node) : List Node := (n.visits fun _ => true).filterMap Visit.entered?

theorem entered_visitsAll (ns : List Node) :
    (visitsAll (fun _ => true) ns).filterMap Visit.entered? = ns.flatMap preorder := by
  induction ns with
  | nil => rfl
  | cons n ns ih => simp [visitsAll, ih, preorder]

theorem preorder_eq (n : Node) : n.preorder = n :: n.children.flatMap preorder := by
  cases n with
  | mk i p d l c =>
    have entered : Visit.entered? (.enter (mk i p d l c)) = some (mk i p d l c) := rfl
    rw [preorder, visits, if_pos rfl, List.filterMap_cons_some entered, List.filterMap_append,
      entered_visitsAll]
    exact congrArg _ (List.append_nil _)

/-- A walk enters the nodes that it leaves. -/
theorem preorder_perm (n : Node) : n.preorder.Perm n.postorder := by
  induction n using inductionOn with
  | node n ih =>
    rw [preorder_eq, postorder_eq]
    have below : (n.children.flatMap preorder).Perm (n.children.flatMap postorder) :=
      List.Perm.flatMap_left _ ih
    exact (below.cons n).trans (List.perm_append_singleton n _).symm

/-- The listing with depths has the children one level deeper. -/
theorem outline_cons (n : Node) (depth : Nat) :
    n.outline depth = (depth, n) :: n.children.flatMap (outline (depth + 1)) := by
  have all (ns : List Node) : outlineAll (depth + 1) ns = ns.flatMap (outline (depth + 1)) := by
    induction ns with
    | nil => rfl
    | cons c ns ih => rw [outlineAll, ih, List.flatMap_cons]
  cases n with
  | mk i p d l children => rw [outline, all]; rfl

theorem outline_eq (n : Node) (depth : Nat) : (n.outline depth).map Prod.snd = n.preorder := by
  induction n using inductionOn generalizing depth with
  | node n ih =>
    rw [outline_cons, preorder_eq, List.map_cons, List.map_flatMap]
    exact congrArg (n :: ·) (List.flatMap_congr fun c hc => ih c hc (depth + 1))

end Node

mutual

/-- Each node below, with its parent, in the order a walk enters them. -/
def Node.links : Node → List (Node × Node)
  | n@(.mk _ _ _ _ children) => linksAll n children

def linksAll (parent : Node) : List Node → List (Node × Node)
  | [] => []
  | c :: cs => (c, parent) :: (c.links ++ linksAll parent cs)

end

namespace Node

variable {n c p root : Node} {above : List Node} {d : Nat}

theorem links_eq (n : Node) : n.links = n.children.flatMap fun c => (c, n) :: c.links := by
  have all (p : Node) (ns : List Node) :
      linksAll p ns = ns.flatMap fun c => (c, p) :: c.links := by
    induction ns with
    | nil => rfl
    | cons c ns ih => rw [linksAll, ih, List.flatMap_cons, List.cons_append]
  cases n with
  | mk i p d l children => exact all _ children

/-- Each node but the first is entered by way of its parent. -/
theorem preorder_eq_links (n : Node) : n.preorder = n :: n.links.map Prod.fst := by
  induction n using inductionOn with
  | node n ih =>
    rw [preorder_eq, links_eq, List.map_flatMap]
    exact congrArg (n :: ·) (List.flatMap_congr ih)

theorem mem_links : (c, p) ∈ n.links ↔ p ∈ n.postorder ∧ c ∈ p.children := by
  induction n using inductionOn with
  | node n ih =>
    rw [links_eq, postorder_eq]
    constructor
    · intro h
      obtain ⟨k, hk, h⟩ := List.mem_flatMap.mp h
      rcases List.mem_cons.mp h with same | inner
      · obtain ⟨rfl, rfl⟩ := Prod.mk.inj same
        exact ⟨List.mem_append_right _ List.mem_cons_self, hk⟩
      · obtain ⟨hp, hc⟩ := (ih k hk).mp inner
        exact ⟨List.mem_append_left _ (List.mem_flatMap.mpr ⟨k, hk, hp⟩), hc⟩
    · rintro ⟨hp, hc⟩
      rcases List.mem_append.mp hp with inner | last
      · obtain ⟨k, hk, hp⟩ := List.mem_flatMap.mp inner
        have link := (ih k hk).mpr ⟨hp, hc⟩
        exact List.mem_flatMap.mpr ⟨k, hk, List.mem_cons_of_mem _ link⟩
      · obtain rfl := List.mem_singleton.mp last
        exact List.mem_flatMap.mpr ⟨c, hc, List.mem_cons_self⟩

theorem mem_postorder_iff : n ∈ root.postorder ↔ n = root ∨ ∃ p, (n, p) ∈ root.links := by
  rw [← (preorder_perm root).mem_iff, preorder_eq_links, List.mem_cons, List.mem_map]
  simp

/-- The nodes above a node of the tree, its parent first, the root last. -/
inductive Under (root : Node) : List Node → Node → Prop where
  | root : Under root [] root
  | child {p c : Node} {above : List Node} (h : Under root above p) (hc : c ∈ p.children) :
      Under root (p :: above) c

theorem Under.mem (h : Under root above n) : n ∈ root.postorder := by
  induction h with
  | root => exact mem_postorder_iff.mpr (.inl rfl)
  | child _ hc ih => exact mem_postorder_iff.mpr (.inr ⟨_, mem_links.mpr ⟨ih, hc⟩⟩)

/-- With each step down there are fewer nodes below. -/
theorem Under.length_le (h : Under root above n) :
    above.length + n.postorder.length ≤ root.postorder.length := by
  induction h with
  | root => exact Nat.le_of_eq (Nat.zero_add _)
  | @child p c above _ hc ih =>
    have fewer : c.postorder.length < p.postorder.length := by
      rw [postorder_eq p, List.length_append]
      exact Nat.lt_succ_of_le (sublist_children hc).length_le
    rw [List.length_cons]
    omega

/-- A child stands in the listing behind its parent, one level deeper. -/
theorem mem_outline_child {k : Nat} (hp : (k, p) ∈ n.outline d) (hc : c ∈ p.children) :
    (k + 1, c) ∈ n.outline d := by
  induction n using inductionOn generalizing d with
  | node n ih =>
    rw [outline_cons] at hp ⊢
    refine List.mem_cons_of_mem _ (List.mem_flatMap.mpr ?_)
    rcases List.mem_cons.mp hp with same | inner
    · obtain ⟨rfl, rfl⟩ := Prod.mk.inj same
      refine ⟨c, hc, ?_⟩
      rw [outline_cons]
      exact List.mem_cons_self
    · obtain ⟨m, hm, hp⟩ := List.mem_flatMap.mp inner
      exact ⟨m, hm, ih m hm hp⟩

theorem Under.of_mem_outline {m : Node} (h : Under root above m)
    (line : (d, n) ∈ m.outline above.length) : ∃ up, Under root up n ∧ up.length = d := by
  induction m using inductionOn generalizing above with
  | node m ih =>
    rw [outline_cons] at line
    rcases List.mem_cons.mp line with same | inner
    · obtain ⟨rfl, rfl⟩ := Prod.mk.inj same
      exact ⟨above, h, rfl⟩
    · obtain ⟨c, hc, line⟩ := List.mem_flatMap.mp inner
      exact ih c hc (h.child hc) line

/-- A node stands in the listing as deep as there are nodes above it. -/
theorem mem_outline_iff :
    (d, n) ∈ root.outline 0 ↔ ∃ above, Under root above n ∧ above.length = d := by
  constructor
  · exact fun line => Under.root.of_mem_outline line
  · rintro ⟨above, h, rfl⟩
    induction h with
    | root =>
      rw [outline_cons]
      exact List.mem_cons_self
    | child _ hc ih => exact mem_outline_child ih hc

end Node

namespace Parents

variable {m : Parents} {root n p : Node} {above : List Node} {id : Nat}

/-- What the map keeps of a node and its parent. -/
def entry (link : Node × Node) : Nat × Node := (link.1.id, link.2)

mutual

/-- A walk through a subtree enters its links, and the same nodes are open as before. -/
theorem collect_visits (p : Node) (above : List Node) (rest : List Visit) :
    (n : Node) → collect (p :: above) (n.visits (fun _ => true) ++ rest) =
      entry (n, p) :: (n.links.map entry ++ collect (p :: above) rest)
  | .mk i q d l children => by
    rw [Node.visits, if_pos rfl, List.cons_append, List.append_assoc]
    exact congrArg (_ :: ·) (collect_visitsAll _ (p :: above) rest children)

theorem collect_visitsAll (p : Node) (above : List Node) (rest : List Visit) :
    (ns : List Node) → collect (p :: above) (visitsAll (fun _ => true) ns ++ ([.leave p] ++ rest)) =
      (linksAll p ns).map entry ++ collect above rest
  | [] => rfl
  | n :: ns => by
    rw [visitsAll, List.append_assoc, collect_visits, collect_visitsAll p above rest ns, linksAll,
      List.map_cons, List.map_append, List.cons_append, List.append_assoc]

end

theorem entries_ofRoot (root : Node) : (ofRoot root).entries = root.links.map entry := by
  cases root with
  | mk i q d l children =>
    have inside := collect_visitsAll (.mk i q d l children) [] [] children
    rw [ofRoot, Node.visits, if_pos rfl]
    exact inside.trans (List.append_nil _)

theorem ids_ofRoot (root : Node) :
    root.preorder.map Node.id = root.id :: (ofRoot root).entries.map Prod.fst := by
  rw [Node.preorder_eq_links, entries_ofRoot, List.map_cons, List.map_map, List.map_map]
  rfl

theorem parent?_eq_some_iff (once : (m.entries.map Prod.fst).Nodup) :
    m.parent? id = some p ↔ (id, p) ∈ m.entries := by
  have key {e : Nat × Node} (found : m.entries.find? (·.1 == id) = some e) : e.1 = id := by
    have holds := List.find?_some found
    exact beq_iff_eq.mp holds
  unfold parent?
  constructor
  · intro h
    obtain ⟨e, found, rfl⟩ := Option.map_eq_some_iff.mp h
    obtain rfl := key found
    exact List.mem_of_find?_eq_some found
  · intro h
    have some : (m.entries.find? (·.1 == id)).isSome :=
      List.find?_isSome.mpr ⟨(id, p), h, beq_self_eq_true id⟩
    obtain ⟨e, found⟩ := Option.isSome_iff_exists.mp some
    have same : e = (id, p) :=
      List.inj_on_of_nodup_map once (List.mem_of_find?_eq_some found) h (key found)
    rw [found, same]
    rfl

/-- The climb from a number, gone on with until there is no further parent. -/
inductive Climbs (m : Parents) : Nat → List Node → Prop where
  | stop {id : Nat} (top : m.parent? id = none) : Climbs m id []
  | up {id : Nat} {p : Node} {above : List Node} (next : m.parent? id = some p)
      (more : Climbs m p.id above) : Climbs m id (p :: above)

/-- The bounded climb gives as much of it as the bound allows. -/
theorem Climbs.climb_eq (h : m.Climbs id above) (fuel : Nat) :
    m.climb fuel id = above.take fuel := by
  induction h generalizing fuel with
  | stop top => cases fuel with
    | zero => rfl
    | succ fuel => rw [climb, top]; rfl
  | up next _ ih => cases fuel with
    | zero => rfl
    | succ fuel => rw [climb, next, List.take_succ_cons, ← ih]

/-- The map as a table, in which a number entered again would get the later parent. -/
def table (m : Parents) : Std.HashMap Nat Node := Std.HashMap.ofList m.entries

section Table

variable (once : (m.entries.map Prod.fst).Nodup)

include once

theorem apart_entries : m.entries.Pairwise fun a b => (a.1 == b.1) = false :=
  (List.pairwise_map.mp once).imp beq_false_of_ne

theorem size_table : m.table.size = m.size := Std.HashMap.size_ofList (apart_entries once)

theorem getElem?_table (id : Nat) : m.table[id]? = m.parent? id := by
  cases found : m.parent? id with
  | some p =>
    have entered := (parent?_eq_some_iff once).mp found
    exact Std.HashMap.getElem?_ofList_of_mem (beq_self_eq_true id) (apart_entries once) entered
  | none =>
    refine Std.HashMap.getElem?_ofList_of_contains_eq_false ?_
    rw [List.contains_eq_mem, decide_eq_false_iff_not]
    intro key
    obtain ⟨⟨_, p⟩, entered, rfl⟩ := List.mem_map.mp key
    rw [(parent?_eq_some_iff once).mpr entered] at found
    cases found

end Table

section Distinct

variable (distinct : (root.postorder.map Node.id).Nodup)

include distinct

theorem nodup_ids : (root.id :: (ofRoot root).entries.map Prod.fst).Nodup := by
  rw [← ids_ofRoot]
  exact (root.preorder_perm.map Node.id).nodup_iff.mpr distinct

theorem nodup_ofRoot : ((ofRoot root).entries.map Prod.fst).Nodup :=
  (List.nodup_cons.mp (nodup_ids distinct)).2

theorem parent?_ofRoot_iff :
    (ofRoot root).parent? id = some p ↔ p ∈ root.postorder ∧ ∃ c ∈ p.children, c.id = id := by
  rw [parent?_eq_some_iff (nodup_ofRoot distinct), entries_ofRoot, List.mem_map]
  constructor
  · rintro ⟨⟨c, q⟩, link, same⟩
    obtain ⟨rfl, rfl⟩ := Prod.mk.inj same
    obtain ⟨hp, hc⟩ := Node.mem_links.mp link
    exact ⟨hp, c, hc, rfl⟩
  · rintro ⟨hp, c, hc, rfl⟩
    exact ⟨(c, p), Node.mem_links.mpr ⟨hp, hc⟩, rfl⟩

theorem parent?_child {c : Node} (hp : p ∈ root.postorder) (hc : c ∈ p.children) :
    (ofRoot root).parent? c.id = some p := (parent?_ofRoot_iff distinct).mpr ⟨hp, c, hc, rfl⟩

theorem parent?_eq_none (no : ∀ c p, (c, p) ∈ root.links → c.id ≠ id) :
    (ofRoot root).parent? id = none := by
  refine Option.eq_none_iff_forall_ne_some.mpr fun p found => ?_
  obtain ⟨hp, c, hc, same⟩ := (parent?_ofRoot_iff distinct).mp found
  exact no c p (Node.mem_links.mpr ⟨hp, hc⟩) same

theorem parent?_root : (ofRoot root).parent? root.id = none := by
  refine parent?_eq_none distinct fun c p link same => ?_
  have entered : (c.id, p) ∈ (ofRoot root).entries := by
    rw [entries_ofRoot]
    exact List.mem_map_of_mem (f := entry) link
  exact (List.nodup_cons.mp (nodup_ids distinct)).1 (same ▸ List.mem_map_of_mem entered)

/-- Climbing from a node passes the nodes above it, and ends. -/
theorem climbs_ofRoot (h : root.Under above n) : (ofRoot root).Climbs n.id above := by
  induction h with
  | root => exact .stop (parent?_root distinct)
  | child up hc ih => exact .up (parent?_child distinct up.mem hc) ih

end Distinct

theorem size_ofRoot (root : Node) : (ofRoot root).size + 1 = root.postorder.length := by
  have counted := congrArg List.length (ids_ofRoot root)
  rw [List.length_map, List.length_cons, List.length_map] at counted
  rw [← root.preorder_perm.length_eq, counted, size]

/-- A map has as many entries as a path in its tree can have nodes above the last. -/
theorem ancestors_of_climbs (h : root.Under above n) (climbs : (ofRoot root).Climbs n.id above) :
    (ofRoot root).ancestors n.id = above := by
  have short : above.length ≤ (ofRoot root).size + 1 := by
    rw [size_ofRoot]
    exact Nat.le_trans (Nat.le_add_right _ _) h.length_le
  rw [ancestors, climbs.climb_eq, List.take_of_length_le short]

/-- In a tree without a number that occurs twice, the map has the parent of every node but the root,
and nothing else: under the number of each child its parent, under that of the root and under those
that do not occur nothing, and one entry less than there are nodes. That is so also of a table where
a later entry replaces an earlier one. Climbing from a node passes exactly the nodes on the way to
the root, the nearest first, as many as the node is deep, and then there is no further parent. -/
theorem ofRoot_exact (distinct : (root.postorder.map Node.id).Nodup) :
    let m := Parents.ofRoot root
    (∀ p ∈ root.postorder, ∀ c ∈ p.children, m.parent? c.id = some p) ∧
    (∀ n ∈ root.postorder, n ≠ root →
      ∃ p ∈ root.postorder, n ∈ p.children ∧ m.parent? n.id = some p) ∧
    m.parent? root.id = none ∧
    (∀ id, id ∉ root.postorder.map Node.id → m.parent? id = none) ∧
    m.size = root.postorder.length - 1 ∧
    (m.table.size = m.size ∧ ∀ id, m.table[id]? = m.parent? id) ∧
    ∀ d n, (d, n) ∈ root.outline 0 →
      ∃ above, root.Under above n ∧ above.length = d ∧ m.ancestors n.id = above ∧
        m.Climbs n.id above := by
  intro m
  have once : (m.entries.map Prod.fst).Nodup := nodup_ofRoot distinct
  refine ⟨fun p hp c hc => parent?_child distinct hp hc, ?_, parent?_root distinct, ?_, ?_,
    ⟨size_table once, getElem?_table once⟩, ?_⟩
  · intro n hn other
    obtain ⟨p, link⟩ := (Node.mem_postorder_iff.mp hn).resolve_left other
    obtain ⟨hp, hc⟩ := Node.mem_links.mp link
    exact ⟨p, hp, hc, parent?_child distinct hp hc⟩
  · intro id absent
    refine parent?_eq_none distinct fun c p link same => absent ?_
    have inside : c ∈ root.postorder := Node.mem_postorder_iff.mpr (.inr ⟨p, link⟩)
    exact same ▸ List.mem_map_of_mem inside
  · exact Nat.eq_sub_of_add_eq (size_ofRoot root)
  · intro d n line
    obtain ⟨above, h, deep⟩ := Node.mem_outline_iff.mp line
    have climbs := climbs_ofRoot distinct h
    exact ⟨above, h, deep, ancestors_of_climbs h climbs, climbs⟩

/-- A call, whose name and argument are three levels deep. -/
theorem ofRoot_exact_call :
    let root := (Document.parse {} (.ofString "f(x)")).root
    let m := Parents.ofRoot root
    (root.postorder.map Node.id).Nodup ∧ m.parent? root.id = none ∧ m.table.size = 5 ∧
      ∀ d n, (d, n) ∈ root.outline 0 → (m.ancestors n.id).length = d ∧
        m.Climbs n.id (m.ancestors n.id) := by
  intro root m
  have distinct : (root.postorder.map Node.id).Nodup := by decide +kernel
  have nodes : root.postorder.length = 6 := by decide +kernel
  obtain ⟨_, _, top, _, size, ⟨table, _⟩, climbs⟩ := ofRoot_exact distinct
  refine ⟨distinct, top, by rw [table, size, nodes], fun d n line => ?_⟩
  obtain ⟨above, _, deep, passed, ends⟩ := climbs d n line
  exact ⟨passed ▸ deep, passed ▸ ends⟩

end Parents
end ScriptGrammar
