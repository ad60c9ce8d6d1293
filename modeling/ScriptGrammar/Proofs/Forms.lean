import ScriptGrammar.Proofs.Everywhere

/-!
# What every node carries

The flags of a node are noted by hand when it is closed, beside the list of modifiers they are
read off; and the grammar a value was read under is whatever was in force at the cursor. What is
asked of both when a node is closed, of the tiers of its operands and of the mark of a chain, holds
in every tree. The flags are the union of those of the modifiers, for all nodes but the `this`
parameter. What stands in brackets was read where `in` is an operator; only some of the brackets
also lead out of a decorator, and the initializers of parameters and of elements of patterns count
as no brackets at all. A link is marked behind a `?.`, which a template with type arguments can
hide.
-/

namespace ScriptGrammar

open Parse

namespace ModifierFlags

theorem union_assoc (a b c : ModifierFlags) : (a.union b).union c = a.union (b.union c) :=
  congrArg mk (Nat.or_assoc a.bits b.bits c.bits)

@[simp] theorem empty_union (a : ModifierFlags) : union {} a = a :=
  congrArg mk (Nat.zero_or a.bits)

@[simp] theorem union_empty (a : ModifierFlags) : a.union {} = a :=
  congrArg mk (Nat.or_zero a.bits)

end ModifierFlags

namespace Node

/-- The flag a modifier stands for. -/
def flag (n : Node) : ModifierFlags := if n.kind == .decorator then .decorator else .ofKind n.kind

/-- The flags of the modifiers together. -/
def writtenFlags (n : Node) : ModifierFlags :=
  (n.childrenAs .modifiers).foldr (fun m flags => m.flag.union flags) {}

/-- A parameter by the name of `this`. -/
def isThisParameter (n : Node) : Bool := n.kind == .parameter && (n.childrenAs .name).any isThis

end Node

/-- Flags are gathered from the left, with what was gathered before. -/
theorem foldl_flags (modifiers : List Node) (flags : ModifierFlags) :
    modifiers.foldl (fun flags m =>
        flags.union (if m.kind == .decorator then .decorator else .ofKind m.kind)) flags =
      flags.union (modifiers.foldr (fun m flags => m.flag.union flags) {}) := by
  induction modifiers generalizing flags with
  | nil => exact flags.union_empty.symm
  | cons m modifiers ih =>
    rw [List.foldl_cons, ih, List.foldr_cons, ModifierFlags.union_assoc]
    rfl

theorem slotFlags_eq (info : NodeInfo) (detail : Detail) (slots : List Slot) :
    slotFlags info.kind slots =
      if (Node.ofSlots info detail slots).isThisParameter then {}
      else (Node.ofSlots info detail slots).writtenFlags := by
  have part (p : Part) : (Node.ofSlots info detail slots).childrenAs p = slotsAs p slots :=
    playing_slots p slots
  have kind : (Node.ofSlots info detail slots).kind = info.kind := rfl
  unfold slotFlags Node.isThisParameter Node.writtenFlags
  rw [part, part, kind]
  split
  · rfl
  · unfold modifierFlags
    rw [Option.getD_some, foldl_flags, ModifierFlags.empty_union]

/-- What an expression is built on stands below it. -/
theorem Node.OnSpine.mem_postorder {m n : Node} (h : m.OnSpine n) : m ∈ n.postorder := by
  induction h with
  | self =>
    rw [Node.postorder_eq]
    exact List.mem_append_right _ (List.mem_singleton_self m)
  | @behind n e _ target _ ih =>
    have child : e ∈ n.children := (List.mem_filter.mp target).1
    rw [Node.postorder_eq]
    exact List.mem_append_left _ (List.mem_flatMap.mpr ⟨e, child, ih⟩)

/-- What is asked of a node when it is closed. -/
structure Node.Carries (n : Node) : Prop where
  tiered : Tiered n.kind n.children
  modifiers : n.info.modifiers = if n.isThisParameter then {} else n.writtenFlags
  bracketed : Bracketed n.kind n.children
  chained : n.kind.isLink → n.Chains n.info.flags.optionalChain

theorem Node.Carries.as (n : Node) (p : Part) (h : n.Carries) : (n.as p).Carries := by
  obtain ⟨tiered, modifiers, bracketed, chained⟩ := h
  have chained : (n.as p).kind.isLink → (n.as p).Chains (n.as p).info.flags.optionalChain := by
    intro link
    rw [Node.kind_as] at link
    rw [Node.info_as]
    exact (chained link).as p
  refine ⟨by simpa using tiered, ?_, by simpa using bracketed, chained⟩
  simpa [isThisParameter, writtenFlags] using modifiers

theorem carries_ofSlots {info : NodeInfo} {slots : List Slot} (detail : Detail)
    (tiered : Tiered info.kind (slots.flatMap Slot.nodes))
    (modifiers : info.modifiers = slotFlags info.kind slots)
    (bracketed : Bracketed info.kind (slots.flatMap Slot.nodes))
    (chained : info.kind.isLink →
      (Node.ofSlots info detail slots).Chains info.flags.optionalChain) :
    (Node.ofSlots info detail slots).Carries :=
  ⟨tiered, modifiers.trans (slotFlags_eq info detail slots), bracketed, chained⟩

theorem Parse.Yields.carries {s t : State} {ns : List Node} (y : Yields s t ns) :
    ∀ n ∈ ns, ∀ m ∈ n.postorder, m.Carries := by
  have whole {info : NodeInfo} {detail : Detail} {slots : List Slot}
      (tiered : Tiered info.kind (slots.flatMap Slot.nodes))
      (modifiers : info.modifiers = slotFlags info.kind slots)
      (bracketed : Bracketed info.kind (slots.flatMap Slot.nodes))
      (chained : info.kind.isLink →
        (Node.ofSlots info detail slots).Chains info.flags.optionalChain)
      (below : ∀ n ∈ slots.flatMap held, ∀ m ∈ n.postorder, m.Carries) :
      ∀ n ∈ [Node.ofSlots info detail slots], ∀ m ∈ n.postorder, m.Carries :=
    List.forall_mem_singleton.mpr (Node.forall_postorder_ofSlots Node.Carries.as
      (carries_ofSlots detail tiered modifiers bracketed chained) below)
  have leaf (info : NodeInfo) (detail : Detail) (modifiers : info.modifiers = {})
      (single : info.kind.isLink = false) :
      ∀ n ∈ [Node.leaf info detail], ∀ m ∈ n.postorder, m.Carries := by
    have none : ∀ n ∈ ([] : List Slot).flatMap held, ∀ m ∈ n.postorder, m.Carries :=
      fun _ no => (nomatch no)
    exact whole (tiered_nil info.kind) (modifiers.trans (slotFlags_nil info.kind).symm)
      (bracketed_nil info.kind) (fun link => by rw [single] at link; cases link) none
  induction y with
  | refl | advance | greater | enterName | rolledBack => exact fun _ no => (nomatch no)
  | trans _ _ ih₁ ih₂ => exact fun n hn => (List.mem_append.mp hn).elim (ih₁ n) (ih₂ n)
  | drop _ sub ih => exact fun n hn => ih n (sub.subset hn)
  | settle _ _ _ _ _ ih | inContext _ _ ih | inList _ _ ih | nested _ ih | kept _ ih
  | report _ _ _ _ _ ih => exact ih
  | node kind detail slots _ marked formed tiered _ ih =>
    have kind : _ = kind := marked.kind
    exact whole (kind ▸ tiered) (kind ▸ formed.modifiers) (kind ▸ formed.bracketed)
      (kind ▸ formed.chained) ih
  | around kind slots _ fits formed tiered _ ih =>
    exact whole tiered formed.modifiers formed.bracketed formed.chained (fits ▸ ih)
  | missing kind detail _ _ single => exact leaf _ detail rfl single
  | missingAround kind slots _ _ fits _ _ formed tiered ih =>
    exact whole tiered formed.modifiers formed.bracketed
      (fun link => (formed.chained link).congr rfl rfl rfl) (fits ▸ ih)
  | missingTag => exact whole trivial rfl trivial nofun (leaf _ _ rfl rfl)

namespace Document

theorem carries_root (names : NameTable) (options : Options) (src : Source) :
    ∀ n ∈ (parseWith names options src).root.postorder, n.Carries := by
  refine forall_postorder_root names options src Node.Carries.as ?_
    (yields_inner names options src).carries
  rw [parseWith_eq, run_eq]
  exact carries_ofSlots _ trivial rfl trivial nofun

/-- In every tree the flags of a node are those of its modifiers together, and none where there are
no modifiers. Of a parameter by the name of `this` the flags are not noted. -/
theorem parse_flags_modifiers (names : NameTable) (options : Options) (src : Source) :
    ∀ n ∈ (parseWith names options src).root.postorder,
      n.info.modifiers = if n.isThisParameter then {} else n.writtenFlags :=
  fun n hn => (carries_root names options src n hn).modifiers

/-- A method with a decorator and four keywords. -/
theorem parse_flags_modifiers_method :
    ∃ n ∈ (parseWith {} {} (.ofString
        "class A \x7b @d protected static override async m() \x7b\x7d \x7d")).root.postorder,
      n.kind = .methodDeclaration ∧ (n.childrenAs .modifiers).length = 5 ∧
        n.info.modifiers = n.writtenFlags := by
  have found : (parseWith {} {} (.ofString
      "class A \x7b @d protected static override async m() \x7b\x7d \x7d")).root.postorder.any
        fun n => n.kind == .methodDeclaration && (n.childrenAs .modifiers).length == 5 := by
    decide +kernel
  obtain ⟨n, hn, holds⟩ := List.any_eq_true.mp found
  simp only [Bool.and_eq_true, beq_iff_eq] at holds
  have other : n.isThisParameter = false := by simp [Node.isThisParameter, holds.1]
  have flags := parse_flags_modifiers {} {} _ n hn
  rw [other] at flags
  exact ⟨n, hn, holds.1, holds.2, flags⟩

/-- A modifier of a `this` parameter stays in its list and is missing from the flags. -/
theorem parse_drops_modifiers :
    ¬ ∀ n ∈ (parseWith {} {} (.ofString
        "function f(public this) \x7b\x7d")).root.postorder, n.info.modifiers = n.writtenFlags := by
  have found : (parseWith {} {} (.ofString
      "function f(public this) \x7b\x7d")).root.postorder.all
        (fun n => n.info.modifiers == n.writtenFlags) = false := by decide +kernel
  simpa using found

/-- In every tree what stands in brackets was read where `in` is an operator, and inside of
parentheses, computed names, pieces of templates and element accesses outside of a decorator. -/
theorem parse_opens_brackets (names : NameTable) (options : Options) (src : Source) :
    ∀ n ∈ (parseWith names options src).root.postorder, Bracketed n.kind n.children :=
  fun n hn => (carries_root names options src n hn).bracketed

/-- Two arguments of a call in the head of a loop, where `in` would end the initializer. -/
theorem parse_opens_brackets_call :
    ∃ n ∈ (parseWith {} {} (.ofString "for (let x = f(a in b, c in d);;) ;")).root.postorder,
      n.kind = .callExpression ∧ n.allowsIn = false ∧ (n.childrenAs .arguments).length = 2 ∧
        ∀ c ∈ n.childrenAs .arguments, c.isPlace ∨ c.allowsIn := by
  have found : (parseWith {} {} (.ofString
      "for (let x = f(a in b, c in d);;) ;")).root.postorder.any fun n =>
        n.kind == .callExpression && !n.allowsIn && (n.childrenAs .arguments).length == 2 := by
    decide +kernel
  obtain ⟨n, hn, holds⟩ := List.any_eq_true.mp found
  simp only [Bool.and_eq_true, Bool.not_eq_true', beq_iff_eq] at holds
  have opened := parse_opens_brackets {} {} _ n hn
  rw [holds.1.1] at opened
  exact ⟨n, hn, holds.1.1, holds.1.2, holds.2, opened⟩

/-- An argument in a decorator is read as a part of the decorator, and the initializer of a
parameter in the head of a loop as a part of the head. -/
theorem parse_leaks_context :
    (¬ ∀ n ∈ (parseWith {} {} (.ofString "@f(a) class C \x7b\x7d")).root.postorder,
      n.kind = .callExpression →
        ∀ c ∈ n.childrenAs .arguments, c.allowsIn ∧ c.isUndecorated) ∧
    ¬ ∀ n ∈ (parseWith {} {} (.ofString "for (let f = (a = 1) => a;;) ;")).root.postorder,
      n.kind = .parameter →
        ∀ c ∈ n.childrenAs .initializer, c.allowsIn ∧ c.isUndecorated := by
  have argument : (parseWith {} {} (.ofString "@f(a) class C \x7b\x7d")).root.postorder.all
      (fun n => n.kind != .callExpression ||
        (n.childrenAs .arguments).all fun c => c.allowsIn && c.isUndecorated) = false := by
    decide +kernel
  have initializer : (parseWith {} {} (.ofString
      "for (let f = (a = 1) => a;;) ;")).root.postorder.all (fun n => n.kind != .parameter ||
        (n.childrenAs .initializer).all fun c => c.allowsIn && c.isUndecorated) = false := by
    decide +kernel
  constructor
  · simpa using argument
  · simpa using initializer

/-- In every tree a link is marked if it or what it is behind was written with a `?.`. Where it is
marked there is such a `?.`, or a template with type arguments, which leaves out its own. -/
theorem parse_marks_chains (names : NameTable) (options : Options) (src : Source) :
    ∀ n ∈ (parseWith names options src).root.postorder, n.kind.isLink →
      ((∃ m : Node, m.OnSpine n ∧ m.hasQuestionDot) → n.info.flags.optionalChain) ∧
      (n.info.flags.optionalChain →
        ∃ m : Node, m.OnSpine n ∧ (m.hasQuestionDot ∨ m.isTypedTemplate)) := by
  intro n hn link
  have chains := (carries_root names options src n hn).chained link
  exact ⟨fun ⟨m, spine, has⟩ => chains.of_hasQuestionDot spine has, chains.exists_onSpine⟩

/-- The last of three links, the first of which has the `?.`. -/
theorem parse_marks_chains_behind :
    ∃ n ∈ (parseWith {} {} (.ofString "a?.b!.c")).root.postorder,
      n.kind = .propertyAccessExpression ∧ n.hasQuestionDot = false ∧
        n.info.flags.optionalChain ∧
        ∃ m : Node, m.OnSpine n ∧ (m.hasQuestionDot ∨ m.isTypedTemplate) := by
  have found : (parseWith {} {} (.ofString "a?.b!.c")).root.postorder.any fun n =>
      n.kind == .propertyAccessExpression && !n.hasQuestionDot && n.info.flags.optionalChain := by
    decide +kernel
  obtain ⟨n, hn, holds⟩ := List.any_eq_true.mp found
  simp only [Bool.and_eq_true, Bool.not_eq_true', beq_iff_eq] at holds
  obtain ⟨⟨kind, bare⟩, marked⟩ := holds
  have chains := parse_marks_chains {} {} _ n hn (by rw [kind]; rfl)
  exact ⟨n, hn, kind, bare, marked, chains.2 marked⟩

/-- Behind a template with type arguments the `?.` before it is lost, and the mark is not. -/
theorem parse_marks_template :
    ¬ ∀ n ∈ (parseWith {} {} (.ofString "a?.<T>`x`.b")).root.postorder, n.kind.isLink →
      (n.info.flags.optionalChain ↔ ∃ m : Node, m.OnSpine n ∧ m.hasQuestionDot) := by
  have found : (parseWith {} {} (.ofString "a?.<T>`x`.b")).root.postorder.any fun n =>
      n.kind.isLink && n.info.flags.optionalChain && n.postorder.all (!·.hasQuestionDot) := by
    decide +kernel
  obtain ⟨n, hn, holds⟩ := List.any_eq_true.mp found
  simp only [Bool.and_eq_true, List.all_eq_true, Bool.not_eq_true'] at holds
  obtain ⟨⟨link, marked⟩, bare⟩ := holds
  intro all
  obtain ⟨m, spine, has⟩ := (all n hn link).mp marked
  rw [bare m spine.mem_postorder] at has
  cases has

end Document
end ScriptGrammar
