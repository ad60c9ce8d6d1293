import ScriptGrammar.Parse.Document
import ScriptGrammar.Proofs.Parse.Leads

/-!
# The context of a value

A node carries the context in which it was closed. A changed context is put back, so what answers
a goal for a value carries the context in which the goal was called: this is one rule for each
form of a parser and then a walk through the productions. What is read in brackets is read in a
context of its own.
-/

namespace ScriptGrammar

open Parse ScriptGrammar.Parser

variable {α β : Type} {c : Context}

instance [Holds α] : Holds (Turn α) := ⟨fun x => held x.value⟩

instance : Holds Chain := ⟨fun chain => [chain.target]⟩

instance : Holds Parser.Opening := ⟨fun opening => [opening.node]⟩

namespace Parser.Stamps

variable [Holds α] [Holds β] {p q : Parser α}

/-- What comes before a value does not matter to its context. -/
theorem skip {γ : Type} {p : Parser γ} {f : γ → Parser β} (h : ∀ a, Stamps c (f a)) :
    Stamps c (p >>= f) := fun s same => h _ _ ((p.context_run s).trans same)

theorem bind {f : α → Parser β} (h : Stamps c p)
    (rest : ∀ a, (∀ n ∈ held a, n.info.flags.context = c) → Stamps c (f a)) :
    Stamps c (p >>= f) := fun s same => rest _ (h s same) _ ((p.context_run s).trans same)

theorem pure {a : α} (h : ∀ n ∈ held a, n.info.flags.context = c) :
    Stamps c (Pure.pure a : Parser α) := fun _ _ => h

theorem nothing : Stamps c (Pure.pure none : Parser (Option α)) :=
  pure fun _ no => absurd no List.not_mem_nil

theorem some (h : Stamps c p) : Stamps c (do return some (← p)) :=
  h.bind fun _ stamped => pure stamped

theorem ite {b : Prop} [Decidable b] (yes : Stamps c p) (no : Stamps c q) :
    Stamps c (if b then p else q) := by
  split
  · exact yes
  · exact no

theorem optionally {b : Bool} (h : Stamps c p) : Stamps c (optionally b p) := ite h.some nothing

theorem attempt {p : Parser (Option α)} (h : Stamps c p) : Stamps c (attempt p) := by
  intro s same n
  have stamped := h s.openAttempt same n
  cases ran : p.run s.openAttempt with
  | mk found t =>
    rw [ran] at stamped
    simp only [Parser.attempt, ran]
    cases found with
    | none => exact fun no => absurd no List.not_mem_nil
    | some a => exact stamped

theorem nested {refused : Parser α} (h : Stamps c p) (h' : Stamps c refused) :
    Stamps c (nested p refused) := by
  intro s same
  unfold Parser.nested
  dsimp only
  split
  · exact h _ same
  · exact h' _ same

/-- What every turn hands on, the last one hands over. -/
theorem loop {body : α → Parser (Turn α)} {a : α} (start : ∀ n ∈ held a, n.info.flags.context = c)
    (turn : ∀ a, (∀ n ∈ held a, n.info.flags.context = c) → Stamps c (body a)) :
    Stamps c (loop a body) := fun _ same =>
  Leads.handed (P := fun a => ∀ n ∈ held a, n.info.flags.context = c) start
    fun a t kept stamped => turn a stamped t (kept.trans same)

end Parser.Stamps

section Leaves

variable {kind : Kind} {start : NodeStart} {slots : List Slot}

/-- A node is closed in the context around it. -/
theorem stamps_close {f : NodeInfo → Node}
    (keep : ∀ info, (f info).info.flags.context = info.flags.context) :
    Stamps c (close kind start >>= fun info => pure (f info)) := by
  intro s same n hn
  rw [List.mem_singleton.mp hn]
  exact (keep _).trans same

theorem stamps_build : Stamps c (build kind start slots) := stamps_close fun _ => rfl

theorem stamps_buildWith {detail : Detail} : Stamps c (buildWith kind start detail slots) :=
  stamps_close fun _ => rfl

theorem stamps_buildLink {chain : Bool} : Stamps c (buildLink kind start chain slots) :=
  stamps_close fun _ => rfl

theorem stamps_buildModified {mods : Option (List Node)} {detail : Detail} :
    Stamps c (buildModified kind start mods detail slots) := stamps_close fun _ => rfl

theorem stamps_takeToken : Stamps c takeToken :=
  .skip fun _ => .skip fun _ => .skip fun _ => stamps_close fun _ => rfl

theorem stamps_literal : Stamps c literal :=
  .skip fun _ => .skip fun _ => .skip fun _ => .skip fun _ => .skip fun _ =>
    stamps_close fun _ => rfl

theorem stamps_missingIdentifier : Stamps c missingIdentifier := by
  intro s same n hn
  rw [List.mem_singleton.mp hn]
  exact same

theorem stamps_identifierIf {ok : Bool} {message : Option Message} :
    Stamps c (identifierIf ok message) := by
  refine .ite ?_ (.skip fun _ => .skip fun _ => .skip fun _ => stamps_missingIdentifier)
  intro s same n hn
  rw [List.mem_singleton.mp hn]
  exact same

theorem stamps_identifierOr {message : Message} : Stamps c (identifierOr message) :=
  .skip fun _ => stamps_identifierIf

theorem stamps_privateIdentifier : Stamps c privateIdentifier := by
  intro s same n hn
  rw [List.mem_singleton.mp hn]
  exact same

theorem stamps_templatePiece {tagged : Bool} : Stamps c (templatePiece tagged) :=
  .skip fun _ => .ite (.skip fun _ => stamps_literal) stamps_literal

end Leaves

variable [Grammar]

section Links

variable {start : NodeStart} {chain : Chain} {questionDot : Option Node}

theorem stamps_templateExpression {tagged : Bool} : Stamps c (templateExpression tagged) :=
  .skip fun _ => .skip fun _ => .skip fun _ => stamps_build

omit [Grammar] in
theorem stamps_propertyLink : Stamps c (propertyLink start chain questionDot) :=
  .skip fun _ => stamps_buildLink

theorem stamps_indexLink : Stamps c (indexLink start chain questionDot) :=
  .skip fun _ => .skip fun _ => .ite (.skip fun _ => .skip fun _ => .skip fun _ => stamps_buildLink)
    (.skip fun _ => .skip fun _ => stamps_buildLink)

theorem stamps_callLink {typeArgs : Option (List Node)} :
    Stamps c (callLink start chain questionDot typeArgs) := .skip fun _ => stamps_buildLink

theorem stamps_taggedTemplate {tag : Node} {typeArgs : Option (List Node)} :
    Stamps c (taggedTemplate start tag typeArgs) :=
  .skip fun _ => .ite (.skip fun _ => stamps_build) (.skip fun _ => stamps_build)

theorem stamps_angleLink? : Stamps c (angleLink? start chain questionDot) := by
  refine .skip fun o => ?_
  cases o with
  | some typeArgs => exact .skip fun _ => .ite (.some stamps_callLink) (.some stamps_taggedTemplate)
  | none => exact .ite (.some stamps_propertyLink) .nothing

theorem stamps_link? {calls : Bool} : Stamps c (link? start chain questionDot calls) := by
  refine .skip fun k => ?_
  split
  · exact .skip fun _ => .some stamps_propertyLink
  · exact .skip fun _ => .ite .nothing (.some stamps_indexLink)
  · exact .ite (.some stamps_callLink) (.optionally stamps_propertyLink)
  · exact .ite stamps_angleLink? (.optionally stamps_propertyLink)
  · exact .some stamps_taggedTemplate
  · exact .some stamps_taggedTemplate
  · exact .skip fun _ => .ite .nothing (.skip fun _ => .some stamps_buildLink)
  · exact .optionally stamps_propertyLink

theorem stamps_postfixes {first : Node} (stamped : ∀ n ∈ held first, n.info.flags.context = c)
    {calls : Bool} : Stamps c (postfixes start first calls) := by
  refine .bind (.loop stamped fun chain stamped => ?_) fun _ stamped => .pure stamped
  refine .skip fun _ => .ite (.pure stamped) (.ite (.ite (.pure stamped) (.skip fun _ => ?_)) ?_)
  all_goals
    refine .bind stamps_link? fun o linked => ?_
    cases o with
    | some node => exact .pure linked
    | none => exact .pure stamped

end Links

section Values

variable (goals : ∀ (g : Goal) (c : Context), g.isValue → Stamps c (Grammar.parse g))

include goals

theorem stamps_leftHandSide : Stamps c leftHandSide :=
  .skip fun _ => .bind (goals .primary c rfl) fun _ stamped => stamps_postfixes stamped

theorem stamps_update : Stamps c update := by
  have plain {start : NodeStart} : Stamps c (do
      let e ← leftHandSide
      let k ← token
      if k.postfixTier == .update && !(← onNewLine) then
        next
        buildUnary .postfixUnaryExpression start k e
      else return e) := by
    refine .bind (stamps_leftHandSide goals) fun e stamped => .skip fun _ => .skip fun _ => ?_
    exact .ite (.skip fun _ => stamps_buildWith) (.pure stamped)
  refine .skip fun _ => .skip fun _ => .ite (.skip fun _ => .skip fun _ => stamps_buildWith) ?_
  refine .skip fun _ => .ite ?_ plain
  exact .bind (goals (.element true) c rfl) fun _ stamped => stamps_postfixes stamped

omit goals in
theorem stamps_unaryOperation {kind : Kind} : Stamps c (unaryOperation kind) :=
  .skip fun _ => .skip fun _ => .skip fun _ => .skip fun _ => stamps_buildWith

theorem stamps_unaryWorker : Stamps c unaryWorker := by
  refine .skip fun k => ?_
  split
  case h_8 =>
    exact .skip fun _ => .skip fun _ => .skip fun _ => .skip fun _ => .skip fun _ => stamps_build
  case h_9 => exact .skip fun _ => .ite stamps_unaryOperation (stamps_update goals)
  case h_10 => exact stamps_update goals
  all_goals exact stamps_unaryOperation

theorem stamps_unary : Stamps c unary :=
  .skip fun _ => .ite (stamps_update goals) (goals .unary c rfl)

omit goals in
theorem stamps_conditionalRest {start : NodeStart} {condition : Node} {arrowTypes : Bool} :
    Stamps c (conditionalRest start condition arrowTypes) :=
  .skip fun _ => .skip fun _ => .skip fun _ => .skip fun _ =>
    .ite (.skip fun _ => stamps_build) (.skip fun _ => stamps_build)

omit goals in
theorem stamps_operation? {start : NodeStart} {left : Node} {k : Kind} {arrowTypes : Bool} :
    Stamps c (operation? start left k arrowTypes) := by
  refine .skip fun _ => .ite .nothing (.ite ?_ (.ite (.some stamps_conditionalRest) (.ite ?_ ?_)))
  · exact .skip fun _ => .ite .nothing (.skip fun _ => .skip fun _ => .some stamps_build)
  · exact .ite .nothing (.skip fun _ => .skip fun _ => .some stamps_build)
  · exact .skip fun _ => .skip fun _ => .some stamps_build

theorem stamps_binaryStep {min : Tier} {arrowTypes : Bool} :
    Stamps c (binaryStep min arrowTypes) := by
  refine .skip fun start => .bind (stamps_unary goals) fun _ stamped => ?_
  refine .loop stamped fun left stamped => .skip fun _ => .ite (.skip fun _ => ?_) ?_
  all_goals
    refine .skip fun _ => .ite (.pure stamped) (.bind stamps_operation? fun o made => ?_)
    cases o with
    | some node => exact .pure made
    | none => exact .pure stamped

omit goals in
theorem stamps_parenthesizedArrow {tried arrowTypes : Bool} :
    Stamps c (parenthesizedArrow tried arrowTypes) := by
  refine .skip fun _ => .skip fun _ => .skip fun _ => .skip fun _ => .skip fun _ => ?_
  refine .ite .nothing (.skip fun _ => .skip fun _ => .ite .nothing (.skip fun _ => ?_))
  refine .skip fun _ => .skip fun _ => .ite .nothing (.skip fun _ => .skip fun _ => ?_)
  exact .skip fun _ => .ite .nothing (.some stamps_buildModified)

omit goals in
theorem stamps_parenthesizedArrow? {arrowTypes : Bool} :
    Stamps c (parenthesizedArrow? arrowTypes) := by
  refine .skip fun _ => .ite .nothing (.skip fun guess => ?_)
  cases guess with
  | no => exact .nothing
  | yes => exact stamps_parenthesizedArrow
  | maybe => exact .attempt stamps_parenthesizedArrow

omit goals in
theorem stamps_simpleArrow {start : NodeStart} {mods : Option (List Node)} {name : Node}
    {arrowTypes : Bool} : Stamps c (simpleArrow start mods name arrowTypes) :=
  .skip fun _ => .skip fun _ => .skip fun _ => .skip fun _ => stamps_buildModified

omit goals in
theorem stamps_simpleArrow? {arrowTypes : Bool} : Stamps c (simpleArrow? arrowTypes) := by
  refine .skip fun _ => .ite ?_ ?_
  · exact .skip fun _ => .skip fun _ => .skip fun _ => .some stamps_simpleArrow
  exact .skip fun _ => .ite (.skip fun _ => .skip fun _ => .some stamps_simpleArrow) .nothing

theorem stamps_assignmentWorker {arrowTypes : Bool} :
    Stamps c (assignmentWorker arrowTypes) := by
  have yields : Stamps c yieldExpression :=
    .skip fun _ => .skip fun _ => .skip fun _ => .ite (.skip fun _ => .skip fun _ => stamps_build)
      (.skip fun _ => .skip fun _ => stamps_build)
  refine .skip fun _ => .ite yields (.bind stamps_parenthesizedArrow? fun o arrow => ?_)
  cases o with
  | some found => exact .pure arrow
  | none =>
    refine .bind stamps_simpleArrow? fun o arrow => ?_
    cases o with
    | some found => exact .pure arrow
    | none => exact goals _ c rfl

omit goals in
theorem stamps_functionExpression : Stamps c functionExpression :=
  .skip fun _ => .skip fun _ => .skip fun _ => .skip fun _ => .skip fun _ => .skip fun _ =>
    .skip fun _ => stamps_buildModified

omit goals in
theorem stamps_classExpression : Stamps c classExpression := by
  refine .skip fun _ => .skip fun _ => .skip fun _ => ?_
  refine .skip fun _ => .skip fun _ => .skip fun _ => ?_
  exact .skip fun _ => .ite (.skip fun _ => .skip fun _ => .skip fun _ => stamps_buildModified)
    (.skip fun _ => stamps_buildModified)

omit goals [Grammar] in
theorem stamps_importOperand : Stamps c importOperand :=
  .skip fun _ => .bind stamps_takeToken fun _ stamped => .skip fun _ =>
    .ite (.skip fun _ => stamps_buildWith) (.pure stamped)

omit goals in
theorem stamps_newExpression : Stamps c newExpression := by
  refine .skip fun _ => .skip fun _ => .skip fun _ => .ite (.skip fun _ => stamps_buildWith) ?_
  refine .skip fun _ => .skip fun _ => .skip fun _ => .skip fun _ => ?_
  have rest (start : NodeStart) (target : Node) (typeArgs : Option (List Node)) : Stamps c (do
      let args ← optionally (← isAt .openParenToken) arguments
      build .newExpression start
        [.one .expression target, .optList .typeArguments typeArgs, .optList .arguments args]) :=
    .skip fun _ => .skip fun _ => stamps_build
  exact .ite (.skip fun _ => rest _ _ _) (rest _ _ _)

omit goals in
theorem stamps_primaryStep : Stamps c primaryStep := by
  refine .skip fun k => ?_
  have name : Stamps c nameOperand := stamps_identifierOr
  split
  case h_1 | h_2 | h_3 => exact stamps_literal
  case h_4 => exact stamps_templatePiece
  case h_5 | h_6 | h_7 | h_8 | h_9 => exact stamps_takeToken
  case h_10 => exact stamps_importOperand
  case h_11 => exact .skip fun _ => .skip fun _ => .skip fun _ => .skip fun _ => stamps_build
  case h_12 | h_13 => exact .skip fun _ => .skip fun _ => stamps_build
  case h_14 => exact .skip fun _ => .ite stamps_functionExpression name
  case h_15 => exact stamps_functionExpression
  case h_16 => exact stamps_classExpression
  case h_17 => exact stamps_newExpression
  case h_18 | h_19 => exact .skip fun _ => .skip fun _ => .ite stamps_literal name
  case h_20 => exact stamps_templateExpression
  case h_21 => exact stamps_privateIdentifier
  case h_22 => exact name

omit goals in
theorem stamps_openingTag {inExpression : Bool} : Stamps c (openingTag inExpression) := by
  have built {kind : Kind} {start : NodeStart} {slots : List Slot}
      {name : Option (Node × TagName)} :
      Stamps c (build kind start slots >>= fun node => pure (⟨node, name⟩ : Parser.Opening)) :=
    .bind stamps_build fun _ stamped => .pure stamped
  refine .skip fun _ => .skip fun _ => .skip fun _ => .ite (.skip fun _ => built) ?_
  refine .skip fun tag => .skip fun _ => .skip fun _ => .skip fun _ => ?_
  refine .ite (.skip fun _ => built) ?_
  exact .skip fun _ => .skip fun _ => built

omit goals in
theorem stamps_elementStep {inExpression : Bool} : Stamps c (elementStep inExpression) := by
  refine .skip fun _ => .bind stamps_openingTag fun opening stamped => ?_
  split
  · exact .skip fun _ => .skip fun _ => stamps_build
  · exact .ite (.pure stamped) (.skip fun _ => .skip fun _ => stamps_build)

theorem stamps_step {g : Goal} (value : g.isValue) : Stamps c (step g) := by
  cases g with
  | assignment arrowTypes => exact .nested (stamps_assignmentWorker goals) stamps_missingIdentifier
  | binary min arrowTypes => exact stamps_binaryStep goals
  | unary => exact .nested (stamps_unaryWorker goals) stamps_missingIdentifier
  | primary => exact stamps_primaryStep
  | element inExpression => exact stamps_elementStep
  | statement | type | typeOperand | binding | namespaceTail => cases value

end Values

omit [Grammar] in
/-- Within any bound the answer to a goal for a value carries the context of the call. -/
theorem stamps_goal (fuel : Nat) (g : Goal) (c : Context) (value : g.isValue) :
    Stamps c (goal fuel g) := by
  induction fuel generalizing g c with
  | zero => exact .skip fun _ => stamps_missingIdentifier
  | succ fuel ih => exact @stamps_step c ⟨goal fuel⟩ (fun g c value => ih g c value) g value

section Lists

variable {P : Node → Prop} {element : Parser Node} {s : State}

omit [Grammar] in
/-- What holds of every element that is read holds of all elements of a list. -/
theorem all_delimited (each : ∀ t, Leads element t fun n _ => P n) (c : ListContext) :
    Leads (delimited c element) s fun list _ => ∀ n ∈ list.elements, P n := by
  have none : ∀ n ∈ ({} : Delimited).elements, P n := fun _ no => absurd no List.not_mem_nil
  have turn (found : Delimited) (t : State) (all : ∀ n ∈ found.elements, P n) :
      Leads (delimitedTurn c element found) t fun x _ => ∀ n ∈ x.value.elements, P n := by
    refine Leads.skip fun _ t => Leads.ite (fun _ => Leads.read ?_) fun _ => ?_
    · refine (each t).bind fun node t holds => ?_
      have more : ∀ n ∈ node :: found.elements, P n := List.forall_mem_cons.mpr ⟨holds, all⟩
      refine Leads.read (Leads.ite (fun _ => Leads.skip fun _ _ => Leads.skip fun _ _ => more)
        fun _ => Leads.read (Leads.ite (fun _ => more) fun _ => ?_))
      exact Leads.skip fun _ _ => more
    · refine Leads.read (Leads.ite (fun _ => all) fun _ => Leads.skip fun _ _ => ?_)
      exact Leads.ite (fun _ => all) fun _ => all
  have looped : Leads (inList c (loop {} (delimitedTurn c element))) s fun list _ =>
      ∀ n ∈ list.elements, P n := Leads.handed none fun found t _ => turn found t
  refine looped.bind fun found t all => ?_
  have reversed : ∀ n ∈ found.elements.reverse, P n := fun n hn => all n (List.mem_reverse.mp hn)
  split
  · exact Leads.ite (fun _ => Leads.skip fun _ _ => reversed) fun _ => reversed
  · exact reversed

omit [Grammar] in
theorem all_bracketed (each : ∀ t, Leads element t fun n _ => P n) (c : ListContext)
    (opening closing : Kind) :
    Leads (bracketed c opening closing element) s fun list _ => ∀ n ∈ list.elements, P n := by
  refine Leads.skip fun _ t => Leads.ite (fun _ => ?_) fun _ => ?_
  · exact (all_delimited each c).bind fun _ _ all => Leads.skip fun _ _ => all
  · exact fun _ no => absurd no List.not_mem_nil

omit [Grammar] in
theorem all_optionally {α : Type} [Holds α] {p : Parser α} {b : Bool}
    (each : ∀ t, Leads p t fun a _ => ∀ n ∈ held a, P n) :
    Leads (optionally b p) s fun o _ => ∀ n ∈ held o, P n :=
  Leads.ite (fun _ => each s) fun _ => fun _ no => absurd no List.not_mem_nil

end Lists

section Brackets

variable {s : State} (goals : ∀ (g : Goal) (c : Context), g.isValue → Stamps c (Grammar.parse g))

include goals

theorem allowsIn_assignmentWithIn : Leads assignmentWithIn s fun n _ => n.allowsIn := by
  have stamped := goals (.assignment true) { s.context with disallowIn := false } rfl
    (s.withContext _) rfl _ (List.mem_singleton_self _)
  exact congrArg (!·.disallowIn) stamped

/-- Between brackets of their own neither `in` nor an index is refused. -/
theorem free_expressionWithIn :
    Leads expressionWithIn s fun n _ => n.allowsIn ∧ n.isUndecorated := by
  have values (c : Context) : Stamps c (do
      let start ← nodeStart
      let first ← assignment true
      loop first fun left => do
        if ← isAt .commaToken then
          let operator ← takeToken
          let right ← assignment true
          return .again (← build .binaryExpression start
            [.one .left left, .one .operatorToken operator, .one .right right])
        return .done left) := by
    refine .skip fun _ => .bind (goals _ c rfl) fun _ stamped => .loop stamped fun _ stamped => ?_
    refine .skip fun _ => .ite (.skip fun _ => .skip fun _ => ?_) (.pure stamped)
    exact .bind stamps_build fun _ stamped => .pure stamped
  have stamped := values { s.context with disallowIn := false, decorator := false }
    (s.withContext _) rfl _ (List.mem_singleton_self _)
  have allows := congrArg (fun c : Context => !c.disallowIn) stamped
  have undecorated := congrArg (fun c : Context => !c.decorator) stamped
  exact ⟨allows, undecorated⟩

theorem free_argument : Leads argument s fun n _ => n.isPlace ∨ n.allowsIn := by
  apply Leads.read
  split
  · exact .inl rfl
  · exact .inl rfl
  · exact .inr (allowsIn_assignmentWithIn goals)

theorem free_arguments : Leads arguments s fun args _ => ∀ n ∈ args, n.isPlace ∨ n.allowsIn :=
  (all_bracketed (fun _ => free_argument goals) _ _ _).bind fun _ _ all => all

end Brackets

end ScriptGrammar
