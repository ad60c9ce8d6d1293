import ScriptGrammar.Parse.Expression
import ScriptGrammar.Parse.Primary
import ScriptGrammar.Proofs.Chain.Cursor
import ScriptGrammar.Proofs.Parse.Tokens

/-!
# Climbing along a chain

From a name on, the loop that folds operators draws a tree over the part of the chain it takes, and
stops before an operator too loose for it. A `<` is tried as type arguments first; nothing in a
chain can follow these, so the attempt is always given up.
-/

namespace ScriptGrammar

open Parse ScriptGrammar.Parser

variable {src : Source} {s t : State} {o : Operator} {n : PlainName}
  {r : List (Operator × PlainName)}

/-- The node is the tree: identifiers for the names, and for each operation a binary expression of
its operands with the operator between them. -/
inductive Node.Draws : Node → OperatorTree → Prop where
  | name {node : Node} {n : PlainName} (kind : node.kind = .identifier)
      (text : node.detail = .name n.text none) (leaf : node.children = []) : Draws node (.name n)
  | operation {node left operator right : Node} {l r : OperatorTree} {o : Operator}
      (kind : node.kind = .binaryExpression) (children : node.children = [left, operator, right])
      (parts : left.part = .left ∧ operator.part = .operatorToken ∧ right.part = .right)
      (first : Draws left l) (between : operator.kind = o.kind) (second : Draws right r) :
      Draws node (.operation l o r)

theorem Node.Draws.as {node : Node} {t : OperatorTree} (h : node.Draws t) (p : Part) :
    (node.as p).Draws t := by
  cases node
  cases h with
  | name kind text leaf => exact .name kind text leaf
  | operation kind children parts first between second =>
    exact .operation kind children parts first between second

/-- An operation closed over drawn operands. -/
theorem Node.Draws.ofSlots {left operator right : Node} {l r : OperatorTree} (first : left.Draws l)
    (between : operator.kind = o.kind) (second : right.Draws r) {info : NodeInfo}
    (kind : info.kind = .binaryExpression) :
    (Node.ofSlots info .none [.one .left left, .one .operatorToken operator,
      .one .right right]).Draws (.operation l o r) :=
  .operation kind rfl ⟨part_as _ _, part_as _ _, part_as _ _⟩ (first.as _)
    ((kind_as _ _).trans between) (second.as _)

/-- The name `n` was read. -/
structure Named (src : Source) (s : State) (n : PlainName) (r : List (Operator × PlainName))
    (node : Node) (t : State) : Prop where
  drawn : node.Draws (.name n)
  rest : AtRest src t r
  lt : s.prevEnd < t.prevEnd

theorem leads_nameOperand (h : AtName src s n r) : Leads nameOperand s (Named src s n r) := by
  have named : s.atIdentifier = true := by simp [State.atIdentifier, h.token]; rfl
  have more : s.token ≠ .endOfFileToken := ne_endOfFile h.token (by decide)
  show Leads (identifierIf s.atIdentifier _) s _
  rw [named]
  refine ⟨.name rfl ?_ rfl, h.advance.unmoved ⟨rfl, rfl, rfl, rfl, rfl⟩, h.lt_advance more⟩
  show Detail.name s.scanner.value (if s.token == .identifier then none else some s.token) = _
  rw [h.here.value, h.token]
  rfl

theorem leads_primaryStep [Grammar] (h : AtName src s n r) :
    Leads primaryStep s (Named src s n r) := by
  unfold primaryStep
  apply Leads.read
  rw [h.token]
  exact leads_nameOperand h

theorem leads_moves {α : Type} (p : Parser α) (s : State) : Leads p s fun _ t => Moves s t :=
  p.moves s

/-- Type arguments need a parenthesis or a template behind them. -/
theorem valueTypeArguments_eq_none [Grammar] (h : Calm src s) :
    Leads (valueTypeArguments true) s fun found _ => found = none := by
  have bare : s.scanner.source.Avoids callOpeners := h.source ▸ h.bare
  refine Leads.ifNotAt (fun _ => rfl) fun _ => Leads.read ?_
  apply (leads_moves next s).bind
  intro _ t first
  apply (leads_moves (delimited .typeArguments type) t).bind
  intro list u second
  refine Leads.read (Leads.ite (fun _ => rfl) fun _ => ?_)
  apply (leads_moves next u).bind
  intro _ v third
  have moves : Moves s v := .trans first (.trans second third)
  have plain := moves.avoids h.clear (fun _ => by decide) bare h.unopened
  refine Leads.read (Leads.ite (fun _ => rfl) fun follows => absurd plain ?_)
  have opens : v.token = .openParenToken ∨ v.token = .noSubstitutionTemplateLiteral ∨
      v.token = .templateHead := by
    simpa [Decidable.or_iff_not_imp_left] using follows
  rcases opens with at_ | at_ | at_ <;> simp [at_, Kind.Avoids, Kind.opener?, callOpeners]

theorem attempt_eq_none {α : Type} {p : Parser (Option α)} (h : s.Clear)
    (fails : Leads p s.openAttempt fun found _ => found = none) :
    Leads (attempt p) s fun found t => found = none ∧ Restored s t := by
  have failed : (p.attempt.run s).1 = none := by
    have fails : (p.run s.openAttempt).1 = none := fails
    simp only [attempt]
    cases ran : p.run s.openAttempt with
    | mk found t =>
      rw [ran] at fails
      have fails : found = none := fails
      rw [fails]
  exact ⟨failed, restored_attempt h p failed⟩

/-- A loop whose first turn is the last. -/
theorem Parser.Leads.once {α : Type} {a : α} {body : α → Parser (Turn α)} {Q : α → State → Prop}
    (turn : Leads (body a) s fun x t => ∃ b, x = .done b ∧ Q b t) :
    Leads (Parser.loop a body) s Q := by
  obtain ⟨b, done, holds⟩ := turn
  have first : (turnBound s) = 4 * (s.scanner.source.size + 4) - 1 + 1 := by
    unfold turnBound
    omega
  show Q (Parser.turns body (turnBound s) a s).1 (Parser.turns body (turnBound s) a s).2
  rw [first]
  cases ran : (body a).run s with
  | mk x t =>
    rw [ran] at done holds
    have done : x = .done b := done
    simp only [Parser.turns, ran, done]
    exact holds

/-- The only token behind a name that could belong to it is a `<`. -/
theorem AtRest.angle (h : AtRest src s r) (valid : s.token.postfixTier.isValid) :
    s.token = .lessThanToken := by
  have listed : ∀ e ∈ joiningOperators, e.1.postfixTier.isValid → e.1 = .lessThanToken := by decide
  rcases h.token with ended | angle | ⟨o, at_⟩
  · rw [ended] at valid
    cases valid
  · rw [angle] at valid
    cases valid
  · rw [at_] at valid ⊢
    exact listed _ o.listed valid

/-- What the loop asks of an operator. -/
structure Kind.Joins (k : Kind) : Prop where
  valid : k.binaryTier.isValid
  noComma : k.binaryTier ≠ .comma
  tight : Tier.assignment.looserThan k.binaryTier
  noCast : (k == .asKeyword || k == .satisfiesKeyword) = false
  noQuestion : (k == .questionToken) = false
  noAssignment : k.isAssignment = false
  more : k ≠ .endOfFileToken

theorem Operator.joins (o : Operator) : o.kind.Joins := by
  have all : ∀ e ∈ joiningOperators, e.1.binaryTier.isValid ∧ e.1.binaryTier ≠ .comma ∧
      Tier.assignment.looserThan e.1.binaryTier ∧
      (e.1 == .asKeyword || e.1 == .satisfiesKeyword) = false ∧ (e.1 == .questionToken) = false ∧
      e.1.isAssignment = false ∧ e.1 ≠ .endOfFileToken := by decide
  obtain ⟨valid, noComma, tight, noCast, noQuestion, noAssignment, more⟩ := all _ o.listed
  exact ⟨valid, noComma, tight, noCast, noQuestion, noAssignment, more⟩

/-- A tree was drawn over the name `n` and what comes behind it, down to `rest`. -/
structure Joined (src : Source) (s : State) (n : PlainName) (r rest : List (Operator × PlainName))
    (node : Node) (t : State) : Prop where
  drawn : ∃ tree, node.Draws tree ∧ tree.chain.first = n ∧ r = tree.chain.rest ++ rest
  rest : AtRest src t rest
  lt : s.prevEnd < t.prevEnd

/-- A climb takes all operators but those behind one looser than `min`. -/
def Climbed (src : Source) (s : State) (n : PlainName) (r : List (Operator × PlainName))
    (min : Tier) (node : Node) (t : State) : Prop :=
  ∃ rest, Joined src s n r rest node t ∧
    ∀ p ∈ rest.head?, p.1.kind.binaryTier.looserThan min

section Operands

variable [Grammar]

/-- Behind a name of a chain comes nothing that belongs to it. -/
theorem leads_postfixes_rest (h : AtRest src s r) (start : NodeStart) (first : Node) :
    Leads (postfixes start first true) s fun node t => node = first ∧ Unmoved s t := by
  unfold postfixes
  apply Leads.bind (P := fun c t => c.target = first ∧ Unmoved s t)
  · apply Leads.once
    apply Leads.read
    refine Leads.ite (fun _ => ⟨_, rfl, rfl, rfl, rfl, rfl, rfl, rfl⟩) fun tight => ?_
    have angle : s.token = .lessThanToken := h.angle (by simp at tight; exact tight.1)
    rw [angle]
    have calm : Calm src s.openAttempt := h.toCalm.unmoved (.openAttempt s)
    have linked : Leads (link? start ⟨first, false⟩ none true) s fun found t =>
        found = none ∧ Unmoved s t := by
      unfold link?
      apply Leads.read
      rw [angle]
      apply (attempt_eq_none h.clear (valueTypeArguments_eq_none calm)).bind
      rintro found t ⟨rfl, restored⟩
      exact ⟨rfl, .restored restored⟩
    apply linked.bind
    rintro found t ⟨rfl, unmoved⟩
    exact ⟨_, rfl, rfl, unmoved⟩
  · rintro c t ⟨same, unmoved⟩
    exact ⟨same, unmoved⟩

/-- What the grammar has to answer: names, and climbs over less than `bound` operators. -/
structure Serves (src : Source) (bound : Nat) : Prop where
  name : ∀ {s : State} {n : PlainName} {r : List (Operator × PlainName)}, AtName src s n r →
    Leads (Grammar.parse .primary) s (Named src s n r)
  climb : ∀ {s : State} {n : PlainName} {r : List (Operator × PlainName)}, AtName src s n r →
    r.length < bound → ∀ (min : Tier) (arrowTypes : Bool),
      Leads (Grammar.parse (.binary min arrowTypes)) s (Climbed src s n r min)

theorem leads_leftHandSide {bound : Nat} (serves : Serves src bound) (h : AtName src s n r) :
    Leads leftHandSide s (Named src s n r) := by
  unfold leftHandSide
  apply Leads.read
  apply (serves.name h).bind
  rintro first t ⟨drawn, rest, lt⟩
  apply (leads_postfixes_rest rest s.nodeStart first).mono
  rintro node u ⟨rfl, unmoved⟩
  exact ⟨drawn, rest.unmoved unmoved, unmoved.prevEnd ▸ lt⟩

theorem leads_unary {bound : Nat} (serves : Serves src bound) (h : AtName src s n r) :
    Leads unary s (Named src s n r) := by
  have starts : Leads startsUpdate s fun b t => b = true ∧ t = s := by
    unfold startsUpdate
    apply Leads.read
    rw [h.token]
    exact ⟨rfl, rfl⟩
  unfold unary
  apply starts.bind
  rintro _ t ⟨rfl, rfl⟩
  show Leads update t _
  unfold update
  refine Leads.read (Leads.read ?_)
  rw [h.token]
  refine Leads.ite (fun no => (nomatch no)) fun _ => ?_
  refine Leads.read (Leads.ite (fun no => (nomatch no)) fun _ => ?_)
  apply (leads_leftHandSide serves h).bind
  intro node u named
  refine Leads.read (Leads.read (Leads.ite (fun update => ?_) fun _ => named))
  have valid : u.token.postfixTier = .update := by simp at update; exact update.1
  have angle := named.rest.angle (by rw [valid]; rfl)
  rw [angle] at valid
  cases valid

/-- An operator takes what the climb behind it draws. -/
theorem leads_operation {bound : Nat} (serves : Serves src bound) {left : Node} {l : OperatorTree}
    (h : AtOperator src s o n r) (short : r.length < bound) (drawn : left.Draws l)
    (start : NodeStart) (arrowTypes : Bool) :
    Leads (operation? start left o.kind arrowTypes) s fun found t =>
      ∃ node tree rest, found = some node ∧ node.Draws (.operation l o tree) ∧
        tree.chain.first = n ∧ r = tree.chain.rest ++ rest ∧ AtRest src t rest ∧
        s.prevEnd < t.prevEnd := by
  unfold operation?
  apply Leads.read
  rw [h.context, o.joins.noCast, o.joins.noQuestion, o.joins.noAssignment]
  refine Leads.ite (fun no => by simp at no) fun _ => ?_
  have taken : Leads takeToken s fun operator t => operator.kind = o.kind ∧ AtName src t n r ∧
      s.prevEnd < t.prevEnd :=
    ⟨h.token, h.advance.unmoved ⟨rfl, rfl, rfl, rfl, rfl⟩,
      h.lt_advance (ne_endOfFile h.token o.joins.more)⟩
  apply taken.bind
  rintro operator t ⟨kind, name, lt⟩
  apply (serves.climb name short _ arrowTypes).bind
  rintro right u ⟨rest, ⟨⟨tree, drawnRight, first, split⟩, atRest, lt'⟩, _⟩
  exact ⟨_, tree, rest, rfl, .ofSlots drawn kind drawnRight rfl, first, split,
    atRest.unmoved ⟨rfl, rfl, rfl, rfl, rfl⟩, Nat.lt_trans lt lt'⟩

theorem leads_binaryRest_chain {bound : Nat} (serves : Serves src bound) {left : Node}
    (named : Named src s n r left t) (short : r.length ≤ bound) (start : NodeStart) (min : Tier)
    (arrowTypes : Bool) :
    Leads (binaryRest start min left arrowTypes) t (Climbed src s n r min) := by
  unfold binaryRest
  apply Leads.loop (fun left u => ∃ rest, Joined src s n r rest left u)
  · rintro left u ⟨rest, joined⟩
    rw [named.rest.source]
    exact joined.rest.prevEnd_le_size
  · exact ⟨r, ⟨.name n, named.drawn, rfl, rfl⟩, named.rest, named.lt⟩
  rintro left u ⟨rest, ⟨tree, drawn, first, split⟩, atRest, lt⟩
  cases rest with
  | nil =>
    have ended : u.token = .endOfFileToken := atRest.here
    refine Leads.ifAt (fun angle => absurd (ended.symm.trans angle) (by decide)) fun _ => ?_
    apply Leads.read
    rw [ended]
    exact ⟨[], ⟨⟨tree, drawn, first, split⟩, atRest, lt⟩, fun _ no => (nomatch no)⟩
  | cons p rest =>
    obtain ⟨o, m⟩ := p
    apply Leads.fork fun (_ : Unit) v => AtOperator src v o m rest ∧ v.prevEnd = u.prevEnd
    · intro goOn
      refine Leads.ifAt (fun _ => ?_) fun away => ?_
      · have reread : Leads (Parser.reread .greater) u fun _ v =>
            AtOperator src v o m rest ∧ v.prevEnd = u.prevEnd := ⟨atRest.reread, rfl⟩
        exact reread.bind goOn
      · exact goOn () u ⟨atRest.whole away, rfl⟩
    rintro _ v ⟨operator, still⟩
    apply Leads.read
    rw [operator.token]
    refine Leads.ite (fun loose => ?_) fun _ => ?_
    · have loose : o.kind.binaryTier.looserThan min := by
        simpa [o.joins.valid, o.joins.noComma] using loose
      refine ⟨_, ⟨⟨tree, drawn, first, split⟩, operator.rest, still ▸ lt⟩, ?_⟩
      rintro p ⟨⟩
      exact loose
    have fewer : rest.length < bound := by
      have length := congrArg List.length split
      simp only [List.length_append, List.length_cons] at length
      omega
    apply (leads_operation serves operator fewer drawn start arrowTypes).bind
    rintro _ w ⟨node, right, left, rfl, drawn, second, split', atRest, lt'⟩
    refine ⟨⟨left, ⟨⟨_, drawn, first, ?_⟩, atRest, ?_⟩⟩, still ▸ lt'⟩
    · rw [split, split']
      simp [OperatorTree.chain, OperatorChain.join, second]
    · exact Nat.lt_trans (still ▸ lt) lt'

theorem leads_binaryStep_chain {bound : Nat} (serves : Serves src bound) (h : AtName src s n r)
    (short : r.length ≤ bound) (min : Tier) (arrowTypes : Bool) :
    Leads (binaryStep min arrowTypes) s (Climbed src s n r min) := by
  unfold binaryStep
  apply Leads.read
  apply (leads_unary serves h).bind
  intro left t named
  exact leads_binaryRest_chain serves named short s.nodeStart min arrowTypes

end Operands

end ScriptGrammar
