import ScriptGrammar.Proofs.Parse.Blind
import ScriptGrammar.Proofs.Parse.Goals

/-!
# A parse comes to the end of its source

No bound is reached, no loop turns without taking a token, and the outermost list ends at the end
of the source only: there no other list is open that could want a token, so what is not the
beginning of a statement is skipped.
-/

namespace ScriptGrammar

open Parse ScriptGrammar.Parser

variable {s t : State}

/-- No statement begins at the cursor. -/
def Silent (s : State) : Prop := (startsStatement.run s).1 = false

theorem Silent.alike (h : Silent s) (alike : Alike s t) : Silent t :=
  (blind_startsStatement s t alike).1.trans h

section Outermost

variable [Grammar] {r : Nat}

theorem not_wanted (h : Room r s) (silent : Silent s) (more : s.token ≠ .endOfFileToken) :
    Leads (startsElement .sourceElements true <||> read (·.endsList .sourceElements)) s
      fun b _ => b = false := by
  obtain ⟨trace, same, _⟩ := asks_startsElement h .sourceElements true
  have answer : Leads (startsElement .sourceElements true) s fun b _ => b = false :=
    Leads.read (Leads.ite (fun _ => rfl) fun _ => silent)
  apply Leads.bind (P := fun b t => b = false ∧ t = s.withTrace trace) ⟨answer, same⟩
  rintro _ _ ⟨rfl, rfl⟩
  have goes : s.endsList .sourceElements = false := by simpa [State.endsList] using more
  exact goes

/-- Where no statement begins, the outermost list wants nothing. -/
theorem leads_wantedBy (h : Room r s) (silent : Silent s) (more : s.token ≠ .endOfFileToken)
    (alone : s.lists = [.sourceElements]) (cs : List ListContext) :
    Leads (wantedBy cs) s fun b _ => b = false := by
  induction cs generalizing s with
  | nil => rfl
  | cons c cs ih =>
    refine Leads.read (Leads.ite (fun wants => ?_) fun _ => ih h silent more alone)
    obtain rfl : c = .sourceElements := by simpa [alone] using wants
    have asks : Asks (startsElement .sourceElements true <||>
        read (·.endsList .sourceElements)) s :=
      asks_or (asks_startsElement h _ true) fun _ => asks_read _ _
    refine h.begin.answer asks fun trace g => Leads.ite (fun yes => ?_) fun _ => ?_
    · exact absurd (yes.symm.trans (not_wanted h silent more)) (by decide)
    · exact ih g.room (silent.alike ⟨rfl, rfl, rfl⟩) more alone

/-- The outermost list is not left before the end. -/
theorem leads_sourceTurn {element : Parser Node} (h : Room r s)
    (alone : s.lists = [.sourceElements])
    (found : List Node) :
    Leads (listTurn .sourceElements element found) s fun turn t =>
      ∀ all, turn = .done all → t.token = .endOfFileToken := by
  refine Leads.read (Leads.ite (fun ends => ?_) fun goes => ?_)
  · have ended : s.token = .endOfFileToken := by simpa [State.endsList] using ends
    exact fun _ _ => ended
  have more : s.token ≠ .endOfFileToken := by
    intro ended
    simp [State.endsList, ended] at goes
  apply h.begin.answer (asks_startsElement h _ false)
  intro trace g
  refine Leads.ite (fun _ => Leads.read ?_) fun quiet => ?_
  · apply Leads.bind (P := fun _ _ => True) trivial
    intro node t _
    exact Leads.read (Leads.ite (fun _ _ no => (by cases no)) fun _ _ no => (by cases no))
  · have silent : Silent s := by
      have same : Leads (startsElement .sourceElements false) s fun b _ =>
          b = (startsStatement.run s).1 :=
        Leads.read (Leads.ite (fun no => absurd no (by simp)) fun _ => rfl)
      exact same.symm.trans (Bool.eq_false_iff.mpr quiet)
    have complained : Leads (complain .sourceElements) (s.withTrace trace) fun b _ =>
        b = false := by
      have room := g.room.later
        (yields_reportHere (ListContext.complaint .sourceElements) [] (s.withTrace trace))
      have unwanted := leads_wantedBy room (silent.alike ⟨rfl, rfl, rfl⟩) more alone ListContext.all
      apply Leads.bind (P := fun _ t => t = _) rfl
      rintro _ _ rfl
      apply unwanted.bind
      rintro _ t rfl
      rfl
    apply complained.bind
    rintro _ t rfl
    exact fun _ no => (by cases no)

theorem leads_sourceList {element : Parser Node} (h : Room 6 s)
    (alone : s.lists = [.sourceElements]) (item : Item s.options element) :
    Leads (loop [] (listTurn .sourceElements element)) s fun _ t => t.token = .endOfFileToken := by
  refine (h.begin.loopWith List.reverse (fun _ _ => True) (fun _ t => t.token = .endOfFileToken)
    trivial fun found t g _ _ => ?_).mono fun _ _ left => left.2
  have both : Leads (listTurn .sourceElements element found) t fun turn u =>
      Grows s List.reverse t turn u ∧ ∀ all, turn = .done all → u.token = .endOfFileToken :=
    ⟨leads_listTurn item found g,
      leads_sourceTurn g.room ((g.yields.frame g.begun).lists.trans alone) found⟩
  apply both.mono
  intro turn u both
  cases turn with
  | again more => exact both.1
  | done all => exact ⟨both.1.1, both.1.2.1, both.2 all rfl⟩

/-- The statements of a source end with the source. -/
theorem leads_sourceElements {element : Parser Node} (h : Room 6 s) (alone : s.lists = [])
    (item : Item s.options element) :
    Leads (listOf .sourceElements element) s fun _ t => t.token = .endOfFileToken := by
  have lists : s.lists.insert .sourceElements = [.sourceElements] := by
    rw [alone]
    rfl
  exact leads_sourceList (h.inList (s.lists.insert .sourceElements)) lists item

end Outermost

/-- The marks of a bound reached and of an idle turn are never taken back. -/
theorem Parse.Moves.marks (m : Moves s t) :
    (s.exhausted → t.exhausted) ∧ (s.stalled → t.stalled) := by
  induction m with
  | trans _ _ first second => exact ⟨second.1 ∘ first.1, second.2 ∘ first.2⟩
  | starve => exact ⟨fun _ => rfl, id⟩
  | checkTurn before s =>
    refine ⟨id, fun marked => ?_⟩
    simp [State.checkTurn, marked]
  | inContext _ _ ih | inList _ _ ih | nested _ ih | kept _ ih | rolledBack _ ih => exact ih
  | _ => exact ⟨id, id⟩

/-- Where a loop comes to before its turns. -/
inductive Parser.Heads {α : Type} (body : α → Parser (Turn α)) : α → State → α → State → Prop where
  | here (a s) : Heads body a s a s
  | again {a b c s t u} : (body a).run s = (.again b, t) →
      Heads body b (t.checkTurn s.prevEnd) c u → Heads body a s c u

/-- In a loop that leaves no mark every turn takes a token, the last one aside. -/
theorem lt_turn {α : Type} {body : α → Parser (Turn α)} (fuel : Nat) {a b c : α} {s t u : State}
    (bounded : (turns body fuel a s).2.exhausted = false)
    (busy : (turns body fuel a s).2.stalled = false) (head : Heads body a s b t)
    (turn : (body b).run t = (.again c, u)) : t.prevEnd < u.prevEnd := by
  induction fuel generalizing a s with
  | zero => exact nomatch bounded
  | succ fuel ih =>
    cases head with
    | here =>
      simp only [turns, turn] at busy
      have quiet : (u.checkTurn t.prevEnd).stalled = false :=
        Bool.eq_false_iff.mpr fun marked =>
          Bool.eq_false_iff.mp busy ((moves_turns body fuel c _).marks.2 marked)
      have ahead := (Bool.or_eq_false_iff.mp quiet).2
      exact Nat.lt_of_not_le (of_decide_eq_false ahead)
    | again step rest =>
      simp only [turns, step] at bounded busy
      exact ih bounded busy rest

theorem le_stop_close (kind : Kind) (start : NodeStart) :
    start.pos ≤ (s.close kind start).1.range.stop := by
  simp only [State.close]
  omega

theorem stop_close_le {n : Nat} {start : NodeStart} (kind : Kind) (pos : start.pos ≤ n)
    (prevEnd : s.prevEnd ≤ n) (missing : s.missingAt ≤ n) :
    (s.close kind start).1.range.stop ≤ n := by
  simp only [State.close]
  split <;> omega

/-- A node begun and closed at the end of the source is empty there. -/
theorem range_close_at_end (h : s.Steady) (ended : s.token = .endOfFileToken) (kind : Kind) :
    (s.close kind s.nodeStart).1.range = .empty s.scanner.source.size := by
  have pos : s.nodeStart.pos = s.scanner.source.size := h.clear.sound.ended ended
  have above := le_stop_close (s := s) kind s.nodeStart
  have below := stop_close_le kind (Nat.le_of_eq pos) h.prevEnd_le_size h.missing_le
  have stop : (s.close kind s.nodeStart).1.range.stop = s.scanner.source.size :=
    Nat.le_antisymm below (pos ▸ above)
  exact congr (congrArg Range.mk pos) stop

namespace Document

variable (names : NameTable) (options : Options) (src : Source)

theorem token_body : (body names options src).2.token = .endOfFileToken := by
  let _ : Grammar := ⟨goal (depthBound src)⟩
  exact leads_sourceElements (room_first names options src) rfl fun _ h _ _ =>
    makes_statement h

theorem token_ending : (ending names options src).2.token = .endOfFileToken :=
  (State.token_close _ .endOfFileToken _).trans (token_body names options src)

theorem source_body : (body names options src).2.scanner.source = src :=
  ((yields_body names options src).frame (steady_first names options src)).scanner.source.trans
    (source_first names options src)

theorem range_ending : (ending names options src).1.range = .empty src.size :=
  (range_close_at_end (steady_body names options src) (token_body names options src) _).trans
    (congrArg (Range.empty ·.size) (source_body names options src))

theorem childrenAs_endOfFileToken : (run names options src).1.childrenAs .endOfFileToken =
    [(ending names options src).1.as .endOfFileToken] := by
  rw [run_eq]
  simp [Node.childrenAs, Node.children_ofSlots, Slot.nodes]

/-- Every parse ends without reaching a bound, every turn of a loop that goes on has taken a token,
and no character is cut; the statements reach to the end of the source, and there the last node
of the tree stands. -/
theorem parse_consumes_source :
    ((parseWith names options src).exhausted = false ∧
      (parseWith names options src).stalled = false ∧
      (parseWith names options src).torn = false) ∧
    (∀ {α : Type} (body : α → Parser (Turn α)) (a : α) (s : State),
      ((loop a body).run s).2.exhausted = false → ((loop a body).run s).2.stalled = false →
      ∀ {b c t u}, Heads body a s b t → (body b).run t = (.again c, u) → t.prevEnd < u.prevEnd) ∧
    (run names options src).2.token = .endOfFileToken ∧
    ∃ n, (parseWith names options src).root.childrenAs .endOfFileToken = [n] ∧
      n.kind = .endOfFileToken ∧ n.range = .empty src.size := by
  obtain ⟨root, y⟩ := yields_closed names options src
  have frame := y.frame (steady_first names options src)
  have start := frame_advance .plain (clear_ofSource options names src)
  have bounded : (closed names options src).2.exhausted = false := y.bounded.1
  have busy : (closed names options src).2.stalled = false := y.bounded.2
  have whole : (closed names options src).2.scanner.torn = false :=
    frame.scanner.torn.trans start.scanner.torn
  have token : (closed names options src).2.token = .endOfFileToken :=
    (State.token_close _ _ _).trans (token_ending names options src)
  rw [parseWith_eq, final_eq]
  dsimp only
  refine ⟨⟨bounded, busy, whole⟩, ?_, token, ?_⟩
  · intro α body a s bounded busy
    exact lt_turn (turnBound s) bounded busy
  · exact ⟨_, childrenAs_endOfFileToken names options src, rfl, range_ending names options src⟩

end Document

end ScriptGrammar
