import ScriptGrammar.Parse.State

/-!
# Moves

What a parse may do to its state, said once: read tokens, report, close nodes, enter names, and
do so inside a changed context, list or depth that is put back, or inside an attempt that is kept
or rolled back. Every parser carries a proof that it only moves so; a fact about all parsers is
an induction over `Moves`.
-/

namespace ScriptGrammar.Parse

inductive Moves : State → State → Prop where
  | refl (s) : Moves s s
  | trans {s t u} : Moves s t → Moves t u → Moves s u
  | advance (r s) : Moves s (s.advance r)
  | reread (r s) : Moves s (s.reread r)
  | report (range message args s) : Moves s (s.report range message args)
  | close (kind start s) : Moves s (s.close kind start).2
  | closeMissing (kind s) : Moves s (s.closeMissing kind).2
  | enterName (name s) : Moves s (s.enterName name)
  | starve (s) : Moves s s.starve
  | checkTurn (before s) : Moves s (s.checkTurn before)
  | inContext (c) {s t} : Moves (s.withContext c) t → Moves s (t.withContext s.context)
  | inList (l) {s t} : Moves (s.withLists l) t → Moves s (t.withLists s.lists)
  | nested {s t} : Moves (s.withDepth (s.depth + 1)) t → Moves s (t.withDepth s.depth)
  | kept {s t} : Moves s.openAttempt t → Moves s t.closeAttempt
  | rolledBack {s t} : Moves s.openAttempt t → Moves s (t.rollback s.checkpoint)

end ScriptGrammar.Parse
