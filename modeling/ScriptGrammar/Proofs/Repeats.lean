import Mathlib.Data.List.Chain
import ScriptGrammar.Parse.Document
import ScriptGrammar.Proofs.Parse.Attempt
import ScriptGrammar.Proofs.Scanner.Lexing

/-!
# Diagnostics that come again

What the grammar reports is compared with the last diagnostic, and left out where both begin at
the same position. So it does not come twice in a row, and going back from an attempt brings
nothing together that was apart. What the scanner reports is not compared with anything: a token
that is read again may report again.
-/

namespace ScriptGrammar

/-- The second diagnostic, if it is one of the grammar, begins elsewhere than the first. -/
def Diagnostic.Apart (d e : Diagnostic) : Prop :=
  e.message.isLexical = false → e.range.pos ≠ d.range.pos

def Diagnostics.Apart (ds : Diagnostics) : Prop := ds.toList.IsChain Diagnostic.Apart

namespace Diagnostics.Apart

variable {a b : Diagnostics}

theorem lexical (h : a.Apart) (k : Lexical a b) : b.Apart := by
  obtain ⟨more, rfl, all⟩ := k
  have known (d e : Diagnostic) (he : e ∈ more.toList) : Diagnostic.Apart d e := by
    intro grammar
    rw [all e (Array.mem_toList_iff.mp he)] at grammar
    cases grammar
  unfold Apart
  rw [Array.toList_append, List.isChain_append]
  refine ⟨h, ?_, fun d _ e he => known d e (List.mem_of_head? he)⟩
  refine (List.pairwise_of_forall_mem_list ?_).isChain
  exact fun d _ e he => known d e he

theorem push {d : Diagnostic} (h : a.Apart)
    (away : a.back?.any (·.range.pos == d.range.pos) = false) : Apart (a.push d) := by
  unfold Apart
  rw [Array.toList_push, List.isChain_append]
  refine ⟨h, .singleton d, fun last hl e he _ same => ?_⟩
  obtain rfl := Option.some.inj he
  have last : a.back? = some last := by rwa [← Array.getLast?_toList]
  simp [last, same] at away

end Diagnostics.Apart

namespace Parse

variable {s t : State}

theorem apart_report (range : Range) (message : Message) (args : List String)
    (h : s.diagnostics.Apart) : (s.report range message args).diagnostics.Apart := by
  unfold State.report
  dsimp only
  split
  · exact h
  · next away => exact h.push (Bool.eq_false_iff.mpr away)

/-- All that a scanner has to tell is taken over. -/
theorem State.Clear.lexical {more : Diagnostics} (h : s.Clear)
    (k : Lexical s.scanner.pending more) : Lexical s.diagnostics (s.diagnostics ++ more) := by
  obtain ⟨added, same, all⟩ := k
  rw [h.quiet, Array.empty_append] at same
  exact ⟨more, rfl, same ▸ all⟩

/-- Whatever a parse does, what the grammar reports stays apart from the diagnostic before it. -/
theorem Moves.apart (m : Moves s t) (clear : s.Clear) (h : s.diagnostics.Apart) :
    t.diagnostics.Apart := by
  induction m with
  | refl => exact h
  | trans first _ ih₁ ih₂ => exact ih₂ (first.frame clear).clear (ih₁ clear h)
  | advance r s => exact h.lexical (clear.lexical (r.lexical s.scanner))
  | reread r s => exact h.lexical (clear.lexical (r.lexical s.scanner))
  | report range message args => exact apart_report range message args h
  | close | closeMissing | enterName | starve | checkTurn => exact h
  | inContext _ _ ih | inList _ _ ih | nested _ ih | kept _ ih =>
    exact ih ⟨clear.sound, clear.quiet⟩ h
  | rolledBack inner _ =>
    rw [rollback_eq clear (inner.frame ⟨clear.sound, clear.quiet⟩)]
    exact h

end Parse

namespace Document

open Parse

variable (names : NameTable) (options : Options) (src : Source)

theorem apart_parseWith : (parseWith names options src).diagnostics.Apart := by
  have moves : Moves (.ofSource options names src) (run names options src).2 :=
    (@Parser.document ⟨Parser.goal (depthBound src)⟩).moves _
  exact moves.apart (clear_ofSource options names src) .nil

/-- What the grammar reports is repeated only behind a diagnostic that begins elsewhere. -/
theorem parse_repeats {i j : Nat} {d e : Diagnostic} (lt : i < j)
    (first : (parseWith names options src).diagnostics[i]? = some d)
    (second : (parseWith names options src).diagnostics[j]? = some e)
    (grammar : e.message.isLexical = false) (same : e.range = d.range) :
    ∃ k f, i < k ∧ k < j ∧ (parseWith names options src).diagnostics[k]? = some f ∧
      f.range.pos ≠ e.range.pos := by
  have apart := apart_parseWith names options src
  generalize (parseWith names options src).diagnostics = ds at first second apart ⊢
  obtain ⟨k, rfl⟩ : ∃ k, j = k + 1 := ⟨j - 1, by omega⟩
  obtain ⟨below, here⟩ := Array.getElem?_eq_some_iff.mp second
  have away : e.range.pos ≠ ds[k].range.pos := by
    have next := List.isChain_iff_getElem.mp apart k (by simpa using below)
    simp only [Array.getElem_toList, here] at next
    exact next grammar
  have before : ds[k]? = some ds[k] := Array.getElem?_eq_getElem (by omega)
  refine ⟨k, ds[k], ?_, Nat.lt_succ_self k, before, away.symm⟩
  rcases Nat.lt_or_eq_of_le (Nat.le_of_lt_succ lt) with lt | rfl
  · exact lt
  · obtain rfl := Option.some.inj (first.symm.trans before)
    exact absurd (congrArg Range.pos same) away

/-- Two lists left open at the end of the source miss the same bracket. The comma of the inner one
is reported in between. -/
theorem parse_repeats_lists :
    let ds := (parse {} (.ofString "let [[...a,")).diagnostics
    let missing : Diagnostic := ⟨.empty 11, .expected, ["]"]⟩
    (ds[0]? = some missing ∧ ds[2]? = some missing) ∧
      ∃ k f, 0 < k ∧ k < 2 ∧ ds[k]? = some f ∧ f.range.pos ≠ 11 := by
  intro ds missing
  have ends : ds[0]? = some missing ∧ ds[2]? = some missing := by decide +kernel
  exact ⟨ends, parse_repeats {} {} (.ofString "let [[...a,") (by decide) ends.1 ends.2 rfl rfl⟩

/-- A template that is read again for its escapes is reported unterminated again. -/
theorem parse_repeats_template :
    ¬ (parse {} (.ofString "\x60\x5c8")).diagnostics.toList.Pairwise
      fun d e => d.range ≠ e.range ∨ d.code ≠ e.code := by
  decide +kernel

end Document
end ScriptGrammar
