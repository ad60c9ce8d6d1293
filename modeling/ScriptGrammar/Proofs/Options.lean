import ScriptGrammar.Proofs.Options.Productions
import ScriptGrammar.Proofs.Parse.Goals

/-!
# What the options change

The goals are indifferent to a change of the options, or lenient, by induction on the bound of their
recursion, and so is all of a parse but its last step, which writes the variant into the root. Hence
the variant does not matter in a source without `<`. The switches matter only to what is reported
without them, in the end or in an attempt that is given up. There a report may decide how the source
is read; in a source without braces it does not, since no attempt comes to a switch.
-/

namespace ScriptGrammar

open Parse ScriptGrammar.Parser

variable {ch : Change}

/-- The node with another detail. -/
def Node.withDetail (d : Detail) : Node → Node | mk i p _ l c => mk i p d l c

theorem indifferent_step [Grammar] [Answers ch] {g : Goal} (inner : g.isInner) :
    Indifferent ch (step g) := by
  cases g with
  | statement | namespaceTail => cases inner
  | _ => unfold step; infer_instance

theorem lenient_step [Grammar] [Answers ch] (g : Goal) : Lenient ch (step g) := by
  cases g <;> unfold step <;> infer_instance

theorem compliant_goal (ch : Change) (fuel : Nat) :
    (∀ g : Goal, g.isInner → Indifferent ch (goal fuel g)) ∧ ∀ g, Lenient ch (goal fuel g) := by
  induction fuel with
  | zero =>
    have starves : Indifferent ch starved := by
      unfold starved
      infer_instance
    exact ⟨fun _ _ => starves, fun _ => .outside starved⟩
  | succ fuel ih =>
    let _ : Grammar := ⟨goal fuel⟩
    have answers : Answers ch := ⟨fun {g} => ih.1 g, ih.2⟩
    constructor
    · intro g inner
      have production : Indifferent ch (step g) := indifferent_step inner
      exact Compliant.delay fun _ => step g
    · intro g
      have production : Lenient ch (step g) := lenient_step g
      exact Compliant.delay fun _ => step g

namespace Document

variable (names : NameTable) (options : Options) {src : Source} {o : Options}

theorem twin_first (relates : ch.Relates options o) (plain : src.Avoids ch.openers) :
    (first names options src).Twin ch o := by
  have start : (State.ofSource options names src).Twin ch o :=
    ⟨clear_ofSource options names src, plain, Kind.avoids_of_opener? rfl, relates⟩
  exact start.moves (.advance .plain _)

theorem first_withOptions : first names o src = (first names options src).withOptions o := rfl

theorem body_complies (relates : ch.Relates options o) (plain : src.Avoids ch.openers) :
    body names o src =
        ((body names options src).1, (body names options src).2.withOptions o) ∨
      ch.Excuses false (body names options src).2 := by
  have statement := (compliant_goal ch (depthBound src)).2 .statement
  have statements : Lenient ch (listOf .sourceElements (goal (depthBound src) .statement)) :=
    inferInstance
  unfold body
  rw [first_withOptions names options]
  exact statements.complies (twin_first names options relates plain)

theorem options_closed (src : Source) : (closed names options src).2.options = options := by
  obtain ⟨_, yields⟩ := yields_closed names options src
  exact (yields.frame (steady_first names options src)).options

/-- The root states the variant that the parse is of. -/
theorem detail_run (src : Source) :
    (run names options src).1.detail = .variant options.variant := by
  rw [run_eq, options_closed names options src]
  rfl

/-- If the statements are the same, all is, but for the variant that the root states. -/
theorem parseWith_of_body (same : body names o src =
      ((body names options src).1, (body names options src).2.withOptions o)) :
    parseWith names o src = { parseWith names options src with
      root := (parseWith names options src).root.withDetail (.variant o.variant) } := by
  have ended : ending names o src =
      ((ending names options src).1, (ending names options src).2.withOptions o) := by
    unfold ending
    rw [same]
    generalize body names options src = found
    rfl
  have last : closed names o src =
      ((closed names options src).1, (closed names options src).2.withOptions o) := by
    unfold closed
    rw [ended]
    generalize ending names options src = found
    rfl
  rw [parseWith_eq, parseWith_eq, run_eq, run_eq, last, ended, same]
  rfl

theorem root_withDetail : (parseWith names options src).root.withDetail
    (.variant options.variant) = (parseWith names options src).root := by
  have detail := detail_run names options src
  rw [parseWith_eq]
  revert detail
  rcases (run names options src).1 with ⟨i, p, d, l, c⟩
  rintro rfl
  rfl

/-- Where no `<` is written, elements allowed or not make no difference: the diagnostics, the names
and the tree are the same, but for the variant that the root states. -/
theorem parse_variant (plain : '<' ∉ src.text.toList) :
    parseWith names { options with variant := .jsx } src =
      { parseWith names { options with variant := .standard } src with
        root := (parseWith names { options with variant := .standard } src).root.withDetail
          (.variant .jsx) } ∧
    (parseWith names { options with variant := .standard } src).root.detail =
      .variant .standard := by
  have plain : src.Avoids Change.variant.openers := by
    intro c among p here
    obtain rfl := List.mem_singleton.mp among
    exact plain (Source.mem_of_charAt? here)
  have relates : Change.variant.Relates { options with variant := .standard }
    { options with variant := .jsx } := rfl
  constructor
  · rcases body_complies names _ relates plain with same | no
    · exact parseWith_of_body names _ same
    · cases no
  · rw [parseWith_eq]
    exact detail_run names _ src

/-- An arrow function is tried in both variants, and kept in both. -/
theorem parse_variant_arrow :
    let src := Source.ofString "f = async (a) => a"
    '<' ∉ src.text.toList ∧
      parse { variant := .jsx } src =
        { parse {} src with root := (parse {} src).root.withDetail (.variant .jsx) } := by
  have plain : '<' ∉ (Source.ofString "f = async (a) => a").text.toList := by decide
  exact ⟨plain, (parse_variant {} {} plain).1⟩

/-- Without braces the switches change nothing that is free of diagnostics without them. -/
theorem body_relaxed_of_braceless (braceless : '\x7b' ∉ src.text.toList)
    (clean : (body names { variant := options.variant } src).2.diagnostics = #[]) :
    body names options src = ((body names { variant := options.variant } src).1,
      (body names { variant := options.variant } src).2.withOptions options) := by
  have plain : src.Avoids (Change.switches false).openers := by
    intro c among p here
    obtain rfl := List.mem_singleton.mp among
    exact braceless (Source.mem_of_charAt? here)
  have relates : (Change.switches false).Relates { variant := options.variant } options := rfl
  refine (body_complies names _ relates plain).resolve_right fun excuse => ?_
  cases excuse with
  | reported some => exact some clean

/-- What reports nothing that a switch forgives, in attempts neither, is the same with the
switch. -/
theorem body_relaxed_of_unforgiven
    (strict : ∀ d ∈ (body names { variant := options.variant } src).2.reports, ¬ d.isForgivable) :
    body names options src = ((body names { variant := options.variant } src).1,
      (body names { variant := options.variant } src).2.withOptions options) := by
  have plain : src.Avoids (Change.switches true).openers := fun _ no => (nomatch no)
  have relates : (Change.switches true).Relates { variant := options.variant } options := rfl
  refine (body_complies names _ relates plain).resolve_right fun excuse => ?_
  cases excuse with
  | forgivable found =>
    obtain ⟨d, hd, forgivable⟩ := found
    exact strict d hd forgivable

/-- What parses with all switches off and nothing to report parses the same with any of them on, if
the attempts given up by the way did not report what a switch forgives, or if there are no braces,
where no attempt comes to a switch. -/
theorem parse_relaxed
    (clean : (parseWith names { variant := options.variant } src).diagnostics = #[])
    (sure : '\x7b' ∉ src.text.toList ∨
      ∀ d ∈ (parseWith names { variant := options.variant } src).reports, ¬ d.isForgivable) :
    parseWith names options src = parseWith names { variant := options.variant } src := by
  rw [diagnostics_parseWith] at clean
  rw [reports_parseWith] at sure
  have same := sure.elim (body_relaxed_of_braceless names options · clean)
    (body_relaxed_of_unforgiven names options)
  rw [parseWith_of_body names _ same]
  exact congrArg (fun root => { parseWith names { variant := options.variant } src with root })
    (root_withDetail names { variant := options.variant })

/-- A block, and names in parentheses that are tried as the parameters of a function. What is
reported then, at `+`, is no want of a semicolon, a condition or a handler. -/
theorem parse_relaxed_sequence :
    let src := Source.ofString "if (a) \x7b f(b) \x7d\nx = (c, d + e)"
    let all : Options := { looseParens := true, looseSemicolons := true, bareTry := true }
    (parseWith {} {} src).diagnostics = #[] ∧
      (parseWith {} {} src).reports.map (fun d => (d.message, d.args)) =
        #[(.expected, [","]), (.parameterDeclarationExpected, []), (.expected, [")"])] ∧
      parseWith {} all src = parseWith {} {} src := by
  intro src all
  have empty : (parseWith {} {} src).diagnostics.isEmpty = true := by decide +kernel
  have reports : (parseWith {} {} src).reports.map (fun d => (d.message, d.args)) =
      #[(.expected, [","]), (.parameterDeclarationExpected, []), (.expected, [")"])] := by
    decide +kernel
  have strict : (parseWith {} {} src).reports.all (fun d => !d.isForgivable) = true := by
    decide +kernel
  have clean := Array.isEmpty_iff.mp empty
  refine ⟨clean, reports, parse_relaxed {} all clean (.inr fun d hd => ?_)⟩
  simpa using Array.all_eq_true_iff_forall_mem.mp strict d hd

/-- With an attempt that is given up for want of a semicolon it is not so. Whether `(a): {..} {..}`
is an arrow function is decided by whether the type in it is free of errors; with the switch it is,
and the function is kept although it has no arrow. -/
theorem parse_relaxed_differs :
    let src := Source.ofString "switch (s) \x7b case (a): \x7b if (b) c \x7d \x7b\x7d \x7d"
    (parseWith {} {} src).diagnostics = #[] ∧
      (parseWith {} { looseSemicolons := true } src).diagnostics ≠ #[] := by
  have clean : (parseWith {} {} (.ofString
      "switch (s) \x7b case (a): \x7b if (b) c \x7d \x7b\x7d \x7d")).diagnostics.isEmpty =
        true := by
    decide +kernel
  have reported : (parseWith {} { looseSemicolons := true } (.ofString
      "switch (s) \x7b case (a): \x7b if (b) c \x7d \x7b\x7d \x7d")).diagnostics.isEmpty =
        false := by
    decide +kernel
  exact ⟨Array.isEmpty_iff.mp clean, Array.isEmpty_eq_false_iff.mp reported⟩

end Document
end ScriptGrammar
