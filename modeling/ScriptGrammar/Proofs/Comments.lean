import Mathlib.Data.List.TakeWhile
import ScriptGrammar.Comment
import ScriptGrammar.Proofs.Scanner.LineBreaks

/-!
# The walk over comments and the scanner

The walk that looks for comments around a position passes over blanks, line breaks and comments by
loops of its own. Each of its turns is held against the next token of a scanner that keeps trivia,
so it finds the comments that this scanner finds, up to the first other token. Only the first line
of a script ends in two ways: the walk does not know the line and paragraph separators there.
-/

namespace ScriptGrammar

def Kind.isComment : Kind → Bool
  | .singleLineCommentTrivia | .multiLineCommentTrivia => true
  | _ => false

/-- Comments and what may stand between them. -/
def Kind.isQuiet : Kind → Bool
  | .whitespaceTrivia | .newLineTrivia => true
  | k => k.isComment

theorem Kind.isQuiet_of_isComment {k : Kind} (h : k.isComment) : k.isQuiet := by
  cases k <;> first | rfl | exact absurd h (by decide)

/-- What may come before the first token of a text. -/
def Kind.opensText (k : Kind) : Bool := k.isQuiet || k == .shebangTrivia

theorem Kind.isTrivia_of_opensText {k : Kind} (h : k.opensText) : k.isTrivia := by
  cases k <;> first | rfl | exact absurd h (by decide)

namespace Comment

open Scanner (Runs Stands)

variable {s t : Scanner} {w : Walk} {inLine : Bool} {c : Char} {p fuel : Nat}

/-- The walk looks at the text alone. -/
theorem walk_of_source (source : t.source = s.source) (limit : t.limit = s.limit) :
    walk t inLine fuel p w = walk s inLine fuel p w := by
  obtain ⟨token, src, bound, _⟩ := s
  obtain ⟨token', src', bound', _⟩ := t
  obtain rfl : src' = src := source
  obtain rfl : bound' = bound := limit
  induction fuel generalizing p w with
  | zero => rfl
  | succ fuel ih =>
    rw [walk, walk]
    simp only [ih]
    rfl

theorem charAt?_of_commentAt? {e : Nat × Kind} (h : commentAt? s p = some e) :
    s.charAt? p = some '/' := by
  unfold commentAt? at h
  split at h
  · next slash => exact eq_of_beq slash
  · cases h

theorem walk_end (ends : s.limit ≤ p) : walk s inLine fuel p w = w := by
  cases fuel with
  | zero => rfl
  | succ fuel => rw [walk, if_pos ends]

theorem walk_break (h : s.charAt? p = some c) (line : s.lineBreakAt s.limit p) :
    walk s inLine (fuel + 1) p w =
      if inLine then w
      else walk s inLine fuel
        (p + if c == '\r' && s.charAt? (p + 1) == some '\n' then 2 else c.utf8Size)
        w.breakLine := by
  have below := (Scanner.charAt?_eq_some.mp h).1
  rw [walk, if_neg (Nat.not_le_of_lt below), if_pos line]
  simp [h]

theorem walk_comment {stop : Nat} {k : Kind} (h : commentAt? s p = some (stop, k)) :
    walk s inLine (fuel + 1) p w =
      walk s inLine fuel stop (w.add { pos := p, stop, kind := k }) := by
  have slash := charAt?_of_commentAt? h
  have below := (Scanner.charAt?_eq_some.mp slash).1
  have plain : s.lineBreakAt s.limit p = false := by
    simp [Scanner.lineBreakAt, (Scanner.charAt?_eq_some.mp slash).2, isLineBreak]
  rw [walk, if_neg (Nat.not_le_of_lt below), if_neg (by simp [plain]), h]

theorem walk_other (h : s.charAt? p = some c) (plain : s.lineBreakAt s.limit p = false)
    (none : commentAt? s p = none) :
    walk s inLine (fuel + 1) p w =
      if isBlank c then walk s inLine fuel (p + c.utf8Size) w else w := by
  have below := (Scanner.charAt?_eq_some.mp h).1
  rw [walk, if_neg (Nat.not_le_of_lt below), if_neg (by simp [plain]), none]
  simp only [h]

/-- What the next token `t` of a scanner that keeps trivia is, as the walk would see it. -/
inductive Meets (s t : Scanner) : Prop
  | ends (h : s.limit ≤ s.stop) (kind : t.kind = .endOfFileToken)
  | breaks (c : Char) (h : s.charAt? s.stop = some c) (line : isLineBreak c)
      (kind : t.kind = .newLineTrivia) (stop : t.stop = s.stop +
        if c == '\r' && s.charAt? (s.stop + 1) == some '\n' then 2 else c.utf8Size)
  | blanks (c : Char) (h : s.charAt? s.stop = some c) (blank : isBlank c)
      (kind : t.kind = .whitespaceTrivia)
      (stop : t.stop = s.source.skipWhile s.limit isBlank s.stop)
  | comment (h : commentAt? s s.stop = some (t.stop, t.kind)) (kind : t.kind.isComment)
  | other (c : Char) (h : s.charAt? s.stop = some c) (solid : isSpace c = false)
      (none : commentAt? s s.stop = none) (kind : t.kind.opensText = false)

theorem commentAt?_ne_slash (h : s.charAt? p = some c) (other : c ≠ '/') :
    commentAt? s p = none := by
  simp [commentAt?, h, other]

theorem commentAt?_line (h : s.charAt? p = some '/') (h' : s.charAt? (p + 1) = some '/') :
    commentAt? s p = some (s.lineEnd (p + 2), .singleLineCommentTrivia) := by
  simp [commentAt?, h, h']

theorem commentAt?_block (h : s.charAt? p = some '/') (h' : s.charAt? (p + 1) = some '*') :
    commentAt? s p = some (((s.commentEnd? (p + 2)).map (· + 2)).getD s.limit,
      .multiLineCommentTrivia) := by
  simp [commentAt?, h, h', Scanner.commentEnd?]

theorem commentAt?_solid (h : s.charAt? s.stop = some c) (solid : s.Solid c) :
    commentAt? s s.stop = none := by
  by_cases slash : c = '/'
  · obtain ⟨line, block⟩ := solid.comment slash
    have line : s.charAt? (s.stop + 1) ≠ some '/' := line
    have block : s.charAt? (s.stop + 1) ≠ some '*' := block
    simp [commentAt?, line, block]
  · exact commentAt?_ne_slash h slash

theorem scanBlockComment_eq (s : Scanner) :
    s.scanBlockComment.stop = ((s.commentEnd? (s.stop + 2)).map (· + 2)).getD s.limit ∧
      s.scanBlockComment.kind = .multiLineCommentTrivia := by
  have closes := Scanner.closes_scanBlockComment s
  generalize s.scanBlockComment = t at closes ⊢
  cases closes with
  | closed doc found => exact ⟨by rw [found]; rfl, rfl⟩
  | unclosed doc none => exact ⟨by rw [none]; rfl, rfl⟩

/-- A try for trivia at the token `s`: either it met some, or there is none before a token. -/
inductive Tried (s : Scanner) : Bool × Scanner → Prop
  | met {t : Scanner} (h : Meets s t) : Tried s (true, t)
  | solid {t : Scanner} (c : Char) (h : s.charAt? s.stop = some c) (solid : isSpace c = false)
      (none : commentAt? s s.stop = none) : Tried s (false, t)
  | ended {t : Scanner} (h : s.charAt? s.stop = none) : Tried s (false, t)

/-- Only the first line of a script is trivia that the walk would not know. -/
theorem tried_scanTrivia (plain : s.stop = 0 → ¬ s.source.IsScript) : Tried s s.scanTrivia := by
  have tries := Scanner.tries_scanTrivia s
  generalize s.scanTrivia = r at tries ⊢
  cases tries with
  | lineBreak c touched here line =>
    obtain ⟨ok, rfl⟩ := touched.check
    exact .met (.breaks c here line rfl rfl)
  | blanks c touched here blank =>
    obtain ⟨ok, rfl⟩ := touched.check
    exact .met (.blanks c here blank rfl rfl)
  | script first here next =>
    have here : s.charAt? s.stop = some '#' := here
    have next : s.charAt? (s.stop + 1) = some '!' := next
    rw [first] at here next
    exact absurd ⟨(Scanner.charAt?_eq_some.mp here).2, (Scanner.charAt?_eq_some.mp next).2⟩
      (plain first)
  | lineComment here next => exact .met (.comment (commentAt?_line here next) rfl)
  | blockComment here next =>
    obtain ⟨stop, kind⟩ := scanBlockComment_eq s
    refine .met (.comment ?_ (by rw [kind]; rfl))
    rw [stop, kind]
    exact commentAt?_block here next
  | marker c here sign marks =>
    refine .met (.other c here ?_ (commentAt?_ne_slash here ?_) rfl)
    · simp only [List.mem_cons, List.not_mem_nil, or_false] at sign
      rcases sign with rfl | rfl | rfl | rfl <;> rfl
    · rintro rfl
      exact absurd sign (by decide)
  | solid c touched here solid => exact .solid c here solid.space (commentAt?_solid here solid)
  | ended touched here => exact .ended here

/-- Every token of a scanner that keeps trivia, the first line of a script apart, is one that the
walk meets in its own way. -/
theorem meets_scan (hs : s.Stands) (keeps : s.keepsTrivia)
    (plain : s.stop = 0 → ¬ s.source.IsScript) :
    Meets s s.scan := by
  let b : Scanner := s.begin.restarted
  have turn : s.scan = if b.atEnd then { b with kind := .endOfFileToken }
      else if b.scanTrivia.1 then b.scanTrivia.2 else b.scanTrivia.2.scanToken := by
    rw [Scanner.scan_of_keepsTrivia hs keeps]
    show (if b.atEnd then (false, { b with kind := Kind.endOfFileToken })
      else (b.scanTrivia.1, if b.scanTrivia.1 then b.scanTrivia.2
        else b.scanTrivia.2.scanToken)).2 = _
    split <;> rfl
  have tried : Tried b b.scanTrivia := tried_scanTrivia plain
  rw [turn]
  split
  · next ended => exact .ends (of_decide_eq_true ended) rfl
  · next more =>
    obtain ⟨c, here⟩ := Scanner.exists_peek hs more
    generalize b.scanTrivia = r at tried
    cases tried with
    | @met t h =>
      show Meets s t
      cases h with
      | ends h => exact absurd (decide_eq_true h) more
      | breaks c h line kind stop => exact .breaks c h line kind stop
      | blanks c h blank kind stop => exact .blanks c h blank kind stop
      | comment h kind => exact .comment h kind
      | other c h solid none kind => exact .other c h solid none kind
    | solid c h solid none =>
      refine .other c h solid none (Bool.eq_false_iff.mpr fun opens => ?_)
      have trivia : (Scanner.scanToken _).kind.isTrivia := Kind.isTrivia_of_opensText opens
      rw [Scanner.isTrivia_scanToken] at trivia
      cases trivia
    | ended none => cases none.symm.trans here

/-- What a token adds to the walk. -/
def Walk.pass (w : Walk) (t : Scanner) : Walk :=
  if t.kind == .newLineTrivia then w.breakLine
  else if t.kind.isComment then w.add { pos := t.start, stop := t.stop, kind := t.kind }
  else w

/-- The walk takes blanks one by one, the scanner all at once. -/
theorem walk_blanks (inLine : Bool) (w : Walk) (whole : s.limit = s.source.size) (more p : Nat)
    (enough : s.limit - p < fuel) :
    ∃ left, s.limit - s.source.runEnd s.limit isBlank more p < left ∧
      walk s inLine fuel p w =
        walk s inLine left (s.source.runEnd s.limit isBlank more p) w := by
  induction more generalizing fuel p with
  | zero => exact ⟨fuel, enough, rfl⟩
  | succ more ih =>
    rw [Source.runEnd]
    split
    · next c h =>
      have h : s.charAt? p = some c := h
      split
      · next blank =>
        obtain ⟨fuel, rfl⟩ : ∃ n, fuel = n + 1 := ⟨fuel - 1, by omega⟩
        have below := (Scanner.charAt?_eq_some.mp h).1
        have positive := c.utf8Size_pos
        have plain : s.lineBreakAt s.limit p = false := by
          rw [Scanner.lineBreakAt_eq whole h]
          exact not_isLineBreak_of_isBlank blank
        have none : commentAt? s p = none := commentAt?_ne_slash h (by
          rintro rfl
          exact absurd blank (by decide))
        obtain ⟨left, enough, same⟩ := ih (p + c.utf8Size)
          (show s.limit - (p + c.utf8Size) < fuel by omega)
        refine ⟨left, enough, ?_⟩
        rw [walk_other h plain none, if_pos blank]
        exact same
      · exact ⟨fuel, enough, rfl⟩
    · exact ⟨fuel, enough, rfl⟩

/-- One token of the scanner is one or more turns of the walk, which then goes on behind it. -/
theorem walk_scan (inLine : Bool) (w : Walk) (hs : s.Stands) (keeps : s.keepsTrivia)
    (meets : Meets s s.scan) (enough : s.limit - s.stop < fuel) :
    (s.scan.kind.isQuiet = false → walk s inLine fuel s.stop w = w) ∧
    (s.scan.kind = .newLineTrivia → inLine → walk s inLine fuel s.stop w = w) ∧
    (s.scan.kind.isQuiet → (s.scan.kind = .newLineTrivia → inLine = false) →
      ∃ left, s.limit - s.scan.stop < left ∧
        walk s inLine fuel s.stop w = walk s inLine left s.scan.stop (w.pass s.scan)) := by
  have start := Scanner.start_scan hs keeps
  obtain ⟨fuel, rfl⟩ : ∃ n, fuel = n + 1 := ⟨fuel - 1, by omega⟩
  have less (h : s.scan.kind ≠ .endOfFileToken) : s.limit - s.scan.stop < fuel := by
    have follows := Scanner.follows_scan hs
    have lt := Scanner.lt_scan hs h
    have bound := Scanner.stop_le_limit follows.sound.stands
    have limit := follows.keeps.limit
    omega
  cases meets with
  | ends h kind =>
    refine ⟨fun _ => walk_end h, fun _ _ => walk_end h, fun quiet => ?_⟩
    rw [kind] at quiet
    cases quiet
  | breaks c h line kind stop =>
    have line : s.lineBreakAt s.limit s.stop := (Scanner.lineBreakAt_eq hs.whole h).trans line
    refine ⟨fun quiet => ?_, fun _ rest => ?_, fun _ leads => ?_⟩
    · rw [kind] at quiet
      cases quiet
    · rw [walk_break h line, if_pos rest]
    · refine ⟨fuel, less (by rw [kind]; decide), ?_⟩
      rw [walk_break h line, leads kind, stop]
      simp [Walk.pass, kind]
  | blanks c h blank kind stop =>
    refine ⟨fun quiet => ?_, fun line => ?_, fun _ _ => ?_⟩
    · rw [kind] at quiet
      cases quiet
    · rw [kind] at line
      cases line
    · obtain ⟨left, enough, same⟩ := walk_blanks inLine w hs.whole (s.limit - s.stop) s.stop enough
      rw [stop]
      refine ⟨left, enough, ?_⟩
      simp only [Walk.pass, kind]
      exact same
  | comment h kind =>
    have line : s.scan.kind ≠ .newLineTrivia := by
      intro line
      rw [line] at kind
      cases kind
    refine ⟨fun quiet => ?_, fun same => absurd same line, fun _ _ => ?_⟩
    · rw [Kind.isQuiet_of_isComment kind] at quiet
      cases quiet
    · refine ⟨fuel, less (by rintro ended; rw [ended] at kind; cases kind), ?_⟩
      rw [walk_comment h]
      simp [Walk.pass, line, kind, start]
  | other c h solid none kind =>
    have kind := (Bool.or_eq_false_iff.mp kind).1
    obtain ⟨blank, line⟩ := Bool.or_eq_false_iff.mp solid
    have plain : s.lineBreakAt s.limit s.stop = false :=
      (Scanner.lineBreakAt_eq hs.whole h).trans line
    refine ⟨fun _ => ?_, fun same => ?_, fun quiet => ?_⟩
    · rw [walk_other h plain none, blank]
      rfl
    · rw [same] at kind
      cases kind
    · rw [kind] at quiet
      cases quiet

/-- What a walk to the end of the line passes, or one that goes on. -/
def reach (inLine : Bool) (ts : List Scanner) : List Scanner :=
  ts.takeWhile fun t => t.kind.isQuiet && !(inLine && t.kind == .newLineTrivia)

/-- The walk passes the tokens of the scanner one after another. -/
theorem walk_runs (inLine : Bool) (w : Walk) {ts : List Scanner} {last : Scanner}
    (h : Runs s ts last) (hs : s.Stands) (keeps : s.keepsTrivia)
    (plain : s.stop = 0 → ¬ s.source.IsScript)
    (enough : s.limit - s.stop < fuel) :
    walk s inLine fuel s.stop w = (reach inLine (ts ++ [last])).foldl Walk.pass w := by
  induction h generalizing fuel w with
  | @ends s h =>
    obtain ⟨stops, _, _⟩ := walk_scan inLine w hs keeps (meets_scan hs keeps plain) enough
    have loud : s.scan.kind.isQuiet = false := by
      rw [h]
      rfl
    simp [reach, loud, stops loud]
  | @goes s last ts h rest ih =>
    have follows := Scanner.follows_scan hs
    obtain ⟨stops, breaks, goes⟩ := walk_scan inLine w hs keeps (meets_scan hs keeps plain) enough
    rw [reach, List.cons_append, List.takeWhile_cons]
    split
    · next passes =>
      obtain ⟨quiet, more⟩ := Bool.and_eq_true_iff.mp passes
      have leads (line : s.scan.kind = .newLineTrivia) : inLine = false := by
        simpa [line] using more
      have lt := Scanner.lt_scan hs h
      obtain ⟨left, room, same⟩ := goes quiet leads
      rw [same, List.foldl_cons, ← walk_of_source follows.keeps.source follows.keeps.limit]
      refine ih _ follows.sound.stands (follows.keeps.keepsTrivia.trans keeps) (fun first => ?_) ?_
      · exact absurd lt (first ▸ Nat.not_lt_zero _)
      · rw [follows.keeps.limit]
        exact room
    · next blocks =>
      cases quiet : s.scan.kind.isQuiet with
      | false => exact stops quiet
      | true =>
        obtain ⟨rest, line⟩ : inLine = true ∧ s.scan.kind = .newLineTrivia := by
          simpa [quiet] using blocks
        exact breaks line rest

def seen (c : Comment) : Range × Kind := (⟨c.pos, c.stop⟩, c.kind)

/-- The comments among tokens. -/
def ofTokens (ts : List Scanner) : List (Range × Kind) :=
  (ts.filter (·.kind.isComment)).map fun t => (t.range, t.kind)

/-- The comments found, in the order of the text. -/
def Walk.places (w : Walk) : List (Range × Kind) := w.found.reverse.map seen

theorem Walk.places_breakLine (w : Walk) : w.breakLine.places = w.places := by
  unfold places breakLine
  cases w.found with
  | nil => rfl
  | cons c cs => simp [seen]

theorem Walk.places_add (w : Walk) (c : Comment) (collects : w.collecting) :
    (w.add c).places = w.places ++ [c.seen] := by
  simp [places, add, collects]

theorem Walk.collecting_pass (w : Walk) (t : Scanner) (collects : w.collecting) :
    (w.pass t).collecting := by
  unfold pass
  split
  · rfl
  · split
    · simp [add, collects]
    · exact collects

theorem Walk.places_pass (w : Walk) (t : Scanner) (collects : w.collecting) :
    (w.pass t).places = w.places ++ ofTokens [t] := by
  unfold pass
  split
  · next line =>
    have kind : t.kind.isComment = false := by
      rw [eq_of_beq line]
      rfl
    rw [places_breakLine]
    simp [ofTokens, kind]
  · split
    · next kind =>
      rw [places_add _ _ collects]
      simp [ofTokens, kind, seen, Token.range]
    · next kind => simp [ofTokens, kind]

theorem Walk.torn_pass (w : Walk) (t : Scanner) : (w.pass t).torn = w.torn := by
  unfold pass add
  split
  · rfl
  · split
    · split <;> rfl
    · rfl

theorem Walk.torn_foldl (ts : List Scanner) (w : Walk) : (ts.foldl pass w).torn = w.torn := by
  induction ts generalizing w with
  | nil => rfl
  | cons t ts ih => exact (ih (w.pass t)).trans (w.torn_pass t)

theorem ofTokens_cons (t : Scanner) (ts : List Scanner) :
    ofTokens (t :: ts) = ofTokens [t] ++ ofTokens ts := by
  rw [← List.singleton_append, ofTokens, List.filter_append, List.map_append]
  rfl

/-- A walk that collects finds every comment on its way. -/
theorem Walk.places_foldl (ts : List Scanner) (w : Walk) (collects : w.collecting) :
    (ts.foldl pass w).places = w.places ++ ofTokens ts := by
  induction ts generalizing w with
  | nil => simp [ofTokens]
  | cons t ts ih =>
    rw [List.foldl_cons, ih _ (w.collecting_pass t collects), w.places_pass t collects,
      ofTokens_cons t ts, List.append_assoc]

/-- A walk that does not collect yet begins to with the next line. -/
theorem Walk.places_foldl_idle (ts : List Scanner) (w : Walk) (idle : w.collecting = false) :
    (ts.foldl pass w).places =
      w.places ++ ofTokens (ts.dropWhile (·.kind != .newLineTrivia)) := by
  induction ts generalizing w with
  | nil => simp [ofTokens]
  | cons t ts ih =>
    rw [List.foldl_cons]
    by_cases line : t.kind = .newLineTrivia
    · have begins : w.pass t = w.breakLine := by simp [pass, line]
      have first : ofTokens [t] = [] := by simp [ofTokens, line, Kind.isComment]
      rw [begins, places_foldl ts _ rfl, places_breakLine]
      simp [line, ofTokens_cons t ts, first]
    · have same : w.pass t = w := by
        simp [pass, line, add, idle]
      rw [same, ih w idle]
      simp [line]

/-- The walk finds what a scanner does that stands where the walk begins. -/
theorem collect_eq (src : Source) (inLine : Bool) {ts : List Scanner} {last : Scanner}
    (h : Runs s ts last) (hs : s.Stands) (keeps : s.keepsTrivia) (source : s.source = src)
    (begins : origin (.ofSource src true) p = s.stop)
    (plain : s.stop = 0 → ¬ s.source.IsScript) :
    collect src p inLine =
      let w := (reach inLine (ts ++ [last])).foldl Walk.pass { collecting := inLine || p == 0 }
      (w.found.reverse, w.torn) := by
  have limit : s.limit = src.size := source ▸ hs.whole
  have walked := walk_runs inLine { collecting := inLine || p == 0 } h hs keeps plain
    (show s.limit - s.stop < src.size + 1 from Nat.lt_succ_of_le (limit ▸ Nat.sub_le _ _))
  rw [← walked, collect, begins, walk_of_source (s := .ofSource src true) source limit]

theorem reach_line (ts : List Scanner) :
    reach true ts = (ts.takeWhile (·.kind.isQuiet)).takeWhile (·.kind != .newLineTrivia) := by
  rw [List.takeWhile_takeWhile, reach]
  congr 1
  funext t
  by_cases line : t.kind = .newLineTrivia <;> simp [line]

theorem reach_all (ts : List Scanner) : reach false ts = ts.takeWhile (·.kind.isQuiet) := by
  simp [reach]

/-- The comments around a position are those that a scanner set there finds before its first token
that is neither blank nor a line break nor a comment: the trailing ones before the first line
break, the leading ones after it. -/
theorem around_agrees (src : Source) {pos : Nat} (inside : 0 < pos) (h : src.isBoundary pos) :
    let run := ((Scanner.ofSource src true).reset pos).rest.takeWhile (·.kind.isQuiet)
    ((trailing src pos).1.map seen = ofTokens (run.takeWhile (·.kind != .newLineTrivia)) ∧
      (leading src pos).1.map seen = ofTokens (run.dropWhile (·.kind != .newLineTrivia))) ∧
    ((trailing src pos).1 ++ (leading src pos).1).map seen = ofTokens run ∧
    (trailing src pos).2 = false ∧ (leading src pos).2 = false := by
  intro run
  have later : (pos == 0) = false := beq_eq_false_iff_ne.mpr (Nat.ne_of_gt inside)
  have begins : origin (.ofSource src true) pos = pos := by simp [origin, later]
  have plain (first : pos = 0) : ¬ src.IsScript :=
    absurd first (Nat.ne_of_gt inside)
  obtain ⟨ts, last, runs, rest⟩ :=
    Scanner.runs_rest (s := (Scanner.ofSource src true).reset pos) ⟨rfl, h⟩
  have after := collect_eq src true runs ⟨rfl, h⟩ rfl rfl begins plain
  have before := collect_eq src false runs ⟨rfl, h⟩ rfl rfl begins plain
  rw [← rest, reach_line] at after
  rw [← rest, reach_all, later] at before
  have line : (trailing src pos).1.map seen =
      ofTokens (run.takeWhile (·.kind != .newLineTrivia)) := by
    rw [trailing, after]
    exact (Walk.places_foldl _ _ rfl).trans (List.nil_append _)
  have lines : (leading src pos).1.map seen =
      ofTokens (run.dropWhile (·.kind != .newLineTrivia)) := by
    rw [leading, before]
    exact (Walk.places_foldl_idle _ _ rfl).trans (List.nil_append _)
  refine ⟨⟨line, lines⟩, ?_, ?_, ?_⟩
  · rw [List.map_append, line, lines, ofTokens, ofTokens, ofTokens, ← List.map_append,
      ← List.filter_append, List.takeWhile_append_dropWhile]
  · rw [trailing, after]
    exact Walk.torn_foldl _ _
  · rw [leading, before]
    exact Walk.torn_foldl _ _

/-- Comments on both sides of a separator of lines, the last of them not closed. -/
theorem around_agrees_separator :
    let src := Source.ofString "x /* é */// a\u2028 /* b"
    (trailing src 1).1.map seen =
        [(⟨2, 10⟩, .multiLineCommentTrivia), (⟨10, 14⟩, .singleLineCommentTrivia)] ∧
      (leading src 1).1.map seen = [(⟨18, 22⟩, .multiLineCommentTrivia)] ∧
      (trailing src 1).2 = false ∧ (leading src 1).2 = false := by
  intro src
  let run := ((Scanner.ofSource src true).reset 1).rest.takeWhile (·.kind.isQuiet)
  have before : ofTokens (run.takeWhile (·.kind != .newLineTrivia)) =
      [(⟨2, 10⟩, .multiLineCommentTrivia), (⟨10, 14⟩, .singleLineCommentTrivia)] := by
    decide +kernel
  have behind : ofTokens (run.dropWhile (·.kind != .newLineTrivia)) =
      [(⟨18, 22⟩, .multiLineCommentTrivia)] := by
    decide +kernel
  obtain ⟨⟨onLine, later⟩, _, whole⟩ := around_agrees src Nat.one_pos (by decide +kernel)
  exact ⟨onLine.trans before, later.trans behind, whole⟩

/-- Where no script begins, none is found. -/
theorem opensText_scan (hs : s.Stands) (keeps : s.keepsTrivia)
    (plain : s.stop = 0 → ¬ s.source.IsScript) :
    s.scan.kind.opensText = s.scan.kind.isQuiet := by
  cases meets_scan hs keeps plain with
  | ends _ kind => rw [kind]; rfl
  | breaks _ _ _ kind _ => rw [kind]; rfl
  | blanks _ _ _ kind _ => rw [kind]; rfl
  | comment _ kind => simp [Kind.opensText, Kind.isQuiet_of_isComment kind]
  | other _ _ _ _ kind => rw [kind, (Bool.or_eq_false_iff.mp kind).1]

theorem takeWhile_opensText {ts : List Scanner} {last : Scanner} (h : Runs s ts last)
    (hs : s.Stands) (keeps : s.keepsTrivia)
    (plain : s.stop = 0 → ¬ s.source.IsScript) :
    (ts ++ [last]).takeWhile (·.kind.opensText) = (ts ++ [last]).takeWhile (·.kind.isQuiet) := by
  induction h with
  | ends h => simp [h, Kind.opensText, Kind.isQuiet, Kind.isComment]
  | goes h rest ih =>
    have follows := Scanner.follows_scan hs
    have lt := Scanner.lt_scan hs h
    rw [List.cons_append, List.takeWhile_cons, List.takeWhile_cons, opensText_scan hs keeps plain,
      ih follows.sound.stands (follows.keeps.keepsTrivia.trans keeps) fun first =>
        absurd lt (first ▸ Nat.not_lt_zero _)]

/-- The first line of a script, as the scanner takes it. -/
theorem scan_script {src : Source} (signs : src.IsScript) :
    (Scanner.ofSource src true).scan.kind = .shebangTrivia ∧
      (Scanner.ofSource src true).scan.stop = (Scanner.ofSource src true).lineEnd 0 := by
  let b : Scanner := (Scanner.ofSource src true).begin.restarted
  have first : b.peek 0 = some '#' :=
    Scanner.charAt?_eq_some.mpr ⟨Source.charAt?_lt signs.1, signs.1⟩
  have second : b.peek 1 = some '!' :=
    Scanner.charAt?_eq_some.mpr ⟨Source.charAt?_lt signs.2, signs.2⟩
  have more : b.atEnd = false := by
    simpa [Scanner.atEnd] using Scanner.peek_lt first
  have trivia : b.scanTrivia = (true, { b with stop := b.lineEnd 0, kind := .shebangTrivia }) := by
    simp only [Scanner.scanTrivia, first, second]
    rfl
  rw [Scanner.scan, Scanner.scanFrom_kept more trivia rfl]
  exact ⟨rfl, rfl⟩

/-- A character ends the first line for the walk. -/
def endsScript (s : Scanner) (p : Nat) : Bool :=
  s.charAt? p == some '\n' || s.charAt? p == some '\r'

theorem charAt?_of_endsScript {r : Nat} (h : endsScript s r) :
    ∃ c, s.charAt? r = some c ∧ (c = '\n' ∨ c = '\r') := by
  rcases Bool.or_eq_true_iff.mp h with feed | feed
  · exact ⟨_, eq_of_beq feed, .inl rfl⟩
  · exact ⟨_, eq_of_beq feed, .inr rfl⟩

/-- The walk of a script begins at the end of the text, or at the first character that ends a line
for it. -/
theorem origin_script {src : Source} (signs : src.IsScript) :
    let s := Scanner.ofSource src true
    let o := origin s 0
    (o = s.limit ∨ o < s.limit ∧ endsScript s o) ∧ ∀ r < o, endsScript s r = false := by
  intro s o
  have first : s.charAt? 0 = some '#' :=
    Scanner.charAt?_eq_some.mpr ⟨Source.charAt?_lt signs.1, signs.1⟩
  have second : s.charAt? 1 = some '!' :=
    Scanner.charAt?_eq_some.mpr ⟨Source.charAt?_lt signs.2, signs.2⟩
  have begins : o = (Source.seek s.limit (endsScript s) s.limit 0).getD s.limit := by
    show origin s 0 = _
    simp only [origin, first, second]
    rfl
  rw [begins]
  exact Source.seek_getD s.limit (endsScript s)

theorem origin_pos {src : Source} (signs : src.IsScript) :
    0 < origin (.ofSource src true) 0 := by
  rcases (origin_script signs).1 with last | ⟨_, feed⟩
  · rw [last]
    exact Source.charAt?_lt signs.1
  · refine Nat.pos_of_ne_zero fun zero => ?_
    obtain ⟨c, here, among⟩ := charAt?_of_endsScript feed
    rw [zero] at here
    have same := signs.1.symm.trans (Scanner.charAt?_eq_some.mp here).2
    rcases among with rfl | rfl <;> cases same

theorem origin_plain {src : Source} (plain : ¬ src.IsScript) :
    origin (.ofSource src true) 0 = 0 := by
  rw [origin, if_neg]
  intro script
  simp only [Bool.and_eq_true, beq_iff_eq] at script
  exact plain ⟨(Scanner.charAt?_eq_some.mp script.1.2).2, (Scanner.charAt?_eq_some.mp script.2).2⟩

theorem isBoundary_origin (src : Source) : src.isBoundary (origin (.ofSource src true) 0) := by
  by_cases signs : src.IsScript
  · rcases (origin_script signs).1 with last | ⟨_, feed⟩
    · rw [last]
      exact Source.isBoundary_size
    · obtain ⟨c, here, _⟩ := charAt?_of_endsScript feed
      exact Source.isBoundary_of_charAt? (Scanner.charAt?_eq_some.mp here).2
  · rw [origin_plain signs]
    exact Source.isBoundary_zero

/-- Without separators in it, the first line of a script ends the same for the scanner. -/
theorem lineEnd_script {src : Source} (signs : src.IsScript)
    (unbroken : ∀ c ∈ src.chars 0 (origin (.ofSource src true) 0), c ≠ '\u2028' ∧ c ≠ '\u2029') :
    let s := Scanner.ofSource src true
    s.lineEnd 0 = origin s 0 := by
  intro s
  obtain ⟨ends, before⟩ : (origin s 0 = s.limit ∨
      origin s 0 < s.limit ∧ endsScript s (origin s 0)) ∧
      ∀ r < origin s 0, endsScript s r = false :=
    origin_script signs
  obtain ⟨ends', before'⟩ : (s.lineEnd 0 = s.limit ∨
      s.lineEnd 0 < s.limit ∧ s.lineBreakAt s.limit (s.lineEnd 0)) ∧
      ∀ r < s.lineEnd 0, s.lineBreakAt s.limit r = false :=
    Source.seek_getD s.limit (s.lineBreakAt s.limit)
  refine Nat.le_antisymm (Nat.le_of_not_lt fun below => ?_) (Nat.le_of_not_lt fun below => ?_)
  · -- What ends the line for the walk is a line break.
    rcases ends with last | ⟨_, feed⟩
    · omega
    · obtain ⟨c, here, among⟩ := charAt?_of_endsScript feed
      have breaks : isLineBreak c := by rcases among with rfl | rfl <;> rfl
      have none := before' _ below
      rw [Scanner.lineBreakAt_eq rfl here, breaks] at none
      cases none
  · -- A line break that does not end it is a separator, of which there is none.
    rcases ends' with last | ⟨inside, line⟩
    · omega
    · obtain ⟨c, here⟩ := Source.exists_charAt? (Scanner.isBoundary_of_lineBreakAt line) inside
      have seen : s.charAt? (s.lineEnd 0) = some c := Scanner.charAt?_eq_some.mpr ⟨inside, here⟩
      rw [Scanner.lineBreakAt_eq rfl seen] at line
      obtain ⟨first, second⟩ := unbroken c (Source.mem_chars.mpr ⟨_, Nat.zero_le _, below, here⟩)
      have none := before _ below
      simp only [isLineBreak, Bool.or_eq_true, beq_iff_eq] at line
      rcases line with ((rfl | rfl) | same) | same
      · simp [endsScript, seen] at none
      · simp [endsScript, seen] at none
      · exact first same
      · exact second same

/-- What leads the text is what the tokens say from where the walk begins. -/
theorem leading_start {src : Source} {ts : List Scanner} {last : Scanner} (h : Runs s ts last)
    (hs : s.Stands) (keeps : s.keepsTrivia) (source : s.source = src)
    (begins : origin (.ofSource src true) 0 = s.stop)
    (plain : s.stop = 0 → ¬ s.source.IsScript) :
    (leading src 0).2 = false ∧
      (leading src 0).1.map seen = ofTokens ((ts ++ [last]).takeWhile (·.kind.isQuiet)) := by
  have walked := collect_eq src false h hs keeps source begins plain
  rw [reach_all] at walked
  rw [leading, walked]
  exact ⟨Walk.torn_foldl _ _, (Walk.places_foldl _ _ rfl).trans (List.nil_append _)⟩

/-- The comments that lead a text are those that a scanner finds before the first token, from
behind the first line of a script on. Where that line holds no separator of lines or paragraphs,
the scanner ends it at the same place, and finds the same comments from the start of the text. -/
theorem start_agrees (src : Source) :
    let s := Scanner.ofSource src true
    let o := origin s 0
    ((leading src 0).2 = false ∧
      (leading src 0).1.map seen =
        ofTokens ((s.reset o).rest.takeWhile (·.kind.isQuiet))) ∧
    ((∀ c ∈ src.chars 0 o, c ≠ '\u2028' ∧ c ≠ '\u2029') →
      (leading src 0).1.map seen = ofTokens (s.rest.takeWhile (·.kind.opensText)) ∧
      (s.scan.kind = .shebangTrivia → s.scan.stop = o)) := by
  intro s o
  have stands : s.Stands := ⟨rfl, Source.isBoundary_zero⟩
  have boundary : src.isBoundary o := isBoundary_origin src
  have plain (zero : o = 0) : ¬ src.IsScript := fun signs =>
    absurd zero (Nat.ne_of_gt (origin_pos signs))
  obtain ⟨ts, last, runs, rest⟩ := Scanner.runs_rest (s := s.reset o) ⟨rfl, boundary⟩
  have found : (leading src 0).2 = false ∧ _ :=
    leading_start runs ⟨rfl, boundary⟩ rfl rfl rfl plain
  rw [← rest] at found
  refine ⟨found, fun unbroken => ?_⟩
  obtain ⟨tokens, final, runs, all⟩ := Scanner.runs_rest stands
  by_cases signs : src.IsScript
  · -- The scanner has the first line for a token, and goes on where the walk begins.
    obtain ⟨kind, stop⟩ := scan_script signs
    have behind : s.scan.stop = o := stop.trans (lineEnd_script signs unbroken)
    refine ⟨?_, fun _ => behind⟩
    cases runs with
    | ends h => cases kind.symm.trans h
    | @goes _ _ ts h next =>
      have follows := Scanner.follows_scan stands
      have keeps : s.scan.keepsTrivia := follows.keeps.keepsTrivia.trans rfl
      have later (zero : s.scan.stop = 0) : ¬ s.scan.source.IsScript :=
        absurd (behind.symm.trans zero) (Nat.ne_of_gt (origin_pos signs))
      have own : ofTokens [s.scan] = [] := by simp [ofTokens, s, kind, Kind.isComment]
      have line : s.rest.takeWhile (·.kind.opensText) =
          s.scan :: (ts ++ [final]).takeWhile (·.kind.isQuiet) := by
        rw [all, List.cons_append, List.takeWhile_cons, if_pos,
          takeWhile_opensText next follows.sound.stands keeps later]
        rw [kind]
        rfl
      rw [line, ofTokens_cons, own]
      exact (leading_start next follows.sound.stands keeps follows.keeps.source behind.symm later).2
  · have begins : o = 0 := origin_plain signs
    have quiet := takeWhile_opensText runs stands rfl fun _ => signs
    rw [found.2, begins, all, quiet, ← all]
    refine ⟨rfl, fun kind => ?_⟩
    have none := opensText_scan stands rfl fun _ => signs
    rw [kind] at none
    cases none

/-- A first line of a script, and comments behind it. -/
theorem start_agrees_script :
    let src := Source.ofString "#!/bin/é\r\n/* a */// b"
    (leading src 0).1.map seen =
        [(⟨11, 18⟩, .multiLineCommentTrivia), (⟨18, 22⟩, .singleLineCommentTrivia)] ∧
      (Scanner.ofSource src true).scan.stop = origin (.ofSource src true) 0 := by
  intro src
  have script : (Scanner.ofSource src true).scan.kind = .shebangTrivia := by decide +kernel
  have none : (src.chars 0 (origin (.ofSource src true) 0)).all
      (fun c => c ≠ '\u2028' ∧ c ≠ '\u2029') := by
    decide +kernel
  have plain := fun c hc => of_decide_eq_true (List.all_eq_true.mp none c hc)
  have comments : ofTokens ((Scanner.ofSource src true).rest.takeWhile (·.kind.opensText)) =
      [(⟨11, 18⟩, .multiLineCommentTrivia), (⟨18, 22⟩, .singleLineCommentTrivia)] := by
    decide +kernel
  obtain ⟨found, ends⟩ := (start_agrees src).2 plain
  exact ⟨found.trans comments, ends script⟩

/-- A separator of lines ends the first line for the scanner, not for the walk. -/
theorem start_differs :
    let src := Source.ofString "#!a\u2028// b\n"
    let s := Scanner.ofSource src true
    ((leading src 0).1.map seen = [] ∧
      ofTokens (s.rest.takeWhile (·.kind.opensText)) = [(⟨6, 10⟩, .singleLineCommentTrivia)]) ∧
      s.scan.kind = .shebangTrivia ∧ s.scan.stop = 3 ∧ origin s 0 = 10 := by
  intro src s
  have none : (leading src 0).1.map seen = [] := by decide +kernel
  have found : ofTokens (s.rest.takeWhile (·.kind.opensText)) =
      [(⟨6, 10⟩, .singleLineCommentTrivia)] := by decide +kernel
  have script : s.scan.kind = .shebangTrivia := by decide +kernel
  have stop : s.scan.stop = 3 := by decide +kernel
  have walks : origin s 0 = 10 := by decide +kernel
  exact ⟨⟨none, found⟩, script, stop, walks⟩

end Comment
end ScriptGrammar
