import ScriptGrammar.Proofs.Comments

/-!
# Comments at the end of a line

A comment is marked if nothing but blanks is left of its line. The walk sets the mark later, when
it comes to the line terminator, and by then the comment is the last one found. A walk that ends
with the line stops there before it sets the mark.
-/

namespace ScriptGrammar

/-- The first character from `p` on that is not blank is there and ends a line. -/
def Source.endsLine (src : Source) (p : Nat) : Bool :=
  ((src.chars p src.size).find? (!isBlank ·)).any isLineBreak

namespace Source

variable {src : Source} {p : Nat} {c : Char}

theorem endsLine_blank (h : src.charAt? p = some c) (blank : isBlank c) :
    src.endsLine p = src.endsLine (p + c.utf8Size) := by
  rw [endsLine, chars_cons (charBefore?_eq_some.mpr ⟨charAt?_lt h, h⟩),
    List.find?_cons_of_neg (by simp [blank]), endsLine]

theorem endsLine_solid (h : src.charAt? p = some c) (solid : isBlank c = false) :
    src.endsLine p = isLineBreak c := by
  rw [endsLine, chars_cons (charBefore?_eq_some.mpr ⟨charAt?_lt h, h⟩),
    List.find?_cons_of_pos (by simp [solid]), Option.any_some]

theorem endsLine_end (ends : src.size ≤ p) : src.endsLine p = false := by
  rw [endsLine, chars_nil ends]
  rfl

end Source

namespace Comment

variable {s : Scanner} {src : Source} {w : Walk} {inLine : Bool} {c : Char} {p q fuel : Nat}

/-- The walk has come to `p`. Every mark is right but perhaps that of the last comment, which is
still to be set if only blanks lie between that comment and `p`. A walk along one line has set
none. -/
structure Walk.Marked (src : Source) (inLine : Bool) (w : Walk) (p : Nat) : Prop where
  intact : w.torn = false
  idle : w.collecting = false → w.found = []
  plain : inLine = true → ∀ c ∈ w.found, c.beforeLineBreak = false
  earlier : ∀ c ∈ w.found.tail, c.beforeLineBreak = src.endsLine c.stop
  last : ∀ c ∈ w.found.head?, c.beforeLineBreak = true ∧ src.endsLine c.stop = true ∨
    c.beforeLineBreak = false ∧ src.endsLine c.stop = src.endsLine p

namespace Walk.Marked

theorem first (collecting : Bool) (p : Nat) : Marked src inLine { collecting } p :=
  ⟨rfl, fun _ => rfl, fun _ => by simp, by simp, by simp⟩

/-- Where no line ends, every mark is right. -/
theorem right (h : w.Marked src inLine p) (goes : src.endsLine p = false) :
    ∀ c ∈ w.found, c.beforeLineBreak = src.endsLine c.stop := by
  intro c among
  cases found : w.found with
  | nil =>
    rw [found] at among
    cases among
  | cons d ds =>
    rw [found] at among
    rcases List.mem_cons.mp among with rfl | among
    · rcases h.last c (by rw [found]; rfl) with ⟨mark, ends⟩ | ⟨mark, same⟩
      · exact mark.trans ends.symm
      · exact mark.trans (same.trans goes).symm
    · exact h.earlier c (by rw [found]; exact among)

theorem blank (h : w.Marked src inLine p) (here : src.charAt? p = some c) (blank : isBlank c) :
    w.Marked src inLine (p + c.utf8Size) := by
  refine ⟨h.intact, h.idle, h.plain, h.earlier, fun d hd => ?_⟩
  rw [← Source.endsLine_blank here blank]
  exact h.last d hd

/-- Another comment comes after those found, which then are not the last on their line. -/
theorem add {k : Kind} {stop : Nat} (h : w.Marked src inLine p) (goes : src.endsLine p = false) :
    (w.add { pos := p, stop, kind := k }).Marked src inLine stop := by
  rw [Walk.add]
  split
  · next collecting =>
    refine ⟨h.intact, fun idle => ?_, fun line => ?_, h.right goes, fun c hc => .inr ?_⟩
    · rw [collecting] at idle
      cases idle
    · exact List.forall_mem_cons.mpr ⟨rfl, h.plain line⟩
    · obtain rfl := Option.some.inj hc
      exact ⟨rfl, rfl⟩
  · next idle =>
    have none := h.idle (Bool.eq_false_iff.mpr idle)
    refine ⟨h.intact, h.idle, h.plain, h.earlier, fun c hc => ?_⟩
    rw [none] at hc
    cases hc

/-- At a line terminator the last comment gets its mark. -/
theorem breakLine (h : w.Marked src false p) (ends : src.endsLine p) (q : Nat) :
    w.breakLine.Marked src false q := by
  have idle (no : w.breakLine.collecting = false) : w.breakLine.found = [] := (nomatch no)
  cases found : w.found with
  | nil =>
    have none : w.breakLine.found = [] := by simp [Walk.breakLine, found]
    exact ⟨h.intact, idle, fun no => (nomatch no), by simp [none], by simp [none]⟩
  | cons d ds =>
    have marked : w.breakLine.found = { d with beforeLineBreak := true } :: ds := by
      simp [Walk.breakLine, found]
    have earlier := h.earlier
    rw [found] at earlier
    refine ⟨h.intact, idle, fun no => (nomatch no), ?_, fun c hc => .inl ?_⟩
    · rw [marked]
      exact earlier
    · rw [marked] at hc
      obtain rfl := Option.some.inj hc
      refine ⟨rfl, ?_⟩
      rcases h.last d (by rw [found]; rfl) with ⟨_, ends⟩ | ⟨_, same⟩
      · exact ends
      · exact same.trans ends

end Walk.Marked

/-- A comment ends behind where it begins, on a boundary. -/
theorem commentAt?_spec (hs : s.Stands) {e : Nat × Kind} (h : commentAt? s p = some e) :
    p < e.1 ∧ s.source.isBoundary e.1 := by
  have inside {c : Char} (here : (s.charAt? (p + 1) == some c) = true) : p + 2 ≤ s.limit :=
    (Scanner.charAt?_eq_some.mp (eq_of_beq here)).1
  unfold commentAt? at h
  split at h
  · split at h
    · next line =>
      obtain ⟨le, boundary⟩ := Scanner.lineEnd_spec hs (inside line)
      obtain rfl := Option.some.inj h
      exact ⟨Nat.lt_of_lt_of_le (Nat.lt_add_of_pos_right Nat.two_pos) le, boundary⟩
    split at h
    · next star =>
      have room := inside star
      obtain rfl := Option.some.inj h
      show p < ((s.commentEnd? (p + 2)).map (· + 2)).getD s.limit ∧
        s.source.isBoundary (((s.commentEnd? (p + 2)).map (· + 2)).getD s.limit)
      cases found : s.commentEnd? (p + 2) with
      | none => exact ⟨Nat.lt_of_lt_of_le (Nat.lt_add_of_pos_right Nat.two_pos) room,
          Scanner.isBoundary_limit hs⟩
      | some q =>
        obtain ⟨le, boundary⟩ := Scanner.commentEnd?_spec found
        exact ⟨by simp only [Option.map_some, Option.getD_some]; omega, boundary⟩
    · cases h
  · cases h

/-- The walk stops at the end of the text, at what is neither blank nor a comment, or, if it is
along one line, at the end of it. -/
theorem marked_walk (hs : s.Stands) (fuel p : Nat) (w : Walk)
    (h : w.Marked s.source inLine p) (begins : s.source.isBoundary p) (room : s.limit - p < fuel) :
    ∃ q, (walk s inLine fuel p w).Marked s.source inLine q ∧
      (inLine = false → s.source.endsLine q = false) := by
  induction fuel generalizing p w with
  | zero => omega
  | succ fuel ih =>
    rcases Source.isBoundary_cases begins with ends | ⟨c, here⟩
    · rw [walk_end (by rw [hs.whole, ends])]
      exact ⟨p, h, fun _ => Source.endsLine_end (Nat.le_of_eq ends.symm)⟩
    have below : p < s.limit := hs.whole ▸ Source.charAt?_lt here
    have seen : s.charAt? p = some c := Scanner.charAt?_eq_some.mpr ⟨below, here⟩
    have ahead {q : Nat} (lt : p < q) : s.limit - q < fuel := by omega
    have behind : p < p + c.utf8Size := Nat.lt_add_of_pos_right c.utf8Size_pos
    have breaks := Scanner.lineBreakAt_eq hs.whole seen
    cases line : isLineBreak c with
    | true =>
      have solid : isBlank c = false := Bool.eq_false_iff.mpr fun blank => by
        rw [not_isLineBreak_of_isBlank blank] at line
        cases line
      have ends : s.source.endsLine p := (Source.endsLine_solid here solid).trans line
      rw [walk_break seen (breaks.trans line)]
      cases inLine with
      | true => exact ⟨p, h, fun no => (nomatch no)⟩
      | false =>
        refine ih _ _ (h.breakLine ends _) ?_ (ahead ?_)
        · split
          · next both =>
            have feed := eq_of_beq (Bool.and_eq_true_iff.mp both).2
            exact Scanner.isBoundary_succ (p := p + 1) feed rfl
          · exact Source.isBoundary_next here
        · split
          · omega
          · exact behind
    | false =>
      cases found : commentAt? s p with
      | some e =>
        obtain ⟨lt, boundary⟩ := commentAt?_spec hs found
        have slash : c = '/' := Option.some.inj (seen.symm.trans (charAt?_of_commentAt? found))
        have goes : s.source.endsLine p = false := by
          rw [Source.endsLine_solid here (by rw [slash]; decide), line]
        rw [walk_comment found]
        exact ih _ _ (h.add goes) boundary (ahead lt)
      | none =>
        rw [walk_other seen (breaks.trans line) found]
        split
        · next blank =>
          exact ih _ _ (h.blank here blank) (Source.isBoundary_next here) (ahead behind)
        · next solid =>
          refine ⟨p, h, fun _ => ?_⟩
          rw [Source.endsLine_solid here (Bool.eq_false_iff.mpr solid), line]

theorem isBoundary_begins (src : Source) {pos : Nat} (h : src.isBoundary pos) :
    src.isBoundary (origin (.ofSource src true) pos) := by
  by_cases first : pos = 0
  · rw [first]
    exact isBoundary_origin src
  · have later : (pos == 0) = false := beq_eq_false_iff_ne.mpr first
    have begins : origin (.ofSource src true) pos = pos := by simp [origin, later]
    rwa [begins]

/-- What is known of the comments collected around a boundary. -/
theorem marked_collect (src : Source) (inLine : Bool) {pos : Nat} (h : src.isBoundary pos) :
    ∃ w : Walk, collect src pos inLine = (w.found.reverse, w.torn) ∧
      ∃ q, w.Marked src inLine q ∧ (inLine = false → src.endsLine q = false) := by
  have stands : (Scanner.ofSource src true).Stands := ⟨rfl, Source.isBoundary_zero⟩
  exact ⟨_, rfl, marked_walk stands (src.size + 1) _ _ (.first _ _) (isBoundary_begins src h)
    (Nat.lt_succ_of_le (Nat.sub_le _ _))⟩

/-- The marks of leading comments are right. Those of trailing comments are right but for the last
of them, as none is ever set. -/
theorem marks_around (src : Source) {pos : Nat} (h : src.isBoundary pos) :
    ((leading src pos).2 = false ∧
      ∀ c ∈ (leading src pos).1, c.beforeLineBreak = src.endsLine c.stop) ∧
    (trailing src pos).2 = false ∧
      (∀ c ∈ (trailing src pos).1, c.beforeLineBreak = false) ∧
      ∀ c ∈ (trailing src pos).1.dropLast, src.endsLine c.stop = false := by
  obtain ⟨w, found, q, marked, goes⟩ := marked_collect src false h
  obtain ⟨u, found', _, marked', _⟩ := marked_collect src true h
  rw [leading, trailing, found, found']
  refine ⟨⟨marked.intact, fun c hc => ?_⟩, marked'.intact, fun c hc => ?_, fun c hc => ?_⟩
  · exact marked.right (goes rfl) c (List.mem_reverse.mp hc)
  · exact marked'.plain rfl c (List.mem_reverse.mp hc)
  · have among : c ∈ u.found.tail := by simpa using hc
    exact (marked'.earlier c among).symm.trans (marked'.plain rfl c (List.mem_of_mem_tail among))

/-- Comments before and behind a separator of lines, and between line breaks. -/
theorem marks_around_separator :
    let src := Source.ofString "x /* é */ // a\u2028 /* b */ /* c */\n"
    (leading src 1).1.map (fun c => (c.pos, c.beforeLineBreak)) = [(19, false), (27, true)] ∧
      (trailing src 1).1.map (fun c => (c.pos, c.beforeLineBreak)) = [(2, false), (11, false)] ∧
      (trailing src 1).1.map (fun c => src.endsLine c.stop) = [false, true] := by
  intro src
  obtain ⟨⟨_, marked⟩, _, unmarked, _⟩ := marks_around src (show src.isBoundary 1 by decide +kernel)
  refine ⟨?_, ?_, by decide +kernel⟩
  · have ends : (leading src 1).1.map (fun c => (c.pos, src.endsLine c.stop)) =
        [(19, false), (27, true)] := by
      decide +kernel
    exact (List.map_congr_left fun c hc => by rw [marked c hc]).trans ends
  · have begins : (trailing src 1).1.map (fun c => (c.pos, false)) = [(2, false), (11, false)] := by
      decide +kernel
    exact (List.map_congr_left fun c hc => by rw [unmarked c hc]).trans begins

/-- The last comment of a line is marked if it is found as leading, not if it is trailing. -/
theorem trailing_unmarked :
    let src := Source.ofString "// a\n"
    (leading src 0).1.map seen = (trailing src 0).1.map seen ∧
      (leading src 0).1.map (·.beforeLineBreak) = [true] ∧
      (trailing src 0).1.map (fun c => (c.beforeLineBreak, src.endsLine c.stop)) =
        [(false, true)] := by
  decide +kernel

end Comment
end ScriptGrammar
