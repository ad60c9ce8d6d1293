import ScriptGrammar.Proofs.NumberGrammar
import ScriptGrammar.Proofs.Scanner.Passage
import ScriptGrammar.Proofs.Scanner.Searches

/-!
# Numbers

The scanner takes digits, separators and whatever else may belong to a number, reports what is out
of place, and takes more than the grammar allows. So each part is shown to report nothing just if
the text it took is in order; together the parts report nothing just if the whole is a number.
-/

namespace ScriptGrammar

def Kind.isNumber : Kind → Bool
  | .numericLiteral | .bigIntLiteral => true
  | _ => false

theorem Kind.not_isNumber_of_isWord {k : Kind} (h : k.isWord) : k.isNumber = false := by
  cases k <;> first | rfl | exact absurd h (by decide)

theorem Kind.not_isNumber_of_isSign {k : Kind} (h : k.isSign) : k.isNumber = false := by
  cases k <;> first | rfl | exact absurd h (by decide)

theorem Kind.not_isTrivia_of_isNumber {k : Kind} (h : k.isNumber) : k.isTrivia = false := by
  cases k <;> first | rfl | cases h

namespace Scanner

/-- What the digits read so far allow to follow, up to the end of the digits. -/
def DigitRun.Allows (isDigit : Char → Bool) (run : DigitRun) (cs : List Char) : Prop :=
  if run.separatorAllowed then AfterDigit isDigit cs
  else DigitText isDigit cs ∨ run.afterSeparator = false ∧ cs = []

section Runs

variable {isDigit : Char → Bool} {run : DigitRun} {c : Char} {cs : List Char}
  (plain : isDigit '_' = false)

include plain

theorem DigitRun.allows_digit (digit : isDigit c) :
    run.Allows isDigit (c :: cs) ↔ AfterDigit isDigit cs := by
  have other : c ≠ '_' := by
    rintro rfl
    rw [plain] at digit
    cases digit
  rw [← digitText_cons digit]
  unfold DigitRun.Allows AfterDigit
  cases run.separatorAllowed with
  | true => simp [other]
  | false => simp

theorem not_digitText_separator : ¬ DigitText isDigit ('_' :: cs) := by
  intro h
  obtain ⟨c, ds, same, digit⟩ := h.begins
  obtain rfl := (List.cons.inj same).1
  rw [plain] at digit
  cases digit

theorem DigitRun.allows_separator :
    run.Allows isDigit ('_' :: cs) ↔ run.separatorAllowed = true ∧ DigitText isDigit cs := by
  unfold DigitRun.Allows AfterDigit
  cases run.separatorAllowed with
  | true => simp [not_digitText_separator plain]
  | false => simp [not_digitText_separator plain]

end Runs

theorem DigitRun.allows_nil {isDigit : Char → Bool} {run : DigitRun}
    (fresh : run.separatorAllowed = true → run.afterSeparator = false) :
    run.Allows isDigit [] ↔ run.afterSeparator = false := by
  have none : ¬ DigitText isDigit [] := by
    intro h
    obtain ⟨c, ds, same, _⟩ := h.begins
    cases same
  unfold DigitRun.Allows AfterDigit
  cases allowed : run.separatorAllowed with
  | true => simp [fresh allowed]
  | false => simp [none]

variable {s t u : Scanner} {c : Char} {text text' : List Char} {fine fine' : Prop}

/-- From `s` to `t` the text was taken, all of it characters of one byte, and something was
reported unless it was fine. -/
structure Takes (s t : Scanner) (text : List Char) (fine : Prop) : Prop where
  source : t.source = s.source
  limit : t.limit = s.limit
  start : t.start = s.start
  holds : s.source.Holds s.limit s.stop text
  thin : ∀ c ∈ text, c.utf8Size = 1
  stop : t.stop = s.stop + text.length
  reports : ∃ more : Diagnostics, t.pending = s.pending ++ more ∧ (more = #[] ↔ fine) ∧
    ∀ d ∈ more, d.message ≠ .conflictMarker

namespace Takes

theorem refl (s : Scanner) : Takes s s [] True :=
  ⟨rfl, rfl, rfl, trivial, by simp, rfl, #[], by simp, by simp, by simp⟩

theorem trans (h : Takes s t text fine) (k : Takes t u text' fine') :
    Takes s u (text ++ text') (fine ∧ fine') where
  source := k.source.trans h.source
  limit := k.limit.trans h.limit
  start := k.start.trans h.start
  holds := by
    have behind := k.holds
    rw [h.source, h.limit, h.stop, ← length_layout_of_thin h.thin] at behind
    exact Source.holds_append.mpr ⟨h.holds, behind⟩
  thin c hc := by
    rcases List.mem_append.mp hc with hc | hc
    · exact h.thin c hc
    · exact k.thin c hc
  stop := by rw [k.stop, h.stop, List.length_append, Nat.add_assoc]
  reports := by
    obtain ⟨m, hm, quiet, plain⟩ := h.reports
    obtain ⟨n, hn, quiet', plain'⟩ := k.reports
    refine ⟨m ++ n, by rw [hn, hm, Array.append_assoc], ?_, fun d hd => ?_⟩
    · rw [Array.append_eq_empty_iff, quiet, quiet']
    · rcases Array.mem_append.mp hd with hd | hd
      · exact plain d hd
      · exact plain' d hd

/-- What follows takes no more text. -/
theorem behind (h : Takes s t text fine) (k : Takes t u [] fine') :
    Takes s u text (fine ∧ fine') :=
  List.append_nil text ▸ h.trans k

theorem congr (h : Takes s t text fine) (same : fine ↔ fine') : Takes s t text fine' := by
  obtain ⟨more, pending, quiet, plain⟩ := h.reports
  exact { h with reports := ⟨more, pending, quiet.trans same, plain⟩ }

/-- What was taken before may have left other marks on the token. -/
theorem of_eq {s' : Scanner} (h : Takes s' t text fine) (source : s'.source = s.source)
    (limit : s'.limit = s.limit) (start : s'.start = s.start) (stop : s'.stop = s.stop)
    (pending : s'.pending = s.pending) : Takes s t text fine := by
  obtain ⟨hs, hl, hb, holds, thin, ends, reports⟩ := h
  rw [source] at hs holds
  rw [limit] at hl holds
  rw [start] at hb
  rw [stop] at holds ends
  rw [pending] at reports
  exact ⟨hs, hl, hb, holds, thin, ends, reports⟩

/-- Reports are made without moving on. -/
theorem report {m : Message} (h : Takes s t text fine) (plain : m ≠ .conflictMarker)
    (a b : Nat) (args : List String) : Takes s (t.report m a b args) text False := by
  obtain ⟨more, pending, quiet, others⟩ := h.reports
  refine { h with reports := ⟨more.push ⟨⟨a, b⟩, m, args⟩, ?_, by simp, fun d hd => ?_⟩ }
  · rw [Scanner.report, Diagnostics.report, pending, Array.push_append]
  · rcases Array.mem_push.mp hd with old | rfl
    · exact others d old
    · exact plain

end Takes

/-- What is only passed over reports nothing, however the token is marked for it. -/
theorem takes_text (text : List Char) {stop : Nat} (holds : s.source.Holds s.limit s.stop text)
    (thin : ∀ c ∈ text, c.utf8Size = 1) (ends : stop = s.stop + text.length) (kind : Kind)
    (value : String) (flags : TokenFlags) (torn : Bool) :
    Takes s { s with stop := stop, kind := kind, value := value, flags := flags, torn := torn }
      text True :=
  ⟨rfl, rfl, rfl, holds, thin, ends, #[], by simp, by simp, by simp⟩

theorem takes_none (kind : Kind) (value : String) (flags : TokenFlags) (torn : Bool) :
    Takes s { s with kind := kind, value := value, flags := flags, torn := torn } [] True :=
  takes_text (s := s) [] trivial (by simp) rfl kind value flags torn

theorem takes_one (h : s.peek 0 = some c) (thin : c.utf8Size = 1) (kind : Kind) (value : String)
    (flags : TokenFlags) (torn : Bool) :
    Takes s { s with
      stop := s.stop + 1, kind := kind, value := value, flags := flags, torn := torn }
      [c] True :=
  takes_text (s := s) [c] ⟨h, trivial⟩ (by simpa using thin) rfl kind value flags torn

/-- The scanner behind digits, a separator at their end reported. -/
def closeDigits (r : DigitRun × Scanner) : Scanner :=
  if r.1.afterSeparator then r.2.report .separatorNotAllowed (r.2.stop - 1) r.2.stop [] else r.2

theorem scanDigits_eq (isDigit : Char → Bool) (s : Scanner) : s.scanDigits isDigit =
    ((takeDigits isDigit (s.limit - s.stop) {} s).1.any,
      closeDigits (takeDigits isDigit (s.limit - s.stop) {} s)) := rfl

/-- Digits and separators were taken, and something was reported unless the run allows them. -/
structure TakesDigits (isDigit : Char → Bool) (run : DigitRun) (s : Scanner)
    (r : DigitRun × Scanner) (ds : List Char) : Prop where
  loose : Loose isDigit ds
  takes : Takes s (closeDigits r) ds (run.Allows isDigit ds)
  any : r.1.any = (run.any || ds.any isDigit)
  first : ds = [] → ∀ c, s.peek 0 = some c → isDigit c = false

/-- Nothing is taken where no digit stands. -/
theorem takesDigits_nil {isDigit : Char → Bool} {run : DigitRun}
    (fresh : run.separatorAllowed = true → run.afterSeparator = false)
    (none : ∀ c, s.peek 0 = some c → isDigit c = false) :
    TakesDigits isDigit run s (run, s) [] := by
  refine ⟨by simp [Loose], ?_, by simp, fun _ => none⟩
  simp only [closeDigits]
  split
  · next separated =>
    refine ((Takes.refl s).report (by decide) _ _ _).congr ?_
    simp [DigitRun.allows_nil fresh, separated]
  · next closed =>
    refine (Takes.refl s).congr ?_
    simp [DigitRun.allows_nil fresh, closed]

/-- One character is taken before others. -/
theorem TakesDigits.cons {isDigit : Char → Bool} {run next : DigitRun} {r : DigitRun × Scanner}
    {x : Char} {ds : List Char} (h : TakesDigits isDigit next t r ds) (one : Takes s t [x] fine)
    (kind : isDigit x ∨ x = '_') (known : next.any = (run.any || isDigit x))
    (same : fine ∧ next.Allows isDigit ds ↔ run.Allows isDigit (x :: ds)) :
    TakesDigits isDigit run s r (x :: ds) where
  loose := List.forall_mem_cons.mpr ⟨kind, h.loose⟩
  takes := (one.trans h.takes).congr same
  any := by rw [h.any, known, List.any_cons, Bool.or_assoc]
  first none := nomatch none

theorem takesDigits_takeDigits {isDigit : Char → Bool} (thin : ∀ c, isDigit c → c.utf8Size = 1)
    (plain : isDigit '_' = false) (fuel : Nat) (run : DigitRun) (s : Scanner)
    (room : s.limit - s.stop ≤ fuel)
    (fresh : run.separatorAllowed = true → run.afterSeparator = false) :
    ∃ ds, TakesDigits isDigit run s (takeDigits isDigit fuel run s) ds := by
  induction fuel generalizing run s with
  | zero =>
    refine ⟨[], takesDigits_nil fresh fun c here => ?_⟩
    have below : s.stop + 0 < s.limit := (charAt?_eq_some.mp here).1
    omega
  | succ fuel ih =>
    have behind (next : DigitRun) {t : Scanner} {x : Char} {fine : Prop} (one : Takes s t [x] fine)
        (fresh : next.separatorAllowed = true → next.afterSeparator = false) :
        ∃ ds, TakesDigits isDigit next t (takeDigits isDigit fuel next t) ds := by
      have moved : t.stop = s.stop + 1 := one.stop
      refine ih next t ?_ fresh
      rw [one.limit]
      omega
    rw [takeDigits]
    split
    · next none => exact ⟨[], takesDigits_nil fresh (by simp [none])⟩
    · next h =>
      have one := takes_one h rfl s.kind s.value { s.flags with containsSeparator := true } s.torn
      split
      · next allowed =>
        obtain ⟨ds, digits⟩ := behind { run with
          separatorAllowed := false, afterSeparator := true } one (fun no => (by cases no))
        refine ⟨_, digits.cons one (.inr rfl) (by simp [plain]) ?_⟩
        rw [DigitRun.allows_separator plain]
        simp [DigitRun.Allows, allowed]
      · next refused =>
        have refuses (ds : List Char) :
            False ∧ run.Allows isDigit ds ↔ run.Allows isDigit ('_' :: ds) := by
          rw [DigitRun.allows_separator plain]
          simp [refused]
        split
        · have told := one.report (m := .consecutiveSeparators) (by decide) s.stop (s.stop + 1) []
          obtain ⟨ds, digits⟩ := behind run told fresh
          exact ⟨_, digits.cons told (.inr rfl) (by simp [plain]) (refuses ds)⟩
        · have told := one.report (m := .separatorNotAllowed) (by decide) s.stop (s.stop + 1) []
          obtain ⟨ds, digits⟩ := behind run told fresh
          exact ⟨_, digits.cons told (.inr rfl) (by simp [plain]) (refuses ds)⟩
    · next c _ h =>
      split
      · next digit =>
        have one := takes_one h (thin c digit) s.kind s.value s.flags s.torn
        obtain ⟨ds, digits⟩ := behind
          { separatorAllowed := true, afterSeparator := false, any := true } one (fun _ => rfl)
        refine ⟨_, digits.cons one (.inl digit) (by simp [digit]) ?_⟩
        rw [DigitRun.allows_digit plain digit]
        simp [DigitRun.Allows]
      · next other =>
        refine ⟨[], takesDigits_nil fresh fun d here => ?_⟩
        obtain rfl := Option.some.inj (h.symm.trans here)
        exact Bool.eq_false_iff.mpr other

theorem takes_scanDigits {isDigit : Char → Bool} (thin : ∀ c, isDigit c → c.utf8Size = 1)
    (plain : isDigit '_' = false) (s : Scanner) :
    ∃ ds, Loose isDigit ds ∧ Takes s (s.scanDigits isDigit).2 ds (InOrder isDigit ds) ∧
      (s.scanDigits isDigit).1 = ds.any isDigit ∧
      (ds = [] → ∀ c, s.peek 0 = some c → isDigit c = false) := by
  obtain ⟨ds, digits⟩ := takesDigits_takeDigits thin plain (s.limit - s.stop) {} s (Nat.le_refl _)
    (fun no => (nomatch no))
  rw [scanDigits_eq]
  refine ⟨ds, digits.loose, digits.takes.congr ?_, digits.any, digits.first⟩
  simp [DigitRun.Allows, InOrder, or_comm]

/-- No word begins behind the token. -/
def Ends (s : Scanner) : Prop := ∀ c, s.charAt? s.stop = some c → isIdentifierStart c = false

theorem ends_iff : s.Ends ↔ (s.peek 0).any isIdentifierStart = false := by
  unfold Ends peek
  rw [Nat.add_zero]
  cases s.charAt? s.stop <;> simp

/-- What was only marked and reported ends where it ended. -/
theorem Takes.ends (h : Takes s t [] fine) : t.Ends ↔ s.Ends := by
  unfold Ends charAt?
  rw [h.source, h.limit, h.stop, List.length_nil, Nat.add_zero]

theorem takes_checkNumberEnd (s : Scanner) : Takes s s.checkNumberEnd [] s.checkNumberEnd.Ends := by
  have takes : Takes s s.checkNumberEnd [] s.Ends := by
    simp only [checkNumberEnd]
    split
    · next word =>
      have word : (s.peek 0).any isIdentifierStart = true := word
      exact ((takes_none s.kind s.value s.flags _).report (by decide) _ _ _).congr
        (by simp [ends_iff, word])
    · next free =>
      have free : ¬ (s.peek 0).any isIdentifierStart = true := free
      exact (takes_none s.kind s.value s.flags _).congr (by simp [ends_iff, free])
  exact takes.congr takes.ends.symm

theorem takes_finishNumber (s : Scanner) (big : Bool) : ∃ suffix ∈ suffixes,
    (big = false → suffix = []) ∧ Takes s (s.finishNumber big) suffix (s.finishNumber big).Ends ∧
      ((s.finishNumber big).kind = .bigIntLiteral ↔ suffix = ['n']) := by
  simp only [finishNumber]
  split
  · next letter =>
    rw [Bool.and_eq_true, beq_iff_eq] at letter
    have one : Takes s (s.take 1 .bigIntLiteral).setValue ['n'] True :=
      takes_one letter.2 rfl _ _ _ _
    have kind : (s.take 1 .bigIntLiteral).setValue.checkNumberEnd.kind = .bigIntLiteral :=
      kind_checkNumberEnd _
    exact ⟨['n'], by decide, by simp [letter.1],
      (one.trans (takes_checkNumberEnd _)).congr (true_and _ ▸ Iff.rfl), by simp [kind]⟩
  · have none : Takes s (s.take 0 .numericLiteral).setValue [] True := takes_none _ _ _ _
    have kind : (s.take 0 .numericLiteral).setValue.checkNumberEnd.kind = .numericLiteral :=
      kind_checkNumberEnd _
    exact ⟨[], by decide, fun _ => rfl,
      (none.trans (takes_checkNumberEnd _)).congr (true_and _ ▸ Iff.rfl), by simp [kind]⟩

theorem takes_scanFraction (s : Scanner) : ∃ f, LooseFraction f ∧
    Takes s s.scanFraction.2 f (FractionText f) ∧ (s.scanFraction.1 = false → f = []) ∧
    (s.peek 0 = some '.' → (s.peek 1).any Char.isDigit → ∃ ds, f = '.' :: ds ∧ ds ≠ []) := by
  simp only [scanFraction]
  split
  · next point =>
    have point := eq_of_beq point
    have one := takes_one point rfl s.kind s.value s.flags s.torn
    obtain ⟨ds, loose, takes, _, first⟩ :=
      takes_scanDigits (fun _ => utf8Size_of_isDigit) rfl { s with stop := s.stop + 1 }
    refine ⟨'.' :: ds, .inr ⟨ds, loose, rfl⟩, (one.trans takes).congr ?_, by simp,
      fun _ digit => ?_⟩
    · rw [true_and, fractionText_iff]
    · obtain ⟨c, here, digit⟩ : ∃ c, s.peek 1 = some c ∧ c.isDigit := by
        cases here : s.peek 1 <;> simp_all
      refine ⟨ds, rfl, fun none => ?_⟩
      have other : c.isDigit = false := first none c here
      rw [digit] at other
      cases other
  · next other =>
    refine ⟨[], .inl rfl, (Takes.refl s).congr (by simp [FractionText.none]), by simp,
      fun point => ?_⟩
    simp [point] at other

theorem takes_skipSign (s : Scanner) : ∃ sign ∈ signs, Takes s s.skipSign sign True := by
  simp only [skipSign]
  split
  · next sign =>
    rw [Bool.or_eq_true, beq_iff_eq, beq_iff_eq] at sign
    rcases sign with h | h
    · exact ⟨['+'], by decide, takes_one h rfl _ _ _ _⟩
    · exact ⟨['-'], by decide, takes_one h rfl _ _ _ _⟩
  · exact ⟨[], by decide, .refl s⟩

/-- The scanner behind digits, reported where there are none. -/
def someDigits (isDigit : Char → Bool) (missing : Message) (s : Scanner) : Scanner :=
  match s.scanDigits isDigit with
  | (true, t) => t
  | (false, t) => t.report missing t.stop t.stop []

theorem takes_someDigits {isDigit : Char → Bool} (thin : ∀ c, isDigit c → c.utf8Size = 1)
    (plain : isDigit '_' = false) (missing : Message) (known : missing ≠ .conflictMarker)
    (s : Scanner) :
    ∃ ds, Loose isDigit ds ∧ Takes s (s.someDigits isDigit missing) ds (DigitText isDigit ds) := by
  obtain ⟨ds, loose, takes, any, _⟩ := takes_scanDigits thin plain s
  refine ⟨ds, loose, ?_⟩
  unfold someDigits
  cases found : s.scanDigits isDigit with
  | mk some t =>
    rw [found] at takes any
    cases some with
    | true => exact takes.congr (by simp [digitText_iff loose, ← any])
    | false => exact (takes.report known _ _ _).congr (by simp [digitText_iff loose, ← any])

theorem scanExponent_eq (letter : s.peek 0 = some 'e' ∨ s.peek 0 = some 'E') :
    s.scanExponent =
      (true, ({ s with stop := s.stop + 1, flags := { s.flags with scientific := true } }
        ).skipSign.someDigits Char.isDigit .digitExpected) := by
  have letter : (s.peek 0 == some 'e' || s.peek 0 == some 'E') = true := by simpa using letter
  simp only [scanExponent, someDigits, letter, if_true]
  generalize scanDigits _ _ = digits
  rcases digits with ⟨_ | _, t⟩ <;> rfl

theorem takes_scanExponent (s : Scanner) : ∃ e, LooseExponent e ∧
    Takes s s.scanExponent.2 e (ExponentText e) ∧ (s.scanExponent.1 = false → e = []) := by
  by_cases letter : s.peek 0 = some 'e' ∨ s.peek 0 = some 'E'
  · obtain ⟨x, known, here⟩ : ∃ x ∈ exponentLetters, s.peek 0 = some x := by
      rcases letter with h | h
      · exact ⟨'e', by decide, h⟩
      · exact ⟨'E', by decide, h⟩
    have thin : ∀ x ∈ exponentLetters, x.utf8Size = 1 := by simp [exponentLetters, Char.utf8Size]
    have one :=
      takes_one here (thin x known) s.kind s.value { s.flags with scientific := true } s.torn
    rw [scanExponent_eq letter]
    generalize ({ s with
      stop := s.stop + 1, flags := { s.flags with scientific := true } } : Scanner) = t at one ⊢
    obtain ⟨sign, signed, skips⟩ := takes_skipSign t
    obtain ⟨ds, loose, takes⟩ := takes_someDigits (fun _ => utf8Size_of_isDigit) rfl
      .digitExpected (by decide) t.skipSign
    refine ⟨x :: (sign ++ ds), .inr ⟨x, known, sign, signed, ds, loose, rfl⟩,
      ((one.trans skips).trans takes).congr ?_, by simp⟩
    rw [exponentText_iff known signed loose]
    simp
  · have other : (s.peek 0 == some 'e' || s.peek 0 == some 'E') = false := by simpa using letter
    simp only [scanExponent, other]
    exact ⟨[], .inl rfl, (Takes.refl s).congr (by simp [ExponentText.none]), by simp⟩

/-- From `s` to `t` a number was read, and reported unless it is one of the grammar that no word
follows. -/
def ReadsNumber (s t : Scanner) : Prop :=
  ∃ text, Takes s t text (NumberText text ∧ t.Ends) ∧
    (t.kind = .bigIntLiteral ↔ text.getLast? = some 'n')

/-- A number begins where the scanner stands. -/
def FacesNumber (s : Scanner) : Prop :=
  ∃ c, s.peek 0 = some c ∧ (c.isDigit ∨ c = '.' ∧ (s.peek 1).any Char.isDigit)

/-- The suffix is what a text ends in that has its letter nowhere else. -/
theorem getLast?_suffix {before suffix : List Char} (plain : 'n' ∉ before)
    (h : suffix ∈ suffixes) : (before ++ suffix).getLast? = some 'n' ↔ suffix = ['n'] := by
  rcases mem_suffixes.mp h with rfl | rfl
  · rw [List.append_nil]
    constructor
    · exact fun last => absurd (List.mem_of_getLast? last) plain
    · exact fun no => (nomatch no)
  · simp

/-- The digits before a point are missing only where the number begins with it. -/
theorem takes_integer (h : s.FacesNumber) : ∃ d t, Loose Char.isDigit d ∧
    Takes s t d (InOrder Char.isDigit d) ∧ (d = [] → t = s ∧ s.peek 0 = some '.') ∧
    s.scanDecimal = t.scanFraction.2.scanExponent.2.finishNumber
      (!t.scanFraction.1 && !t.scanFraction.2.scanExponent.1) := by
  obtain ⟨c, here, begins⟩ := h
  by_cases point : s.peek 0 = some '.'
  · refine ⟨[], s, by simp [Loose], (Takes.refl s).congr (by simp [InOrder]),
      fun _ => ⟨rfl, point⟩, ?_⟩
    simp [scanDecimal, point]
  · obtain ⟨ds, loose, takes, _, first⟩ := takes_scanDigits (fun _ => utf8Size_of_isDigit) rfl s
    have digit : c.isDigit := begins.resolve_right fun other => point (other.1 ▸ here)
    refine ⟨ds, _, loose, takes, fun none => ?_, by simp [scanDecimal, point]⟩
    have other := first none c here
    rw [digit] at other
    cases other

theorem readsNumber_scanDecimal (h : s.FacesNumber) : ReadsNumber s s.scanDecimal := by
  obtain ⟨d, t, loose, digits, first, same⟩ := takes_integer h
  obtain ⟨f, looseFraction, fraction, noPoint, some⟩ := t.takes_scanFraction
  obtain ⟨e, looseExponent, exponent, noPower⟩ := t.scanFraction.2.takes_scanExponent
  obtain ⟨n, suffix, big, ends, kind⟩ := t.scanFraction.2.scanExponent.2.takes_finishNumber
    (!t.scanFraction.1 && !t.scanFraction.2.scanExponent.1)
  rw [same]
  have division : Division d f e n := ⟨loose, looseFraction, looseExponent, suffix⟩
  have alone : n = [] ∨ f = [] ∧ e = [] := by
    by_cases only : t.scanFraction.1 = false ∧ t.scanFraction.2.scanExponent.1 = false
    · exact .inr ⟨noPoint only.1, noPower only.2⟩
    · refine .inl (big ?_)
      simpa using only
  have some : d ≠ [] ∨ ∃ ds, f = '.' :: ds ∧ ds ≠ [] := by
    by_cases none : d = []
    · obtain ⟨rfl, point⟩ := first none
      refine .inr (some point ?_)
      obtain ⟨c, here, begins⟩ := h
      obtain rfl := Option.some.inj (here.symm.trans point)
      exact (begins.resolve_left (by decide)).2
    · exact .inl none
  refine ⟨d ++ (f ++ (e ++ n)), (digits.trans (fraction.trans (exponent.trans ends))).congr ?_, ?_⟩
  · rw [numberText_decimal division alone some, and_assoc, and_assoc]
  · rw [kind, ← getLast?_suffix division.not_mem_parts suffix, List.append_assoc, List.append_assoc]

/-- Digits that a letter announces are of one byte, and none is a separator or the suffix. -/
theorem radixDigits?_spec {x : Char} {isDigit : Char → Bool} (h : radixDigits? x = some isDigit) :
    x.utf8Size = 1 ∧ isDigit '_' = false ∧ isDigit 'n' = false ∧
      ∀ c, isDigit c → c.utf8Size = 1 := by
  unfold radixDigits? at h
  split at h
  case h_7 => cases h
  all_goals cases h
  · exact ⟨rfl, rfl, rfl, fun _ => utf8Size_of_isHexDigit⟩
  · exact ⟨rfl, rfl, rfl, fun _ => utf8Size_of_isHexDigit⟩
  · exact ⟨rfl, rfl, rfl, fun _ => utf8Size_of_isBinaryDigit⟩
  · exact ⟨rfl, rfl, rfl, fun _ => utf8Size_of_isBinaryDigit⟩
  · exact ⟨rfl, rfl, rfl, fun _ => utf8Size_of_isOctalDigit⟩
  · exact ⟨rfl, rfl, rfl, fun _ => utf8Size_of_isOctalDigit⟩

theorem readsNumber_scanRadix {x : Char} {isDigit : Char → Bool} (zero : s.peek 0 = some '0')
    (here : s.peek 1 = some x) (letter : radixDigits? x = some isDigit) {missing : Message}
    (known : missing ≠ .conflictMarker) : ReadsNumber s (s.scanRadix isDigit missing) := by
  obtain ⟨thin, separator, last, digit⟩ := radixDigits?_spec letter
  have same : s.scanRadix isDigit missing =
      (({ s with stop := s.stop + 2 } : Scanner).someDigits isDigit missing).finishNumber true := by
    simp only [scanRadix, someDigits]
    generalize scanDigits _ _ = digits
    rcases digits with ⟨_ | _, t⟩ <;> rfl
  have thins : ∀ c ∈ ['0', x], c.utf8Size = 1 := by simpa using ⟨rfl, thin⟩
  have two : Takes s { s with stop := s.stop + 2 } ['0', x] True :=
    takes_text (s := s) ['0', x] ⟨zero, here, trivial⟩ thins rfl _ _ _ _
  obtain ⟨ds, loose, digits⟩ := takes_someDigits digit separator missing known
    ({ s with stop := s.stop + 2 } : Scanner)
  obtain ⟨n, suffix, _, ends, kind⟩ := takes_finishNumber
    (({ s with stop := s.stop + 2 } : Scanner).someDigits isDigit missing) true
  have plain : 'n' ∉ '0' :: x :: ds := by
    have other : x ≠ 'n' := by
      rintro rfl
      cases letter
    have none : 'n' ∉ ds := fun h => by simpa [last] using loose 'n' h
    simp [other.symm, none]
  rw [same]
  refine ⟨'0' :: x :: (ds ++ n), (two.trans (digits.trans ends)).congr ?_, ?_⟩
  · rw [numberText_radix letter loose suffix last, true_and]
  · exact kind.trans (getLast?_suffix plain suffix).symm

/-- Marks that the token has do not matter to what is read. -/
theorem ReadsNumber.marked (f : TokenFlags) (torn : Bool)
    (h : ReadsNumber { s with flags := f, torn := torn } t) : ReadsNumber s t := by
  obtain ⟨text, takes, kind⟩ := h
  exact ⟨text, takes.of_eq rfl rfl rfl rfl rfl, kind⟩

theorem readsNumber_scanLeadingZero (zero : s.peek 0 = some '0') (here : s.peek 1 = some c)
    (digit : c.isDigit) : ReadsNumber s s.scanLeadingZero := by
  obtain ⟨run, all, holds, stop, ends⟩ :=
    Source.holds_skipWhile s.source s.limit Char.isDigit (s.stop + 1)
  have thin : ∀ c ∈ run, c.utf8Size = 1 := fun c hc => utf8Size_of_isDigit (all c hc)
  have chars := holds.chars
  rw [← stop] at chars
  rw [length_layout_of_thin thin] at stop ends
  simp only [scanLeadingZero, chars]
  split
  · next octal =>
    have octal : ∀ c ∈ run, isOctalDigit c := List.all_eq_true.mp octal
    have some : run ≠ [] := by
      rintro rfl
      rw [ends c here] at digit
      cases digit
    have last : ('0' :: run).getLast? ≠ Option.some 'n' := fun last => by
      rcases List.mem_cons.mp (List.mem_of_getLast? last) with h | h
      · cases h
      · cases octal 'n' h
    have length : s.source.skipWhile s.limit Char.isDigit (s.stop + 1) =
        s.stop + ('0' :: run).length := by
      rw [stop, List.length_cons]
      omega
    generalize marked : ({ s with
      stop := s.source.skipWhile s.limit Char.isDigit (s.stop + 1), kind := .numericLiteral
      flags := { s.flags with octal := true } } : Scanner).setValue = t
    have takes : Takes s t ('0' :: run) True := by
      rw [← marked]
      exact takes_text (s := s) ('0' :: run) ⟨zero, holds⟩
        (List.forall_mem_cons.mpr ⟨rfl, thin⟩) length _ _ _ _
    have kind : t.checkNumberEnd.kind = .numericLiteral := by
      rw [kind_checkNumberEnd, ← marked]
      rfl
    refine ⟨'0' :: run, (takes.behind t.takes_checkNumberEnd).congr ?_, by simp [kind, last]⟩
    simp [NumberText.legacyOctal some octal]
  · have faces : s.FacesNumber := ⟨'0', zero, .inl rfl⟩
    exact .marked _ s.torn (readsNumber_scanDecimal faces)

theorem readsNumber_scanNumber (h : s.FacesNumber) : ReadsNumber s s.scanNumber := by
  have decimal := readsNumber_scanDecimal h
  simp only [scanNumber]
  split
  · next zero =>
    have zero := eq_of_beq zero
    have radix {x : Char} {isDigit : Char → Bool} {f : TokenFlags} {missing : Message}
        (here : s.peek 1 = some x) (letter : radixDigits? x = some isDigit)
        (known : missing ≠ .conflictMarker) :
        ReadsNumber s (({ s with flags := f } : Scanner).scanRadix isDigit missing) :=
      .marked _ s.torn
        (readsNumber_scanRadix (s := { s with flags := f }) zero here letter known)
    split
    · next here => exact radix here rfl (by decide)
    · next here => exact radix here rfl (by decide)
    · next here => exact radix here rfl (by decide)
    · next here => exact radix here rfl (by decide)
    · next here => exact radix here rfl (by decide)
    · next here => exact radix here rfl (by decide)
    · next here =>
      split
      · next digit =>
        exact .marked s.flags _ (readsNumber_scanLeadingZero
          (s := s.check (s.stop + 1 ≤ s.limit)) zero here digit)
      · exact decimal
    · exact decimal
  · exact decimal

/-- A number is what is read where a number begins. -/
def OnlyNumber (s t : Scanner) : Prop := t.kind.isNumber → s.FacesNumber ∧ t = s.scanNumber

theorem onlyNumber_scanToken (s : Scanner) : OnlyNumber s s.scanToken := by
  have found := finds_scanToken s
  generalize s.scanToken = t at found
  intro number
  cases found with
  | sign other =>
    rw [Kind.not_isNumber_of_isSign other] at number
    cases number
  | number here digit => exact ⟨⟨_, here, digit⟩, rfl⟩
  | word =>
    rw [Kind.not_isNumber_of_isWord (isWord_scanIdentifier _)] at number
    cases number

/-- Trivia was passed over since `s`, with nothing to report but markers of an unresolved merge,
unless it goes on to the end of the text. -/
def Marked (s t : Scanner) : Prop :=
  t.atEnd ∨ ∃ more : Diagnostics, t.pending = s.pending ++ more ∧
    ∀ d ∈ more, d.message = .conflictMarker

theorem marked_scanTrivia (h : Marked s t) (more : t.atEnd = false) : Marked s t.scanTrivia.2 := by
  obtain ⟨old, pending, marks⟩ := h.resolve_left (by simp [more])
  rcases t.pending_scanTrivia with same | ⟨r, same⟩ | ⟨ended, _⟩
  · exact .inr ⟨old, same.trans pending, marks⟩
  · refine .inr ⟨old.push ⟨r, .conflictMarker, []⟩, ?_, fun d hd => ?_⟩
    · rw [same, pending, Diagnostics.report, Array.push_append]
    · rcases Array.mem_push.mp hd with hd | rfl
      · exact marks d hd
      · rfl
  · exact .inl ended

/-- A scan that finds a number reports nothing but merge conflicts before it just if the number is
one of the grammar that no word follows, and finds a big integer just if the number ends so. -/
theorem scan_number (s : Scanner) (number : s.scan.kind.isNumber) :
    ∃ more : Diagnostics, s.scan.pending = s.pending ++ more ∧
      ((∀ d ∈ more, d.message = .conflictMarker) ↔
        NumberText (s.source.chars s.scan.start s.scan.stop) ∧
          ∀ c, s.charAt? s.scan.stop = some c → isIdentifierStart c = false) ∧
      (s.scan.kind = .bigIntLiteral ↔
        (s.source.chars s.scan.start s.scan.stop).getLast? = some 'n') := by
  have token : s.scan.kind.isTrivia = false := Kind.not_isTrivia_of_isNumber number
  have more : s.scan.kind ≠ .endOfFileToken := by
    intro kind
    rw [kind] at number
    cases number
  obtain ⟨v, passing, marked, arrives⟩ := arrives_scan (Q := Marked s) (fun _ h => h)
    (fun u _ h goes _ => marked_scanTrivia h goes) (.inr ⟨#[], by simp [begin], by simp⟩) token more
  obtain ⟨old, pending, marks⟩ := marked.resolve_left (by simp [arrives.more])
  obtain ⟨ok, same⟩ := arrives.token
  rw [same] at number
  obtain ⟨faces, same'⟩ := onlyNumber_scanToken _ number
  obtain ⟨text, takes, kind⟩ := readsNumber_scanNumber faces
  rw [← same', ← same] at takes kind
  obtain ⟨new, added, quiet, other⟩ := takes.reports
  have chars : s.source.chars s.scan.start s.scan.stop = text := by
    have holds : s.source.Holds s.limit v.stop text := by
      rw [← passing.source, ← passing.limit]
      exact takes.holds
    have start : s.scan.start = v.stop := takes.start.trans arrives.start
    have stop : s.scan.stop = v.stop + text.length := takes.stop
    rw [start, stop, ← length_layout_of_thin takes.thin]
    exact holds.chars
  have ends : s.scan.Ends ↔ ∀ c, s.charAt? s.scan.stop = some c → isIdentifierStart c = false := by
    have source : s.scan.source = s.source := takes.source.trans passing.source
    have limit : s.scan.limit = s.limit := takes.limit.trans passing.limit
    unfold Ends charAt?
    rw [source, limit]
  have pending : s.scan.pending = s.pending ++ (old ++ new) := by
    rw [← Array.append_assoc, ← pending]
    exact added
  refine ⟨old ++ new, pending, ?_, by rw [chars, kind]⟩
  rw [chars, ← ends, ← quiet]
  constructor
  · intro all
    refine Array.eq_empty_iff_forall_not_mem.mpr fun d hd => ?_
    exact other d hd (all d (Array.mem_append.mpr (.inr hd)))
  · rintro rfl d hd
    exact marks d (by simpa using hd)

/-- Separators stand only between digits, and nothing is reported. -/
theorem scan_number_separated :
    let s := ofSource (.ofString "1_000.5e-3;") false
    s.scan.pending = #[] ∧ NumberText "1_000.5e-3".toList ∧ s.scan.kind ≠ .bigIntLiteral := by
  intro s
  have number : s.scan.kind.isNumber := by decide +kernel
  have text : s.source.chars s.scan.start s.scan.stop = "1_000.5e-3".toList := by decide +kernel
  have quiet : s.scan.pending = #[] := by decide +kernel
  obtain ⟨more, pending, fine, big⟩ := scan_number s number
  have none : more = #[] := by
    rw [quiet] at pending
    exact (Array.append_eq_empty_iff.mp pending.symm).2
  rw [text] at fine big
  refine ⟨quiet, (fine.mp (by simp [none])).1, fun kind => ?_⟩
  have last := big.mp kind
  revert last
  decide +kernel

/-- What a scan reports may be a merge conflict before the number. -/
theorem scan_number_conflict :
    let s := ofSource (.ofString "<<<<<<< a\n1") false
    s.scan.kind.isNumber ∧
      ¬ (s.scan.pending = s.pending ↔ NumberText (s.source.chars s.scan.start s.scan.stop) ∧
        ∀ c, s.charAt? s.scan.stop = some c → isIdentifierStart c = false) := by
  intro s
  have number : s.scan.kind.isNumber := by decide +kernel
  have text : s.source.chars s.scan.start s.scan.stop = ['1'] := by decide +kernel
  have ends : s.charAt? s.scan.stop = none := by decide +kernel
  have reported : s.scan.pending ≠ s.pending := by decide +kernel
  have one : NumberText (['1'] ++ []) := .integer (.one (by decide)) (by decide)
  refine ⟨number, fun same => reported (same.mpr ⟨?_, ?_⟩)⟩
  · rw [text]
    exact one
  · simp [ends]

end Scanner
end ScriptGrammar
