import ScriptGrammar.Proofs.Scanner.Onward

/-!
# The grammar of numbers

`NumberText` is the grammar of number literals, apart from the way they are read. A text has only
one division into digits, fraction, exponent and suffix, so it is a number just if the parts of
that division are in order.
-/

namespace ScriptGrammar

/-- Digits, with a single separator between any two. -/
inductive DigitText (isDigit : Char → Bool) : List Char → Prop
  | one {c : Char} (digit : isDigit c) : DigitText isDigit [c]
  | next {c : Char} {cs : List Char} (digit : isDigit c) (rest : DigitText isDigit cs) :
      DigitText isDigit (c :: cs)
  | apart {c : Char} {cs : List Char} (digit : isDigit c) (rest : DigitText isDigit cs) :
      DigitText isDigit (c :: '_' :: cs)

/-- A point and a fraction, either of which may be missing. -/
inductive FractionText : List Char → Prop
  | none : FractionText []
  | point : FractionText ['.']
  | some {digits : List Char} (h : DigitText Char.isDigit digits) : FractionText ('.' :: digits)

def exponentLetters : List Char := ['e', 'E']

def signs : List (List Char) := [[], ['+'], ['-']]

/-- An exponent, or none. -/
inductive ExponentText : List Char → Prop
  | none : ExponentText []
  | some {e : Char} {sign digits : List Char} (letter : e ∈ exponentLetters) (signed : sign ∈ signs)
      (h : DigitText Char.isDigit digits) : ExponentText (e :: (sign ++ digits))

/-- The digits that a letter behind a zero announces. -/
def radixDigits? : Char → Option (Char → Bool)
  | 'x' | 'X' => some isHexDigit
  | 'b' | 'B' => some isBinaryDigit
  | 'o' | 'O' => some isOctalDigit
  | _ => none

/-- The suffix of a big integer, or none. -/
def suffixes : List (List Char) := [[], ['n']]

inductive NumberText : List Char → Prop
  | radix {x : Char} {isDigit : Char → Bool} {digits suffix : List Char}
      (letter : radixDigits? x = some isDigit) (h : DigitText isDigit digits)
      (big : suffix ∈ suffixes) : NumberText ('0' :: x :: (digits ++ suffix))
  | legacyOctal {digits : List Char} (some : digits ≠ []) (octal : ∀ d ∈ digits, isOctalDigit d) :
      NumberText ('0' :: digits)
  | integer {digits suffix : List Char} (h : DigitText Char.isDigit digits)
      (big : suffix ∈ suffixes) : NumberText (digits ++ suffix)
  | decimal {digits fraction exponent : List Char} (h : DigitText Char.isDigit digits)
      (behind : FractionText fraction) (power : ExponentText exponent) :
      NumberText (digits ++ (fraction ++ exponent))
  | fraction {digits exponent : List Char} (h : DigitText Char.isDigit digits)
      (power : ExponentText exponent) : NumberText ('.' :: (digits ++ exponent))

/-- Digits and separators in any order. -/
def Loose (isDigit : Char → Bool) (cs : List Char) : Prop := ∀ c ∈ cs, isDigit c ∨ c = '_'

section Digits

variable {isDigit : Char → Bool} {c : Char} {cs : List Char}

theorem DigitText.loose (h : DigitText isDigit cs) : Loose isDigit cs := by
  induction h with
  | one digit => exact List.forall_mem_cons.mpr ⟨.inl digit, by simp⟩
  | next digit _ ih => exact List.forall_mem_cons.mpr ⟨.inl digit, ih⟩
  | apart digit _ ih =>
    exact List.forall_mem_cons.mpr ⟨.inl digit, List.forall_mem_cons.mpr ⟨.inr rfl, ih⟩⟩

/-- Digits begin with a digit. -/
theorem DigitText.begins (h : DigitText isDigit cs) : ∃ c ds, cs = c :: ds ∧ isDigit c := by
  cases h with
  | one digit => exact ⟨_, _, rfl, digit⟩
  | next digit _ => exact ⟨_, _, rfl, digit⟩
  | apart digit _ => exact ⟨_, _, rfl, digit⟩

theorem digitText_of_all (some : cs ≠ []) (all : ∀ c ∈ cs, isDigit c) : DigitText isDigit cs := by
  induction cs with
  | nil => exact absurd rfl some
  | cons c cs ih =>
    obtain ⟨digit, rest⟩ := List.forall_mem_cons.mp all
    cases cs with
    | nil => exact .one digit
    | cons d ds => exact .next digit (ih (List.cons_ne_nil d ds) rest)

/-- What stands where digits may stand is in order. -/
def InOrder (isDigit : Char → Bool) (cs : List Char) : Prop := cs = [] ∨ DigitText isDigit cs

theorem digitText_iff (loose : Loose isDigit cs) :
    DigitText isDigit cs ↔ InOrder isDigit cs ∧ cs.any isDigit := by
  constructor
  · intro h
    obtain ⟨c, ds, same, digit⟩ := h.begins
    exact ⟨.inr h, by simp [same, digit]⟩
  · rintro ⟨rfl | h, any⟩
    · cases any
    · exact h

/-- What may follow a digit in digits. -/
def AfterDigit (isDigit : Char → Bool) (cs : List Char) : Prop :=
  cs = [] ∨ DigitText isDigit cs ∨ ∃ rest, cs = '_' :: rest ∧ DigitText isDigit rest

theorem digitText_cons (digit : isDigit c) :
    DigitText isDigit (c :: cs) ↔ AfterDigit isDigit cs := by
  constructor
  · rintro (_ | ⟨_, rest⟩ | ⟨_, rest⟩)
    · exact .inl rfl
    · exact .inr (.inl rest)
    · exact .inr (.inr ⟨_, rfl, rest⟩)
  · rintro (rfl | rest | ⟨_, rfl, rest⟩)
    · exact .one digit
    · exact .next digit rest
    · exact .apart digit rest

end Digits

/-- A text is divided in one way only into what is of a kind and what does not begin so. -/
theorem span_unique {P : Char → Prop} {as bs as' bs' : List Char} (kind : ∀ a ∈ as, P a)
    (kind' : ∀ a ∈ as', P a) (ends : ∀ b ∈ bs.head?, ¬ P b) (ends' : ∀ b ∈ bs'.head?, ¬ P b)
    (same : as ++ bs = as' ++ bs') : as = as' ∧ bs = bs' := by
  induction as generalizing as' with
  | nil =>
    cases as' with
    | nil => exact ⟨rfl, same⟩
    | cons a as' =>
      rw [List.nil_append] at same
      exact absurd (kind' a List.mem_cons_self) (ends a (by simp [same]))
  | cons a as ih =>
    have ⟨one, kind⟩ := List.forall_mem_cons.mp kind
    cases as' with
    | nil =>
      rw [List.nil_append] at same
      exact absurd one (ends' a (by simp [← same]))
    | cons a' as' =>
      injection same with first rest
      obtain ⟨same, rest⟩ := ih kind (List.forall_mem_cons.mp kind').2 rest
      exact ⟨by rw [first, same], rest⟩

/-- A point and digits, in order or not, or nothing. -/
def LooseFraction (cs : List Char) : Prop := cs = [] ∨ ∃ ds, Loose Char.isDigit ds ∧ cs = '.' :: ds

/-- What begins as an exponent, in order or not, or nothing. -/
def LooseExponent (cs : List Char) : Prop :=
  cs = [] ∨ ∃ e ∈ exponentLetters, ∃ sign ∈ signs, ∃ ds,
    Loose Char.isDigit ds ∧ cs = e :: (sign ++ ds)

/-- The parts of a number in decimal, in order or not. -/
structure Division (digits fraction exponent suffix : List Char) : Prop where
  digits : Loose Char.isDigit digits
  fraction : LooseFraction fraction
  exponent : LooseExponent exponent
  suffix : suffix ∈ suffixes

namespace Division

variable {d f e n d' f' e' n' : List Char}

theorem head_suffix (h : n ∈ suffixes) : ∀ c ∈ n.head?, c = 'n' := by
  simp only [suffixes, List.mem_cons, List.not_mem_nil, or_false] at h
  rcases h with rfl | rfl <;> simp

theorem head_exponent (h : Division d f e n) : ∀ c ∈ (e ++ n).head?, c ∈ ['e', 'E', 'n'] := by
  rcases h.exponent with rfl | ⟨x, letter, sign, _, ds, _, rfl⟩
  · intro c hc
    rw [head_suffix h.suffix c hc]
    decide
  · simpa [exponentLetters, or_assoc] using Or.inl letter

theorem head_fraction (h : Division d f e n) :
    ∀ c ∈ (f ++ (e ++ n)).head?, c ∈ ['.', 'e', 'E', 'n'] := by
  rcases h.fraction with rfl | ⟨ds, _, rfl⟩
  · intro c hc
    exact List.mem_cons_of_mem '.' (h.head_exponent c hc)
  · simp

/-- The characters that are no digits and may begin a part behind the digits. -/
theorem not_loose {c : Char} (h : c ∈ ['.', 'e', 'E', 'n']) : ¬ (c.isDigit ∨ c = '_') := by
  have all : ∀ c ∈ ['.', 'e', 'E', 'n'], ¬ (c.isDigit ∨ c = '_') := by simp
  exact all c h

/-- Digits, and the suffix behind them, do not begin with a sign. -/
theorem not_sign {ds : List Char} (loose : Loose Char.isDigit ds) (h : n ∈ suffixes) :
    ∀ c ∈ (ds ++ n).head?, c ∉ ['+', '-'] := by
  intro c hc
  cases ds with
  | nil =>
    rw [head_suffix h c hc]
    decide
  | cons d ds =>
    have none : ∀ c ∈ ['+', '-'], ¬ (c.isDigit ∨ c = '_') := by simp
    obtain rfl := Option.some.inj hc
    exact fun sign => none d sign (loose d List.mem_cons_self)

theorem unique_power {sign ds sign' ds' : List Char} (signed : sign ∈ signs)
    (signed' : sign' ∈ signs) (loose : Loose Char.isDigit ds) (loose' : Loose Char.isDigit ds')
    (h : n ∈ suffixes) (h' : n' ∈ suffixes) (same : sign ++ (ds ++ n) = sign' ++ (ds' ++ n')) :
    sign = sign' ∧ ds = ds' ∧ n = n' := by
  have mark : ∀ sign ∈ signs, ∀ c ∈ sign, c ∈ ['+', '-'] := by simp [signs]
  have plain {n : List Char} (h : n ∈ suffixes) : ∀ c ∈ n.head?, ¬ (c.isDigit ∨ c = '_') := by
    intro c hc
    rw [head_suffix h c hc]
    decide
  obtain ⟨first, digits⟩ := span_unique (mark sign signed) (mark sign' signed') (not_sign loose h)
    (not_sign loose' h') same
  obtain ⟨second, last⟩ := span_unique loose loose' (plain h) (plain h') digits
  exact ⟨first, second, last⟩

theorem unique_exponent (h : Division d f e n) (k : Division d' f' e' n')
    (same : e ++ n = e' ++ n') : e = e' ∧ n = n' := by
  have clash {x : Char} {ds n : List Char} (letter : x ∈ exponentLetters) (suffix : n ∈ suffixes) :
      n ≠ x :: ds := by
    rintro rfl
    obtain rfl := head_suffix suffix x rfl
    revert letter
    decide
  rcases h.exponent with rfl | ⟨x, letter, sign, signed, ds, loose, rfl⟩
  · rcases k.exponent with rfl | ⟨x', letter', sign', signed', ds', loose', rfl⟩
    · exact ⟨rfl, same⟩
    · exact absurd same (clash letter' h.suffix)
  · rcases k.exponent with rfl | ⟨x', letter', sign', signed', ds', loose', rfl⟩
    · exact absurd same.symm (clash letter k.suffix)
    · rw [List.cons_append, List.cons_append, List.append_assoc, List.append_assoc] at same
      injection same with first rest
      obtain ⟨rfl, rfl, last⟩ :=
        unique_power signed signed' loose loose' h.suffix k.suffix rest
      exact ⟨by rw [first], last⟩

/-- A number in decimal has only one division. -/
theorem unique (h : Division d f e n) (k : Division d' f' e' n')
    (same : d ++ (f ++ (e ++ n)) = d' ++ (f' ++ (e' ++ n'))) :
    d = d' ∧ f = f' ∧ e = e' ∧ n = n' := by
  obtain ⟨rfl, behind⟩ := span_unique h.digits k.digits
    (fun c hc => not_loose (h.head_fraction c hc))
    (fun c hc => not_loose (k.head_fraction c hc)) same
  have ends {d f e n : List Char} (h : Division d f e n) :
      ∀ c ∈ (e ++ n).head?, ¬ (c.isDigit ∨ c = '_') :=
    fun c hc => not_loose (List.mem_cons_of_mem '.' (h.head_exponent c hc))
  have clash {d f e n ds : List Char} (h : Division d f e n) : e ++ n ≠ '.' :: ds := by
    intro same
    have head := h.head_exponent '.' (by rw [same]; rfl)
    revert head
    decide
  rcases h.fraction with rfl | ⟨ds, loose, rfl⟩
  · rcases k.fraction with rfl | ⟨ds', loose', rfl⟩
    · obtain ⟨rfl, rfl⟩ := h.unique_exponent k behind
      exact ⟨rfl, rfl, rfl, rfl⟩
    · exact (clash h behind).elim
  · rcases k.fraction with rfl | ⟨ds', loose', rfl⟩
    · exact (clash k behind.symm).elim
    · rw [List.cons_append, List.cons_append] at behind
      injection behind with _ digits
      obtain ⟨rfl, rest⟩ := span_unique loose loose' (ends h) (ends k) digits
      obtain ⟨rfl, rfl⟩ := h.unique_exponent k rest
      exact ⟨rfl, rfl, rfl, rfl⟩

/-- What may stand before the suffix apart from digits. -/
def marks : List Char := ['_', '.', 'e', 'E', '+', '-']

theorem mem_parts (h : Division d f e n) : ∀ c ∈ d ++ (f ++ e), c.isDigit ∨ c ∈ marks := by
  have loose {ds : List Char} (h : Loose Char.isDigit ds) : ∀ c ∈ ds, c.isDigit ∨ c ∈ marks := by
    intro c hc
    rcases h c hc with digit | rfl
    · exact .inl digit
    · exact .inr (by decide)
  have letters : ∀ c ∈ exponentLetters, c ∈ marks := by simp [exponentLetters, marks]
  have signed : ∀ sign ∈ signs, ∀ c ∈ sign, c ∈ marks := by simp [signs, marks]
  refine List.forall_mem_append.mpr ⟨loose h.digits, List.forall_mem_append.mpr ⟨?_, ?_⟩⟩
  · rcases h.fraction with rfl | ⟨ds, hs, rfl⟩
    · simp
    · exact List.forall_mem_cons.mpr ⟨.inr (by decide), loose hs⟩
  · rcases h.exponent with rfl | ⟨x, letter, sign, hs, ds, hd, rfl⟩
    · simp
    · exact List.forall_mem_cons.mpr ⟨.inr (letters x letter),
        List.forall_mem_append.mpr ⟨fun c hc => .inr (signed sign hs c hc), loose hd⟩⟩

theorem not_mem_parts (h : Division d f e n) : 'n' ∉ d ++ (f ++ e) := by
  intro letter
  have kind := h.mem_parts 'n' letter
  revert kind
  decide

theorem radixDigits?_eq_none (h : Division d f e n) :
    ∀ c ∈ d ++ (f ++ (e ++ n)), radixDigits? c = none := by
  have part {c : Char} (kind : c.isDigit ∨ c ∈ marks) : radixDigits? c = none := by
    unfold radixDigits?
    split
    case h_7 => rfl
    all_goals
      revert kind
      decide
  have last : ∀ n ∈ suffixes, ∀ c ∈ n, radixDigits? c = none := by simp [suffixes, radixDigits?]
  rw [← List.append_assoc f, ← List.append_assoc d]
  exact List.forall_mem_append.mpr ⟨fun c hc => part (h.mem_parts c hc), last n h.suffix⟩

end Division

theorem mem_suffixes {suffix : List Char} : suffix ∈ suffixes ↔ suffix = [] ∨ suffix = ['n'] := by
  simp [suffixes]

theorem FractionText.loose {f : List Char} (h : FractionText f) : LooseFraction f := by
  rcases h with _ | _ | h
  · exact .inl rfl
  · exact .inr ⟨[], by simp [Loose], rfl⟩
  · exact .inr ⟨_, h.loose, rfl⟩

theorem ExponentText.loose {e : List Char} (h : ExponentText e) : LooseExponent e := by
  rcases h with _ | ⟨letter, signed, h⟩
  · exact .inl rfl
  · exact .inr ⟨_, letter, _, signed, _, h.loose, rfl⟩

theorem fractionText_iff {ds : List Char} : FractionText ('.' :: ds) ↔ InOrder Char.isDigit ds := by
  constructor
  · rintro (_ | _ | digits)
    · exact .inl rfl
    · exact .inr digits
  · rintro (rfl | digits)
    · exact .point
    · exact .some digits

theorem exponentText_iff {x : Char} {sign ds : List Char} (letter : x ∈ exponentLetters)
    (signed : sign ∈ signs) (loose : Loose Char.isDigit ds) :
    ExponentText (x :: (sign ++ ds)) ↔ DigitText Char.isDigit ds := by
  constructor
  · generalize same : x :: (sign ++ ds) = text
    rintro (_ | @⟨x', sign', ds', _, signed', digits⟩)
    · cases same
    · injection same with _ rest
      have none : [] ∈ suffixes := by decide
      obtain ⟨-, rfl, -⟩ := Division.unique_power signed signed' loose digits.loose none none
        (by simpa using rest)
      exact digits
  · exact .some letter signed

/-- A number has a prefix, or is one in decimal with all its parts in order. -/
theorem numberText_cases {text : List Char} (h : NumberText text) :
    (∃ x isDigit digits suffix, radixDigits? x = some isDigit ∧ DigitText isDigit digits ∧
      suffix ∈ suffixes ∧ text = '0' :: x :: (digits ++ suffix)) ∨
    ∃ d f e n, Division d f e n ∧ text = d ++ (f ++ (e ++ n)) ∧
      InOrder Char.isDigit d ∧ FractionText f ∧ ExponentText e := by
  cases h with
  | radix letter h big => exact .inl ⟨_, _, _, _, letter, h, big, rfl⟩
  | @legacyOctal digits some octal =>
    have decimal : ∀ d ∈ '0' :: digits, d.isDigit := by
      refine List.forall_mem_cons.mpr ⟨by decide, fun d hd => ?_⟩
      exact isDigit_of_isOctalDigit (octal d hd)
    have text := digitText_of_all (List.cons_ne_nil _ _) decimal
    exact .inr ⟨'0' :: digits, [], [], [], ⟨text.loose, .inl rfl, .inl rfl, by decide⟩,
      by simp, .inr text, .none, .none⟩
  | integer h big =>
    exact .inr ⟨_, [], [], _, ⟨h.loose, .inl rfl, .inl rfl, big⟩, rfl, .inr h, .none, .none⟩
  | decimal h behind power =>
    exact .inr ⟨_, _, _, [], ⟨h.loose, behind.loose, power.loose, by decide⟩, by simp,
      .inr h, behind, power⟩
  | fraction h power =>
    have fraction : FractionText _ := .some h
    exact .inr ⟨[], _, _, [], ⟨by simp [Loose], fraction.loose, power.loose, by decide⟩, by simp,
      .inl rfl, fraction, power⟩

/-- A number in decimal is one of the grammar just if its parts are in order. -/
theorem numberText_decimal {d f e n : List Char} (h : Division d f e n)
    (big : n = [] ∨ f = [] ∧ e = []) (some : d ≠ [] ∨ ∃ ds, f = '.' :: ds ∧ ds ≠ []) :
    NumberText (d ++ (f ++ (e ++ n))) ↔
      InOrder Char.isDigit d ∧ FractionText f ∧ ExponentText e := by
  constructor
  · intro text
    rcases numberText_cases text with ⟨x, isDigit, digits, suffix, letter, _, _, same⟩ |
      ⟨d', f', e', n', k, same, inOrder⟩
    · have none := h.radixDigits?_eq_none x (by simp [same])
      cases letter.symm.trans none
    · obtain ⟨rfl, rfl, rfl, rfl⟩ := h.unique k same
      exact inOrder
  · rintro ⟨rfl | digits, fraction, power⟩
    · obtain ⟨ds, rfl, nonempty⟩ := some.resolve_left (by simp)
      obtain rfl := big.resolve_right (by simp)
      rcases fraction with _ | _ | digits
      · exact absurd rfl nonempty
      · simpa using NumberText.fraction digits power
    · rcases big with rfl | ⟨rfl, rfl⟩
      · simpa using NumberText.decimal digits fraction power
      · exact .integer digits h.suffix

/-- A number with a prefix is one of the grammar just if its digits are. -/
theorem numberText_radix {x : Char} {isDigit : Char → Bool} {digits suffix : List Char}
    (letter : radixDigits? x = some isDigit) (loose : Loose isDigit digits)
    (big : suffix ∈ suffixes) (plain : isDigit 'n' = false) :
    NumberText ('0' :: x :: (digits ++ suffix)) ↔ DigitText isDigit digits := by
  constructor
  · intro text
    rcases numberText_cases text with ⟨x', isDigit', ds, n, letter', h, big', same⟩ |
      ⟨d, f, e, n, division, same, _⟩
    · obtain ⟨rfl, rest⟩ : x = x' ∧ digits ++ suffix = ds ++ n := by simpa using same
      obtain rfl := Option.some.inj (letter.symm.trans letter')
      have ends {n : List Char} (h : n ∈ suffixes) : ∀ c ∈ n.head?, ¬ (isDigit c ∨ c = '_') := by
        intro c hc
        rw [Division.head_suffix h c hc]
        simp [plain]
      obtain ⟨rfl, -⟩ := span_unique loose h.loose (ends big) (ends big') rest
      exact h
    · have none := division.radixDigits?_eq_none x (by simp [← same])
      cases letter.symm.trans none
  · exact fun h => .radix letter h big

end ScriptGrammar
