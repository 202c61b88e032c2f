import SqlTemplate.Text.Quoting

/-!
# States that read a text alike

Two states are alike when they lie in the same quoted region, or both outside
quotes.  What stands before the next character is then still free, and under
the rule for prefixed strings it can tell the two apart later.  States are in
step on a text when they stay alike all along it.
-/

namespace SqlTemplate

theorem Preceding.step_eq_boundary {before : Preceding} {c : Char}
    (noName : Text.isNameChar c = false) : before.step c = .boundary := by
  have noLetter : ¬ ((c = 'E' ∨ c = 'e') ∧ before = .boundary) := by
    rintro ⟨rfl | rfl, -⟩
    · exact absurd noName (by decide)
    · exact absurd noName (by decide)
  rw [Preceding.step, if_neg noLetter, noName]
  rfl

/-- Text without marks, question marks and backslashes, which stands for itself. -/
def Text.Bare (text : Text) : Prop :=
  ∀ c ∈ text, QuoteMark.ofChar? c = none ∧ c ≠ '?' ∧ c ≠ '\\'

instance (text : Text) : Decidable text.Bare :=
  List.decidableBAll _ text

theorem QuoteMark.ofChar?_eq_none_of_isNameChar {c : Char} (name : Text.isNameChar c = true) :
    ofChar? c = none := by
  cases found : ofChar? c with
  | none => rfl
  | some mark =>
      obtain rfl := ofChar?_eq_some_iff.1 found
      cases mark <;> exact absurd name (by decide)

namespace QuoteState

def isOutside : QuoteState → Bool
  | .outside _ => true
  | .inside .. | .hidden _ => false

/-- The same quoted region, or no quoted region. -/
def Alike (first second : QuoteState) : Prop :=
  first = second ∨ (first.isOutside = true ∧ second.isOutside = true)

/-- Two states that stay alike all along a text. -/
def InStep (rule : StringRule) (first second : QuoteState) (text : Text) : Prop :=
  ∀ n, (run rule first (text.take n)).Alike (run rule second (text.take n))

theorem isOutside_eq_true_iff {state : QuoteState} :
    state.isOutside = true ↔ ∃ before, state = .outside before := by
  cases state <;> simp [isOutside]

/-- Only outside quotes characters are not quoted, and marks are quoted even there. -/
theorem covers_eq_false_iff {state : QuoteState} {c : Char} :
    state.covers c = false ↔ ∃ before, state = .outside before ∧ QuoteMark.ofChar? c = none := by
  cases state <;> simp [covers]

theorem covers_eq_of_isOutside {first second : QuoteState}
    (same : first.isOutside = second.isOutside) (c : Char) :
    first.covers c = second.covers c := by
  cases first <;> cases second <;> first | rfl | simp [isOutside] at same

@[simp] theorem isOutside_start : start.isOutside = true := rfl

namespace Alike

theorem refl (state : QuoteState) : state.Alike state := .inl rfl

theorem outside {first second : QuoteState} (h : first.isOutside = true)
    (k : second.isOutside = true) : first.Alike second := .inr ⟨h, k⟩

theorem symm {first second : QuoteState} (alike : first.Alike second) :
    second.Alike first :=
  alike.imp Eq.symm And.symm

theorem trans {first second third : QuoteState} (alike : first.Alike second)
    (other : second.Alike third) : first.Alike third := by
  rcases alike with rfl | ⟨h, k⟩
  · exact other
  · rcases other with rfl | ⟨-, l⟩
    · exact .inr ⟨h, k⟩
    · exact .inr ⟨h, l⟩

theorem isOutside_eq {first second : QuoteState} (alike : first.Alike second) :
    first.isOutside = second.isOutside := by
  rcases alike with rfl | ⟨h, k⟩
  · rfl
  · rw [h, k]

theorem covers_eq {first second : QuoteState} (alike : first.Alike second) (c : Char) :
    first.covers c = second.covers c :=
  covers_eq_of_isOutside alike.isOutside_eq c

end Alike

theorem hides_eq_of_ne {rule : StringRule} (plain : rule ≠ .escapePrefixed)
    (first second : Preceding) (mark : QuoteMark) :
    rule.hides first mark = rule.hides second mark := by
  cases mark <;> cases rule <;> first | rfl | exact absurd rfl plain

/-- Without prefixed strings alike states cannot come apart. -/
theorem Alike.next {rule : StringRule} (plain : rule ≠ .escapePrefixed)
    {first second : QuoteState} (alike : first.Alike second) (c : Char) :
    (first.next rule c).Alike (second.next rule c) := by
  rcases alike with rfl | ⟨h, k⟩
  · exact .refl _
  · obtain ⟨before, rfl⟩ := isOutside_eq_true_iff.1 h
    obtain ⟨other, rfl⟩ := isOutside_eq_true_iff.1 k
    simp only [QuoteState.next]
    cases QuoteMark.ofChar? c with
    | none => exact .outside rfl rfl
    | some mark =>
        dsimp only
        rw [hides_eq_of_ne plain before other]
        exact .refl _

theorem Alike.run {rule : StringRule} (plain : rule ≠ .escapePrefixed)
    {first second : QuoteState} (alike : first.Alike second) (text : Text) :
    (run rule first text).Alike (run rule second text) := by
  induction text generalizing first second with
  | nil => exact alike
  | cons c rest ih => exact ih (alike.next plain c)

namespace InStep

variable {rule : StringRule} {first second : QuoteState}

theorem refl (state : QuoteState) (text : Text) : InStep rule state state text :=
  fun _ => .refl _

theorem alike {text : Text} (step : InStep rule first second text) : first.Alike second :=
  step 0

theorem next {c : Char} {rest : Text} (step : InStep rule first second (c :: rest)) :
    InStep rule (first.next rule c) (second.next rule c) rest :=
  fun n => step (n + 1)

theorem of_alike (plain : rule ≠ .escapePrefixed) (alike : first.Alike second) (text : Text) :
    InStep rule first second text :=
  fun n => alike.run plain (text.take n)

theorem nil (alike : first.Alike second) : InStep rule first second [] := by
  intro n
  rw [List.take_nil]
  exact alike

theorem of_next {c : Char} {rest : Text} (alike : first.Alike second)
    (step : InStep rule (first.next rule c) (second.next rule c) rest) :
    InStep rule first second (c :: rest)
  | 0 => alike
  | n + 1 => step n

theorem symm {text : Text} (step : InStep rule first second text) :
    InStep rule second first text :=
  fun n => (step n).symm

theorem trans {third : QuoteState} {text : Text} (step : InStep rule first second text)
    (other : InStep rule second third text) : InStep rule first third text :=
  fun n => (step n).trans (other n)

theorem append {front back : Text} (step : InStep rule first second (front ++ back)) :
    InStep rule (first.run rule front) (second.run rule front) back := by
  intro n
  have here := step (front.length + n)
  rwa [List.take_length_add_append, run_append, run_append] at here

end InStep

/-- No backslash stands inside quotes of a text that is entered in a given state. -/
def NoEscape (rule : StringRule) (state : QuoteState) (text : Text) : Prop :=
  ∀ front back, text = front ++ '\\' :: back → (run rule state front).isOutside = true

namespace NoEscape

variable {rule : StringRule} {first second : QuoteState}

theorem nil (rule : StringRule) (state : QuoteState) : NoEscape rule state [] := by
  intro front back split
  cases front <;> cases split

theorem cons_iff {c : Char} {rest : Text} :
    NoEscape rule first (c :: rest) ↔
      (c = '\\' → first.isOutside = true) ∧ NoEscape rule (first.next rule c) rest := by
  constructor
  · intro noEscape
    constructor
    · rintro rfl
      exact noEscape [] rest rfl
    · rintro front back rfl
      exact noEscape (c :: front) back rfl
  · rintro ⟨here, later⟩ front back split
    cases front with
    | nil => exact here (List.cons.inj split).1
    | cons d front =>
        obtain ⟨rfl, behind⟩ := List.cons.inj split
        exact later front back behind

instance decidable (rule : StringRule) (state : QuoteState) :
    (text : Text) → Decidable (NoEscape rule state text)
  | [] => isTrue (nil rule state)
  | c :: rest =>
      have := decidable rule (state.next rule c) rest
      decidable_of_iff _ cons_iff.symm

theorem append {front back : Text} (noEscape : NoEscape rule first (front ++ back)) :
    NoEscape rule (first.run rule front) back := by
  rintro between behind rfl
  rw [← run_append]
  exact noEscape (front ++ between) behind (List.append_assoc _ _ _).symm

theorem of_alike {text : Text} (plain : rule ≠ .escapePrefixed) (alike : first.Alike second)
    (noEscape : NoEscape rule first text) : NoEscape rule second text := by
  intro front back split
  rw [← (alike.run plain front).isOutside_eq]
  exact noEscape front back split

end NoEscape

/-- The same kind of region, whatever a backslash means there. -/
inductive SameRegion : QuoteState → QuoteState → Prop where
  | outside (before : Preceding) : SameRegion (outside before) (outside before)
  | inside (mark : QuoteMark) (hides hidesOther : Bool) :
      SameRegion (inside mark hides) (inside mark hidesOther)

namespace SameRegion

variable {rule other : StringRule} {first second : QuoteState}

theorem isOutside_eq (same : SameRegion first second) : first.isOutside = second.isOutside := by
  cases same <;> rfl

/-- Only a backslash inside quotes can take readers with different rules apart. -/
theorem next {c : Char} (same : SameRegion first second)
    (noEscape : c = '\\' → first.isOutside = true) :
    SameRegion (first.next rule c) (second.next other c) := by
  cases same with
  | outside before =>
      simp only [QuoteState.next]
      cases QuoteMark.ofChar? c with
      | none => exact .outside _
      | some mark => exact .inside mark _ _
  | inside mark hides hidesOther =>
      have noSlash : c ≠ '\\' := fun slash => absurd (noEscape slash) (by simp [isOutside])
      simp only [QuoteState.next, noSlash, decide_false, Bool.and_false, Bool.false_eq_true,
        if_false]
      split
      · exact .outside _
      · exact .inside mark _ _

theorem run {text : Text} (same : SameRegion first second) (noEscape : NoEscape rule first text) :
    SameRegion (QuoteState.run rule first text) (QuoteState.run other second text) := by
  induction text generalizing first second with
  | nil => exact same
  | cons c rest ih =>
      obtain ⟨here, later⟩ := NoEscape.cons_iff.1 noEscape
      exact ih (same.next here) later

end SameRegion

theorem next_outside {rule : StringRule} {before : Preceding} {c : Char}
    (noMark : QuoteMark.ofChar? c = none) :
    (outside before).next rule c = .outside (before.step c) := by
  simp [QuoteState.next, noMark]

theorem next_outside_mark {rule : StringRule} (before : Preceding) (mark : QuoteMark) :
    (outside before).next rule mark.char = .inside mark (rule.hides before mark) := by
  simp [QuoteState.next]

theorem next_inside_mark {rule : StringRule} (mark : QuoteMark) (hides : Bool) :
    (inside mark hides).next rule mark.char = .outside .boundary := by
  cases mark <;> cases hides <;> rfl

theorem next_inside_plain {rule : StringRule} {mark : QuoteMark} {hides : Bool} {c : Char}
    (noMark : c ≠ mark.char) (shown : hides = true → c ≠ '\\') :
    (inside mark hides).next rule c = .inside mark hides := by
  cases hides with
  | false => simp [QuoteState.next, noMark]
  | true => simp [QuoteState.next, noMark, shown rfl]

@[simp] theorem next_outside_question {rule : StringRule} (before : Preceding) :
    (outside before).next rule '?' = .outside .boundary := by
  cases before <;> rfl

@[simp] theorem next_outside_backslash {rule : StringRule} (before : Preceding) :
    (outside before).next rule '\\' = .outside .boundary := by
  cases before <;> rfl

theorem isOutside_run_of_noMark {rule : StringRule} {before : Preceding} {text : Text}
    (noMark : ∀ c ∈ text, QuoteMark.ofChar? c = none) :
    (run rule (outside before) text).isOutside = true := by
  induction text generalizing before with
  | nil => rfl
  | cons c rest ih =>
      rw [run_cons, next_outside (noMark c List.mem_cons_self)]
      exact ih fun d member => noMark d (List.mem_cons_of_mem c member)

theorem run_eq_boundary {rule : StringRule} {before : Preceding} {text : Text}
    (noMark : ∀ c ∈ text, QuoteMark.ofChar? c = none) (nonempty : text ≠ [])
    (noName : Text.isNameChar (text.getLast nonempty) = false) :
    run rule (outside before) text = .outside .boundary := by
  have split := List.dropLast_concat_getLast nonempty
  have opened : (run rule (outside before) text.dropLast).isOutside = true :=
    isOutside_run_of_noMark fun c member => noMark c (List.dropLast_subset text member)
  obtain ⟨last, atLast⟩ := isOutside_eq_true_iff.1 opened
  rw [← split, run_append, atLast, run_cons, run_nil,
    next_outside (noMark _ (List.getLast_mem nonempty)), Preceding.step_eq_boundary noName]

end QuoteState

def StringRule.Closes (rule : StringRule) (text : Text) : Prop :=
  (QuoteState.run rule .start text).isOutside = true

instance (rule : StringRule) (text : Text) : Decidable (rule.Closes text) :=
  inferInstanceAs (Decidable (_ = true))

def StringRule.NoEscape (rule : StringRule) (text : Text) : Prop :=
  ∀ front back, text = front ++ '\\' :: back →
    (QuoteState.run rule .start front).isOutside = true

instance (rule : StringRule) (text : Text) : Decidable (rule.NoEscape text) :=
  inferInstanceAs (Decidable (QuoteState.NoEscape rule .start text))

namespace StringRule

/-- Without a backslash inside quotes all rules find the same quoted regions. -/
theorem NoEscape.sameRegion {rule : StringRule} {text : Text} (noEscape : rule.NoEscape text)
    (other : StringRule) (n : Nat) :
    QuoteState.SameRegion (QuoteState.run rule .start (text.take n))
      (QuoteState.run other .start (text.take n)) := by
  refine (QuoteState.SameRegion.outside .boundary).run fun front back split => ?_
  have whole := List.take_append_drop n text
  rw [split] at whole
  exact noEscape front (back ++ text.drop n) (whole.symm.trans (List.append_assoc _ _ _))

/-- Without prefixed strings a closed text can be read from anywhere outside quotes. -/
theorem Closes.isOutside_run {rule : StringRule} (plain : rule ≠ .escapePrefixed) {text : Text}
    (closes : rule.Closes text) (before : Preceding) :
    (QuoteState.run rule (.outside before) text).isOutside = true := by
  have alike : (QuoteState.outside before).Alike .start := .outside rfl rfl
  rw [(alike.run plain text).isOutside_eq]
  exact closes

end StringRule

end SqlTemplate
