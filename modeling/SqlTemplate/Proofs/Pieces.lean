import SqlTemplate.Proofs.Quoting
import SqlTemplate.Statement.Basic

/-!
# Pieces of joined texts

The pieces of a text are found from left to right, and the only piece of two
characters is a backslash with the question mark behind it.  A text can
therefore be read in two halves whenever the cut does not fall between these
two.
-/

namespace SqlTemplate

namespace Piece

variable {rule : StringRule}

/-- Cutting a text between a backslash and a question mark is not safe. -/
def SafeCut (first second : Text) : Prop :=
  first.getLast? = some '\\' → second.head? ≠ some '?'

theorem SafeCut.tail {c : Char} {rest second : Text} (safe : SafeCut (c :: rest) second) :
    SafeCut rest second := by
  cases rest with
  | nil => simp [SafeCut]
  | cons d others => simpa [SafeCut] using safe

theorem list_cons_of_covers {state : QuoteState} {c : Char} (covers : state.covers c = true)
    (rest : Text) :
    list rule state (c :: rest) = .plain c :: list rule (state.next rule c) rest := by
  cases rest with
  | nil => simp [list, covers]
  | cons d tail =>
      by_cases pair : c = '\\' ∧ d = '?'
      · obtain ⟨rfl, rfl⟩ := pair
        rw [list, if_pos covers]
      · rw [list]
        · simp [covers]
        · rintro other rfl same
          exact pair ⟨rfl, (List.cons.inj same).1⟩

theorem list_cons_plain {state : QuoteState} {c : Char} {rest : Text}
    (covers : state.covers c = false) (noQuestion : c ≠ '?') (safe : SafeCut [c] rest) :
    list rule state (c :: rest) = .plain c :: list rule (state.next rule c) rest := by
  cases rest with
  | nil => simp [list, noQuestion]
  | cons d tail =>
      by_cases slash : c = '\\'
      · subst slash
        have other : d ≠ '?' := by simpa [SafeCut] using safe
        simp [list, other]
      · simp [list, noQuestion, slash]

theorem list_question (before : Preceding) (rest : Text) :
    list rule (.outside before) ('?' :: rest) =
      .parameter :: list rule (.outside .boundary) rest := by
  simp [list, QuoteState.covers, QuoteMark.ofChar?]

theorem list_escaped (before : Preceding) (rest : Text) :
    list rule (.outside before) ('\\' :: '?' :: rest) =
      .question :: list rule (.outside .boundary) rest := by
  simp [list, QuoteState.covers, QuoteMark.ofChar?]

theorem list_eq_map_plain {before : Preceding} {text : Text} (bare : text.Bare) :
    list rule (.outside before) text = text.map .plain := by
  induction text generalizing before with
  | nil => rfl
  | cons c rest ih =>
      obtain ⟨noMark, noQuestion, noSlash⟩ := bare c List.mem_cons_self
      have covers : (QuoteState.outside before).covers c = false :=
        QuoteState.covers_eq_false_iff.2 ⟨before, rfl, noMark⟩
      have safe : SafeCut [c] rest := fun slash => absurd (by simpa using slash) noSlash
      rw [list_cons_plain covers noQuestion safe, QuoteState.next_outside noMark, List.map_cons,
        ih fun d member => bare d (List.mem_cons_of_mem c member)]

theorem list_congr {other : StringRule} {first second : QuoteState} {text : Text}
    (same : ∀ n, (first.run rule (text.take n)).isOutside =
      (second.run other (text.take n)).isOutside) :
    list rule first text = list other second text := by
  have here (c : Char) : first.covers c = second.covers c :=
    QuoteState.covers_eq_of_isOutside (same 0) c
  induction first, text using list.induct rule generalizing second with
  | case1 state => rfl
  | case2 state rest covers ih =>
      have coversOther : second.covers '\\' = true := by rw [← here, covers]
      rw [list_cons_of_covers covers, list_cons_of_covers coversOther,
        ih (fun n => same (n + 1)) (fun c => QuoteState.covers_eq_of_isOutside (same 1) c)]
  | case3 state rest covers ih =>
      have uncovered : state.covers '\\' = false := Bool.eq_false_iff.2 covers
      obtain ⟨before, rfl, -⟩ := QuoteState.covers_eq_false_iff.1 uncovered
      obtain ⟨behind, rfl, -⟩ := QuoteState.covers_eq_false_iff.1 (here _ ▸ uncovered)
      have later (n : Nat) := same (n + 2)
      simp only [List.take_succ_cons, QuoteState.run_cons, QuoteState.next_outside_backslash,
        QuoteState.next_outside_question] at later ih
      rw [list_escaped, list_escaped, ih later (fun _ => rfl)]
  | case4 state c rest noPair ih =>
      have tail := ih (fun n => same (n + 1))
        (fun c => QuoteState.covers_eq_of_isOutside (same 1) c)
      by_cases covers : state.covers c = true
      · have coversOther : second.covers c = true := by rw [← here, covers]
        rw [list_cons_of_covers covers, list_cons_of_covers coversOther, tail]
      · have uncovered : state.covers c = false := Bool.eq_false_iff.2 covers
        have uncoveredOther : second.covers c = false := here _ ▸ uncovered
        by_cases question : c = '?'
        · subst question
          obtain ⟨before, rfl, -⟩ := QuoteState.covers_eq_false_iff.1 uncovered
          obtain ⟨behind, rfl, -⟩ := QuoteState.covers_eq_false_iff.1 uncoveredOther
          rw [QuoteState.next_outside_question, QuoteState.next_outside_question] at tail
          rw [list_question, list_question, tail]
        · have alone : SafeCut [c] rest := by
            intro slash first
            obtain ⟨others, rfl⟩ := List.head?_eq_some_iff.1 first
            exact noPair others (by simpa using slash) rfl
          rw [list_cons_plain uncovered question alone,
            list_cons_plain uncoveredOther question alone, tail]

theorem list_append (state : QuoteState) {first second : Text} (safe : SafeCut first second) :
    list rule state (first ++ second) =
      list rule state first ++ list rule (state.run rule first) second := by
  induction state, first using list.induct rule with
  | case1 state => rfl
  | case2 state rest covers ih =>
      simp only [List.cons_append] at ih ⊢
      rw [list_cons_of_covers covers, list_cons_of_covers covers, ih safe.tail]
      rfl
  | case3 state rest covers ih =>
      obtain ⟨before, rfl, -⟩ := QuoteState.covers_eq_false_iff.1 (Bool.eq_false_iff.2 covers)
      simp only [List.cons_append, list_escaped]
      exact congrArg _ (ih safe.tail.tail)
  | case4 state c rest noPair ih =>
      have alone : SafeCut [c] (rest ++ second) := by
        cases rest with
        | nil => exact safe
        | cons d others =>
            intro slash question
            have same : d = '?' := by simpa using question
            exact noPair others (by simpa using slash) (by rw [same])
      simp only [List.cons_append]
      by_cases covers : state.covers c = true
      · rw [list_cons_of_covers covers, list_cons_of_covers covers, ih safe.tail]
        rfl
      · obtain ⟨before, rfl, noMark⟩ :=
          QuoteState.covers_eq_false_iff.1 (Bool.eq_false_iff.2 covers)
        by_cases question : c = '?'
        · subst question
          rw [list_question, list_question, List.cons_append]
          exact congrArg _ (ih safe.tail)
        · have here : SafeCut [c] rest := fun slash => by
            cases rest with
            | nil => simp
            | cons d others => simpa using alone slash
          rw [list_cons_plain (Bool.eq_false_iff.2 covers) question alone,
            list_cons_plain (Bool.eq_false_iff.2 covers) question here, ih safe.tail]
          rfl

theorem write_append (parameter : Nat → Text) (position : Nat) (first second : List Piece) :
    write parameter position (first ++ second) =
      write parameter position first ++
        write parameter (position + first.count .parameter) second := by
  induction first generalizing position with
  | nil => rfl
  | cons piece rest ih =>
      cases piece with
      | plain c => simp [write, ih]
      | question => simp [write, ih]
      | parameter =>
          rw [List.cons_append, write, write, ih, List.count_cons_self, List.append_assoc,
            Nat.add_right_comm, Nat.add_assoc]

variable {ε : Type}

theorem map_append_bind (text : Text) (front back : Except ε Text) :
    (front.bind fun first => back.map (first ++ ·)).map (text ++ ·) =
      (front.map (text ++ ·)).bind fun first => back.map (first ++ ·) := by
  cases front with
  | error failure => rfl
  | ok first =>
      cases back with
      | error failure => rfl
      | ok second => simp only [Except.bind, Except.map, List.append_assoc]

theorem fill_append (parameter : Nat → Except ε Text) (position : Nat)
    (first second : List Piece) :
    fill parameter position (first ++ second) =
      (fill parameter position first).bind fun front =>
        (fill parameter (position + first.count .parameter) second).map (front ++ ·) := by
  induction first generalizing position with
  | nil =>
      simp only [List.nil_append, fill, Except.bind, List.count_nil, Nat.add_zero]
      cases fill parameter position second <;> rfl
  | cons piece rest ih =>
      cases piece with
      | plain c =>
          rw [List.cons_append, fill, fill, ih, List.count_cons_of_ne (by simp)]
          exact map_append_bind [c] _ _
      | question =>
          rw [List.cons_append, fill, fill, ih, List.count_cons_of_ne (by simp)]
          exact map_append_bind ['?'] _ _
      | parameter =>
          rw [List.cons_append, fill, fill, ih, List.count_cons_self, Nat.add_right_comm,
            ← Nat.add_assoc]
          cases parameter position with
          | error failure => rfl
          | ok text => exact map_append_bind text _ _

/-- Filling asks for the parameters that are counted, and for no others. -/
theorem fill_congr {first second : Nat → Except ε Text} {position other : Nat}
    {pieces : List Piece}
    (agree : ∀ i < pieces.count .parameter, first (position + i) = second (other + i)) :
    fill first position pieces = fill second other pieces := by
  induction pieces generalizing position other with
  | nil => rfl
  | cons piece rest ih =>
      cases piece with
      | plain c => rw [fill, fill, ih (by simpa using agree)]
      | question => rw [fill, fill, ih (by simpa using agree)]
      | parameter =>
          rw [List.count_cons_self] at agree
          have later : ∀ i < rest.count .parameter,
              first (position + 1 + i) = second (other + 1 + i) := by
            intro i below
            have here := agree (i + 1) (Nat.succ_lt_succ below)
            rwa [← Nat.add_assoc, ← Nat.add_assoc, Nat.add_right_comm,
              Nat.add_right_comm other] at here
          have head : first position = second other := agree 0 (Nat.succ_pos _)
          rw [fill, fill, head, ih later]

end Piece

end SqlTemplate
