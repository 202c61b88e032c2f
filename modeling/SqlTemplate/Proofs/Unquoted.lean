import SqlTemplate.Proofs.Quoting

/-!
# Characters outside quotes

Of a statement only the characters outside quotes are SQL; what stands inside
quotes is data.  The characters outside quotes are found by reading the
statement from left to right, and a text can be read in two halves.
-/

namespace SqlTemplate.QuoteState

def unquoted (rule : StringRule) : QuoteState → Text → Text
  | _, [] => []
  | state, c :: rest =>
      if state.covers c then unquoted rule (state.next rule c) rest
      else c :: unquoted rule (state.next rule c) rest

/-- The state behind a text, together with the characters of the text outside quotes. -/
def reading (rule : StringRule) (state : QuoteState) (text : Text) : QuoteState × Text :=
  (state.run rule text, state.unquoted rule text)

variable {rule : StringRule} {state : QuoteState}

@[simp] theorem unquoted_nil : unquoted rule state [] = [] := rfl

theorem unquoted_cons_of_covers {c : Char} (covers : state.covers c = true) (rest : Text) :
    unquoted rule state (c :: rest) = unquoted rule (state.next rule c) rest := by
  rw [unquoted, if_pos covers]

theorem unquoted_cons_plain {c : Char} (uncovered : state.covers c = false) (rest : Text) :
    unquoted rule state (c :: rest) = c :: unquoted rule (state.next rule c) rest := by
  rw [unquoted, if_neg (Bool.eq_false_iff.1 uncovered)]

theorem unquoted_append (first second : Text) :
    unquoted rule state (first ++ second) =
      unquoted rule state first ++ unquoted rule (state.run rule first) second := by
  induction first generalizing state with
  | nil => rfl
  | cons c rest ih =>
      rw [List.cons_append]
      by_cases covers : state.covers c = true
      · rw [unquoted_cons_of_covers covers, unquoted_cons_of_covers covers, ih, run_cons]
      · rw [unquoted_cons_plain (Bool.eq_false_iff.2 covers),
          unquoted_cons_plain (Bool.eq_false_iff.2 covers), ih, run_cons, List.cons_append]

theorem reading_cons_of_covers {c : Char} (covers : state.covers c = true) (rest : Text) :
    reading rule state (c :: rest) = reading rule (state.next rule c) rest := by
  rw [reading, reading, unquoted_cons_of_covers covers, run_cons]

theorem covers_of_unquoted_eq_nil {c : Char} {rest : Text}
    (nothing : unquoted rule state (c :: rest) = []) : state.covers c = true := by
  cases covers : state.covers c with
  | true => rfl
  | false =>
      rw [unquoted_cons_plain covers] at nothing
      cases nothing

theorem unquoted_subset (text : Text) : unquoted rule state text ⊆ text := by
  induction text generalizing state with
  | nil => exact List.Subset.refl []
  | cons c rest ih =>
      by_cases covers : state.covers c = true
      · rw [unquoted_cons_of_covers covers]
        exact List.subset_cons_of_subset c ih
      · rw [unquoted_cons_plain (Bool.eq_false_iff.2 covers)]
        exact List.cons_subset_cons c ih

theorem reading_append (first second : Text) :
    reading rule state (first ++ second) =
      (reading rule (state.run rule first) second).map id (state.unquoted rule first ++ ·) := by
  simp only [reading, run_append, unquoted_append, Prod.map, id]

theorem reading_append_of_silent {after : QuoteState} {first : Text}
    (silent : reading rule state first = (after, [])) (second : Text) :
    reading rule state (first ++ second) = reading rule after second := by
  obtain ⟨run, nothing⟩ := Prod.mk.inj silent
  rw [reading_append, run, nothing]
  rfl

theorem reading_closing (rule : StringRule) (hides : Bool) :
    reading rule (.inside .single hides) ['\''] = (.outside .boundary, []) := by
  cases hides <;> rfl

theorem map_snd_reading {ε : Type} (written : Except ε Text) :
    (written.map (reading rule state)).map Prod.snd = written.map (unquoted rule state) := by
  cases written <;> rfl

theorem reading_flatMap {write : Char → Text}
    (piece : ∀ c, reading rule state (write c) = (state, [])) (text : Text) :
    reading rule state (text.flatMap write) = (state, []) := by
  induction text with
  | nil => rfl
  | cons c rest ih =>
      rw [List.flatMap_cons, reading_append_of_silent (piece c), ih]

end SqlTemplate.QuoteState
