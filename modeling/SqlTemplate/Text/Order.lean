import SqlTemplate.Text.Basic

/-!
# The order of texts

Texts are ordered like words in a dictionary, with characters ordered by code
point.  The order is strict, and of two different texts one precedes the other.
-/

namespace SqlTemplate.Text

def precedes : Text → Text → Bool
  | _, [] => false
  | [], _ :: _ => true
  | a :: first, b :: second =>
      a.toNat < b.toNat || (a.toNat == b.toNat && precedes first second)

@[simp] theorem precedes_self (text : Text) : precedes text text = false := by
  induction text with
  | nil => rfl
  | cons c rest ih => simp [precedes, ih]

theorem precedes_trans {first second third : Text} (lower : precedes first second = true)
    (upper : precedes second third = true) : precedes first third = true := by
  induction first generalizing second third with
  | nil =>
      cases third with
      | nil => simp [precedes] at upper
      | cons c rest => rfl
  | cons a rest ih =>
      cases second with
      | nil => simp [precedes] at lower
      | cons b middle =>
          cases third with
          | nil => simp [precedes] at upper
          | cons c last =>
              simp only [precedes, Bool.or_eq_true, Bool.and_eq_true, decide_eq_true_eq,
                beq_iff_eq] at *
              rcases lower with below | ⟨same, lower⟩ <;>
                rcases upper with above | ⟨equal, upper⟩
              · exact .inl (by omega)
              · exact .inl (by omega)
              · exact .inl (by omega)
              · exact .inr ⟨by omega, ih lower upper⟩

theorem precedes_of_not_precedes {first second : Text} (notBefore : ¬ precedes first second = true)
    (different : first ≠ second) : precedes second first = true := by
  induction first generalizing second with
  | nil =>
      cases second with
      | nil => exact absurd rfl different
      | cons b rest => exact absurd rfl notBefore
  | cons a rest ih =>
      cases second with
      | nil => rfl
      | cons b others =>
          simp only [precedes, Bool.or_eq_true, Bool.and_eq_true, decide_eq_true_eq,
            beq_iff_eq] at *
          by_cases same : a.toNat = b.toNat
          · have equal : a = b := Char.toNat_inj.1 same
            refine .inr ⟨same.symm, ih (fun below => notBefore (.inr ⟨same, below⟩)) ?_⟩
            intro tails
            exact different (by rw [equal, tails])
          · refine .inl ?_
            have : ¬ a.toNat < b.toNat := fun below => notBefore (.inl below)
            omega

end SqlTemplate.Text
