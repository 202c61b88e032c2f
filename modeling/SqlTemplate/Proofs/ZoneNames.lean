import SqlTemplate.Proofs.Grammar
import SqlTemplate.Proofs.IdentifierText
import SqlTemplate.Proofs.LiteralText

/-!
# Names of time zones in literals

The literal of a moment ends with the name of its time zone where an engine
wants the name, and the name is written as it is given.  Dates, times and
offsets are bare, so it depends on the name alone whether the last mark of the
literal is the one that closes it.  It is when the marks of the name come in
pairs with nothing but other quoted regions between the two marks of a pair.
-/

namespace SqlTemplate

namespace QuoteState

variable {rule : StringRule}

theorem reading_eq_boundary {state : QuoteState} {text : Text} {c : Char}
    (nothing : unquoted rule state (text ++ [c]) = [])
    (closed : (run rule state (text ++ [c])).isOutside = true) :
    reading rule state (text ++ [c]) = (.outside .boundary, []) := by
  have last : unquoted rule (run rule state text) [c] = [] := by
    rw [unquoted_append] at nothing
    exact (List.append_eq_nil_iff.1 nothing).2
  rw [run_append] at closed
  rw [reading, nothing, run_append]
  exact congrArg (·, []) (next_eq_boundary_of_covers (covers_of_unquoted_eq_nil last) closed)

end QuoteState

namespace Timestamp

def IsRegion (text : Text) : Prop :=
  ∃ mark content, mark ≠ QuoteMark.single ∧ Grammar.Content mark false content ∧
    text = mark.char :: content ++ [mark.char]

/--
Text between two single marks that does not end the quotes: single marks come in
pairs, and between the two of a pair there are only other quoted regions.
-/
inductive Enclosed : Text → Prop where
  | nil : Enclosed []
  | char {c : Char} {rest : Text} (other : c ≠ '\'') (behind : Enclosed rest) : Enclosed (c :: rest)
  | pair {regions : List Text} {rest : Text} (each : ∀ region ∈ regions, IsRegion region)
      (behind : Enclosed rest) : Enclosed ('\'' :: regions.flatten ++ '\'' :: rest)

/-- Text that is read as quoted, up to a last single mark that closes the quotes. -/
def Closing (state : QuoteState) (text : Text) : Prop :=
  QuoteState.reading .escapePrefixed state (text ++ ['\'']) = (.outside .boundary, [])

theorem closing_cons_iff {state : QuoteState} {c : Char} (covers : state.covers c = true)
    (rest : Text) :
    Closing state (c :: rest) ↔ Closing (state.next .escapePrefixed c) rest := by
  rw [Closing, Closing, List.cons_append, QuoteState.reading_cons_of_covers covers]

/-- A region that is closed can be left out. -/
theorem closing_region_append_iff {region : Text} (isRegion : IsRegion region) (rest : Text) :
    Closing (.outside .boundary) (region ++ rest) ↔ Closing (.outside .boundary) rest := by
  obtain ⟨mark, content, other, inside, rfl⟩ := isRegion
  have read : QuoteState.reading .escapePrefixed (.outside .boundary)
      (mark.char :: content ++ [mark.char]) = (.outside .boundary, []) := by
    rw [List.cons_append, QuoteState.reading_cons_of_covers (Identifier.covers_char _),
      Identifier.next_outside_char other, inside.reading_eq]
  rw [Closing, Closing, List.append_assoc, QuoteState.reading_append_of_silent read]

theorem Enclosed.closing {text : Text} (enclosed : Enclosed text) :
    Closing (.inside .single false) text := by
  induction enclosed with
  | nil => rfl
  | @char c rest other behind ih =>
      have stays : (QuoteState.inside .single false).next .escapePrefixed c =
          .inside .single false := Identifier.next_inside_of_ne other
      rw [closing_cons_iff rfl, stays]
      exact ih
  | @pair regions rest each behind ih =>
      rw [List.cons_append, closing_cons_iff rfl]
      change Closing (.outside .boundary) _
      induction regions with
      | nil => exact (closing_cons_iff rfl rest).2 ih
      | cons region others step =>
          obtain ⟨here, later⟩ := List.forall_mem_cons.1 each
          rw [List.flatten_cons, List.append_assoc, closing_region_append_iff here]
          exact step later

theorem exists_content {mark : QuoteMark} (other : mark ≠ .single) {text : Text}
    (closing : Closing (.inside mark false) text) :
    ∃ content rest, Grammar.Content mark false content ∧ text = content ++ mark.char :: rest := by
  induction text with
  | nil =>
      rw [Closing, List.nil_append] at closing
      cases mark with
      | single => exact absurd rfl other
      | double | back => cases closing
  | cons c text ih =>
      by_cases mark_eq : c = mark.char
      · exact ⟨[], text, .empty, by rw [mark_eq]; rfl⟩
      · rw [closing_cons_iff rfl, Identifier.next_inside_of_ne mark_eq] at closing
        obtain ⟨content, rest, inside, rfl⟩ := ih closing
        exact ⟨c :: content, rest, .plain mark_eq (fun hides => nomatch hides) inside, rfl⟩

/-- Behind a mark that closes the quotes come other regions, and then a mark that opens them again. -/
theorem exists_regions {text : Text} (closing : Closing (.outside .boundary) text) :
    ∃ regions rest, (∀ region ∈ regions, IsRegion region) ∧
      text = List.flatten regions ++ '\'' :: rest ∧ Closing (.inside .single false) rest := by
  induction size : text.length using Nat.strong_induction_on generalizing text with
  | _ count ih =>
      cases text with
      | nil => cases closing
      | cons c text =>
          have covers : (QuoteState.outside .boundary).covers c = true :=
            QuoteState.covers_of_unquoted_eq_nil (Prod.mk.inj closing).2
          obtain ⟨mark, isMark⟩ := Option.isSome_iff_exists.1 covers
          obtain rfl := QuoteMark.ofChar?_eq_some_iff.1 isMark
          have behindMark := (closing_cons_iff covers text).1 closing
          by_cases single : mark = .single
          · subst single
            exact ⟨[], text, List.forall_mem_nil _, rfl, behindMark⟩
          · rw [Identifier.next_outside_char single] at behindMark
            obtain ⟨content, rest, inside, rfl⟩ := exists_content single behindMark
            have isRegion : IsRegion (mark.char :: content ++ [mark.char]) :=
              ⟨mark, content, single, inside, rfl⟩
            have whole : mark.char :: (content ++ mark.char :: rest) =
                mark.char :: content ++ [mark.char] ++ rest := by simp
            rw [whole] at closing size
            have shorter : rest.length < count := by
              rw [← size, List.length_append]
              simp
            obtain ⟨regions, last, each, rfl, open_⟩ :=
              ih _ shorter ((closing_region_append_iff isRegion rest).1 closing) rfl
            refine ⟨_ :: regions, last, List.forall_mem_cons.2 ⟨isRegion, each⟩, ?_, open_⟩
            rw [whole, List.flatten_cons]
            simp only [List.append_assoc]

theorem Enclosed.of_closing {text : Text} (closing : Closing (.inside .single false) text) :
    Enclosed text := by
  induction size : text.length using Nat.strong_induction_on generalizing text with
  | _ count ih =>
      cases text with
      | nil => exact .nil
      | cons c text =>
          rw [closing_cons_iff rfl] at closing
          by_cases mark : c = '\''
          · subst mark
            obtain ⟨regions, rest, each, rfl, behind⟩ := exists_regions closing
            refine .pair each (ih _ ?_ behind rfl)
            rw [← size]
            simp
            omega
          · rw [Identifier.next_inside_of_ne mark] at closing
            exact .char mark (ih _ (by rw [← size]; simp) closing rfl)

theorem enclosed_iff {text : Text} : Enclosed text ↔ Closing (.inside .single false) text :=
  ⟨Enclosed.closing, Enclosed.of_closing⟩

theorem Enclosed.of_noMark {text : Text} (noMark : ∀ c ∈ text, c ≠ '\'') : Enclosed text := by
  induction text with
  | nil => exact .nil
  | cons c rest ih =>
      obtain ⟨here, later⟩ := List.forall_mem_cons.1 noMark
      exact .char here (ih later)

theorem Enclosed.of_bare {text : Text} (bare : text.Bare) : Enclosed text := by
  refine .of_noMark fun c member => ?_
  rintro rfl
  cases (bare '\'' member).1

end Timestamp

namespace Engine

open Timestamp

variable {value : Moment} {text : Text}

theorem exists_bare_of_moment (set : value.isUnset = false)
    (written : postgreSQL.literal (.moment value) = .ok text) :
    ∃ body : Text, body.Bare ∧
      text = '\'' :: body ++ (value.zone.getD (offset [':'] value.offset) ++ ['\'']) := by
  simp only [literal] at written
  split at written
  · next other found =>
      obtain rfl := Except.ok.inj written
      obtain ⟨time, spelled⟩ := exists_of_write? set found
      have blank : Text.Bare [' '] := by decide
      have timed := (bare_clock 6 time.clock).append blank
      refine ⟨_, (bare_date time.date).append (blank.cons timed), spelled.trans ?_⟩
      change ['\''] ++ date time.date ++ ' ' :: clock 6 time.clock ++
        ' ' :: value.zone.getD (offset [':'] value.offset) ++ ['\''] = _
      simp only [List.append_assoc, List.cons_append, List.nil_append]
  · cases written

/--
The literal of a moment is quoted as a whole, and closed, exactly when it has
no zone name or the name stays between the marks around it.
-/
theorem moment_closed_iff (written : postgreSQL.literal (.moment value) = .ok text) :
    ((QuoteState.run .escapePrefixed .start text).isOutside = true ∧
        QuoteState.unquoted .escapePrefixed .start text = []) ↔
      ∀ name, value.zone = some name → Enclosed name := by
  cases set : value.isUnset with
  | true =>
      have noZone : value.zone = none := by
        simp only [Moment.isUnset, Bool.and_eq_true, Option.isNone_iff_eq_none] at set
        exact set.2
      have unset : write? postgreSQL.timestampForm value = some Timestamp.unset := if_pos set
      simp only [literal, unset] at written
      obtain rfl := Except.ok.inj written
      exact iff_of_true (by decide) (by simp [noZone])
  | false =>
      obtain ⟨body, bare, rfl⟩ := exists_bare_of_moment set written
      have opened : QuoteState.reading .escapePrefixed .start ('\'' :: body) =
          (.inside .single false, []) := by
        rw [QuoteState.reading_cons_of_covers rfl]
        exact QuoteState.reading_inside_bare bare
      have closed_iff : Closing (.inside .single false)
          (value.zone.getD (offset [':'] value.offset)) ↔
            ∀ name, value.zone = some name → Enclosed name := by
        rw [← enclosed_iff]
        cases value.zone with
        | none => exact iff_of_true (.of_bare (bare_offset (by decide) _)) (by simp)
        | some name => simp
      rw [← closed_iff, Closing, ← QuoteState.reading_append_of_silent opened, ← List.append_assoc]
      constructor
      · rintro ⟨outside, nothing⟩
        exact QuoteState.reading_eq_boundary nothing outside
      · intro read
        obtain ⟨run, nothing⟩ := Prod.mk.inj read
        exact ⟨by rw [run]; rfl, nothing⟩

/-- A moment in a zone of the given name. -/
def departure (name : Text) : Moment :=
  ⟨⟨⟨2024, 2, 29, by decide, by decide, by decide⟩, ⟨11045000000000, by decide⟩⟩,
    ⟨7200, by decide⟩, some name⟩

/-- A pair of marks with a quoted region between them leaves the literal closed. -/
theorem moment_closed_pair :
    (QuoteState.run .escapePrefixed .start
        "'2024-02-29 03:04:05.000000 o'\"?\"'clock'".toList).isOutside = true ∧
      QuoteState.unquoted .escapePrefixed .start
        "'2024-02-29 03:04:05.000000 o'\"?\"'clock'".toList = [] := by
  have written : postgreSQL.literal (.moment (departure "o'\"?\"'clock".toList)) =
      .ok "'2024-02-29 03:04:05.000000 o'\"?\"'clock'".toList := by decide +kernel
  have region : IsRegion ['"', '?', '"'] :=
    ⟨.double, ['?'], by decide, .plain (by decide) nofun .empty, rfl⟩
  refine (moment_closed_iff written).2 ?_
  rintro name ⟨⟩
  have behind : Enclosed "clock".toList := .of_bare (by decide)
  exact .char (by decide) (.pair (List.forall_mem_singleton.2 region) behind)

/-- A single mark in the name of the zone ends the literal, and the rest of the name is shown. -/
theorem moment_open :
    postgreSQL.literal (.moment (departure "x' or 1=1 -- ".toList)) =
        .ok "'2024-02-29 03:04:05.000000 x' or 1=1 -- '".toList ∧
      (QuoteState.run .escapePrefixed .start
        "'2024-02-29 03:04:05.000000 x' or 1=1 -- '".toList).isOutside = false ∧
      QuoteState.unquoted .escapePrefixed .start
        "'2024-02-29 03:04:05.000000 x' or 1=1 -- '".toList = " or 1=1 -- ".toList := by
  decide +kernel

end Engine

end SqlTemplate
