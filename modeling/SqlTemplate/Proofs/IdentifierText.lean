import Mathlib.Data.List.Forall2
import SqlTemplate.Engine.Writer
import SqlTemplate.Proofs.Pieces

/-!
# The text of identifier paths

Engines put double quotation marks or back marks around the segments of a path,
and a backslash hides nothing between these.  A written path is therefore read
as it stands under every rule, it closes all that it opens, and no word and no
escape can start in it and end behind it.
-/

namespace SqlTemplate

theorem Text.rel_intercalate {related : Text → Text → Prop} {separator : Text}
    (join : ∀ {first second front back : Text}, related first front → related second back →
      related (first ++ separator ++ second) (front ++ separator ++ back))
    {texts others : List Text} (all : List.Forall₂ related texts others) (nonempty : texts ≠ []) :
    related (separator.intercalate texts) (separator.intercalate others) := by
  induction all with
  | nil => exact absurd rfl nonempty
  | cons here later ih =>
      cases later with
      | nil => simpa using here
      | cons =>
          rw [List.intercalate_cons_cons, List.intercalate_cons_cons]
          exact join here (ih (List.cons_ne_nil _ _))

/-- Text that is read as it stands and leaves nothing open, whatever stands around it. -/
structure Sealed (text : Text) : Prop where
  pieces : ∀ rule before, Piece.list rule (.outside before) text = text.map .plain
  run : ∀ rule before, QuoteState.run rule (.outside before) text = .outside .boundary
  last : text.getLast? ≠ some '\\'

namespace Sealed

theorem append {first second : Text} (front : Sealed first) (back : Sealed second) :
    Sealed (first ++ second) where
  pieces rule before := by
    have safe : Piece.SafeCut first second := fun slash => absurd slash front.last
    rw [Piece.list_append _ safe, front.run, front.pieces, back.pieces, List.map_append]
  run rule before := by rw [QuoteState.run_append, front.run, back.run]
  last := by
    rw [List.getLast?_append]
    cases atEnd : second.getLast? with
    | none => exact front.last
    | some c => exact fun slash => back.last (atEnd.trans slash)

theorem of_bare {text : Text} (bare : text.Bare) (nonempty : text ≠ [])
    (noName : Text.isNameChar (text.getLast nonempty) = false) : Sealed text where
  pieces rule before := Piece.list_eq_map_plain bare
  run rule before := QuoteState.run_eq_boundary (fun c member => (bare c member).1) nonempty noName
  last := by
    rw [List.getLast?_eq_some_getLast nonempty]
    exact fun slash => (bare _ (List.getLast_mem nonempty)).2.2 (Option.some.inj slash)

theorem intercalate {separator : Text} {texts : List Text} (between : Sealed separator)
    (all : ∀ text ∈ texts, Sealed text) (nonempty : texts ≠ []) :
    Sealed (separator.intercalate texts) :=
  @Text.rel_intercalate (fun text _ => Sealed text) separator
    (fun front back => (front.append between).append back) texts texts
    (List.forall₂_same.2 all) nonempty

end Sealed

namespace Identifier

variable {rule : StringRule} {mark : QuoteMark}

theorem covers_char (state : QuoteState) : state.covers mark.char = true := by
  cases state <;> simp [QuoteState.covers]

theorem hides_of_ne_single (other : mark ≠ .single) (before : Preceding) :
    rule.hides before mark = false := by
  cases mark with
  | single => exact absurd rfl other
  | double => rfl
  | back => rfl

theorem next_outside_char (other : mark ≠ .single) (before : Preceding) :
    (QuoteState.outside before).next rule mark.char = .inside mark false := by
  rw [QuoteState.next_outside_mark, hides_of_ne_single other]

theorem next_inside_of_ne {c : Char} (other : c ≠ mark.char) :
    (QuoteState.inside mark false).next rule c = .inside mark false :=
  QuoteState.next_inside_plain other fun hides => absurd hides (by decide)

/-- Inside quotes a segment with its marks doubled is read to the end and no further. -/
theorem read_double (other : mark ≠ .single) (segment rest : Text) :
    Piece.list rule (.inside mark false) (Text.double mark.char segment ++ rest) =
        (Text.double mark.char segment).map .plain ++
          Piece.list rule (.inside mark false) rest ∧
      QuoteState.run rule (.inside mark false) (Text.double mark.char segment) =
        .inside mark false := by
  induction segment with
  | nil => exact ⟨rfl, rfl⟩
  | cons c segment ih =>
      obtain ⟨pieces, run⟩ := ih
      rw [Text.double_cons]
      by_cases same : c = mark.char
      · subst same
        simp only [if_pos, List.cons_append, List.nil_append, List.map_cons,
          QuoteState.run_cons, QuoteState.next_inside_mark, next_outside_char other, run, and_true]
        rw [Piece.list_cons_of_covers (covers_char _), QuoteState.next_inside_mark,
          Piece.list_cons_of_covers (covers_char _), next_outside_char other, pieces]
      · simp only [if_neg same, List.cons_append, List.nil_append, List.map_cons,
          QuoteState.run_cons, next_inside_of_ne same, run, and_true]
        rw [Piece.list_cons_of_covers rfl, next_inside_of_ne same, pieces]

theorem sealed_quote (other : mark ≠ .single) (segment : Text) :
    Sealed (quote mark.char segment) where
  pieces rule before := by
    rw [quote, List.cons_append, Piece.list_cons_of_covers (covers_char _),
      next_outside_char other, (read_double other segment [mark.char]).1,
      Piece.list_cons_of_covers rfl, QuoteState.next_inside_mark]
    simp [Piece.list]
  run rule before := by
    rw [quote, List.cons_append, QuoteState.run_cons, next_outside_char other,
      QuoteState.run_append, (read_double other segment []).2, QuoteState.run_cons,
      QuoteState.next_inside_mark, QuoteState.run_nil]
  last := by
    rw [quote, List.getLast?_concat]
    cases mark <;> decide

theorem parts_ne_nil (path : Text) : parts path ≠ [] := by
  rw [parts]
  split <;> simp

variable {quote : Text → Text}

theorem sealed_wrapPart (quoted : ∀ segment, Sealed (quote segment)) (part : Text) :
    Sealed (wrapPart quote part) := by
  have dot : Sealed ['.'] := .of_bare (by decide) (by decide) (by decide)
  have star : Sealed ['*'] := .of_bare (by decide) (by decide) (by decide)
  refine .intercalate dot (fun text member => ?_) (by simp)
  obtain ⟨segment, -, rfl⟩ := List.mem_map.1 member
  split
  · next isStar => rw [isStar]; exact star
  · exact quoted segment

/-- A written path is sealed when its quoted segments are. -/
theorem sealed_wrap (quoted : ∀ segment, Sealed (quote segment)) (path : Text) :
    Sealed (wrap quote path) := by
  have as : Sealed " as ".toList := .of_bare (by decide) (by decide) (by decide)
  refine .intercalate as (fun text member => ?_) (by simpa using parts_ne_nil path)
  obtain ⟨part, -, rfl⟩ := List.mem_map.1 member
  exact sealed_wrapPart quoted part

end Identifier

theorem Engine.nameMark_ne_single (engine : Engine) : engine.nameMark ≠ .single := by
  cases engine <;> decide

/-- Whatever a path contains, it cannot be seen outside the path as written by an engine. -/
theorem Engine.sealed_wrapPath (engine : Engine) (path : Text) :
    Sealed (engine.writer.wrapPath path) :=
  Identifier.sealed_wrap (fun segment => Identifier.sealed_quote engine.nameMark_ne_single segment)
    path

end SqlTemplate
