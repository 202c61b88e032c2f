import SqlTemplate.Text.Blank

/-!
# Identifiers

An identifier path names a column, a table or a part of a schema, with its
segments separated by dots and possibly followed by ` as ` and an alias.  Each
segment is quoted on its own, except for the star that stands for all columns.
-/

namespace SqlTemplate.Identifier

/-- Quote one segment with a mark; the mark is doubled inside. -/
def quote (mark : Char) (segment : Text) : Text :=
  mark :: Text.double mark segment ++ [mark]

/-- Cut a path at the first ` as `, written in either case between two spaces. -/
def cutAlias? : Text → Option (Text × Text)
  | [] => none
  | c :: rest =>
      match c, rest with
      | ' ', a :: s :: ' ' :: tail =>
          if a.toLower = 'a' ∧ s.toLower = 's' then some ([], tail)
          else (cutAlias? rest).map fun cut => (c :: cut.1, cut.2)
      | _, _ => (cutAlias? rest).map fun cut => (c :: cut.1, cut.2)

theorem length_cutAlias?_lt {path name tail : Text} (cut : cutAlias? path = some (name, tail)) :
    tail.length < path.length := by
  induction path generalizing name with
  | nil => simp [cutAlias?] at cut
  | cons c rest ih =>
      have deeper {pair : Text × Text} (found : cutAlias? rest = some pair)
          (same : (c :: pair.1, pair.2) = (name, tail)) : tail.length < (c :: rest).length := by
        obtain ⟨first, second⟩ := pair
        simp only [Prod.mk.injEq] at same
        have := ih (same.2 ▸ found)
        simp only [List.length_cons]
        omega
      unfold cutAlias? at cut
      split at cut
      · split at cut
        · simp only [Option.some.injEq, Prod.mk.injEq] at cut
          simp only [← cut.2, List.length_cons]
          omega
        · obtain ⟨pair, found, same⟩ := Option.map_eq_some_iff.1 cut
          exact deeper found same
      · obtain ⟨pair, found, same⟩ := Option.map_eq_some_iff.1 cut
        exact deeper found same

/-- The parts of a path between its alias separators, without blanks at their ends. -/
def parts (path : Text) : List Text :=
  match _cut : cutAlias? (Text.trim path) with
  | none => [Text.trim path]
  | some (name, tail) => Text.trim name :: parts tail
termination_by path.length
decreasing_by
  have shorter := length_cutAlias?_lt _cut
  have trimmed := Text.length_trim_le path
  omega

/-- Quote the segments of a part one by one; a star stays as it is. -/
def wrapPart (quote : Text → Text) (part : Text) : Text :=
  ['.'].intercalate ((part.splitOn '.').map fun segment =>
    if segment = ['*'] then segment else quote segment)

def wrap (quote : Text → Text) (path : Text) : Text :=
  " as ".toList.intercalate ((parts path).map (wrapPart quote))

end SqlTemplate.Identifier
