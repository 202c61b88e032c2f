import Mathlib.Data.List.Forall2
import SqlTemplate.Proofs.Harmless

/-!
# Identifier paths as they are written

A path is cut into its parts at the words ` as ` between them, and a part into
its names at the dots.  A name is written between marks with the marks inside
it doubled, and only the star that stands for all columns is left as it is.  So
nothing but stars, dots and the words between the parts can be seen outside
quotes, and all that was written can be read back.
-/

namespace SqlTemplate

namespace Text

/-- A text without the blanks around it; what is left neither starts nor ends with a blank. -/
structure Trims (text core : Text) : Prop where
  exists_blanks : ∃ lead trail : Text, text = lead ++ core ++ trail ∧
    (∀ c ∈ lead, isBlank c = true) ∧ ∀ c ∈ trail, isBlank c = true
  first : ∀ c ∈ core.head?, isBlank c = false
  last : ∀ c ∈ core.getLast?, isBlank c = false

theorem trims_trim (text : Text) : text.Trims text.trim := by
  obtain ⟨lead, middle, rfl, leadBlank, stop⟩ := exists_span isBlank text
  obtain ⟨trail, core, turned, trailBlank, stopTurned⟩ := exists_span isBlank middle.reverse
  have middle_eq : middle = core.reverse ++ trail.reverse := by
    rw [← List.reverse_append, ← turned, List.reverse_reverse]
  have trim_eq : trim (lead ++ middle) = core.reverse := by
    rw [trim, (span_append leadBlank stop).2, turned, (span_append trailBlank stopTurned).2]
  rw [trim_eq]
  refine ⟨⟨lead, trail.reverse, ?_, leadBlank, ?_⟩, ?_, ?_⟩
  · rw [middle_eq, List.append_assoc]
  · exact fun c member => trailBlank c (List.mem_reverse.1 member)
  · intro c first
    refine stop c ?_
    rw [middle_eq, Option.mem_def, List.head?_append, first]
    rfl
  · rw [List.getLast?_reverse]
    exact stopTurned

theorem notMem_of_mem_splitOn {c : Char} {text piece : Text} (member : piece ∈ text.splitOn c) :
    c ∉ piece := by
  induction text generalizing piece with
  | nil =>
      obtain rfl := List.mem_singleton.1 member
      exact List.not_mem_nil
  | cons d rest ih =>
      rw [List.splitOn_cons_eq_if_modifyHead] at member
      split at member
      · rcases List.mem_cons.1 member with rfl | later
        · exact List.not_mem_nil
        · exact ih later
      · next other =>
          cases pieces : rest.splitOn c with
          | nil => exact absurd pieces (List.splitOn_ne_nil c rest)
          | cons first others =>
              rw [pieces] at member ih
              rcases List.mem_cons.1 member with rfl | later
              · have different : c ≠ d := fun same => other (beq_iff_eq.2 same.symm)
                exact List.not_mem_cons_of_ne_of_not_mem different (ih List.mem_cons_self)
              · exact ih (List.mem_cons_of_mem first later)

end Text

namespace Identifier

/-- The word ` as ` between two spaces, in small or in capital letters. -/
def IsSeparator (text : Text) : Prop :=
  text.map Char.toLower = " as ".toList

instance (text : Text) : Decidable (IsSeparator text) :=
  inferInstanceAs (Decidable (_ = _))

/-- No alias separator stands anywhere in a text. -/
def Whole (text : Text) : Prop :=
  ∀ front separator back, text = front ++ separator ++ back → ¬ IsSeparator separator

/-- A text is cut at an alias separator, and none starts further to the left. -/
structure FirstCut (text name rest : Text) : Prop where
  exists_separator : ∃ separator, IsSeparator separator ∧ text = name ++ separator ++ rest
  first : ∀ front separator back, text = front ++ separator ++ back → IsSeparator separator →
    name.length ≤ front.length

/--
The parts of a path.  The path is trimmed and cut at its first separator; what
stands in front of the cut is trimmed, and what stands behind it is a path.
-/
inductive Parted : Text → List Text → Prop where
  | whole {path core : Text} (trims : path.Trims core) (whole : Whole core) : Parted path [core]
  | cut {path core name part rest : Text} {parts : List Text} (trims : path.Trims core)
      (cut : FirstCut core name rest) (trimsName : name.Trims part) (behind : Parted rest parts) :
      Parted path (part :: parts)

theorem eq_space_of_toLower {c : Char} (lower : c.toLower = ' ') : c = ' ' := by
  unfold Char.toLower at lower
  split at lower
  · next capital =>
      -- a capital becomes a letter, which is above the space
      have value : c.val + 32 = 32 := congrArg Char.val lower
      grind
  · exact lower

theorem isSeparator_iff {text : Text} :
    IsSeparator text ↔ ∃ a s, text = [' ', a, s, ' '] ∧ a.toLower = 'a' ∧ s.toLower = 's' := by
  constructor
  · intro separator
    rcases text with _ | ⟨first, _ | ⟨a, _ | ⟨s, _ | ⟨last, _ | ⟨more, rest⟩⟩⟩⟩⟩ <;>
      simp [IsSeparator] at separator
    obtain ⟨first, a, s, last⟩ := separator
    exact ⟨_, _, by rw [eq_space_of_toLower first, eq_space_of_toLower last], a, s⟩
  · rintro ⟨a, s, rfl, lowerA, lowerS⟩
    rw [IsSeparator, List.map_cons, List.map_cons, List.map_cons, lowerA, lowerS]
    rfl

theorem isSeparator_as : IsSeparator " as ".toList := by
  decide

theorem cutAlias?_append {separator : Text} (isSeparator : IsSeparator separator) (rest : Text) :
    cutAlias? (separator ++ rest) = some ([], rest) := by
  obtain ⟨a, s, rfl, lowerA, lowerS⟩ := isSeparator_iff.1 isSeparator
  simp [cutAlias?, lowerA, lowerS]

theorem cutAlias?_cons {c : Char} {rest : Text}
    (noStart : ∀ separator back, c :: rest = separator ++ back → ¬ IsSeparator separator) :
    cutAlias? (c :: rest) = (cutAlias? rest).map fun cut => (c :: cut.1, cut.2) := by
  conv_lhs => unfold cutAlias?
  split
  · next a s tail =>
      refine if_neg fun lower => ?_
      exact noStart [' ', a, s, ' '] tail rfl (isSeparator_iff.2 ⟨a, s, rfl, lower⟩)
  · rfl

theorem Whole.cons {c : Char} {rest : Text} (whole : Whole rest)
    (noStart : ∀ separator back, c :: rest = separator ++ back → ¬ IsSeparator separator) :
    Whole (c :: rest) := by
  intro front separator back spelled
  cases front with
  | nil => exact noStart separator back spelled
  | cons first others => exact whole others separator back (List.cons.inj spelled).2

theorem FirstCut.cons {c : Char} {text name rest : Text} (cut : FirstCut text name rest)
    (noStart : ∀ separator back, c :: text = separator ++ back → ¬ IsSeparator separator) :
    FirstCut (c :: text) (c :: name) rest where
  exists_separator := by
    obtain ⟨separator, isSeparator, rfl⟩ := cut.exists_separator
    exact ⟨separator, isSeparator, rfl⟩
  first front separator back spelled isSeparator := by
    cases front with
    | nil => exact absurd isSeparator (noStart separator back spelled)
    | cons first others =>
        exact Nat.succ_le_succ
          (cut.first others separator back (List.cons.inj spelled).2 isSeparator)

/-- A path is cut at its first separator, if it has one. -/
theorem cutAlias?_spec (text : Text) :
    match cutAlias? text with
    | none => Whole text
    | some (name, rest) => FirstCut text name rest := by
  induction text with
  | nil =>
      intro front separator back spelled isSeparator
      obtain ⟨a, s, rfl, -⟩ := isSeparator_iff.1 isSeparator
      simp at spelled
  | cons c text ih =>
      by_cases start : ∃ separator back, c :: text = separator ++ back ∧ IsSeparator separator
      · obtain ⟨separator, back, spelled, isSeparator⟩ := start
        rw [spelled, cutAlias?_append isSeparator]
        exact ⟨⟨separator, isSeparator, rfl⟩, fun _ _ _ _ _ => Nat.zero_le _⟩
      · have noStart : ∀ separator back, c :: text = separator ++ back → ¬ IsSeparator separator :=
          fun separator back spelled isSeparator => start ⟨separator, back, spelled, isSeparator⟩
        rw [cutAlias?_cons noStart]
        cases found : cutAlias? text with
        | none =>
            rw [found] at ih
            exact Whole.cons ih noStart
        | some cut =>
            rw [found] at ih
            exact FirstCut.cons ih noStart

theorem parts_eq (path : Text) :
    parts path = match cutAlias? path.trim with
      | none => [path.trim]
      | some cut => cut.1.trim :: parts cut.2 := by
  conv_lhs => rw [parts]
  split
  · next uncut => rw [uncut]
  · next found => rw [found]

theorem parted_parts (path : Text) : Parted path (parts path) := by
  induction path using parts.induct with
  | case1 path uncut =>
      have whole := cutAlias?_spec path.trim
      rw [uncut] at whole
      rw [parts_eq, uncut]
      exact .whole path.trims_trim whole
  | case2 path name rest found ih =>
      have cut := cutAlias?_spec path.trim
      rw [found] at cut
      rw [parts_eq, found]
      exact .cut path.trims_trim cut name.trims_trim ih

theorem parts_of_whole {path : Text} (whole : Whole path.trim) : parts path = [path.trim] := by
  have cut := cutAlias?_spec path.trim
  cases found : cutAlias? path.trim with
  | none => rw [parts_eq, found]
  | some pair =>
      rw [found] at cut
      obtain ⟨separator, isSeparator, spelled⟩ := cut.exists_separator
      exact absurd isSeparator (whole pair.1 separator pair.2 spelled)

/-- The parts of a path that is cut are joined by a separator again. -/
theorem whole_of_parts {path : Text} (whole : Whole (" as ".toList.intercalate (parts path))) :
    Whole path.trim := by
  have spec := cutAlias?_spec path.trim
  cases found : cutAlias? path.trim with
  | none =>
      rw [found] at spec
      exact spec
  | some cut =>
      rw [parts_eq, found] at whole
      dsimp only at whole
      rw [List.intercalate_cons_of_ne_nil (parts_ne_nil cut.2)] at whole
      exact absurd isSeparator_as (whole _ _ _ rfl)

/-- A name in which every mark is written twice. -/
inductive Doubled (mark : Char) : Text → Text → Prop where
  | nil : Doubled mark [] []
  | mark {body name : Text} (behind : Doubled mark body name) :
      Doubled mark (mark :: mark :: body) (mark :: name)
  | char {c : Char} {body name : Text} (other : c ≠ mark) (behind : Doubled mark body name) :
      Doubled mark (c :: body) (c :: name)

/-- The written form of a name: a bare star, or the name between marks. -/
inductive Segment (mark : Char) : Text → Text → Prop where
  | star : Segment mark ['*'] ['*']
  | quoted {body name : Text} (noStar : name ≠ ['*']) (noDot : '.' ∉ name)
      (doubled : Doubled mark body name) : Segment mark (mark :: body ++ [mark]) name

/-- Parts that are joined by ` as `, each of them joined by dots. -/
def joined (parts : List (List Text)) : Text :=
  " as ".toList.intercalate (parts.map ['.'].intercalate)

/-- What can be seen of a name that is written: a star, or nothing. -/
def shown (name : Text) : Text :=
  if name = ['*'] then name else []

/-- The names of a path with their written forms, of which there is at least one in each part. -/
structure Written (mark : Char) (segments names : List (List Text)) : Prop where
  nonempty : segments ≠ []
  parts_nonempty : ∀ part ∈ segments, part ≠ []
  each : List.Forall₂ (List.Forall₂ (Segment mark)) segments names

/-- How far the reader of a written path has come; a closing mark can turn out to be a doubled one. -/
inductive Unquoting where
  | outside
  | inside
  | closed
  deriving DecidableEq

def Unquoting.next (mark c : Char) : Unquoting → Unquoting
  | .inside => if c = mark then .closed else .inside
  | .outside | .closed => if c = mark then .inside else .outside

/-- A written path without its quoting; directly behind a closing mark a mark stands for itself. -/
def unquote (mark : Char) : Unquoting → Text → Text
  | _, [] => []
  | state, c :: rest =>
      if c = mark ∧ state ≠ .closed then unquote mark (state.next mark c) rest
      else c :: unquote mark (state.next mark c) rest

theorem doubled_double (mark : Char) (name : Text) : Doubled mark (Text.double mark name) name := by
  induction name with
  | nil => exact .nil
  | cons c rest ih =>
      rw [Text.double_cons]
      split
      · next same =>
          subst same
          exact .mark ih
      · next other => exact .char other ih

section Reading

variable {mark c : Char} {body name written text rest : Text}

theorem unquote_inside_of_doubled (doubled : Doubled mark body name) (rest : Text) :
    unquote mark .inside (body ++ rest) = name ++ unquote mark .inside rest := by
  induction doubled with
  | nil => rfl
  | mark behind ih => simp [unquote, Unquoting.next, ih]
  | char other behind ih => simp [unquote, Unquoting.next, other, ih]

theorem unquote_outside_append (noMark : ∀ c ∈ text, c ≠ mark) (rest : Text) :
    unquote mark .outside (text ++ rest) = text ++ unquote mark .outside rest := by
  induction text with
  | nil => rfl
  | cons c text ih =>
      obtain ⟨first, later⟩ := List.forall_mem_cons.1 noMark
      simp [unquote, Unquoting.next, ih later, first]

theorem unquote_closed (noMark : rest.head? ≠ some mark) :
    unquote mark .closed rest = unquote mark .outside rest := by
  cases rest with
  | nil => rfl
  | cons c rest =>
      have other : c ≠ mark := fun same => noMark (congrArg some same)
      simp [unquote, Unquoting.next, other]

/-- A written text that is read as a name, whatever follows that is no mark. -/
def Unquotes (mark : Char) (written name : Text) : Prop :=
  ∀ rest : Text, rest.head? ≠ some mark →
    unquote mark .outside (written ++ rest) = name ++ unquote mark .outside rest

theorem Segment.unquotes (segment : Segment mark written name) (noStar : '*' ≠ mark) :
    Unquotes mark written name := by
  intro rest noMark
  cases segment with
  | star => exact unquote_outside_append (List.forall_mem_singleton.2 noStar) rest
  | @quoted body _ _ _ doubled =>
      have opens : unquote mark .outside (mark :: (body ++ mark :: rest)) =
          unquote mark .inside (body ++ mark :: rest) := by
        simp [unquote, Unquoting.next]
      have closes : unquote mark .inside (mark :: rest) = unquote mark .closed rest := by
        simp [unquote, Unquoting.next]
      rw [List.cons_append, List.cons_append, List.append_assoc]
      exact opens.trans ((unquote_inside_of_doubled doubled _).trans
        (congrArg (name ++ ·) (closes.trans (unquote_closed noMark))))

theorem Unquotes.join {separator front back : Text} (nonempty : separator ≠ [])
    (noMark : ∀ c ∈ separator, c ≠ mark) (first : Unquotes mark written name)
    (second : Unquotes mark front back) :
    Unquotes mark (written ++ separator ++ front) (name ++ separator ++ back) := by
  intro rest stop
  have start : (separator ++ (front ++ rest)).head? ≠ some mark := by
    obtain ⟨c, others, rfl⟩ := List.exists_cons_of_ne_nil nonempty
    exact fun same => noMark c List.mem_cons_self (Option.some.inj same)
  rw [List.append_assoc, List.append_assoc, first _ start, unquote_outside_append noMark,
    second rest stop, List.append_assoc, List.append_assoc]

end Reading

/-- A text that closes all that it opens and shows the same outside quotes, wherever it is put. -/
def Shows (rule : StringRule) (text visible : Text) : Prop :=
  ∀ before, QuoteState.reading rule (.outside before) text = (.outside .boundary, visible)

theorem Shows.append {rule : StringRule} {first second visible behind : Text}
    (front : Shows rule first visible) (back : Shows rule second behind) :
    Shows rule (first ++ second) (visible ++ behind) := by
  intro before
  obtain ⟨run, unquoted⟩ := Prod.mk.inj (front before)
  rw [QuoteState.reading_append, run, unquoted, back]
  rfl

theorem rel_joined (related : Text → Text → Prop)
    (join : ∀ separator ∈ [['.'], " as ".toList], ∀ {first second front back : Text},
      related first front → related second back →
        related (first ++ separator ++ second) (front ++ separator ++ back))
    {parts others : List (List Text)} (all : List.Forall₂ (List.Forall₂ related) parts others)
    (nonempty : parts ≠ []) (each : ∀ part ∈ parts, part ≠ []) :
    related (joined parts) (joined others) := by
  have joinedParts : List.Forall₂ related (parts.map ['.'].intercalate)
      (others.map ['.'].intercalate) := by
    clear nonempty
    induction all with
    | nil => exact .nil
    | cons here later ih =>
        obtain ⟨first, rest⟩ := List.forall_mem_cons.1 each
        exact .cons (Text.rel_intercalate (join ['.'] (by simp)) here first) (ih rest)
  exact Text.rel_intercalate (join " as ".toList (by simp)) joinedParts (by simpa using nonempty)

def write (quote : Text → Text) (name : Text) : Text :=
  if name = ['*'] then name else quote name

def names (path : Text) : List (List Text) :=
  (parts path).map (List.splitOn '.')

theorem wrap_eq_joined (quote : Text → Text) (path : Text) :
    wrap quote path = joined ((names path).map (List.map (write quote))) := by
  rw [joined, names, List.map_map, List.map_map]
  rfl

theorem map_intercalate_names (path : Text) : (names path).map ['.'].intercalate = parts path := by
  rw [names, List.map_map]
  exact List.map_id'' (fun part => List.intercalate_splitOn '.') _

/-- What holds of every name holds of the parts of a path, name by name. -/
theorem forall₂_names {related : Text → Text → Prop} {path : Text} {f g : Text → Text}
    (each : ∀ name, '.' ∉ name → related (f name) (g name)) :
    List.Forall₂ (List.Forall₂ related) ((names path).map (List.map f))
      ((names path).map (List.map g)) := by
  rw [List.forall₂_map_left_iff, List.forall₂_map_right_iff, List.forall₂_same]
  intro part member
  rw [List.forall₂_map_left_iff, List.forall₂_map_right_iff, List.forall₂_same]
  intro name inside
  obtain ⟨source, -, rfl⟩ := List.mem_map.1 member
  exact each name (Text.notMem_of_mem_splitOn inside)

theorem segment_write (mark : Char) {name : Text} (noDot : '.' ∉ name) :
    Segment mark (write (quote mark) name) name := by
  unfold write
  split
  · next star =>
      rw [star]
      exact .star
  · next other => exact .quoted other noDot (doubled_double mark name)

theorem shows_write {rule : StringRule} {mark : QuoteMark} (other : mark ≠ .single) (name : Text) :
    Shows rule (write (quote mark.char) name) (shown name) := by
  intro before
  unfold write shown
  split
  · next star =>
      rw [star]
      cases before <;> rfl
  · exact reading_quote other before name

theorem written_names (mark : Char) (path : Text) :
    Written mark ((names path).map (List.map (write (quote mark)))) (names path) where
  nonempty := by simpa [names] using parts_ne_nil path
  parts_nonempty := by
    intro part member
    obtain ⟨part, among, rfl⟩ := List.mem_map.1 member
    obtain ⟨source, -, rfl⟩ := List.mem_map.1 among
    exact List.map_eq_nil_iff.not.2 (List.splitOn_ne_nil '.' source)
  each := by
    have each : List.Forall₂ (List.Forall₂ (Segment mark))
        ((names path).map (List.map (write (quote mark)))) ((names path).map (List.map id)) :=
      forall₂_names fun name => segment_write mark
    simpa using each

end Identifier

namespace Engine

open Identifier

variable (engine : Engine) (path : Text)

theorem wrapPath_eq_joined :
    engine.writer.wrapPath path =
      joined ((names path).map (List.map (write (quote engine.nameMark.char)))) :=
  wrap_eq_joined engine.quoteName path

/-- A written path shows its stars, dots and alias separators, wherever it is put outside quotes. -/
theorem shows_wrapPath (rule : StringRule) :
    Shows rule (engine.writer.wrapPath path) (joined ((names path).map (List.map shown))) := by
  have written := written_names engine.nameMark.char path
  rw [wrapPath_eq_joined]
  refine rel_joined (Shows rule) ?_
    (forall₂_names fun name _ => shows_write engine.nameMark_ne_single name)
    written.nonempty written.parts_nonempty
  intro separator member first second front back shows others
  have between : Shows rule separator separator := by
    intro before
    rcases List.mem_pair.1 member with rfl | rfl <;> cases before <;> cases rule <;> rfl
  exact (shows.append between).append others

theorem reading_wrapPath (rule : StringRule) :
    QuoteState.reading rule .start (engine.writer.wrapPath path) =
      (.outside .boundary, joined ((names path).map (List.map shown))) :=
  shows_wrapPath engine path rule .boundary

theorem unquote_wrapPath :
    unquote engine.nameMark.char .outside (engine.writer.wrapPath path) = joined (names path) := by
  have written := written_names engine.nameMark.char path
  have noStar : '*' ≠ engine.nameMark.char := by cases engine <;> decide
  have each : List.Forall₂ (List.Forall₂ (Unquotes engine.nameMark.char)) _ _ :=
    written.each.imp fun _ _ part => part.imp fun _ _ segment => segment.unquotes noStar
  have whole : Unquotes engine.nameMark.char (engine.writer.wrapPath path)
      (joined (names path)) := by
    rw [wrapPath_eq_joined]
    refine rel_joined (Unquotes engine.nameMark.char) ?_ each written.nonempty written.parts_nonempty
    intro separator member first second front back
    have noMark : ∀ c ∈ separator, c ≠ engine.nameMark.char := by
      rcases List.mem_pair.1 member with rfl | rfl <;> cases engine <;>
        simp [nameMark, QuoteMark.char]
    refine Unquotes.join ?_ noMark
    rcases List.mem_pair.1 member with rfl | rfl <;> decide
  have read := whole [] (by simp)
  rwa [List.append_nil, unquote, List.append_nil] at read

/--
A path is written as its parts joined by ` as `, each of them as its names
joined by dots, and each name as a bare star or between marks that are doubled
inside.  Under every rule for strings only the stars, the dots and the words
between the parts stand outside quotes.  Without the quoting the parts of the
path are there again: the whole trimmed path when it has no alias, and then no
path that is another after trimming is written in the same way.
-/
theorem wrapPath_lossless :
    ∃ segments names,
      Parted path (names.map ['.'].intercalate) ∧
      Written engine.nameMark.char segments names ∧
      engine.writer.wrapPath path = joined segments ∧
      (∀ rule, QuoteState.reading rule .start (engine.writer.wrapPath path) =
        (.outside .boundary, joined (names.map (List.map shown)))) ∧
      unquote engine.nameMark.char .outside (engine.writer.wrapPath path) = joined names ∧
      (Whole path.trim → joined names = path.trim ∧
        ∀ other : Text, other.trim ≠ path.trim →
          engine.writer.wrapPath other ≠ engine.writer.wrapPath path) := by
  refine ⟨_, names path, ?_, written_names engine.nameMark.char path,
    wrapPath_eq_joined engine path, reading_wrapPath engine path, unquote_wrapPath engine path, ?_⟩
  · rw [map_intercalate_names]
    exact parted_parts path
  · intro whole
    have alone : joined (names path) = path.trim := by
      rw [joined, map_intercalate_names, parts_of_whole whole, List.intercalate_singleton]
    refine ⟨alone, fun other different same => different ?_⟩
    have read := congrArg (unquote engine.nameMark.char .outside) same
    rw [unquote_wrapPath, unquote_wrapPath, alone, joined, map_intercalate_names] at read
    have wholeOther : Whole other.trim := whole_of_parts (read ▸ whole)
    rwa [parts_of_whole wholeOther, List.intercalate_singleton] at read

/-- A mark inside a name, a star, and a name that differs from the star by a blank. -/
theorem wrapPath_lossless_star :
    Whole (Text.trim " a\"b.* ".toList) ∧
      unquote '"' .outside "\"a\"\"b\".*".toList = "a\"b.*".toList ∧
      postgreSQL.writer.wrapPath "a\"b. *".toList ≠ postgreSQL.writer.wrapPath " a\"b.* ".toList := by
  have whole : Whole (Text.trim " a\"b.* ".toList) :=
    cutAlias?_spec (Text.trim " a\"b.* ".toList)
  have written : postgreSQL.writer.wrapPath " a\"b.* ".toList = "\"a\"\"b\".*".toList := by
    decide +kernel
  obtain ⟨segments, names, -, -, -, -, read, alone⟩ :=
    wrapPath_lossless .postgreSQL " a\"b.* ".toList
  obtain ⟨same, injective⟩ := alone whole
  rw [written] at read
  exact ⟨whole, read.trans same, injective _ (by decide)⟩

/-- Separators in either case and the blanks around them give way to ` as `. -/
example :
    sqlite.writer.wrapPath " t.x AS  \"y\" as * ".toList =
        "\"t\".\"x\" as \"\"\"y\"\"\" as *".toList ∧
      unquote '"' .outside "\"t\".\"x\" as \"\"\"y\"\"\" as *".toList =
        "t.x as \"y\" as *".toList := by
  decide +kernel

end Engine

end SqlTemplate
