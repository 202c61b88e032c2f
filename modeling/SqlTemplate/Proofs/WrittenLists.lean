import SqlTemplate.Proofs.Lookahead
import SqlTemplate.Proofs.Replacements
import SqlTemplate.Proofs.Restarts

/-!
# Lists written out

A list at a positional marker can be written out: the marker as often as the
list has items, separated by commas, and the items among the arguments in place
of the list.  The markers in front are read as before; those behind ask for
positions that have moved by the same number as the arguments behind the list.
-/

namespace SqlTemplate

namespace Lexeme

variable {rule : StringRule}

/-- A marker as often as a list has items, separated by commas. -/
def copies (role : Role) (count : Nat) : List Lexeme :=
  [.plain [','], .plain [' ']].intercalate (List.replicate count [.positional role])

theorem copies_succ_succ (role : Role) (count : Nat) :
    copies role (count + 2) =
      .positional role :: .plain [','] :: .plain [' '] :: copies role (count + 1) := by
  simp [copies, List.intercalate, List.replicate_succ]

theorem list_positional {role : Role} {rest : Text}
    (single : role = .value → rest.head? ≠ some '?') :
    list rule (.outside .boundary) ((positional role).spelling ++ rest) =
      .positional role :: list rule (.outside .boundary) rest := by
  cases role with
  | value => exact list_value (single rfl)
  | identifier => exact list_outside rfl _

theorem list_copies {role : Role} (count : Nat) {rest : Text}
    (single : role = .value → rest.head? ≠ some '?') :
    list rule (.outside .boundary)
        ([',', ' '].intercalate (List.replicate (count + 1) (positional role).spelling) ++ rest) =
      copies role (count + 1) ++ list rule (.outside .boundary) rest := by
  induction count with
  | zero =>
      have one : [',', ' '].intercalate (List.replicate 1 (positional role).spelling) =
          (positional role).spelling := by simp [List.intercalate]
      rw [one]
      exact list_positional single
  | succ count ih =>
      have more : [',', ' '].intercalate (List.replicate (count + 2) (positional role).spelling) =
          (positional role).spelling ++ ',' :: ' ' ::
            [',', ' '].intercalate (List.replicate (count + 1) (positional role).spelling) := by
        simp [List.intercalate, List.replicate_succ]
      rw [more, List.append_assoc, list_positional fun _ => by simp, copies_succ_succ]
      simp only [List.cons_append]
      rw [list_plain rfl (by decide) (by decide) (by decide),
        list_plain rfl (by decide) (by decide) (by decide)]
      exact congrArg (fun behind => positional role :: plain [','] :: plain [' '] :: behind) ih

theorem questions_copies (role : Role) (count : Nat) : questions (copies role count) = count := by
  induction count with
  | zero => rfl
  | succ count ih =>
      cases count with
      | zero => rfl
      | succ count =>
          rw [copies_succ_succ]
          exact congrArg (· + 1) ih

theorem flatMap_number_append {α : Type} (yield : Token → List α)
    (additive : ∀ first second,
      yield (.literal (first ++ second)) = yield (.literal first) ++ yield (.literal second))
    (position : Nat) (front back : List Lexeme) :
    (number position (front ++ back)).flatMap yield =
      (number position front).flatMap yield ++
        (number (position + questions front) back).flatMap yield := by
  induction front generalizing position with
  | nil => rfl
  | cons lexeme rest ih =>
      rw [List.cons_append, flatMap_number_cons yield additive,
        flatMap_number_cons yield additive, ih, following_add_questions, List.append_assoc]

end Lexeme

namespace Draft

/-- The parts of a draft, with gaps in the places of its errors. -/
def outline (draft : Draft) : List (Option Part) :=
  draft.map Except.toOption

theorem outline_append (first second : Draft) :
    outline (first ++ second) = first.outline ++ second.outline :=
  List.map_append

/-- What is written is decided by the parts, whatever the errors are. -/
theorem render_eq_ok_iff_of_outline {writer : Writer} {mode : Mode} {draft other : Draft}
    (same : draft.outline = other.outline) (rendered : Rendered) :
    draft.render writer mode = .ok rendered ↔ other.render writer mode = .ok rendered := by
  induction draft generalizing other rendered with
  | nil =>
      obtain rfl := List.map_eq_nil_iff.1 same.symm
      rfl
  | cons place rest ih =>
      obtain ⟨twin, others, rfl, here, later⟩ := List.map_eq_cons_iff.1 same.symm
      rw [render_cons_eq_ok_iff, render_cons_eq_ok_iff]
      simp only [ih later.symm]
      cases place with
      | error failure =>
          cases twin with
          | error other => simp [renderPlace]
          | ok part => cases here
      | ok part =>
          cases twin with
          | error other => cases here
          | ok other =>
              obtain rfl := Option.some.inj here
              rfl

theorem outline_commaSeparated {drafts others : List Draft}
    (same : drafts.map outline = others.map outline) :
    (commaSeparated drafts).outline = (commaSeparated others).outline := by
  have spread (drafts : List Draft) : (commaSeparated drafts).outline =
      ((drafts.map outline).intersperse (outline (ofText [',', ' ']))).flatten := by
    rw [commaSeparated, outline, List.map_flatten, map_intersperse]
    rfl
  rw [spread, spread, same]

end Draft

namespace Template

variable {writer : Writer} {key other : Key} {role : Role}

def draftArgument (writer : Writer) (role : Role) (key : Key) (argument : Argument) : Draft :=
  match role with
  | .value => argument.draft writer
  | .identifier => draftIdentifier writer key argument

theorem outline_draftPath (writer : Writer) (key other : Key) (argument : Argument) :
    (draftPath writer key argument).outline = (draftPath writer other argument).outline := by
  unfold draftPath
  cases argument.path? <;> rfl

theorem outline_draftArgument (role : Role) (key other : Key) (argument : Argument) :
    (draftArgument writer role key argument).outline =
      (draftArgument writer role other argument).outline := by
  cases role with
  | value => rfl
  | identifier =>
      cases argument with
      | list items =>
          refine Draft.outline_commaSeparated ?_
          rw [List.map_map, List.map_map]
          exact List.map_congr_left fun item _ => outline_draftPath writer key other item
      | scalar value => exact outline_draftPath writer key other (.scalar value)
      | template text arguments => exact outline_draftPath writer key other (.template text arguments)
      | statement compiled => exact outline_draftPath writer key other (.statement compiled)

/-- A list at a marker is drafted item by item, and no item of it spreads at an identifier marker. -/
theorem draftArgument_list {items : List Argument}
    (scalars : role = .identifier → ∀ item ∈ items, ∃ value, item = .scalar value) :
    draftArgument writer role key (.list items) =
      .commaSeparated (items.map (draftArgument writer role key)) := by
  cases role with
  | value =>
      change (Argument.list items).draft writer = _
      rw [Argument.draft, Argument.draftItems_eq, List.map_map]
      rfl
  | identifier =>
      refine congrArg Draft.commaSeparated (List.map_congr_left fun item member => ?_)
      obtain ⟨value, rfl⟩ := scalars rfl item member
      rfl

theorem draftMarker_eq_draftArgument {arguments : Arguments Argument} {argument : Argument}
    (found : arguments.find? key = some argument) :
    draftMarker writer (arguments.map (Argument.draftSlot writer)) ⟨role, key⟩ =
      draftArgument writer role key argument := by
  rw [draftMarker_of_find? found]
  cases role <;> rfl

/-- The draft of lexemes that are counted from a position, with arguments by position. -/
def draftFrom (writer : Writer) (items : List Argument) (position : Nat) (lexemes : List Lexeme) :
    Draft :=
  (Lexeme.number position lexemes).flatMap
    (draftToken writer ((Arguments.positional items).map (Argument.draftSlot writer)))

theorem draftFrom_cons (items : List Argument) (position : Nat) (lexeme : Lexeme)
    (rest : List Lexeme) :
    draftFrom writer items position (lexeme :: rest) =
      draftToken writer ((Arguments.positional items).map (Argument.draftSlot writer))
          (lexeme.token position) ++
        draftFrom writer items (lexeme.following position) rest :=
  flatMap_draftToken_number_cons position lexeme rest

theorem draftFrom_append (items : List Argument) (position : Nat) (front back : List Lexeme) :
    draftFrom writer items position (front ++ back) =
      draftFrom writer items position front ++
        draftFrom writer items (position + Lexeme.questions front) back :=
  Lexeme.flatMap_number_append _ Draft.ofText_append position front back

theorem outline_draftMarker_index (writer : Writer) (role : Role) {items others : List Argument}
    {position place : Nat} (same : items[position]? = others[place]?) :
    (draftMarker writer ((Arguments.positional items).map (Argument.draftSlot writer))
        ⟨role, .index position⟩).outline =
      (draftMarker writer ((Arguments.positional others).map (Argument.draftSlot writer))
        ⟨role, .index place⟩).outline := by
  have missing {items : List Argument} {position : Nat} (none : items[position]? = none) :
      (draftMarker writer ((Arguments.positional items).map (Argument.draftSlot writer))
        ⟨role, .index position⟩).outline = [.none] := by
    have nowhere : ((Arguments.positional items).map (Argument.draftSlot writer)).find?
        (.index position) = .none := by
      rw [Arguments.find?_map]
      exact congrArg _ none
    simp only [draftMarker, Slot.ofMarker, nowhere]
    rfl
  cases found : items[position]? with
  | none => rw [missing found, missing (same.symm.trans found)]
  | some argument =>
      have here : (Arguments.positional items).find? (.index position) = some argument := found
      have there : (Arguments.positional others).find? (.index place) = some argument :=
        same.symm.trans found
      rw [draftMarker_eq_draftArgument here, draftMarker_eq_draftArgument there]
      exact outline_draftArgument role _ _ argument

theorem outline_draftMarker_name {items others : List Argument}
    (empty : items.isEmpty = others.isEmpty) (role : Role) (word : Text) :
    (draftMarker writer ((Arguments.positional items).map (Argument.draftSlot writer))
        ⟨role, .name word⟩).outline =
      (draftMarker writer ((Arguments.positional others).map (Argument.draftSlot writer))
        ⟨role, .name word⟩).outline := by
  have samePlain : Slot.isPlain ((Arguments.positional items).map (Argument.draftSlot writer))
      (.name word) = Slot.isPlain ((Arguments.positional others).map (Argument.draftSlot writer))
        (.name word) := by
    simp only [Arguments.map, Slot.isPlain, List.isEmpty_map, empty]
  rw [draftMarker, draftMarker, samePlain]
  split <;> rfl

/-- Lexemes have the same parts where the arguments at their positions are the same. -/
theorem outline_draftFrom {items others : List Argument} (empty : items.isEmpty = others.isEmpty)
    {lexemes : List Lexeme} {position place : Nat}
    (same : ∀ offset < Lexeme.questions lexemes,
      items[position + offset]? = others[place + offset]?) :
    (draftFrom writer items position lexemes).outline =
      (draftFrom writer others place lexemes).outline := by
  induction lexemes generalizing position place with
  | nil => rfl
  | cons lexeme rest ih =>
      rw [draftFrom_cons, draftFrom_cons, Draft.outline_append, Draft.outline_append]
      cases lexeme with
      | plain text => exact congrArg _ (ih same)
      | escaped sign => cases sign <;> exact congrArg _ (ih same)
      | named role word =>
          exact congr (congrArg _ (outline_draftMarker_name empty role word)) (ih same)
      | positional role =>
          have here := outline_draftMarker_index writer role (same 0 (Nat.succ_pos _))
          refine congr (congrArg _ here) (ih fun offset below => ?_)
          change items[position + 1 + offset]? = others[place + 1 + offset]?
          rw [Nat.add_right_comm position, Nat.add_right_comm place]
          exact same (offset + 1) (Nat.succ_lt_succ below)

/-- Copies of a marker are filled like a list of the arguments that they find. -/
theorem outline_copies (key : Key) (before after : List Argument) {items : List Argument} :
    (draftFrom writer (before ++ items ++ after) before.length
        (Lexeme.copies role items.length)).outline =
      (Draft.commaSeparated (items.map (draftArgument writer role key))).outline := by
  induction items generalizing before with
  | nil => rfl
  | cons item rest ih =>
      have here : (Arguments.positional (before ++ item :: rest ++ after)).find?
          (.index before.length) = some item := by
        simp [Arguments.find?]
      have first : (draftMarker writer ((Arguments.positional (before ++ item :: rest ++ after)).map
            (Argument.draftSlot writer)) ⟨role, .index before.length⟩).outline =
          (draftArgument writer role key item).outline := by
        rw [draftMarker_eq_draftArgument here]
        exact outline_draftArgument role _ key item
      cases rest with
      | nil =>
          have alone : Lexeme.copies role [item].length = [.positional role] := by
            simp [Lexeme.copies, List.intercalate]
          have single (draft : Draft) : Draft.commaSeparated [draft] = draft := by
            simp [Draft.commaSeparated]
          rw [alone, draftFrom_cons, List.map_singleton, single, Draft.outline_append]
          exact (List.append_nil _).trans first
      | cons next others =>
          -- for the copies behind it the item is one more argument in front
          have behind := ih (before ++ [item])
          rw [List.append_assoc before, List.length_append] at behind
          rw [List.length_cons, List.length_cons, Lexeme.copies_succ_succ, draftFrom_cons,
            draftFrom_cons, draftFrom_cons, List.map_cons, List.map_cons,
            Draft.commaSeparated_cons_cons]
          simp only [Draft.outline_append]
          refine Eq.trans ?_ (List.append_assoc _ _ _).symm
          exact congr (congrArg _ first) (congrArg (Draft.outline (.ofText [',', ' ']) ++ ·) behind)

/--
The template with a list written out: the tokens around the marker are spelled
as they are, and the items stand among the arguments in place of the list.
-/
def writtenOut (t : Template) (front back : List Token) (marker : Marker)
    (before items after : List Argument) : Template :=
  { t with
    text := Token.spell front ++
      [',', ' '].intercalate (List.replicate items.length marker.spelling) ++ Token.spell back
    arguments := .positional (before ++ items ++ after) }

theorem exists_lex_copies {rule : StringRule} {text : Text} {front back : List Token} {role : Role}
    {position : Nat}
    (lexed : Token.lex rule text = front ++ .marker ⟨role, .index position⟩ :: back) :
    ∃ first last, Lexeme.list rule .start text = first ++ .positional role :: last ∧
      Lexeme.questions first = position ∧
      ∀ count, Lexeme.list rule .start (Token.spell front ++
        [',', ' '].intercalate
          (List.replicate (count + 1) (Marker.mk role (.index position)).spelling) ++
          Token.spell back) = first ++ (Lexeme.copies role (count + 1) ++ last) := by
  obtain ⟨first, last, listed, sameFront, sameBack, counted⟩ := Token.exists_positional lexed
  obtain ⟨rest, rfl, single, anew⟩ := Lexeme.exists_of_list_eq listed
  rw [Lexeme.spell_list] at sameBack
  refine ⟨first, _, listed, (Nat.zero_add _).symm.trans counted, fun count => ?_⟩
  have starts : ∃ tail, [',', ' '].intercalate
      (List.replicate (count + 1) (Lexeme.positional role).spelling) ++ rest = '?' :: tail := by
    cases count <;> cases role <;> exact ⟨_, rfl⟩
  obtain ⟨tail, spelled⟩ := starts
  have same : (Marker.mk role (.index position)).spelling = (Lexeme.positional role).spelling :=
    Lexeme.spelling_token (.positional role) position
  rw [← sameFront, ← sameBack, List.append_assoc, same, spelled, anew, ← spelled,
    Lexeme.list_copies count single]

variable {t : Template} {front back : List Token} {before items after : List Argument}

/-- A marker that finds a list has the parts of its copies, and so has everything around it. -/
theorem outline_draftFrom_copies {first last : List Lexeme}
    (counted : Lexeme.questions first = before.length) (nonempty : items ≠ [])
    (scalars : role = .identifier → ∀ item ∈ items, ∃ value, item = .scalar value) :
    (draftFrom writer (before ++ .list items :: after) 0 (first ++ .positional role :: last)).outline =
      (draftFrom writer (before ++ items ++ after) 0
        (first ++ (Lexeme.copies role items.length ++ last))).outline := by
  have full : (before ++ .list items :: after).isEmpty = (before ++ items ++ after).isEmpty := by
    cases items with
    | nil => exact absurd rfl nonempty
    | cons item rest => cases before <;> rfl
  have inFront : (draftFrom writer (before ++ .list items :: after) 0 first).outline =
      (draftFrom writer (before ++ items ++ after) 0 first).outline := by
    refine outline_draftFrom full fun offset below => ?_
    rw [counted] at below
    rw [Nat.zero_add, List.append_assoc, List.getElem?_append_left below,
      List.getElem?_append_left below]
  have marked : (draftToken writer
        ((Arguments.positional (before ++ .list items :: after)).map (Argument.draftSlot writer))
        ((Lexeme.positional role).token before.length)).outline =
      (draftFrom writer (before ++ items ++ after) before.length
        (Lexeme.copies role items.length)).outline := by
    have found : (Arguments.positional (before ++ .list items :: after)).find?
        (.index before.length) = some (.list items) := by
      simp [Arguments.find?]
    rw [outline_copies (.index before.length), ← draftArgument_list scalars]
    exact congrArg Draft.outline (draftMarker_eq_draftArgument found)
  have behind : (draftFrom writer (before ++ .list items :: after) (before.length + 1) last).outline =
      (draftFrom writer (before ++ items ++ after) (before.length + items.length) last).outline := by
    have shifted (front back : List Argument) (offset : Nat) :
        (front ++ back)[front.length + offset]? = back[offset]? := by
      rw [List.getElem?_append_right (Nat.le_add_right _ _), Nat.add_sub_cancel_left]
    refine outline_draftFrom full fun offset _ => ?_
    rw [← List.length_append, shifted, Nat.add_assoc, shifted, Nat.add_comm 1,
      List.getElem?_cons_succ]
  rw [draftFrom_append, draftFrom_append, draftFrom_append, draftFrom_cons, counted, Nat.zero_add,
    Lexeme.questions_copies]
  simp only [Draft.outline_append]
  exact congr (congrArg _ inFront) (congr (congrArg _ marked) behind)

/--
A template with a list at a positional marker renders to the same as the
template with the list written out, and fails where that one fails.
-/
theorem render_writtenOut (writer : Writer) (mode : Mode)
    (lexed : Token.lex writer.stringRule t.text =
      front ++ .marker ⟨role, .index before.length⟩ :: back)
    (given : t.arguments = .positional (before ++ .list items :: after))
    (nonempty : items ≠ [])
    (scalars : role = .identifier → ∀ item ∈ items, ∃ value, item = .scalar value)
    (rendered : Rendered) :
    t.render writer mode = .ok rendered ↔
      (t.writtenOut front back ⟨role, .index before.length⟩ before items after).render writer mode =
        .ok rendered := by
  obtain ⟨first, last, listed, counted, anew⟩ := exists_lex_copies lexed
  have original : t.draft writer =
      draftFrom writer (before ++ .list items :: after) 0 (first ++ .positional role :: last) := by
    rw [draft_eq, given, draftText, Token.lex, listed]
    rfl
  have spread : (t.writtenOut front back ⟨role, .index before.length⟩ before items after).draft
      writer = draftFrom writer (before ++ items ++ after) 0
        (first ++ (Lexeme.copies role items.length ++ last)) := by
    obtain ⟨count, size⟩ := Nat.exists_eq_succ_of_ne_zero (List.length_pos_iff.2 nonempty).ne'
    rw [draft_eq, draftText, Token.lex, writtenOut, size, anew count]
    rfl
  rw [render_draft, render_draft, original, spread]
  apply Draft.render_eq_ok_iff_of_outline
  exact outline_draftFrom_copies counted nonempty scalars

def columns : List Argument :=
  [.scalar (.string "a.b".toList), .scalar (.string "c".toList)]

def cells : List Argument :=
  [.scalar (.signed 1), .list [.scalar (.signed 2), .scalar .null],
    .template "now(?)".toList (.positional [.scalar (.boolean true)])]

/-- A list of paths right in front of a list of values, and a value behind both. -/
def twoLists : Template where
  text := "select ??? from t where b = ?::text".toList
  arguments := .positional [.list columns, .list cells, .scalar (.signed 7)]
  engine := .postgreSQL

def cellsWrittenOut : Template :=
  twoLists.writtenOut [.literal "select ".toList, .marker ⟨.identifier, .index 0⟩]
    [.literal " from t where b = ".toList, .marker ⟨.value, .index 2⟩, .literal "::text".toList]
    ⟨.value, .index 1⟩ [.list columns] cells [.scalar (.signed 7)]

def columnsWrittenOut : Template :=
  twoLists.writtenOut [.literal "select ".toList]
    [.marker ⟨.value, .index 1⟩, .literal " from t where b = ".toList,
      .marker ⟨.value, .index 2⟩, .literal "::text".toList]
    ⟨.identifier, .index 0⟩ [] columns [.list cells, .scalar (.signed 7)]

/-- Each of two lists at adjacent markers can be written out. -/
theorem render_writtenOut_twoLists :
    cellsWrittenOut.text = "select ???, ?, ? from t where b = ?::text".toList ∧
      columnsWrittenOut.text = "select ??, ??? from t where b = ?::text".toList ∧
      ∃ rendered, twoLists.render Engine.postgreSQL.writer .parameterized = .ok rendered ∧
        cellsWrittenOut.render Engine.postgreSQL.writer .parameterized = .ok rendered ∧
        columnsWrittenOut.render Engine.postgreSQL.writer .parameterized = .ok rendered ∧
        rendered.text =
          "select \"a\".\"b\", \"c\"?, ?, ?, now(?) from t where b = ?::text".toList := by
  have lexed : Token.lex Engine.postgreSQL.writer.stringRule twoLists.text =
      [.literal "select ".toList, .marker ⟨.identifier, .index 0⟩, .marker ⟨.value, .index 1⟩,
        .literal " from t where b = ".toList, .marker ⟨.value, .index 2⟩,
        .literal "::text".toList] := by
    decide +kernel
  obtain ⟨rendered, compiled, text⟩ : ∃ rendered,
      twoLists.render Engine.postgreSQL.writer .parameterized = .ok rendered ∧
        rendered.text =
          "select \"a\".\"b\", \"c\"?, ?, ?, now(?) from t where b = ?::text".toList :=
    exists_of_map_eq_ok (by decide +kernel)
  have scalars : ∀ item ∈ columns, ∃ value, item = .scalar value :=
    List.forall_mem_cons.2 ⟨⟨_, rfl⟩, List.forall_mem_singleton.2 ⟨_, rfl⟩⟩
  refine ⟨by decide +kernel, by decide +kernel, rendered, compiled, ?_, ?_, text⟩
  · unfold cellsWrittenOut
    refine Iff.mp (render_writtenOut Engine.postgreSQL.writer .parameterized lexed rfl ?_ ?_ rendered)
      compiled
    · exact List.cons_ne_nil _ _
    · exact nofun
  · unfold columnsWrittenOut
    refine Iff.mp (render_writtenOut Engine.postgreSQL.writer .parameterized lexed rfl ?_ ?_ rendered)
      compiled
    · exact List.cons_ne_nil _ _
    · exact fun _ => scalars

end Template

end SqlTemplate
