import SqlTemplate.Proofs.DraftRendering
import SqlTemplate.Proofs.Pieces
import SqlTemplate.Proofs.Reading

/-!
# Reading compiled text again

A compiled text is read a second time when its parameters are wanted.  The
reader of the template knew which question marks are parameters; the reader of
the compiled text has to find them again among everything that was put in.  It
does when the two readers stay in step behind every marker, and when nothing
puts a backslash in front of a parameter.
-/

namespace SqlTemplate

namespace Part

def pieces : Part → List Piece
  | .plain char => [.plain char]
  | .question => [.question]
  | .value _ => [.parameter]
  | .statement compiled => compiled.pieces

@[simp] theorem flatMap_text_plain (text : Text) : (text.map plain).flatMap Part.text = text := by
  induction text with
  | nil => rfl
  | cons c rest ih => simp [Part.text, ih]

@[simp] theorem flatMap_pieces_plain (text : Text) :
    (text.map plain).flatMap pieces = text.map .plain := by
  induction text with
  | nil => rfl
  | cons c rest ih => simp [pieces, ih]

@[simp] theorem flatMap_values_plain (text : Text) : (text.map plain).flatMap values = [] := by
  induction text with
  | nil => rfl
  | cons c rest ih => exact ih

end Part

def Style.NoMarker : Style → Text → Prop
  | .positional, text => text.head? ≠ some '?'
  | .named, text => text.head? = some ':' → text.tail.head? = some ':'

theorem Style.noMarker_of_head? {style : Style} {text : Text} (noQuestion : text.head? ≠ some '?')
    (noColon : text.head? ≠ some ':') : style.NoMarker text := by
  cases style with
  | positional => exact noQuestion
  | named => exact fun colon => absurd colon noColon

/-- Parts that may take the place of a marker in front of a text. -/
structure Fits (rule : StringRule) (style : Style) (parts : List Part) (rest : Text) :
    Prop where
  reread : ∀ before, Piece.list rule (.outside before) (parts.flatMap Part.text) =
    parts.flatMap Part.pieces
  inStep : ∀ before, QuoteState.InStep rule (.outside .boundary)
    (QuoteState.run rule (.outside before) (parts.flatMap Part.text)) rest
  safe : (parts.flatMap Part.text).getLast? = some '\\' → style.NoMarker rest

namespace Draft

@[simp] theorem ofText_append (first second : Text) :
    ofText (first ++ second) = ofText first ++ ofText second := by
  simp [ofText]

theorem error_notMem_ok {failure : CompileError} {parts : List Part} :
    (.error failure : Except CompileError Part) ∉ parts.map .ok := by
  simp

theorem eq_of_map_ok {first second : List Part}
    (same : first.map (Except.ok (ε := CompileError)) = second.map .ok) : first = second :=
  (List.map_inj_right fun _ _ => Except.ok.inj).1 same

theorem ofText_eq_map_ok {text : Text} {parts : List Part}
    (drafted : ofText text = parts.map .ok) : parts = text.map .plain := by
  refine (eq_of_map_ok ?_).symm
  rw [← drafted, ofText, List.map_map]
  rfl

theorem head?_text {c : Char} {text : Text} {rest : Draft} {parts : List Part}
    (drafted : ofText (c :: text) ++ rest = parts.map .ok) :
    (parts.flatMap Part.text).head? = some c := by
  obtain ⟨part, others, rfl, first, -⟩ := List.map_eq_cons_iff.1 drafted.symm
  obtain rfl := Except.ok.inj first
  simp [Part.text]

end Draft

namespace Template

variable {writer : Writer} {slots : Arguments (Slot Draft)}

/-- A marker of the other style can only be text, and then it starts with a colon. -/
theorem head?_draftMarker_of_style_ne {place : Marker} {rest : Draft} {parts : List Part}
    (other : place.key.style ≠ slots.style)
    (drafted : draftMarker writer slots place ++ rest = parts.map .ok) :
    (parts.flatMap Part.text).head? = some ':' := by
  unfold draftMarker Slot.ofMarker at drafted
  rw [if_neg other] at drafted
  split at drafted
  · next isPlain =>
      obtain ⟨role, key⟩ := place
      cases key with
      | index position => cases slots <;> simp [Slot.isPlain] at isPlain
      | name word =>
          cases role with
          | value => exact Draft.head?_text drafted
          | identifier => exact Draft.head?_text drafted
  · have member : Except.error (.mixedStyle place slots.style) ∈
        parts.map (Except.ok (ε := CompileError)) := by
      rw [← drafted]
      exact List.mem_cons_self
    exact absurd member Draft.error_notMem_ok

theorem flatMap_draftToken_number_cons (position : Nat) (lexeme : Lexeme) (rest : List Lexeme) :
    (Lexeme.number position (lexeme :: rest)).flatMap (draftToken writer slots) =
      draftToken writer slots (lexeme.token position) ++
        (Lexeme.number (lexeme.following position) rest).flatMap (draftToken writer slots) :=
  Lexeme.flatMap_number_cons _ Draft.ofText_append position lexeme rest

theorem flatMap_draftToken_plain_append (position : Nat) (text : Text) (rest : List Lexeme) :
    (Lexeme.number position ((text.map fun c => .plain [c]) ++ rest)).flatMap
        (draftToken writer slots) =
      Draft.ofText text ++ (Lexeme.number position rest).flatMap (draftToken writer slots) := by
  induction text with
  | nil => rfl
  | cons c others ih =>
      rw [List.map_cons, List.cons_append, flatMap_draftToken_number_cons, Lexeme.following, ih]
      rfl

theorem flatMap_draftToken_plain (position : Nat) (text : Text) :
    (Lexeme.number position (text.map fun c => .plain [c])).flatMap (draftToken writer slots) =
      Draft.ofText text := by
  rw [← List.append_nil (List.map _ text), flatMap_draftToken_plain_append]
  exact List.append_nil _

theorem draftMarker_of_find? {arguments : Arguments Argument} {role : Role} {key : Key}
    {argument : Argument} (found : arguments.find? key = some argument) :
    draftMarker writer (arguments.map (Argument.draftSlot writer)) ⟨role, key⟩ =
      match role with
      | .value => argument.draft writer
      | .identifier => draftIdentifier writer key argument := by
  have inSlots : (arguments.map (Argument.draftSlot writer)).find? key =
      some (argument.draftSlot writer) := by
    rw [Arguments.find?_map, found]
    rfl
  have noPlain : Slot.isPlain (arguments.map (Argument.draftSlot writer)) key = false := by
    cases arguments with
    | positional items =>
        cases key with
        | index position => rfl
        | name word => simp [Arguments.find?] at found
    | named entries => rfl
  have read : Slot.ofMarker (arguments.map (Argument.draftSlot writer)) ⟨role, key⟩ =
      .ok (argument.draftSlot writer) := Slot.ofMarker_eq_ok_iff.2 inSlots
  rw [draftMarker, noPlain, read]
  cases role <;> rfl

theorem draftMarker_value {arguments : Arguments Argument} {key : Key} {argument : Argument}
    (found : arguments.find? key = some argument) :
    draftMarker writer (arguments.map (Argument.draftSlot writer)) ⟨.value, key⟩ =
      argument.draft writer :=
  draftMarker_of_find? found

/-- What is drafted from a text that no marker starts does not begin with a question mark. -/
theorem head?_draft_ne_question {rule : StringRule} {position : Nat} {before : Preceding}
    {text : Text} {parts : List Part} (noMarker : slots.style.NoMarker text)
    (drafted : (Lexeme.number position (Lexeme.list rule (.outside before) text)).flatMap
      (draftToken writer slots) = parts.map .ok) :
    (parts.flatMap Part.text).head? ≠ some '?' := by
  cases text with
  | nil =>
      have none : parts = [] := by
        simpa [Lexeme.list, Lexeme.number, eq_comm] using drafted
      simp [none]
  | cons c rest =>
      by_cases covers : (QuoteState.outside before).covers c = true
      · rw [Lexeme.list, if_pos covers, flatMap_draftToken_number_cons] at drafted
        rw [Draft.head?_text drafted]
        rintro question
        obtain rfl := Option.some.inj question
        exact absurd covers (by simp [QuoteState.covers, QuoteMark.ofChar?])
      · have reads := Lexeme.reads_read c rest
        rw [Lexeme.list, if_neg covers, flatMap_draftToken_number_cons] at drafted
        generalize (Lexeme.read c rest).1 = lexeme, (Lexeme.read c rest).2 = behind at reads drafted
        have elsewhere {place : Marker} (other : place.key.style ≠ slots.style)
            (marker : lexeme.token position = .marker place) :
            (parts.flatMap Part.text).head? ≠ some '?' := by
          rw [marker] at drafted
          rw [head?_draftMarker_of_style_ne other drafted]
          decide
        cases reads with
        | escaped sign rest =>
            cases sign with
            | question =>
                obtain ⟨part, others, rfl, first, -⟩ := List.map_eq_cons_iff.1 drafted.symm
                obtain rfl := Except.ok.inj first
                simp [Part.text]
            | colon => rw [Draft.head?_text drafted]; decide
        | identifier rest =>
            cases style : slots.style with
            | positional => simp [style, Style.NoMarker] at noMarker
            | named => exact elsewhere (by rw [style]; exact Style.noConfusion) rfl
        | value single =>
            cases style : slots.style with
            | positional => simp [style, Style.NoMarker] at noMarker
            | named => exact elsewhere (by rw [style]; exact Style.noConfusion) rfl
        | colons all whole => rw [Draft.head?_text drafted]; decide
        | namedIdentifier name rest =>
            cases style : slots.style with
            | positional => exact elsewhere (by rw [style]; exact Style.noConfusion) rfl
            | named =>
                rw [style] at noMarker
                exact absurd (noMarker rfl) (name.head?_append _)
        | namedValue name whole cast =>
            cases style : slots.style with
            | positional => exact elsewhere (by rw [style]; exact Style.noConfusion) rfl
            | named =>
                rw [style] at noMarker
                exact absurd (noMarker rfl) (name.head?_append _)
        | plain noQuestion slash colon =>
            rw [Draft.head?_text drafted]
            exact fun question => noQuestion (Option.some.inj question)

/--
The parts of one lexeme are read again as they were written.  The readers stay
in step, and a backslash at the end stands in front of no marker.
-/
theorem reread_token {rule : StringRule} {position : Nat} {before other : Preceding} {c : Char}
    {text rest : Text} {lexeme : Lexeme} {parts : List Part}
    (reads : Lexeme.Reads c text lexeme rest) (noMark : QuoteMark.ofChar? c = none)
    (inStep : QuoteState.InStep rule (.outside before) (.outside other) (c :: text))
    (fits : ∀ place, lexeme.token position = .marker place →
      Fits rule slots.style parts rest)
    (drafted : draftToken writer slots (lexeme.token position) = parts.map .ok) :
    Piece.list rule (.outside other) (parts.flatMap Part.text) = parts.flatMap Part.pieces ∧
      QuoteState.InStep rule ((QuoteState.outside before).next rule c)
        (QuoteState.run rule (.outside other) (parts.flatMap Part.text)) rest ∧
      ((parts.flatMap Part.text).getLast? = some '\\' → slots.style.NoMarker rest) := by
  have marker {place : Marker} (same : lexeme.token position = .marker place)
      (noName : Text.isNameChar c = false) :
      Piece.list rule (.outside other) (parts.flatMap Part.text) = parts.flatMap Part.pieces ∧
        QuoteState.InStep rule ((QuoteState.outside before).next rule c)
          (QuoteState.run rule (.outside other) (parts.flatMap Part.text)) rest ∧
        ((parts.flatMap Part.text).getLast? = some '\\' → slots.style.NoMarker rest) := by
    obtain ⟨reread, step, safe⟩ := fits place same
    rw [QuoteState.next_outside noMark, Preceding.step_eq_boundary noName]
    exact ⟨reread other, step other, safe⟩
  cases reads with
  | escaped sign rest =>
      rw [QuoteState.next_outside noMark, Preceding.step_eq_boundary (by decide)]
      cases sign with
      | question =>
          obtain rfl : [Part.question] = parts := Draft.eq_of_map_ok drafted
          refine ⟨Piece.list_escaped other [], ?_, by simp [Part.text]⟩
          cases other <;> exact .refl _ _
      | colon =>
          obtain rfl := Draft.ofText_eq_map_ok drafted
          refine ⟨?_, ?_, by simp [Part.text]⟩
          · have colon : Text.Bare [':'] := by decide
            exact Piece.list_eq_map_plain colon
          · cases other <;> exact .refl _ _
  | identifier rest => exact marker rfl (by decide)
  | value single => exact marker rfl (by decide)
  | @colons run rest all whole =>
      obtain rfl := Draft.ofText_eq_map_ok drafted
      have allColons : ∀ d ∈ ':' :: ':' :: run, d = ':' := by simpa using all
      have last : (':' :: ':' :: run).getLast (List.cons_ne_nil _ _) = ':' :=
        allColons _ (List.getLast_mem _)
      simp only [Part.flatMap_text_plain, Part.flatMap_pieces_plain]
      refine ⟨Piece.list_eq_map_plain fun d member => ?_, ?_, fun slash => ?_⟩
      · rw [allColons d member]
        decide
      · rw [QuoteState.next_outside noMark, Preceding.step_eq_boundary (by decide),
          QuoteState.run_eq_boundary (fun d member => allColons d member ▸ noMark)
            (List.cons_ne_nil _ _) (by rw [last]; decide)]
        exact .refl _ _
      · rw [List.getLast?_eq_some_getLast (List.cons_ne_nil _ _), last] at slash
        exact absurd slash (by decide)
  | namedIdentifier name rest => exact marker rfl (by decide)
  | namedValue name whole cast => exact marker rfl (by decide)
  | plain noQuestion slash colon =>
      obtain rfl := Draft.ofText_eq_map_ok drafted
      have covers : (QuoteState.outside other).covers c = false :=
        QuoteState.covers_eq_false_iff.2 ⟨other, rfl, noMark⟩
      refine ⟨?_, inStep.next, fun last => ?_⟩
      · have atEnd : Piece.SafeCut [c] [] := by simp [Piece.SafeCut]
        exact Piece.list_cons_plain covers noQuestion atEnd
      · obtain ⟨noMarker, noName⟩ := slash (by simpa [Part.text] using last)
        exact Style.noMarker_of_head? noMarker noName

/--
The text that is drafted from a template is read again as it was written, if
the readers are in step at the start and every marker leaves them in step.
Without prefixed strings it also ends inside the quotes in which the template
ends.
-/
theorem reread_number {rule : StringRule} {position : Nat} {state other : QuoteState}
    {text : Text} {parts : List Part} (inStep : QuoteState.InStep rule state other text)
    (fits : ∀ place rest,
      (place, rest) ∈ Token.places (Lexeme.number position (Lexeme.list rule state text)) →
      ∀ parts, draftMarker writer slots place = parts.map .ok →
        Fits rule slots.style parts rest)
    (drafted : (Lexeme.number position (Lexeme.list rule state text)).flatMap
      (draftToken writer slots) = parts.map .ok) :
    Piece.list rule other (parts.flatMap Part.text) = parts.flatMap Part.pieces ∧
      (rule ≠ .escapePrefixed →
        (QuoteState.run rule other (parts.flatMap Part.text)).Alike
          (QuoteState.run rule state text)) := by
  induction state, text using Lexeme.list.induct rule generalizing position other parts with
  | case1 state =>
      obtain rfl : parts = [] := by
        simpa [Lexeme.list, Lexeme.number, eq_comm] using drafted
      exact ⟨rfl, fun _ => inStep.alike.symm⟩
  | case2 state c rest covers ih =>
      rw [Lexeme.list, if_pos covers] at fits drafted
      rw [flatMap_draftToken_number_cons] at drafted
      obtain ⟨first, later, rfl, here, behind⟩ := List.append_eq_map_iff.1 drafted
      obtain rfl := Draft.ofText_eq_map_ok here.symm
      have coversOther : other.covers c = true := by
        rw [← inStep.alike.covers_eq, covers]
      obtain ⟨pieces, alike⟩ := ih inStep.next
        (fun place rest member => fits place rest (Lexeme.mem_places_of_tail member)) behind.symm
      refine ⟨?_, alike⟩
      change Piece.list rule other (c :: later.flatMap Part.text) =
        .plain c :: later.flatMap Part.pieces
      rw [Piece.list_cons_of_covers coversOther, pieces]
  | case3 state c rest covers ih =>
      have uncovered : state.covers c = false := Bool.eq_false_iff.2 covers
      obtain ⟨before, rfl, noMark⟩ := QuoteState.covers_eq_false_iff.1 uncovered
      obtain ⟨behind, rfl⟩ : ∃ behind, other = .outside behind :=
        QuoteState.isOutside_eq_true_iff.1 (by rw [← inStep.alike.isOutside_eq]; rfl)
      have reads := Lexeme.reads_read c rest
      rw [Lexeme.list, if_neg covers] at fits drafted
      rw [flatMap_draftToken_number_cons] at drafted
      generalize (Lexeme.read c rest).1 = lexeme, (Lexeme.read c rest).2 = tail
        at reads fits drafted ih
      obtain ⟨first, later, rfl, here, following⟩ := List.append_eq_map_iff.1 drafted
      obtain ⟨firstPieces, step, safe⟩ := reread_token reads noMark inStep
        (fun place marker => fits place tail (Lexeme.mem_places_of_head marker) first
          (by rw [here, marker]; rfl)) here.symm
      obtain ⟨laterPieces, alike⟩ := ih step
        (fun place rest member => fits place rest (Lexeme.mem_places_of_tail member))
        following.symm
      rw [QuoteState.next_outside noMark] at following
      have cut : Piece.SafeCut (first.flatMap Part.text) (later.flatMap Part.text) :=
        fun slash => head?_draft_ne_question (safe slash) following.symm
      simp only [List.flatMap_append]
      refine ⟨?_, fun plain => ?_⟩
      · rw [Piece.list_append _ cut, firstPieces, laterPieces]
      · rw [QuoteState.run_append, ← reads.spelling_append 0, QuoteState.run_append]
        refine (alike plain).trans (QuoteState.Alike.run plain ?_ tail)
        rw [QuoteState.next_outside noMark]
        exact .outside rfl (QuoteState.isOutside_run_of_noMark (reads.noMark noMark))

end Template

end SqlTemplate
