import SqlTemplate.Proofs.Rereading

/-!
# Text with escaped signs

Signs with a backslash in front of them are text, so every text without quotes
can be said by a template.  A backslash of the text itself may stand in front of
a sign, and even behind it another backslash is put.  The reader of the template
drops only the backslashes that were put in; the reader of the compiled text
drops those in front of question marks, which had to be kept until then.
-/

namespace SqlTemplate

def Text.escapeSigns (text : Text) : Text :=
  text.flatMap fun c => if c = '?' ∨ c = ':' then ['\\', c] else [c]

/-- The lexeme that a character is read as behind the backslash that signs get. -/
def Lexeme.ofChar (c : Char) : Lexeme :=
  if c = '?' then .escaped .question else if c = ':' then .escaped .colon else .plain [c]

def Part.ofChar (c : Char) : Part :=
  if c = '?' then .question else .plain c

namespace Text

theorem escapeSigns_cons (c : Char) (rest : Text) :
    escapeSigns (c :: rest) =
      (if c = '?' ∨ c = ':' then ['\\', c] else [c]) ++ rest.escapeSigns :=
  List.flatMap_cons

theorem head?_escapeSigns (text : Text) :
    text.escapeSigns.head? ≠ some '?' ∧ text.escapeSigns.head? ≠ some ':' := by
  cases text with
  | nil => exact ⟨nofun, nofun⟩
  | cons c rest =>
      rw [escapeSigns_cons]
      split
      · exact ⟨by simp, by simp⟩
      · next noSign =>
          rw [not_or] at noSign
          simpa using noSign

end Text

namespace Lexeme

/-- Every character is read on its own, and a backslash of the text escapes nothing. -/
theorem list_escapeSigns {rule : StringRule} {before : Preceding} {text : Text}
    (noMark : ∀ c ∈ text, QuoteMark.ofChar? c = none) :
    list rule (.outside before) text.escapeSigns = text.map ofChar := by
  induction text generalizing before with
  | nil => simp [Text.escapeSigns, list]
  | cons c rest ih =>
      obtain ⟨here, later⟩ := List.forall_mem_cons.1 noMark
      rw [Text.escapeSigns_cons, List.map_cons, ofChar]
      by_cases question : c = '?'
      · subst question
        exact (list_outside rfl _).trans (congrArg _ (ih later))
      by_cases colon : c = ':'
      · subst colon
        exact (list_outside rfl _).trans (congrArg _ (ih later))
      · have noSign : ¬ (c = '?' ∨ c = ':') := not_or.2 ⟨question, colon⟩
        have alone : read c (Text.escapeSigns rest) = (.plain [c], Text.escapeSigns rest) :=
          read_single question (fun _ => Text.head?_escapeSigns rest) fun same => absurd same colon
        rw [if_neg noSign, if_neg question, if_neg colon, List.singleton_append, list_outside here,
          alone, ih later]

theorem places_ofChar (position : Nat) (text : Text) :
    Token.places (number position (text.map ofChar)) = [] := by
  induction text with
  | nil => rfl
  | cons c rest ih =>
      rw [List.map_cons, ofChar]
      split
      · exact ih
      · split
        · exact ih
        · exact (Token.places_prepend _ _).trans ih

end Lexeme

namespace Part

variable (text : Text)

theorem render_ofChar (writer : Writer) (c : Char) :
    (ofChar c).render writer .inline = .ok (.plain [c]) := by
  unfold ofChar
  split
  · next question => rw [question]; rfl
  · rfl

theorem flatMap_values_ofChar : (text.map ofChar).flatMap values = [] := by
  rw [List.flatMap_eq_nil_iff, List.forall_mem_map]
  intro c _
  unfold ofChar
  split <;> rfl

theorem write_ofChar (parameter : Nat → Text) (position : Nat) :
    Piece.write parameter position ((text.map ofChar).flatMap pieces) = text := by
  induction text with
  | nil => rfl
  | cons c rest ih =>
      rw [List.map_cons, List.flatMap_cons, ofChar]
      split
      · next question =>
          rw [question]
          exact congrArg _ ih
      · exact congrArg _ ih

end Part

theorem Draft.render_ofChar (writer : Writer) (text : Text) :
    render writer .inline ((text.map Part.ofChar).map .ok) = .ok (.plain text) := by
  induction text with
  | nil => rfl
  | cons c rest ih =>
      rw [List.map_cons, List.map_cons, render_cons, ih, renderPlace, Part.render_ofChar]
      rfl

namespace Template

/-- A template with escaped signs says the characters of the text, whatever its arguments are. -/
theorem flatMap_draftToken_ofChar (writer : Writer) (slots : Arguments (Slot Draft))
    (position : Nat) (text : Text) :
    (Lexeme.number position (text.map Lexeme.ofChar)).flatMap (draftToken writer slots) =
      (text.map Part.ofChar).map .ok := by
  induction text with
  | nil => rfl
  | cons c rest ih =>
      have here : draftToken writer slots ((Lexeme.ofChar c).token position) =
            [.ok (Part.ofChar c)] ∧ (Lexeme.ofChar c).following position = position := by
        unfold Lexeme.ofChar Part.ofChar
        split
        · exact ⟨rfl, rfl⟩
        · split
          · next colon =>
              rw [colon]
              exact ⟨rfl, rfl⟩
          · exact ⟨rfl, rfl⟩
      rw [List.map_cons, flatMap_draftToken_number_cons, here.1, here.2, ih]
      rfl

/--
With its signs escaped, every text without quotes can be said: whatever the
arguments are, the template is written as the text, and it compiles to a
statement that drivers take as the text, in every style and without values.
-/
theorem render_escapeSigns {t : Template} {text : Text}
    (noMark : ∀ c ∈ text, QuoteMark.ofChar? c = none) (escaped : t.text = text.escapeSigns)
    (writer : Writer) :
    t.render writer .inline = .ok ⟨text, []⟩ ∧
      ∃ compiled, t.compileWith writer = .ok compiled ∧
        compiled.stringRule = writer.stringRule ∧
        ∀ style, compiled.native style = ⟨text, []⟩ := by
  have lexemes : Lexeme.list writer.stringRule .start t.text = text.map Lexeme.ofChar := by
    rw [escaped]
    exact Lexeme.list_escapeSigns noMark
  have drafted : t.draft writer = (text.map Part.ofChar).map .ok := by
    rw [draft_eq, draftText, Token.lex, lexemes, flatMap_draftToken_ofChar]
  constructor
  · rw [render_draft, drafted, Draft.render_ofChar]
    rfl
  · refine ⟨_, compileWith_eq_ok_iff.2 ⟨_, Draft.parts_eq_ok_iff.2 drafted, rfl⟩, rfl, ?_⟩
    -- No marker is among the tokens, so nothing can take the two readers apart.
    have noPlace {place : Marker} {rest : Text}
        (member : (place, rest) ∈ Token.places
          (Lexeme.number 0 (Lexeme.list writer.stringRule .start t.text))) : False := by
      rw [lexemes, Lexeme.places_ofChar] at member
      cases member
    have pieces := (reread_number (.refl .start t.text)
      (fun _ _ member => (noPlace member).elim) ((draft_eq t writer).symm.trans drafted)).1
    intro style
    rw [Statement.native, Statement.pieces, pieces, Part.write_ofChar, Part.flatMap_values_ofChar]

/-- A pattern with backslashes of its own, one of them in front of a sign. -/
def pattern (arguments : Arguments Argument) (engine : Engine) : Template :=
  { text := "a \\\\? \\:\\:b \\\\:e\\? \\".toList, arguments, engine }

/-- Neither the name behind the colon nor the arguments matter. -/
theorem render_escapeSigns_pattern :
    (pattern (.ofPairs [("e".toList, .scalar .null)]) .mySQL).render Engine.oracle.writer .inline =
        .ok ⟨"a \\? ::b \\:e? \\".toList, []⟩ ∧
      ∃ compiled, (pattern (.ofPairs [("e".toList, .scalar .null)]) .mySQL).compileWith
          Engine.oracle.writer = .ok compiled ∧
        compiled.stringRule = .standard ∧
        ∀ style, compiled.native style = ⟨"a \\? ::b \\:e? \\".toList, []⟩ := by
  have noMark : "a \\? ::b \\:e? \\".toList.all fun c => (QuoteMark.ofChar? c).isNone := by decide
  refine render_escapeSigns (fun c member => ?_) (by decide) Engine.oracle.writer
  exact Option.isNone_iff_eq_none.1 (List.all_eq_true.1 noMark c member)

end Template

end SqlTemplate
