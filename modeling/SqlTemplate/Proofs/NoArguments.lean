import SqlTemplate.Proofs.Lossless
import SqlTemplate.Proofs.Rereading
import SqlTemplate.Proofs.Words

/-!
# Templates without arguments

Without arguments a colon cannot mean an argument, and names with colons are
written back as they were read.  A template without question marks that ask for
arguments is then its own text, apart from backslashes that escape signs: with
literals all of them are dropped, and among parameters only those in front of
colons.  If a question mark does ask for an argument, the first one is missed.
-/

namespace SqlTemplate

namespace Text

/-- Whether a backslash stands at a position, outside the quotes of a template, and escapes a sign. -/
def escapes (rule : StringRule) (text : Text) (sign : Sign) (position : Nat) : Bool :=
  text[position]? == some '\\' && text[position + 1]? == some sign.char &&
    (Lexeme.finish rule .start (text.take position)).isOutside

/-- Characters of a text with their positions, but no backslash that escapes one of some signs. -/
def kept (rule : StringRule) (signs : List Sign) (text : Text) (cells : List (Char × Nat)) : Text :=
  (cells.filter fun cell => !signs.any fun sign => text.escapes rule sign cell.2).map Prod.fst

/-- A text without the backslashes that escape one of some signs. -/
def unescape (rule : StringRule) (signs : List Sign) (text : Text) : Text :=
  text.kept rule signs text.zipIdx

theorem kept_append (rule : StringRule) (signs : List Sign) (text : Text)
    (front back : List (Char × Nat)) :
    text.kept rule signs (front ++ back) =
      text.kept rule signs front ++ text.kept rule signs back := by
  rw [kept, kept, kept, List.filter_append, List.map_append]

end Text

namespace Lexeme

variable {rule : StringRule} {text : Text} {sign : Sign} {signs : List Sign}

def unescape (signs : List Sign) : Lexeme → Text
  | .escaped sign => if sign ∈ signs then [sign.char] else ['\\', sign.char]
  | .plain text => text
  | .positional role => spelling (.positional role)
  | .named role name => spelling (.named role name)

theorem eq_of_spell_within {front other first last : List Lexeme} {lexeme : Lexeme}
    (nonempty : ∀ lexeme ∈ other, lexeme.spelling ≠ [])
    (split : front ++ first = other ++ lexeme :: last)
    (starts : (spell other).length ≤ (spell front).length)
    (ends : (spell front).length < (spell other).length + lexeme.spelling.length) :
    front = other := by
  rcases List.append_eq_append_iff.1 split with ⟨between, rfl, -⟩ | ⟨between, rfl, behind⟩
  · cases between with
    | nil => exact (List.append_nil front).symm
    | cons next others =>
        have here := List.length_pos_iff.2 (nonempty next (by simp))
        rw [spell_append, List.length_append, spell_cons, List.length_append] at starts
        omega
  · cases between with
    | nil => exact List.append_nil other
    | cons next others =>
        obtain ⟨rfl, -⟩ := List.cons.inj behind
        rw [spell_append, List.length_append, spell_cons, List.length_append] at ends
        omega

theorem escapes_eq_true_iff {position : Nat} :
    text.escapes rule sign position = true ↔
      ∃ front back, list rule .start text = front ++ .escaped sign :: back ∧
        position = (spell front).length := by
  rw [Text.escapes, Bool.and_eq_true, Bool.and_eq_true, beq_iff_eq, beq_iff_eq]
  constructor
  · rintro ⟨⟨slash, signed⟩, outside⟩
    obtain ⟨here, atHere⟩ := List.getElem?_eq_some_iff.1 slash
    obtain ⟨next, atNext⟩ := List.getElem?_eq_some_iff.1 signed
    have split : text = text.take position ++ '\\' :: sign.char :: text.drop (position + 2) := by
      rw [← atHere, ← atNext, List.getElem_cons_drop, List.getElem_cons_drop,
        List.take_append_drop]
    obtain ⟨before, finished⟩ := QuoteState.isOutside_eq_true_iff.1 outside
    have read : read '\\' (sign.char :: text.drop (position + 2)) =
        (.escaped sign, text.drop (position + 2)) := by
      cases sign <;> rfl
    have listed : list rule .start text = list rule .start (text.take position) ++
        .escaped sign :: list rule (.outside (before.step '\\')) (text.drop (position + 2)) := by
      conv_lhs => rw [split]
      rw [list_append_backslash, finished, list_outside rfl, read]
    refine ⟨_, _, listed, ?_⟩
    rw [spell_list, List.length_take, Nat.min_eq_left (Nat.le_of_lt here)]
  · rintro ⟨front, back, listed, rfl⟩
    have split : text = spell front ++ '\\' :: sign.char :: spell back := by
      rw [← spell_list rule .start text, listed, spell_append, spell_cons]
      rfl
    have taken : text.take (spell front).length = spell front := by
      conv_lhs => rw [split, List.take_left]
    have cut := list_append_backslash rule .start (spell front) (sign.char :: spell back)
    rw [← split, listed] at cut
    have same : list rule .start (spell front) = front := by
      refine eq_of_spell_within (fun lexeme member => ?_) cut.symm ?_ ?_
      · exact spelling_ne_nil_of_mem_list (listed ▸ List.mem_append_left _ member)
      · rw [spell_list]
      · rw [spell_list]
        exact Nat.lt_add_of_pos_right (List.length_pos_iff.2 (List.cons_ne_nil _ _))
    rw [same] at cut
    refine ⟨⟨by simp [split], by simp [split]⟩, ?_⟩
    rw [taken]
    cases outside : (finish rule .start (spell front)).isOutside with
    | true => rfl
    | false =>
        have covers : (finish rule .start (spell front)).covers '\\' = true := by
          cases state : finish rule .start (spell front) with
          | outside => rw [state] at outside; cases outside
          | inside | hidden => rfl
        rw [list_covered covers] at cut
        cases (List.cons.inj (List.append_cancel_left cut)).1

/-- Within a lexeme only the backslash of an escaped sign escapes anything. -/
theorem escapes_within_iff {front back : List Lexeme} {lexeme : Lexeme} {distance : Nat}
    (listed : list rule .start text = front ++ lexeme :: back)
    (within : distance < lexeme.spelling.length) :
    text.escapes rule sign ((spell front).length + distance) = true ↔
      distance = 0 ∧ lexeme = .escaped sign := by
  rw [escapes_eq_true_iff]
  constructor
  · rintro ⟨other, last, again, place⟩
    obtain rfl : other = front := by
      refine eq_of_spell_within (fun lexeme member => ?_) (again.symm.trans listed) ?_ ?_
      · exact spelling_ne_nil_of_mem_list (listed ▸ List.mem_append_left _ member)
      · omega
      · omega
    obtain ⟨same, -⟩ := List.cons.inj (List.append_cancel_left (again.symm.trans listed))
    exact ⟨by omega, same.symm⟩
  · rintro ⟨rfl, rfl⟩
    exact ⟨front, back, listed, rfl⟩

theorem kept_spelling {front back : List Lexeme} {lexeme : Lexeme}
    (listed : list rule .start text = front ++ lexeme :: back) :
    text.kept rule signs (lexeme.spelling.zipIdx (spell front).length) =
      lexeme.unescape signs := by
  have whole (noEscape : ∀ sign, lexeme ≠ .escaped sign) :
      text.kept rule signs (lexeme.spelling.zipIdx (spell front).length) = lexeme.spelling := by
    rw [Text.kept, List.filter_eq_self.2, List.zipIdx_map_fst]
    rintro ⟨c, position⟩ member
    obtain ⟨start, below, -⟩ := List.mem_zipIdx member
    obtain ⟨distance, rfl⟩ := Nat.exists_eq_add_of_le start
    have within : distance < lexeme.spelling.length := Nat.lt_of_add_lt_add_left below
    rw [Bool.not_eq_true', List.any_eq_false]
    intro sign _ escapes
    exact noEscape sign ((escapes_within_iff listed within).1 escapes).2
  cases lexeme with
  | plain | positional | named => exact whole nofun
  | escaped sign =>
      have here : (signs.any fun other => text.escapes rule other (spell front).length) =
          decide (sign ∈ signs) := by
        rw [Bool.eq_iff_iff, List.any_eq_true, decide_eq_true_iff]
        constructor
        · rintro ⟨other, member, escapes⟩
          obtain ⟨-, same⟩ : 0 = 0 ∧ Lexeme.escaped sign = .escaped other :=
            (escapes_within_iff listed Nat.zero_lt_two).1 escapes
          exact escaped.inj same ▸ member
        · intro member
          exact ⟨sign, member, escapes_eq_true_iff.2 ⟨front, back, listed, rfl⟩⟩
      have behind : (signs.any fun other => text.escapes rule other ((spell front).length + 1)) =
          false := by
        rw [List.any_eq_false]
        intro other _ escapes
        exact absurd ((escapes_within_iff listed Nat.one_lt_two).1 escapes).1 Nat.one_ne_zero
      change text.kept rule signs [('\\', (spell front).length),
        (sign.char, (spell front).length + 1)] = _
      rw [Text.kept, unescape]
      split
      · next member => simp [here, behind, member]
      · next member => simp [here, behind, member]

theorem kept_spell (signs : List Sign) {front back : List Lexeme}
    (listed : list rule .start text = front ++ back) :
    text.kept rule signs ((spell back).zipIdx (spell front).length) =
      back.flatMap (unescape signs) := by
  induction back generalizing front with
  | nil => rfl
  | cons lexeme rest ih =>
      have behind := ih (listed.trans (List.append_cons ..))
      have ends : (spell (front ++ [lexeme])).length =
          (spell front).length + lexeme.spelling.length := by
        rw [spell_append, List.length_append, spell_cons]
        simp [spell]
      rw [spell_cons, List.zipIdx_append, Text.kept_append, kept_spelling listed,
        List.flatMap_cons, ← behind, ends]

theorem unescape_eq_flatMap (rule : StringRule) (signs : List Sign) (text : Text) :
    text.unescape rule signs = (list rule .start text).flatMap (unescape signs) := by
  have whole : list rule .start text = [] ++ list rule .start text := rfl
  have unescaped := kept_spell signs whole
  rwa [spell_list] at unescaped

def Asks : Lexeme → Prop
  | .positional _ => True
  | .plain _ | .escaped _ | .named .. => False

end Lexeme

/-- The signs that lose their backslash in a mode. -/
def Mode.unescaped : Mode → List Sign
  | .inline => [.question, .colon]
  | .parameterized => [.colon]

namespace Template

variable {writer : Writer} {mode : Mode} {t : Template}

theorem render_draftToken_alone {lexeme : Lexeme} (quiet : ¬ lexeme.Asks) (position : Nat) :
    Draft.render writer mode (draftToken writer (.positional []) (lexeme.token position)) =
      .ok (.plain (lexeme.unescape mode.unescaped)) := by
  cases lexeme with
  | plain text => exact Draft.render_ofText writer mode text
  | positional role => exact absurd trivial quiet
  | named role name => exact Draft.render_ofText writer mode _
  | escaped sign => cases sign <;> cases mode <;> rfl

/-- Without arguments lexemes are written back one after the other, or the first marker fails. -/
theorem render_number_alone (writer : Writer) (mode : Mode) (position : Nat)
    (lexemes : List Lexeme) :
    ((∃ lexeme ∈ lexemes, lexeme.Asks) →
      Draft.render writer mode
          ((Lexeme.number position lexemes).flatMap (draftToken writer (.positional []))) =
        .error (.missingArgument (.index position))) ∧
    ((∀ lexeme ∈ lexemes, ¬ lexeme.Asks) →
      Draft.render writer mode
          ((Lexeme.number position lexemes).flatMap (draftToken writer (.positional []))) =
        .ok (.plain (lexemes.flatMap (Lexeme.unescape mode.unescaped)))) := by
  induction lexemes generalizing position with
  | nil => exact ⟨by simp, fun _ => rfl⟩
  | cons lexeme rest ih =>
      rw [flatMap_draftToken_number_cons, Draft.render_append]
      by_cases asks : lexeme.Asks
      · refine ⟨fun _ => ?_, fun quiet => absurd asks (quiet lexeme List.mem_cons_self)⟩
        cases lexeme with
        | positional role => rfl
        | plain | escaped | named => exact asks.elim
      · have same : lexeme.following position = position := by
          cases lexeme with
          | positional role => exact absurd trivial asks
          | plain | escaped | named => rfl
        rw [render_draftToken_alone asks, same]
        constructor
        · rintro ⟨other, member, othersAsk⟩
          rcases List.mem_cons.1 member with rfl | later
          · exact absurd othersAsk asks
          · rw [(ih position).1 ⟨other, later, othersAsk⟩]
            rfl
        · intro quiet
          rw [(ih position).2 fun other member => quiet other (List.mem_cons_of_mem _ member)]
          rfl

/--
A template without arguments misses the first one if a question mark asks for
it.  Otherwise it is rendered as its text, with literals without the backslashes
of all escaped signs, and among parameters without those of escaped colons.  The
quotes around them are those of the plain text, if no string follows a marker
that is named like the letter of its prefix.
-/
theorem render_alone (writer : Writer) {t : Template} (alone : t.arguments = .none) :
    ((∃ role position, .marker ⟨role, .index position⟩ ∈ Token.lex writer.stringRule t.text) →
      ∀ mode, t.render writer mode = .error (.missingArgument (.index 0))) ∧
    ((∀ role position, .marker ⟨role, .index position⟩ ∉ Token.lex writer.stringRule t.text) →
      t.render writer .inline =
          .ok ⟨t.text.unescape writer.stringRule [.question, .colon], []⟩ ∧
        t.render writer .parameterized = .ok ⟨t.text.unescape writer.stringRule [.colon], []⟩) ∧
    ((writer.stringRule = .escapePrefixed → t.text.NoLetterMarker) → ∀ position,
      (Lexeme.finish writer.stringRule .start (t.text.take position)).isOutside =
        (QuoteState.run writer.stringRule .start (t.text.take position)).isOutside) := by
  have drafted : t.draft writer =
      (Token.lex writer.stringRule t.text).flatMap (draftToken writer (.positional [])) := by
    rw [draft_eq, alone]
    rfl
  have rendered (mode : Mode) := render_number_alone writer mode 0
    (Lexeme.list writer.stringRule .start t.text)
  refine ⟨?_, ?_, fun apart position => ?_⟩
  · rintro ⟨role, position, member⟩ mode
    obtain ⟨lexeme, among, place, same⟩ := Lexeme.exists_mem_of_mem_number id member
    rw [render_draft, drafted]
    refine (rendered mode).1 ⟨lexeme, among, ?_⟩
    cases lexeme with
    | positional => trivial
    | plain | escaped | named => cases same
  · intro noMarker
    have quiet : ∀ lexeme ∈ Lexeme.list writer.stringRule .start t.text, ¬ lexeme.Asks := by
      intro lexeme among asks
      cases lexeme with
      | plain | escaped | named => exact asks
      | positional role =>
          obtain ⟨place, member⟩ := Lexeme.exists_mem_number_of_mem among (fun _ => id) 0
          exact noMarker role place member
    rw [render_draft, render_draft, drafted, Lexeme.unescape_eq_flatMap,
      Lexeme.unescape_eq_flatMap]
    exact ⟨(rendered .inline).2 quiet, (rendered .parameterized).2 quiet⟩
  · have within : t.text.take position <:+: t.text := (List.take_prefix position t.text).isInfix
    exact (Lexeme.finish_alike (fun prefixed => (apart prefixed).of_isInfix within)
      (.refl .start _)).isOutside_eq

/-- A slice, a cast, names, a quoted sign, escaped signs and backslashes in front of them. -/
def colons : Template where
  text := "a[1:n]::int \\? '\\:' \\:b, :c:, :d \\\\:".toList
  engine := .oracle

/-- A name that is text, and a question mark that asks for a value. -/
def unanswered : Template where
  text := "a = :a and b = ?".toList
  engine := .mySQL

/-- Only escapes outside quotes lose their backslash, and the question mark finds nothing. -/
theorem render_alone_colons :
    colons.render Engine.oracle.writer .inline =
        .ok ⟨"a[1:n]::int ? '\\:' :b, :c:, :d \\:".toList, []⟩ ∧
      colons.render Engine.oracle.writer .parameterized =
        .ok ⟨"a[1:n]::int \\? '\\:' :b, :c:, :d \\:".toList, []⟩ ∧
      ∀ mode, unanswered.render Engine.mySQL.writer mode =
        .error (.missingArgument (.index 0)) := by
  have noPosition : (Token.lex Engine.oracle.writer.stringRule colons.text).all
      fun token => token.position?.isNone := by decide +kernel
  have allDropped : colons.text.unescape Engine.oracle.writer.stringRule [.question, .colon] =
      "a[1:n]::int ? '\\:' :b, :c:, :d \\:".toList := by decide +kernel
  have colonsDropped : colons.text.unescape Engine.oracle.writer.stringRule [.colon] =
      "a[1:n]::int \\? '\\:' :b, :c:, :d \\:".toList := by decide +kernel
  obtain ⟨-, rendered, -⟩ := render_alone Engine.oracle.writer (t := colons) rfl
  obtain ⟨inline, parameters⟩ := rendered fun role position member =>
    absurd (List.all_eq_true.1 noPosition _ member) Bool.false_ne_true
  rw [allDropped] at inline
  rw [colonsDropped] at parameters
  refine ⟨inline, parameters, ?_⟩
  obtain ⟨missed, -, -⟩ := render_alone Engine.mySQL.writer (t := unanswered) rfl
  exact missed ⟨.value, 0, by decide +kernel⟩

end Template

end SqlTemplate
