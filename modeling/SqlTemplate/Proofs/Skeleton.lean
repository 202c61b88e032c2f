import SqlTemplate.Proofs.ClosedArguments
import SqlTemplate.Proofs.Placeholders

/-!
# The text between the parameters

What stands at a position of a statement is told by the quotes in front of it.
A question mark outside quotes is the place of a parameter, unless a backslash
outside quotes stands before it; then the backslash is dropped and the question
mark is text.  The places cut the text into chunks.  A driver is given the
chunks as they are, with its own placeholders between them, and so nothing but
the places and those backslashes depends on the driver.
-/

namespace SqlTemplate

section Results

variable {ε α β γ : Type}

theorem mapM_cons_eq (f : α → Except ε β) (first : α) (rest : List α) :
    (first :: rest).mapM f = (f first).bind fun head => (rest.mapM f).map (head :: ·) := by
  rw [List.mapM_cons]
  cases f first with
  | error failure => rfl
  | ok head => cases rest.mapM f <;> rfl

theorem map_map_eq {f : α → β} {g : β → γ} {h : α → γ} (result : Except ε α)
    (same : ∀ value, g (f value) = h value) : (result.map f).map g = result.map h := by
  cases result with
  | error failure => rfl
  | ok value => exact congrArg Except.ok (same value)

end Results

namespace Text

/-- Chunks of text with a filler between each two of them. -/
def weave : List Text → List Text → Text
  | [], _ => []
  | first :: rest, fillers => first ++ (List.zipWith (· ++ ·) fillers rest).flatten

/-- The chunks between the positions of cuts, without the characters that are dropped. -/
def chunks (cut drop : Nat → Bool) (cells : List (Char × Nat)) : List Text :=
  (cells.splitOnP fun cell => cut cell.2).map fun chunk =>
    (chunk.filter fun cell => !drop cell.2).map Prod.fst

variable {cut drop : Nat → Bool} {c : Char} {position : Nat} {cells : List (Char × Nat)}
  {first : Text} {texts fillers : List Text}

theorem weave_nil_cons (filler : Text) (nonempty : texts ≠ []) :
    weave ([] :: texts) (filler :: fillers) = filler ++ weave texts fillers := by
  obtain ⟨first, rest, rfl⟩ := List.exists_cons_of_ne_nil nonempty
  simp [weave]

theorem weave_modifyHead (c : Char) (nonempty : texts ≠ []) :
    weave (texts.modifyHead (c :: ·)) fillers = c :: weave texts fillers := by
  obtain ⟨first, rest, rfl⟩ := List.exists_cons_of_ne_nil nonempty
  rfl

theorem chunks_ne_nil : chunks cut drop cells ≠ [] := by
  rw [chunks, ne_eq, List.map_eq_nil_iff]
  exact List.splitOnP_ne_nil _ cells

theorem chunks_cut (isCut : cut position = true) :
    chunks cut drop ((c, position) :: cells) = [] :: chunks cut drop cells := by
  rw [chunks, List.splitOnP_cons_eq_if_modifyHead, if_pos isCut]
  rfl

theorem chunks_dropped (noCut : cut position = false) (dropped : drop position = true) :
    chunks cut drop ((c, position) :: cells) = chunks cut drop cells := by
  obtain ⟨first, rest, split⟩ := List.exists_cons_of_ne_nil
    (List.splitOnP_ne_nil (fun cell : Char × Nat => cut cell.2) cells)
  rw [chunks, chunks, List.splitOnP_cons_eq_if_modifyHead, if_neg (Bool.eq_false_iff.1 noCut),
    split]
  simp [dropped]

theorem chunks_kept (noCut : cut position = false) (kept : drop position = false) :
    chunks cut drop ((c, position) :: cells) =
      (chunks cut drop cells).modifyHead (c :: ·) := by
  obtain ⟨first, rest, split⟩ := List.exists_cons_of_ne_nil
    (List.splitOnP_ne_nil (fun cell : Char × Nat => cut cell.2) cells)
  rw [chunks, chunks, List.splitOnP_cons_eq_if_modifyHead, if_neg (Bool.eq_false_iff.1 noCut),
    split]
  simp [kept]

theorem length_chunks (text : Text) (position : Nat) :
    (chunks cut drop (text.zipIdx position)).length =
      (List.range' position text.length).countP cut + 1 := by
  induction text generalizing position with
  | nil => rfl
  | cons c rest ih =>
      rw [List.zipIdx_cons, List.length_cons, List.range'_succ, List.countP_cons]
      cases isCut : cut position with
      | true => rw [chunks_cut isCut, List.length_cons, ih, if_pos rfl]
      | false =>
          cases dropped : drop position with
          | true => rw [chunks_dropped isCut dropped, ih]; simp
          | false => rw [chunks_kept isCut dropped, List.length_modifyHead, ih]; simp

theorem eq_weave_chunks {text : Text} {position : Nat}
    (same : ∀ i, cut (position + i) = true → text[i]? = some c) :
    text = weave (chunks cut (fun _ => false) (text.zipIdx position))
      (List.replicate ((List.range' position text.length).countP cut) [c]) := by
  induction text generalizing position with
  | nil => rfl
  | cons d rest ih =>
      have behind : ∀ i, cut (position + 1 + i) = true → rest[i]? = some c := fun i isCut =>
        same (i + 1) (by rwa [Nat.add_comm i, ← Nat.add_assoc])
      have later := ih behind
      rw [List.zipIdx_cons, List.length_cons, List.range'_succ, List.countP_cons]
      cases isCut : cut position with
      | true =>
          obtain rfl := Option.some.inj (same 0 isCut)
          rw [chunks_cut isCut, if_pos rfl, List.replicate_succ, weave_nil_cons _ chunks_ne_nil,
            ← later]
          rfl
      | false =>
          rw [chunks_kept isCut rfl, weave_modifyHead _ chunks_ne_nil]
          simpa using later

end Text

namespace Statement

def shows (s : Statement) (c : Char) (position : Nat) : Bool :=
  s.text[position]? == some c &&
    !(QuoteState.run s.stringRule .start (s.text.take position)).covers c

/-- Whether a backslash stands at a position, outside quotes and before a question mark. -/
def escapes (s : Statement) (position : Nat) : Bool :=
  s.shows '\\' position && s.text[position + 1]? == some '?'

/-- Whether a question mark stands at a position, outside quotes and not escaped. -/
def isPlace (s : Statement) : Nat → Bool
  | 0 => s.shows '?' 0
  | position + 1 => s.shows '?' (position + 1) && !s.escapes position

def places (s : Statement) : List Nat :=
  (List.range s.text.length).filter s.isPlace

/-- The chunks between the parameters, as they stand in the text. -/
def written (s : Statement) : List Text :=
  Text.chunks s.isPlace (fun _ => false) s.text.zipIdx

/-- The chunks between the parameters, without the backslashes of escaped question marks. -/
def shown (s : Statement) : List Text :=
  Text.chunks s.isPlace s.escapes s.text.zipIdx

variable {s : Statement} {front rest : Text} {c : Char}

theorem shows_length (split : s.text = front ++ c :: rest) (d : Char) :
    s.shows d front.length =
      (c == d && !(QuoteState.run s.stringRule .start front).covers d) := by
  rw [shows, split, List.getElem?_append_right (Nat.le_refl _), Nat.sub_self,
    List.getElem?_cons_zero, List.take_left]
  rfl

theorem escapes_length (split : s.text = front ++ c :: rest) :
    s.escapes front.length =
      (c == '\\' && !(QuoteState.run s.stringRule .start front).covers '\\' &&
        rest.head? == some '?') := by
  have behind : s.text[front.length + 1]? = rest.head? := by
    rw [split, List.append_cons, List.getElem?_append_right (by simp)]
    simp [List.head?_eq_getElem?]
  rw [escapes, shows_length split, behind]

/-- No question mark behind the text is escaped by what is in the text. -/
def Clear (s : Statement) (front : Text) : Prop :=
  ∀ position, position + 1 = front.length → s.escapes position = false

theorem isPlace_length (clear : s.Clear front) (split : s.text = front ++ c :: rest) :
    s.isPlace front.length =
      (c == '?' && !(QuoteState.run s.stringRule .start front).covers '?') := by
  rw [← shows_length split]
  cases count : front.length with
  | zero => rfl
  | succ position => rw [isPlace, clear position count.symm, Bool.not_false, Bool.and_true]

theorem Clear.concat (c : Char) (noEscape : s.escapes front.length = false) :
    s.Clear (front ++ [c]) := by
  intro position last
  rw [List.length_append, List.length_singleton] at last
  rwa [Nat.add_right_cancel last]

/-- The pieces that are found agree with what is told of the positions. -/
inductive Aligned (s : Statement) : Nat → Text → List Piece → Prop where
  | nil (position : Nat) : Aligned s position [] []
  | parameter {position : Nat} {rest : Text} {pieces : List Piece}
      (place : s.isPlace position = true) (later : Aligned s (position + 1) rest pieces) :
      Aligned s position ('?' :: rest) (.parameter :: pieces)
  | plain {position : Nat} {c : Char} {rest : Text} {pieces : List Piece}
      (noPlace : s.isPlace position = false) (noEscape : s.escapes position = false)
      (later : Aligned s (position + 1) rest pieces) :
      Aligned s position (c :: rest) (.plain c :: pieces)
  | question {position : Nat} {rest : Text} {pieces : List Piece}
      (noPlace : s.isPlace position = false) (escape : s.escapes position = true)
      (textBehind : s.isPlace (position + 1) = false)
      (keptBehind : s.escapes (position + 1) = false)
      (later : Aligned s (position + 2) rest pieces) :
      Aligned s position ('\\' :: '?' :: rest) (.question :: pieces)

theorem Aligned.covered {pieces : List Piece} (clear : s.Clear front)
    (split : s.text = front ++ c :: rest)
    (covers : (QuoteState.run s.stringRule .start front).covers c = true)
    (later : s.Clear (front ++ [c]) → s.Aligned (front.length + 1) rest pieces) :
    s.Aligned front.length (c :: rest) (.plain c :: pieces) := by
  have hidden (d : Char) :
      (c == d && !(QuoteState.run s.stringRule .start front).covers d) = false := by
    by_cases same : c = d
    · rw [← same, covers, Bool.not_true, Bool.and_false]
    · simp [same]
  have noPlace : s.isPlace front.length = false := (isPlace_length clear split).trans (hidden '?')
  have noEscape : s.escapes front.length = false := by
    rw [escapes_length split, hidden, Bool.false_and]
  exact .plain noPlace noEscape (later (.concat c noEscape))

/-- Reading a text from some character on finds what is told of the positions behind. -/
theorem aligned_list (clear : s.Clear front) (split : s.text = front ++ rest) :
    s.Aligned front.length rest
      (Piece.list s.stringRule (QuoteState.run s.stringRule .start front) rest) := by
  generalize entered : QuoteState.run s.stringRule .start front = state
  induction state, rest using Piece.list.induct s.stringRule generalizing front with
  | case1 state => exact .nil front.length
  | case2 state rest covers ih =>
      subst entered
      rw [Piece.list_cons_of_covers covers]
      refine .covered clear split covers fun behind => ?_
      have later := ih behind (split.trans (List.append_cons ..))
        (QuoteState.run_append ..)
      rwa [List.length_append] at later
  | case3 state rest covers ih =>
      have uncovered : state.covers '\\' = false := Bool.eq_false_iff.2 covers
      obtain ⟨before, rfl, -⟩ := QuoteState.covers_eq_false_iff.1 uncovered
      have escape : s.escapes front.length = true := by
        rw [escapes_length split, entered, uncovered]
        rfl
      have noPlace : s.isPlace front.length = false := isPlace_length clear split
      have textBehind : s.isPlace (front.length + 1) = false := by
        rw [isPlace, escape, Bool.not_true, Bool.and_false]
      have keptBehind : s.escapes (front ++ ['\\']).length = false :=
        escapes_length (split.trans (List.append_cons ..))
      have clearBehind : s.Clear (front ++ ['\\'] ++ ['?']) := .concat '?' keptBehind
      have later := ih clearBehind (split.trans (by simp))
        (by simp [QuoteState.run_append, entered])
      rw [List.length_append] at keptBehind
      rw [List.append_assoc, List.length_append] at later
      rw [Piece.list_escaped]
      refine .question noPlace escape textBehind keptBehind ?_
      simpa using later
  | case4 state c rest noPair ih =>
      subst entered
      have later (behind : s.Clear (front ++ [c])) :=
        ih behind (split.trans (List.append_cons ..)) (QuoteState.run_append ..)
      rw [List.length_append] at later
      by_cases covers : (QuoteState.run s.stringRule .start front).covers c = true
      · rw [Piece.list_cons_of_covers covers]
        exact .covered clear split covers later
      · have uncovered := Bool.eq_false_iff.2 covers
        by_cases question : c = '?'
        · subst question
          obtain ⟨before, outside, -⟩ := QuoteState.covers_eq_false_iff.1 uncovered
          have place : s.isPlace front.length = true := by
            rw [isPlace_length clear split, uncovered]
            rfl
          have noEscape : s.escapes front.length = false := by
            rw [escapes_length split]
            rfl
          rw [outside, Piece.list_question]
          refine .parameter place ?_
          simpa [outside] using later (.concat '?' noEscape)
        · have alone : Piece.SafeCut [c] rest := by
            intro slash first
            obtain ⟨others, rfl⟩ := List.head?_eq_some_iff.1 first
            exact noPair others (by simpa using slash) rfl
          have noPlace : s.isPlace front.length = false := by
            rw [isPlace_length clear split]
            simp [question]
          have noEscape : s.escapes front.length = false := by
            rw [escapes_length split]
            by_cases slash : c = '\\'
            · simp [alone (congrArg some slash)]
            · simp [slash]
          rw [Piece.list_cons_plain uncovered question alone]
          exact .plain noPlace noEscape (later (.concat c noEscape))

namespace Aligned

variable {position : Nat} {pieces : List Piece}

theorem count_eq (aligned : s.Aligned position rest pieces) :
    pieces.count .parameter = (List.range' position rest.length).countP s.isPlace := by
  induction aligned with
  | nil position => rfl
  | parameter place later ih =>
      rw [List.count_cons_self, ih, List.length_cons, List.range'_succ,
        List.countP_cons_of_pos place]
  | plain noPlace noEscape later ih =>
      rw [List.count_cons_of_ne (by simp), ih, List.length_cons, List.range'_succ,
        List.countP_cons_of_neg (Bool.eq_false_iff.1 noPlace)]
  | question noPlace escape textBehind keptBehind later ih =>
      rw [List.count_cons_of_ne (by simp), ih, List.length_cons, List.length_cons,
        List.range'_succ, List.range'_succ,
        List.countP_cons_of_neg (Bool.eq_false_iff.1 noPlace),
        List.countP_cons_of_neg (Bool.eq_false_iff.1 textBehind)]

/-- Filling pieces asks for all parameters first, and then puts them between the chunks. -/
theorem fill_eq {ε : Type} (aligned : s.Aligned position rest pieces)
    (parameter : Nat → Except ε Text) (number : Nat) :
    Piece.fill parameter number pieces =
      ((List.range' number (pieces.count .parameter)).mapM parameter).map
        (Text.weave (Text.chunks s.isPlace s.escapes (rest.zipIdx position))) := by
  induction aligned generalizing number with
  | nil position => rfl
  | parameter place later ih =>
      rw [Piece.fill, ih, List.zipIdx_cons, Text.chunks_cut place, List.count_cons_self,
        List.range'_succ, mapM_cons_eq]
      cases parameter number with
      | error failure => rfl
      | ok text =>
          refine (map_map_eq _ fun texts => ?_).trans (map_map_eq _ fun texts => rfl).symm
          exact (Text.weave_nil_cons text Text.chunks_ne_nil).symm
  | plain noPlace noEscape later ih =>
      rw [Piece.fill, ih, List.zipIdx_cons, Text.chunks_kept noPlace noEscape,
        List.count_cons_of_ne (by simp)]
      refine map_map_eq _ fun texts => ?_
      exact (Text.weave_modifyHead _ Text.chunks_ne_nil).symm
  | question noPlace escape textBehind keptBehind later ih =>
      rw [Piece.fill, ih, List.zipIdx_cons, List.zipIdx_cons,
        Text.chunks_dropped noPlace escape, Text.chunks_kept textBehind keptBehind,
        List.count_cons_of_ne (by simp)]
      refine map_map_eq _ fun texts => ?_
      exact (Text.weave_modifyHead _ Text.chunks_ne_nil).symm

theorem write_eq (aligned : s.Aligned position rest pieces) (parameter : Nat → Text)
    (number : Nat) :
    Piece.write parameter number pieces =
      Text.weave (Text.chunks s.isPlace s.escapes (rest.zipIdx position))
        ((List.range' number (pieces.count .parameter)).map parameter) := by
  have filled := aligned.fill_eq (fun place => (.ok (parameter place) : Except Empty Text)) number
  rw [Piece.fill_ok] at filled
  apply Except.ok.inj
  exact filled.trans (congrArg _ List.mapM_pure)

end Aligned

theorem clear_nil (s : Statement) : s.Clear [] :=
  fun _ last => absurd last (Nat.succ_ne_zero _)

theorem aligned_pieces (s : Statement) : s.Aligned 0 s.text s.pieces :=
  aligned_list s.clear_nil rfl

theorem length_places (s : Statement) :
    s.places.length = (List.range' 0 s.text.length).countP s.isPlace := by
  rw [places, List.countP_eq_length_filter, List.range_eq_range']

/-- The parameters that are found are at the places that are told. -/
theorem parameterCount_eq (s : Statement) : s.parameterCount = s.places.length := by
  rw [length_places]
  exact s.aligned_pieces.count_eq

theorem length_written (s : Statement) : s.written.length = s.places.length + 1 := by
  rw [length_places]
  exact Text.length_chunks s.text 0

theorem length_shown (s : Statement) : s.shown.length = s.places.length + 1 := by
  rw [length_places]
  exact Text.length_chunks s.text 0

theorem eq_question_of_isPlace {position : Nat} (place : s.isPlace position = true) :
    s.text[position]? = some '?' := by
  have shown : s.shows '?' position = true := by
    cases position with
    | zero => exact place
    | succ position => exact (Bool.and_eq_true_iff.1 place).1
  exact eq_of_beq (Bool.and_eq_true_iff.1 shown).1

theorem text_eq_weave (s : Statement) :
    s.text = Text.weave s.written (List.replicate s.places.length ['?']) := by
  rw [length_places]
  apply Text.eq_weave_chunks
  intro i place
  rw [Nat.zero_add] at place
  exact eq_question_of_isPlace place

/-- Whatever stands for the parameters is put between the same chunks. -/
theorem write_pieces_eq (s : Statement) (parameter : Nat → Text) :
    Piece.write parameter 0 s.pieces =
      Text.weave s.shown ((List.range s.places.length).map parameter) := by
  rw [← parameterCount_eq, List.range_eq_range']
  exact s.aligned_pieces.write_eq parameter 0

theorem native_eq (s : Statement) (style : PlaceholderStyle) :
    s.native style =
      ⟨Text.weave s.shown ((List.range s.places.length).map style.write), s.values⟩ := by
  rw [native, write_pieces_eq]

/--
For every style a driver is given the same chunks of the text with its own
placeholders between them, numbered from left to right, and the same values.
The placeholders are question marks, or the numbers from one behind the sign of
the style.  The chunks with question marks between them are the text, apart from
the backslashes of escaped question marks.
-/
theorem native_eq_weave (s : Statement) :
    s.written.length = s.places.length + 1 ∧ s.shown.length = s.places.length + 1 ∧
      s.text = Text.weave s.written (List.replicate s.places.length ['?']) ∧
      (∀ style : PlaceholderStyle, s.native style =
        ⟨Text.weave s.shown ((List.range s.places.length).map style.write), s.values⟩) ∧
      (∀ (style : PlaceholderStyle) (position : Nat) (text : Text),
        style.Marks (position + 1) text ↔ text = style.write position) ∧
      ∀ (style : PlaceholderStyle) (first second : Nat),
        style.write first = style.write second ↔ style = .question ∨ first = second :=
  ⟨s.length_written, s.length_shown, s.text_eq_weave, s.native_eq,
    fun _ _ _ => PlaceholderStyle.marks_iff, fun _ _ _ => PlaceholderStyle.write_eq_write_iff⟩

example : (native { text := "a = ? and b \\? '?' or c = ?".toList, values := [] } .atSign).text =
    "a = @p1 and b ? '?' or c = @p2".toList := by decide +kernel

end Statement

end SqlTemplate
