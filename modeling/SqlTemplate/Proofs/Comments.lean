import SqlTemplate.Proofs.IdentifierPaths

/-!
# Comments in literals and paths

Two `-` next to each other outside quotes open a comment, which hides the rest of
the line.  Identifier paths and literals show no `-` outside quotes, with one
exception: a negative number starts with a `-`, and has no other.
-/

namespace SqlTemplate

namespace QuoteState

/-- Two `-` next to each other outside quotes. -/
def OpensComment (rule : StringRule) (state : QuoteState) (text : Text) : Prop :=
  ∃ front back, text = front ++ '-' :: '-' :: back ∧
    (state.run rule front).covers '-' = false ∧
    (state.run rule (front ++ ['-'])).covers '-' = false

/-- No `-` outside quotes has another `-` behind it. -/
def Calm (rule : StringRule) : QuoteState → Text → Prop
  | _, [] => True
  | state, c :: rest =>
      (c = '-' → state.covers c = false → rest.head? ≠ some '-') ∧ Calm rule (state.next rule c) rest

instance Calm.decidable (rule : StringRule) :
    ∀ (state : QuoteState) (text : Text), Decidable (Calm rule state text)
  | _, [] => .isTrue trivial
  | state, c :: rest =>
      have := Calm.decidable rule (state.next rule c) rest
      inferInstanceAs (Decidable (_ ∧ _))

variable {rule : StringRule} {state other : QuoteState} {front back text : Text}

theorem covers_next_dash (uncovered : state.covers '-' = false) :
    (state.next rule '-').covers '-' = false := by
  obtain ⟨before, rfl, noMark⟩ := covers_eq_false_iff.1 uncovered
  rw [next_outside noMark]
  rfl

theorem covers_next_of_covers_dash (covers : state.covers '-' = true) (c : Char) :
    (state.next rule '-').covers c = true := by
  cases state with
  | outside before => cases covers
  | inside mark hides => cases mark <;> cases hides <;> rfl
  | hidden mark => rfl

theorem calm_iff : Calm rule state text ↔ ¬ OpensComment rule state text := by
  induction text generalizing state with
  | nil =>
      refine iff_of_true trivial ?_
      rintro ⟨front, back, split, -⟩
      cases front <;> cases split
  | cons c rest ih =>
      rw [Calm, ih]
      constructor
      · rintro ⟨here, later⟩ ⟨front, back, split, first, second⟩
        cases front with
        | nil =>
            obtain ⟨rfl, rfl⟩ := List.cons.inj split
            exact here rfl first rfl
        | cons d front =>
            obtain ⟨rfl, rfl⟩ := List.cons.inj split
            exact later ⟨front, back, rfl, first, second⟩
      · intro calm
        constructor
        · rintro rfl uncovered next
          obtain ⟨tail, rfl⟩ := List.head?_eq_some_iff.1 next
          exact calm ⟨[], tail, rfl, uncovered, covers_next_dash uncovered⟩
        · rintro ⟨front, back, rfl, first, second⟩
          exact calm ⟨c :: front, back, rfl, first, second⟩

instance (rule : StringRule) (state : QuoteState) (text : Text) :
    Decidable (OpensComment rule state text) :=
  decidable_of_iff (¬ Calm rule state text) (not_iff_comm.1 calm_iff.symm)

/-- Text that shows no `-` opens no comment, neither in itself nor with what follows. -/
theorem calm_append (noDash : '-' ∉ unquoted rule state front) :
    Calm rule state (front ++ back) ↔ Calm rule (state.run rule front) back := by
  induction front generalizing state with
  | nil => exact Iff.rfl
  | cons c rest ih =>
      by_cases covers : state.covers c = true
      · rw [unquoted_cons_of_covers covers] at noDash
        refine (and_iff_right fun _ uncovered => ?_).trans (ih noDash)
        exact absurd covers (Bool.eq_false_iff.1 uncovered)
      · rw [unquoted_cons_plain (Bool.eq_false_iff.2 covers), List.mem_cons, not_or] at noDash
        exact (and_iff_right fun dash => absurd dash.symm noDash.1).trans (ih noDash.2)

theorem calm_append_of_notMem (noDash : '-' ∉ front) :
    Calm rule state (front ++ back) ↔ Calm rule (state.run rule front) back :=
  calm_append fun member => noDash (unquoted_subset front member)

theorem calm_dash_cons (uncovered : state.covers '-' = false) :
    Calm rule state ('-' :: text) ↔
      text.head? ≠ some '-' ∧ Calm rule (state.next rule '-') text :=
  and_congr_left' ⟨fun here => here rfl uncovered, fun single _ _ => single⟩

theorem head?_ne_dash {before : Preceding} (noDash : '-' ∉ unquoted rule (.outside before) text) :
    text.head? ≠ some '-' := by
  intro dash
  obtain ⟨rest, rfl⟩ := List.head?_eq_some_iff.1 dash
  exact noDash List.mem_cons_self

theorem Calm.behind (calm : Calm rule state (front ++ back)) :
    Calm rule (state.run rule front) back := by
  induction front generalizing state with
  | nil => exact calm
  | cons c rest ih => exact ih calm.2

end QuoteState

/-- A name of a time zone has neither single marks nor backslashes. -/
def Moment.PlainZone (m : Moment) : Prop :=
  ∀ name, m.zone = some name → ∀ c ∈ name, c ≠ QuoteMark.single.char ∧ c ≠ '\\'

theorem Timestamp.plain_zone {m : Moment} (plain : m.PlainZone) (form : ZoneForm) :
    ∀ c ∈ zone m form, c ≠ QuoteMark.single.char ∧ c ≠ '\\' := by
  have bare (form : ZoneForm) (noName : form ≠ .abbreviation) :
      ∀ c ∈ zone m form, c ≠ QuoteMark.single.char ∧ c ≠ '\\' :=
    QuoteState.ne_char_of_bare (bare_zone m noName)
  cases form with
  | absent | offset | compactOffset => exact bare _ nofun
  | abbreviation =>
      change ∀ c ∈ ' ' :: m.zone.getD (offset [':'] m.offset), _
      cases named : m.zone with
      | none => exact bare .offset nofun
      | some name => exact List.forall_mem_cons.2 ⟨by decide, plain name named⟩

namespace Engine

variable {engine : Engine} {before : Preceding} {value : Scalar} {text : Text}

theorem exists_reading_frame (engine : Engine) (before : Preceding) :
    ∃ hides lead visible, '-' ∉ lead ∧ '-' ∉ visible ∧
      QuoteState.reading engine.stringRule (.outside before) engine.timestampForm.opening =
        (.inside .single hides, lead) ∧
      QuoteState.reading engine.stringRule (.inside .single hides) engine.timestampForm.closing =
        (.outside .boundary, visible) := by
  cases engine <;> cases before <;> exact ⟨_, _, _, by decide, by decide, rfl, rfl⟩

theorem exists_reading_moment {m : Moment} (before : Preceding) (plain : engine = .postgreSQL → m.PlainZone)
    (written : Timestamp.write? engine.timestampForm m = some text) :
    ∃ visible, '-' ∉ visible ∧
      QuoteState.reading engine.stringRule (.outside before) text = (.outside .boundary, visible) := by
  cases set : m.isUnset with
  | true =>
      obtain rfl := Option.some.inj ((if_pos set).symm.trans written)
      refine ⟨[], List.not_mem_nil, ?_⟩
      cases engine <;> cases before <;> decide
  | false =>
      obtain ⟨time, rfl⟩ := Timestamp.exists_of_write? set written
      obtain ⟨hides, lead, visible, noLead, noVisible, opens, closes⟩ :=
        engine.exists_reading_frame before
      have zone : ∀ c ∈ Timestamp.zone m engine.timestampForm.zone,
          c ≠ QuoteMark.single.char ∧ c ≠ '\\' := by
        by_cases prefixed : engine = .postgreSQL
        · exact Timestamp.plain_zone (plain prefixed) _
        · refine QuoteState.ne_char_of_bare (Timestamp.bare_zone m ?_)
          cases engine <;> first | exact absurd rfl prefixed | decide
      have blank : Text.Bare [' '] := by decide
      have stamp := (Timestamp.bare_date time.date).append
        (blank.cons (Timestamp.bare_clock engine.timestampForm.places time.clock))
      have body : QuoteState.reading engine.stringRule (.inside .single hides) (_ ++ _) = _ :=
        QuoteState.reading_inside_plain
          (List.forall_mem_append.2 ⟨QuoteState.ne_char_of_bare stamp, zone⟩)
      refine ⟨lead ++ visible, List.not_mem_append noLead noVisible, ?_⟩
      have whole := QuoteState.reading_frame opens body closes
      simpa only [List.append_assoc, List.cons_append] using whole

theorem noDash_bytes {bytes : List UInt8} (written : engine.bytes? bytes = some text) :
    '-' ∉ text := by
  have digits : '-' ∉ Text.hex bytes := by
    have digit : ∀ n < 16, '-' ∉ [Text.hexDigit n] := by decide
    rw [Text.hex, List.mem_flatMap]
    rintro ⟨byte, -, member⟩
    have size := byte.toNat_lt
    exact List.not_mem_append (digit _ (by omega)) (digit _ (by omega)) member
  obtain ⟨frame, found, rfl⟩ := Option.map_eq_some_iff.1 written
  have around : '-' ∉ frame.1.toList ∧ '-' ∉ frame.2.toList := by
    cases engine with
    | informix | doris => cases found
    | _ =>
        obtain rfl := Option.some.inj found
        decide
  exact List.not_mem_append (List.not_mem_append around.1 digits) around.2

theorem run_bytes {bytes : List UInt8} (written : postgreSQL.bytes? bytes = some text) :
    QuoteState.run .escapePrefixed (.outside before) text = .outside .word := by
  obtain rfl := Option.some.inj written
  have opens : ∃ hides, QuoteState.run .escapePrefixed (.outside before) "E'\\\\x".toList =
      .inside .single hides := by
    cases before <;> exact ⟨_, rfl⟩
  obtain ⟨hides, opened⟩ := opens
  have body : QuoteState.run .escapePrefixed (.inside .single hides) (Text.hex bytes) = _ :=
    (Prod.mk.inj (QuoteState.reading_inside_bare (Text.bare_hex bytes))).1
  rw [QuoteState.run_append, QuoteState.run_append, opened, body]
  cases hides <;> rfl

theorem run_word (word : text ∈ Engine.words) (rule : StringRule) (before : Preceding) :
    QuoteState.run rule (.outside before) text = .outside .word := by
  simp only [words, List.mem_cons, List.not_mem_nil, or_false] at word
  rcases word with rfl | rfl | rfl | rfl | rfl <;> cases before <;> rfl

theorem head?_literal (written : engine.literal value = .ok text) :
    text ≠ [] ∧ (text.head? = some '-' ↔ value.isNegative = true) := by
  have starts (positive : value.isNegative = false)
      (head : ∃ c rest, text = c :: rest ∧ c ≠ '-') :
      text ≠ [] ∧ (text.head? = some '-' ↔ value.isNegative = true) := by
    obtain ⟨c, rest, rfl, noDash⟩ := head
    refine ⟨List.cons_ne_nil _ _, iff_of_false (fun dash => noDash (Option.some.inj dash)) ?_⟩
    exact ne_true_of_eq_false positive
  cases shape_literal written with
  | word positive word =>
      refine starts positive ?_
      simp only [words, List.mem_cons, List.not_mem_nil, or_false] at word
      rcases word with rfl | rfl | rfl | rfl | rfl <;> exact ⟨_, _, rfl, by decide⟩
  | numeral positive numeral => exact starts positive numeral.exists_cons
  | negative negative numeral => exact ⟨List.cons_ne_nil _ _, iff_of_true rfl negative⟩
  | string value =>
      refine starts rfl ?_
      cases engine <;> exact ⟨_, _, rfl, by decide⟩
  | bytes found =>
      refine starts rfl ?_
      obtain ⟨frame, framed, rfl⟩ := Option.map_eq_some_iff.1 found
      cases engine with
      | informix | doris => cases framed
      | _ =>
          obtain rfl := Option.some.inj framed
          exact ⟨_, _, rfl, by decide⟩
  | @moment m text found =>
      refine starts rfl ?_
      cases set : m.isUnset with
      | true =>
          obtain rfl := Option.some.inj ((if_pos set).symm.trans found)
          exact ⟨_, _, rfl, by decide⟩
      | false =>
          obtain ⟨time, rfl⟩ := Timestamp.exists_of_write? set found
          cases engine <;> exact ⟨_, _, rfl, by decide⟩

theorem exists_of_isNegative (negative : value.isNegative = true)
    (written : engine.literal value = .ok text) :
    ∃ digits : Text, text = '-' :: digits ∧ digits.IsNumeral := by
  cases shape_literal written with
  | word positive | numeral positive => cases positive.symm.trans negative
  | negative negative numeral => exact ⟨_, rfl, numeral⟩
  | string | bytes | moment => cases negative

/-- Where strings are prefixed, strings stand behind no word and zones have plain names. -/
structure Placed (before : Preceding) (value : Scalar) : Prop where
  string : ∀ text, value = .string text → before = .boundary
  moment : ∀ m, value = .moment m → m.PlainZone

theorem noDash_literal (placed : engine = .postgreSQL → Placed before value)
    (positive : value.isNegative = false) (written : engine.literal value = .ok text) :
    '-' ∉ QuoteState.unquoted engine.stringRule (.outside before) text := by
  have plain (noDash : '-' ∉ text) :
      '-' ∉ QuoteState.unquoted engine.stringRule (.outside before) text :=
    fun member => noDash (QuoteState.unquoted_subset text member)
  cases shape_literal written with
  | word positive word =>
      have all : ∀ text ∈ words, '-' ∉ text := by decide
      exact plain (all text word)
  | numeral positive numeral => exact plain numeral.noDash
  | negative negative numeral => cases positive.symm.trans negative
  | string value =>
      have shown := (Prod.mk.inj (reading_string (fun prefixed => (placed prefixed).string _ rfl) value)).2
      rw [shown]
      cases engine <;> decide
  | bytes found => exact plain (noDash_bytes found)
  | moment found =>
      obtain ⟨visible, noDash, read⟩ :=
        exists_reading_moment before (fun prefixed => (placed prefixed).moment _ rfl) found
      rw [(Prod.mk.inj read).2]
      exact noDash

/-- Where strings are prefixed, the literal of a value ends at a boundary or in a word. -/
theorem run_literal_postgreSQL (placed : Placed before value)
    (written : postgreSQL.literal value = .ok text) :
    QuoteState.run .escapePrefixed (.outside before) text = .outside .boundary ∨
      QuoteState.run .escapePrefixed (.outside before) text = .outside .word := by
  cases shape_literal written with
  | word positive word => exact .inr (run_word word _ before)
  | numeral positive numeral => exact .inr (numeral.run_eq_word _ before)
  | negative negative numeral =>
      have dash : (QuoteState.outside before).next .escapePrefixed '-' = .outside .boundary := by
        cases before <;> rfl
      rw [QuoteState.run_cons, dash]
      exact .inr (numeral.run_eq_word _ _)
  | string value =>
      exact .inl (Prod.mk.inj (@reading_string .postgreSQL _ (fun _ => placed.string _ rfl) value)).1
  | bytes found => exact .inr (run_bytes found)
  | moment found =>
      obtain ⟨visible, noDash, read⟩ :=
        @exists_reading_moment .postgreSQL _ _ before (fun _ => placed.moment _ rfl) found
      exact .inl (Prod.mk.inj read).1

theorem noDash_wrapPath (engine : Engine) (path : Text) (rule : StringRule) (before : Preceding) :
    '-' ∉ QuoteState.unquoted rule (.outside before) (engine.writer.wrapPath path) := by
  have noDash : '-' ∉ Identifier.joined ((Identifier.names path).map (List.map Identifier.shown)) := by
    have written := Identifier.written_names engine.nameMark.char path
    refine Identifier.rel_joined (fun _ visible => '-' ∉ visible) ?_
      (Identifier.forall₂_names fun name _ => ?_) written.nonempty written.parts_nonempty
    · intro separator member first second front back inFront inBack
      have between : '-' ∉ separator := by
        rcases List.mem_pair.1 member with rfl | rfl <;> decide
      exact List.not_mem_append (List.not_mem_append inFront between) inBack
    · unfold Identifier.shown
      split
      · next star =>
          rw [star]
          decide
      · exact List.not_mem_nil
  rwa [(Prod.mk.inj (shows_wrapPath engine path rule before)).2]

theorem head?_wrapPath (engine : Engine) (path : Text) :
    engine.writer.wrapPath path ≠ [] ∧ (engine.writer.wrapPath path).head? ≠ some '-' := by
  constructor
  · intro empty
    have run := (Prod.mk.inj (shows_wrapPath engine path .standard .word)).1
    rw [empty] at run
    cases run
  · exact QuoteState.head?_ne_dash (noDash_wrapPath engine path .standard .boundary)

end Engine

end SqlTemplate
