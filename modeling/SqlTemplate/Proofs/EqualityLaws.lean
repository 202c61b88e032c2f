import SqlTemplate.Proofs.DayNumbers
import SqlTemplate.Proofs.EqualArguments
import SqlTemplate.Proofs.LastWrites

/-!
# The laws of equality

Equality of arguments is symmetric and transitive, but not reflexive: a NaN
differs from everything, and a fragment is never compared.  These are the only
gaps, at whatever depth of lists they are.

Named arguments are equal when every name stands for equal arguments, in whatever
order they were given, and moments when they are one instant with one
abbreviation.  Under one offset this means that they are the same, and under two
offsets the local times are as far apart as the offsets.
-/

namespace SqlTemplate

theorem forall₂_symm {α : Type} {related : α → α → Prop} {first second : List α}
    (symm : ∀ a ∈ first, ∀ b, related a b → related b a)
    (same : List.Forall₂ related first second) : List.Forall₂ related second first := by
  have both := (List.forall₂_and_left first second).2 ⟨symm, same⟩
  exact (both.imp fun a b here => here.1 b here.2).flip

theorem forall₂_trans {α : Type} {related : α → α → Prop} {first second third : List α}
    (trans : ∀ a ∈ first, ∀ b c, related a b → related b c → related a c)
    (same : List.Forall₂ related first second) (other : List.Forall₂ related second third) :
    List.Forall₂ related first third := by
  induction same generalizing third with
  | nil => exact other
  | @cons a b _ _ here _ ih =>
      cases other with
      | @cons _ c _ _ next later =>
          obtain ⟨atHead, atRest⟩ := List.forall_mem_cons.1 trans
          exact .cons (atHead b c here next) (ih atRest later)

namespace Binary64

variable {x y : Binary64}

theorem beq_iff :
    (x == y) = true ↔ (x.isNaN = false ∧ y.isNaN = false) ∧ (x = y ∨ x.isZero ∧ y.isZero) := by
  have bits : x.bits = y.bits ↔ x = y := by
    cases x
    cases y
    simp
  change equal x y = true ↔ _
  simp [equal, bits]

theorem beq_self_iff : (x == x) = true ↔ x.isNaN = false := by
  rw [beq_iff]
  simp

instance : PartialEquivBEq Binary64 where
  symm same := by
    obtain ⟨⟨first, second⟩, same⟩ := beq_iff.1 same
    exact beq_iff.2 ⟨⟨second, first⟩, same.imp Eq.symm And.symm⟩
  trans same other := by
    obtain ⟨⟨first, -⟩, same⟩ := beq_iff.1 same
    obtain ⟨⟨-, third⟩, other⟩ := beq_iff.1 other
    refine beq_iff.2 ⟨⟨first, third⟩, ?_⟩
    rcases same with rfl | ⟨zero, middle⟩
    · exact other
    · rcases other with rfl | ⟨-, last⟩
      · exact .inr ⟨zero, middle⟩
      · exact .inr ⟨zero, last⟩

end Binary64

namespace Moment

variable {m n : Moment}

theorem beq_iff : (m == n) = true ↔ m.instant = n.instant ∧ m.zone = n.zone := by
  change equal m n = true ↔ _
  simp [equal]

/-- Under one offset no local time is equal to another one. -/
theorem beq_iff_of_offset (t u : LocalTime) (offset : ZoneOffset) (zone other : Option Text) :
    ((⟨t, offset, zone⟩ : Moment) == ⟨u, offset, other⟩) = true ↔ t = u ∧ zone = other := by
  rw [beq_iff, instant, instant, Int.sub_left_inj, LocalTime.nanos_injective.eq_iff]

/-- Under another offset the same instant is shown by the local time that the offsets differ by. -/
theorem beq_iff_of_offsets (t u : LocalTime) (offset shifted : ZoneOffset)
    (zone other : Option Text) :
    ((⟨t, offset, zone⟩ : Moment) == ⟨u, shifted, other⟩) = true ↔
      u.nanos = t.nanos + (shifted.seconds - offset.seconds) * 1000000000 ∧ zone = other := by
  have apart : t.nanos - offset.seconds * 1000000000 = u.nanos - shifted.seconds * 1000000000 ↔
      u.nanos = t.nanos + (shifted.seconds - offset.seconds) * 1000000000 := by omega
  rw [beq_iff, instant, instant, apart]

instance : EquivBEq Moment where
  symm same := beq_iff.2 ((beq_iff.1 same).imp Eq.symm Eq.symm)
  trans same other := by
    obtain ⟨instant, zone⟩ := beq_iff.1 same
    obtain ⟨next, last⟩ := beq_iff.1 other
    exact beq_iff.2 ⟨instant.trans next, zone.trans last⟩
  rfl := beq_iff.2 ⟨rfl, rfl⟩

end Moment

namespace Scalar

variable {value : Scalar}

instance : PartialEquivBEq Scalar where
  symm same := by
    cases equal_of_beq same with
    | same equal =>
        subst equal
        exact same
    | float equal => exact (PartialEquivBEq.symm equal :)
    | moment equal => exact (PartialEquivBEq.symm equal :)
  trans same other := by
    cases equal_of_beq same with
    | same equal =>
        subst equal
        exact other
    | float equal =>
        cases equal_of_beq other with
        | same equal =>
            subst equal
            exact same
        | float next => exact (PartialEquivBEq.trans equal next :)
    | moment equal =>
        cases equal_of_beq other with
        | same equal =>
            subst equal
            exact same
        | moment next => exact (PartialEquivBEq.trans equal next :)

theorem beq_self_iff :
    (value == value) = true ↔ ∀ number, value = .float number → number.isNaN = false := by
  cases value with
  | null => exact iff_of_true rfl nofun
  | boolean a | signed a | unsigned a | string a | bytes a =>
      exact iff_of_true (beq_self_eq_true a) nofun
  | moment m => exact iff_of_true (beq_self_eq_true m) nofun
  | float x =>
      have numbers : (Scalar.float x == .float x) = (x == x) := rfl
      rw [numbers, Binary64.beq_self_iff]
      simp

end Scalar

namespace Argument

variable {x y z : Argument} {items twins : List Argument}

theorem beq_list_iff :
    ((Argument.list items) == .list twins) = true ↔
      List.Forall₂ (fun a b => (a == b) = true) items twins :=
  equalItems_iff_forall₂

theorem beq_symm (same : (x == y) = true) : (y == x) = true := by
  induction x using nested_induction generalizing y with
  | scalar value =>
      cases equal_of_beq same with
      | scalar equal => exact (PartialEquivBEq.symm equal :)
  | list items ih =>
      cases equal_of_beq same with
      | list itemwise =>
          exact beq_list_iff.2 (forall₂_symm (fun a member _ => ih a member) itemwise)
  | template text arguments => cases equal_of_beq same
  | statement compiled => cases equal_of_beq same

theorem beq_trans (same : (x == y) = true) (other : (y == z) = true) : (x == z) = true := by
  induction x using nested_induction generalizing y z with
  | scalar value =>
      cases equal_of_beq same with
      | scalar equal =>
          cases equal_of_beq other with
          | scalar next => exact (PartialEquivBEq.trans equal next :)
  | list items ih =>
      cases equal_of_beq same with
      | list itemwise =>
          cases equal_of_beq other with
          | list later =>
              exact beq_list_iff.2
                (forall₂_trans (fun a member _ _ => ih a member) itemwise later)
  | template text arguments => cases equal_of_beq same
  | statement compiled => cases equal_of_beq same

instance : PartialEquivBEq Argument := ⟨beq_symm, beq_trans⟩

/-- An argument contains itself, and a list what its items contain. -/
inductive Contains : Argument → Argument → Prop where
  | self (x : Argument) : Contains x x
  | item {items : List Argument} {item part : Argument} (member : item ∈ items)
      (inside : Contains item part) : Contains (.list items) part

/-- At no depth a NaN or a fragment. -/
def Regular (x : Argument) : Prop :=
  ∀ part, x.Contains part →
    part.kind ≠ .fragment ∧ ∀ number, part = .scalar (.float number) → number.isNaN = false

theorem regular_scalar_iff {value : Scalar} :
    (Argument.scalar value).Regular ↔ ∀ number, value = .float number → number.isNaN = false := by
  constructor
  · intro regular number same
    exact (regular _ (.self _)).2 number (congrArg _ same)
  · intro defined part inside
    cases inside
    refine ⟨?_, fun number same => defined number (scalar.inj same)⟩
    cases value <;> nofun

theorem regular_list_iff :
    (Argument.list items).Regular ↔ ∀ item ∈ items, item.Regular := by
  constructor
  · exact fun regular item member part inside => regular part (.item member inside)
  · intro regular part inside
    cases inside with
    | self => exact ⟨nofun, nofun⟩
    | item member deeper => exact regular _ member part deeper

theorem not_regular_of_fragment (fragment : x.kind = .fragment) : ¬ x.Regular :=
  fun regular => (regular x (.self x)).1 fragment

theorem beq_self_iff_regular : (x == x) = true ↔ x.Regular := by
  induction x using nested_induction with
  | scalar value => exact Scalar.beq_self_iff.trans regular_scalar_iff.symm
  | list items ih =>
      rw [beq_list_iff, List.forall₂_same, regular_list_iff]
      exact forall₂_congr ih
  | template text arguments => exact iff_of_false nofun (not_regular_of_fragment rfl)
  | statement compiled => exact iff_of_false nofun (not_regular_of_fragment rfl)

end Argument

namespace Arguments

variable {given others third : Arguments Argument} {items : List Argument}
  {entries : List (Text × Argument)}

namespace Equal

theorem beq (equal : given.Equal others) : (given == others) = true := by
  cases equal with
  | positional same => exact forall₂_beq_iff.2 same
  | named same =>
      refine forall₂_beq_iff.2 (same.imp fun a b here => ?_)
      exact Bool.and_eq_true_iff.2 ⟨beq_iff_eq.2 here.1, here.2⟩

theorem symm (equal : given.Equal others) : others.Equal given := by
  cases equal with
  | positional same => exact .positional (forall₂_symm (fun _ _ _ => Argument.beq_symm) same)
  | named same =>
      exact .named (forall₂_symm (fun _ _ _ here => ⟨here.1.symm, Argument.beq_symm here.2⟩) same)

theorem trans (equal : given.Equal others) (next : others.Equal third) : given.Equal third := by
  cases equal with
  | positional same =>
      cases next with
      | positional other =>
          exact .positional (forall₂_trans (fun _ _ _ _ => Argument.beq_trans) same other)
  | named same =>
      cases next with
      | named other =>
          exact .named (forall₂_trans
            (fun _ _ _ _ here next => ⟨here.1.trans next.1, Argument.beq_trans here.2 next.2⟩)
            same other)

end Equal

instance : PartialEquivBEq (Arguments Argument) where
  symm same := (equal_of_beq same).symm.beq
  trans same other := ((equal_of_beq same).trans (equal_of_beq other)).beq

theorem beq_self_iff_regular : (given == given) = true ↔ ∀ x ∈ given.held, x.Regular := by
  have itself : (given == given) = true ↔ ∀ x ∈ given.held, (x == x) = true := by
    cases given with
    | positional items => exact forall₂_beq_iff.trans List.forall₂_same
    | named entries =>
        rw [held, List.forall_mem_map]
        refine (forall₂_beq_iff.trans List.forall₂_same).trans (forall₂_congr fun a _ => ?_)
        change (a.1 == a.1 && a.2 == a.2) = true ↔ _
        simp
  rw [itself]
  exact forall₂_congr fun x _ => Argument.beq_self_iff_regular

/-- Named arguments are equal when every name stands for equal arguments. -/
theorem beq_ofPairs_iff {first second : List (Text × Argument)} :
    (ofPairs first == ofPairs second) = true ↔
      ∀ name, Option.Rel (fun a b => (a == b) = true) (KeyMap.last name first)
        (KeyMap.last name second) := by
  constructor
  · intro same name
    rw [← KeyMap.find?_ofPairs, ← KeyMap.find?_ofPairs]
    exact (equal_of_beq same).find? (.name name)
  · intro same
    have found (name : Text) : Option.Rel (fun a b => (a == b) = true)
        (KeyMap.find? name (KeyMap.ofPairs first)) (KeyMap.find? name (KeyMap.ofPairs second)) := by
      rw [KeyMap.find?_ofPairs, KeyMap.find?_ofPairs]
      exact same name
    have sorted := KeyMap.sorted_ofPairs first
    exact (Equal.named (sorted.forall₂ (KeyMap.sorted_ofPairs second) found)).beq

end Arguments

/--
Equality of arguments, alone and given in a style, is symmetric and transitive,
and whatever has no NaN and no fragment at any depth is equal to itself, but
nothing else.  Names count as the last pairs write them, and moments as instants:
under two offsets equal moments have local times as far apart as the offsets.
-/
theorem Argument.equality_laws :
    PartialEquivBEq Argument ∧ PartialEquivBEq (Arguments Argument) ∧
      (∀ x : Argument, (x == x) = true ↔ x.Regular) ∧
      (∀ given : Arguments Argument, (given == given) = true ↔ ∀ x ∈ given.held, x.Regular) ∧
      (∀ first second, (Arguments.ofPairs first == Arguments.ofPairs second) = true ↔
        ∀ name, Option.Rel (fun a b : Argument => (a == b) = true) (KeyMap.last name first)
          (KeyMap.last name second)) ∧
      (∀ m n : Moment, (m == n) = true ↔ m.instant = n.instant ∧ m.zone = n.zone) ∧
      (∀ (t u : LocalTime) (offset : ZoneOffset) (zone other : Option Text),
        ((⟨t, offset, zone⟩ : Moment) == ⟨u, offset, other⟩) = true ↔ t = u ∧ zone = other) ∧
      ∀ (t u : LocalTime) (offset shifted : ZoneOffset) (zone other : Option Text),
        ((⟨t, offset, zone⟩ : Moment) == ⟨u, shifted, other⟩) = true ↔
          u.nanos = t.nanos + (shifted.seconds - offset.seconds) * 1000000000 ∧ zone = other :=
  ⟨inferInstance, inferInstance, fun _ => beq_self_iff_regular,
    fun _ => Arguments.beq_self_iff_regular, fun _ _ => Arguments.beq_ofPairs_iff,
    fun _ _ => Moment.beq_iff, Moment.beq_iff_of_offset, Moment.beq_iff_of_offsets⟩

/-- Half an hour before midnight is half past one of the next day where it is two hours later. -/
example :
    (⟨⟨⟨2024, 2, 29, by decide, by decide, by decide⟩, ⟨84600000000000, by decide⟩⟩,
      ⟨0, by decide⟩, none⟩ : Moment) ==
    ⟨⟨⟨2024, 3, 1, by decide, by decide, by decide⟩, ⟨5400000000000, by decide⟩⟩,
      ⟨7200, by decide⟩, none⟩ := by
  decide +kernel

end SqlTemplate
