import Stencil.Proofs.Json.Exact
import Stencil.Proofs.Text.Numeral
import Stencil.Value.Display

/-!
# Values that are written

Only the empty string is written as nothing (`Value.display_eq_nil_iff`). Nothing stands in the way
of writing a value just when no integer in it has more digits than an integer may have and there is
room for its brackets (`Value.fault?_eq_none_iff`). The value of a JSON document has the integers
and the depth of the document (`Value.mem_integers_ofJson`, `Value.depth_ofJson`).

* `Value.integers`, all integers in a value;
* `Value.Explained`, how they explain what stands in the way;
* `Value.Inside`, for values that others hold.
-/

set_option autoImplicit false

namespace Stencil

/-! ## What is written is not empty -/

theorem intNumeral_ne_nil (value : Int) : intNumeral value ≠ [] := by
  cases value with
  | ofNat n => exact natNumeral_ne_nil n
  | negSucc n => exact List.cons_ne_nil _ _

/-- The layout of a number has a point or an exponent. -/
theorem Decimal.layout_ne_nil (decimal : Decimal) : decimal.layout ≠ [] := by
  rw [layout]
  dsimp only
  split
  · split
    · exact List.append_ne_nil_of_left_ne_nil (List.append_ne_nil_of_left_ne_nil (by decide) _) _
    · exact List.append_ne_nil_of_left_ne_nil
        (List.append_ne_nil_of_right_ne_nil _ (by decide)) _
  · refine List.append_ne_nil_of_right_ne_nil _ ?_
    rw [exponentMark]
    exact List.append_ne_nil_of_left_ne_nil (by split <;> decide) _

theorem Binary64.numeral_ne_nil (value : Binary64) : value.numeral plainWords ≠ [] := by
  cases value with
  | finite negative mantissa exponent =>
    -- A sign may be missing, so what stands behind it has to be something.
    refine List.append_ne_nil_of_right_ne_nil _ ?_
    split
    · decide
    · exact Decimal.layout_ne_nil _
  | infinite negative => exact List.append_ne_nil_of_right_ne_nil _ (by decide)
  | nan => decide

theorem Moment.shown_ne_nil (moment : Moment) : moment.shown ≠ [] := by
  rw [shown]
  dsimp only
  split
  · rw [List.append_assoc]
    exact List.append_ne_nil_of_left_ne_nil (by decide) _
  · rw [List.append_assoc]
    exact List.append_ne_nil_of_left_ne_nil (by decide) _

/-- A date has hyphens. -/
theorem Moment.display_ne_nil (moment : Moment) : moment.display ≠ [] := by
  rw [display]
  refine List.append_ne_nil_of_left_ne_nil (List.append_ne_nil_of_left_ne_nil ?_ _) _
  exact List.append_ne_nil_of_right_ne_nil _ (by decide)

namespace Value

theorem shown_ne_nil (value : Value) : value.shown ≠ [] := by
  cases value with
  | null => decide
  | bool value => cases value <;> decide
  | int value => exact intNumeral_ne_nil value
  | float value => exact Binary64.numeral_ne_nil value
  | string value => exact List.cons_ne_nil _ _
  | moment value => exact Moment.shown_ne_nil value
  | bytes value => exact List.cons_ne_nil _ _
  | list items => exact List.append_ne_nil_of_right_ne_nil _ (by decide)
  | tuple items => exact List.append_ne_nil_of_right_ne_nil _ (by decide)
  | set items =>
    rw [shown]
    split
    · decide
    · exact List.append_ne_nil_of_right_ne_nil _ (by decide)
  | mapping entries => exact List.append_ne_nil_of_right_ne_nil _ (by decide)

/-- Nothing but the empty string is written as nothing. -/
theorem display_eq_nil_iff {value : Value} : value.display = [] ↔ value = .string [] := by
  constructor
  · intro h
    cases value with
    | string value => exact congrArg Value.string h
    | moment value => exact absurd h (Moment.display_ne_nil value)
    | _ => exact absurd h (shown_ne_nil _)
  · rintro rfl
    rfl

/-! ## Integers in a value -/

mutual

/-- All integers in a value. -/
def integers : Value → List Int
  | .int value => [value]
  | .list items => integersOf items
  | .tuple items => integersOf items
  | .set items => integersOf items
  | .mapping entries => integersOfEntries entries
  | _ => []

/-- All integers in the values of a list. -/
def integersOf : List Value → List Int
  | [] => []
  | item :: items => integers item ++ integersOf items

/-- All integers in the keys and the values of a mapping. -/
def integersOfEntries : List (Value × Value) → List Int
  | [] => []
  | (key, value) :: entries => integers key ++ integers value ++ integersOfEntries entries

end

theorem integers_string (text : Text) : (string text).integers = [] := by
  simp [integers]

/-! ## What stands in the way -/

/-- What stands in the way of writing, or that nothing does, is explained by the integers and by the
depth of what is written. -/
def Explained (integers : List Int) (depth room : Nat) : Option Unwritable → Prop
  | none => (∀ n ∈ integers, Json.IsShort n) ∧ depth ≤ room
  | some .longInteger => ∃ n ∈ integers, ¬ Json.IsShort n
  | some .tooDeep => room < depth

section Explained

variable {first second : List Int} {depth other room : Nat} {fault later : Option Unwritable}

/-- What stands in the way of one or the other is explained by both together. -/
theorem Explained.or (h : Explained first depth room fault)
    (hlater : Explained second other room later) :
    Explained (first ++ second) (max depth other) room (fault.or later) := by
  cases fault with
  | none =>
    obtain ⟨hshort, hdepth⟩ := h
    cases later with
    | none =>
      exact ⟨List.forall_mem_append.2 ⟨hshort, hlater.1⟩, Nat.max_le.2 ⟨hdepth, hlater.2⟩⟩
    | some later =>
      cases later with
      | longInteger =>
        obtain ⟨n, hn, hlong⟩ := hlater
        exact ⟨n, List.mem_append_right first hn, hlong⟩
      | tooDeep => exact Nat.lt_of_lt_of_le hlater (Nat.le_max_right depth other)
  | some fault =>
    cases fault with
    | longInteger =>
      obtain ⟨n, hn, hlong⟩ := h
      exact ⟨n, List.mem_append_left second hn, hlong⟩
    | tooDeep => exact Nat.lt_of_lt_of_le h (Nat.le_max_left depth other)

/-- A bracket takes the room of one level, and holds the integers of what stands in it. -/
theorem Explained.within {inside : Nat → Option Unwritable}
    (h : ∀ room, Explained first depth room (inside room)) (room : Nat) :
    Explained first (depth + 1) room (Value.within inside room) := by
  cases room with
  | zero => exact Nat.zero_lt_succ depth
  | succ room =>
    have hinside := h room
    rw [Value.within]
    cases hfault : inside room with
    | none =>
      rw [hfault] at hinside
      exact ⟨hinside.1, Nat.succ_le_succ hinside.2⟩
    | some fault =>
      rw [hfault] at hinside
      cases fault with
      | longInteger => exact hinside
      | tooDeep => exact Nat.succ_lt_succ hinside

end Explained

mutual

/-- What stands in the way of writing a value. -/
theorem explained_fault? : ∀ (value : Value) (room : Nat),
    Explained value.integers value.depth room (value.fault? room)
  | .int value, room => by
    have hdepth : (int value).depth = 0 := rfl
    rw [fault?, integers, hdepth]
    split
    · next hlong => exact ⟨value, List.mem_singleton_self value, Nat.not_le.2 hlong⟩
    · next hshort =>
      refine ⟨?_, Nat.zero_le room⟩
      rintro n hn
      rw [List.mem_singleton.1 hn]
      exact Nat.not_lt.1 hshort
  | .list items, room => by
    rw [fault?, integers, depth]
    exact .within (explained_itemsFault? items) room
  | .tuple items, room => by
    rw [fault?, integers, depth]
    exact .within (explained_itemsFault? items) room
  | .set items, room => by
    rw [fault?, integers, depth]
    exact .within (explained_itemsFault? items) room
  | .mapping entries, room => by
    rw [fault?, integers, depth]
    exact .within (explained_entriesFault? entries) room
  | .null, room | .bool _, room | .float _, room | .string _, room | .moment _, room
  | .bytes _, room => by simp [fault?, integers, depth, Explained]

theorem explained_itemsFault? : ∀ (items : List Value) (room : Nat),
    Explained (integersOf items) (depthOf items) room (itemsFault? items room)
  | [], room => by simp [itemsFault?, integersOf, depthOf, Explained]
  | item :: items, room => by
    rw [itemsFault?, integersOf, depthOf]
    exact (explained_fault? item room).or (explained_itemsFault? items room)

theorem explained_entriesFault? : ∀ (entries : List (Value × Value)) (room : Nat),
    Explained (integersOfEntries entries) (depthOfEntries entries) room
      (entriesFault? entries room)
  | [], room => by simp [entriesFault?, integersOfEntries, depthOfEntries, Explained]
  | (key, value) :: entries, room => by
    rw [entriesFault?, integersOfEntries, depthOfEntries]
    exact ((explained_fault? key room).or (explained_fault? value room)).or
      (explained_entriesFault? entries room)

end

section Fault

variable {value : Value} {room : Nat}

/-- **What can be written.** Nothing stands in the way of a value just when no integer in it is too
long and it is not nested too deep. -/
theorem fault?_eq_none_iff :
    value.fault? room = none ↔ (∀ n ∈ value.integers, Json.IsShort n) ∧ value.depth ≤ room := by
  have hexplained := explained_fault? value room
  constructor
  · intro hnone
    rw [hnone] at hexplained
    exact hexplained
  · rintro ⟨hshort, hdepth⟩
    -- Whatever stood in the way would be explained by a long integer or by the depth.
    cases hfault : value.fault? room with
    | none => rfl
    | some fault =>
      rw [hfault] at hexplained
      cases fault with
      | longInteger =>
        obtain ⟨n, hn, hlong⟩ := hexplained
        exact absurd (hshort n hn) hlong
      | tooDeep => exact absurd hdepth (Nat.not_le.2 hexplained)

theorem exists_long_of_fault? (h : value.fault? room = some .longInteger) :
    ∃ n ∈ value.integers, ¬ Json.IsShort n := by
  have hexplained := explained_fault? value room
  rw [h] at hexplained
  exact hexplained

theorem lt_depth_of_fault? (h : value.fault? room = some .tooDeep) : room < value.depth := by
  have hexplained := explained_fault? value room
  rw [h] at hexplained
  exact hexplained

end Fault

/-! ## Values in a value -/

/-- Whether a value has no integers that another one does not have, and is nested no deeper. -/
structure Inside (inner outer : Value) : Prop where
  integers : ∀ n ∈ inner.integers, n ∈ outer.integers
  depth : inner.depth ≤ outer.depth

section Inside

variable {first second third : Value} {items : List Value} {entries : List (Value × Value)}
  {name : Text}

theorem Inside.trans (h : first.Inside second) (h' : second.Inside third) : first.Inside third :=
  ⟨fun n hn => h'.integers n (h.integers n hn), Nat.le_trans h.depth h'.depth⟩

theorem inside_null (value : Value) : null.Inside value where
  integers := by simp [Value.integers]
  depth := Nat.zero_le value.depth

/-- An item is in the list and in the tuple of all items. -/
theorem inside_of_mem (h : first ∈ items) :
    first.Inside (list items) ∧ first.Inside (tuple items) := by
  have hparts : (∀ n ∈ first.integers, n ∈ integersOf items) ∧ first.depth ≤ depthOf items := by
    induction items with
    | nil => cases h
    | cons item items ih =>
      rw [integersOf, depthOf]
      rcases List.mem_cons.1 h with rfl | h
      · exact ⟨fun n hn => List.mem_append_left _ hn, Nat.le_max_left _ _⟩
      · obtain ⟨hintegers, hdepth⟩ := ih h
        exact ⟨fun n hn => List.mem_append_right _ (hintegers n hn),
          Nat.le_trans hdepth (Nat.le_max_right _ _)⟩
  exact ⟨⟨by rw [Value.integers]; exact hparts.1, Nat.le_succ_of_le hparts.2⟩,
    ⟨by rw [Value.integers]; exact hparts.1, Nat.le_succ_of_le hparts.2⟩⟩

/-- What stands under a name is in the mapping. -/
theorem inside_of_member? (h : member? name entries = some first) :
    first.Inside (mapping entries) := by
  -- The name is looked for from the front, so the cases are those of `member?`.
  have hparts : (∀ n ∈ first.integers, n ∈ integersOfEntries entries) ∧
      first.depth ≤ depthOfEntries entries := by
    fun_induction member? name entries with
    | case1 => cases h
    | case2 value rest =>
      cases h
      rw [integersOfEntries, depthOfEntries]
      refine ⟨fun n hn => List.mem_append_left _ (List.mem_append_right _ hn), ?_⟩
      exact Nat.le_trans (Nat.le_max_right _ _) (Nat.le_max_left _ _)
    | case3 other value rest hother ih =>
      rw [integersOfEntries, depthOfEntries]
      exact ⟨fun n hn => List.mem_append_right _ ((ih h).1 n hn),
        Nat.le_trans (ih h).2 (Nat.le_max_right _ _)⟩
    | case4 entry rest hother ih =>
      rw [integersOfEntries, depthOfEntries]
      exact ⟨fun n hn => List.mem_append_right _ ((ih h).1 n hn),
        Nat.le_trans (ih h).2 (Nat.le_max_right _ _)⟩
  exact ⟨by rw [Value.integers]; exact hparts.1, Nat.le_succ_of_le hparts.2⟩

end Inside

/-! ## Values of documents -/

mutual

/-- The integers in the value of a document are those of the document. -/
theorem mem_integers_ofJson {n : Int} : ∀ document : Json,
    n ∈ (ofJson document).integers ↔ .int n ∈ document.parts
  | .int value => by
    rw [ofJson, integers, Json.parts, List.mem_singleton, List.mem_singleton, Json.int.injEq]
  | .array items => by simp [ofJson, integers, Json.parts, mem_integers_ofItems items]
  | .object members => by simp [ofJson, integers, Json.parts, mem_integers_ofMembers members]
  | .null | .bool _ | .float _ | .string _ => by simp [ofJson, integers, Json.parts]

theorem mem_integers_ofItems {n : Int} : ∀ items : List Json,
    n ∈ integersOf (ofItems items) ↔ .int n ∈ Json.partsOf items
  | [] => by simp [ofItems, integersOf, Json.partsOf]
  | item :: items => by
    rw [ofItems, integersOf, Json.partsOf, List.mem_append, List.mem_append,
      mem_integers_ofJson item, mem_integers_ofItems items]

theorem mem_integers_ofMembers {n : Int} : ∀ members : List (Text × Json),
    n ∈ integersOfEntries (ofMembers members) ↔ .int n ∈ Json.partsOfMembers members
  | [] => by simp [ofMembers, integersOfEntries, Json.partsOfMembers]
  | (name, value) :: members => by
    rw [ofMembers, integersOfEntries, integers_string, List.nil_append, Json.partsOfMembers,
      List.mem_append, List.mem_append, mem_integers_ofJson value, mem_integers_ofMembers members]

end

mutual

/-- The value of a document is nested as deep as the document. -/
theorem depth_ofJson : ∀ document : Json, (ofJson document).depth = document.depth
  | .array items => by rw [ofJson, depth, Json.depth, depth_ofItems items]
  | .object members => by rw [ofJson, depth, Json.depth, depth_ofMembers members]
  | .null | .bool _ | .int _ | .float _ | .string _ => by simp [ofJson, depth, Json.depth]

theorem depth_ofItems : ∀ items : List Json, depthOf (ofItems items) = Json.depthOf items
  | [] => rfl
  | item :: items => by rw [ofItems, depthOf, Json.depthOf, depth_ofJson item, depth_ofItems items]

theorem depth_ofMembers : ∀ members : List (Text × Json),
    depthOfEntries (ofMembers members) = Json.depthOfMembers members
  | [] => rfl
  | (name, value) :: members => by
    have hname : (string name).depth = 0 := rfl
    rw [ofMembers, depthOfEntries, Json.depthOfMembers, depth_ofJson value, depth_ofMembers members,
      hname, Nat.zero_max]

end

/-- Nothing stands in the way of writing the value of a document without long integers for whose
brackets there is room. -/
theorem fault?_ofJson_eq_none_iff {document : Json} {room : Nat} :
    (ofJson document).fault? room = none ↔ document.Short ∧ document.depth ≤ room := by
  rw [fault?_eq_none_iff, depth_ofJson]
  exact and_congr_left fun _ => forall_congr' fun n => imp_congr_left (mem_integers_ofJson document)

end Value

end Stencil
