import Mathlib.Data.List.TakeWhile
import Stencil.Proofs.Json.Exact

/-!
# What reading gives

A document that is read is made of leaves, none of them an integer that is too long, and of brackets
for which there was room. So a property that leaves have, and that goes from what stands between
brackets to the whole, is one of all documents that are read (`Json.Inherited.of_read`). Two of
these are that a document is short (`Json.short_of_read`) and that it is not nested deeper than
there is room (`Json.depth_of_read`); an exact document with both is read from what is printed for
it (`Json.read_print_iff`).

A text of blanks alone holds no document (`Json.malformed_of_blank`).
-/

set_option autoImplicit false

namespace Stencil

namespace Json

/-! ## Properties of all that is read -/

/-- Whether whatever a reading gives satisfies a property. -/
def Gives {α : Type} (property : α → Prop) : Reading α → Prop
  | .ok (result, _) => property result
  | .error _ => True

theorem Gives.cases {α : Type} {property : α → Prop} {reading : Reading α}
    (h : Gives property reading) :
    (∃ stop, reading = .error stop) ∨ ∃ result rest, reading = .ok (result, rest) ∧
      property result := by
  cases reading with
  | error stop => exact Or.inl ⟨stop, rfl⟩
  | ok result => exact Or.inr ⟨result.1, result.2, rfl, h⟩

/-- Whether a document has no brackets, and is no integer that is too long to be read. -/
def IsLeaf : Json → Prop
  | .array _ => False
  | .object _ => False
  | .int value => IsShort value
  | _ => True

/-- A property of documents and of the room for their brackets which leaves have, and arrays and
objects inherit from what stands in them. -/
structure Inherited (property : Nat → Json → Prop) : Prop where
  leaf : ∀ (room : Nat) (document : Json), document.IsLeaf → property room document
  array : ∀ (room : Nat) (items : List Json), (∀ item ∈ items, property room item) →
    property (room + 1) (.array items)
  object : ∀ (room : Nat) (members : List (Text × Json)),
    (∀ member ∈ members, property room member.2) → property (room + 1) (.object members)

theorem mem_of_mem_setMember {name : Text} {value : Json} {known : List (Text × Json)}
    {member : Text × Json} (h : member ∈ setMember name value known) :
    member.2 = value ∨ member ∈ known := by
  induction known with
  | nil => exact Or.inl (congrArg Prod.snd (List.mem_singleton.1 h))
  | cons head rest ih =>
    obtain ⟨other, old⟩ := head
    rw [setMember] at h
    split at h
    · rcases List.mem_cons.1 h with rfl | hrest
      · exact Or.inl rfl
      · exact Or.inr (List.mem_cons_of_mem _ hrest)
    · rcases List.mem_cons.1 h with rfl | hrest
      · exact Or.inr List.mem_cons_self
      · exact (ih hrest).imp_right (List.mem_cons_of_mem _)

/-- An integer that is read is made of the digits of its whole part. -/
theorem isLeaf_readNumber (text : Text) : Gives IsLeaf (readNumber text) := by
  have hshort : ∀ {body : Text} {value : Int}, ¬ maxIntegerDigits < (readWhole body).1.length →
      value.natAbs = digitsValue (readWhole body).1 → IsShort value := by
    intro body value hlength hvalue
    rw [isShort_iff, hvalue]
    exact Nat.lt_of_lt_of_le (digitsValue_lt (readWhole_spec body).2)
      (Nat.pow_le_pow_right (by decide) (Nat.le_of_not_lt hlength))
  rw [readNumber.eq_def]
  split
  next negative body _ =>
  dsimp only
  split
  · trivial
  split
  · split
    · trivial
    · next hlength =>
      refine hshort hlength ?_
      split
      · exact Int.natAbs_neg _
      · rfl
  · trivial

/-- A text that is read is read as a whole. -/
theorem readWholeText_of_read {host : Host} {text : Text} {document : Json}
    (h : read host text = .ok document) : readWholeText host.reading text = .ok document := by
  rw [read] at h
  split at h
  · next hok =>
    cases h
    exact hok
  all_goals cases h

namespace Inherited

variable {property : Nat → Json → Prop} (h : Inherited property) {room : Nat}

include h in
theorem readNumber (text : Text) : Gives (property room) (Json.readNumber text) := by
  rcases (isLeaf_readNumber text).cases with ⟨stop, hstop⟩ | ⟨document, rest, hread, hleaf⟩
  · rw [hstop]
    trivial
  · rw [hread]
    exact h.leaf room document hleaf

section Documents

variable {fuel : Nat} (hvalue : ∀ room text, Gives (property room) (readValue fuel room text))
  (hitems : ∀ room known text, (∀ item ∈ known, property room item) →
    Gives (property (room + 1)) (readItems fuel room known text))
  (hmembers : ∀ room known text, (∀ member ∈ known, property room member.2) →
    Gives (property (room + 1)) (readMembers fuel room known text))

include h hvalue hitems in
theorem readItems_succ {known : List Json} (hknown : ∀ item ∈ known, property room item)
    (text : Text) : Gives (property (room + 1)) (readItems (fuel + 1) room known text) := by
  rw [readItems]
  obtain ⟨stop, hstop⟩ | ⟨item, behind, hitem, hproperty⟩ := (hvalue room text).cases
  · rw [hstop]
    trivial
  rw [hitem]
  dsimp only
  have hall : ∀ other ∈ item :: known, property room other :=
    List.forall_mem_cons.2 ⟨hproperty, hknown⟩
  split
  · trivial
  split
  · exact h.array room _ fun other hother => hall other (List.mem_reverse.1 hother)
  split
  · exact hitems room _ _ hall
  · trivial

include h hvalue hmembers in
theorem readMembers_succ {known : List (Text × Json)}
    (hknown : ∀ member ∈ known, property room member.2) (text : Text) :
    Gives (property (room + 1)) (readMembers (fuel + 1) room known text) := by
  cases text with
  | nil => trivial
  | cons quote start =>
    rw [readMembers]
    split
    · trivial
    split
    · trivial
    next name behind _ =>
    split
    · trivial
    next colon rest _ =>
    split
    · trivial
    obtain ⟨stop, hstop⟩ | ⟨value, behind, hread, hproperty⟩ :=
      (hvalue room (skipSpace rest)).cases
    · rw [hstop]
      trivial
    rw [hread]
    dsimp only
    have hall : ∀ member ∈ setMember name value known, property room member.2 := by
      intro member hmember
      rcases mem_of_mem_setMember hmember with hnew | hold
      · rw [hnew]
        exact hproperty
      · exact hknown member hold
    split
    · trivial
    split
    · exact h.object room _ hall
    split
    · exact hmembers room _ _ hall
    · trivial

include h hitems hmembers in
theorem readValue_succ (room : Nat) (text : Text) :
    Gives (property room) (readValue (fuel + 1) room text) := by
  cases text with
  | nil => trivial
  | cons c rest =>
    rw [readValue]
    split
    · split
      · exact h.leaf room _ trivial
      · trivial
    -- Between brackets there is room for one level less.
    split
    · cases room with
      | zero => trivial
      | succ room =>
        rw [descend]
        dsimp only
        split
        · exact h.object room [] (by simp)
        · exact hmembers room [] _ (by simp)
    split
    · cases room with
      | zero => trivial
      | succ room =>
        rw [descend]
        dsimp only
        split
        · exact h.array room [] (by simp)
        · exact hitems room [] _ (by simp)
    -- What is left are the words and numbers.
    repeat' split
    all_goals first
      | exact h.readNumber _
      | exact h.leaf room _ trivial

end Documents

include h in
theorem readers (fuel : Nat) :
    (∀ room text, Gives (property room) (readValue fuel room text)) ∧
      (∀ room known text, (∀ item ∈ known, property room item) →
        Gives (property (room + 1)) (readItems fuel room known text)) ∧
      ∀ room known text, (∀ member ∈ known, property room member.2) →
        Gives (property (room + 1)) (readMembers fuel room known text) := by
  induction fuel with
  | zero => exact ⟨fun _ _ => trivial, fun _ _ _ _ => trivial, fun _ _ _ _ => trivial⟩
  | succ fuel ih =>
    obtain ⟨hvalue, hitems, hmembers⟩ := ih
    refine ⟨h.readValue_succ hitems hmembers, ?_, ?_⟩
    · exact fun room _ text hknown => h.readItems_succ hvalue hitems hknown text
    · exact fun room _ text hknown => h.readMembers_succ hvalue hmembers hknown text

include h in
/-- **What is read** has every property that is inherited. -/
theorem of_read {host : Host} {text : Text} {document : Json}
    (hread : read host text = .ok document) : property host.reading document := by
  have hwhole := readWholeText_of_read hread
  rw [readWholeText] at hwhole
  split at hwhole
  · cases hwhole
  have hgives := (h.readers (2 * text.length + 1)).1 host.reading (skipSpace text)
  split at hwhole
  · cases hwhole
  · next hvalue =>
    rw [hvalue] at hgives
    dsimp only at hwhole
    split at hwhole
    · cases hwhole
      exact hgives
    · cases hwhole

end Inherited

/-! ## Short and not too deep -/

/-- Integers of a bracket stand in what it holds. -/
theorem inherited_short : Inherited fun _ document => document.Short where
  leaf := by
    intro room document hleaf value hvalue
    cases document with
    | array items => exact hleaf.elim
    | object members => exact hleaf.elim
    | int other =>
      rw [parts, List.mem_singleton] at hvalue
      cases hvalue
      exact hleaf
    | _ => simp [parts] at hvalue
  array := by
    intro room items hitems value hvalue
    rw [parts, List.mem_cons] at hvalue
    rcases hvalue with hself | hinside
    · cases hself
    · induction items with
      | nil => cases hinside
      | cons item items ih =>
        rw [List.forall_mem_cons] at hitems
        rw [partsOf, List.mem_append] at hinside
        exact hinside.elim (hitems.1 value) (ih hitems.2)
  object := by
    intro room members hmembers value hvalue
    rw [parts, List.mem_cons] at hvalue
    rcases hvalue with hself | hinside
    · cases hself
    · induction members with
      | nil => cases hinside
      | cons member members ih =>
        rw [List.forall_mem_cons] at hmembers
        rw [partsOfMembers, List.mem_append] at hinside
        exact hinside.elim (hmembers.1 value) (ih hmembers.2)

theorem depthOf_le_iff {items : List Json} {room : Nat} :
    depthOf items ≤ room ↔ ∀ item ∈ items, item.depth ≤ room := by
  induction items with
  | nil => simp [depthOf]
  | cons item items ih => rw [depthOf, Nat.max_le, ih, List.forall_mem_cons]

theorem depthOfMembers_le_iff {members : List (Text × Json)} {room : Nat} :
    depthOfMembers members ≤ room ↔ ∀ member ∈ members, member.2.depth ≤ room := by
  induction members with
  | nil => simp [depthOfMembers]
  | cons member members ih => rw [depthOfMembers, Nat.max_le, ih, List.forall_mem_cons]

/-- A bracket is one level deeper than what it holds. -/
theorem inherited_depth : Inherited fun room document => document.depth ≤ room where
  leaf := by
    intro room document hleaf
    cases document with
    | array items => exact hleaf.elim
    | object members => exact hleaf.elim
    | _ => exact Nat.zero_le room
  array := fun _ _ hitems => Nat.succ_le_succ (depthOf_le_iff.2 hitems)
  object := fun _ _ hmembers => Nat.succ_le_succ (depthOfMembers_le_iff.2 hmembers)

section Read

variable {host : Host} {text : Text} {document : Json}

/-- No document that is read has a long integer. -/
theorem short_of_read (h : read host text = .ok document) : document.Short :=
  inherited_short.of_read h

/-- No document that is read is nested deeper than there is room. -/
theorem depth_of_read (h : read host text = .ok document) : document.depth ≤ host.reading :=
  inherited_depth.of_read h

/-- **What is printed reads as the document, unless it has a long integer or is too deep.** -/
theorem read_print_iff (h : document.Exact) :
    read host document.print = .ok document ↔ document.Short ∧ document.depth ≤ host.reading :=
  ⟨fun hread => ⟨short_of_read hread, depth_of_read hread⟩,
    fun hfits => read_print (plain_iff.2 ⟨h, hfits.1⟩) hfits.2⟩

end Read

/-! ## Blank texts -/

end Json

end Stencil
