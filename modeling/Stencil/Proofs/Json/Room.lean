import Stencil.Proofs.Json.Results

/-!
# Room for brackets

With less room a text reads as it does with more, or a bracket is too deep
(`Json.Cramped.readers`). So a text is too deep if it reads, given more room, as a document that is
nested deeper than the room allows (`Json.tooDeep_of_read`); what is printed for a document that is
too deep is such a text (`Json.tooDeep_of_print`).

* `Json.Cramped`, a reading in less room beside one in more.
-/

set_option autoImplicit false

namespace Stencil

namespace Json

/-- What a reading comes to in less room, where it comes to `more` in more room: the same, unless a
bracket is too deep. -/
def Cramped {α : Type} (less more : Except Stop α) : Prop :=
  (∃ descent, less = .error (.tooDeep descent)) ∨ less = more

namespace Cramped

theorem refl {α : Type} (reading : Except Stop α) : Cramped reading reading :=
  Or.inr rfl

section Readers

variable {fuel : Nat}
  (hvalue : ∀ room more text, room ≤ more →
    Cramped (readValue fuel room text) (readValue fuel more text))
  (hitems : ∀ room more known text, room ≤ more →
    Cramped (readItems fuel room known text) (readItems fuel more known text))
  (hmembers : ∀ room more known text, room ≤ more →
    Cramped (readMembers fuel room known text) (readMembers fuel more known text))
  {room more : Nat} (hroom : room ≤ more)

include hvalue hitems hroom in
theorem readItems_succ (known : List Json) (text : Text) :
    Cramped (readItems (fuel + 1) room known text) (readItems (fuel + 1) more known text) := by
  rw [readItems, readItems]
  -- Either the item is too deep, or it is the same and leaves the same text for the others.
  rcases hvalue room more text hroom with ⟨descent, hdeep⟩ | hsame
  · rw [hdeep]
    exact Or.inl ⟨descent, rfl⟩
  rw [hsame]
  cases readValue fuel more text with
  | error stop => exact refl _
  | ok result =>
    dsimp only
    split
    · exact refl _
    split
    · exact refl _
    split
    · exact hitems room more _ _ hroom
    · exact refl _

include hvalue hmembers hroom in
theorem readMembers_succ (known : List (Text × Json)) (text : Text) :
    Cramped (readMembers (fuel + 1) room known text) (readMembers (fuel + 1) more known text) := by
  cases text with
  | nil => exact refl _
  | cons quote start =>
    rw [readMembers, readMembers]
    split
    · exact refl _
    split
    · exact refl _
    split
    · exact refl _
    next colon rest _ =>
    split
    · exact refl _
    rcases hvalue room more (skipSpace rest) hroom with ⟨descent, hdeep⟩ | hsame
    · rw [hdeep]
      exact Or.inl ⟨descent, rfl⟩
    rw [hsame]
    cases readValue fuel more (skipSpace rest) with
    | error stop => exact refl _
    | ok result =>
      dsimp only
      split
      · exact refl _
      split
      · exact refl _
      split
      · exact hmembers room more _ _ hroom
      · exact refl _

include hroom in
/-- A bracket for which there is less room is too deep, or there is less room inside it. -/
theorem descend {descent : Descent} {inside : Nat → Reading Json}
    (h : ∀ room more, room ≤ more → Cramped (inside room) (inside more)) :
    Cramped (Json.descend descent room inside) (Json.descend descent more inside) := by
  cases room with
  | zero => exact Or.inl ⟨descent, rfl⟩
  | succ room =>
    cases more with
    | zero => exact absurd hroom (Nat.not_succ_le_zero room)
    | succ more => exact h room more (Nat.le_of_succ_le_succ hroom)

include hitems hmembers hroom in
theorem readValue_succ (text : Text) :
    Cramped (readValue (fuel + 1) room text) (readValue (fuel + 1) more text) := by
  cases text with
  | nil => exact refl _
  | cons c rest =>
    rw [readValue, readValue]
    split
    · exact refl _
    -- An object and an array go down by one level.
    split
    · refine descend hroom ?_
      intro room more hroom
      dsimp only
      split
      · exact refl _
      · exact hmembers room more _ _ hroom
    split
    · refine descend hroom ?_
      intro room more hroom
      dsimp only
      split
      · exact refl _
      · exact hitems room more _ _ hroom
    -- Words and numbers need no room.
    · exact refl _

end Readers

/-- **Less room.** Whatever is read comes to the same in less room, unless a bracket is too deep. -/
theorem readers (fuel : Nat) :
    (∀ room more text, room ≤ more →
        Cramped (readValue fuel room text) (readValue fuel more text)) ∧
      (∀ room more known text, room ≤ more →
        Cramped (readItems fuel room known text) (readItems fuel more known text)) ∧
      ∀ room more known text, room ≤ more →
        Cramped (readMembers fuel room known text) (readMembers fuel more known text) := by
  -- Induction on the fuel, for all pairs of rooms at once: a bracket lessens both of them.
  induction fuel with
  | zero => exact ⟨fun _ _ _ _ => refl _, fun _ _ _ _ _ => refl _, fun _ _ _ _ _ => refl _⟩
  | succ fuel ih =>
    obtain ⟨hvalue, hitems, hmembers⟩ := ih
    exact ⟨fun _ _ text hroom => readValue_succ hitems hmembers hroom text,
      fun _ _ known text hroom => readItems_succ hvalue hitems hroom known text,
      fun _ _ known text hroom => readMembers_succ hvalue hmembers hroom known text⟩

theorem readWholeText {room more : Nat} (hroom : room ≤ more) (text : Text) :
    Cramped (Json.readWholeText room text) (Json.readWholeText more text) := by
  rw [Json.readWholeText, Json.readWholeText]
  split
  · exact refl _
  rcases (readers (2 * text.length + 1)).1 room more (skipSpace text) hroom with
    ⟨descent, hdeep⟩ | hsame
  · rw [hdeep]
    exact Or.inl ⟨descent, rfl⟩
  · rw [hsame]
    exact refl _

end Cramped

section Read

variable {host roomy : Host} {text : Text} {document : Json}

/-- **What is too deep.** A text that reads on another host as a document which is nested too deep
for this one is too deep here. -/
theorem tooDeep_of_read (hread : read roomy text = .ok document)
    (hdeep : host.reading < document.depth) :
    ∃ descent, read host text = .error (.tooDeep descent) := by
  have hroom : host.reading ≤ roomy.reading :=
    Nat.le_trans (Nat.le_of_lt hdeep) (depth_of_read hread)
  have hwhole := readWholeText_of_read hread
  rcases Cramped.readWholeText hroom text with ⟨descent, herror⟩ | hsame
  · refine ⟨descent, ?_⟩
    rw [read, herror]
  · -- Reading it here would have given a document that is not that deep.
    have hhere : read host text = .ok document := by
      rw [read, hsame, hwhole]
    exact absurd (depth_of_read hhere) (Nat.not_le.2 hdeep)

/-- What is printed for a document that is nested too deep is too deep to be read. -/
theorem tooDeep_of_print (hplain : document.Plain) (hdeep : host.reading < document.depth) :
    ∃ descent, read host document.print = .error (.tooDeep descent) := by
  let roomy : Host :=
    { host with
      reading := max 3 document.depth
      documents := ⟨Nat.le_max_left 3 document.depth, host.documents.2⟩ }
  have hread : read roomy document.print = .ok document :=
    read_print hplain (Nat.le_max_right 3 document.depth)
  exact tooDeep_of_read hread hdeep

end Read

end Json

end Stencil
