import Stencil.Proofs.Template.Sites
import Stencil.Proofs.Template.Switches

/-!
# The labels of buttons

The class list of a button is numbered from the labels that were named before it. A history counts
them (`Naming.buttons_after`), and behind a list of sites its count is that of the labels among them
(`Site.countP_flatMap_places`).

A label stands inside a button, so some button comes before it: in front of the first button there
is none (`Node.isLabel_of_mem_takeWhile`).
-/

set_option autoImplicit false

namespace Stencil

/-! ## Places -/

namespace Place

/-- Whether a place is a text right inside a button. -/
def isLabel : Place → Bool
  | .ofClass _ _ => false
  | .ofAttribute _ _ _ => false
  | .ofText parent _ => parent.isButton

/-- Whether a place is the class list of a button. -/
def isButtonClass : Place → Bool
  | .ofClass tag _ => tag.isButton
  | .ofAttribute _ _ _ => false
  | .ofText _ _ => false

/-- The places of a tag are no labels. -/
theorem isLabel_of_mem_tagPlaces {options : Options} {tag : Tag} {place : Place}
    (hplace : place ∈ tag.places options) : place.isLabel = false := by
  rcases List.mem_append.1 hplace with hclass | hother
  · obtain ⟨content, rfl, -⟩ := Tag.eq_of_mem_classPlaces hclass
    rfl
  · obtain ⟨name, value, rfl, -⟩ := Tag.eq_of_mem_attributePlaces hother
    rfl

end Place

/-- A button has a class, for it is one by its class. -/
theorem Tag.exists_class_of_isButton {tag : Tag} (hbutton : tag.isButton = true) :
    ∃ content, Attributes.value? "class" tag.attributes = some (.text content) ∧ content ≠ [] := by
  rw [isButton, Bool.and_eq_true, List.any_eq_true] at hbutton
  obtain ⟨-, word, hword, -⟩ := hbutton
  rw [classList] at hword
  split at hword
  · next content hvalue =>
    refine ⟨content, hvalue, ?_⟩
    rintro rfl
    exact absurd hword List.not_mem_nil
  · exact absurd hword List.not_mem_nil

/-- Where classes are editable, the class list of a button is. -/
theorem Tag.exists_classPlaces_of_isButton {options : Options} (hmode : options.classMode ≠ .fixed)
    {tag : Tag} (hbutton : tag.isButton = true) :
    ∃ content, tag.classPlaces options = [.ofClass tag content] := by
  obtain ⟨content, hvalue, hsome⟩ := exists_class_of_isButton hbutton
  refine ⟨content, ?_⟩
  simp [classPlaces, hvalue, hsome, hmode]

/-! ## Histories -/

namespace Naming

theorem buttons_of_textPart {naming next : Naming} (h : next.textPart = naming.textPart) :
    next.buttons = naming.buttons :=
  congrArg (fun part => part.2.2.1) h

theorem buttons_textKey (tag : Tag) (naming : Naming) :
    (naming.textKey tag).2.buttons = naming.buttons + if tag.isButton then 1 else 0 := by
  unfold textKey
  split
  · rfl
  -- No other text counts, whatever its key is.
  split
  · split
    · exact (Int.add_zero _).symm
    · exact (Int.add_zero _).symm
  split
  · exact (Int.add_zero _).symm
  · exact (Int.add_zero _).symm

/-- One place counts if it is a label. -/
theorem buttons_ask (mode : ClassMode) (place : Place) (naming : Naming) :
    (naming.ask mode place).2.buttons = naming.buttons + if place.isLabel then 1 else 0 := by
  cases place with
  | ofClass tag content =>
    exact (buttons_of_textPart (textPart_classKey mode tag naming)).trans (Int.add_zero _).symm
  | ofAttribute tag name value =>
    exact (buttons_of_textPart (textPart_attributeKey tag name naming)).trans
      (Int.add_zero _).symm
  | ofText parent content => exact buttons_textKey parent naming

/-- The history counts the labels of a list. -/
theorem buttons_after (mode : ClassMode) (places : List Place) (naming : Naming) :
    (after mode places naming).buttons = naming.buttons + (places.countP Place.isLabel : Nat) := by
  induction places generalizing naming with
  | nil => exact (Int.add_zero _).symm
  | cons place rest ih =>
    have hrest := ih (naming.ask mode place).2
    rw [buttons_ask] at hrest
    rw [List.countP_cons]
    refine hrest.trans ?_
    split
    · omega
    · omega

end Naming

/-! ## Sites -/

namespace Site

/-- Whether a site is a text right inside a button, and not blank. -/
def isLabel (site : Site) : Bool :=
  match site.visit with
  | .text content => site.parent?.any Tag.isButton && !Text.isBlank content
  | .element _ => false

/-- Whether a site is a button. -/
def isButton (site : Site) : Bool :=
  match site.visit with
  | .text _ => false
  | .element tag => tag.isButton

theorem isLabel_text (above : List Ancestor) (content : Text) :
    isLabel ⟨above, .text content⟩ =
      ((parent? ⟨above, .text content⟩).any Tag.isButton && !Text.isBlank content) := rfl

/-- No site is both a label and a button. -/
theorem not_isButton_of_isLabel {site : Site} (h : site.isLabel = true) :
    site.isButton = false := by
  obtain ⟨above, visit⟩ := site
  cases visit with
  | text content => rfl
  | element tag => cases h

theorem countP_textPlaces {options : Options} (htexts : options.textEditable = true)
    (parent : Option Tag) (content : Text) :
    (Node.textPlaces options parent content).countP Place.isLabel =
      if (parent.any Tag.isButton && !Text.isBlank content) = true then 1 else 0 := by
  cases parent with
  | none => rfl
  | some tag =>
    rw [Node.textPlaces]
    by_cases hblank : Text.isBlank content = true
    · have hempty := Text.trim_collapse_eq_nil_iff.2 hblank
      simp [hempty, hblank]
    · have hsome : Text.trim (Text.collapse content) ≠ [] :=
        fun hempty => hblank (Text.trim_collapse_eq_nil_iff.1 hempty)
      have hlabel : ((some tag).any Tag.isButton && !Text.isBlank content) = tag.isButton := by
        simp [hblank]
      rw [if_pos ⟨htexts, hsome⟩, List.countP_singleton, hlabel]
      rfl

/-- Among the places of a site there is a label just when it is one. -/
theorem countP_places {options : Options} (htexts : options.textEditable = true) (site : Site) :
    (site.places options).countP Place.isLabel = if site.isLabel = true then 1 else 0 := by
  obtain ⟨above, visit⟩ := site
  cases visit with
  | text content =>
    rw [isLabel_text]
    exact countP_textPlaces htexts _ content
  | element tag =>
    have hnone : (tag.places options).countP Place.isLabel = 0 := by
      rw [List.countP_eq_zero]
      intro place hplace
      rw [Place.isLabel_of_mem_tagPlaces hplace]
      exact Bool.false_ne_true
    exact hnone

theorem countP_flatMap_places {options : Options} (htexts : options.textEditable = true)
    (sites : List Site) :
    (sites.flatMap (places options)).countP Place.isLabel = sites.countP isLabel := by
  induction sites with
  | nil => rfl
  | cons site later ih =>
    rw [List.flatMap_cons, List.countP_append, ih, countP_places htexts, List.countP_cons,
      Nat.add_comm]

/-- A label comes with a site that is one. -/
theorem isLabel_of_mem_places {options : Options} (htexts : options.textEditable = true)
    {site : Site} {place : Place} (hplace : place ∈ site.places options)
    (hlabel : place.isLabel = true) : site.isLabel = true := by
  have hcount := List.countP_pos_iff.2 ⟨place, hplace, hlabel⟩
  rw [countP_places htexts] at hcount
  split at hcount
  · next hsite => exact hsite
  · cases hcount

/-- The class list of a button comes with a site that is one. -/
theorem isButton_of_mem_places {options : Options} {site : Site} {place : Place}
    (hplace : place ∈ site.places options) (hbutton : place.isButtonClass = true) :
    site.isButton = true := by
  obtain ⟨above, visit⟩ := site
  cases visit with
  | text content =>
    obtain ⟨tag, rfl, -⟩ := Node.eq_of_mem_textPlaces hplace
    cases hbutton
  | element tag =>
    rcases List.mem_append.1 hplace with hclass | hother
    · obtain ⟨content, rfl, -⟩ := Tag.eq_of_mem_classPlaces hclass
      exact hbutton
    · obtain ⟨name, value, rfl, -⟩ := Tag.eq_of_mem_attributePlaces hother
      cases hbutton

end Site

/-! ## The first button -/

/-- What is in front of the first of an append is in front of the first of one of its parts. -/
theorem mem_takeWhile_append {α : Type} {keeps : α → Bool} {first second : List α} {item : α}
    (hitem : item ∈ (first ++ second).takeWhile keeps) :
    item ∈ first.takeWhile keeps ∨ item ∈ second.takeWhile keeps := by
  rw [List.takeWhile_append] at hitem
  split at hitem
  · next hall =>
    rw [(List.takeWhile_prefix keeps).eq_of_length hall]
    exact List.mem_append.1 hitem
  · exact Or.inl hitem

namespace Node

/-- A text is a label only inside a button. -/
theorem isLabel_of_mem_textPlaces {options : Options} {parent : Option Tag}
    (hparent : parent.any Tag.isButton = false) {content : Text} {place : Place}
    (hplace : place ∈ textPlaces options parent content) : place.isLabel = false := by
  cases parent with
  | none => cases hplace
  | some tag =>
    rw [textPlaces] at hplace
    split at hplace
    · obtain rfl := List.mem_singleton.1 hplace
      exact hparent
    · cases hplace

mutual

theorem isLabel_of_mem_takeWhile_places {options : Options} (hmode : options.classMode ≠ .fixed)
    {place : Place} {parent : Option Tag} (hparent : parent.any Tag.isButton = false) :
    ∀ node : Node, place ∈ (node.places options parent).takeWhile (!Place.isButtonClass ·) →
      place.isLabel = false
  | .text content, hplace => isLabel_of_mem_textPlaces hparent (List.takeWhile_subset _ hplace)
  | .element tag children, hplace => by
    by_cases hbutton : tag.isButton = true
    · -- The class list of this button comes first.
      obtain ⟨content, hclass⟩ := Tag.exists_classPlaces_of_isButton hmode hbutton
      rw [places, Tag.places, hclass] at hplace
      simp [Place.isButtonClass, hbutton] at hplace
    · rw [places] at hplace
      rcases mem_takeWhile_append hplace with htag | hchildren
      · exact Place.isLabel_of_mem_tagPlaces (List.takeWhile_subset _ htag)
      · split at hchildren
        · cases hchildren
        · have hnone : (some tag).any Tag.isButton = false := Bool.not_eq_true _ ▸ hbutton
          exact isLabel_of_mem_takeWhile hmode hnone children hchildren

/-- In front of the first button there is no label. -/
theorem isLabel_of_mem_takeWhile {options : Options} (hmode : options.classMode ≠ .fixed)
    {place : Place} {parent : Option Tag} (hparent : parent.any Tag.isButton = false) :
    ∀ nodes : List Node,
      place ∈ (placesOf options parent nodes).takeWhile (!Place.isButtonClass ·) →
        place.isLabel = false
  | [], hplace => absurd hplace List.not_mem_nil
  | node :: rest, hplace => by
    rw [placesOf] at hplace
    rcases mem_takeWhile_append hplace with hfirst | hrest
    · exact isLabel_of_mem_takeWhile_places hmode hparent node hfirst
    · exact isLabel_of_mem_takeWhile hmode hparent rest hrest

end

/-- Places in front of which no button comes, and none of which is one, have no label among them. -/
theorem isLabel_of_append {options : Options} (hmode : options.classMode ≠ .fixed)
    {tree : List Node} {before later : List Place}
    (hplaces : placesOf options none tree = before ++ later)
    (hbefore : ∀ place ∈ before, place.isButtonClass = false) :
    ∀ place ∈ before, place.isLabel = false := by
  intro place hplace
  have hnone : (none : Option Tag).any Tag.isButton = false := rfl
  refine isLabel_of_mem_takeWhile hmode hnone tree ?_
  rw [hplaces, List.takeWhile_append_of_pos (by simpa using hbefore)]
  exact List.mem_append_left _ hplace

end Node

end Stencil
