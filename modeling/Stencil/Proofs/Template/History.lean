import Stencil.Proofs.Template.ButtonClasses

/-!
# What a history knows

Class lists, texts and attributes may be named in any order, one after another, and a history is
what they leave behind. Each of its claims is taken just when one of them was entitled to it. So
whether it still is there for the next one can be told from the list of those before.

* `Naming.answers`, the answers to a list of places; the one at an index comes from the history
  behind all before it (`Naming.getElem?_answers`);
* `Naming.titleTaken_after` and the like, the parts of that history;
* `Place.isHeading` and the like, the places that they tell of.
-/

set_option autoImplicit false

namespace Stencil

/-! ## Kinds of places -/

/-- Whether an element is a container of the page. -/
def Tag.isContainer (tag : Tag) : Bool :=
  tag.name = "div" && tag.classList.contains "container"

namespace Place

/-- Whether a place is the class list of a section. -/
def isSectionClass : Place → Bool
  | .ofClass tag _ => tag.name = "section"
  | .ofAttribute _ _ _ => false
  | .ofText _ _ => false

/-- Whether a place is the class list of a container. -/
def isContainerClass : Place → Bool
  | .ofClass tag _ => tag.isContainer
  | .ofAttribute _ _ _ => false
  | .ofText _ _ => false

/-- Whether a place is a text right inside a heading. -/
def isHeading : Place → Bool
  | .ofClass _ _ => false
  | .ofAttribute _ _ _ => false
  | .ofText parent _ => isHeadingName parent.name

/-- Whether a place is a text right inside a paragraph. -/
def isParagraph : Place → Bool
  | .ofClass _ _ => false
  | .ofAttribute _ _ _ => false
  | .ofText parent _ => parent.name = "p"

end Place

theorem Tag.not_isButton_of_paragraph {tag : Tag} (h : tag.name = "p") : ¬ tag.isButton = true := by
  intro hbutton
  rw [Tag.name_of_isButton hbutton] at h
  exact absurd h (by decide)

namespace Naming

/-! ## Answers -/

/-- The answers to places that are named one after another; a place that is refused a key has none.
-/
def answers (mode : ClassMode) : List Place → Naming → List (Option Text)
  | [], _ => []
  | place :: rest, naming =>
    (naming.ask mode place).1 :: answers mode rest (naming.ask mode place).2

/-- An answer comes from the history that all places before leave. -/
theorem getElem?_answers {mode : ClassMode} {places : List Place} {index : Nat} {place : Place}
    (h : places[index]? = some place) (naming : Naming) :
    (answers mode places naming)[index]? =
      some ((after mode (places.take index) naming).ask mode place).1 := by
  induction places generalizing index naming with
  | nil => cases h
  | cons first rest ih =>
    cases index with
    | zero =>
      rw [List.getElem?_cons_zero, Option.some_inj] at h
      rw [answers, List.getElem?_cons_zero, List.take_zero, h]
      rfl
    | succ index =>
      rw [List.getElem?_cons_succ] at h
      rw [answers, List.getElem?_cons_succ, ih h, List.take_succ_cons]
      rfl

/-- No answer stands where no place does. -/
theorem exists_of_getElem?_answers {mode : ClassMode} {places : List Place} {index : Nat}
    {naming : Naming} {answer : Option Text}
    (h : (answers mode places naming)[index]? = some answer) :
    ∃ place, places[index]? = some place := by
  induction places generalizing index naming with
  | nil => cases h
  | cons first rest ih =>
    cases index with
    | zero => exact ⟨first, rfl⟩
    | succ index => exact ih h

/-- What is before a place is before all that come after it, too. -/
theorem take_eq_append_of_lt {α : Type} {list : List α} {item : α} {first second : Nat}
    (hitem : list[first]? = some item) (hlt : first < second) :
    ∃ rest, list.take second = list.take first ++ item :: rest := by
  have hsplit := List.take_append_drop first (list.take second)
  rw [List.take_take, Nat.min_eq_left (Nat.le_of_lt hlt)] at hsplit
  have hhead : ((list.take second).drop first).head? = some item := by
    rw [List.head?_drop, List.getElem?_take_of_lt hlt, hitem]
  obtain ⟨rest, hrest⟩ := List.head?_eq_some_iff.1 hhead
  exact ⟨rest, by rw [← hsplit, hrest]⟩

/-! ## Claims -/

section Claims

variable {mode : ClassMode}

/-- A claim that some places set and none takes back is set behind any of them. -/
theorem after_claim {claim : Naming → Bool} {sets : Place → Bool}
    (hask : ∀ (place : Place) (naming : Naming),
      claim (naming.ask mode place).2 = (claim naming || sets place))
    (places : List Place) (naming : Naming) :
    claim (after mode places naming) = (claim naming || places.any sets) := by
  induction places generalizing naming with
  | nil => exact (Bool.or_false _).symm
  | cons place rest ih =>
    have hrest := ih (naming.ask mode place).2
    rw [hask, Bool.or_assoc] at hrest
    exact hrest

theorem titleTaken_of_textPart {naming next : Naming} (h : next.textPart = naming.textPart) :
    next.titleTaken = naming.titleTaken :=
  congrArg (fun part => part.1) h

theorem subtitleTaken_of_textPart {naming next : Naming} (h : next.textPart = naming.textPart) :
    next.subtitleTaken = naming.subtitleTaken :=
  congrArg (fun part => part.2.1) h

theorem titleTaken_textKey (tag : Tag) (naming : Naming) :
    (naming.textKey tag).2.titleTaken = (naming.titleTaken || isHeadingName tag.name) := by
  rw [textKey]
  by_cases hheading : isHeadingName tag.name = true
  · rw [if_neg (Tag.not_isButton_of_isHeadingName hheading), if_pos hheading, hheading,
      Bool.or_true]
    split
    · next htaken => exact htaken
    · rfl
  · have hother : isHeadingName tag.name = false := Bool.not_eq_true _ ▸ hheading
    rw [if_neg hheading, hother, Bool.or_false]
    split
    · rfl
    split
    · rfl
    · rfl

theorem subtitleTaken_textKey (tag : Tag) (naming : Naming) :
    (naming.textKey tag).2.subtitleTaken =
      (naming.subtitleTaken || (naming.titleTaken && tag.name = "p")) := by
  rw [textKey]
  by_cases hname : tag.name = "p"
  · have hheading : ¬ isHeadingName tag.name = true := by
      rw [hname]
      decide
    rw [if_neg (Tag.not_isButton_of_paragraph hname), if_neg hheading, decide_eq_true hname]
    cases htitle : naming.titleTaken <;> cases hsubtitle : naming.subtitleTaken <;> simp
  · rw [decide_eq_false hname, Bool.and_false, Bool.or_false, Bool.false_and, Bool.false_and,
      if_neg Bool.false_ne_true]
    split
    · rfl
    split
    · split
      · rfl
      · rfl
    · rfl

/-- A text in a heading takes the title. -/
theorem titleTaken_ask (place : Place) (naming : Naming) :
    (naming.ask mode place).2.titleTaken = (naming.titleTaken || place.isHeading) := by
  cases place with
  | ofClass tag content =>
    exact (titleTaken_of_textPart (textPart_classKey mode tag naming)).trans
      (Bool.or_false _).symm
  | ofAttribute tag name value =>
    exact (titleTaken_of_textPart (textPart_attributeKey tag name naming)).trans
      (Bool.or_false _).symm
  | ofText parent content => exact titleTaken_textKey parent naming

/-- A text in a paragraph takes the subtitle, if the title is taken. -/
theorem subtitleTaken_ask (place : Place) (naming : Naming) :
    (naming.ask mode place).2.subtitleTaken =
      (naming.subtitleTaken || (naming.titleTaken && place.isParagraph)) := by
  have hnone : naming.subtitleTaken =
      (naming.subtitleTaken || (naming.titleTaken && false)) := by
    rw [Bool.and_false, Bool.or_false]
  cases place with
  | ofClass tag content =>
    exact (subtitleTaken_of_textPart (textPart_classKey mode tag naming)).trans hnone
  | ofAttribute tag name value =>
    exact (subtitleTaken_of_textPart (textPart_attributeKey tag name naming)).trans hnone
  | ofText parent content => exact subtitleTaken_textKey parent naming

variable (hmode : mode ≠ .fixed)

include hmode

theorem sectionTaken_classKey (tag : Tag) (naming : Naming) :
    (naming.classKey mode tag).2.sectionTaken =
      (naming.sectionTaken || tag.name = "section") := by
  rw [classKey, if_neg hmode]
  by_cases hclaim : (!naming.sectionTaken && tag.name = "section") = true
  · rw [if_pos hclaim, (Bool.and_eq_true_iff.1 hclaim).2, Bool.or_true]
  · have hset : (naming.sectionTaken || tag.name = "section") = naming.sectionTaken := by
      revert hclaim
      cases naming.sectionTaken <;> simp
    rw [if_neg hclaim, hset]
    split
    · rfl
    split
    · rfl
    · rfl

theorem containerTaken_classKey (tag : Tag) (naming : Naming) :
    (naming.classKey mode tag).2.containerTaken =
      (naming.containerTaken || tag.isContainer) := by
  rw [classKey, if_neg hmode, Bool.and_assoc, ← Tag.isContainer]
  by_cases hsection : (!naming.sectionTaken && tag.name = "section") = true
  · have hname : tag.name = "section" := of_decide_eq_true (Bool.and_eq_true_iff.1 hsection).2
    have hother : tag.isContainer = false := by
      rw [Tag.isContainer, hname, decide_eq_false (by decide), Bool.false_and]
    rw [if_pos hsection, hother, Bool.or_false]
  rw [if_neg hsection]
  by_cases hclaim : (!naming.containerTaken && tag.isContainer) = true
  · rw [if_pos hclaim, (Bool.and_eq_true_iff.1 hclaim).2, Bool.or_true]
  · have hset : (naming.containerTaken || tag.isContainer) = naming.containerTaken := by
      revert hclaim
      cases naming.containerTaken <;> simp
    rw [if_neg hclaim, hset]
    split
    · rfl
    · rfl

/-- The class list of a section takes the section. -/
theorem sectionTaken_ask (place : Place) (naming : Naming) :
    (naming.ask mode place).2.sectionTaken = (naming.sectionTaken || place.isSectionClass) := by
  cases place with
  | ofClass tag content => exact sectionTaken_classKey hmode tag naming
  | ofAttribute tag name value =>
    have hpart := classPart_attributeKey tag name naming
    exact (congrArg (fun part => part.1) hpart).trans (Bool.or_false _).symm
  | ofText parent content =>
    have hpart := classPart_textKey parent naming
    exact (congrArg (fun part => part.1) hpart).trans (Bool.or_false _).symm

/-- The class list of a container takes the container. -/
theorem containerTaken_ask (place : Place) (naming : Naming) :
    (naming.ask mode place).2.containerTaken =
      (naming.containerTaken || place.isContainerClass) := by
  cases place with
  | ofClass tag content => exact containerTaken_classKey hmode tag naming
  | ofAttribute tag name value =>
    have hpart := classPart_attributeKey tag name naming
    exact (congrArg (fun part => part.2.1) hpart).trans (Bool.or_false _).symm
  | ofText parent content =>
    have hpart := classPart_textKey parent naming
    exact (congrArg (fun part => part.2.1) hpart).trans (Bool.or_false _).symm

end Claims

theorem titleTaken_after (mode : ClassMode) (places : List Place) (naming : Naming) :
    (after mode places naming).titleTaken = (naming.titleTaken || places.any Place.isHeading) :=
  after_claim titleTaken_ask places naming

theorem sectionTaken_after {mode : ClassMode} (hmode : mode ≠ .fixed) (places : List Place)
    (naming : Naming) : (after mode places naming).sectionTaken =
      (naming.sectionTaken || places.any Place.isSectionClass) :=
  after_claim (sectionTaken_ask hmode) places naming

theorem containerTaken_after {mode : ClassMode} (hmode : mode ≠ .fixed) (places : List Place)
    (naming : Naming) : (after mode places naming).containerTaken =
      (naming.containerTaken || places.any Place.isContainerClass) :=
  after_claim (containerTaken_ask hmode) places naming

end Naming

end Stencil
