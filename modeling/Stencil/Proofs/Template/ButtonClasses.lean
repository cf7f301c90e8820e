import Stencil.Proofs.Template.FixedClasses
import Stencil.Proofs.Template.Labels

/-!
# Class lists with and without texts

Whether or not texts are editable, the class lists of a tree are written the same, those of buttons
apart (`Template.classes_with_and_without_texts`). The key of a button's class list carries the
number of the label to come. So where texts are editable it counts the labels in front, and where
they are not there is nothing to count and all buttons share one key
(`Template.buttons_count_labels`).

* `Naming.classPart`, the part of a history that other class lists read;
* `isNumberedButtonKey`, the keys that only buttons behind labels have;
* `Thinning.texts`, the comparison of the namings with and without texts.
-/

set_option autoImplicit false

namespace Stencil

namespace Naming

/-! ## What class lists read -/

/-- All that the keys of class lists depend on, those of buttons apart: whether section and
container are taken, and how many class lists had a number. -/
def classPart (naming : Naming) : Bool × Bool × Int :=
  (naming.sectionTaken, naming.containerTaken, naming.classLists)

theorem classPart_textKey (tag : Tag) (naming : Naming) :
    (naming.textKey tag).2.classPart = naming.classPart := by
  unfold textKey
  split
  · rfl
  split
  · split
    · rfl
    · rfl
  split
  · rfl
  · rfl

theorem classPart_attributeKey (tag : Tag) (name : Text) (naming : Naming) :
    (naming.attributeKey tag name).2.classPart = naming.classPart := by
  unfold attributeKey
  split
  · rfl
  · rfl

/-- Histories that agree on class lists agree behind one more, and give it the same key unless it is
that of a button. -/
theorem classKey_congr {naming other : Naming} (h : naming.classPart = other.classPart)
    (mode : ClassMode) (tag : Tag) :
    (tag.isButton = false → (naming.classKey mode tag).1 = (other.classKey mode tag).1) ∧
      (naming.classKey mode tag).2.classPart = (other.classKey mode tag).2.classPart := by
  simp only [classPart, Prod.mk.injEq] at h
  obtain ⟨hsection, hcontainer, hlists⟩ := h
  unfold classKey
  rw [hsection, hcontainer, hlists]
  -- The same branch is taken from both histories; only that of buttons reads anything else.
  split
  · simp [classPart, hsection, hcontainer, hlists]
  split
  · simp [classPart]
  split
  · simp [classPart]
  split
  · next hbutton =>
    refine ⟨fun hother => ?_, by simp [classPart, hsection, hcontainer, hlists]⟩
    rw [hother] at hbutton
    cases hbutton
  · simp [classPart]

end Naming

/-- Whether a place is a text. -/
def Place.isText : Place → Bool
  | .ofClass _ _ => false
  | .ofAttribute _ _ _ => false
  | .ofText _ _ => true

/-! ## The keys of buttons -/

/-- Whether a key is `btn_classes_` with a number behind it. -/
def isNumberedButtonKey (key : Text) : Bool :=
  Text.startsWith key "btn_classes_" &&
    (key.drop ("btn_classes_" : Text).length).all CodePoint.isAsciiDigit

/-- The first button has a key of its own, all others have a number. -/
theorem numbered_button (count : Nat) :
    numbered "btn_classes" ((count : Int) + 1) = "btn_classes" ∨
      isNumberedButtonKey (numbered "btn_classes" ((count : Int) + 1)) = true := by
  have hnumeral : intNumeral ((count : Int) + 1) = natNumeral (count + 1) := rfl
  have hstart : ("btn_classes" : Text) ++ ("_" : Text) = "btn_classes_" := by decide
  have hdigits : (natNumeral (count + 1)).all CodePoint.isAsciiDigit = true := by
    rw [List.all_eq_true]
    exact fun digit hdigit => isAsciiDigit_of_mem_natNumeral hdigit
  rw [numbered]
  split
  · exact Or.inl rfl
  · right
    rw [hnumeral, hstart, isNumberedButtonKey, List.drop_left, hdigits, Bool.and_true]
    exact Text.startsWith_iff.2 (List.prefix_append _ _)

/-! ## Naming without the texts -/

/-- Whether a field is looked at, by its key. Only keys with a `c` come into question: those of
class lists have one, and those of texts have none. -/
def Field.looked (looks : Text → Bool) (field : Field) : Bool :=
  field.key.contains 'c' && looks field.key

theorem Field.looked_ofText (looks : Text → Bool) (parent : Tag) (content : Text)
    (naming : Naming) :
    ((Place.ofText parent content).field (naming.textKey parent).1).looked looks = false := by
  have hnone : (naming.textKey parent).1.contains 'c' = false := by
    rw [← Bool.not_eq_true, List.contains_iff_mem]
    exact Naming.not_mem_textKey parent naming
  rw [Field.looked, Place.field, hnone, Bool.false_and]

/-- Two histories that differ in texts only, the second of which knows of no label. -/
structure Naming.SameButTexts (naming other : Naming) : Prop where
  classPart : naming.classPart = other.classPart
  links : naming.links = other.links
  labels : 0 ≤ naming.buttons
  noLabel : other.buttons = 0

theorem Naming.SameButTexts.start : SameButTexts {} {} :=
  ⟨rfl, rfl, Int.le_refl 0, rfl⟩

theorem Naming.SameButTexts.ask {naming other : Naming} (h : SameButTexts naming other)
    {mode : ClassMode} {place : Place} (hplace : place.isText = false) :
    SameButTexts (naming.ask mode place).2 (other.ask mode place).2 := by
  cases place with
  | ofClass tag content =>
    exact ⟨(classKey_congr h.classPart mode tag).2,
      ((links_classKey mode tag naming).trans h.links).trans (links_classKey mode tag other).symm,
      (buttons_of_textPart (textPart_classKey mode tag naming)).symm ▸ h.labels,
      (buttons_of_textPart (textPart_classKey mode tag other)).trans h.noLabel⟩
  | ofAttribute tag name value =>
    exact ⟨((classPart_attributeKey tag name naming).trans h.classPart).trans
        (classPart_attributeKey tag name other).symm,
      (attributeKey_congr h.links tag name).2,
      (buttons_of_textPart (textPart_attributeKey tag name naming)).symm ▸ h.labels,
      (buttons_of_textPart (textPart_attributeKey tag name other)).trans h.noLabel⟩
  | ofText parent content => cases hplace

theorem Naming.SameButTexts.askText {naming other : Naming} (h : SameButTexts naming other)
    (mode : ClassMode) (parent : Tag) (content : Text) :
    SameButTexts (naming.ask mode (.ofText parent content)).2 other := by
  refine ⟨(classPart_textKey parent naming).trans h.classPart,
    (links_textKey parent naming).trans h.links, ?_, h.noLabel⟩
  have hlabels := h.labels
  rw [buttons_ask]
  split
  · omega
  · omega

/-- Without the texts, class lists and attributes are named the same, as far as they are looked at.
The class list of a button may be looked at only where no label was named before it. -/
theorem Thinning.texts {mode : ClassMode} (looks : Text → Bool)
    {calm : List Place → Naming → Prop}
    (hcalm : ∀ (place : Place) (rest : List Place) (naming : Naming),
      calm (place :: rest) naming → calm rest (naming.ask mode place).2)
    (hbuttons : ∀ (place : Place) (rest : List Place) (naming : Naming),
      calm (place :: rest) naming → place.isButtonClass = true → naming.buttons = 0 ∨
        ∀ count : Nat, looks (numbered "btn_classes" ((count : Int) + 1)) = false) :
    Thinning mode mode Place.isText (Field.looked looks)
      (fun rest naming other => naming.SameButTexts other ∧ calm rest naming) where
  skipped := by
    intro place rest naming other hskip ⟨hsame, hrest⟩
    cases place with
    | ofClass tag content => cases hskip
    | ofAttribute tag name value => cases hskip
    | ofText parent content =>
      refine ⟨⟨hsame.askText mode parent content, hcalm _ rest naming hrest⟩, ?_⟩
      intro key hkey
      obtain rfl : (naming.textKey parent).1 = key := Option.some.inj hkey
      exact Field.looked_ofText looks parent content naming
  kept := by
    intro place rest naming other hkept ⟨hsame, hrest⟩
    refine ⟨⟨hsame.ask hkept, hcalm place rest naming hrest⟩, ?_⟩
    cases place with
    | ofAttribute tag name value =>
      exact Or.inl (congrArg some (Naming.attributeKey_congr hsame.links tag name).1)
    | ofText parent content => cases hkept
    | ofClass tag content =>
      by_cases hbutton : tag.isButton = true
      · by_cases hmode : mode = .fixed
        · -- Nothing is named here.
          left
          rw [Naming.ask, Naming.ask, Naming.classKey, Naming.classKey, if_pos hmode, if_pos hmode]
        · obtain ⟨count, hcount⟩ := Int.eq_ofNat_of_zero_le hsame.labels
          rw [Naming.ask, Naming.ask, Naming.classKey_button hmode hbutton,
            Naming.classKey_button hmode hbutton, hsame.noLabel, hcount]
          rcases hbuttons _ rest naming hrest hbutton with hfirst | hnone
          · left
            rw [← hcount, hfirst]
          · have hunseen : ∀ count : Nat, ((Place.ofClass tag content).field
                (numbered "btn_classes" ((count : Int) + 1))).looked looks = false := by
              intro count
              rw [Field.looked, Place.field, hnone count, Bool.and_false]
            right
            refine ⟨?_, ?_⟩
            · rintro key ⟨⟩
              exact hunseen count
            · rintro key ⟨⟩
              exact hunseen 0
      · exact Or.inl ((Naming.classKey_congr hsame.classPart mode tag).1
          (Bool.not_eq_true _ ▸ hbutton))

/-- Whether, from here on, no class list of a button comes behind a label, those named before
counted in. -/
def Naming.ButtonsFirst (naming : Naming) (places : List Place) : Prop :=
  (naming.buttons = 0 ∨ ∀ place ∈ places, place.isButtonClass = false) ∧
    places.Pairwise fun first second => first.isLabel = true → second.isButtonClass = false

theorem Naming.ButtonsFirst.ask {naming : Naming} {place : Place} {rest : List Place}
    (h : naming.ButtonsFirst (place :: rest)) (mode : ClassMode) :
    (naming.ask mode place).2.ButtonsFirst rest := by
  obtain ⟨hstart, hpairs⟩ := h
  obtain ⟨hplace, hrest⟩ := List.pairwise_cons.1 hpairs
  refine ⟨?_, hrest⟩
  by_cases hlabel : place.isLabel = true
  · exact Or.inr fun other hother => hplace other hother hlabel
  · rcases hstart with hnone | hno
    · left
      rw [buttons_ask, if_neg hlabel, hnone]
      rfl
    · exact Or.inr fun other hother => hno other (List.mem_cons_of_mem place hother)

theorem Naming.ButtonsFirst.of_noButton {places : List Place}
    (hnone : ∀ place ∈ places, place.isButtonClass = false) : ButtonsFirst {} places :=
  ⟨Or.inl rfl, List.pairwise_of_forall_mem_list fun _ _ place hplace _ => hnone place hplace⟩

theorem Naming.ButtonsFirst.of_noLabel {places : List Place}
    (hnone : ∀ place ∈ places, place.isLabel = false) : ButtonsFirst {} places := by
  refine ⟨Or.inl rfl, List.pairwise_of_forall_mem_list ?_⟩
  intro place hplace _ _ hlabel
  rw [hnone place hplace] at hlabel
  cases hlabel

/-- Where no button comes behind a label, all class lists are named the same without the texts. -/
theorem Thinning.buttonsFirst (mode : ClassMode) (looks : Text → Bool) :
    Thinning mode mode Place.isText (Field.looked looks)
      (fun rest naming other => naming.SameButTexts other ∧ naming.ButtonsFirst rest) := by
  refine Thinning.texts looks (fun place rest naming h => h.ask mode) ?_
  intro place rest naming ⟨hstart, _⟩ hbutton
  left
  rcases hstart with hnone | hno
  · exact hnone
  · rw [hno place List.mem_cons_self] at hbutton
    cases hbutton

/-- Where no button is looked at, all other class lists are named the same without the texts. -/
theorem Thinning.besideButtons (mode : ClassMode) (looks : Text → Bool)
    (hlooks : ∀ count : Nat, looks (numbered "btn_classes" ((count : Int) + 1)) = false) :
    Thinning mode mode Place.isText (Field.looked looks)
      (fun _ naming other => naming.SameButTexts other ∧ True) :=
  Thinning.texts looks (fun _ _ _ _ => trivial) (fun _ _ _ _ _ => Or.inr hlooks)

namespace Naming

/-- The class list of a button with no label in front has the key without a number. -/
theorem btn_classes_mem_fields {mode : ClassMode} (hmode : mode ≠ .fixed) {tag : Tag}
    (hbutton : tag.isButton = true) (content : Text) {before : List Place}
    (hlabels : ∀ place ∈ before, place.isLabel = false) :
    (Place.ofClass tag content).field "btn_classes" ∈
      fields mode (before ++ [.ofClass tag content]) {} := by
  have hcount : before.countP Place.isLabel = 0 := by
    rw [List.countP_eq_zero]
    intro place hplace
    rw [hlabels place hplace]
    exact Bool.false_ne_true
  have hnone : (after mode before {}).buttons = 0 := by
    rw [buttons_after, hcount]
    rfl
  rw [fields_append, List.mem_append, fields, ask, classKey_button hmode hbutton, hnone]
  exact Or.inr List.mem_cons_self

/-- Numbers apart, the texts make no difference to the fields of class lists once the key of the
first button is taken. -/
theorem firsts_besideNumbers {mode : ClassMode} {head : List Place}
    (hfirst : ButtonsFirst {} head)
    (htaken : ("btn_classes" : Text) ∈ (fields mode head {}).map Field.key) (later : List Place) :
    Register.firsts ((fields mode (head ++ later) {}).filter
        (Field.looked (!isNumberedButtonKey ·))) =
      Register.firsts ((fields mode ((head ++ later).filter (!Place.isText ·)) {}).filter
        (Field.looked (!isNumberedButtonKey ·))) := by
  let looked := Field.looked (!isNumberedButtonKey ·)
  let others := Field.looked fun key => !isNumberedButtonKey key && key ≠ ("btn_classes" : Text)
  let named := after mode head {}
  let named' := after mode (head.filter (!Place.isText ·)) {}
  have hothers : ∀ list : List Field,
      (list.filter looked).filter (·.key ≠ ("btn_classes" : Text)) = list.filter others := by
    intro list
    rw [List.filter_filter]
    refine List.filter_congr fun field _ => ?_
    simp only [looked, others, Field.looked]
    rw [Bool.and_comm, Bool.and_assoc]
  -- Up to the first button nothing depends on the texts.
  have hthinning := Thinning.buttonsFirst mode (!isNumberedButtonKey ·)
  have hsame := hthinning.filter_fields ⟨.start, hfirst⟩
  have hnamed : SameButTexts named named' :=
    (hthinning.related_after head [] ⟨.start, (List.append_nil head).symm ▸ hfirst⟩).1
  -- Behind it, all keys of buttons are taken or have a number.
  have hlater : (fields mode later named).filter others =
      (fields mode (later.filter (!Place.isText ·)) named').filter others := by
    refine (Thinning.besideButtons mode _ fun count => ?_).filter_fields ⟨hnamed, trivial⟩
    rcases numbered_button count with hfirst | hnumber
    · rw [hfirst]
      decide
    · rw [hnumber]
      rfl
  have hlooked : ("btn_classes" : Text) ∈ ((fields mode head {}).filter looked).map Field.key := by
    obtain ⟨field, hfield, hkey⟩ := List.mem_map.1 htaken
    refine List.mem_map.2 ⟨field, List.mem_filter.2 ⟨hfield, ?_⟩, hkey⟩
    simp only [looked, Field.looked, hkey]
    decide
  rw [List.filter_append head later, fields_append, fields_append, List.filter_append,
    List.filter_append, ← hsame]
  refine Register.firsts_append_congr hlooked ?_
  rw [hothers, hothers]
  exact hlater

end Naming

/-! ## The places without the texts -/

section Lists

variable (options : Options)

theorem Tag.places_hidden (tag : Tag) :
    tag.places { options with textEditable := false } =
      (tag.places { options with textEditable := true }).filter (!Place.isText ·) := by
  have hall : (tag.places options).filter (!Place.isText ·) = tag.places options := by
    rw [List.filter_eq_self]
    intro place hplace
    rcases List.mem_append.1 hplace with hclass | hother
    · obtain ⟨content, rfl, -⟩ := Tag.eq_of_mem_classPlaces hclass
      rfl
    · obtain ⟨name, value, rfl, -⟩ := Tag.eq_of_mem_attributePlaces hother
      rfl
  exact hall.symm

theorem Node.textPlaces_hidden (parent : Option Tag) (content : Text) :
    textPlaces { options with textEditable := false } parent content =
      (textPlaces { options with textEditable := true } parent content).filter
        (!Place.isText ·) := by
  have hshown : (textPlaces { options with textEditable := true } parent content).filter
      (!Place.isText ·) = [] := by
    rw [List.filter_eq_nil_iff]
    intro place hplace
    obtain ⟨tag, rfl, -⟩ := eq_of_mem_textPlaces hplace
    exact Bool.false_ne_true
  have hhidden : textPlaces { options with textEditable := false } parent content = [] := by
    cases parent with
    | none => rfl
    | some tag =>
      rw [textPlaces]
      exact if_neg fun h => Bool.false_ne_true h.1
  rw [hshown, hhidden]

theorem Node.placesOf_hidden (tree : List Node) :
    placesOf { options with textEditable := false } none tree =
      (placesOf { options with textEditable := true } none tree).filter (!Place.isText ·) :=
  placesOf_thinned (Tag.places_hidden options) (textPlaces_hidden options) none tree

end Lists

theorem Site.places_hidden (options : Options) (site : Site) :
    site.places { options with textEditable := false } =
      (site.places { options with textEditable := true }).filter (!Place.isText ·) := by
  obtain ⟨above, visit⟩ := site
  cases visit with
  | text content => exact Node.textPlaces_hidden options _ content
  | element tag => exact Tag.places_hidden options tag

/-! ## The class of a tag -/

namespace Tag

/-- The class of a tag is written the same where its key is the same. -/
theorem writtenClass_congr {first second : Options} (hmode : first.classMode = second.classMode)
    {tag : Tag} {naming other : Naming}
    (hkey : (naming.classKey first.classMode tag).1 = (other.classKey second.classMode tag).1) :
    tag.writtenClass first naming = tag.writtenClass second other := by
  have hplaces : tag.classPlaces second = tag.classPlaces first := by
    unfold classPlaces
    rw [hmode]
  rcases tag.classPlaces_eq first with hnone | ⟨content, -, -, hplace⟩
  · simp [writtenClass, fillClass, hplaces, hnone]
  · simp [writtenClass, fillClass, hplaces, hplace, Naming.keys, Naming.ask, hkey]

theorem onlyClass_written_button {options : Options} (hmode : options.classMode ≠ .fixed)
    {tag : Tag} (hbutton : tag.isButton = true) (naming : Naming) :
    (tag.written options naming).onlyClass =
      ⟨tag.name,
        [("class", .text (placeholder (numbered "btn_classes" (naming.buttons + 1))))]⟩ := by
  obtain ⟨value, hvalue, -⟩ := exists_class_of_isButton hbutton
  obtain ⟨content, hplace⟩ := exists_classPlaces_of_isButton hmode hbutton
  rw [onlyClass_written, writtenClass, fillClass, hvalue, hplace]
  simp [Naming.keys, Naming.ask, Naming.classKey_button hmode hbutton]

end Tag

/-! ## Templates -/

namespace Template

/-- Behind the same sites, the histories with and without texts differ in texts only. -/
theorem sameButTexts_after (options : Options) (before : List Site) :
    Naming.SameButTexts
      (Naming.after options.classMode
        (before.flatMap (Site.places { options with textEditable := true })) {})
      (Naming.after options.classMode
        (before.flatMap (Site.places { options with textEditable := false })) {}) := by
  have hhidden : before.flatMap (Site.places { options with textEditable := false }) =
      (before.flatMap (Site.places { options with textEditable := true })).filter
        (!Place.isText ·) := by
    rw [List.filter_flatMap]
    exact congrArg₂ List.flatMap (funext (Site.places_hidden options)) rfl
  -- Only the histories matter here, so no field is looked at.
  have hthinning := Thinning.besideButtons options.classMode (fun _ => false) fun _ => rfl
  rw [hhidden]
  exact (hthinning.related_after _ [] ⟨.start, trivial⟩).1

/-! ### Fields of class lists -/

/-- Of the fields of class lists, those that are looked at can be told from the fields that are
looked at. -/
theorem filter_isClasses (options : Options) (tree : List Node) (looks : Text → Bool) :
    (ofTree options tree).fields.filter (fun field => field.isClasses && looks field.key) =
      (Register.firsts ((Naming.fields options.classMode (Node.placesOf options none tree)
        {}).filter (Field.looked looks))).filter Field.isClasses := by
  -- The key of a class list has a `c`.
  have hspelled : ∀ field ∈ Naming.fields options.classMode (Node.placesOf options none tree) {},
      field.isClasses = true → field.key.contains 'c' = true := by
    apply Naming.forall_mem_fields
    intro place _ naming key hkey hclasses
    rw [Place.isClasses_field] at hclasses
    cases place with
    | ofClass tag content => exact List.contains_iff_mem.2 (Naming.mem_classKey hkey)
    | ofAttribute tag name value => cases hclasses
    | ofText parent content => cases hclasses
  have hkey : ∀ first second : Field, first.key = second.key →
      first.looked looks = second.looked looks := by
    intro first second hsame
    rw [Field.looked, Field.looked, hsame]
  rw [fields_eq_firsts, ← Register.filter_firsts fun first _ second _ => hkey first second,
    List.filter_filter]
  refine List.filter_congr ?_
  intro field hfield
  by_cases hclasses : field.isClasses = true
  · rw [Field.looked, hspelled field (Register.mem_of_mem_firsts hfield) hclasses, Bool.true_and]
  · simp only [Bool.not_eq_true] at hclasses
    simp only [hclasses, Bool.false_and]

theorem filter_classes_congr {options : Options} {tree : List Node} (looks : Text → Bool)
    (h : let places := Node.placesOf { options with textEditable := true } none tree
      Register.firsts ((Naming.fields options.classMode places {}).filter (Field.looked looks)) =
        Register.firsts ((Naming.fields options.classMode (places.filter (!Place.isText ·))
          {}).filter (Field.looked looks))) :
    (ofTree { options with textEditable := true } tree).fields.filter
        (fun field => field.isClasses && looks field.key) =
      (ofTree { options with textEditable := false } tree).fields.filter
        (fun field => field.isClasses && looks field.key) := by
  rw [filter_isClasses, filter_isClasses, Node.placesOf_hidden]
  exact congrArg (List.filter Field.isClasses) h

/-- Where no button comes behind a label, the fields of class lists are the same with and without
texts. -/
theorem filter_classes_of_buttonsFirst {options : Options} {tree : List Node}
    (hfirst : Naming.ButtonsFirst {}
      (Node.placesOf { options with textEditable := true } none tree)) (looks : Text → Bool) :
    (ofTree { options with textEditable := true } tree).fields.filter
        (fun field => field.isClasses && looks field.key) =
      (ofTree { options with textEditable := false } tree).fields.filter
        (fun field => field.isClasses && looks field.key) :=
  filter_classes_congr looks (congrArg Register.firsts
    ((Thinning.buttonsFirst options.classMode looks).filter_fields ⟨.start, hfirst⟩))

theorem buttonsFirst_of_fixed {options : Options} (hmode : options.classMode = .fixed)
    (tree : List Node) : Naming.ButtonsFirst {} (Node.placesOf options none tree) := by
  refine .of_noButton ?_
  intro place hplace
  have hopen := Node.open_of_mem_placesOf tree hplace
  cases place with
  | ofClass tag content => exact absurd hmode hopen
  | ofAttribute tag name value => rfl
  | ofText parent content => rfl

theorem buttonsFirst_of_sites {options : Options} (htexts : options.textEditable = true)
    {tree : List Node} (hsites : (Node.sitesOf 0 [] (Node.pruneAll tree)).Pairwise
      fun first second => first.isLabel = true → second.isButton = false) :
    Naming.ButtonsFirst {} (Node.placesOf options none tree) := by
  have hplaces : Node.placesOf options none tree =
      (Node.sitesOf 0 [] (Node.pruneAll tree)).flatMap (Site.places options) :=
    Node.placesOf_pruneAll options 0 [] tree
  refine ⟨Or.inl rfl, ?_⟩
  rw [hplaces, List.pairwise_flatMap]
  constructor
  · -- Within one site there is no label where there is the class list of a button.
    intro site _
    refine List.pairwise_of_forall_mem_list ?_
    intro first hfirst second hsecond hlabel
    have hsite := Site.not_isButton_of_isLabel (Site.isLabel_of_mem_places htexts hfirst hlabel)
    rw [← Bool.not_eq_true]
    intro hbutton
    rw [Site.isButton_of_mem_places hsecond hbutton] at hsite
    cases hsite
  · refine hsites.imp ?_
    intro site later hpair first hfirst second hsecond hlabel
    have hlater := hpair (Site.isLabel_of_mem_places htexts hfirst hlabel)
    rw [← Bool.not_eq_true]
    intro hbutton
    rw [Site.isButton_of_mem_places hsecond hbutton] at hlater
    cases hlater

/-- Numbers apart, the fields of class lists are the same with and without texts. -/
theorem filter_classes_besideNumbers (options : Options) (tree : List Node) :
    (ofTree { options with textEditable := true } tree).fields.filter
        (fun field => field.isClasses && !isNumberedButtonKey field.key) =
      (ofTree { options with textEditable := false } tree).fields.filter
        (fun field => field.isClasses && !isNumberedButtonKey field.key) := by
  let shown : Options := { options with textEditable := true }
  let places := Node.placesOf shown none tree
  cases hfind : places.find? Place.isButtonClass with
  | none =>
    have hnone := List.find?_eq_none.1 hfind
    simp only [Bool.not_eq_true] at hnone
    exact filter_classes_of_buttonsFirst (.of_noButton hnone) (!isNumberedButtonKey ·)
  | some place =>
    obtain ⟨hbutton, before, later, hplaces, hbefore⟩ := List.find?_eq_some_iff_append.1 hfind
    have hmem : place ∈ places := List.mem_of_find?_eq_some hfind
    have hopen : place.Open shown.classMode := Node.open_of_mem_placesOf tree hmem
    refine filter_classes_congr (!isNumberedButtonKey ·) ?_
    cases place with
    | ofClass tag content =>
      have hmode : shown.classMode ≠ .fixed := hopen
      have hlabels := Node.isLabel_of_append hmode hplaces (by simpa using hbefore)
      have htaken := Naming.btn_classes_mem_fields hmode hbutton content hlabels
      have hhead : Naming.ButtonsFirst {} (before ++ [.ofClass tag content]) := by
        refine .of_noLabel ?_
        intro other hother
        rcases List.mem_append.1 hother with hfront | hself
        · exact hlabels other hfront
        · rw [List.mem_singleton.1 hself]
          rfl
      have hfirsts := Naming.firsts_besideNumbers hhead (List.mem_map_of_mem htaken) later
      rw [← List.append_cons, ← hplaces] at hfirsts
      exact hfirsts
    | ofAttribute tag name value => cases hbutton
    | ofText parent content => cases hbutton

/-! ### With and without texts -/

/-- The class of a tag behind the same sites, with and without texts. -/
theorem onlyClass_written_texts (options : Options) (before : List Site) (tag : Tag) :
    let shown : Options := { options with textEditable := true }
    let hidden : Options := { options with textEditable := false }
    let named := Naming.after options.classMode (before.flatMap (Site.places shown)) {}
    let named' := Naming.after options.classMode (before.flatMap (Site.places hidden)) {}
    (tag.isButton = false ∨ options.classMode = .fixed ∨ before.countP Site.isLabel = 0 →
        (tag.written shown named).onlyClass = (tag.written hidden named').onlyClass) ∧
      (tag.isButton = true → options.classMode ≠ .fixed →
        (tag.written shown named).onlyClass = ⟨tag.name, [("class", .text
            (placeholder (numbered "btn_classes" ((before.countP Site.isLabel : Nat) + 1))))]⟩ ∧
          (tag.written hidden named').onlyClass =
            ⟨tag.name, [("class", .text (placeholder "btn_classes"))]⟩) := by
  intro shown hidden named named'
  have hsame : Naming.SameButTexts named named' := sameButTexts_after options before
  have hcount : named.buttons = (before.countP Site.isLabel : Nat) := by
    rw [Naming.buttons_after, Site.countP_flatMap_places rfl]
    exact Int.zero_add _
  have hbutton : tag.isButton = true → options.classMode ≠ .fixed →
      (tag.written shown named).onlyClass = ⟨tag.name, [("class", .text
          (placeholder (numbered "btn_classes" ((before.countP Site.isLabel : Nat) + 1))))]⟩ ∧
        (tag.written hidden named').onlyClass =
          ⟨tag.name, [("class", .text (placeholder "btn_classes"))]⟩ := by
    intro hbutton hmode
    have hshown : shown.classMode ≠ .fixed := hmode
    have hhidden : hidden.classMode ≠ .fixed := hmode
    have hfirst := Tag.onlyClass_written_button hshown hbutton named
    have hsecond := Tag.onlyClass_written_button hhidden hbutton named'
    rw [hcount] at hfirst
    rw [hsame.noLabel] at hsecond
    exact ⟨hfirst, hsecond⟩
  refine ⟨?_, hbutton⟩
  intro hcase
  by_cases hmode : options.classMode = .fixed
  · have hfirst : shown.classMode = .fixed := hmode
    have hsecond : hidden.classMode = .fixed := hmode
    rw [Tag.onlyClass_written_fixed hfirst, Tag.onlyClass_written_fixed hsecond]
  by_cases hother : tag.isButton = true
  · -- A button with no label in front is the first one with texts, too.
    have hnone : before.countP Site.isLabel = 0 := by
      rcases hcase with hno | hfixed | hnone
      · rw [hother] at hno
        cases hno
      · exact absurd hfixed hmode
      · exact hnone
    obtain ⟨hshown, hhidden⟩ := hbutton hother hmode
    rw [hshown, hhidden, hnone]
    rfl
  · have hkey := (Naming.classKey_congr hsame.classPart options.classMode tag).1
      (Bool.not_eq_true _ ▸ hother)
    have hclass : tag.writtenClass shown named = tag.writtenClass hidden named' :=
      Tag.writtenClass_congr rfl hkey
    rw [Tag.onlyClass_written, Tag.onlyClass_written, hclass]

/-- **The texts do not change the class lists, the numbers of buttons apart.** With and without
editable texts, the template is its tree written out. An element shown at the same place in both has
the same class, unless classes are editable and it is a button behind some labels: its number counts
them with texts, and it has none without. The fields of class lists are the same, but for those with
the number of a button; and they are all the same where classes are fixed, or no button comes behind
a label. -/
theorem classes_with_and_without_texts (options : Options) (tree : List Node) :
    let shown : Options := { options with textEditable := true }
    let hidden : Options := { options with textEditable := false }
    let sites := Node.sitesOf 0 [] (Node.pruneAll tree)
    (ofTree shown tree).text = Node.printAll (Node.writtenAll shown none {} tree) ∧
      (ofTree hidden tree).text = Node.printAll (Node.writtenAll hidden none {} tree) ∧
      (∀ before above tag later, sites = before ++ ⟨above, .element tag⟩ :: later →
        ∃ first second : Tag,
          (Node.visitsOf (Node.writtenAll shown none {} tree))[before.length]? =
              some (.element first) ∧
            (Node.visitsOf (Node.writtenAll hidden none {} tree))[before.length]? =
              some (.element second) ∧
            (tag.isButton = false ∨ options.classMode = .fixed ∨
                before.countP Site.isLabel = 0 →
              first.onlyClass = second.onlyClass) ∧
            (tag.isButton = true → options.classMode ≠ .fixed →
              first.onlyClass = ⟨tag.name, [("class", .text (placeholder
                  (numbered "btn_classes" ((before.countP Site.isLabel : Nat) + 1))))]⟩ ∧
                second.onlyClass =
                  ⟨tag.name, [("class", .text (placeholder "btn_classes"))]⟩)) ∧
      (ofTree shown tree).fields.filter
          (fun field => field.kind = .classes ∧ ¬ isNumberedButtonKey field.key) =
        (ofTree hidden tree).fields.filter
          (fun field => field.kind = .classes ∧ ¬ isNumberedButtonKey field.key) ∧
      (options.classMode = .fixed ∨
          sites.Pairwise (fun first second => first.isLabel = true → second.isButton = false) →
        (ofTree shown tree).fields.filter (fun field => field.kind = .classes) =
          (ofTree hidden tree).fields.filter (fun field => field.kind = .classes)) := by
  intro shown hidden sites
  refine ⟨text_eq_printAll shown tree, text_eq_printAll hidden tree, ?_, ?_, ?_⟩
  · intro before above tag later hsites
    exact ⟨_, _, Node.getElem?_visitsOf_written shown hsites,
      Node.getElem?_visitsOf_written hidden hsites, onlyClass_written_texts options before tag⟩
  · simpa [Field.isClasses] using filter_classes_besideNumbers options tree
  · intro hcase
    have hfirst : Naming.ButtonsFirst {} (Node.placesOf shown none tree) := by
      rcases hcase with hfixed | hpairs
      · have hmode : shown.classMode = .fixed := hfixed
        exact buttonsFirst_of_fixed hmode tree
      · exact buttonsFirst_of_sites rfl hpairs
    have hfields := filter_classes_of_buttonsFirst hfirst fun _ => true
    simpa [Field.isClasses] using hfields

/-- Two buttons in front of all labels, and no button behind: the class lists are the same
throughout. -/
theorem classes_with_and_without_texts_row :
    let tree := Node.parse
      "<p class=a>x</p><a class=btn></a><a class=\"btn btn-dark\">Go</a><p class=b>y</p>"
    let shown : Options := { textEditable := true }
    let hidden : Options := { textEditable := false }
    let sites := Node.sitesOf 0 [] (Node.pruneAll tree)
    sites.Pairwise (fun first second => first.isLabel = true → second.isButton = false) ∧
      (ofTree shown tree).fields.filter (fun field => field.kind = .classes) =
        (ofTree hidden tree).fields.filter (fun field => field.kind = .classes) ∧
      ((ofTree hidden tree).fields.filter (fun field => field.kind = .classes)).map Field.key =
        ["p_classes", "btn_classes", "p_classes_2"] := by
  intro tree shown hidden sites
  have hpairs : sites.Pairwise
      (fun first second => first.isLabel = true → second.isButton = false) := by
    decide +kernel
  obtain ⟨-, -, -, -, hfields⟩ := classes_with_and_without_texts {} tree
  exact ⟨hpairs, hfields (Or.inr hpairs), by decide +kernel⟩

/-- With texts the second of two buttons has a key of its own, and without them it shares that of
the first. -/
theorem buttons_count_labels :
    let tree := Node.parse
      "<a class=\"btn btn-light\">One</a><a class=\"btn btn-dark\">Two</a>"
    let shown : Options := {}
    let hidden : Options := { textEditable := false }
    (Node.tagsOf (Node.writtenAll shown none {} tree)).map Tag.onlyClass ≠
        (Node.tagsOf (Node.writtenAll hidden none {} tree)).map Tag.onlyClass ∧
      (ofTree shown tree).fields.filter (fun field => field.kind = .classes) ≠
        (ofTree hidden tree).fields.filter (fun field => field.kind = .classes) := by
  decide +kernel

end Template

end Stencil
