import Stencil.Proofs.Template.OwnKeys
import Stencil.Proofs.Template.Sites
import Stencil.Proofs.Template.Thinning

/-!
# Fixed classes

Where class lists stay as they are, a template has the fields that it would have otherwise, less
those of class lists, and every class is written literally (`Template.fields_fixed`).

That no other field comes or goes has two reasons. The key of a class list changes nothing that the
keys of texts and other attributes depend on (`Thinning.fixed`). And no class list takes the key of
a text or of another attribute away from it, since its own key always tells: it has a `c` in it and
ends in an `s` or in a digit (`IsClassKey`).

* `Naming.isClassKey_iff`, the keys of class lists told from all others;
* `Tag.onlyClass` and `Tag.literalClass`, the class of a tag in a template and in the source.
-/

set_option autoImplicit false

namespace Stencil

/-! ## The keys of class lists -/

/-- Whether a key is spelled as those of class lists are: with a `c` in it, and an `s` or a digit at
its end. -/
def IsClassKey (key : Text) : Prop :=
  .scalar 'c' ∈ key ∧ ∃ last ∈ key.getLast?, last = 's' ∨ last.isAsciiDigit = true

theorem getLast?_numbered {base : Text} (hbase : base.getLast? = some (.scalar 's')) (n : Int) :
    ∃ last ∈ (numbered base n).getLast?, last = 's' ∨ last.isAsciiDigit = true := by
  rw [numbered]
  split
  · exact ⟨.scalar 's', hbase, Or.inl rfl⟩
  · obtain ⟨digit, hdigit, his⟩ := isAsciiDigit_getLast?_intNumeral n
    refine ⟨digit, ?_, Or.inr his⟩
    rw [List.getLast?_append, hdigit]
    rfl

namespace Naming

/-- A button is numbered behind the labels given so far. -/
theorem classKey_button {mode : ClassMode} (hmode : mode ≠ .fixed) {tag : Tag}
    (hbutton : tag.isButton = true) (naming : Naming) :
    naming.classKey mode tag = (some (numbered "btn_classes" (naming.buttons + 1)), naming) := by
  have hname : tag.name = "a" := Tag.name_of_isButton hbutton
  have hsection : tag.name ≠ "section" := by
    rw [hname]
    decide
  have hcontainer : tag.name ≠ "div" := by
    rw [hname]
    decide
  have hfirst : naming.buttons + 1 = 1 ↔ naming.buttons = 0 := by omega
  simp only [classKey, hmode, hsection, hcontainer, hbutton, numbered, hfirst, if_false, if_true,
    decide_false, Bool.and_false, Bool.false_and, Bool.false_eq_true]
  by_cases hnone : naming.buttons = 0
  · simp only [hnone, if_true]
  · simp only [hnone, if_false]
    rfl

theorem isClassKey_classKey {mode : ClassMode} {tag : Tag} {naming : Naming} {key : Text}
    (h : (naming.classKey mode tag).1 = some key) : IsClassKey key := by
  refine ⟨mem_classKey h, ?_⟩
  by_cases hmode : mode = .fixed
  · rw [classKey, if_pos hmode] at h
    cases h
  by_cases hbutton : tag.isButton = true
  · rw [classKey_button hmode hbutton] at h
    cases h
    exact getLast?_numbered (by decide) _
  · unfold classKey at h
    rw [if_neg hmode, if_neg hbutton] at h
    split at h
    · cases h
      exact ⟨.scalar 's', by decide, Or.inl rfl⟩
    split at h
    · cases h
      exact ⟨.scalar 's', by decide, Or.inl rfl⟩
    · cases h
      refine getLast?_numbered ?_ _
      rw [List.getLast?_append]
      rfl

/-- Headings are named without a `c`. -/
theorem not_mem_of_isHeadingName {name : Text} (h : isHeadingName name = true) :
    .scalar 'c' ∉ name := by
  have hdigits : ∀ digit : CodePoint,
      digit ∈ (['1', '2', '3', '4', '5', '6'] : List CodePoint) → .scalar 'c' ≠ digit := by
    rintro digit hdigit rfl
    exact absurd hdigit (by decide)
  unfold isHeadingName at h
  split at h
  · simp only [Bool.and_eq_true, decide_eq_true_eq, List.contains_iff_mem] at h
    obtain ⟨rfl, hdigit⟩ := h
    simpa using hdigits _ hdigit
  · simp only [Bool.and_eq_true, decide_eq_true_eq, List.contains_iff_mem] at h
    obtain ⟨⟨rfl, hdigit⟩, rfl⟩ := h
    simpa using hdigits _ hdigit
  · cases h

theorem not_mem_textKey (tag : Tag) (naming : Naming) :
    .scalar 'c' ∉ (naming.textKey tag).1 := by
  unfold textKey
  split
  · exact OwnKey.not_mem_text (.member .label _)
  split
  · next hheading =>
    split
    · intro hmem
      rcases List.mem_append.1 hmem with hstart | hname
      · exact absurd hstart (by decide)
      · exact not_mem_of_isHeadingName hheading hname
    · have htitle : .scalar 'c' ∉ ("title" : Text) := by decide
      exact htitle
  split
  · exact OwnKey.not_mem_text .subtitle
  · exact OwnKey.not_mem_text (.member .text _)

theorem not_isClassKey_attributeKey {tag : Tag} {name : Text} (hname : name ∈ defaultEditable)
    (naming : Naming) : ¬ IsClassKey (naming.attributeKey tag name).1 := by
  have hlast : ∀ name ∈ defaultEditable, ∃ last ∈ name.getLast?,
      last ≠ 's' ∧ last.isAsciiDigit = false := by
    decide +kernel
  unfold attributeKey
  split
  · -- The target of a link: its key has no `c`.
    rintro ⟨hmem, -⟩
    revert hmem
    split
    · exact OwnKey.not_mem_text (.member .buttonUrl _)
    · exact OwnKey.not_mem_text (.member .linkUrl _)
  · -- Any other key ends as the name of the attribute does.
    rintro ⟨-, last, hlast', hends⟩
    obtain ⟨other, hother, hne, hdigit⟩ := hlast name hname
    rw [Option.mem_def] at hlast' hother
    rw [List.getLast?_append, hother, Option.some_or, Option.some_inj] at hlast'
    subst hlast'
    rcases hends with hs | hnumber
    · exact hne hs
    · rw [hdigit] at hnumber
      cases hnumber

/-- The keys of class lists are told from those of texts and of the default attributes. -/
theorem isClassKey_iff {mode : ClassMode} {place : Place} {naming : Naming} {key : Text}
    (hexpected : place.Expected) (hkey : key ∈ (naming.ask mode place).1) :
    IsClassKey key ↔ place.kind = .classes := by
  cases place with
  | ofClass tag content => exact iff_of_true (isClassKey_classKey hkey) rfl
  | ofAttribute tag name value =>
    obtain rfl : (naming.attributeKey tag name).1 = key := Option.some.inj hkey
    refine iff_of_false (not_isClassKey_attributeKey hexpected naming) ?_
    rw [Place.kind, FieldKind.ofAttribute]
    split
    · decide
    · decide
  | ofText parent content =>
    obtain rfl : (naming.textKey parent).1 = key := Option.some.inj hkey
    refine iff_of_false (fun h => not_mem_textKey parent naming h.1) ?_
    rw [Place.kind]
    decide

end Naming

/-! ## Naming without the class lists -/

/-- Whether a place is a class list. -/
def Place.isClass : Place → Bool
  | .ofClass _ _ => true
  | .ofAttribute _ _ _ => false
  | .ofText _ _ => false

/-- Whether a field is that of a class list. -/
def Field.isClasses (field : Field) : Bool :=
  field.kind = .classes

theorem Place.isClasses_field {key : Text} {place : Place} :
    (place.field key).isClasses = place.isClass := by
  cases place with
  | ofClass tag content => rfl
  | ofAttribute tag name value =>
    rw [Field.isClasses, Place.field, Place.kind, FieldKind.ofAttribute]
    split
    · rfl
    · rfl
  | ofText parent content => rfl

/-- Without the class lists, all other places are named the same. -/
theorem Thinning.fixed : Thinning .single .fixed Place.isClass (fun field => !field.isClasses)
    (fun _ naming other => naming.textPart = other.textPart ∧ naming.links = other.links) where
  skipped := by
    intro place rest naming other hskip ⟨htexts, hlinks⟩
    cases place with
    | ofClass tag content =>
      refine ⟨⟨(Naming.textPart_classKey _ tag naming).trans htexts,
        (Naming.links_classKey _ tag naming).trans hlinks⟩, ?_⟩
      intro key _
      rfl
    | ofAttribute tag name value => cases hskip
    | ofText parent content => cases hskip
  kept := by
    intro place rest naming other hkept ⟨htexts, hlinks⟩
    cases place with
    | ofClass tag content => cases hkept
    | ofAttribute tag name value =>
      obtain ⟨hkey, hnext⟩ := Naming.attributeKey_congr hlinks tag name
      refine ⟨⟨?_, hnext⟩, Or.inl (congrArg some hkey)⟩
      exact ((Naming.textPart_attributeKey tag name naming).trans htexts).trans
        (Naming.textPart_attributeKey tag name other).symm
    | ofText parent content =>
      obtain ⟨hkey, hnext⟩ := Naming.textKey_congr htexts parent
      refine ⟨⟨hnext, ?_⟩, Or.inl (congrArg some hkey)⟩
      exact ((Naming.links_textKey parent naming).trans hlinks).trans
        (Naming.links_textKey parent other).symm

section Lists

variable (options : Options)

theorem Tag.places_fixed (tag : Tag) :
    tag.places { options with classMode := .fixed } =
      (tag.places { options with classMode := .single }).filter (!Place.isClass ·) := by
  have hattributes : (tag.attributePlaces options tag.attributes).filter (!Place.isClass ·) =
      tag.attributePlaces options tag.attributes := by
    rw [List.filter_eq_self]
    intro place hplace
    obtain ⟨name, value, rfl, -⟩ := Tag.eq_of_mem_attributePlaces hplace
    rfl
  have hclass : (tag.classPlaces { options with classMode := .single }).filter
      (!Place.isClass ·) = [] := by
    rw [List.filter_eq_nil_iff]
    intro place hplace
    obtain ⟨content, rfl, -⟩ := Tag.eq_of_mem_classPlaces hplace
    exact Bool.false_ne_true
  have hnone : tag.classPlaces { options with classMode := .fixed } = [] := by
    rw [Tag.classPlaces]
    split
    · exact if_pos (Or.inr rfl)
    · rfl
  rw [Tag.places, Tag.places, List.filter_append, hclass, hnone]
  exact hattributes.symm

theorem Node.textPlaces_fixed (parent : Option Tag) (content : Text) :
    textPlaces { options with classMode := .fixed } parent content =
      (textPlaces { options with classMode := .single } parent content).filter
        (!Place.isClass ·) := by
  have hall : (textPlaces options parent content).filter (!Place.isClass ·) =
      textPlaces options parent content := by
    rw [List.filter_eq_self]
    intro place hplace
    obtain ⟨tag, rfl, -⟩ := eq_of_mem_textPlaces hplace
    rfl
  exact hall.symm

end Lists

/-! ## The class of a tag -/

namespace Tag

/-- A tag with its class only. -/
def onlyClass (tag : Tag) : Tag :=
  ⟨tag.name, tag.attributes.filter (·.1 = ("class" : Text))⟩

/-- A tag with its class only, written as it stands in the source. -/
def literalClass (tag : Tag) : Tag :=
  ⟨tag.name, match Attributes.value? "class" tag.attributes with
    | none => []
    | some value => [("class", value.literal)]⟩

theorem onlyClass_written (options : Options) (naming : Naming) (tag : Tag) :
    (tag.written options naming).onlyClass = ⟨tag.name, tag.writtenClass options naming⟩ := by
  have hclass : (tag.writtenClass options naming).filter (·.1 = ("class" : Text)) =
      tag.writtenClass options naming := by
    rw [List.filter_eq_self]
    intro entry hentry
    simp [name_of_mem_writtenClass entry hentry]
  have hothers : ∀ next, (tag.writtenOthers options next tag.attributes).filter
      (·.1 = ("class" : Text)) = [] := by
    intro next
    rw [List.filter_eq_nil_iff]
    intro entry hentry
    simp [name_of_mem_writtenOthers entry hentry]
  rw [onlyClass, attributes_written, List.filter_append, hclass, hothers, List.append_nil]
  rfl

theorem onlyClass_written_fixed {options : Options} (hmode : options.classMode = .fixed)
    (tag : Tag) (naming : Naming) :
    (tag.written options naming).onlyClass = tag.literalClass := by
  have hnone : tag.classPlaces options = [] := by
    rcases tag.classPlaces_eq options with hnone | ⟨content, -, hother, -⟩
    · exact hnone
    · exact absurd hmode hother
  rw [onlyClass_written, writtenClass, fillClass, literalClass, hnone]
  rfl

end Tag

/-- The tags of a template are those of its tree, each written from some history. -/
theorem Node.forall₂_tagsOf_written (options : Options) (tree : List Node) (naming : Naming) :
    List.Forall₂ (fun source written => ∃ history, written = source.written options history)
      (tagsOf (pruneAll tree)) (tagsOf (writtenAll options none naming tree)) := by
  have hsites : ∀ (sites : List Site) (naming : Naming),
      List.Forall₂ (fun source written => ∃ history, written = source.written options history)
        ((sites.map Site.visit).filterMap Visit.tag?)
        ((Site.writtenAll options naming sites).filterMap Visit.tag?) := by
    intro sites
    induction sites with
    | nil => exact fun _ => List.Forall₂.nil
    | cons site later ih =>
      intro naming
      obtain ⟨above, visit⟩ := site
      cases visit with
      | text content => exact ih _
      | element tag => exact List.Forall₂.cons ⟨naming, rfl⟩ (ih _)
  have hvisits : visitsOf (writtenAll options none naming tree) =
      Site.writtenAll options naming (sitesOf 0 [] (pruneAll tree)) :=
    visitsOf_written options 0 [] tree naming
  rw [tagsOf_eq_filterMap, tagsOf_eq_filterMap, ← map_visit_sitesOf 0 [] (pruneAll tree), hvisits]
  exact hsites _ naming

/-- What is seen of the tags of a template, if it does not depend on the history. -/
theorem Node.map_tagsOf_written {α : Type} {options : Options} {onTag onSource : Tag → α}
    (h : ∀ (tag : Tag) (naming : Naming), onTag (tag.written options naming) = onSource tag)
    (tree : List Node) (naming : Naming) :
    (tagsOf (writtenAll options none naming tree)).map onTag =
      (tagsOf (pruneAll tree)).map onSource := by
  have htags := forall₂_tagsOf_written options tree naming
  generalize tagsOf (pruneAll tree) = sources at htags ⊢
  generalize tagsOf (writtenAll options none naming tree) = tags at htags ⊢
  induction htags with
  | nil => rfl
  | cons hwritten _ ih =>
    obtain ⟨history, rfl⟩ := hwritten
    rw [List.map_cons, List.map_cons, h, ih]

/-! ## Templates -/

/-- The fields of the places that are left are all other than those of class lists. -/
theorem Template.fields_fixed_eq (options : Options) (tree : List Node)
    (hattributes : ∀ name ∈ options.editable, name ∈ defaultEditable) :
    (ofTree { options with classMode := .fixed } tree).fields =
      (ofTree { options with classMode := .single } tree).fields.filter (!·.isClasses) := by
  let single : Options := { options with classMode := .single }
  let places := Node.placesOf single none tree
  have hexpected : ∀ place ∈ places, place.Expected :=
    Node.expected_of_mem_placesOf hattributes
  have hplaces : Node.placesOf { options with classMode := .fixed } none tree =
      places.filter (!Place.isClass ·) :=
    Node.placesOf_thinned (Tag.places_fixed options) (Node.textPlaces_fixed options) none tree
  have hothers : ∀ field ∈ Naming.fields .fixed (places.filter (!Place.isClass ·)) {},
      (!field.isClasses) = true := by
    apply Naming.forall_mem_fields
    intro place hplace naming key _
    rw [Place.isClasses_field]
    exact (List.mem_filter.1 hplace).2
  -- Fields with the same key are both those of class lists, or both are not.
  have hspelled : ∀ field ∈ Naming.fields .single places {},
      IsClassKey field.key ↔ field.kind = .classes := by
    apply Naming.forall_mem_fields
    intro place hplace naming key hkey
    exact Naming.isClassKey_iff (hexpected place hplace) hkey
  have hkey : ∀ first ∈ Naming.fields .single places {},
      ∀ second ∈ Naming.fields .single places {}, first.key = second.key →
        (!first.isClasses) = !second.isClasses := by
    intro first hfirst second hsecond hsame
    have hboth : first.kind = .classes ↔ second.kind = .classes := by
      rw [← hspelled first hfirst, ← hspelled second hsecond, hsame]
    simp only [Field.isClasses, hboth]
  calc (ofTree { options with classMode := .fixed } tree).fields
      = Register.firsts (Naming.fields .fixed (places.filter (!Place.isClass ·)) {}) := by
        rw [fields_eq_firsts, hplaces]
    _ = Register.firsts ((Naming.fields .fixed (places.filter (!Place.isClass ·)) {}).filter
          (!·.isClasses)) := by
        rw [List.filter_eq_self.2 hothers]
    _ = Register.firsts ((Naming.fields .single places {}).filter (!·.isClasses)) := by
        rw [Thinning.fixed.filter_fields ⟨rfl, rfl⟩]
    _ = (Register.firsts (Naming.fields .single places {})).filter (!·.isClasses) := by
        rw [Register.filter_firsts hkey]
    _ = (ofTree single tree).fields.filter (!·.isClasses) := by
        rw [fields_eq_firsts]

/-- **Fixed classes only take the class fields away.** Where no other attributes are editable than
by default, the fields under fixed classes are those under single ones, less the fields of class
lists; and in the template, which is its tree written out, each class is that of the source,
written literally. -/
theorem Template.fields_fixed (options : Options) (tree : List Node)
    (hattributes : ∀ name ∈ options.editable, name ∈ defaultEditable) :
    let fixed : Options := { options with classMode := .fixed }
    let single : Options := { options with classMode := .single }
    (ofTree fixed tree).fields =
        (ofTree single tree).fields.filter (fun field => field.kind ≠ .classes) ∧
      (ofTree fixed tree).text = Node.printAll (Node.writtenAll fixed none {} tree) ∧
      (Node.tagsOf (Node.writtenAll fixed none {} tree)).map Tag.onlyClass =
        (Node.tagsOf (Node.pruneAll tree)).map Tag.literalClass := by
  intro fixed single
  refine ⟨?_, text_eq_printAll fixed tree, ?_⟩
  · rw [fields_fixed_eq options tree hattributes]
    refine List.filter_congr ?_
    intro field _
    simp [Field.isClasses]
  · exact Node.map_tagsOf_written (Tag.onlyClass_written_fixed rfl) tree {}

/-- A section of which only the link is editable besides its classes and texts: three of its six
fields are those of class lists. -/
theorem Template.fields_fixed_section :
    let tree := Node.parse
      "<section class=py-5><h1 class=lead>Hi</h1><a class=btn href=/x title=t>Go</a></section>"
    let options : Options := { editable := ["href"] }
    let fixed : Options := { options with classMode := .fixed }
    let single : Options := { options with classMode := .single }
    (∀ name ∈ options.editable, name ∈ defaultEditable) ∧
      (ofTree single tree).fields.map Field.key =
        ["section_classes", "h1_classes", "title", "btn_classes", "btn_url", "btn_label"] ∧
      (ofTree fixed tree).fields =
        (ofTree single tree).fields.filter (fun field => field.kind ≠ .classes) ∧
      (Node.tagsOf (Node.writtenAll fixed none {} tree)).map Tag.onlyClass =
        (Node.tagsOf (Node.pruneAll tree)).map Tag.literalClass := by
  intro tree options fixed single
  have hattributes : ∀ name ∈ options.editable, name ∈ defaultEditable := by
    decide +kernel
  obtain ⟨hfields, -, hclasses⟩ := fields_fixed options tree hattributes
  exact ⟨hattributes, by decide +kernel, hfields, hclasses⟩

end Stencil
