import Stencil.Proofs.Template.Written

/-!
# Switches that leave each other alone

The three switches of the options share one naming history, but each kind of place reads only its
own part of it. The key of a text depends on the texts named before it, and the key of an attribute
on the links named before it. So, whatever the other switches say, texts are written the same under
options that agree on texts, and attributes other than the class under options that agree on
attributes (`Template.switches_apart`).

* `Naming.textPart`, the part of a history that texts read; for attributes it is `Naming.links`;
* `TwoRuns.texts` and `TwoRuns.attributes`, the two comparisons, tag by tag and text by text.
-/

set_option autoImplicit false

namespace Stencil

namespace Naming

/-- All that the keys of texts depend on: whether title and subtitle are taken, and how many button
labels and other texts had a number. -/
def textPart (naming : Naming) : Bool × Bool × Int × Int :=
  (naming.titleTaken, naming.subtitleTaken, naming.buttons, naming.texts)

/-! ## One key -/

theorem textPart_classKey (mode : ClassMode) (tag : Tag) (naming : Naming) :
    (naming.classKey mode tag).2.textPart = naming.textPart := by
  unfold classKey
  split
  · rfl
  split
  · rfl
  split
  · rfl
  split
  · rfl
  · rfl

theorem textPart_attributeKey (tag : Tag) (name : Text) (naming : Naming) :
    (naming.attributeKey tag name).2.textPart = naming.textPart := by
  unfold attributeKey
  split
  · rfl
  · rfl

/-- Histories that agree on texts give a text the same key, and agree on texts behind it. -/
theorem textKey_congr {naming other : Naming} (h : naming.textPart = other.textPart) (tag : Tag) :
    (naming.textKey tag).1 = (other.textKey tag).1 ∧
      (naming.textKey tag).2.textPart = (other.textKey tag).2.textPart := by
  simp only [textPart, Prod.mk.injEq] at h
  obtain ⟨htitle, hsubtitle, hbuttons, htexts⟩ := h
  unfold textKey
  rw [htitle, hsubtitle, hbuttons, htexts]
  -- The same branch is taken from both histories, and it changes the same fields.
  split
  · exact ⟨rfl, rfl⟩
  split
  · split
    · simp [textPart, htitle, hsubtitle, hbuttons, htexts]
    · exact ⟨rfl, rfl⟩
  split
  · exact ⟨rfl, rfl⟩
  · exact ⟨rfl, rfl⟩

theorem links_classKey (mode : ClassMode) (tag : Tag) (naming : Naming) :
    (naming.classKey mode tag).2.links = naming.links := by
  unfold classKey
  split
  · rfl
  split
  · rfl
  split
  · rfl
  split
  · rfl
  · rfl

theorem links_textKey (tag : Tag) (naming : Naming) :
    (naming.textKey tag).2.links = naming.links := by
  unfold textKey
  split
  · rfl
  split
  · split
    · rfl
    · rfl
  split
  · rfl
  · rfl

/-- Histories with equally many links give an attribute the same key, and have equally many links
behind it. -/
theorem attributeKey_congr {naming other : Naming} (h : naming.links = other.links) (tag : Tag)
    (name : Text) :
    (naming.attributeKey tag name).1 = (other.attributeKey tag name).1 ∧
      (naming.attributeKey tag name).2.links = (other.attributeKey tag name).2.links := by
  unfold attributeKey
  rw [h]
  split
  · exact ⟨rfl, rfl⟩
  · exact ⟨rfl, h⟩

/-! ## The keys of a list of places -/

/-- What no place of a list changes is the same behind the list. -/
theorem after_eq {α : Type} {part : Naming → α} {mode : ClassMode} {places : List Place}
    (h : ∀ place ∈ places, ∀ naming : Naming, part (naming.ask mode place).2 = part naming)
    (naming : Naming) : part (after mode places naming) = part naming := by
  induction places generalizing naming with
  | nil => rfl
  | cons place rest ih =>
    have hrest := ih (fun other hmem => h other (List.mem_cons_of_mem place hmem))
      (naming.ask mode place).2
    exact hrest.trans (h place List.mem_cons_self naming)

theorem textPart_after_tag (options : Options) (tag : Tag) (naming : Naming) :
    (after options.classMode (tag.places options) naming).textPart = naming.textPart := by
  apply after_eq
  intro place hplace naming
  rcases List.mem_append.1 hplace with hclass | hother
  · obtain ⟨content, rfl, -⟩ := Tag.eq_of_mem_classPlaces hclass
    exact textPart_classKey _ tag naming
  · obtain ⟨name, value, rfl, -⟩ := Tag.eq_of_mem_attributePlaces hother
    exact textPart_attributeKey tag name naming

theorem links_after_class (options : Options) (tag : Tag) (naming : Naming) :
    (after options.classMode (tag.classPlaces options) naming).links = naming.links := by
  apply after_eq
  intro place hplace naming
  obtain ⟨content, rfl, -⟩ := Tag.eq_of_mem_classPlaces hplace
  exact links_classKey _ tag naming

theorem links_after_text (options : Options) (parent : Option Tag) (content : Text)
    (naming : Naming) :
    (after options.classMode (Node.textPlaces options parent content) naming).links =
      naming.links := by
  apply after_eq
  intro place hplace naming
  obtain ⟨tag, rfl, -⟩ := Node.eq_of_mem_textPlaces hplace
  exact links_textKey tag naming

end Naming

/-! ## Texts -/

/-- A tag without its attributes. -/
def Tag.bare (tag : Tag) : Tag :=
  ⟨tag.name, []⟩

/-- A text is written the same under options that agree on texts. -/
theorem Node.writtenText_congr {first second : Options}
    (hsame : first.textEditable = second.textEditable) (parent : Option Tag) (content : Text)
    {naming other : Naming} (hpart : naming.textPart = other.textPart) :
    writtenText first parent naming content = writtenText second parent other content ∧
      (Naming.after first.classMode (textPlaces first parent content) naming).textPart =
        (Naming.after second.classMode (textPlaces second parent content) other).textPart := by
  have hplaces : textPlaces second parent content = textPlaces first parent content := by
    unfold textPlaces
    rw [hsame]
  rcases textPlaces_eq first parent content with hnone | ⟨tag, -, hplace⟩
  · simp [writtenText, fillText, hplaces, hnone, Naming.after, hpart]
  · obtain ⟨hkey, hafter⟩ := Naming.textKey_congr hpart tag
    simp [writtenText, fillText, hplaces, hplace, Naming.keys, Naming.after, Naming.ask, hkey,
      hafter]

/-- Under options that agree on texts, the texts of a tree are written the same. -/
theorem TwoRuns.texts {first second : Options} (hsame : first.textEditable = second.textEditable) :
    TwoRuns first second (fun naming other => naming.textPart = other.textPart) Tag.bare id where
  tag := by
    intro tag naming other hpart
    refine ⟨rfl, ?_⟩
    rw [Naming.textPart_after_tag, Naming.textPart_after_tag, hpart]
  text := by
    intro parent content naming other hpart
    exact Node.writtenText_congr hsame parent content hpart

/-! ## Attributes -/

namespace Tag

/-- A tag without its class. -/
def withoutClass (tag : Tag) : Tag :=
  ⟨tag.name, tag.attributes.filter (·.1 ≠ ("class" : Text))⟩

theorem name_of_mem_writtenClass {options : Options} {naming : Naming} {tag : Tag} :
    ∀ entry ∈ tag.writtenClass options naming, entry.1 = "class" := by
  intro entry hentry
  rw [writtenClass, fillClass] at hentry
  split at hentry
  · cases hentry
  · split at hentry
    · rw [List.mem_singleton.1 hentry]
    · rw [List.mem_singleton.1 hentry]

theorem name_of_mem_writtenOthers {options : Options} {naming : Naming} {tag : Tag}
    {attributes : Attributes} :
    ∀ entry ∈ tag.writtenOthers options naming attributes, entry.1 ≠ "class" := by
  induction attributes generalizing naming with
  | nil => exact fun _ hentry => absurd hentry List.not_mem_nil
  | cons head rest ih =>
    obtain ⟨name, value⟩ := head
    intro entry hentry
    rw [writtenOthers_cons] at hentry
    split at hentry
    · exact ih entry hentry
    · next hclass =>
      split at hentry
      · rcases List.mem_cons.1 hentry with rfl | hentry
        · exact hclass
        · exact ih entry hentry
      · rcases List.mem_cons.1 hentry with rfl | hentry
        · exact hclass
        · exact ih entry hentry

/-- Without its class, a written tag has its other attributes, named after the class. -/
theorem withoutClass_written (options : Options) (naming : Naming) (tag : Tag) :
    (tag.written options naming).withoutClass =
      ⟨tag.name, tag.writtenOthers options
        (Naming.after options.classMode (tag.classPlaces options) naming) tag.attributes⟩ := by
  have hclass : (tag.writtenClass options naming).filter (·.1 ≠ ("class" : Text)) = [] := by
    rw [List.filter_eq_nil_iff]
    intro entry hentry
    simp [name_of_mem_writtenClass entry hentry]
  have hothers : ∀ next, (tag.writtenOthers options next tag.attributes).filter
      (·.1 ≠ ("class" : Text)) = tag.writtenOthers options next tag.attributes := by
    intro next
    rw [List.filter_eq_self]
    intro entry hentry
    simp [name_of_mem_writtenOthers entry hentry]
  rw [withoutClass, attributes_written, List.filter_append, hclass, hothers, List.nil_append]
  rfl

/-- The other attributes are written the same under options that agree on attributes. -/
theorem writtenOthers_congr {first second : Options}
    (hsame : ∀ name, name ∈ first.editable ↔ name ∈ second.editable) (tag : Tag)
    (attributes : Attributes) {naming other : Naming} (hlinks : naming.links = other.links) :
    tag.writtenOthers first naming attributes = tag.writtenOthers second other attributes ∧
      (Naming.after first.classMode (tag.attributePlaces first attributes) naming).links =
        (Naming.after second.classMode (tag.attributePlaces second attributes) other).links := by
  induction attributes generalizing naming other with
  | nil => exact ⟨rfl, hlinks⟩
  | cons head rest ih =>
    obtain ⟨name, value⟩ := head
    have hcontains : second.editable.contains name = first.editable.contains name := by
      rw [Bool.eq_iff_iff, List.contains_iff_mem, List.contains_iff_mem, hsame]
    rw [writtenOthers_cons, writtenOthers_cons, attributePlaces_cons, attributePlaces_cons,
      hcontains]
    by_cases hclass : name = "class"
    · simp only [hclass, if_true]
      exact ih hlinks
    by_cases heditable : first.editable.contains name = true
    · obtain ⟨hkey, hnext⟩ := Naming.attributeKey_congr hlinks tag name
      obtain ⟨hrest, hafter⟩ := ih hnext
      simp only [hclass, heditable, if_true, if_false, hkey, hrest]
      exact ⟨trivial, hafter⟩
    · obtain ⟨hrest, hafter⟩ := ih hlinks
      simp only [hclass, heditable, if_false, Bool.false_eq_true, hrest]
      exact ⟨trivial, hafter⟩

end Tag

/-- Under options that agree on attributes, the attributes of a tree are written the same, the
classes apart. -/
theorem TwoRuns.attributes {first second : Options}
    (hsame : ∀ name, name ∈ first.editable ↔ name ∈ second.editable) :
    TwoRuns first second (fun naming other => naming.links = other.links) Tag.withoutClass
      (fun _ => []) where
  tag := by
    intro tag naming other hlinks
    have hstart : (Naming.after first.classMode (tag.classPlaces first) naming).links =
        (Naming.after second.classMode (tag.classPlaces second) other).links := by
      rw [Naming.links_after_class, Naming.links_after_class, hlinks]
    obtain ⟨hothers, hafter⟩ := Tag.writtenOthers_congr hsame tag tag.attributes hstart
    rw [Tag.withoutClass_written, Tag.withoutClass_written, hothers, Tag.places, Tag.places,
      Naming.after_append, Naming.after_append]
    exact ⟨rfl, hafter⟩
  text := by
    intro parent content naming other hlinks
    refine ⟨rfl, ?_⟩
    rw [Naming.links_after_text, Naming.links_after_text, hlinks]

/-- **The switches leave each other alone.** The text of a template is its tree written out. Under
any two options that agree on texts, every text of the tree is written the same; under any two that
agree on the editable attributes, so is every attribute of every element, the class apart. -/
theorem Template.switches_apart (tree : List Node) (first second : Options) :
    let written (options : Options) := Node.writtenAll options none {} tree
    ((Template.ofTree first tree).text = Node.printAll (written first) ∧
        (Template.ofTree second tree).text = Node.printAll (written second)) ∧
      (first.textEditable = second.textEditable →
        Node.mapAll Tag.bare id (written first) = Node.mapAll Tag.bare id (written second)) ∧
      ((∀ name, name ∈ first.editable ↔ name ∈ second.editable) →
        Node.mapAll Tag.withoutClass (fun _ => []) (written first) =
          Node.mapAll Tag.withoutClass (fun _ => []) (written second)) := by
  intro written
  refine ⟨⟨text_eq_printAll first tree, text_eq_printAll second tree⟩, ?_, ?_⟩
  · intro hsame
    exact ((TwoRuns.texts hsame).mapAll_writtenAll tree {} {} rfl).1
  · intro hsame
    exact ((TwoRuns.attributes hsame).mapAll_writtenAll tree {} {} rfl).1

/-- A link under three options, of which the first agrees with the second on texts and with the
third on attributes, and on nothing else. -/
theorem Template.switches_apart_link :
    let tree := Node.parse "<h1>Shop</h1><a class=btn title=All href=/x>Go</a>"
    let first : Options := {}
    let second : Options := { classMode := .fixed, editable := ["title"] }
    let third : Options := { classMode := .multiple, textEditable := false }
    (first.textEditable = second.textEditable ∧
        Node.mapAll Tag.bare id (Node.writtenAll first none {} tree) =
          Node.mapAll Tag.bare id (Node.writtenAll second none {} tree)) ∧
      (∀ name, name ∈ first.editable ↔ name ∈ third.editable) ∧
        Node.mapAll Tag.withoutClass (fun _ => []) (Node.writtenAll first none {} tree) =
          Node.mapAll Tag.withoutClass (fun _ => []) (Node.writtenAll third none {} tree) := by
  intro tree first second third
  refine ⟨⟨rfl, (switches_apart tree first second).2.1 rfl⟩, fun name => Iff.rfl, ?_⟩
  exact (switches_apart tree first third).2.2 fun name => Iff.rfl

end Stencil
