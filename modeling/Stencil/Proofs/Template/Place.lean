import Mathlib.Data.List.Forall2
import Stencil.Template.Render
import Stencil.Proofs.Markup.DocumentOrder
import Stencil.Proofs.Markup.Print

/-!
# The editable places of a tree

Before anything is named, options and tree alone decide which places are editable. They are listed
in document order: the class list of an element, its other editable attributes, then the places
among its children. The list can be named on its own, and a tree can be filled with one value for
each of its places.

* `Place`, `Tag.places`, `Node.places` and `Node.placesOf`;
* `Naming.keys`, the keys of a list of places: one for each (`Naming.length_keys`), since no place
  of a tree is refused one (`Node.open_of_mem_placesOf`);
* `Place.field`, the field of a place, and `Place.content`, what its placeholder replaces;
* `Node.fill` and `Node.fillAll`, the tree as it is written with given values at its places.
-/

set_option autoImplicit false

namespace Stencil

/-- An editable place: the class list of an element, another attribute of it, or a text right
inside it. -/
inductive Place where
  | ofClass (tag : Tag) (content : Text)
  | ofAttribute (tag : Tag) (name : Text) (value : AttributeValue)
  | ofText (parent : Tag) (content : Text)
  deriving DecidableEq, Repr

namespace Place

/-- What a placeholder replaces: a class list or an attribute as it stands in the tree, a text
without the blanks at its ends and with each run of blanks made one space. -/
def content : Place → Text
  | .ofClass _ content => content
  | .ofAttribute _ _ value => value.content
  | .ofText _ content => Text.trim (Text.collapse content)

/-- The kind of field that a place has. -/
def kind : Place → FieldKind
  | .ofClass _ _ => .classes
  | .ofAttribute _ name _ => .ofAttribute name
  | .ofText _ _ => .text

/-- The caption of the field that a place has. -/
def label : Place → Text
  | .ofClass tag _ => ("Classes " : Text) ++ tag.name
  | .ofAttribute _ name _ => Text.upper name
  | .ofText _ _ => "Text"

/-- The field of a place under a key. -/
def field (key : Text) (place : Place) : Field :=
  ⟨key, place.kind, place.label, place.content⟩

end Place

/-! ## Listing the places -/

namespace Tag

/-- The class list of an element, if it is editable: a text that is not empty, unless class lists
stay as they are. -/
def classPlaces (options : Options) (tag : Tag) : List Place :=
  match Attributes.value? "class" tag.attributes with
  | some (.text content) =>
    if content = [] ∨ options.classMode = .fixed then [] else [.ofClass tag content]
  | _ => []

/-- The editable ones of some attributes, the class apart, in order. -/
def attributePlaces (options : Options) (tag : Tag) (attributes : Attributes) : List Place :=
  attributes.filterMap fun (name, value) =>
    if name = "class" then none
    else if options.editable.contains name then some (.ofAttribute tag name value)
    else none

theorem attributePlaces_cons (options : Options) (tag : Tag) (name : Text)
    (value : AttributeValue) (rest : Attributes) :
    tag.attributePlaces options ((name, value) :: rest) =
      if name = "class" then tag.attributePlaces options rest
      else if options.editable.contains name then
        .ofAttribute tag name value :: tag.attributePlaces options rest
      else tag.attributePlaces options rest := by
  rw [attributePlaces, List.filterMap_cons]
  by_cases hclass : name = "class"
  · simp only [hclass, if_true]
    rfl
  by_cases heditable : options.editable.contains name = true
  · simp only [hclass, heditable, if_true, if_false]
    rfl
  · simp only [hclass, heditable, if_false, Bool.false_eq_true]
    rfl

theorem attributePlaces_append (options : Options) (tag : Tag) (first second : Attributes) :
    tag.attributePlaces options (first ++ second) =
      tag.attributePlaces options first ++ tag.attributePlaces options second :=
  List.filterMap_append

/-- The editable places of a start tag. -/
def places (options : Options) (tag : Tag) : List Place :=
  tag.classPlaces options ++ tag.attributePlaces options tag.attributes

end Tag

namespace Node

/-- A text as an editable place: inside an element, and not blank. -/
def textPlaces (options : Options) (parent : Option Tag) (content : Text) : List Place :=
  match parent with
  | none => []
  | some tag =>
    if options.textEditable = true ∧ Text.trim (Text.collapse content) ≠ [] then
      [.ofText tag content]
    else []

mutual

/-- The editable places of a node inside `parent`, in document order. -/
def places (options : Options) (parent : Option Tag) : Node → List Place
  | .text content => textPlaces options parent content
  | .element tag children =>
    tag.places options ++ if tag.isVoid then [] else placesOf options (some tag) children

/-- The editable places of neighbouring nodes, in document order. -/
def placesOf (options : Options) (parent : Option Tag) : List Node → List Place
  | [] => []
  | node :: rest => node.places options parent ++ placesOf options parent rest

end

end Node

/-! ## Naming a list of places -/

namespace Naming

/-- The key of one place, with the history after it. -/
def ask (mode : ClassMode) (naming : Naming) : Place → Option Text × Naming
  | .ofClass tag _ => naming.classKey mode tag
  | .ofAttribute tag name _ =>
    let (key, next) := naming.attributeKey tag name
    (some key, next)
  | .ofText parent _ =>
    let (key, next) := naming.textKey parent
    (some key, next)

/-- The keys of places that are named one after another. -/
def keys (mode : ClassMode) : List Place → Naming → List Text
  | [], _ => []
  | place :: rest, naming =>
    (naming.ask mode place).1.toList ++ keys mode rest (naming.ask mode place).2

/-- The history after places are named one after another. -/
def after (mode : ClassMode) (places : List Place) (naming : Naming) : Naming :=
  places.foldl (fun naming place => (naming.ask mode place).2) naming

theorem keys_append (mode : ClassMode) (first second : List Place) (naming : Naming) :
    keys mode (first ++ second) naming =
      keys mode first naming ++ keys mode second (after mode first naming) := by
  induction first generalizing naming with
  | nil => rfl
  | cons place rest ih =>
    rw [List.cons_append, keys, keys, ih, List.append_assoc]
    rfl

end Naming

/-! ## Filling the places of a tree -/

/-- An attribute value as it is written where it is not editable. -/
def AttributeValue.literal : AttributeValue → AttributeValue
  | .flag true => .flag true
  | .flag false => .text "False"
  | .text content => .text (escapeAttribute content)

namespace Tag

/-- The class attribute as it is written, with a value for its place if it is one. -/
def fillClass (options : Options) (tag : Tag) (values : List Text) : Attributes :=
  match Attributes.value? "class" tag.attributes with
  | none => []
  | some value =>
    if tag.classPlaces options = [] then [("class", value.literal)]
    else [("class", .text (values.headD []))]

/-- The other attributes as they are written, with a value for each place among them. -/
def fillOthers (options : Options) : Attributes → List Text → Attributes
  | [], _ => []
  | (name, value) :: rest, values =>
    if name = "class" then fillOthers options rest values
    else if options.editable.contains name then
      (name, .text (values.headD [])) :: fillOthers options rest values.tail
    else (name, value.literal) :: fillOthers options rest values

/-- A start tag as it is written: the class first, and a value for each of its places. -/
def fill (options : Options) (tag : Tag) (values : List Text) : Tag :=
  ⟨tag.name, tag.fillClass options (values.take (tag.classPlaces options).length) ++
    fillOthers options tag.attributes (values.drop (tag.classPlaces options).length)⟩

@[simp] theorem fill_name (options : Options) (tag : Tag) (values : List Text) :
    (tag.fill options values).name = tag.name := rfl

@[simp] theorem fill_isVoid (options : Options) (tag : Tag) (values : List Text) :
    (tag.fill options values).isVoid = tag.isVoid := rfl

end Tag

namespace Node

/-- A text as it is written, with a value if it is a place. -/
def fillText (options : Options) (parent : Option Tag) (content : Text) (values : List Text) :
    Text :=
  if textPlaces options parent content = [] then Text.collapse content else values.headD []

mutual

/-- A node as it is written, with a value for each of its places in document order. -/
def fill (options : Options) (parent : Option Tag) : Node → List Text → Node
  | .text content, values => .text (fillText options parent content values)
  | .element tag children, values =>
    .element (tag.fill options (values.take (tag.places options).length))
      (if tag.isVoid then []
        else fillAll options (some tag) children (values.drop (tag.places options).length))

/-- Neighbouring nodes as they are written, with a value for each of their places. -/
def fillAll (options : Options) (parent : Option Tag) : List Node → List Text → List Node
  | [], _ => []
  | node :: rest, values =>
    node.fill options parent (values.take (node.places options parent).length) ::
      fillAll options parent rest (values.drop (node.places options parent).length)

end

end Node

/-! ### A value of its own for each place -/

theorem Tag.fill_map (options : Options) (tag : Tag) (value : Place → Text) :
    tag.fill options ((tag.places options).map value) =
      ⟨tag.name, tag.fillClass options ((tag.classPlaces options).map value) ++
        fillOthers options tag.attributes
          ((tag.attributePlaces options tag.attributes).map value)⟩ := by
  rw [fill, places, List.map_append, List.take_left' (List.length_map _),
    List.drop_left' (List.length_map _)]

namespace Node

theorem fill_element_map (options : Options) (parent : Option Tag) (tag : Tag)
    (children : List Node) (value : Place → Text) :
    (element tag children).fill options parent
        (((element tag children).places options parent).map value) =
      .element (tag.fill options ((tag.places options).map value))
        (if tag.isVoid then []
          else fillAll options (some tag) children
            ((placesOf options (some tag) children).map value)) := by
  rw [fill, places, List.map_append, List.take_left' (List.length_map _),
    List.drop_left' (List.length_map _)]
  split
  · rfl
  · rfl

theorem fillAll_cons_map (options : Options) (parent : Option Tag) (node : Node)
    (rest : List Node) (value : Place → Text) :
    fillAll options parent (node :: rest)
        ((placesOf options parent (node :: rest)).map value) =
      node.fill options parent ((node.places options parent).map value) ::
        fillAll options parent rest ((placesOf options parent rest).map value) := by
  rw [fillAll, placesOf, List.map_append, List.take_left' (List.length_map _),
    List.drop_left' (List.length_map _)]

end Node

/-! ## Every listed place has a key -/

namespace Place

/-- Whether a place is editable under a class mode. -/
def Open (mode : ClassMode) : Place → Prop
  | .ofClass _ _ => mode ≠ .fixed
  | .ofAttribute _ _ _ => True
  | .ofText _ _ => True

end Place

theorem Naming.exists_classKey {mode : ClassMode} (hmode : mode ≠ .fixed) (tag : Tag)
    (naming : Naming) : ∃ key next, naming.classKey mode tag = (some key, next) := by
  rw [Naming.classKey, if_neg hmode]
  -- Past the guard every branch gives a key.
  split
  · exact ⟨_, _, rfl⟩
  split
  · exact ⟨_, _, rfl⟩
  split
  · exact ⟨_, _, rfl⟩
  · exact ⟨_, _, rfl⟩

/-- An open place is never refused a key. -/
theorem Naming.exists_ask {mode : ClassMode} {place : Place} (hopen : place.Open mode)
    (naming : Naming) : ∃ key next, naming.ask mode place = (some key, next) := by
  cases place with
  | ofClass tag content => exact Naming.exists_classKey hopen tag naming
  | ofAttribute tag name value => exact ⟨_, _, rfl⟩
  | ofText parent content => exact ⟨_, _, rfl⟩

/-- What relates the key of each place to the place relates the keys of a list to the list. -/
theorem Naming.forall₂_keys {mode : ClassMode} {relates : Text → Place → Prop}
    {places : List Place} (hopen : ∀ place ∈ places, place.Open mode)
    (hask : ∀ place ∈ places, ∀ (naming next : Naming) (key : Text),
      naming.ask mode place = (some key, next) → relates key place)
    (naming : Naming) : List.Forall₂ relates (Naming.keys mode places naming) places := by
  induction places generalizing naming with
  | nil => exact List.Forall₂.nil
  | cons place rest ih =>
    obtain ⟨key, next, hkey⟩ := Naming.exists_ask (hopen place List.mem_cons_self) naming
    have hrest := ih (fun other hmem => hopen other (List.mem_cons_of_mem place hmem))
      (fun other hmem => hask other (List.mem_cons_of_mem place hmem)) next
    rw [Naming.keys, hkey]
    exact List.Forall₂.cons (hask place List.mem_cons_self naming next key hkey) hrest

theorem Naming.length_keys {mode : ClassMode} {places : List Place}
    (hopen : ∀ place ∈ places, place.Open mode) (naming : Naming) :
    (Naming.keys mode places naming).length = places.length := by
  have hall : List.Forall₂ (fun _ _ => True) (Naming.keys mode places naming) places :=
    Naming.forall₂_keys hopen (fun _ _ _ _ _ _ => trivial) naming
  exact hall.length_eq

/-! ### Where the places of a tree come from -/

/-- A class list is one place or none. -/
theorem Tag.classPlaces_eq (options : Options) (tag : Tag) :
    tag.classPlaces options = [] ∨
      ∃ content, Attributes.value? "class" tag.attributes = some (.text content) ∧
        options.classMode ≠ .fixed ∧ tag.classPlaces options = [.ofClass tag content] := by
  rw [Tag.classPlaces]
  split
  · next content hvalue =>
    split
    · exact Or.inl rfl
    · next hsome =>
      exact Or.inr ⟨content, hvalue, fun hfixed => hsome (Or.inr hfixed), rfl⟩
  · exact Or.inl rfl

theorem Tag.eq_of_mem_classPlaces {options : Options} {tag : Tag} {place : Place}
    (hmem : place ∈ tag.classPlaces options) :
    ∃ content, place = .ofClass tag content ∧
      Attributes.value? "class" tag.attributes = some (.text content) ∧
      options.classMode ≠ .fixed := by
  rcases tag.classPlaces_eq options with hnone | ⟨content, hvalue, hmode, hplaces⟩
  · rw [hnone] at hmem
    cases hmem
  · rw [hplaces] at hmem
    exact ⟨content, List.mem_singleton.1 hmem, hvalue, hmode⟩

theorem Tag.eq_of_mem_attributePlaces {options : Options} {tag : Tag} {attributes : Attributes}
    {place : Place} (hmem : place ∈ tag.attributePlaces options attributes) :
    ∃ name value, place = .ofAttribute tag name value ∧ (name, value) ∈ attributes := by
  obtain ⟨⟨name, value⟩, hentry, hplace⟩ := List.mem_filterMap.1 hmem
  dsimp only at hplace
  split at hplace
  · cases hplace
  · split at hplace
    · cases hplace
      exact ⟨name, value, rfl, hentry⟩
    · cases hplace

theorem Tag.editable_of_mem_attributePlaces {options : Options} {tag other : Tag}
    {attributes : Attributes} {name : Text} {value : AttributeValue}
    (hmem : .ofAttribute other name value ∈ tag.attributePlaces options attributes) :
    name ∈ options.editable := by
  obtain ⟨⟨_, _⟩, -, hplace⟩ := List.mem_filterMap.1 hmem
  dsimp only at hplace
  split at hplace
  · cases hplace
  · split at hplace
    · next heditable =>
      cases hplace
      exact List.contains_iff_mem.1 heditable
    · cases hplace

/-- A text is one place or none. -/
theorem Node.textPlaces_eq (options : Options) (parent : Option Tag) (content : Text) :
    textPlaces options parent content = [] ∨
      ∃ tag, Text.trim (Text.collapse content) ≠ [] ∧
        textPlaces options parent content = [.ofText tag content] := by
  cases parent with
  | none => exact Or.inl rfl
  | some tag =>
    rw [textPlaces]
    split
    · next hsome => exact Or.inr ⟨tag, hsome.2, rfl⟩
    · exact Or.inl rfl

theorem Node.eq_of_mem_textPlaces {options : Options} {parent : Option Tag} {content : Text}
    {place : Place} (hmem : place ∈ textPlaces options parent content) :
    ∃ tag, place = .ofText tag content ∧ Text.trim (Text.collapse content) ≠ [] := by
  rcases textPlaces_eq options parent content with hnone | ⟨tag, hblank, hplaces⟩
  · rw [hnone] at hmem
    cases hmem
  · rw [hplaces] at hmem
    exact ⟨tag, List.mem_singleton.1 hmem, hblank⟩

namespace Node

mutual

theorem forall_places {options : Options} {holds : Place → Prop} {parent : Option Tag} :
    ∀ node : Node,
      (∀ tag, .element tag ∈ node.visits → ∀ place ∈ tag.places options, holds place) →
      (∀ content, .text content ∈ node.visits → ∀ parent : Option Tag,
        ∀ place ∈ textPlaces options parent content, holds place) →
      ∀ place ∈ node.places options parent, holds place
  | .text content, _, htexts, place, hmem =>
    htexts content List.mem_cons_self parent place hmem
  | .element tag children, htags, htexts, place, hmem => by
    rw [places] at hmem
    rcases List.mem_append.1 hmem with htag | hchild
    · exact htags tag List.mem_cons_self place htag
    · split at hchild
      · cases hchild
      · exact forall_placesOf children
          (fun other hother => htags other (List.mem_cons_of_mem _ hother))
          (fun content hcontent => htexts content (List.mem_cons_of_mem _ hcontent)) place hchild

/-- What holds of the places of every tag and of every text that a walk meets holds of every place
of the tree. -/
theorem forall_placesOf {options : Options} {holds : Place → Prop} {parent : Option Tag} :
    ∀ nodes : List Node,
      (∀ tag, .element tag ∈ visitsOf nodes → ∀ place ∈ tag.places options, holds place) →
      (∀ content, .text content ∈ visitsOf nodes → ∀ parent : Option Tag,
        ∀ place ∈ textPlaces options parent content, holds place) →
      ∀ place ∈ placesOf options parent nodes, holds place
  | [], _, _, _, hmem => by cases hmem
  | node :: rest, htags, htexts, place, hmem => by
    rw [placesOf] at hmem
    rcases List.mem_append.1 hmem with hnode | hrest
    · exact forall_places node
        (fun tag htag => htags tag (List.mem_append_left _ htag))
        (fun content hcontent => htexts content (List.mem_append_left _ hcontent)) place hnode
    · exact forall_placesOf rest
        (fun tag htag => htags tag (List.mem_append_right _ htag))
        (fun content hcontent => htexts content (List.mem_append_right _ hcontent)) place hrest

end

end Node

/-! ### No place of a tree is refused a key -/

theorem Tag.open_of_mem_classPlaces {options : Options} {tag : Tag} {place : Place}
    (hmem : place ∈ tag.classPlaces options) : place.Open options.classMode := by
  obtain ⟨content, rfl, -, hmode⟩ := Tag.eq_of_mem_classPlaces hmem
  exact hmode

theorem Tag.open_of_mem_places {options : Options} {tag : Tag} {place : Place}
    (hmem : place ∈ tag.places options) : place.Open options.classMode := by
  rcases List.mem_append.1 hmem with hclass | hother
  · exact Tag.open_of_mem_classPlaces hclass
  · obtain ⟨name, value, rfl, -⟩ := Tag.eq_of_mem_attributePlaces hother
    trivial

namespace Node

theorem open_of_mem_textPlaces {options : Options} {parent : Option Tag} {content : Text}
    {place : Place} (hmem : place ∈ textPlaces options parent content) :
    place.Open options.classMode := by
  obtain ⟨tag, rfl, -⟩ := eq_of_mem_textPlaces hmem
  trivial

theorem open_of_mem_places {options : Options} {parent : Option Tag} {place : Place}
    (node : Node) (hmem : place ∈ node.places options parent) : place.Open options.classMode :=
  forall_places node (fun _ _ _ => Tag.open_of_mem_places)
    (fun _ _ _ _ => open_of_mem_textPlaces) place hmem

/-- The places of a tree are open under the class mode that they were listed with. -/
theorem open_of_mem_placesOf {options : Options} {parent : Option Tag} {place : Place}
    (nodes : List Node) (hmem : place ∈ placesOf options parent nodes) :
    place.Open options.classMode :=
  forall_placesOf nodes (fun _ _ _ => Tag.open_of_mem_places)
    (fun _ _ _ _ => open_of_mem_textPlaces) place hmem

end Node

end Stencil
