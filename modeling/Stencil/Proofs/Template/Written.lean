import Stencil.Proofs.Template.Walk

/-!
# Trees as a template has them

The text of a template is a tree written out: the tree that it was made from, with the placeholder
of its key at each of its places (`Template.text_eq_printAll`). That tree is built from its parts,
each named from the history that the parts before it leave (`Node.written_element`,
`Node.writtenAll_cons`).

Two runs over one tree, under different options, can so be compared part by part. If what is looked
at agrees at every tag and every text, whenever the two histories are related there and stay related
behind it, then it agrees throughout both trees (`TwoRuns.mapAll_writtenAll`).
-/

set_option autoImplicit false

namespace Stencil

theorem Naming.after_append (mode : ClassMode) (first second : List Place) (naming : Naming) :
    Naming.after mode (first ++ second) naming =
      Naming.after mode second (Naming.after mode first naming) :=
  List.foldl_append

/-! ## Tags -/

namespace Tag

variable (options : Options) (naming : Naming) (tag : Tag)

/-- A start tag as a template has it, named from a given history. -/
def written : Tag :=
  tag.fill options ((Naming.keys options.classMode (tag.places options) naming).map placeholder)

/-- The class of a tag as a template has it. -/
def writtenClass : Attributes :=
  tag.fillClass options
    ((Naming.keys options.classMode (tag.classPlaces options) naming).map placeholder)

/-- Some attributes of a tag, the class apart, as a template has them. -/
def writtenOthers (attributes : Attributes) : Attributes :=
  fillOthers options attributes
    ((Naming.keys options.classMode (tag.attributePlaces options attributes) naming).map
      placeholder)

/-- The class is written first and named first. -/
theorem attributes_written :
    (tag.written options naming).attributes =
      tag.writtenClass options naming ++
        tag.writtenOthers options
          (Naming.after options.classMode (tag.classPlaces options) naming) tag.attributes := by
  have hlength : ((Naming.keys options.classMode (tag.classPlaces options) naming).map
      placeholder).length = (tag.classPlaces options).length := by
    rw [List.length_map, Naming.length_keys fun _ => Tag.open_of_mem_classPlaces]
  rw [written, places, Naming.keys_append, List.map_append, fill, List.take_left' hlength,
    List.drop_left' hlength, writtenClass, writtenOthers]

theorem writtenOthers_cons (name : Text) (value : AttributeValue) (rest : Attributes) :
    tag.writtenOthers options naming ((name, value) :: rest) =
      if name = "class" then tag.writtenOthers options naming rest
      else if options.editable.contains name then
        (name, .text (placeholder (naming.attributeKey tag name).1)) ::
          tag.writtenOthers options (naming.attributeKey tag name).2 rest
      else (name, value.literal) :: tag.writtenOthers options naming rest := by
  rw [writtenOthers, attributePlaces_cons, fillOthers]
  by_cases hclass : name = "class"
  · rw [if_pos hclass, if_pos hclass, if_pos hclass, writtenOthers]
  rw [if_neg hclass, if_neg hclass, if_neg hclass]
  by_cases heditable : options.editable.contains name = true
  · rw [if_pos heditable, if_pos heditable, if_pos heditable]
    rfl
  · rw [if_neg heditable, if_neg heditable, if_neg heditable, writtenOthers]

theorem writtenOthers_append (first second : Attributes) :
    tag.writtenOthers options naming (first ++ second) =
      tag.writtenOthers options naming first ++
        tag.writtenOthers options
          (Naming.after options.classMode (tag.attributePlaces options first) naming) second := by
  induction first generalizing naming with
  | nil => rfl
  | cons head rest ih =>
    obtain ⟨name, value⟩ := head
    rw [List.cons_append, writtenOthers_cons, writtenOthers_cons, attributePlaces_cons]
    by_cases hclass : name = "class"
    · rw [if_pos hclass, if_pos hclass, if_pos hclass, ih]
    rw [if_neg hclass, if_neg hclass, if_neg hclass]
    by_cases heditable : options.editable.contains name = true
    · rw [if_pos heditable, if_pos heditable, if_pos heditable, ih]
      rfl
    · rw [if_neg heditable, if_neg heditable, if_neg heditable, ih]
      rfl

end Tag

/-! ## Nodes -/

namespace Node

/-- A text as a template has it. -/
def writtenText (options : Options) (parent : Option Tag) (naming : Naming) (content : Text) :
    Text :=
  fillText options parent content
    ((Naming.keys options.classMode (textPlaces options parent content) naming).map placeholder)

/-- A node as a template has it. -/
def written (options : Options) (parent : Option Tag) (naming : Naming) (node : Node) : Node :=
  node.fill options parent
    ((Naming.keys options.classMode (node.places options parent) naming).map placeholder)

/-- Neighbouring nodes as a template has them. -/
def writtenAll (options : Options) (parent : Option Tag) (naming : Naming) (nodes : List Node) :
    List Node :=
  fillAll options parent nodes
    ((Naming.keys options.classMode (placesOf options parent nodes) naming).map placeholder)

theorem written_text (options : Options) (parent : Option Tag) (naming : Naming) (content : Text) :
    (text content).written options parent naming =
      .text (writtenText options parent naming content) := by
  rw [written, fill, places, writtenText]

/-- The children of an element are named from the history that its tag leaves. -/
theorem written_element (options : Options) (parent : Option Tag) (naming : Naming) (tag : Tag)
    (children : List Node) :
    (element tag children).written options parent naming =
      .element (tag.written options naming)
        (if tag.isVoid then []
          else writtenAll options (some tag)
            (Naming.after options.classMode (tag.places options) naming) children) := by
  have hlength : ((Naming.keys options.classMode (tag.places options) naming).map
      placeholder).length = (tag.places options).length := by
    rw [List.length_map, Naming.length_keys fun _ => Tag.open_of_mem_places]
  rw [written, fill, places, Naming.keys_append, List.map_append, List.take_left' hlength,
    List.drop_left' hlength, Tag.written]
  by_cases hvoid : tag.isVoid = true
  · rw [if_pos hvoid, if_pos hvoid]
  · rw [if_neg hvoid, if_neg hvoid, if_neg hvoid, writtenAll]

/-- A node is named before those behind it. -/
theorem writtenAll_cons (options : Options) (parent : Option Tag) (naming : Naming) (node : Node)
    (rest : List Node) :
    writtenAll options parent naming (node :: rest) =
      node.written options parent naming ::
        writtenAll options parent
          (Naming.after options.classMode (node.places options parent) naming) rest := by
  have hlength : ((Naming.keys options.classMode (node.places options parent) naming).map
      placeholder).length = (node.places options parent).length := by
    rw [List.length_map, Naming.length_keys fun _ => open_of_mem_places node]
  rw [writtenAll, fillAll, placesOf, Naming.keys_append, List.map_append, List.take_left' hlength,
    List.drop_left' hlength, written, writtenAll]

end Node

/-- The text of a template is its tree written out. -/
theorem Template.text_eq_printAll (options : Options) (tree : List Node) :
    (Template.ofTree options tree).text =
      Node.printAll (Node.writtenAll options none {} tree) :=
  Template.text_ofTree options tree

/-! ## Two runs over one tree -/

namespace Node

mutual

/-- A node with its tag and text, and those of all nodes below it, changed. -/
def map (onTag : Tag → Tag) (onText : Text → Text) : Node → Node
  | .text content => .text (onText content)
  | .element tag children => .element (onTag tag) (mapAll onTag onText children)

/-- Neighbouring nodes with all their tags and texts changed. -/
def mapAll (onTag : Tag → Tag) (onText : Text → Text) : List Node → List Node
  | [] => []
  | node :: rest => node.map onTag onText :: mapAll onTag onText rest

end

end Node

/-- Two settings of the options under which what `onTag` and `onText` leave of a tag or a text is
written the same, given that the histories are related, and the histories stay related. -/
structure TwoRuns (first second : Options) (related : Naming → Naming → Prop) (onTag : Tag → Tag)
    (onText : Text → Text) : Prop where
  tag : ∀ (tag : Tag) (naming other : Naming), related naming other →
    onTag (tag.written first naming) = onTag (tag.written second other) ∧
      related (Naming.after first.classMode (tag.places first) naming)
        (Naming.after second.classMode (tag.places second) other)
  text : ∀ (parent : Option Tag) (content : Text) (naming other : Naming), related naming other →
    onText (Node.writtenText first parent naming content) =
        onText (Node.writtenText second parent other content) ∧
      related (Naming.after first.classMode (Node.textPlaces first parent content) naming)
        (Naming.after second.classMode (Node.textPlaces second parent content) other)

namespace TwoRuns

variable {first second : Options} {related : Naming → Naming → Prop} {onTag : Tag → Tag}
  {onText : Text → Text}

mutual

theorem map_written (h : TwoRuns first second related onTag onText) {parent : Option Tag} :
    ∀ (node : Node) (naming other : Naming), related naming other →
      (node.written first parent naming).map onTag onText =
          (node.written second parent other).map onTag onText ∧
        related (Naming.after first.classMode (node.places first parent) naming)
          (Naming.after second.classMode (node.places second parent) other)
  | .text content, naming, other, hrelated => by
    obtain ⟨hsame, hafter⟩ := h.text parent content naming other hrelated
    rw [Node.written_text, Node.written_text, Node.map, Node.map, hsame]
    exact ⟨rfl, hafter⟩
  | .element tag children, naming, other, hrelated => by
    obtain ⟨hsame, htag⟩ := h.tag tag naming other hrelated
    rw [Node.written_element, Node.written_element, Node.map, Node.map, hsame, Node.places,
      Node.places, Naming.after_append, Naming.after_append]
    by_cases hvoid : tag.isVoid = true
    · simp only [hvoid, if_true, true_and]
      exact htag
    · simp only [hvoid, if_false, Bool.false_eq_true]
      obtain ⟨hbelow, hafter⟩ := mapAll_writtenAll h children _ _ htag
      exact ⟨by rw [hbelow], hafter⟩

/-- Where each tag and each text is written the same, so is the whole tree. -/
theorem mapAll_writtenAll (h : TwoRuns first second related onTag onText) {parent : Option Tag} :
    ∀ (nodes : List Node) (naming other : Naming), related naming other →
      Node.mapAll onTag onText (Node.writtenAll first parent naming nodes) =
          Node.mapAll onTag onText (Node.writtenAll second parent other nodes) ∧
        related (Naming.after first.classMode (Node.placesOf first parent nodes) naming)
          (Naming.after second.classMode (Node.placesOf second parent nodes) other)
  | [], _, _, hrelated => ⟨rfl, hrelated⟩
  | node :: rest, naming, other, hrelated => by
    obtain ⟨hnode, hafter⟩ := map_written h node naming other hrelated
    obtain ⟨hrest, hend⟩ := mapAll_writtenAll h rest _ _ hafter
    rw [Node.writtenAll_cons, Node.writtenAll_cons, Node.mapAll, Node.mapAll, hnode, hrest,
      Node.placesOf, Node.placesOf, Naming.after_append, Naming.after_append]
    exact ⟨rfl, hend⟩

end

end TwoRuns

end Stencil
