import Stencil.Proofs.Template.Place

/-!
# The walk over a tree

Rendering names, registers and writes in one walk. What the walk does to its state is what its
places do to it one after another (`Run.visit`), and what it writes is the tree with the
placeholders of these places filled in (`Node.renderAll_eq`).
-/

set_option autoImplicit false

namespace Stencil

/-! ## What a place does to the state -/

namespace Run

/-- What one place does to the state of a rendering. -/
def visit (mode : ClassMode) (run : Run) (place : Place) : Run :=
  match run.naming.ask mode place with
  | (some key, naming) => { run with naming := naming }.note (place.field key)
  | (none, naming) => { run with naming := naming }

/-- What a list of places does to the state of a rendering. -/
def visitAll (mode : ClassMode) (run : Run) (places : List Place) : Run :=
  places.foldl (visit mode) run

/-- The placeholders that a list of places gets in a given state. -/
def placeholders (mode : ClassMode) (run : Run) (places : List Place) : List Text :=
  (Naming.keys mode places run.naming).map placeholder

@[simp] theorem note_naming (run : Run) (field : Field) : (run.note field).naming = run.naming := by
  unfold note
  split <;> rfl

theorem visit_naming (mode : ClassMode) (run : Run) (place : Place) :
    (run.visit mode place).naming = (run.naming.ask mode place).2 := by
  unfold visit
  split
  · next hask => rw [note_naming, hask]
  · next hask => rw [hask]

theorem visitAll_naming (mode : ClassMode) (run : Run) (places : List Place) :
    (run.visitAll mode places).naming = Naming.after mode places run.naming := by
  induction places generalizing run with
  | nil => rfl
  | cons place rest ih =>
    have hrest := ih (run.visit mode place)
    rw [visit_naming] at hrest
    exact hrest

theorem visitAll_append (mode : ClassMode) (run : Run) (first second : List Place) :
    run.visitAll mode (first ++ second) = (run.visitAll mode first).visitAll mode second :=
  List.foldl_append

theorem placeholders_append (mode : ClassMode) (run : Run) (first second : List Place) :
    run.placeholders mode (first ++ second) =
      run.placeholders mode first ++ (run.visitAll mode first).placeholders mode second := by
  unfold placeholders
  rw [Naming.keys_append, List.map_append, visitAll_naming]

theorem visit_of_ask {mode : ClassMode} {run : Run} {place : Place} {key : Text} {naming : Naming}
    (hask : run.naming.ask mode place = (some key, naming)) :
    run.visit mode place = { run with naming := naming }.note (place.field key) := by
  rw [visit, hask]

theorem placeholders_cons {mode : ClassMode} {run : Run} {place : Place} {key : Text}
    {naming : Naming} (hask : run.naming.ask mode place = (some key, naming))
    (rest : List Place) :
    run.placeholders mode (place :: rest) =
      placeholder key :: (run.visit mode place).placeholders mode rest := by
  rw [placeholders, placeholders, Naming.keys, visit_naming, hask]
  rfl

@[simp] theorem visitAll_nil (mode : ClassMode) (run : Run) : run.visitAll mode [] = run := rfl

theorem visitAll_cons (mode : ClassMode) (run : Run) (place : Place) (rest : List Place) :
    run.visitAll mode (place :: rest) = (run.visit mode place).visitAll mode rest := rfl

theorem length_placeholders {mode : ClassMode} {places : List Place}
    (hopen : ∀ place ∈ places, place.Open mode) (run : Run) :
    (run.placeholders mode places).length = places.length := by
  unfold placeholders
  rw [List.length_map, Naming.length_keys hopen]

end Run

/-! ## The walk over a tree -/

theorem Attributes.printOne_literal (name : Text) (value : AttributeValue) :
    Attributes.printOne name value.literal = literalAttribute name value := by
  cases value with
  | flag on =>
    cases on with
    | true => rfl
    | false =>
      simp only [AttributeValue.literal, Attributes.printOne, literalAttribute, List.append_assoc]
      rfl
  | text content => rfl

theorem Attributes.printOne_placeholder (name key : Text) :
    Attributes.printOne name (.text (placeholder key)) = openAttribute name key := rfl

/-- The class attribute is written with the placeholder of its place, and the state after it has
been through that place. -/
theorem renderClass_eq (options : Options) (tag : Tag) (run : Run) :
    renderClass options tag run =
      (Attributes.print (tag.fillClass options
        (run.placeholders options.classMode (tag.classPlaces options))),
        run.visitAll options.classMode (tag.classPlaces options)) := by
  unfold renderClass Tag.fillClass Tag.classPlaces
  cases Attributes.value? "class" tag.attributes with
  | none => rfl
  | some value =>
    cases value with
    | flag on => cases on <;> rfl
    | text content =>
      -- An empty class list and a fixed one stay literal; the naming history is not touched.
      by_cases hempty : content = []
      · subst hempty
        rfl
      by_cases hfixed : options.classMode = .fixed
      · simp [AttributeValue.content, hempty, hfixed, Naming.classKey, Attributes.printOne_literal]
      · obtain ⟨key, next, hkey⟩ := Naming.exists_classKey hfixed tag run.naming
        have hask : run.naming.ask options.classMode (.ofClass tag content) =
            (some key, next) := hkey
        simp only [AttributeValue.content, hempty, hfixed, if_false, or_self, hkey,
          Run.placeholders_cons hask, Run.visitAll_cons, Run.visit_of_ask hask, List.cons_ne_nil]
        rw [List.headD_cons, Attributes.print_cons, Attributes.printOne_placeholder,
          Attributes.print_nil, List.append_nil]
        rfl

theorem renderAttributes_eq (options : Options) (tag : Tag) (attributes : Attributes) (run : Run) :
    renderAttributes options tag attributes run =
      (Attributes.print (Tag.fillOthers options attributes
        (run.placeholders options.classMode (tag.attributePlaces options attributes))),
        run.visitAll options.classMode (tag.attributePlaces options attributes)) := by
  induction attributes generalizing run with
  | nil => rfl
  | cons head rest ih =>
    obtain ⟨name, value⟩ := head
    rw [renderAttributes, Tag.attributePlaces_cons, Tag.fillOthers]
    by_cases hclass : name = "class"
    · simp only [hclass, if_true]
      exact ih run
    by_cases heditable : options.editable.contains name = true
    · have hask : run.naming.ask options.classMode (.ofAttribute tag name value) =
          (some (run.naming.attributeKey tag name).1, (run.naming.attributeKey tag name).2) := rfl
      simp only [hclass, heditable, if_true, if_false, renderAttribute, ih,
        Run.placeholders_cons hask, Run.visitAll_cons, Run.visit_of_ask hask, List.headD_cons,
        List.tail_cons, Attributes.print_cons, Attributes.printOne_placeholder]
      rfl
    · simp only [hclass, heditable, if_false, renderAttribute, ih, Bool.false_eq_true,
        Attributes.print_cons, Attributes.printOne_literal]

theorem renderText_eq (options : Options) (parent : Option Tag) (content : Text) (run : Run) :
    renderText options parent content run =
      (Node.fillText options parent content
        (run.placeholders options.classMode (Node.textPlaces options parent content)),
        run.visitAll options.classMode (Node.textPlaces options parent content)) := by
  unfold renderText Node.fillText Node.textPlaces
  cases parent with
  | none => rfl
  | some tag =>
    by_cases hedit : options.textEditable = true
    · by_cases hblank : Text.trim (Text.collapse content) = []
      · simp [hedit, hblank, Run.visitAll]
      · have hask : run.naming.ask options.classMode (.ofText tag content) =
            (some (run.naming.textKey tag).1, (run.naming.textKey tag).2) := rfl
        simp only [hedit, hblank, ne_eq, not_false_eq_true, and_self, if_true, Bool.not_true,
          Bool.false_or, decide_false, Bool.false_eq_true, if_false, Run.placeholders_cons hask,
          Run.visitAll_cons, Run.visit_of_ask hask, List.cons_ne_nil, List.headD_cons]
        rfl
    · simp [hedit, Run.visitAll]

namespace Node

/-- The start tag of an element is written with the placeholders of its places. -/
theorem renderTag_eq (options : Options) (tag : Tag) (run : Run) :
    let values := run.placeholders options.classMode (tag.places options)
    let first := renderClass options tag run
    let second := renderAttributes options tag tag.attributes first.2
    first.1 ++ second.1 = Attributes.print (tag.fill options values).attributes ∧
      second.2 = run.visitAll options.classMode (tag.places options) := by
  -- The class list is named first, so the first placeholders of the tag are its own.
  have hlength : (run.placeholders options.classMode (tag.classPlaces options)).length =
      (tag.classPlaces options).length :=
    Run.length_placeholders (fun _ => Tag.open_of_mem_classPlaces) run
  simp only [renderClass_eq, renderAttributes_eq, Tag.places, Run.placeholders_append,
    Run.visitAll_append, Tag.fill, List.take_left' hlength, List.drop_left' hlength,
    Attributes.print_append, and_self]

mutual

theorem render_eq (options : Options) (parent : Option Tag) : ∀ (node : Node) (run : Run),
    node.render options parent run =
      ((node.fill options parent
        (run.placeholders options.classMode (node.places options parent))).print,
        run.visitAll options.classMode (node.places options parent))
  | .text content, run => by
    rw [render, renderText_eq, fill, print, places]
  | .element tag children, run => by
    obtain ⟨hwritten, hstate⟩ := renderTag_eq options tag run
    have hlength : (run.placeholders options.classMode (tag.places options)).length =
        (tag.places options).length :=
      Run.length_placeholders (fun _ => Tag.open_of_mem_places) run
    rw [render, fill, print, places, Tag.fill_isVoid, Tag.inside, Tag.fill_isVoid, Tag.fill_name,
      Run.placeholders_append, Run.visitAll_append, List.take_left' hlength,
      List.drop_left' hlength, ← hwritten]
    by_cases hvoid : tag.isVoid = true
    · simp only [hvoid, if_true, Run.visitAll_nil, hstate, List.cons_append, List.append_assoc]
      rfl
    · simp only [hvoid, if_false, Bool.false_eq_true, hstate,
        renderAll_eq options (some tag) children, List.cons_append, List.append_assoc,
        List.append_nil]

/-- One walk over a tree writes it with the placeholders of its places put in, and its state goes
through those places in document order. -/
theorem renderAll_eq (options : Options) (parent : Option Tag) :
    ∀ (nodes : List Node) (run : Run),
      renderAll options parent nodes run =
        (printAll (fillAll options parent nodes
          (run.placeholders options.classMode (placesOf options parent nodes))),
          run.visitAll options.classMode (placesOf options parent nodes))
  | [], run => rfl
  | node :: rest, run => by
    have hlength : (run.placeholders options.classMode (node.places options parent)).length =
        (node.places options parent).length :=
      Run.length_placeholders (fun _ => open_of_mem_places node) run
    rw [renderAll, fillAll, printAll, placesOf, Run.placeholders_append, Run.visitAll_append,
      List.take_left' hlength, List.drop_left' hlength]
    simp only [render_eq options parent node run, renderAll_eq options parent rest]

end

end Node

/-- The text of a template is the tree written with the placeholders of its places. -/
theorem Template.text_ofTree (options : Options) (tree : List Node) :
    let keys := Naming.keys options.classMode (Node.placesOf options none tree) {}
    (Template.ofTree options tree).text =
      Node.printAll (Node.fillAll options none tree (keys.map placeholder)) := by
  intro keys
  rw [Template.ofTree, Node.renderAll_eq]
  rfl

end Stencil
