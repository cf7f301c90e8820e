import Mathlib.Data.List.Induction
import Stencil.Proofs.Template.Refill

/-!
# The round trip of a template

A template whose fields are put back is markup of the tree that it was made from
(`Template.parse_refill`). The changes are those that `Node.restoredAll` makes, and no others: the
class comes first, text values are escaped, an editable flag has an empty value, blanks are
collapsed in every text and trimmed off an editable one. Neighbouring texts are one text when they
are read.

Two things are needed of the run. No key may have been asked for twice, so that every place has a
field of its own (`Register.lookup_defaults`); and the markup may hold no braces, so that every pair
of them in the template is a placeholder.
-/

set_option autoImplicit false

namespace Stencil

/-! ## The tree of a refilled template -/

/-- An attribute value as a refilled template has it: a text is escaped, and a flag that was
editable has become an empty text. -/
def AttributeValue.restored (editable : Bool) : AttributeValue → AttributeValue
  | .text content => .text (escapeAttribute content)
  | .flag on => if editable then .text [] else .flag on

/-- Attributes as a refilled template has them. A flag is editable by its name, unless it is the
class. -/
def Attributes.restored (options : Options) (attributes : Attributes) : Attributes :=
  attributes.map fun (name, value) =>
    (name, value.restored (name ≠ "class" ∧ name ∈ options.editable))

theorem Attributes.restored_cons (options : Options) (name : Text) (value : AttributeValue)
    (rest : Attributes) :
    restored options ((name, value) :: rest) =
      (name, value.restored (name ≠ "class" ∧ name ∈ options.editable)) ::
        restored options rest := rfl

theorem Attributes.restored_append (options : Options) (first second : Attributes) :
    restored options (first ++ second) = restored options first ++ restored options second :=
  List.map_append

/-- A start tag as a refilled template has it, the class in front. -/
def Tag.restored (options : Options) (tag : Tag) : Tag :=
  ⟨tag.name, Attributes.restored options (Attributes.classFirst tag.attributes)⟩

namespace Node

/-- A text as a refilled template has it: with each run of blanks made one space, and without the
blanks at its ends if it was a place. -/
def restoredText (options : Options) (parent : Option Tag) (content : Text) : Text :=
  if textPlaces options parent content = [] then Text.collapse content
  else Text.trim (Text.collapse content)

mutual

/-- A node as a refilled template has it. -/
def restored (options : Options) (parent : Option Tag) : Node → Node
  | .text content => .text (restoredText options parent content)
  | .element tag children =>
    .element (tag.restored options) (restoredAll options (some tag) children)

/-- Neighbouring nodes as a refilled template has them. -/
def restoredAll (options : Options) (parent : Option Tag) : List Node → List Node
  | [] => []
  | node :: rest => node.restored options parent :: restoredAll options parent rest

end

end Node

/-! ## Filling a tree with what was in it -/

theorem AttributeValue.restored_of_literal {value : AttributeValue}
    (h : value.Good Text.IsRead) : value.restored false = value.literal := by
  cases value with
  | flag on =>
    have hon : on = true := h
    subst hon
    rfl
  | text content => rfl

/-- The content of an editable value is what it is restored to, also where it has none. -/
theorem AttributeValue.restored_of_editable (value : AttributeValue) :
    value.restored true = .text (escapeAttribute value.content) := by
  cases value with
  | flag on => rfl
  | text content => rfl

namespace Tag

variable {options : Options}

theorem fillClass_written {tag : Tag} (h : tag.IsRead) :
    tag.fillClass options ((tag.classPlaces options).map Place.written) =
      Attributes.restored options (tag.attributes.filter (·.1 = ("class" : Text))) := by
  have hclass : decide (("class" : Text) ≠ "class" ∧ ("class" : Text) ∈ options.editable) = false :=
    decide_eq_false fun hboth => hboth.1 rfl
  rw [Attributes.filter_eq_value? h.attributes.2, fillClass]
  cases hvalue : Attributes.value? "class" tag.attributes with
  | none => rfl
  | some value =>
    have hread := (h.attributes.1 _ (Attributes.mem_of_value? hvalue)).2
    have hrestored : Attributes.restored options [(("class" : Text), value)] =
        [(("class" : Text), value.restored false)] := by
      rw [Attributes.restored_cons, hclass]
      rfl
    -- The class is restored the same way, whether it was a place or not.
    refine Eq.trans ?_ hrestored.symm
    rw [AttributeValue.restored_of_literal hread]
    dsimp only
    rcases tag.classPlaces_eq options with hnone | ⟨content, hsame, -, hplaces⟩
    · rw [if_pos hnone]
    · rw [hvalue] at hsame
      cases hsame
      rw [if_neg (by rw [hplaces]; exact List.cons_ne_nil _ _), hplaces]
      rfl

theorem fillOthers_written {tag : Tag} {attributes : Attributes}
    (h : ∀ entry ∈ attributes, entry.2.Good Text.IsRead) :
    fillOthers options attributes ((tag.attributePlaces options attributes).map Place.written) =
      Attributes.restored options (attributes.filter (·.1 ≠ ("class" : Text))) := by
  induction attributes with
  | nil => rfl
  | cons head rest ih =>
    obtain ⟨name, value⟩ := head
    have hvalue := h _ List.mem_cons_self
    have hrest := ih fun entry hentry => h entry (List.mem_cons_of_mem _ hentry)
    rw [attributePlaces_cons, fillOthers]
    by_cases hclass : name = "class"
    · rw [if_pos hclass, if_pos hclass, List.filter_cons_of_neg (by simpa using hclass)]
      exact hrest
    rw [if_neg hclass, if_neg hclass, List.filter_cons_of_pos (by simpa using hclass),
      Attributes.restored_cons]
    by_cases heditable : options.editable.contains name = true
    · have hdecide : decide (name ≠ "class" ∧ name ∈ options.editable) = true :=
        decide_eq_true ⟨hclass, List.contains_iff_mem.1 heditable⟩
      rw [if_pos heditable, if_pos heditable, hdecide, AttributeValue.restored_of_editable,
        List.map_cons, List.headD_cons, List.tail_cons, hrest]
      rfl
    · have hdecide : decide (name ≠ "class" ∧ name ∈ options.editable) = false :=
        decide_eq_false fun hboth => heditable (List.contains_iff_mem.2 hboth.2)
      rw [if_neg heditable, if_neg heditable, hdecide,
        AttributeValue.restored_of_literal hvalue, hrest]

theorem fill_written {tag : Tag} (h : tag.IsRead) :
    tag.fill options ((tag.places options).map Place.written) = tag.restored options := by
  have hgood := fun entry hentry => (h.attributes.1 entry hentry).2
  rw [fill_map, fillClass_written h, fillOthers_written hgood, restored, Attributes.classFirst,
    Attributes.restored_append]

end Tag

namespace Node

theorem fillText_written (options : Options) (parent : Option Tag) (content : Text) :
    fillText options parent content ((textPlaces options parent content).map Place.written) =
      restoredText options parent content := by
  rw [fillText, restoredText]
  rcases textPlaces_eq options parent content with hnone | ⟨tag, -, hplaces⟩
  · rw [if_pos hnone, if_pos hnone]
  · rw [hplaces, if_neg (List.cons_ne_nil _ _), if_neg (List.cons_ne_nil _ _)]
    rfl

mutual

theorem fill_written {options : Options} {parent : Option Tag} :
    ∀ node : Node, node.Legible Tag.IsRead →
      node.fill options parent ((node.places options parent).map Place.written) =
        node.restored options parent
  | .text content, _ => by
    rw [fill, places, fillText_written, restored]
  | .element tag children, h => by
    rw [fill_element_map, Tag.fill_written h.1, restored]
    by_cases hvoid : tag.isVoid = true
    · rw [if_pos hvoid, h.2.1 hvoid]
      rfl
    · rw [if_neg hvoid, fillAll_written children h.2.2]

/-- A tree that is filled with what its places held is restored. -/
theorem fillAll_written {options : Options} {parent : Option Tag} :
    ∀ nodes : List Node, LegibleAll Tag.IsRead nodes →
      fillAll options parent nodes ((placesOf options parent nodes).map Place.written) =
        restoredAll options parent nodes
  | [], _ => rfl
  | node :: rest, h => by
    rw [fillAll_cons_map, fill_written node h.1, fillAll_written rest h.2, restoredAll]

end

end Node

/-! ## What was in a place suits it -/

theorem Tag.suits_written {options : Options} {tag : Tag} {place : Place} (h : tag.IsRead)
    (hplace : place ∈ tag.places options) : place.Suits place.written := by
  rcases List.mem_append.1 hplace with hclass | hother
  · obtain ⟨content, rfl, hvalue, -⟩ := Tag.eq_of_mem_classPlaces hclass
    have hread : content.IsRead := (h.attributes.1 _ (Attributes.mem_of_value? hvalue)).2
    exact isQuotable_escapeAttribute hread.1
  · obtain ⟨name, value, rfl, hentry⟩ := Tag.eq_of_mem_attributePlaces hother
    have hread := (h.attributes.1 _ hentry).2
    cases value with
    | flag on => exact isQuotable_escapeAttribute List.not_mem_nil
    | text content => exact isQuotable_escapeAttribute hread.1

/-- Every place of a legible tree may be filled with what it held. -/
theorem Node.suits_written (options : Options) {tree : List Node}
    (h : LegibleAll Tag.IsRead tree) :
    List.Forall₂ Place.Suits ((placesOf options none tree).map Place.written)
      (placesOf options none tree) := by
  rw [List.forall₂_map_left_iff, List.forall₂_same]
  refine forall_placesOf tree ?_ ?_
  · intro tag hvisit place hplace
    exact Tag.suits_written (legible_of_mem_visitsOf tree h hvisit) hplace
  · intro content hvisit parent place hplace
    obtain ⟨tag, rfl, hblank⟩ := eq_of_mem_textPlaces hplace
    have hlegible := legible_of_mem_visitsOf tree h hvisit
    refine ⟨hblank, fun hmem => ?_⟩
    exact Text.not_mem_collapse (by decide) hlegible.2 (Text.mem_of_mem_trim hmem)

/-! ## What the keys stand for -/

namespace Register

/-- Distinct keys are all registered. -/
theorem firsts_of_nodup {fields : List Field} (h : (fields.map Field.key).Nodup) :
    firsts fields = fields := by
  induction fields using List.reverseRecOn with
  | nil => rfl
  | append_singleton fields field ih =>
    rw [List.map_append, List.map_singleton, List.nodup_append] at h
    obtain ⟨hnodup, -, hapart⟩ := h
    have hnew : field.key ∉ fields.map Field.key :=
      fun hmem => hapart _ hmem _ (List.mem_singleton_self _) rfl
    rw [firsts_concat, if_neg hnew, ih hnodup]

/-- Distinct keys stand for the content of their own field. -/
theorem lookup_defaults {register : Register} (h : (register.map Field.key).Nodup) {field : Field}
    (hfield : field ∈ register) : register.defaults.lookup field.key = some field.default := by
  induction register with
  | nil => cases hfield
  | cons head rest ih =>
    rw [List.map_cons, List.nodup_cons] at h
    rw [defaults, List.map_cons, List.lookup_cons]
    rcases List.mem_cons.1 hfield with rfl | hrest
    · rw [beq_self_eq_true]
    · -- The field stands behind `head`, so its key is another one.
      have hne : (field.key == head.key) = false := by
        rw [beq_eq_false_iff_ne]
        exact fun hsame => h.1 (hsame ▸ List.mem_map_of_mem hrest)
      rw [hne]
      exact ih h.2 hrest

end Register

namespace Template

variable {options : Options} {tree : List Node}

theorem repeated_ofTree (options : Options) (tree : List Node) :
    (Template.ofTree options tree).repeated =
      (({} : Run).visitAll options.classMode (Node.placesOf options none tree)).repeated := by
  rw [Template.ofTree, Node.renderAll_eq]

/-- Where no key came up again, every place has the field of its own key. -/
theorem lookup_defaults_ofTree (honce : (Template.ofTree options tree).repeated = []) :
    List.Forall₂
      (fun key place =>
        (Template.ofTree options tree).fields.defaults.lookup key = some place.content)
      (Naming.keys options.classMode (Node.placesOf options none tree) {})
      (Node.placesOf options none tree) := by
  have hopen : ∀ place ∈ Node.placesOf options none tree, place.Open options.classMode :=
    fun _ => Node.open_of_mem_placesOf tree
  have hstart : ({} : Run).register = Register.firsts [] := rfl
  rw [repeated_ofTree] at honce
  have hnodup := Run.nodup_of_repeated_eq_nil hopen hstart List.nodup_nil honce
  rw [List.nil_append] at hnodup
  -- All keys are distinct, so the register holds the fields of all places.
  have hfields : (Template.ofTree options tree).fields =
      ({} : Run).fieldsOf options.classMode (Node.placesOf options none tree) := by
    rw [fields_ofTree]
    exact Register.firsts_of_nodup hnodup
  rw [List.forall₂_iff_zip]
  refine ⟨Naming.length_keys hopen {}, ?_⟩
  intro key place hpair
  have hmem : place.field key ∈ (Template.ofTree options tree).fields := by
    rw [hfields, Run.fieldsOf, ← List.map_uncurry_zip_eq_zipWith]
    exact List.mem_map.2 ⟨(key, place), hpair, rfl⟩
  rw [← hfields] at hnodup
  exact Register.lookup_defaults hnodup hmem

/-- What stands in a key is a name character, a line feed, or stands in the name of an element. -/
theorem not_mem_keys (options : Options) (markup : Text) {c : CodePoint}
    (hother : c.isAttributeName = false) (hfeed : c ≠ .scalar '\n')
    (hnames : ∀ tag, .element tag ∈ Node.visitsOf (Node.parse markup) → c ∉ tag.name) :
    List.Forall₂ (fun key _ => c ∉ key)
      (Naming.keys options.classMode (Node.placesOf options none (Node.parse markup)) {})
      (Node.placesOf options none (Node.parse markup)) := by
  have hletters : ∀ place ∈ Node.placesOf options none (Node.parse markup), c ∉ place.letters := by
    refine Node.forall_placesOf _ ?_ ?_
    · intro tag hvisit place hplace
      have htag : tag.IsRead :=
        Node.legible_of_mem_visitsOf _ (Node.legibleAll_parse markup) hvisit
      exact Tag.not_mem_letters htag hother (hnames tag hvisit) hplace
    · intro content _ parent place hplace
      obtain ⟨tag, rfl, -⟩ := Node.eq_of_mem_textPlaces hplace
      rw [Place.letters]
      simpa using hfeed
  apply Naming.forall₂_keys (fun _ => Node.open_of_mem_placesOf _)
  intro place hplace naming next key hask
  exact (Naming.spelled_key hask).not_mem hother (hletters place hplace)

/-- A key holds no closing brace unless the markup holds one. -/
theorem closing_not_mem_keys (options : Options) {markup : Text}
    (hclosing : .scalar '\x7d' ∉ markup) :
    List.Forall₂ (fun key _ => .scalar '\x7d' ∉ key)
      (Naming.keys options.classMode (Node.placesOf options none (Node.parse markup)) {})
      (Node.placesOf options none (Node.parse markup)) := by
  have havoids : ∀ visit ∈ Node.visitsOf (Node.parse markup), visit.Avoids (.scalar '\x7d') :=
    Node.avoids_of_mem_visitsOf_parse (by decide) hclosing
  exact not_mem_keys options markup (by decide) (by decide) fun _ hvisit => (havoids _ hvisit).1

/-- Where markup holds no braces and no key came up again, every placeholder of its template is
refilled to what it replaced. -/
theorem refilledFrom_placeholders {markup : Text} (hclosing : .scalar '\x7d' ∉ markup)
    (honce : (Template.ofTree options (Node.parse markup)).repeated = []) :
    List.Forall₂
      (Place.RefilledFrom (Template.ofTree options (Node.parse markup)).fields.defaults)
      ((Naming.keys options.classMode
        (Node.placesOf options none (Node.parse markup)) {}).map placeholder)
      (Node.placesOf options none (Node.parse markup)) := by
  obtain ⟨hlength, hcontents⟩ := List.forall₂_iff_zip.1 (lookup_defaults_ofTree honce)
  obtain ⟨-, hkeys⟩ := List.forall₂_iff_zip.1 (closing_not_mem_keys options hclosing)
  rw [List.forall₂_map_left_iff, List.forall₂_iff_zip]
  refine ⟨hlength, ?_⟩
  intro key place hpair
  exact Refills.key place.spot (hkeys hpair) (hcontents hpair)

/-- **Putting the defaults back gives the source.** For markup without braces, with no element name
that holds a double quote or ends in a slash, and for options under which no key is asked for twice:
the refilled template is read as the tree of the markup, up to the changes of `Node.restoredAll` and
with neighbouring texts merged. -/
theorem parse_refill (options : Options) (markup : Text) (hopening : .scalar '\x7b' ∉ markup)
    (hclosing : .scalar '\x7d' ∉ markup)
    (hnames : ∀ tag ∈ Node.tagsOf (Node.parse markup), tag.PlainName)
    (honce : (Template.ofTree options (Node.parse markup)).repeated = []) :
    Node.parse (Template.ofTree options (Node.parse markup)).refill =
      Node.mergeAll (Node.restoredAll options none (Node.parse markup)) := by
  have hread := Node.legibleAll_parse markup
  have hplain := Node.legibleAll_and _ hread hnames
  have havoids : ∀ visit ∈ Node.visitsOf (Node.parse markup), visit.Avoids (.scalar '\x7b') :=
    Node.avoids_of_mem_visitsOf_parse (by decide) hopening
  have hrefills := Node.refills_printAll _ _ hplain havoids
    (refilledFrom_placeholders hclosing honce) []
  -- What comes out is the printed tree with the old contents at its places.
  have hwritten : (Template.ofTree options (Node.parse markup)).refill =
      Node.printAll (Node.restoredAll options none (Node.parse markup)) := by
    rw [List.append_nil, ← text_ofTree, refillFrom, List.append_nil,
      Node.fillAll_written _ hread] at hrefills
    exact hrefills
  have hprintable := Node.legibleAll_fillAll _ _ hplain (Node.suits_written options hread)
  rw [Node.fillAll_written _ hread] at hprintable
  rw [hwritten, Node.parse_printAll hprintable]

/-- The round trip of a section with a heading and an image. -/
theorem parse_refill_section :
    let markup : Text :=
      "<section class=hero><h1>Two  words</h1><img alt></section>"
    (.scalar '\x7b' ∉ markup ∧ .scalar '\x7d' ∉ markup) ∧
      (∀ tag ∈ Node.tagsOf (Node.parse markup), tag.PlainName) ∧
      (Template.ofTree {} (Node.parse markup)).repeated = [] ∧
      Node.parse (Template.ofTree {} (Node.parse markup)).refill =
        Node.mergeAll (Node.restoredAll {} none (Node.parse markup)) :=
  ⟨by decide, by decide +kernel, by decide +kernel,
    parse_refill {} _ (by decide) (by decide) (by decide +kernel) (by decide +kernel)⟩

end Template

end Stencil
