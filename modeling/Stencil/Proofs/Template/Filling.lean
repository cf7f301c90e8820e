import Stencil.Proofs.Markup.ReadBack
import Stencil.Proofs.Template.Place
import Stencil.Proofs.Text.Pieces
import Stencil.Proofs.Text.References

/-!
# Filled trees

A legible tree stays one that can be written and read back when its places are filled, as long as
every value suits its place (`Node.legibleAll_fillAll`): inside a tag a value may hold neither a
double quote nor a `>`, and a text may neither be empty nor hold a `<`. What is not filled is
escaped (`escapeAttribute`) or has its blanks collapsed, which suits as well.

Filling leaves the elements where they are. Their attributes keep their names, the class moved to
the front (`Node.outlineOf_fillAll`).
-/

set_option autoImplicit false

namespace Stencil

/-! ## Escaped values -/

/-- Escaping brings in nothing but the letters of its references. -/
theorem not_mem_escapeAttribute {c : CodePoint} {text : Text}
    (hreference : c ∉ ("&amp;&quot;" : Text)) (hc : c ∉ text) : c ∉ escapeAttribute text := by
  have hparts : c ∉ ("&amp;" : Text) ∧ c ∉ ("&quot;" : Text) := by
    rw [← not_or, ← List.mem_append]
    exact hreference
  rw [escapeAttribute, Text.mem_replace_iff, Text.mem_replace_iff]
  rintro (⟨⟨hmem, -⟩ | ⟨-, hmem⟩, -⟩ | ⟨-, hmem⟩)
  · exact hc hmem
  · exact hparts.1 hmem
  · exact hparts.2 hmem

theorem isQuotable_escapeAttribute {text : Text} (h : .scalar '>' ∉ text) :
    (escapeAttribute text).IsQuotable :=
  ⟨Text.quote_not_mem_escapeAttribute text, not_mem_escapeAttribute (by decide) h⟩

theorem AttributeValue.good_literal {value : AttributeValue} (h : value.Good Text.IsRead) :
    value.literal.Good Text.IsQuotable := by
  cases value with
  | flag on =>
    have hon : on = true := h
    subst hon
    rfl
  | text content => exact isQuotable_escapeAttribute h.1

/-! ## Values that suit their places -/

/-- Whether a place may be filled with a value. -/
def Place.Suits (value : Text) : Place → Prop
  | .ofClass _ _ => value.IsQuotable
  | .ofAttribute _ _ _ => value.IsQuotable
  | .ofText _ _ => value ≠ [] ∧ .scalar '<' ∉ value

/-- Whether a place may be filled with a value, given what the value of an attribute may be. -/
def Place.SuitsAs (good : Text → Prop) (value : Text) : Place → Prop
  | .ofClass _ _ => good value
  | .ofAttribute _ _ _ => good value
  | .ofText _ _ => value ≠ [] ∧ .scalar '<' ∉ value

theorem Place.suitsAs_isQuotable {value : Text} {place : Place} (h : place.Suits value) :
    place.SuitsAs Text.IsQuotable value := by
  cases place with
  | ofClass tag content => exact h
  | ofAttribute tag name other => exact h
  | ofText parent content => exact h

namespace Attributes

theorem mem_of_value? {name : Text} {value : AttributeValue} {attributes : Attributes}
    (h : value? name attributes = some value) : (name, value) ∈ attributes := by
  induction attributes with
  | nil => cases h
  | cons head rest ih =>
    obtain ⟨other, old⟩ := head
    rw [value?] at h
    split at h
    · next hsame =>
      cases h
      rw [hsame]
      exact List.mem_cons_self
    · exact List.mem_cons_of_mem _ (ih h)

theorem value?_eq_none_iff {name : Text} {attributes : Attributes} :
    value? name attributes = none ↔ name ∉ attributes.map Prod.fst := by
  induction attributes with
  | nil => simp [value?]
  | cons head rest ih =>
    obtain ⟨other, old⟩ := head
    rw [value?, List.map_cons, List.mem_cons, not_or, ← ih]
    by_cases hsame : other = name
    · simp [hsame]
    · simp [hsame, Ne.symm hsame]

/-- Distinct names leave at most one attribute of a name. -/
theorem filter_eq_value? {name : Text} {attributes : Attributes}
    (hnodup : (attributes.map Prod.fst).Nodup) :
    attributes.filter (·.1 = name) =
      (value? name attributes).toList.map fun value => (name, value) := by
  induction attributes with
  | nil => rfl
  | cons head rest ih =>
    obtain ⟨other, old⟩ := head
    rw [List.map_cons, List.nodup_cons] at hnodup
    rw [value?]
    by_cases hsame : other = name
    · subst hsame
      have hnone := ih hnodup.2
      rw [value?_eq_none_iff.2 hnodup.1] at hnone
      rw [List.filter_cons_of_pos (by simp), hnone, if_pos rfl]
      rfl
    · rw [List.filter_cons_of_neg (by simpa using hsame), ih hnodup.2, if_neg hsame]

theorem value?_of_mem {name : Text} {value : AttributeValue} {attributes : Attributes}
    (hnodup : (attributes.map Prod.fst).Nodup) (hmem : (name, value) ∈ attributes) :
    value? name attributes = some value := by
  have hkept : (name, value) ∈ attributes.filter (·.1 = name) :=
    List.mem_filter.2 ⟨hmem, by simp⟩
  rw [filter_eq_value? hnodup] at hkept
  obtain ⟨other, hother, hsame⟩ := List.mem_map.1 hkept
  rw [← (Prod.mk.inj hsame).2]
  exact Option.mem_toList.1 hother

/-- Attributes with the class moved to the front. -/
def classFirst (attributes : Attributes) : Attributes :=
  attributes.filter (·.1 = ("class" : Text)) ++ attributes.filter (·.1 ≠ ("class" : Text))

end Attributes

namespace Tag

/-- The names of the attributes of a tag. -/
def attributeNames (tag : Tag) : List Text :=
  tag.attributes.map Prod.fst

/-- The names of the attributes of a tag, the class in front. -/
def namesClassFirst (tag : Tag) : List Text :=
  (Attributes.classFirst tag.attributes).map Prod.fst

section Values

variable {good : Text → Prop} {options : Options} {tag : Tag} {values : List Text}
  (hliteral : ∀ value : AttributeValue, value.Good Text.IsRead → value.literal.Good good)

include hliteral

theorem good_fillClass (h : tag.IsRead)
    (hvalues : List.Forall₂ (Place.SuitsAs good) values (tag.classPlaces options)) :
    ∀ entry ∈ tag.fillClass options values,
      Attributes.LegibleName entry.1 ∧ entry.2.Good good := by
  intro entry hentry
  rw [fillClass] at hentry
  split at hentry
  · cases hentry
  · next value hvalue =>
    rcases tag.classPlaces_eq options with hnone | ⟨content, -, -, hplaces⟩
    · rw [if_pos hnone] at hentry
      obtain rfl := List.mem_singleton.1 hentry
      have hmem := Attributes.mem_of_value? hvalue
      exact ⟨Attributes.legibleName_class, hliteral _ (h.attributes.1 _ hmem).2⟩
    · rw [hplaces] at hvalues
      rw [if_neg (by rw [hplaces]; exact List.cons_ne_nil _ _)] at hentry
      obtain rfl := List.mem_singleton.1 hentry
      cases hvalues with
      | cons hsuits _ => exact ⟨Attributes.legibleName_class, hsuits⟩

theorem good_fillOthers {attributes : Attributes}
    (h : ∀ entry ∈ attributes, Attributes.LegibleName entry.1 ∧ entry.2.Good Text.IsRead)
    (hvalues : List.Forall₂ (Place.SuitsAs good) values (tag.attributePlaces options attributes)) :
    ∀ entry ∈ fillOthers options attributes values,
      Attributes.LegibleName entry.1 ∧ entry.2.Good good := by
  induction attributes generalizing values with
  | nil => exact fun _ hentry => absurd hentry List.not_mem_nil
  | cons head rest ih =>
    obtain ⟨name, value⟩ := head
    obtain ⟨hname, hgood⟩ := h _ List.mem_cons_self
    have hrest := fun entry hentry => h entry (List.mem_cons_of_mem _ hentry)
    rw [attributePlaces_cons] at hvalues
    rw [fillOthers]
    by_cases hclass : name = "class"
    · rw [if_pos hclass] at hvalues ⊢
      exact ih hrest hvalues
    rw [if_neg hclass] at hvalues ⊢
    by_cases heditable : options.editable.contains name = true
    · rw [if_pos heditable] at hvalues ⊢
      cases hvalues with
      | cons hsuits hlater =>
        intro entry hentry
        rcases List.mem_cons.1 hentry with rfl | hentry
        · exact ⟨hname, hsuits⟩
        · exact ih hrest hlater entry hentry
    · rw [if_neg heditable] at hvalues ⊢
      intro entry hentry
      rcases List.mem_cons.1 hentry with rfl | hentry
      · exact ⟨hname, hliteral _ hgood⟩
      · exact ih hrest hvalues entry hentry

end Values

theorem map_fst_fillOthers (options : Options) (attributes : Attributes) (values : List Text) :
    (fillOthers options attributes values).map Prod.fst =
      (attributes.filter (·.1 ≠ ("class" : Text))).map Prod.fst := by
  induction attributes generalizing values with
  | nil => rfl
  | cons head rest ih =>
    obtain ⟨name, value⟩ := head
    rw [fillOthers]
    by_cases hclass : name = "class"
    · rw [if_pos hclass, List.filter_cons_of_neg (by simpa using hclass)]
      exact ih values
    rw [if_neg hclass, List.filter_cons_of_pos (by simpa using hclass), List.map_cons]
    split
    · rw [List.map_cons, ih]
    · rw [List.map_cons, ih]

/-- A filled tag has the names of the tag, the class in front. -/
theorem attributeNames_fill (options : Options) {tag : Tag} (values : List Text)
    (hnodup : tag.attributeNames.Nodup) :
    (tag.fill options values).attributeNames = tag.namesClassFirst := by
  rw [attributeNames, namesClassFirst, Attributes.classFirst, fill, List.map_append,
    List.map_append, map_fst_fillOthers, Attributes.filter_eq_value? hnodup, fillClass]
  split
  · next hnone =>
    rw [hnone]
    rfl
  · next value hvalue =>
    rw [hvalue]
    split
    · rfl
    · rfl

theorem nodup_namesClassFirst {tag : Tag} (hnodup : tag.attributeNames.Nodup) :
    tag.namesClassFirst.Nodup := by
  have hperm := List.filter_append_perm (fun entry => entry.1 = ("class" : Text)) tag.attributes
  have hnames := (hperm.map Prod.fst).nodup_iff.2 hnodup
  simpa [namesClassFirst, Attributes.classFirst] using hnames

/-- A filled tag keeps its name, and every value in it is good. -/
theorem legible_fill {good : Text → Prop} {options : Options} {tag : Tag} {values : List Text}
    (hliteral : ∀ value : AttributeValue, value.Good Text.IsRead → value.literal.Good good)
    (h : tag.IsRead) (hvalues : List.Forall₂ (Place.SuitsAs good) values (tag.places options)) :
    (tag.fill options values).Legible good where
  no_blank := h.no_blank
  no_bracket := h.no_bracket
  not_slash := h.not_slash
  not_mark := h.not_mark
  lower_name := h.lower_name
  nameless := by
    intro hnil
    -- Without a name there are no attributes that could be filled.
    have hnone := h.nameless hnil
    rw [fill, fillClass, hnone]
    rfl
  attributes := by
    constructor
    · intro entry hentry
      rcases List.mem_append.1 hentry with hclass | hother
      · exact good_fillClass hliteral h (List.forall₂_take_append _ _ _ hvalues) entry hclass
      · exact good_fillOthers hliteral h.attributes.1 (List.forall₂_drop_append _ _ _ hvalues)
          entry hother
    · have hnames := attributeNames_fill options values h.attributes.2
      rw [attributeNames] at hnames
      rw [hnames]
      exact nodup_namesClassFirst h.attributes.2

/-- A filled tag is printable if every value in it suits. -/
theorem isPrintable_fill {options : Options} {tag : Tag} {values : List Text} (h : tag.IsRead)
    (hname : ¬ ("/" : Text) <:+ tag.name)
    (hvalues : List.Forall₂ Place.Suits values (tag.places options)) :
    (tag.fill options values).IsPrintable :=
  ⟨legible_fill (fun _ => AttributeValue.good_literal) h
    (hvalues.imp fun _ _ => Place.suitsAs_isQuotable), hname⟩

end Tag

/-! ## Filled trees -/

/-- A name that can be written between angle brackets: without double quotes, and without a slash at
its end. -/
def Tag.PlainName (tag : Tag) : Prop :=
  .scalar '"' ∉ tag.name ∧ ¬ ("/" : Text) <:+ tag.name

instance (tag : Tag) : Decidable tag.PlainName :=
  inferInstanceAs (Decidable (.scalar '"' ∉ tag.name ∧ ¬ ("/" : Text) <:+ tag.name))

namespace Node

/-- What a way to suit places must give: a tag in `fine` whose places are suited is in `filled` once
it is filled, and a text that suits its place may stand between tags. -/
structure Fillable (options : Options) (suits : Text → Place → Prop) (fine filled : Tag → Prop) :
    Prop where
  tag : ∀ (tag : Tag) (values : List Text), fine tag →
    List.Forall₂ suits values (tag.places options) → filled (tag.fill options values)
  text : ∀ (tag : Tag) (content value : Text), suits value (.ofText tag content) →
    value ≠ [] ∧ .scalar '<' ∉ value

section Fill

variable {fine filled : Tag → Prop} {options : Options} {suits : Text → Place → Prop}

theorem legible_fillText (hfillable : Fillable options suits fine filled) {parent : Option Tag}
    {content : Text} {values : List Text} (hne : content ≠ []) (hbracket : .scalar '<' ∉ content)
    (hvalues : List.Forall₂ suits values (textPlaces options parent content)) :
    fillText options parent content values ≠ [] ∧
      .scalar '<' ∉ fillText options parent content values := by
  rw [fillText]
  rcases textPlaces_eq options parent content with hnone | ⟨tag, -, hplaces⟩
  · rw [if_pos hnone]
    exact ⟨Text.collapse_ne_nil hne, Text.not_mem_collapse (by decide) hbracket⟩
  · rw [hplaces] at hvalues
    rw [if_neg (by rw [hplaces]; exact List.cons_ne_nil _ _)]
    cases hvalues with
    | cons hsuits _ => exact hfillable.text tag content _ hsuits

mutual

theorem legible_fill (hfillable : Fillable options suits fine filled) {parent : Option Tag} :
    ∀ (node : Node) (values : List Text), node.Legible fine →
      List.Forall₂ suits values (node.places options parent) →
      (node.fill options parent values).Legible filled
  | .text content, values, h, hvalues => by
    rw [fill]
    exact legible_fillText hfillable h.1 h.2 hvalues
  | .element tag children, values, h, hvalues => by
    rw [places] at hvalues
    have hchildren := List.forall₂_drop_append _ _ _ hvalues
    rw [fill]
    refine ⟨hfillable.tag tag _ h.1 (List.forall₂_take_append _ _ _ hvalues), ?_, ?_⟩
    · intro hvoid
      rw [Tag.fill_isVoid] at hvoid
      rw [if_pos hvoid]
    · split
      · trivial
      · next hvoid =>
        rw [if_neg hvoid] at hchildren
        exact legible_fillAll hfillable children _ h.2.2 hchildren

/-- What holds of every tag once it is filled holds of every tag of a filled tree. -/
theorem legible_fillAll (hfillable : Fillable options suits fine filled) {parent : Option Tag} :
    ∀ (nodes : List Node) (values : List Text), LegibleAll fine nodes →
      List.Forall₂ suits values (placesOf options parent nodes) →
      LegibleAll filled (fillAll options parent nodes values)
  | [], _, _, _ => trivial
  | node :: rest, values, h, hvalues => by
    rw [placesOf] at hvalues
    rw [fillAll]
    exact ⟨legible_fill hfillable node _ h.1 (List.forall₂_take_append _ _ _ hvalues),
      legible_fillAll hfillable rest _ h.2 (List.forall₂_drop_append _ _ _ hvalues)⟩

end

end Fill

/-- A legible tree is printable once its places are filled with values that suit them. -/
theorem legibleAll_fillAll {options : Options} {parent : Option Tag} (nodes : List Node)
    (values : List Text) (h : LegibleAll (fun tag => tag.IsRead ∧ tag.PlainName) nodes)
    (hvalues : List.Forall₂ Place.Suits values (placesOf options parent nodes)) :
    LegibleAll Tag.IsPrintable (fillAll options parent nodes values) := by
  have hfillable : Fillable options Place.Suits (fun tag => tag.IsRead ∧ tag.PlainName)
      Tag.IsPrintable :=
    { tag := fun _ _ htag hvalues => Tag.isPrintable_fill htag.1 htag.2.2 hvalues
      text := fun _ _ _ hsuits => hsuits }
  exact legible_fillAll hfillable nodes values h hvalues

end Node

/-! ## Outlines -/

/-- An element with its name and the names of its attributes, and the elements right inside it. -/
inductive Outline where
  | element (name : Text) (attributeNames : List Text) (children : List Outline)
  deriving Repr

namespace Node

mutual

/-- The elements of a node without their texts, given the names of the attributes of each. -/
def outline (names : Tag → List Text) : Node → List Outline
  | .text _ => []
  | .element tag children => [.element tag.name (names tag) (outlineOf names children)]

/-- The elements of neighbouring nodes. -/
def outlineOf (names : Tag → List Text) : List Node → List Outline
  | [] => []
  | node :: rest => node.outline names ++ outlineOf names rest

end

theorem outlineOf_meet (names : Tag → List Text) (node : Node) (rest : List Node) :
    outlineOf names (meet node rest) = node.outline names ++ outlineOf names rest := by
  unfold meet
  split
  · rfl
  · rfl

mutual

theorem outline_merge (names : Tag → List Text) :
    ∀ node : Node, node.merge.outline names = node.outline names
  | .text _ => rfl
  | .element tag children => by
    rw [merge, outline, outline, outlineOf_mergeAll names children]

/-- Merging moves no element. -/
theorem outlineOf_mergeAll (names : Tag → List Text) :
    ∀ nodes : List Node, outlineOf names (mergeAll nodes) = outlineOf names nodes
  | [] => rfl
  | node :: rest => by
    rw [mergeAll, outlineOf_meet, outline_merge names node, outlineOf_mergeAll names rest,
      outlineOf]

end

mutual

theorem outline_fill {options : Options} {parent : Option Tag} :
    ∀ (node : Node) (values : List Text), node.Legible Tag.IsRead →
      (node.fill options parent values).outline Tag.attributeNames =
        node.outline Tag.namesClassFirst
  | .text _, _, _ => rfl
  | .element tag children, values, h => by
    have hnames := Tag.attributeNames_fill options (values.take (tag.places options).length)
      h.1.attributes.2
    rw [fill, outline, outline, hnames, Tag.fill_name]
    by_cases hvoid : tag.isVoid = true
    · rw [if_pos hvoid, h.2.1 hvoid]
      rfl
    · rw [if_neg hvoid, outlineOf_fillAll children _ h.2.2]

/-- Filling moves no element, and moves only the class of its attributes. -/
theorem outlineOf_fillAll {options : Options} {parent : Option Tag} :
    ∀ (nodes : List Node) (values : List Text), LegibleAll Tag.IsRead nodes →
      outlineOf Tag.attributeNames (fillAll options parent nodes values) =
        outlineOf Tag.namesClassFirst nodes
  | [], _, _ => rfl
  | node :: rest, values, h => by
    rw [fillAll, outlineOf, outline_fill node _ h.1, outlineOf_fillAll rest _ h.2, outlineOf]

end

end Node

end Stencil
