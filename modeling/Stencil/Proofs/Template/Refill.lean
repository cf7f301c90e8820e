import Stencil.Proofs.Template.ReadBack
import Stencil.Proofs.Template.TwoPhases
import Stencil.Proofs.Text.Find

/-!
# Refilled templates

A template is refilled with the defaults of its fields (`Template.refill`). Its text is read from
left to right: what stands between double braces is replaced by what the key stands for, escaped
inside the value of an attribute.

* `Spot`, where in a template a code point stands;
* `Refills`, which texts are refilled to which, from one spot to another; it composes
  (`Refills.append`), so that the pieces of a printed tree are looked at one by one;
* `Node.refills_printAll`: a printed tree is refilled as the values at its places are.
-/

set_option autoImplicit false

namespace Stencil

/-! ## Reading placeholders -/

/-- The key between double braces that the text starts with, and what stands behind it. -/
def readPlaceholder? (text : Text) : Option (Text × Text) :=
  if text.startsWith "\x7b\x7b" then Text.find? "\x7d\x7d" (text.drop 2) else none

theorem length_of_readPlaceholder? {text key after : Text}
    (h : readPlaceholder? text = some (key, after)) : after.length < text.length := by
  unfold readPlaceholder? at h
  split at h
  · next hstart =>
    obtain ⟨behind, rfl⟩ := Text.startsWith_iff.1 hstart
    have hle := Span.length_of_find? h
    simp only [List.length_drop, List.length_append] at hle ⊢
    have htwo : (Text.ofString "\x7b\x7b").length = 2 := rfl
    omega
  · cases h

theorem readPlaceholder?_of_ne {c : CodePoint} (hc : c ≠ '\x7b') (rest : Text) :
    readPlaceholder? (c :: rest) = none := by
  rw [readPlaceholder?, if_neg]
  rw [Text.startsWith_iff]
  rintro ⟨behind, hbehind⟩
  cases hbehind
  exact hc rfl

/-- A key without closing braces is read to its end. -/
theorem readPlaceholder?_placeholder {key : Text} (hkey : .scalar '\x7d' ∉ key) (rest : Text) :
    readPlaceholder? (placeholder key ++ rest) = some (key, rest) := by
  have hstart : Text.startsWith (placeholder key ++ rest) "\x7b\x7b" = true := by
    rw [Text.startsWith_iff, placeholder, List.append_assoc, List.append_assoc]
    exact List.prefix_append _ _
  have hdrop : (placeholder key ++ rest).drop 2 = key ++ ("\x7d\x7d" : Text) ++ rest := rfl
  rw [readPlaceholder?, if_pos hstart, hdrop, Text.find?_eq_some_iff]
  refine ⟨rfl, ?_⟩
  intro earlier later hsplit
  by_contra hshort
  -- A closing brace that far left would stand in the key.
  have hlt : earlier.length < key.length := Nat.lt_of_not_le hshort
  have hbrace : (key ++ ("\x7d\x7d" : Text) ++ rest)[earlier.length]? = some (.scalar '\x7d') := by
    rw [hsplit, List.append_assoc, List.getElem?_append_right (Nat.le_refl _), Nat.sub_self]
    rfl
  rw [List.append_assoc, List.getElem?_append_left hlt] at hbrace
  exact hkey (List.mem_of_getElem? hbrace)

/-! ## Refilling -/

/-- Where a code point of a template stands: outside of tags, in a tag, or in a value between double
quotes in a tag. -/
inductive Spot where
  | outside
  | tag
  | value
  deriving DecidableEq, Repr

namespace Spot

/-- Where the code point behind `c` stands. -/
def next : Spot → CodePoint → Spot
  | outside, c => if c = '<' then tag else outside
  | tag, c => if c = '>' then outside else if c = '"' then value else tag
  | value, c => if c = '"' then tag else value

theorem foldl_next_of_stays {spot : Spot} {text : Text} (h : ∀ c ∈ text, spot.next c = spot) :
    text.foldl next spot = spot := by
  induction text with
  | nil => rfl
  | cons c rest ih =>
    rw [List.foldl_cons, h c List.mem_cons_self]
    exact ih fun d hd => h d (List.mem_cons_of_mem c hd)

/-- A content as it is written at a spot. -/
def written : Spot → Text → Text
  | outside, content => content
  | tag, content => content
  | value, content => escapeAttribute content

end Spot

/-- The text with the content of each key in place of the key between double braces, from a spot on.
A key that stands for nothing is left as it is. -/
def refillFrom (defaults : List (Text × Text)) (spot : Spot) : Text → Text
  | [] => []
  | c :: rest =>
    match _found : readPlaceholder? (c :: rest) with
    | some (key, after) =>
      (match defaults.lookup key with
        | some content => spot.written content
        | none => placeholder key) ++ refillFrom defaults spot after
    | none => c :: refillFrom defaults (spot.next c) rest
termination_by text => text.length
decreasing_by
  · exact length_of_readPlaceholder? _found
  · exact Nat.lt_succ_self _

/-- The text of a template with the default of its field in place of each placeholder. -/
def Template.refill (template : Template) : Text :=
  refillFrom template.fields.defaults .outside template.text

/-- From `start`, the text `before` is refilled to `after`, and `stop` is where it leads. -/
def Refills (defaults : List (Text × Text)) (start stop : Spot) (before after : Text) : Prop :=
  ∀ rest : Text, refillFrom defaults start (before ++ rest) = after ++ refillFrom defaults stop rest

namespace Refills

variable {defaults : List (Text × Text)}

theorem nil (spot : Spot) : Refills defaults spot spot [] [] :=
  fun _ => rfl

theorem append {start middle stop : Spot} {before after before' after' : Text}
    (hfirst : Refills defaults start middle before after)
    (hsecond : Refills defaults middle stop before' after') :
    Refills defaults start stop (before ++ before') (after ++ after') := by
  intro rest
  rw [List.append_assoc, hfirst, hsecond, List.append_assoc]

/-- Text without opening braces stays as it is. -/
theorem literal (start : Spot) {text : Text} (hbrace : .scalar '\x7b' ∉ text) :
    Refills defaults start (text.foldl Spot.next start) text text := by
  induction text generalizing start with
  | nil => exact nil start
  | cons c text ih =>
    intro rest
    rw [List.mem_cons, not_or] at hbrace
    -- Only an opening brace starts a placeholder, so `c` is passed over.
    have hread := readPlaceholder?_of_ne (Ne.symm hbrace.1) (text ++ rest)
    rw [List.cons_append, refillFrom]
    split
    · next hfound =>
      rw [hread] at hfound
      cases hfound
    · rw [ih (start.next c) hbrace.2 rest]
      rfl

/-- A placeholder becomes the content of its key. -/
theorem key (spot : Spot) {key content : Text} (hkey : .scalar '\x7d' ∉ key)
    (hcontent : defaults.lookup key = some content) :
    Refills defaults spot spot (placeholder key) (spot.written content) := by
  intro rest
  have hread := readPlaceholder?_placeholder hkey rest
  -- The first brace is split off, for a step of refilling looks at the first code point.
  have hcons : placeholder key ++ rest =
      .scalar '\x7b' :: (.scalar '\x7b' :: key ++ ("\x7d\x7d" : Text) ++ rest) := rfl
  rw [hcons] at hread ⊢
  rw [refillFrom]
  split
  · next found after hfound =>
    rw [hread] at hfound
    cases hfound
    rw [hcontent]
  · next hfound =>
    rw [hread] at hfound
    cases hfound

-- The same key in a value and outside of one.
example : refillFrom [("k", "\"&\"")] .outside "<p b=\"\x7b\x7bk\x7d\x7d\">\x7b\x7bk\x7d\x7d" =
    "<p b=\"&quot;&amp;&quot;\">\"&\"" := by
  decide +kernel

theorem of_stays {spot : Spot} {text : Text} (hbrace : .scalar '\x7b' ∉ text)
    (hstays : ∀ c ∈ text, spot.next c = spot) : Refills defaults spot spot text text := by
  have hliteral : Refills defaults spot (text.foldl Spot.next spot) text text :=
    literal spot hbrace
  rw [Spot.foldl_next_of_stays hstays] at hliteral
  exact hliteral

theorem outside {text : Text} (hbrace : .scalar '\x7b' ∉ text) (hopening : .scalar '<' ∉ text) :
    Refills defaults .outside .outside text text := by
  apply of_stays hbrace
  intro c hc
  have hne : c ≠ '<' := fun hsame => hopening (hsame ▸ hc)
  rw [Spot.next, if_neg hne]

theorem inTag {text : Text} (hbrace : .scalar '\x7b' ∉ text) (hquotable : text.IsQuotable) :
    Refills defaults .tag .tag text text := by
  apply of_stays hbrace
  intro c hc
  have hclosing : c ≠ '>' := fun hsame => hquotable.2 (hsame ▸ hc)
  have hquote : c ≠ '"' := fun hsame => hquotable.1 (hsame ▸ hc)
  rw [Spot.next, if_neg hclosing, if_neg hquote]

theorem inValue {text : Text} (hbrace : .scalar '\x7b' ∉ text) (hquote : .scalar '"' ∉ text) :
    Refills defaults .value .value text text := by
  apply of_stays hbrace
  intro c hc
  have hne : c ≠ '"' := fun hsame => hquote (hsame ▸ hc)
  rw [Spot.next, if_neg hne]

/-! ### Attributes -/

theorem space_name {name : Text} (hname : Attributes.LegibleName name) :
    Refills defaults .tag .tag (.scalar ' ' :: name) (.scalar ' ' :: name) := by
  have hnot : ∀ c : CodePoint, c.isAttributeName = false → c ≠ ' ' → c ∉ .scalar ' ' :: name := by
    intro c hc hspace
    rw [List.mem_cons, not_or]
    exact ⟨hspace, hname.not_mem hc⟩
  exact inTag (hnot _ (by decide) (by decide))
    ⟨hnot _ (by decide) (by decide), hnot _ (by decide) (by decide)⟩

/-- A text attribute is refilled as its value is. -/
theorem printOne_text {name before after : Text} (hname : Attributes.LegibleName name)
    (hvalue : Refills defaults .value .value before after) :
    Refills defaults .tag .tag (Attributes.printOne name (.text before))
      (Attributes.printOne name (.text after)) := by
  have hopens : Refills defaults .tag .value ("=\"" : Text) ("=\"" : Text) :=
    literal .tag (by decide)
  have hcloses : Refills defaults .value .tag ("\"" : Text) ("\"" : Text) :=
    literal .value (by decide)
  exact (((space_name hname).append hopens).append hvalue).append hcloses

/-- An attribute that is no place stays as it is. -/
theorem printOne_literal {name : Text} {value : AttributeValue}
    (hname : Attributes.LegibleName name) (hread : value.Good Text.IsRead)
    (hbrace : value.Good fun content => .scalar '\x7b' ∉ content) :
    Refills defaults .tag .tag (Attributes.printOne name value.literal)
      (Attributes.printOne name value.literal) := by
  cases value with
  | flag on =>
    have hon : on = true := hread
    subst hon
    exact space_name hname
  | text content =>
    apply printOne_text hname
    exact inValue (not_mem_escapeAttribute (by decide) hbrace)
      (isQuotable_escapeAttribute hread.1).1

end Refills

/-! ## Refilled places -/

namespace Place

/-- Where the placeholder of a place stands. -/
def spot : Place → Spot
  | .ofClass _ _ => .value
  | .ofAttribute _ _ _ => .value
  | .ofText _ _ => .outside

/-- The content of a place as it is written there. -/
def written (place : Place) : Text :=
  place.spot.written place.content

/-- Whether a value is refilled to the content of the place. -/
def RefilledFrom (defaults : List (Text × Text)) (value : Text) (place : Place) : Prop :=
  Refills defaults place.spot place.spot value place.written

end Place

namespace Tag

variable {defaults : List (Text × Text)} {options : Options}

theorem refills_fillClass {tag : Tag} {values : List Text} (h : tag.IsRead)
    (hbrace : ∀ entry ∈ tag.attributes, entry.2.Good fun content => .scalar '\x7b' ∉ content)
    (hvalues : List.Forall₂ (Place.RefilledFrom defaults) values (tag.classPlaces options)) :
    Refills defaults .tag .tag (Attributes.print (tag.fillClass options values))
      (Attributes.print
        (tag.fillClass options ((tag.classPlaces options).map Place.written))) := by
  have hname := Attributes.legibleName_class
  rw [fillClass, fillClass]
  cases hvalue : Attributes.value? "class" tag.attributes with
  | none => exact Refills.nil .tag
  | some value =>
    have hmem := Attributes.mem_of_value? hvalue
    dsimp only
    rcases tag.classPlaces_eq options with hnone | ⟨content, -, -, hplaces⟩
    · rw [if_pos hnone, if_pos hnone, Attributes.print_cons, Attributes.print_nil, List.append_nil]
      exact Refills.printOne_literal hname (h.attributes.1 _ hmem).2 (hbrace _ hmem)
    · have hsome : tag.classPlaces options ≠ [] := by
        rw [hplaces]
        exact List.cons_ne_nil _ _
      rw [hplaces] at hvalues
      rw [if_neg hsome, if_neg hsome, hplaces, Attributes.print_cons, Attributes.print_cons,
        Attributes.print_nil, List.append_nil, List.append_nil]
      cases hvalues with
      | cons hfirst _ => exact Refills.printOne_text hname hfirst

theorem refills_fillOthers {tag : Tag} {attributes : Attributes} {values : List Text}
    (h : ∀ entry ∈ attributes, Attributes.LegibleName entry.1 ∧ entry.2.Good Text.IsRead)
    (hbrace : ∀ entry ∈ attributes, entry.2.Good fun content => .scalar '\x7b' ∉ content)
    (hvalues : List.Forall₂ (Place.RefilledFrom defaults) values
      (tag.attributePlaces options attributes)) :
    Refills defaults .tag .tag (Attributes.print (fillOthers options attributes values))
      (Attributes.print (fillOthers options attributes
        ((tag.attributePlaces options attributes).map Place.written))) := by
  induction attributes generalizing values with
  | nil => exact Refills.nil .tag
  | cons head rest ih =>
    obtain ⟨name, value⟩ := head
    obtain ⟨hname, hread⟩ := h _ List.mem_cons_self
    have hvalue := hbrace _ List.mem_cons_self
    have hrest := fun entry hentry => h entry (List.mem_cons_of_mem _ hentry)
    have hlater := fun entry hentry => hbrace entry (List.mem_cons_of_mem _ hentry)
    rw [attributePlaces_cons] at hvalues ⊢
    rw [fillOthers, fillOthers]
    by_cases hclass : name = "class"
    · rw [if_pos hclass] at hvalues
      rw [if_pos hclass, if_pos hclass, if_pos hclass]
      exact ih hrest hlater hvalues
    rw [if_neg hclass] at hvalues
    rw [if_neg hclass, if_neg hclass, if_neg hclass]
    by_cases heditable : options.editable.contains name = true
    · rw [if_pos heditable] at hvalues
      rw [if_pos heditable, if_pos heditable, if_pos heditable]
      cases hvalues with
      | cons hfirst hothers =>
        exact (Refills.printOne_text hname hfirst).append (ih hrest hlater hothers)
    · rw [if_neg heditable] at hvalues
      rw [if_neg heditable, if_neg heditable, if_neg heditable]
      exact (Refills.printOne_literal hname hread hvalue).append (ih hrest hlater hvalues)

/-- A start tag is refilled as its places are. -/
theorem refills_inside {tag : Tag} {values : List Text} (h : tag.IsRead) (hname : tag.PlainName)
    (havoids : (Visit.element tag).Avoids (.scalar '\x7b'))
    (hvalues : List.Forall₂ (Place.RefilledFrom defaults) values (tag.places options)) :
    Refills defaults .outside .outside
      (.scalar '<' :: ((tag.fill options values).inside ++ (">" : Text)))
      (.scalar '<' ::
        ((tag.fill options ((tag.places options).map Place.written)).inside ++ (">" : Text))) := by
  have hopens : Refills defaults .outside .tag ("<" : Text) ("<" : Text) :=
    Refills.literal .outside (by decide)
  have hcloses : Refills defaults .tag .outside (">" : Text) (">" : Text) :=
    Refills.literal .tag (by decide)
  have hslash : Refills defaults .tag .tag (if tag.isVoid then (" /" : Text) else [])
      (if tag.isVoid then (" /" : Text) else []) := by
    split
    · exact Refills.literal .tag (by decide)
    · exact Refills.nil .tag
  have hspelled : Refills defaults .tag .tag tag.name tag.name :=
    Refills.inTag havoids.1 ⟨hname.1, h.no_bracket⟩
  have hclass := refills_fillClass h havoids.2 (List.forall₂_take_append _ _ _ hvalues)
  have hothers :=
    refills_fillOthers h.attributes.1 havoids.2 (List.forall₂_drop_append _ _ _ hvalues)
  have hprint : Refills defaults .tag .tag
      (Attributes.print (tag.fill options values).attributes)
      (Attributes.print
        (tag.fill options ((tag.places options).map Place.written)).attributes) := by
    rw [fill_map, fill, Attributes.print_append, Attributes.print_append]
    exact hclass.append hothers
  exact hopens.append (((hspelled.append hprint).append hslash).append hcloses)

/-- An end tag leads into the tag and out of it again. -/
theorem refills_endTag {tag : Tag} (h : tag.IsRead) (hname : tag.PlainName)
    (havoids : (Visit.element tag).Avoids (.scalar '\x7b')) :
    Refills defaults .outside .outside (("</" : Text) ++ tag.name ++ (">" : Text))
      (("</" : Text) ++ tag.name ++ (">" : Text)) := by
  have hopens : Refills defaults .outside .tag ("</" : Text) ("</" : Text) :=
    Refills.literal .outside (by decide)
  have hcloses : Refills defaults .tag .outside (">" : Text) (">" : Text) :=
    Refills.literal .tag (by decide)
  have hspelled : Refills defaults .tag .tag tag.name tag.name :=
    Refills.inTag havoids.1 ⟨hname.1, h.no_bracket⟩
  exact (hopens.append hspelled).append hcloses

end Tag

namespace Node

variable {defaults : List (Text × Text)} {options : Options}

theorem refills_fillText {parent : Option Tag} {content : Text} {values : List Text}
    (hopening : .scalar '<' ∉ content) (hbrace : .scalar '\x7b' ∉ content)
    (hvalues : List.Forall₂ (Place.RefilledFrom defaults) values
      (textPlaces options parent content)) :
    Refills defaults .outside .outside (fillText options parent content values)
      (fillText options parent content
        ((textPlaces options parent content).map Place.written)) := by
  rw [fillText, fillText]
  rcases textPlaces_eq options parent content with hnone | ⟨tag, -, hplaces⟩
  · rw [if_pos hnone, if_pos hnone]
    exact Refills.outside (Text.not_mem_collapse (by decide) hbrace)
      (Text.not_mem_collapse (by decide) hopening)
  · have hsome : textPlaces options parent content ≠ [] := by
      rw [hplaces]
      exact List.cons_ne_nil _ _
    rw [hplaces] at hvalues
    rw [if_neg hsome, if_neg hsome, hplaces]
    cases hvalues with
    | cons hfirst _ => exact hfirst

mutual

theorem refills_print {parent : Option Tag} : ∀ (node : Node) (values : List Text),
    node.Legible (fun tag => tag.IsRead ∧ tag.PlainName) →
    (∀ visit ∈ node.visits, visit.Avoids (.scalar '\x7b')) →
    List.Forall₂ (Place.RefilledFrom defaults) values (node.places options parent) →
    Refills defaults .outside .outside (node.fill options parent values).print
      (node.fill options parent ((node.places options parent).map Place.written)).print
  | .text content, values, h, havoids, hvalues => by
    rw [fill, fill, print, print]
    exact refills_fillText h.2 (havoids _ List.mem_cons_self) hvalues
  | .element tag children, values, h, havoids, hvalues => by
    have htag := havoids _ List.mem_cons_self
    rw [places] at hvalues
    have hinside := Tag.refills_inside h.1.1 h.1.2 htag (List.forall₂_take_append _ _ _ hvalues)
    have hchildren := List.forall₂_drop_append _ _ _ hvalues
    rw [fill_element_map, fill, print, print, Tag.fill_isVoid, Tag.fill_isVoid, Tag.fill_name,
      Tag.fill_name]
    by_cases hvoid : tag.isVoid = true
    · rw [if_pos hvoid, if_pos hvoid]
      exact hinside
    · rw [if_neg hvoid] at hchildren
      rw [if_neg hvoid, if_neg hvoid, if_neg hvoid, if_neg hvoid]
      have hbelow := refills_printAll children _ h.2.2
        (fun visit hvisit => havoids visit (List.mem_cons_of_mem _ hvisit)) hchildren
      exact (hinside.append hbelow).append (Tag.refills_endTag h.1.1 h.1.2 htag)

/-- A written tree is refilled as its places are. -/
theorem refills_printAll {parent : Option Tag} : ∀ (nodes : List Node) (values : List Text),
    LegibleAll (fun tag => tag.IsRead ∧ tag.PlainName) nodes →
    (∀ visit ∈ visitsOf nodes, visit.Avoids (.scalar '\x7b')) →
    List.Forall₂ (Place.RefilledFrom defaults) values (placesOf options parent nodes) →
    Refills defaults .outside .outside (printAll (fillAll options parent nodes values))
      (printAll (fillAll options parent nodes
        ((placesOf options parent nodes).map Place.written)))
  | [], _, _, _, _ => Refills.nil .outside
  | node :: rest, values, h, havoids, hvalues => by
    rw [placesOf] at hvalues
    have hnode := refills_print node _ h.1
      (fun visit hvisit => havoids visit (List.mem_append_left _ hvisit))
      (List.forall₂_take_append _ _ _ hvalues)
    have hrest := refills_printAll rest _ h.2
      (fun visit hvisit => havoids visit (List.mem_append_right _ hvisit))
      (List.forall₂_drop_append _ _ _ hvalues)
    rw [fillAll_cons_map, fillAll, printAll, printAll]
    exact hnode.append hrest

end

end Node

end Stencil
