import Stencil.Proofs.Template.RoundTrip
import Stencil.Proofs.Template.Written

/-!
# The placeholders of a template

A text can be searched for placeholders, from left to right (`placeholdersIn`). In the template of
markup without braces this finds the keys of its places, each as often as it was given and in the
same order (`Template.placeholdersIn_text`), and the distinct ones among them are the keys of the
fields (`Template.map_key_fields`).

* `Shows`, which keys a text shows whatever stands behind it; it composes (`Shows.append`);
* `Node.shows_printAll`: a written tree shows the keys of its places.
-/

set_option autoImplicit false

namespace Stencil

/-- The keys between double braces in a text, from left to right. -/
def placeholdersIn : Text → List Text
  | [] => []
  | c :: rest =>
    match _found : readPlaceholder? (c :: rest) with
    | some (key, after) => key :: placeholdersIn after
    | none => placeholdersIn rest
termination_by text => text.length
decreasing_by
  · exact length_of_readPlaceholder? _found
  · exact Nat.lt_succ_self _

/-- Whether a text shows just the given keys, whatever stands behind it. -/
def Shows (text : Text) (keys : List Text) : Prop :=
  ∀ rest : Text, placeholdersIn (text ++ rest) = keys ++ placeholdersIn rest

namespace Shows

theorem nil : Shows [] [] :=
  fun _ => rfl

theorem append {first second : Text} {keys later : List Text} (hfirst : Shows first keys)
    (hsecond : Shows second later) : Shows (first ++ second) (keys ++ later) := by
  intro rest
  rw [List.append_assoc, hfirst, hsecond, List.append_assoc]

/-- Text without opening braces shows no keys. -/
theorem literal {text : Text} (hbrace : .scalar '\x7b' ∉ text) : Shows text [] := by
  induction text with
  | nil => exact nil
  | cons c text ih =>
    intro rest
    rw [List.mem_cons, not_or] at hbrace
    -- Only an opening brace starts a placeholder, so `c` is passed over.
    have hread := readPlaceholder?_of_ne (Ne.symm hbrace.1) (text ++ rest)
    rw [List.cons_append, placeholdersIn]
    split
    · next hfound =>
      rw [hread] at hfound
      cases hfound
    · exact ih hbrace.2 rest

/-- A placeholder shows its key. -/
theorem key {key : Text} (hkey : .scalar '\x7d' ∉ key) : Shows (placeholder key) [key] := by
  intro rest
  have hread := readPlaceholder?_placeholder hkey rest
  have hcons : placeholder key ++ rest =
      .scalar '\x7b' :: (.scalar '\x7b' :: key ++ ("\x7d\x7d" : Text) ++ rest) := rfl
  rw [hcons] at hread ⊢
  rw [placeholdersIn]
  split
  · next found after hfound =>
    rw [hread] at hfound
    cases hfound
    rfl
  · next hfound =>
    rw [hread] at hfound
    cases hfound

theorem append_literal {text trail : Text} {keys : List Text} (h : Shows text keys)
    (hbrace : .scalar '\x7b' ∉ trail) : Shows (text ++ trail) keys := by
  have hboth := h.append (literal hbrace)
  rw [List.append_nil] at hboth
  exact hboth

theorem literal_append {lead text : Text} {keys : List Text} (hbrace : .scalar '\x7b' ∉ lead)
    (h : Shows text keys) : Shows (lead ++ text) keys :=
  (literal hbrace).append h

/-! ### Attributes -/

theorem not_mem_space_name {name : Text} (hname : Attributes.LegibleName name) :
    .scalar '\x7b' ∉ .scalar ' ' :: name := by
  rw [List.mem_cons, not_or]
  exact ⟨by decide, hname.not_mem (by decide)⟩

theorem printOne_placeholder {name key : Text} (hname : Attributes.LegibleName name)
    (hkey : .scalar '\x7d' ∉ key) :
    Shows (Attributes.printOne name (.text (placeholder key))) [key] :=
  ((literal_append (not_mem_space_name hname) (literal (by decide))).append
    (Shows.key hkey)).append_literal (by decide)

theorem printOne_literal {name : Text} {value : AttributeValue}
    (hname : Attributes.LegibleName name)
    (hbrace : value.Good fun content => .scalar '\x7b' ∉ content) :
    Shows (Attributes.printOne name value.literal) [] := by
  have hspace := literal (not_mem_space_name hname)
  cases value with
  | flag on =>
    have hon : on = true := hbrace
    subst hon
    exact hspace
  | text content =>
    have hvalue := literal (not_mem_escapeAttribute (by decide) hbrace)
    exact ((hspace.append_literal (by decide)).append hvalue).append_literal (by decide)

end Shows

namespace Tag

variable {options : Options} {naming : Naming} {tag : Tag}

theorem shows_writtenClass
    (hbrace : ∀ entry ∈ tag.attributes, entry.2.Good fun content => .scalar '\x7b' ∉ content)
    (hkeys : ∀ key ∈ Naming.keys options.classMode (tag.classPlaces options) naming,
      .scalar '\x7d' ∉ key) :
    Shows (Attributes.print (tag.writtenClass options naming))
      (Naming.keys options.classMode (tag.classPlaces options) naming) := by
  rw [writtenClass, fillClass]
  rcases tag.classPlaces_eq options with hnone | ⟨content, hvalue, hmode, hplaces⟩
  · rw [hnone, Naming.keys]
    cases hvalue : Attributes.value? "class" tag.attributes with
    | none => exact Shows.nil
    | some value =>
      dsimp only
      rw [if_pos rfl, Attributes.print_cons, Attributes.print_nil, List.append_nil]
      exact Shows.printOne_literal Attributes.legibleName_class
        (hbrace _ (Attributes.mem_of_value? hvalue))
  · obtain ⟨key, next, hask⟩ := @Naming.exists_ask _ (.ofClass tag content) hmode naming
    have hsingle : Naming.keys options.classMode (tag.classPlaces options) naming = [key] := by
      rw [hplaces, Naming.keys, hask]
      rfl
    rw [hsingle] at hkeys
    have hsome : tag.classPlaces options ≠ [] := by
      rw [hplaces]
      exact List.cons_ne_nil _ _
    rw [hsingle, hvalue]
    dsimp only
    rw [if_neg hsome, Attributes.print_cons, Attributes.print_nil, List.append_nil]
    exact Shows.printOne_placeholder Attributes.legibleName_class
      (hkeys key (List.mem_singleton_self key))

theorem shows_writtenOthers {attributes : Attributes}
    (hnames : ∀ entry ∈ attributes, Attributes.LegibleName entry.1)
    (hbrace : ∀ entry ∈ attributes, entry.2.Good fun content => .scalar '\x7b' ∉ content)
    (hkeys : ∀ key ∈ Naming.keys options.classMode (tag.attributePlaces options attributes) naming,
      .scalar '\x7d' ∉ key) :
    Shows (Attributes.print (tag.writtenOthers options naming attributes))
      (Naming.keys options.classMode (tag.attributePlaces options attributes) naming) := by
  induction attributes generalizing naming with
  | nil => exact Shows.nil
  | cons head rest ih =>
    obtain ⟨name, value⟩ := head
    have hname := hnames _ List.mem_cons_self
    have hvalue := hbrace _ List.mem_cons_self
    have hrest := fun entry hentry => hnames entry (List.mem_cons_of_mem _ hentry)
    have hlater := fun entry hentry => hbrace entry (List.mem_cons_of_mem _ hentry)
    rw [attributePlaces_cons] at hkeys ⊢
    rw [writtenOthers_cons]
    by_cases hclass : name = "class"
    · rw [if_pos hclass] at hkeys ⊢
      rw [if_pos hclass]
      exact ih hrest hlater hkeys
    rw [if_neg hclass] at hkeys ⊢
    rw [if_neg hclass]
    by_cases heditable : options.editable.contains name = true
    · rw [if_pos heditable] at hkeys ⊢
      rw [if_pos heditable]
      have hfirst := hkeys _ List.mem_cons_self
      have hothers := ih hrest hlater fun key hkey => hkeys key (List.mem_cons_of_mem _ hkey)
      exact (Shows.printOne_placeholder hname hfirst).append hothers
    · rw [if_neg heditable] at hkeys ⊢
      rw [if_neg heditable]
      exact (Shows.printOne_literal hname hvalue).append (ih hrest hlater hkeys)

/-- A start tag shows the keys of its places. -/
theorem shows_inside (h : tag.IsRead) (havoids : (Visit.element tag).Avoids (.scalar '\x7b'))
    (hkeys : ∀ key ∈ Naming.keys options.classMode (tag.places options) naming,
      .scalar '\x7d' ∉ key) :
    Shows (.scalar '<' :: ((tag.written options naming).inside ++ (">" : Text)))
      (Naming.keys options.classMode (tag.places options) naming) := by
  rw [places, Naming.keys_append] at hkeys ⊢
  have hclass := shows_writtenClass havoids.2
    fun key hkey => hkeys key (List.mem_append_left _ hkey)
  have hothers := shows_writtenOthers (fun entry hentry => (h.attributes.1 entry hentry).1)
    havoids.2 fun key hkey => hkeys key (List.mem_append_right _ hkey)
  have hname : .scalar '\x7b' ∉ .scalar '<' :: tag.name := by
    rw [List.mem_cons, not_or]
    exact ⟨by decide, havoids.1⟩
  have hslash : .scalar '\x7b' ∉ (if tag.isVoid then (" /" : Text) else []) ++ (">" : Text) := by
    split
    · decide
    · decide
  have hshape : .scalar '<' :: ((tag.written options naming).inside ++ (">" : Text)) =
      (.scalar '<' :: tag.name) ++
        (Attributes.print (tag.writtenClass options naming) ++
          Attributes.print (tag.writtenOthers options
            (Naming.after options.classMode (tag.classPlaces options) naming) tag.attributes)) ++
        ((if tag.isVoid then (" /" : Text) else []) ++ (">" : Text)) := by
    rw [inside, attributes_written, Attributes.print_append]
    simp only [List.append_assoc, List.cons_append]
    rfl
  rw [hshape]
  exact (Shows.literal_append hname (hclass.append hothers)).append_literal hslash

end Tag

namespace Node

variable {options : Options}

theorem shows_writtenText {parent : Option Tag} {naming : Naming} {content : Text}
    (hbrace : .scalar '\x7b' ∉ content)
    (hkeys : ∀ key ∈ Naming.keys options.classMode (textPlaces options parent content) naming,
      .scalar '\x7d' ∉ key) :
    Shows (writtenText options parent naming content)
      (Naming.keys options.classMode (textPlaces options parent content) naming) := by
  rw [writtenText, fillText]
  rcases textPlaces_eq options parent content with hnone | ⟨tag, -, hplaces⟩
  · rw [hnone, if_pos rfl, Naming.keys]
    exact Shows.literal (Text.not_mem_collapse (by decide) hbrace)
  · rw [hplaces] at hkeys ⊢
    rw [if_neg (List.cons_ne_nil _ _)]
    exact Shows.key (hkeys _ List.mem_cons_self)

mutual

theorem shows_print {parent : Option Tag} : ∀ (node : Node) (naming : Naming),
    node.Legible Tag.IsRead → (∀ visit ∈ node.visits, visit.Avoids (.scalar '\x7b')) →
    (∀ key ∈ Naming.keys options.classMode (node.places options parent) naming,
      .scalar '\x7d' ∉ key) →
    Shows (node.written options parent naming).print
      (Naming.keys options.classMode (node.places options parent) naming)
  | .text content, naming, _, havoids, hkeys => by
    rw [places] at hkeys ⊢
    rw [written_text, print]
    exact shows_writtenText (havoids _ List.mem_cons_self) hkeys
  | .element tag children, naming, h, havoids, hkeys => by
    have htag := havoids _ List.mem_cons_self
    rw [places, Naming.keys_append] at hkeys ⊢
    have hinside := Tag.shows_inside h.1 htag
      fun key hkey => hkeys key (List.mem_append_left _ hkey)
    have hvoidness : (tag.written options naming).isVoid = tag.isVoid := rfl
    rw [written_element, print, hvoidness]
    by_cases hvoid : tag.isVoid = true
    · -- A void element has no places below it and no end tag.
      rw [if_pos hvoid, if_pos hvoid, Naming.keys, List.append_nil]
      exact hinside
    · rw [if_neg hvoid] at hkeys
      rw [if_neg hvoid, if_neg hvoid, if_neg hvoid]
      have hbelow := shows_printAll children _ h.2.2
        (fun visit hvisit => havoids visit (List.mem_cons_of_mem _ hvisit))
        fun key hkey => hkeys key (List.mem_append_right _ hkey)
      have hend : .scalar '\x7b' ∉ ("</" : Text) ++ tag.name ++ (">" : Text) := by
        simp only [List.mem_append, not_or]
        exact ⟨⟨by decide, htag.1⟩, by decide⟩
      exact (hinside.append hbelow).append_literal hend

/-- A written tree shows the keys of its places. -/
theorem shows_printAll {parent : Option Tag} : ∀ (nodes : List Node) (naming : Naming),
    LegibleAll Tag.IsRead nodes → (∀ visit ∈ visitsOf nodes, visit.Avoids (.scalar '\x7b')) →
    (∀ key ∈ Naming.keys options.classMode (placesOf options parent nodes) naming,
      .scalar '\x7d' ∉ key) →
    Shows (printAll (writtenAll options parent naming nodes))
      (Naming.keys options.classMode (placesOf options parent nodes) naming)
  | [], _, _, _, _ => Shows.nil
  | node :: rest, naming, h, havoids, hkeys => by
    rw [placesOf, Naming.keys_append] at hkeys ⊢
    have hnode := shows_print node naming h.1
      (fun visit hvisit => havoids visit (List.mem_append_left _ hvisit))
      fun key hkey => hkeys key (List.mem_append_left _ hkey)
    have hrest := shows_printAll rest _ h.2
      (fun visit hvisit => havoids visit (List.mem_append_right _ hvisit))
      fun key hkey => hkeys key (List.mem_append_right _ hkey)
    rw [writtenAll_cons, printAll]
    exact hnode.append hrest

end

end Node

namespace Template

/-- The keys of the fields are those of the places, each once. -/
theorem map_key_fields (options : Options) (tree : List Node) :
    (ofTree options tree).fields.map Field.key =
      (Naming.keys options.classMode (Node.placesOf options none tree) {}).eraseDups := by
  have hopen : ∀ place ∈ Node.placesOf options none tree, place.Open options.classMode :=
    fun _ => Node.open_of_mem_placesOf tree
  rw [fields_ofTree, Register.map_key_firsts]
  exact congrArg List.eraseDups (Run.map_key_fieldsOf hopen {})

/-- The template of markup without braces has the placeholders of its places, and no others. -/
theorem placeholdersIn_text (options : Options) {markup : Text}
    (hopening : .scalar '\x7b' ∉ markup) (hclosing : .scalar '\x7d' ∉ markup) :
    placeholdersIn (ofTree options (Node.parse markup)).text =
      Naming.keys options.classMode (Node.placesOf options none (Node.parse markup)) {} := by
  have havoids : ∀ visit ∈ Node.visitsOf (Node.parse markup), visit.Avoids (.scalar '\x7b') :=
    Node.avoids_of_mem_visitsOf_parse (by decide) hopening
  have hkeys : ∀ key ∈ Naming.keys options.classMode
      (Node.placesOf options none (Node.parse markup)) {}, .scalar '\x7d' ∉ key := by
    have hall := (closing_not_mem_keys options hclosing).imp fun _ _ h => And.intro h trivial
    exact ((List.forall₂_and_left _ _).1 hall).1
  have hshows := Node.shows_printAll _ {} (Node.legibleAll_parse markup) havoids hkeys []
  rw [List.append_nil] at hshows
  rw [text_eq_printAll, hshows, placeholdersIn, List.append_nil]

end Template

end Stencil
