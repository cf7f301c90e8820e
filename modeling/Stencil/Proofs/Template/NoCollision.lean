import Stencil.Proofs.Template.Filling
import Stencil.Proofs.Template.OwnKeys
import Stencil.Proofs.Template.Sites
import Stencil.Proofs.Template.TwoPhases

/-!
# No text and no link is lost

The register keeps the first field of each key, so the content of a place is lost when an earlier
place has the same key. That happens neither to a text outside headings nor to the target of a link:
whatever the markup and the class mode, its key is its own, and the field of that key holds its own
content (`Template.own_keys`).
-/

set_option autoImplicit false

namespace Stencil

/-! ## Places with a key of their own -/

/-- Whether a field has the key of the place at an index and of no other place of a tree, and is the
only field with that key. -/
structure Template.Owns (options : Options) (tree : List Node) (index : Nat) (field : Field) :
    Prop where
  key : ∀ other : Nat,
    (Naming.keys options.classMode (Node.placesOf options none tree) {})[other]? =
      some field.key ↔ other = index
  field : ∀ other : Field,
    other ∈ (Template.ofTree options tree).fields ∧ other.key = field.key ↔ other = field

theorem getElem?_eq_some_iff_of_once {before later : List Text} {key : Text}
    (hbefore : key ∉ before) (hlater : key ∉ later) (index : Nat) :
    (before ++ key :: later)[index]? = some key ↔ index = before.length := by
  constructor
  · intro hkey
    rcases Nat.lt_trichotomy index before.length with hlt | heq | hgt
    · rw [List.getElem?_append_left hlt] at hkey
      exact absurd (List.mem_of_getElem? hkey) hbefore
    · exact heq
    · obtain ⟨more, hmore⟩ : ∃ more, index - before.length = more + 1 :=
        ⟨index - before.length - 1, by omega⟩
      rw [List.getElem?_append_right (Nat.le_of_lt hgt), hmore, List.getElem?_cons_succ] at hkey
      exact absurd (List.mem_of_getElem? hkey) hlater
  · rintro rfl
    rw [List.getElem?_append_right (Nat.le_refl _), Nat.sub_self, List.getElem?_cons_zero]

/-- A place with a key that no place before it has gives the first field of that key. -/
theorem Run.find?_fieldsOf {mode : ClassMode} {before later : List Place} {place : Place}
    {key : Text} {others : List Text} (hopen : ∀ other ∈ before, other.Open mode)
    (hkeys : Naming.keys mode (before ++ place :: later) {} =
      Naming.keys mode before {} ++ key :: others)
    (hnew : key ∉ Naming.keys mode before {}) :
    (fieldsOf mode {} (before ++ place :: later)).find? (·.key = key) =
      some (place.field key) := by
  have hearlier : (fieldsOf mode {} before).find? (·.key = key) = none := by
    rw [List.find?_eq_none]
    intro field hfield hkey
    have hmem : field.key ∈ (fieldsOf mode {} before).map Field.key :=
      List.mem_map_of_mem hfield
    rw [map_key_fieldsOf hopen, of_decide_eq_true hkey] at hmem
    exact hnew hmem
  rw [fieldsOf] at hearlier
  rw [fieldsOf, hkeys, List.zipWith_append (Naming.length_keys hopen {}), List.find?_append,
    hearlier, Option.none_or, List.zipWith_cons_cons,
    List.find?_cons_of_pos (by simp [Place.field])]

/-- A place with an own key owns the field of that key. -/
theorem Template.exists_owns {options : Options} {tree : List Node} {before later : List Place}
    {place : Place} (hplaces : Node.placesOf options none tree = before ++ place :: later)
    (hexpected : ∀ other ∈ Node.placesOf options none tree, other.Expected)
    (hown : place.HasOwnKey) :
    ∃ key next, (Naming.after options.classMode before {}).ask options.classMode place =
        (some key, next) ∧
      Template.Owns options tree before.length (place.field key) := by
  rw [hplaces] at hexpected
  obtain ⟨key, next, hask, hkeys, hbefore, hlater⟩ :=
    Naming.exists_keys_eq hexpected hown options.classMode {}
  have hopen : ∀ other ∈ before, other.Open options.classMode := by
    intro other hother
    have hmem : other ∈ Node.placesOf options none tree := by
      rw [hplaces]
      exact List.mem_append_left _ hother
    exact Node.open_of_mem_placesOf tree hmem
  have hfind := Run.find?_fieldsOf hopen hkeys hbefore
  refine ⟨key, next, hask, ?_, ?_⟩
  · intro index
    rw [hplaces, hkeys, ← Naming.length_keys hopen {}]
    exact getElem?_eq_some_iff_of_once hbefore hlater index
  · -- Only the first field of a key is kept, and that of the place is the first one.
    intro other
    rw [fields_ofTree, Register.mem_firsts_iff, hplaces]
    constructor
    · rintro ⟨hother, hkey⟩
      rw [hkey] at hother
      exact (Option.some.inj (hfind.symm.trans hother)).symm
    · rintro rfl
      exact ⟨hfind, rfl⟩

/-! ## Texts and link targets -/

/-- The names of headings. -/
def headingNames : List Text :=
  ["h1", "h2", "h3", "h4", "h5", "h6"]

theorem isHeadingName_eq_false {name : Text} (hname : name ∉ headingNames)
    (hblank : ∀ c ∈ name, c.isBlank = false) : isHeadingName name = false := by
  unfold isHeadingName
  split
  · next first digit =>
    by_contra hheading
    simp only [Bool.not_eq_false, Bool.and_eq_true, decide_eq_true_eq, List.contains_iff_mem]
      at hheading
    obtain ⟨rfl, hdigit⟩ := hheading
    simp only [List.mem_cons, List.not_mem_nil, or_false] at hdigit
    rcases hdigit with rfl | rfl | rfl | rfl | rfl | rfl <;> exact hname (by decide)
  · next first digit last =>
    have hlast : last ≠ '\n' := by
      rintro rfl
      have hfeed : CodePoint.isBlank '\n' = false := hblank _ (by simp)
      exact absurd hfeed (by decide)
    simp [hlast]
  · rfl

/-- What a written text is when it is a place. -/
theorem Node.writtenText_of_place {options : Options} {parent tag : Tag} {content key : Text}
    {naming next : Naming}
    (hplace : textPlaces options (some parent) content = [.ofText tag content])
    (hask : naming.ask options.classMode (.ofText tag content) = (some key, next)) :
    writtenText options (some parent) naming content = placeholder key := by
  rw [writtenText, fillText, hplace, if_neg (List.cons_ne_nil _ _), Naming.keys, hask]
  rfl

/-- A link target of a written tag is the placeholder of its key. -/
theorem Tag.value?_written {options : Options} {tag : Tag} {naming next : Naming}
    {name key : Text} {value : AttributeValue} {front back : Attributes} (hread : tag.IsRead)
    (hsplit : tag.attributes = front ++ (name, value) :: back) (hclass : name ≠ "class")
    (heditable : name ∈ options.editable)
    (hask : (Naming.after options.classMode
        (tag.classPlaces options ++ tag.attributePlaces options front) naming).ask
          options.classMode (.ofAttribute tag name value) = (some key, next)) :
    Attributes.value? name (tag.written options naming).attributes =
      some (.text (placeholder key)) := by
  have hnodup : (tag.written options naming).attributeNames.Nodup := by
    rw [written, attributeNames_fill options _ hread.attributes.2]
    exact nodup_namesClassFirst hread.attributes.2
  apply Attributes.value?_of_mem hnodup
  rw [Naming.after_append] at hask
  have hkey : ((Naming.after options.classMode (tag.attributePlaces options front)
      (Naming.after options.classMode (tag.classPlaces options) naming)).attributeKey
        tag name).1 = key :=
    Option.some.inj (congrArg Prod.fst hask)
  rw [attributes_written, hsplit, writtenOthers_append, writtenOthers_cons, if_neg hclass,
    if_pos (List.contains_iff_mem.2 heditable), hkey]
  simp

namespace Template

section Parsed

variable {options : Options} {markup : Text} {before later : List Site}

theorem placesOf_of_site (options : Options) {site : Site}
    (hsites : Node.sitesOf 0 [] (Node.parse markup) = before ++ site :: later) :
    Node.placesOf options none (Node.parse markup) =
      before.flatMap (Site.places options) ++
        (site.places options ++ later.flatMap (Site.places options)) := by
  have hflat := Node.placesOf_eq_flatMap options 0 [] _ (Node.legibleAll_parse markup)
  rw [hsites, List.flatMap_append, List.flatMap_cons] at hflat
  exact hflat

theorem getElem?_visitsOf (options : Options) {site : Site}
    (hsites : Node.sitesOf 0 [] (Node.parse markup) = before ++ site :: later) :
    (Node.visitsOf (Node.writtenAll options none {} (Node.parse markup)))[before.length]? =
      some (site.written options
        (Naming.after options.classMode (before.flatMap (Site.places options)) {})) := by
  rw [← Node.pruneAll_of_legibleAll _ (Node.legibleAll_parse markup)] at hsites
  exact Node.getElem?_visitsOf_written options hsites

variable (hattributes : ∀ name, name ∈ options.editable ↔ name ∈ defaultEditable)

include hattributes

/-- A text outside headings is written as the placeholder of its own key. -/
theorem exists_owns_text (htexts : options.textEditable = true) {outer : List Ancestor}
    {parent : Ancestor} {content : Text}
    (hsites : Node.sitesOf 0 [] (Node.parse markup) =
      before ++ ⟨outer ++ [parent], .text content⟩ :: later)
    (hblank : Text.isBlank content = false) (hname : parent.tag.name ∉ headingNames) :
    ∃ key,
      (Node.visitsOf (Node.writtenAll options none {} (Node.parse markup)))[before.length]? =
        some (.text (placeholder key)) ∧
      Owns options (Node.parse markup) (before.flatMap (Site.places options)).length
        ⟨key, .text, "Text", Text.trim (Text.collapse content)⟩ := by
  have hmem : (⟨outer ++ [parent], .text content⟩ : Site) ∈
      Node.sitesOf 0 [] (Node.parse markup) := by
    rw [hsites]
    exact List.mem_append_right _ List.mem_cons_self
  have htag : parent.tag.IsRead :=
    Node.isRead_of_mem_ancestors_parse hmem (List.mem_append_right _ List.mem_cons_self)
  have hsome : Text.trim (Text.collapse content) ≠ [] := by
    rw [Ne, Text.trim_collapse_eq_nil_iff, hblank]
    exact Bool.false_ne_true
  have hplace : Node.textPlaces options (some parent.tag) content =
      [.ofText parent.tag content] := by
    rw [Node.textPlaces, if_pos ⟨htexts, hsome⟩]
  have hsite : (⟨outer ++ [parent], .text content⟩ : Site).places options =
      [.ofText parent.tag content] := by
    rw [Site.places_text_inside, hplace]
  have hplaces := placesOf_of_site options hsites
  rw [hsite] at hplaces
  obtain ⟨key, next, hask, howns⟩ := exists_owns hplaces
    (Node.expected_of_mem_placesOf fun name => (hattributes name).1)
    (isHeadingName_eq_false hname htag.no_blank)
  refine ⟨key, ?_, howns⟩
  rw [getElem?_visitsOf options hsites, Site.written, Site.parent?_inside]
  exact congrArg (fun text => some (Visit.text text)) (Node.writtenText_of_place hplace hask)

/-- A link target is written as the placeholder of its own key. -/
theorem exists_owns_link {above : List Ancestor} {tag : Tag} {front back : Attributes}
    {value : AttributeValue}
    (hsites : Node.sitesOf 0 [] (Node.parse markup) = before ++ ⟨above, .element tag⟩ :: later)
    (hname : tag.name = "a")
    (hsplit : tag.attributes = front ++ (Text.ofString "href", value) :: back) :
    ∃ key link,
      (Node.visitsOf (Node.writtenAll options none {} (Node.parse markup)))[before.length]? =
        some (.element link) ∧
      Attributes.value? "href" link.attributes = some (.text (placeholder key)) ∧
      Owns options (Node.parse markup)
        (before.flatMap (Site.places options) ++
          (tag.classPlaces options ++ tag.attributePlaces options front)).length
        ⟨key, .url, "HREF", value.content⟩ := by
  have hmem : .element tag ∈ Node.visitsOf (Node.parse markup) := by
    rw [← Node.map_visit_sitesOf 0 [] (Node.parse markup), hsites]
    simp
  have htag : tag.IsRead :=
    Node.legible_of_mem_visitsOf _ (Node.legibleAll_parse markup) hmem
  have heditable : ("href" : Text) ∈ options.editable := (hattributes _).2 (by decide +kernel)
  have hsite : tag.places options =
      tag.classPlaces options ++ tag.attributePlaces options front ++
        .ofAttribute tag "href" value :: tag.attributePlaces options back := by
    rw [Tag.places, hsplit, Tag.attributePlaces_append, Tag.attributePlaces_cons,
      if_neg (by decide), if_pos (List.contains_iff_mem.2 heditable), List.append_assoc]
  have hplaces := placesOf_of_site options hsites
  -- The places before the link are those of the earlier sites and of the earlier attributes.
  rw [Site.places_element, hsite, List.append_assoc _ (_ :: _), List.cons_append,
    ← List.append_assoc] at hplaces
  obtain ⟨key, next, hask, howns⟩ := exists_owns hplaces
    (Node.expected_of_mem_placesOf fun name => (hattributes name).1) ⟨hname, rfl⟩
  rw [Naming.after_append] at hask
  refine ⟨key, tag.written options _, getElem?_visitsOf options hsites, ?_, howns⟩
  exact Tag.value?_written htag hsplit (by decide) heditable hask

end Parsed

/-- **No text and no link target is lost.** Let texts and the default attributes be editable, under
any class mode. A text that is not blank, right inside an element other than a heading, is written
as the placeholder of a key that no other place of the markup has, and the one field with that key
has the text itself, trimmed and collapsed. The same holds of the target of a link, and there the
field has the value of the attribute. -/
theorem own_keys (options : Options) (markup : Text) (htexts : options.textEditable = true)
    (hattributes : ∀ name, name ∈ options.editable ↔ name ∈ defaultEditable) :
    let tree := Node.parse markup
    let sites := Node.sitesOf 0 [] tree
    let written := Node.writtenAll options none {} tree
    (ofTree options tree).text = Node.printAll written ∧
      Node.placesOf options none tree = sites.flatMap (Site.places options) ∧
      (∀ (before later : List Site) (outer : List Ancestor) (parent : Ancestor) (content : Text),
        sites = before ++ ⟨outer ++ [parent], .text content⟩ :: later →
        Text.isBlank content = false → parent.tag.name ∉ headingNames →
        ∃ key, (Node.visitsOf written)[before.length]? = some (.text (placeholder key)) ∧
          Owns options tree (before.flatMap (Site.places options)).length
            ⟨key, .text, "Text", Text.trim (Text.collapse content)⟩) ∧
      ∀ (before later : List Site) (above : List Ancestor) (tag : Tag) (front back : Attributes)
          (value : AttributeValue),
        sites = before ++ ⟨above, .element tag⟩ :: later →
        tag.name = "a" → tag.attributes = front ++ (Text.ofString "href", value) :: back →
        ∃ key link, (Node.visitsOf written)[before.length]? = some (.element link) ∧
          Attributes.value? "href" link.attributes = some (.text (placeholder key)) ∧
          Owns options tree
            (before.flatMap (Site.places options) ++
              (tag.classPlaces options ++ tag.attributePlaces options front)).length
            ⟨key, .url, "HREF", value.content⟩ := by
  intro tree sites written
  refine ⟨text_eq_printAll options tree,
    Node.placesOf_eq_flatMap options 0 [] tree (Node.legibleAll_parse markup), ?_, ?_⟩
  · intro before later outer parent content hsites hblank hname
    exact exists_owns_text hattributes htexts hsites hblank hname
  · intro before later above tag front back value hsites hname hsplit
    exact exists_owns_link hattributes hsites hname hsplit

/-- The second link of a row has a key of its own, and the field of that key has its target. -/
theorem own_keys_row :
    let markup : Text := "<h1>Go</h1><p><a href=/x>home</a> or <a class=btn href>home</a></p>"
    let tree := Node.parse markup
    ({} : Options).textEditable = true ∧
      (∀ name, name ∈ ({} : Options).editable ↔ name ∈ defaultEditable) ∧
      ∃ key link,
        (Node.visitsOf (Node.writtenAll {} none {} tree))[6]? = some (.element link) ∧
        Attributes.value? "href" link.attributes = some (.text (placeholder key)) ∧
        Owns {} tree 5 ⟨key, .url, "HREF", []⟩ := by
  intro markup tree
  refine ⟨rfl, fun name => Iff.rfl, ?_⟩
  let before := (Node.sitesOf 0 [] tree).take 6
  let tag : Tag := ⟨"a", [("class", .text "btn"), ("href", .flag true)]⟩
  have hsites : Node.sitesOf 0 [] tree =
      before ++ ⟨[⟨2, ⟨"p", []⟩⟩], .element tag⟩ :: (Node.sitesOf 0 [] tree).drop 7 := by
    decide +kernel
  have hcount : before.length = 6 := by
    decide +kernel
  have hindex : (before.flatMap (Site.places {}) ++ (tag.classPlaces {} ++
      tag.attributePlaces {} [("class", .text "btn")])).length = 5 := by
    decide +kernel
  have hlink := (own_keys {} markup rfl fun name => Iff.rfl).2.2.2 _ _ _ tag
    [("class", .text "btn")] [] (.flag true) hsites rfl rfl
  rw [hcount, hindex] at hlink
  exact hlink

end Template

end Stencil
