import Stencil.Proofs.Markup.Texts
import Stencil.Proofs.Template.RoundTrip
import Stencil.Proofs.Text.Words

/-!
# What a template says

A template in which each text placeholder is replaced by the default of its field says what the
source says, but for blanks (`Template.filledTexts`). A default has no blanks at its ends, so the
blank between two neighbouring texts is lost if it stands only at ends of texts that are editable,
as after `Hello` in `<p>Hello <b>world</b></p>`. The words of the document are those of the source
if and only if no two neighbours run together so (`Template.words_of_filled`).
-/

set_option autoImplicit false

namespace Stencil

/-- A text of a document, with a note whether it is an editable place. -/
structure Wording where
  editable : Bool
  content : Text
  deriving DecidableEq, Repr

namespace Wording

/-- The text as a filled template has it: with each run of blanks made one space, and without the
blanks at its ends if a placeholder stood for it. -/
def restored (wording : Wording) : Text :=
  if wording.editable then Text.trim (Text.collapse wording.content)
  else Text.collapse wording.content

/-- Two neighbouring texts that a blank keeps apart in the source, but not in a filled template: on
either side, the text is editable, or there was no blank to begin with. -/
def RunsInto (first second : Wording) : Prop :=
  ¬ Text.MeetsWhere CodePoint.isWordPart first.content second.content ∧
    (first.editable = true ∨ Text.EndsWhere CodePoint.isWordPart first.content) ∧
    (second.editable = true ∨ Text.StartsWhere CodePoint.isWordPart second.content)

instance (first second : Wording) : Decidable (first.RunsInto second) :=
  inferInstanceAs (Decidable (_ ∧ _))

end Wording

namespace Node

mutual

/-- The texts of a node inside `parent`, in document order. -/
def wordings (options : Options) (parent : Option Tag) : Node → List Wording
  | .text content => [⟨decide (textPlaces options parent content ≠ []), content⟩]
  | .element tag children => wordingsOf options (some tag) children

/-- The texts of neighbouring nodes, in document order. -/
def wordingsOf (options : Options) (parent : Option Tag) : List Node → List Wording
  | [] => []
  | node :: rest => node.wordings options parent ++ wordingsOf options parent rest

end

mutual

theorem map_content_wordings {options : Options} {parent : Option Tag} :
    ∀ node : Node, (node.wordings options parent).map Wording.content = textsOf [node]
  | .text content => rfl
  | .element tag children => by
    rw [wordings, map_content_wordingsOf children, textsOf_element_cons, textsOf_nil,
      List.append_nil]

/-- No text is left out. -/
theorem map_content_wordingsOf {options : Options} {parent : Option Tag} :
    ∀ nodes : List Node, (wordingsOf options parent nodes).map Wording.content = textsOf nodes
  | [] => rfl
  | node :: rest => by
    rw [wordingsOf, List.map_append, map_content_wordings node, map_content_wordingsOf rest,
      ← textsOf_append, List.singleton_append]

end

end Node

/-! ## One text -/

namespace Wording

variable {wording first second : Wording}

/-- What holds of the texts of a parsed tree: none is empty, and none that is editable is blank. -/
structure Sound (wording : Wording) : Prop where
  ne_nil : wording.content ≠ []
  not_blank : wording.editable = true → Text.trim (Text.collapse wording.content) ≠ []

theorem standsFor_restored (h : wording.Sound) :
    Text.StandsFor wording.content wording.restored := by
  rw [restored]
  split
  · next heditable => exact Text.standsFor_trim_collapse (h.not_blank heditable)
  · exact Text.standsFor_collapse h.ne_nil

theorem startsWhere_restored (h : wording.Sound) :
    Text.StartsWhere CodePoint.isWordPart wording.restored ↔
      wording.editable = true ∨ Text.StartsWhere CodePoint.isWordPart wording.content := by
  rw [restored]
  split
  · next heditable =>
    exact iff_of_true (Text.meets_trim (h.not_blank heditable)).1 (Or.inl heditable)
  · next hliteral =>
    rw [Text.collapse_eq_squeeze, Text.startsWhere_squeeze (by decide), or_iff_right hliteral]

theorem endsWhere_restored (h : wording.Sound) :
    Text.EndsWhere CodePoint.isWordPart wording.restored ↔
      wording.editable = true ∨ Text.EndsWhere CodePoint.isWordPart wording.content := by
  rw [restored]
  split
  · next heditable =>
    exact iff_of_true (Text.meets_trim (h.not_blank heditable)).2 (Or.inl heditable)
  · next hliteral =>
    rw [Text.collapse_eq_squeeze, Text.squeeze, Text.endsWhere_squeezeAfter (by decide),
      or_iff_right hliteral]

/-- Neighbours run into each other if they meet within a word once they are restored, but did not
before. -/
theorem not_runsInto_iff (hfirst : first.Sound) (hsecond : second.Sound) :
    ¬ first.RunsInto second ↔
      (Text.MeetsWhere CodePoint.isWordPart first.restored second.restored →
        Text.MeetsWhere CodePoint.isWordPart first.content second.content) := by
  have hmeets : Text.MeetsWhere CodePoint.isWordPart first.restored second.restored ↔
      (first.editable = true ∨ Text.EndsWhere CodePoint.isWordPart first.content) ∧
        (second.editable = true ∨ Text.StartsWhere CodePoint.isWordPart second.content) := by
    rw [Text.MeetsWhere, endsWhere_restored hfirst, startsWhere_restored hsecond]
  rw [RunsInto, hmeets, not_and, not_imp_comm, not_not]

end Wording

namespace Node

mutual

theorem sound_wordings {fine : Tag → Prop} {options : Options} {parent : Option Tag} :
    ∀ node : Node, node.Legible fine → ∀ wording ∈ node.wordings options parent, wording.Sound
  | .text content, h, wording, hmem => by
    obtain rfl := List.mem_singleton.1 hmem
    refine ⟨h.1, fun heditable => ?_⟩
    rcases textPlaces_eq options parent content with hnone | ⟨tag, hblank, -⟩
    · exact absurd hnone (of_decide_eq_true heditable)
    · exact hblank
  | .element _ children, h, wording, hmem => sound_wordingsOf children h.2.2 wording hmem

theorem sound_wordingsOf {fine : Tag → Prop} {options : Options} {parent : Option Tag} :
    ∀ nodes : List Node, LegibleAll fine nodes →
      ∀ wording ∈ wordingsOf options parent nodes, wording.Sound
  | [], _, _, hmem => absurd hmem List.not_mem_nil
  | node :: rest, h, wording, hmem => by
    rcases List.mem_append.1 hmem with hnode | hrest
    · exact sound_wordings node h.1 wording hnode
    · exact sound_wordingsOf rest h.2 wording hrest

end

/-- The words of all texts together are left alone where no text runs into the next. -/
theorem words_restored_iff {fine : Tag → Prop} {options : Options} {parent : Option Tag}
    {nodes : List Node} (h : LegibleAll fine nodes) :
    Text.words ((wordingsOf options parent nodes).map Wording.restored).flatten =
        Text.words (textsOf nodes).flatten ↔
      (wordingsOf options parent nodes).IsChain fun first second => ¬ first.RunsInto second := by
  have hsound : ∀ wording ∈ wordingsOf options parent nodes, wording.Sound :=
    sound_wordingsOf nodes h
  have hwords := @Text.words_flatten Wording Wording.content Wording.restored _
    fun wording hmem => Wording.standsFor_restored (hsound wording hmem)
  rw [← @map_content_wordingsOf options parent nodes, hwords.2]
  refine List.IsChain.iff_of_mem_imp ?_
  intro first second hfirst hsecond
  exact (Wording.not_runsInto_iff (hsound first hfirst) (hsound second hsecond)).symm

end Node

/-! ## Putting the texts back -/

/-- What is put in a place: the default of its field for a text, and its placeholder again for a
class list or another attribute. -/
def Place.putBack (defaults : List (Text × Text)) (key : Text) : Place → Text
  | .ofClass _ _ => placeholder key
  | .ofAttribute _ _ _ => placeholder key
  | .ofText _ _ => (defaults.lookup key).getD (placeholder key)

/-- The tree of a template in which each text placeholder is replaced by the default of its field.
-/
def Template.filledTexts (options : Options) (tree : List Node) : List Node :=
  let places := Node.placesOf options none tree
  Node.fillAll options none tree
    (List.zipWith (Place.putBack (Template.ofTree options tree).fields.defaults)
      (Naming.keys options.classMode places {}) places)

/-- Whether a value is what a text place held. -/
def Place.Restores (value : Text) : Place → Prop
  | .ofClass _ _ => True
  | .ofAttribute _ _ _ => True
  | .ofText _ content => value = Text.trim (Text.collapse content)

namespace Node

mutual

theorem textsOf_fill {fine : Tag → Prop} {options : Options} {parent : Option Tag} :
    ∀ (node : Node) (values : List Text), node.Legible fine →
      List.Forall₂ Place.Restores values (node.places options parent) →
      textsOf [node.fill options parent values] =
        (node.wordings options parent).map Wording.restored
  | .text content, values, _, hvalues => by
    rw [places] at hvalues
    rw [fill, wordings, List.map_singleton, textsOf_text_cons, textsOf_nil, Wording.restored,
      fillText]
    rcases textPlaces_eq options parent content with hnone | ⟨tag, -, hplaces⟩
    · rw [if_pos hnone, if_neg (by simp [hnone])]
    · rw [hplaces] at hvalues
      rw [if_neg (by simp [hplaces]), if_pos (by simp [hplaces])]
      cases hvalues with
      | cons hvalue _ =>
        rw [List.headD_cons]
        exact congrArg (fun text => [text]) hvalue
  | .element tag children, values, h, hvalues => by
    rw [places] at hvalues
    have hchildren := List.forall₂_drop_append _ _ _ hvalues
    rw [fill, wordings, textsOf_element_cons, textsOf_nil, List.append_nil]
    by_cases hvoid : tag.isVoid = true
    · rw [if_pos hvoid, h.2.1 hvoid]
      rfl
    · rw [if_neg hvoid] at hchildren
      rw [if_neg hvoid]
      exact textsOf_fillAll children _ h.2.2 hchildren

/-- A tree whose text places are filled with what they held has its texts restored. -/
theorem textsOf_fillAll {fine : Tag → Prop} {options : Options} {parent : Option Tag} :
    ∀ (nodes : List Node) (values : List Text), LegibleAll fine nodes →
      List.Forall₂ Place.Restores values (placesOf options parent nodes) →
      textsOf (fillAll options parent nodes values) =
        (wordingsOf options parent nodes).map Wording.restored
  | [], _, _, _ => rfl
  | node :: rest, values, h, hvalues => by
    rw [placesOf] at hvalues
    rw [fillAll, wordingsOf, List.map_append, ← List.singleton_append, textsOf_append,
      textsOf_fill node _ h.1 (List.forall₂_take_append _ _ _ hvalues),
      textsOf_fillAll rest _ h.2 (List.forall₂_drop_append _ _ _ hvalues)]

end

end Node

/-! ## Filled templates -/

theorem isBracketed_fill {options : Options} {tag : Tag} {values : List Text} (h : tag.IsRead)
    (hvalues : List.Forall₂ (Place.SuitsAs fun value => .scalar '>' ∉ value) values
      (tag.places options)) :
    (tag.fill options values).IsBracketed := by
  refine Tag.legible_fill ?_ h hvalues
  intro value hvalue
  exact (AttributeValue.good_literal hvalue).mono fun _ hquotable => hquotable.2

/-- A relation between places and values made of their keys, from one between places and keys. -/
theorem forall₂_zipWith {relates : Text → Place → Prop} {value : Text → Place → Text}
    {keys : List Text} {places : List Place} (hlength : keys.length = places.length)
    (h : ∀ key place, (key, place) ∈ keys.zip places → relates (value key place) place) :
    List.Forall₂ relates (List.zipWith value keys places) places := by
  induction keys generalizing places with
  | nil =>
    cases places with
    | nil => exact List.Forall₂.nil
    | cons place places => cases hlength
  | cons key keys ih =>
    cases places with
    | nil => cases hlength
    | cons place places =>
      refine List.Forall₂.cons (h key place List.mem_cons_self) ?_
      exact ih (Nat.succ.inj hlength) fun other next hmem =>
        h other next (List.mem_cons_of_mem _ hmem)

namespace Template

variable {options : Options} {markup : Text}

/-- What is put in the places of a template leaves its tags whole and restores its texts. -/
theorem putBack_spec (honce : (ofTree options (Node.parse markup)).repeated = []) :
    List.Forall₂
      (fun value place => place.SuitsAs (fun value => .scalar '>' ∉ value) value ∧
        place.Restores value)
      (List.zipWith (Place.putBack (ofTree options (Node.parse markup)).fields.defaults)
        (Naming.keys options.classMode (Node.placesOf options none (Node.parse markup)) {})
        (Node.placesOf options none (Node.parse markup)))
      (Node.placesOf options none (Node.parse markup)) := by
  have hread := Node.legibleAll_parse markup
  have hbrackets := not_mem_keys options markup (by decide) (by decide) fun tag hvisit =>
    (Node.legible_of_mem_visitsOf _ hread hvisit : tag.IsRead).no_bracket
  obtain ⟨hlength, hdefaults⟩ := List.forall₂_iff_zip.1 (lookup_defaults_ofTree honce)
  obtain ⟨-, hkeys⟩ := List.forall₂_iff_zip.1 hbrackets
  refine forall₂_zipWith hlength ?_
  intro key place hpair
  have hkey : .scalar '>' ∉ placeholder key := not_mem_placeholder (by decide) (hkeys hpair)
  have hplace : place ∈ Node.placesOf options none (Node.parse markup) :=
    (List.of_mem_zip hpair).2
  cases place with
  | ofClass tag content => exact ⟨hkey, trivial⟩
  | ofAttribute tag name value => exact ⟨hkey, trivial⟩
  | ofText parent content =>
    have hvalue : Place.putBack (ofTree options (Node.parse markup)).fields.defaults key
        (.ofText parent content) = Text.trim (Text.collapse content) := by
      rw [Place.putBack, hdefaults hpair]
      rfl
    have hsuits := Node.suits_written options hread
    rw [List.forall₂_map_left_iff, List.forall₂_same] at hsuits
    rw [hvalue]
    exact ⟨hsuits _ hplace, rfl⟩

/-- **What a filled template says.** Let no key be asked for twice, and let each text placeholder be
replaced by the default of its field. The texts of the filled template, read again and put one
behind another, have the same code points as those of the source, blanks apart, and no more words.
They have the same words if and only if no text of the source runs into the next: no two neighbours
are kept apart only by blanks at ends of texts that are editable. -/
theorem words_of_filled (options : Options) (markup : Text)
    (honce : (ofTree options (Node.parse markup)).repeated = []) :
    let tree := Node.parse markup
    let keys := Naming.keys options.classMode (Node.placesOf options none tree) {}
    let wordings := Node.wordingsOf options none tree
    let source := (Node.textsOf tree).flatten
    let filled := (Node.textsOf (Node.parse (Node.printAll (filledTexts options tree)))).flatten
    (ofTree options tree).text =
        Node.printAll (Node.fillAll options none tree (keys.map placeholder)) ∧
      wordings.map Wording.content = Node.textsOf tree ∧
      filled.filter CodePoint.isWordPart = source.filter CodePoint.isWordPart ∧
      (Text.words filled).length ≤ (Text.words source).length ∧
      (Text.words filled = Text.words source ↔
        wordings.IsChain fun first second => ¬ first.RunsInto second) := by
  intro tree keys wordings source filled
  have hread : Node.LegibleAll Tag.IsRead tree := Node.legibleAll_parse markup
  have hsuits := (putBack_spec honce).imp fun _ _ hvalue => hvalue.1
  have hrestores := (putBack_spec honce).imp fun _ _ hvalue => hvalue.2
  -- The filled tree is written and read without a change to its texts.
  have hbracketed : Node.LegibleAll Tag.IsBracketed (filledTexts options tree) := by
    refine Node.legible_fillAll ?_ tree _ hread hsuits
    exact { tag := fun _ _ => isBracketed_fill, text := fun _ _ _ hvalue => hvalue }
  have hfilled : filled = (wordings.map Wording.restored).flatten := by
    rw [← Node.textsOf_fillAll tree _ hread hrestores]
    exact Node.flatten_textsOf_parse_printAll hbracketed
  have hsource : source = (wordings.map Wording.content).flatten := by
    rw [Node.map_content_wordingsOf]
  have hstands : ∀ wording ∈ wordings, Text.StandsFor wording.content wording.restored :=
    fun wording hmem => Wording.standsFor_restored (Node.sound_wordingsOf tree hread wording hmem)
  refine ⟨text_ofTree options tree, Node.map_content_wordingsOf tree, ?_, ?_, ?_⟩
  · rw [hfilled, hsource]
    exact Text.filter_flatten wordings hstands
  · rw [hfilled, hsource]
    exact (Text.words_flatten wordings hstands).1
  · rw [hfilled]
    exact Node.words_restored_iff hread

/-- A greeting with its second word in bold: its words run together. -/
theorem words_of_filled_greeting :
    let tree := Node.parse "<p>Hello, <b>world</b>!</p>"
    (ofTree {} tree).repeated = [] ∧
      Text.words (Node.textsOf (Node.parse (Node.printAll (filledTexts {} tree)))).flatten ≠
        Text.words (Node.textsOf tree).flatten := by
  refine ⟨by decide +kernel, ?_⟩
  have hwords := words_of_filled {} "<p>Hello, <b>world</b>!</p>" (by decide +kernel)
  rw [ne_eq, hwords.2.2.2.2]
  decide +kernel

/-- The blank between two words stands at the end of an editable text, and is lost with it. -/
theorem words_run_together :
    let tree := Node.parse "<p>Hello <b>world</b></p>"
    (ofTree {} tree).repeated = [] ∧
      (ofTree {} tree).text = "<p>\x7b\x7btext\x7d\x7d<b>\x7b\x7btext_2\x7d\x7d</b></p>" ∧
      Text.words (Node.textsOf tree).flatten = [Text.ofString "Hello", "world"] ∧
      Text.words (Node.textsOf (Node.parse (Node.printAll (filledTexts {} tree)))).flatten =
        [Text.ofString "Helloworld"] := by
  decide +kernel

end Template

end Stencil
