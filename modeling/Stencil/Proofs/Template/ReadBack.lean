import Stencil.Proofs.Template.Filling
import Stencil.Proofs.Template.Walk

/-!
# Templates read back

The template of a parsed tree is markup of the same elements: read back, it gives the tree with the
placeholders at its places (`Template.parse_ofTree`). No placeholder disturbs the reading, because
every code point of a key is a name character or comes from the element that the key is for
(`Naming.spelled_key`), and names hold nothing that would end a value, a tag or a text.
-/

set_option autoImplicit false

namespace Stencil

/-! ## The code points of a key -/

/-- A text of name characters and of the given letters. -/
def Text.SpelledWith (text letters : Text) : Prop :=
  ∀ c ∈ text, c.isAttributeName = true ∨ c ∈ letters

namespace Text

theorem spelledWith_append {letters first second : Text} (hfirst : first.SpelledWith letters)
    (hsecond : second.SpelledWith letters) : (first ++ second).SpelledWith letters := by
  intro c hc
  rcases List.mem_append.1 hc with hc | hc
  · exact hfirst c hc
  · exact hsecond c hc

theorem spelledWith_of_names {letters text : Text} (h : ∀ c ∈ text, c.isAttributeName = true) :
    text.SpelledWith letters :=
  fun c hc => Or.inl (h c hc)

theorem spelledWith_self (text : Text) : text.SpelledWith text :=
  fun _ hc => Or.inr hc

theorem SpelledWith.mono {small large text : Text} (h : text.SpelledWith small)
    (hsub : small ⊆ large) : text.SpelledWith large :=
  fun c hc => (h c hc).imp_right fun hmem => hsub hmem

theorem SpelledWith.not_mem {letters text : Text} {c : CodePoint} (h : text.SpelledWith letters)
    (hname : c.isAttributeName = false) (hletter : c ∉ letters) : c ∉ text := by
  intro hc
  rcases h c hc with hyes | hmem
  · rw [hname] at hyes
    cases hyes
  · exact hletter hmem

end Text

theorem isAttributeName_of_mem_natNumeral {n : Nat} {c : CodePoint} (hc : c ∈ natNumeral n) :
    c.isAttributeName = true := by
  obtain ⟨digit, hdigit, rfl⟩ := List.mem_map.1 hc
  have hascii : CodePoint.isAsciiDigit (.scalar digit) = true :=
    Nat.isDigit_of_mem_toDigits (Nat.succ_pos 9) (Nat.le_refl 10) hdigit
  rw [CodePoint.isAttributeName, CodePoint.isAsciiAlphanumeric, hascii, Bool.or_true]
  rfl

theorem spelledWith_intNumeral (letters : Text) (n : Int) :
    (intNumeral n).SpelledWith letters := by
  apply Text.spelledWith_of_names
  intro c hc
  cases n with
  | ofNat n => exact isAttributeName_of_mem_natNumeral hc
  | negSucc n =>
    rcases List.mem_cons.1 hc with rfl | hc
    · decide
    · exact isAttributeName_of_mem_natNumeral hc

theorem spelledWith_numbered {letters base : Text} (hbase : base.SpelledWith letters)
    (index : Int) : (numbered base index).SpelledWith letters := by
  rw [numbered]
  split
  · exact hbase
  · refine Text.spelledWith_append (Text.spelledWith_append hbase ?_)
      (spelledWith_intNumeral letters index)
    exact Text.spelledWith_of_names (by decide)

/-- Heading names are name characters, with at most a line feed behind them. -/
theorem spelledWith_of_isHeadingName {name : Text} (h : isHeadingName name = true) :
    name.SpelledWith [.scalar '\n'] := by
  have hdigits : ∀ digit ∈ (['1', '2', '3', '4', '5', '6'] : List CodePoint),
      digit.isAttributeName = true := by
    decide
  unfold isHeadingName at h
  split at h
  · next first digit =>
    simp only [Bool.and_eq_true, decide_eq_true_eq, List.contains_iff_mem] at h
    obtain ⟨rfl, hdigit⟩ := h
    intro c hc
    simp only [List.mem_cons, List.not_mem_nil, or_false] at hc
    rcases hc with rfl | rfl
    · exact Or.inl (by decide)
    · exact Or.inl (hdigits c hdigit)
  · next first digit last =>
    simp only [Bool.and_eq_true, decide_eq_true_eq, List.contains_iff_mem] at h
    obtain ⟨⟨rfl, hdigit⟩, rfl⟩ := h
    intro c hc
    simp only [List.mem_cons, List.not_mem_nil, or_false] at hc
    rcases hc with rfl | rfl | rfl
    · exact Or.inl (by decide)
    · exact Or.inl (hdigits c hdigit)
    · exact Or.inr (List.mem_singleton_self _)
  · cases h

/-- What the letters of a key may come from, beside the name characters. -/
def Place.letters : Place → Text
  | .ofClass tag _ => tag.name
  | .ofAttribute tag name _ => tag.name ++ name
  | .ofText _ _ => [.scalar '\n']

namespace Naming

theorem spelled_classKey {mode : ClassMode} {tag : Tag} {naming next : Naming} {key : Text}
    (h : naming.classKey mode tag = (some key, next)) : key.SpelledWith tag.name := by
  unfold classKey at h
  split at h
  · cases h
  split at h
  · cases h
    exact Text.spelledWith_of_names (by decide)
  split at h
  · cases h
    exact Text.spelledWith_of_names (by decide)
  split at h
  · cases h
    split
    · exact Text.spelledWith_of_names (by decide)
    · exact Text.spelledWith_append (Text.spelledWith_of_names (by decide))
        (spelledWith_intNumeral tag.name _)
  · cases h
    apply spelledWith_numbered
    exact Text.spelledWith_append (Text.spelledWith_self tag.name)
      (Text.spelledWith_of_names (by decide))

theorem spelled_textKey (tag : Tag) (naming : Naming) :
    (naming.textKey tag).1.SpelledWith [.scalar '\n'] := by
  unfold textKey
  split
  · apply spelledWith_numbered
    exact Text.spelledWith_of_names (by decide)
  split
  · next hheading =>
    split
    · exact Text.spelledWith_append (Text.spelledWith_of_names (by decide))
        (spelledWith_of_isHeadingName hheading)
    · show Text.SpelledWith "title" _
      exact Text.spelledWith_of_names (by decide)
  split
  · show Text.SpelledWith "subtitle" _
    exact Text.spelledWith_of_names (by decide)
  · apply spelledWith_numbered
    exact Text.spelledWith_of_names (by decide)

theorem spelled_attributeKey (tag : Tag) (name : Text) (naming : Naming) :
    (naming.attributeKey tag name).1.SpelledWith (tag.name ++ name) := by
  unfold attributeKey
  split
  · apply spelledWith_numbered
    split
    · exact Text.spelledWith_of_names (by decide)
    · exact Text.spelledWith_of_names (by decide)
  · refine Text.spelledWith_append (Text.spelledWith_append ?_ ?_) ?_
    · exact (Text.spelledWith_self tag.name).mono (List.subset_append_left _ _)
    · exact Text.spelledWith_of_names (by decide)
    · exact (Text.spelledWith_self name).mono (List.subset_append_right _ _)

/-- A key is spelled with name characters and the letters of its place. -/
theorem spelled_key {mode : ClassMode} {place : Place} {naming next : Naming} {key : Text}
    (h : naming.ask mode place = (some key, next)) : key.SpelledWith place.letters := by
  cases place with
  | ofClass tag content => exact spelled_classKey h
  | ofAttribute tag name value =>
    cases h
    exact spelled_attributeKey tag name naming
  | ofText parent content =>
    cases h
    exact spelled_textKey parent naming

end Naming

/-! ## Placeholders in their places -/

theorem not_mem_placeholder {c : CodePoint} {key : Text} (hbrace : c ∉ ("\x7b\x7d" : Text))
    (hkey : c ∉ key) : c ∉ placeholder key := by
  have hbraces : c ≠ .scalar '\x7b' ∧ c ≠ .scalar '\x7d' := by
    simpa [Text.ofString] using hbrace
  simp [placeholder, Text.ofString, hbraces, hkey]

/-- A placeholder suits its place as soon as the names that its key repeats may stand in a tag. -/
theorem Place.suits_placeholder {place : Place} {key : Text}
    (hkey : key.SpelledWith place.letters) (hletters : place.letters.IsQuotable) :
    place.Suits (placeholder key) := by
  have hquotable : (placeholder key).IsQuotable :=
    ⟨not_mem_placeholder (by decide) (hkey.not_mem (by decide) hletters.1),
      not_mem_placeholder (by decide) (hkey.not_mem (by decide) hletters.2)⟩
  cases place with
  | ofClass tag content => exact hquotable
  | ofAttribute tag name value => exact hquotable
  | ofText parent content =>
    refine ⟨List.cons_ne_nil _ _, ?_⟩
    have hfeed : CodePoint.scalar '<' ∉ (Place.ofText parent content).letters := by
      rw [letters]
      decide
    exact not_mem_placeholder (by decide) (hkey.not_mem (by decide) hfeed)

/-- Attribute names are legible, so only the name of the tag can bring something else into a key. -/
theorem Tag.not_mem_letters {options : Options} {tag : Tag} {place : Place} {c : CodePoint}
    (h : tag.IsRead) (hattribute : c.isAttributeName = false) (hname : c ∉ tag.name)
    (hplace : place ∈ tag.places options) : c ∉ place.letters := by
  rcases List.mem_append.1 hplace with hclass | hother
  · obtain ⟨content, rfl, -⟩ := Tag.eq_of_mem_classPlaces hclass
    exact hname
  · obtain ⟨name, value, rfl, hentry⟩ := Tag.eq_of_mem_attributePlaces hother
    have hlegible := (h.attributes.1 _ hentry).1
    rw [Place.letters, List.mem_append, not_or]
    exact ⟨hname, hlegible.not_mem hattribute⟩

/-- The placeholders of the places of a legible tree suit them. -/
theorem Node.suits_placeholders {options : Options} {tree : List Node}
    (h : LegibleAll (fun tag => tag.IsRead ∧ tag.PlainName) tree) (naming : Naming) :
    List.Forall₂ Place.Suits
      ((Naming.keys options.classMode (placesOf options none tree) naming).map placeholder)
      (placesOf options none tree) := by
  -- The letters of a key come from names, which were read from inside a tag.
  have hletters : ∀ place ∈ placesOf options none tree, place.letters.IsQuotable := by
    refine forall_placesOf tree ?_ ?_
    · intro tag hvisit place hplace
      obtain ⟨hread, hplain⟩ := legible_of_mem_visitsOf tree h hvisit
      exact ⟨Tag.not_mem_letters hread (by decide) hplain.1 hplace,
        Tag.not_mem_letters hread (by decide) hread.no_bracket hplace⟩
    · intro content _ parent place hplace
      obtain ⟨tag, rfl, -⟩ := eq_of_mem_textPlaces hplace
      rw [Place.letters]
      exact ⟨by decide, by decide⟩
  rw [List.forall₂_map_left_iff]
  apply Naming.forall₂_keys (fun _ => open_of_mem_placesOf tree)
  intro place hplace naming next key hask
  exact Place.suits_placeholder (Naming.spelled_key hask) (hletters place hplace)

/-- **A template is markup of the tree that it was made from.** Where no name of a parsed tree holds
a double quote or ends in a slash, the template of the tree is read back, whatever the options, as
that tree with the placeholders at its places and everything else as it is written, neighbouring
texts merged. No element is lost, added or moved, and each has the names of its attributes once, the
class in front. -/
theorem Template.parse_ofTree (options : Options) (markup : Text)
    (hnames : ∀ tag ∈ Node.tagsOf (Node.parse markup), tag.PlainName) :
    let tree := Node.parse markup
    let keys := Naming.keys options.classMode (Node.placesOf options none tree) {}
    let again := Node.parse (Template.ofTree options tree).text
    again = Node.mergeAll (Node.fillAll options none tree (keys.map placeholder)) ∧
      Node.outlineOf Tag.attributeNames again = Node.outlineOf Tag.namesClassFirst tree ∧
      ∀ tag ∈ Node.tagsOf again, tag.attributeNames.Nodup := by
  intro tree keys again
  have hread : Node.LegibleAll Tag.IsRead tree := Node.legibleAll_parse markup
  have hplain := Node.legibleAll_and tree hread hnames
  have hprintable : Node.LegibleAll Tag.IsPrintable
      (Node.fillAll options none tree (keys.map placeholder)) :=
    Node.legibleAll_fillAll tree _ hplain (Node.suits_placeholders hplain {})
  -- The text is the printed tree, so reading it gives back the tree.
  have hagain : again = Node.mergeAll (Node.fillAll options none tree (keys.map placeholder)) := by
    rw [← Node.parse_printAll hprintable, ← Template.text_ofTree]
  refine ⟨hagain, ?_, ?_⟩
  · rw [hagain, Node.outlineOf_mergeAll, Node.outlineOf_fillAll tree _ hread]
  · intro tag htag
    exact (Node.fine_of_mem_tagsOf (Node.legibleAll_parse _) htag).attributes.2

/-- The template of a link with a class and a text, and of a line break without an end tag. -/
theorem Template.parse_ofTree_link :
    let tree := Node.parse "<p>Go <a href=/x class='btn wide'>home</a><br>or stay"
    (∀ tag ∈ Node.tagsOf tree, tag.PlainName) ∧
      Node.outlineOf Tag.attributeNames (Node.parse (Template.ofTree {} tree).text) =
        Node.outlineOf Tag.namesClassFirst tree :=
  ⟨by decide +kernel, (Template.parse_ofTree {} _ (by decide +kernel)).2.1⟩

end Stencil
