import Stencil.Proofs.Template.History

/-!
# Which texts and links share a key

Five rules name the texts. The first text in a heading is the title, and the first paragraph behind
it the subtitle; both are told from the places named before them (`Naming.ask_eq_title_iff`,
`Naming.ask_eq_subtitle_iff`). Labels and other texts are numbered, so they keep their keys to
themselves, as do the targets of links (`Naming.answers_ne_of_hasOwnKey`).

So the only texts that share a key are those in headings of one name, the title apart
(`Naming.text_keys`).
-/

set_option autoImplicit false

namespace Stencil

namespace Naming

/-! ## Title and subtitle -/

section Claimed

variable {mode : ClassMode} {naming : Naming}

/-- Keys of attributes have a dash in them. -/
theorem dash_mem_attributeKey (tag : Tag) (name : Text) (naming : Naming) :
    .scalar '_' ∈ (naming.attributeKey tag name).1 := by
  rw [attributeKey]
  split
  · apply (prefix_numbered _ _).subset
    split
    · decide
    · decide
  · simp [Text.ofString]

/-- Only texts have a key with neither a `c` nor a dash. -/
theorem ask_ne_of_not_isText {place : Place} {key : Text} (hplace : place.isText = false)
    (hletter : .scalar 'c' ∉ key) (hdash : .scalar '_' ∉ key) :
    (naming.ask mode place).1 ≠ some key := by
  intro hkey
  cases place with
  | ofClass tag content => exact hletter (mem_classKey hkey)
  | ofAttribute tag name value =>
    obtain rfl : (naming.attributeKey tag name).1 = key := Option.some.inj hkey
    exact hdash (dash_mem_attributeKey tag name naming)
  | ofText parent content => cases hplace

theorem heading_ne_title (name : Text) : ("heading_" : Text) ++ name ≠ "title" := by
  intro htitle
  have hstart : ("heading_" : Text) <+: "title" := htitle ▸ List.prefix_append _ name
  exact absurd hstart (by decide)

theorem own_ne_title (own : OwnKey) : own.text ≠ "title" := by
  intro htitle
  have hstart : ("title" : Text) <+: own.text := htitle ▸ List.prefix_refl _
  exact OwnKey.not_prefix_text (by decide) own hstart

theorem numbered_ne_subtitle (series : Series) (number : Int) :
    numbered series.base number ≠ "subtitle" := by
  intro hsame
  have hown : (OwnKey.member series number).text = OwnKey.subtitle.text := hsame
  cases OwnKey.text_injective hown

/-- The title goes to a text in a heading, unless it is taken. -/
theorem ask_eq_title_iff (place : Place) :
    (naming.ask mode place).1 = some ("title" : Text) ↔
      place.isHeading = true ∧ naming.titleTaken = false := by
  cases place with
  | ofClass tag content =>
    have hne := @ask_ne_of_not_isText mode naming (.ofClass tag content) "title" rfl
      (by decide) (by decide)
    simp [hne, Place.isHeading]
  | ofAttribute tag name value =>
    have hne := @ask_ne_of_not_isText mode naming (.ofAttribute tag name value) "title" rfl
      (by decide) (by decide)
    simp [hne, Place.isHeading]
  | ofText parent content =>
    rw [ask, Option.some_inj, Place.isHeading]
    by_cases hheading : isHeadingName parent.name = true
    · rw [textKey_of_isHeadingName hheading]
      cases naming.titleTaken with
      | false => simp [hheading]
      | true => simp [heading_ne_title]
    · have hother : isHeadingName parent.name = false := Bool.not_eq_true _ ▸ hheading
      obtain ⟨own, hkey, -⟩ := exists_own_of_textKey parent naming hother
      simp [hkey, own_ne_title, hother]

/-- The subtitle goes to a text in a paragraph, if the title is taken and the subtitle is not. -/
theorem ask_eq_subtitle_iff (place : Place) :
    (naming.ask mode place).1 = some ("subtitle" : Text) ↔
      place.isParagraph = true ∧ naming.titleTaken = true ∧ naming.subtitleTaken = false := by
  cases place with
  | ofClass tag content =>
    have hne := @ask_ne_of_not_isText mode naming (.ofClass tag content) "subtitle" rfl
      (by decide) (by decide)
    simp [hne, Place.isParagraph]
  | ofAttribute tag name value =>
    have hne := @ask_ne_of_not_isText mode naming (.ofAttribute tag name value) "subtitle" rfl
      (by decide) (by decide)
    simp [hne, Place.isParagraph]
  | ofText parent content =>
    rw [ask, Option.some_inj, Place.isParagraph]
    by_cases hname : parent.name = "p"
    · -- The first two rules do not apply to paragraphs.
      have hheading : ¬ isHeadingName parent.name = true := by
        rw [hname]
        decide
      have htext : numbered "text" (naming.texts + 1) ≠ "subtitle" := numbered_ne_subtitle .text _
      rw [textKey, if_neg (Tag.not_isButton_of_paragraph hname), if_neg hheading]
      cases naming.titleTaken <;> cases naming.subtitleTaken <;> simp [hname, htext]
    · have hne : (naming.textKey parent).1 ≠ "subtitle" := by
        have hlabel : numbered "btn_label" (naming.buttons + 1) ≠ "subtitle" :=
          numbered_ne_subtitle .label _
        have htext : numbered "text" (naming.texts + 1) ≠ "subtitle" := numbered_ne_subtitle .text _
        by_cases hheading : isHeadingName parent.name = true
        · exact textKey_ne_text hheading .subtitle
        rw [textKey, if_neg hheading]
        split
        · exact hlabel
        · simp [hname, htext]
      simp [hne, hname]

end Claimed

/-! ### Histories -/

section Runs

variable {mode : ClassMode}

/-- No history has the subtitle taken before the title. -/
theorem titleTaken_of_subtitleTaken {places : List Place} {naming : Naming}
    (hstart : naming.subtitleTaken = true → naming.titleTaken = true)
    (htaken : (after mode places naming).subtitleTaken = true) :
    (after mode places naming).titleTaken = true := by
  induction places generalizing naming with
  | nil => exact hstart htaken
  | cons place rest ih =>
    refine ih ?_ htaken
    rw [subtitleTaken_ask, titleTaken_ask, Bool.or_eq_true, Bool.or_eq_true, Bool.and_eq_true]
    rintro (hsubtitle | ⟨htitle, -⟩)
    · exact Or.inl (hstart hsubtitle)
    · exact Or.inl htitle

/-- Once the title is taken, any paragraph takes the subtitle. -/
theorem subtitleTaken_after_of_titleTaken (places : List Place) {naming : Naming}
    (htitle : naming.titleTaken = true) :
    (after mode places naming).subtitleTaken =
      (naming.subtitleTaken || places.any Place.isParagraph) := by
  induction places generalizing naming with
  | nil => exact (Bool.or_false _).symm
  | cons place rest ih =>
    have htaken : (naming.ask mode place).2.titleTaken = true := by
      rw [titleTaken_ask, htitle, Bool.true_or]
    have hrest := ih htaken
    rw [subtitleTaken_ask, htitle, Bool.true_and, Bool.or_assoc] at hrest
    exact hrest

/-- The subtitle is taken by a paragraph behind the first heading. -/
theorem subtitleTaken_after_heading {front back : List Place} {heading : Place}
    (hheading : heading.isHeading = true) (hfront : front.any Place.isHeading = false) :
    (after mode (front ++ heading :: back) {}).subtitleTaken = back.any Place.isParagraph := by
  have htitle : (after mode front {}).titleTaken = false := by
    rw [titleTaken_after, hfront]
    rfl
  have hsubtitle : (after mode front {}).subtitleTaken = false := by
    rw [← Bool.not_eq_true]
    intro htaken
    have hearly := titleTaken_of_subtitleTaken (fun habsurd => by cases habsurd) htaken
    rw [htitle] at hearly
    cases hearly
  -- The heading takes the title, and from there on each paragraph counts.
  have hnext : ((after mode front {}).ask mode heading).2.titleTaken = true := by
    rw [titleTaken_ask, hheading, Bool.or_true]
  have hback := @subtitleTaken_after_of_titleTaken mode back _ hnext
  rw [subtitleTaken_ask, hsubtitle, htitle] at hback
  rw [after_append]
  exact hback

end Runs

/-! ### Answers -/

section Answers

variable {mode : ClassMode} {places : List Place}

/-- Where some of the first items have a property, one of them is the first to have it. -/
theorem exists_first_of_any_take {α : Type} {property : α → Bool} {list : List α} {index : Nat}
    (hany : (list.take index).any property = true) :
    ∃ first < index, ∃ item, list[first]? = some item ∧ property item = true ∧
      (list.take first).any property = false := by
  have hsome : ((list.take index).find? property).isSome = true := by
    rw [List.find?_isSome]
    exact List.any_eq_true.1 hany
  obtain ⟨item, hfind⟩ := Option.isSome_iff_exists.1 hsome
  obtain ⟨hitem, front, back, hsplit, hfront⟩ := List.find?_eq_some_iff_append.1 hfind
  have hget : (list.take index)[front.length]? = some item := by simp [hsplit]
  rw [List.getElem?_take] at hget
  split at hget
  · next hlt =>
    refine ⟨front.length, hlt, item, hget, hitem, ?_⟩
    have htake : (list.take index).take front.length = front := by simp [hsplit]
    rw [List.take_take, Nat.min_eq_left (Nat.le_of_lt hlt)] at htake
    rw [htake, List.any_eq_false]
    intro other hother
    simpa using hfront other hother
  · cases hget

/-- The title is the answer to the first text in a heading. -/
theorem answer_eq_title_iff (index : Nat) :
    (answers mode places {})[index]? = some (some ("title" : Text)) ↔
      ∃ place, places[index]? = some place ∧ place.isHeading = true ∧
        (places.take index).any Place.isHeading = false := by
  have htitle : (after mode (places.take index) {}).titleTaken =
      (places.take index).any Place.isHeading := titleTaken_after mode _ {}
  constructor
  · intro hanswer
    obtain ⟨place, hplace⟩ := exists_of_getElem?_answers hanswer
    rw [getElem?_answers hplace, Option.some_inj, ask_eq_title_iff, htitle] at hanswer
    exact ⟨place, hplace, hanswer⟩
  · rintro ⟨place, hplace, hfirst⟩
    rw [getElem?_answers hplace, Option.some_inj, ask_eq_title_iff, htitle]
    exact hfirst

/-- Behind a first heading, the subtitle is taken by any paragraph since. -/
theorem subtitleTaken_take {heading : Place} {first index : Nat} (hlt : first < index)
    (hplace : places[first]? = some heading) (hheading : heading.isHeading = true)
    (hfirst : (places.take first).any Place.isHeading = false) :
    (after mode (places.take index) {}).subtitleTaken =
      ((places.take index).drop (first + 1)).any Place.isParagraph := by
  obtain ⟨back, hback⟩ := take_eq_append_of_lt hplace hlt
  have hlength : (places.take first).length = first := by
    obtain ⟨hbound, -⟩ := List.getElem?_eq_some_iff.1 hplace
    rw [List.length_take, Nat.min_eq_left (Nat.le_of_lt hbound)]
  have hdrop : (places.take index).drop (first + 1) = back := by
    rw [hback, List.append_cons, List.drop_left' (by simp [hlength])]
  rw [hdrop, hback, subtitleTaken_after_heading hheading hfirst]

/-- The subtitle is the answer to the first text in a paragraph behind the title. -/
theorem answer_eq_subtitle_iff (index : Nat) :
    (answers mode places {})[index]? = some (some ("subtitle" : Text)) ↔
      ∃ place, places[index]? = some place ∧ place.isParagraph = true ∧
        ∃ first < index, (answers mode places {})[first]? = some (some ("title" : Text)) ∧
          ((places.take index).drop (first + 1)).any Place.isParagraph = false := by
  have htitle : (after mode (places.take index) {}).titleTaken =
      (places.take index).any Place.isHeading := titleTaken_after mode _ {}
  constructor
  · intro hanswer
    obtain ⟨place, hplace⟩ := exists_of_getElem?_answers hanswer
    rw [getElem?_answers hplace, Option.some_inj, ask_eq_subtitle_iff, htitle] at hanswer
    obtain ⟨hparagraph, hany, hfree⟩ := hanswer
    -- The title went to the first heading before this place.
    obtain ⟨first, hlt, heading, hheading, his, hearly⟩ := exists_first_of_any_take hany
    rw [subtitleTaken_take hlt hheading his hearly] at hfree
    exact ⟨place, hplace, hparagraph, first, hlt,
      (answer_eq_title_iff first).2 ⟨heading, hheading, his, hearly⟩, hfree⟩
  · rintro ⟨place, hplace, hparagraph, first, hlt, hfirst, hnone⟩
    obtain ⟨heading, hheading, his, hearly⟩ := (answer_eq_title_iff first).1 hfirst
    rw [getElem?_answers hplace, Option.some_inj, ask_eq_subtitle_iff, htitle,
      subtitleTaken_take hlt hheading his hearly]
    refine ⟨hparagraph, ?_, hnone⟩
    obtain ⟨back, hback⟩ := take_eq_append_of_lt hheading hlt
    simp [hback, his]

variable {first second : Nat} {place other : Place}

/-- What a place was given before another one is named stays given. -/
theorem after_take_of_lt (hfirst : places[first]? = some place) (hlt : first < second) :
    ∃ rest, after mode (places.take second) {} =
      after mode rest ((after mode (places.take first) {}).ask mode place).2 := by
  obtain ⟨rest, hsecond⟩ := take_eq_append_of_lt hfirst hlt
  refine ⟨rest, ?_⟩
  rw [hsecond, after_append]
  rfl

/-- Of two places with own keys, the later one gets another key. -/
theorem answers_ne_of_hasOwnKey (hfirst : places[first]? = some place)
    (hsecond : places[second]? = some other) (hlt : first < second) (hown : place.HasOwnKey)
    (hown' : other.HasOwnKey) :
    (answers mode places {})[first]? ≠ (answers mode places {})[second]? := by
  obtain ⟨rest, hafter⟩ := @after_take_of_lt mode _ _ _ _ hfirst hlt
  obtain ⟨own, hkey, -, hspent⟩ := exists_own_of_ask hown mode (after mode (places.take first) {})
  obtain ⟨own', hkey', hfresh, -⟩ :=
    exists_own_of_ask hown' mode (after mode (places.take second) {})
  rw [getElem?_answers hfirst, getElem?_answers hsecond, hkey, hkey']
  intro hsame
  -- The key counts as given from the first place on, and the second one asks for a new key.
  have hsame' : own = own' := OwnKey.text_injective (Option.some.inj (Option.some.inj hsame))
  rw [hafter, ← hsame'] at hfresh
  exact hfresh (@spent_after mode rest _ own hspent)

theorem answer_of_text {index : Nat} {parent : Tag} {content : Text}
    (hplace : places[index]? = some (.ofText parent content)) :
    (answers mode places {})[index]? =
      some (some ((after mode (places.take index) {}).textKey parent).1) :=
  getElem?_answers hplace {}

/-- Only texts in headings of one name share a key, and that is not the title. -/
theorem headings_of_answers_eq {parent parent' : Tag} {content content' : Text}
    (hfirst : places[first]? = some (.ofText parent content))
    (hsecond : places[second]? = some (.ofText parent' content')) (hlt : first < second)
    (hsame : (answers mode places {})[first]? = (answers mode places {})[second]?) :
    isHeadingName parent.name = true ∧ parent.name = parent'.name ∧
      (answers mode places {})[first]? ≠ some (some ("title" : Text)) := by
  have hkeys : ((after mode (places.take first) {}).textKey parent).1 =
      ((after mode (places.take second) {}).textKey parent').1 := by
    rw [answer_of_text hfirst, answer_of_text hsecond, Option.some_inj, Option.some_inj] at hsame
    exact hsame
  -- Outside headings all texts have own keys, and no text in a heading has one.
  cases hheading : isHeadingName parent.name with
  | false =>
    exfalso
    cases hheading' : isHeadingName parent'.name with
    | false => exact answers_ne_of_hasOwnKey hfirst hsecond hlt hheading hheading' hsame
    | true =>
      obtain ⟨own, hkey, -⟩ := exists_own_of_textKey parent (after mode (places.take first) {})
        hheading
      exact textKey_ne_text hheading' own (hkeys.symm.trans hkey)
  | true =>
    cases hheading' : isHeadingName parent'.name with
    | false =>
      obtain ⟨own, hkey, -⟩ := exists_own_of_textKey parent' (after mode (places.take second) {})
        hheading'
      exact absurd (hkeys.trans hkey) (textKey_ne_text hheading own)
    | true =>
      -- The title is taken at the latest by the first of the two.
      have htaken : (after mode (places.take second) {}).titleTaken = true := by
        obtain ⟨rest, hbehind⟩ := take_eq_append_of_lt hfirst hlt
        rw [titleTaken_after, hbehind]
        simp [Place.isHeading, hheading]
      rw [textKey_of_isHeadingName hheading' _, if_pos htaken] at hkeys
      refine ⟨rfl, ?_, ?_⟩
      · rw [textKey_of_isHeadingName hheading] at hkeys
        split at hkeys
        · exact List.append_cancel_left hkeys
        · exact absurd hkeys.symm (heading_ne_title parent'.name)
      · rw [answer_of_text hfirst, hkeys]
        intro htitle
        exact heading_ne_title parent'.name (Option.some.inj (Option.some.inj htitle))

/-- No two places get the subtitle. -/
theorem subtitle_unique (hlt : first < second)
    (hfirst : (answers mode places {})[first]? = some (some ("subtitle" : Text))) :
    (answers mode places {})[second]? ≠ some (some ("subtitle" : Text)) := by
  intro hsecond
  obtain ⟨place, hplace⟩ := exists_of_getElem?_answers hfirst
  obtain ⟨other, hother⟩ := exists_of_getElem?_answers hsecond
  obtain ⟨rest, hafter⟩ := @after_take_of_lt mode _ _ _ _ hplace hlt
  rw [getElem?_answers hplace, Option.some_inj, ask_eq_subtitle_iff] at hfirst
  rw [getElem?_answers hother, Option.some_inj, ask_eq_subtitle_iff, hafter] at hsecond
  obtain ⟨hparagraph, htitle, -⟩ := hfirst
  obtain ⟨-, -, hfree⟩ := hsecond
  have hspent : ((after mode (places.take first) {}).ask mode place).2.Spent .subtitle := by
    rw [Spent, subtitleTaken_ask, hparagraph, htitle]
    exact Bool.or_true _
  have htaken := @spent_after mode rest _ _ hspent
  rw [Spent, hfree] at htaken
  cases htaken

end Answers

/-- **Texts and links keep their keys to themselves.** Let class lists, texts and attributes of any
elements be named in any order, under any class mode. Two different texts have the same key only if
they are in headings of one name and neither of them is the title. The title goes to the first text
in a heading; the subtitle goes to the first text in a paragraph behind the title, and to no other,
and no history has it taken before the title. Two different link targets never have the same key, be
their elements buttons or not. -/
theorem text_keys (mode : ClassMode) (places : List Place) :
    let keys := answers mode places {}
    (∀ (first second : Nat) (parent parent' : Tag) (content content' : Text),
        places[first]? = some (.ofText parent content) →
        places[second]? = some (.ofText parent' content') → first ≠ second →
        keys[first]? = keys[second]? →
        isHeadingName parent.name = true ∧ parent.name = parent'.name ∧
          keys[first]? ≠ some (some ("title" : Text))) ∧
      (∀ index : Nat, keys[index]? = some (some ("title" : Text)) ↔
        ∃ place, places[index]? = some place ∧ place.isHeading = true ∧
          (places.take index).any Place.isHeading = false) ∧
      (∀ index : Nat, keys[index]? = some (some ("subtitle" : Text)) ↔
        ∃ place, places[index]? = some place ∧ place.isParagraph = true ∧
          ∃ first < index, keys[first]? = some (some ("title" : Text)) ∧
            ((places.take index).drop (first + 1)).any Place.isParagraph = false) ∧
      (∀ first second : Nat, keys[first]? = some (some ("subtitle" : Text)) →
        keys[second]? = some (some ("subtitle" : Text)) → first = second) ∧
      ((after mode places {}).subtitleTaken = true → (after mode places {}).titleTaken = true) ∧
      ∀ (first second : Nat) (tag tag' : Tag) (value value' : AttributeValue),
        places[first]? = some (.ofAttribute tag "href" value) →
        places[second]? = some (.ofAttribute tag' "href" value') → first ≠ second →
        tag.name = "a" → tag'.name = "a" → keys[first]? ≠ keys[second]? := by
  intro keys
  refine ⟨?_, answer_eq_title_iff, answer_eq_subtitle_iff, ?_, ?_, ?_⟩
  · intro first second parent parent' content content' hfirst hsecond hne hsame
    rcases Nat.lt_or_gt_of_ne hne with hlt | hgt
    · exact headings_of_answers_eq hfirst hsecond hlt hsame
    · obtain ⟨hheading, hname, htitle⟩ := headings_of_answers_eq hsecond hfirst hgt hsame.symm
      rw [hname] at hheading
      exact ⟨hheading, hname.symm, fun h => htitle (hsame ▸ h)⟩
  · intro first second hfirst hsecond
    by_contra hne
    rcases Nat.lt_or_gt_of_ne hne with hlt | hgt
    · exact subtitle_unique hlt hfirst hsecond
    · exact subtitle_unique hgt hsecond hfirst
  · intro htaken
    exact titleTaken_of_subtitleTaken (fun habsurd => by cases habsurd) htaken
  · intro first second tag tag' value value' hfirst hsecond hne hname hname'
    rcases Nat.lt_or_gt_of_ne hne with hlt | hgt
    · exact answers_ne_of_hasOwnKey hfirst hsecond hlt ⟨hname, rfl⟩ ⟨hname', rfl⟩
    · exact (answers_ne_of_hasOwnKey hsecond hfirst hgt ⟨hname', rfl⟩ ⟨hname, rfl⟩).symm

/-- Behind a title and a subtitle, two headings of one name share a key, and another paragraph has a
key of its own. -/
theorem text_keys_page :
    let heading : Tag := ⟨"h2", []⟩
    let paragraph : Tag := ⟨"p", []⟩
    let places : List Place := [.ofText heading "One", .ofText paragraph "Two",
      .ofText heading "Three", .ofText heading "Four", .ofText paragraph "Five"]
    let keys := answers .fixed places {}
    keys[0]? = some (some ("title" : Text)) ∧ keys[1]? = some (some ("subtitle" : Text)) ∧
      keys[2]? = keys[3]? ∧ keys[2]? ≠ some (some ("title" : Text)) ∧
      keys[4]? ≠ some (some ("subtitle" : Text)) := by
  intro heading paragraph places keys
  obtain ⟨hshared, htitle, hsubtitle, honce, -⟩ := text_keys .fixed places
  have hfirst : keys[0]? = some (some ("title" : Text)) := by
    rw [htitle]
    exact ⟨.ofText heading "One", rfl, by decide, by decide⟩
  have hsecond : keys[1]? = some (some ("subtitle" : Text)) := by
    rw [hsubtitle]
    exact ⟨.ofText paragraph "Two", rfl, by decide, 0, by decide, hfirst, by decide⟩
  have hsame : keys[2]? = keys[3]? := by decide +kernel
  refine ⟨hfirst, hsecond, hsame, ?_, ?_⟩
  · exact (hshared 2 3 heading heading "Three" "Four" rfl rfl (by decide) hsame).2.2
  · intro hlater
    exact absurd (honce 1 4 hsecond hlater) (by decide)

end Naming

end Stencil
