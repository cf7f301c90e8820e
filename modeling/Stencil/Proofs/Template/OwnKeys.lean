import Stencil.Proofs.Template.Switches
import Stencil.Proofs.Text.Numeral

/-!
# Keys that are never given twice

Button labels, other texts and link targets are numbered, each with a counter that only goes up, and
the subtitle is claimed once. These are the own keys (`OwnKey`). The keys of all other places are
told from them by how they are spelled: class keys hold a `c`, keys of other attributes end in the
name of the attribute, and the keys of headings start as no own key does.

So a place that gets an own key gets one that was not given before, and that counts as given from
there on (`Naming.spent_ask`). In a list of places no key is therefore the own key of two of them
(`Naming.exists_keys_eq`).
-/

set_option autoImplicit false

namespace Stencil

theorem numbered_injective {base : Text} {m n : Int} (h : numbered base m = numbered base n) :
    m = n := by
  -- The bare base is shorter than the base with a number behind it.
  have hlonger : ∀ k : Int, base ≠ base ++ ("_" : Text) ++ intNumeral k := by
    intro k hsame
    have hlength := congrArg List.length hsame
    rw [List.length_append, List.length_append] at hlength
    have hdash : ("_" : Text).length = 1 := rfl
    omega
  rw [numbered, numbered] at h
  by_cases hm : m = 1
  · by_cases hn : n = 1
    · rw [hm, hn]
    · rw [if_pos hm, if_neg hn] at h
      exact absurd h (hlonger n)
  · by_cases hn : n = 1
    · rw [if_neg hm, if_pos hn] at h
      exact absurd h.symm (hlonger m)
    · rw [if_neg hm, if_neg hn] at h
      exact intNumeral_injective (List.append_cancel_left h)

theorem prefix_numbered (base : Text) (n : Int) : base <+: numbered base n := by
  rw [numbered]
  split
  · exact List.prefix_refl base
  · rw [List.append_assoc]
    exact List.prefix_append base _

/-! ## Own keys -/

/-- The keys that are numbered one after another, the class lists apart. -/
inductive Series where
  | label
  | text
  | buttonUrl
  | linkUrl
  deriving DecidableEq, Repr

namespace Series

/-- The first key of a series. -/
def base : Series → Text
  | label => "btn_label"
  | text => "text"
  | buttonUrl => "btn_url"
  | linkUrl => "link_url"

/-- The last number given in a series; links of both kinds are counted together. -/
def count (naming : Naming) : Series → Int
  | label => naming.buttons
  | text => naming.texts
  | buttonUrl => naming.links
  | linkUrl => naming.links

theorem eq_of_prefix_base {first second : Series} (h : first.base <+: second.base) :
    first = second := by
  revert h
  cases first <;> cases second <;> decide

theorem eq_of_numbered_eq {first second : Series} {m n : Int}
    (h : numbered first.base m = numbered second.base n) : first = second ∧ m = n := by
  have hfirst : first.base <+: numbered second.base n := h ▸ prefix_numbered first.base m
  have hsame : first = second := by
    rcases List.prefix_or_prefix_of_prefix hfirst (prefix_numbered second.base n) with hle | hge
    · exact eq_of_prefix_base hle
    · exact (eq_of_prefix_base hge).symm
  subst hsame
  exact ⟨rfl, numbered_injective h⟩

end Series

/-- A key that no two places share. -/
inductive OwnKey where
  | subtitle
  | member (series : Series) (number : Int)
  deriving DecidableEq, Repr

namespace OwnKey

/-- The key itself. -/
def text : OwnKey → Text
  | subtitle => "subtitle"
  | member series number => numbered series.base number

/-- What an own key starts with. -/
def starts : List Text :=
  ["subtitle", "btn_label", "text", "btn_url", "link_url"]

theorem base_mem_starts (series : Series) : series.base ∈ starts := by
  cases series <;> decide

theorem exists_start (own : OwnKey) : ∃ start ∈ starts, start <+: own.text := by
  cases own with
  | subtitle => exact ⟨"subtitle", by decide, List.prefix_refl _⟩
  | member series number => exact ⟨series.base, base_mem_starts series, prefix_numbered _ _⟩

/-- A text that starts otherwise is no own key. -/
theorem not_prefix_text {pattern : Text}
    (h : ∀ start ∈ starts, ¬ start <+: pattern ∧ ¬ pattern <+: start) (own : OwnKey) :
    ¬ pattern <+: own.text := by
  intro hpattern
  obtain ⟨start, hmem, hstart⟩ := exists_start own
  rcases List.prefix_or_prefix_of_prefix hstart hpattern with hle | hge
  · exact (h start hmem).1 hle
  · exact (h start hmem).2 hge

theorem text_injective {first second : OwnKey} (h : first.text = second.text) :
    first = second := by
  have hsubtitle : ∀ series number, text (member series number) ≠ "subtitle" := by
    intro series number hsame
    have hbase : series.base <+: ("subtitle" : Text) := hsame ▸ prefix_numbered _ _
    revert hbase
    cases series <;> decide
  cases first with
  | subtitle =>
    cases second with
    | subtitle => rfl
    | member series number => exact absurd h.symm (hsubtitle series number)
  | member series number =>
    cases second with
    | subtitle => exact absurd h (hsubtitle series number)
    | member other later =>
      obtain ⟨rfl, rfl⟩ := Series.eq_of_numbered_eq h
      rfl

/-- A text that ends otherwise than the bare keys, and not in a digit, is no own key. -/
theorem not_suffix_text {ending : Text} (hstarts : ∀ start ∈ starts, ¬ ending <:+ start)
    (hlast : ∃ c ∈ ending.getLast?, c.isAsciiDigit = false) (own : OwnKey) :
    ¬ ending <:+ own.text := by
  intro hending
  cases own with
  | subtitle => exact hstarts "subtitle" (by decide) hending
  | member series number =>
    rw [text, numbered] at hending
    split at hending
    · exact hstarts series.base (base_mem_starts series) hending
    · -- Both end in the last code point of the numeral.
      obtain ⟨c, hc, hnot⟩ := hlast
      obtain ⟨d, hd, hdigit⟩ := isAsciiDigit_getLast?_intNumeral number
      obtain ⟨front, hfront⟩ := hending
      have hsame := congrArg List.getLast? hfront
      rw [List.getLast?_append, List.getLast?_append, hc, hd, Option.some_or, Option.some_or,
        Option.some_inj] at hsame
      rw [← hsame, hnot] at hdigit
      cases hdigit

theorem not_mem_text (own : OwnKey) : .scalar 'c' ∉ own.text := by
  cases own with
  | subtitle => decide
  | member series number =>
    have hbase : .scalar 'c' ∉ series.base := by
      cases series <;> decide
    have hnumeral : .scalar 'c' ∉ intNumeral number := by
      intro hmem
      rcases mem_intNumeral hmem with hsign | hdigit
      · exact absurd hsign (by decide)
      · exact absurd hdigit (by decide)
    rw [text, numbered]
    split
    · exact hbase
    · simp only [List.mem_append, not_or]
      exact ⟨⟨hbase, by decide⟩, hnumeral⟩

end OwnKey

/-! ## The keys of other places -/

theorem Tag.name_of_isButton {tag : Tag} (hbutton : tag.isButton = true) : tag.name = "a" := by
  rw [isButton, Bool.and_eq_true, decide_eq_true_eq] at hbutton
  exact hbutton.1

/-- Buttons are anchors, so none of them is a heading. -/
theorem Tag.not_isButton_of_isHeadingName {tag : Tag} (h : isHeadingName tag.name = true) :
    ¬ tag.isButton = true := by
  intro hbutton
  rw [name_of_isButton hbutton] at h
  exact absurd h (by decide)

/-- Attributes as the default options have them. -/
def Place.Expected : Place → Prop
  | .ofClass _ _ => True
  | .ofAttribute _ name _ => name ∈ defaultEditable
  | .ofText _ _ => True

/-- Where no other attributes are editable than by default, all places are as expected. -/
theorem Node.expected_of_mem_placesOf {options : Options} {tree : List Node}
    (hattributes : ∀ name ∈ options.editable, name ∈ defaultEditable) :
    ∀ place ∈ placesOf options none tree, place.Expected := by
  refine forall_placesOf tree ?_ ?_
  · intro tag _ place hplace
    rcases List.mem_append.1 hplace with hclass | hother
    · obtain ⟨content, rfl, -⟩ := Tag.eq_of_mem_classPlaces hclass
      trivial
    · obtain ⟨name, value, rfl, -⟩ := Tag.eq_of_mem_attributePlaces hother
      exact hattributes name (Tag.editable_of_mem_attributePlaces hother)
  · intro content _ parent place hplace
    obtain ⟨tag, rfl, -⟩ := eq_of_mem_textPlaces hplace
    trivial

/-- Whether a place gets an own key: a text outside headings, or the target of a link. -/
def Place.HasOwnKey : Place → Prop
  | .ofClass _ _ => False
  | .ofAttribute tag name _ => tag.name = "a" ∧ name = "href"
  | .ofText parent _ => isHeadingName parent.name = false

namespace Naming

theorem mem_classKey {mode : ClassMode} {tag : Tag} {naming : Naming} {key : Text}
    (h : (naming.classKey mode tag).1 = some key) : .scalar 'c' ∈ key := by
  have hclasses : ∀ name : Text, .scalar 'c' ∈ name ++ ("_classes" : Text) :=
    fun name => List.mem_append_right name (by decide)
  unfold classKey at h
  split at h
  · cases h
  split at h
  · cases h
    decide
  split at h
  · cases h
    decide
  split at h
  · cases h
    split
    · decide
    · exact List.mem_append_left _ (by decide)
  · cases h
    exact (prefix_numbered _ _).subset (hclasses tag.name)

theorem attributeKey_ne_text {tag : Tag} {name : Text} {naming : Naming}
    (hname : name ∈ defaultEditable) (hother : ¬ (tag.name = "a" ∧ name = "href")) (own : OwnKey) :
    (naming.attributeKey tag name).1 ≠ own.text := by
  have hendings : ∀ name ∈ defaultEditable,
      (∀ start ∈ OwnKey.starts, ¬ (("_" : Text) ++ name) <:+ start) ∧
        ∃ c ∈ (("_" : Text) ++ name).getLast?, c.isAsciiDigit = false := by
    decide +kernel
  rw [attributeKey, if_neg (by simpa using hother)]
  intro hsame
  obtain ⟨hstarts, hlast⟩ := hendings name hname
  refine OwnKey.not_suffix_text hstarts hlast own ?_
  rw [← hsame, List.append_assoc]
  exact List.suffix_append tag.name _

theorem textKey_of_isHeadingName {tag : Tag} (hheading : isHeadingName tag.name = true)
    (naming : Naming) :
    (naming.textKey tag).1 =
      if naming.titleTaken then ("heading_" : Text) ++ tag.name else "title" := by
  rw [textKey, if_neg (Tag.not_isButton_of_isHeadingName hheading), if_pos hheading]
  split
  · rfl
  · rfl

theorem textKey_ne_text {tag : Tag} {naming : Naming} (hheading : isHeadingName tag.name = true)
    (own : OwnKey) : (naming.textKey tag).1 ≠ own.text := by
  have hstart : ∀ {pattern : Text}, (pattern = "heading_" ∨ pattern = "title") →
      ¬ pattern <+: own.text := by
    rintro pattern (rfl | rfl)
    · exact OwnKey.not_prefix_text (by decide) own
    · exact OwnKey.not_prefix_text (by decide) own
  rw [textKey_of_isHeadingName hheading]
  intro hsame
  split at hsame
  · exact hstart (Or.inl rfl) (hsame ▸ List.prefix_append _ tag.name)
  · exact hstart (Or.inr rfl) (hsame ▸ List.prefix_refl _)

theorem ask_ne_text {mode : ClassMode} {place : Place} {naming : Naming}
    (hexpected : place.Expected) (hother : ¬ place.HasOwnKey) (own : OwnKey) :
    (naming.ask mode place).1 ≠ some own.text := by
  cases place with
  | ofClass tag content => exact fun hkey => own.not_mem_text (mem_classKey hkey)
  | ofAttribute tag name value =>
    exact fun hkey => attributeKey_ne_text hexpected hother own (Option.some.inj hkey)
  | ofText parent content =>
    have hheading : isHeadingName parent.name = true := Bool.not_eq_false _ ▸ hother
    exact fun hkey => textKey_ne_text hheading own (Option.some.inj hkey)

/-! ## Own keys are given once -/

/-- Whether an own key counts as given. -/
def Spent (naming : Naming) : OwnKey → Prop
  | .subtitle => naming.subtitleTaken = true
  | .member series number => number ≤ series.count naming

theorem exists_own_of_attributeKey (tag : Tag) (naming : Naming) (hname : tag.name = "a") :
    ∃ own : OwnKey, (naming.attributeKey tag "href").1 = own.text ∧ ¬ naming.Spent own ∧
      (naming.attributeKey tag "href").2.Spent own := by
  rw [attributeKey, if_pos (by simp [hname])]
  by_cases hbutton : tag.isButton = true
  · rw [if_pos hbutton]
    exact ⟨.member .buttonUrl (naming.links + 1), rfl, Int.not_le.2 (Int.lt_succ _), Int.le_refl _⟩
  · rw [if_neg hbutton]
    exact ⟨.member .linkUrl (naming.links + 1), rfl, Int.not_le.2 (Int.lt_succ _), Int.le_refl _⟩

theorem exists_own_of_textKey (tag : Tag) (naming : Naming)
    (hheading : isHeadingName tag.name = false) :
    ∃ own : OwnKey, (naming.textKey tag).1 = own.text ∧ ¬ naming.Spent own ∧
      (naming.textKey tag).2.Spent own := by
  rw [textKey, hheading]
  by_cases hbutton : tag.isButton = true
  · rw [if_pos hbutton]
    exact ⟨.member .label (naming.buttons + 1), rfl, Int.not_le.2 (Int.lt_succ _), Int.le_refl _⟩
  rw [if_neg hbutton, if_neg Bool.false_ne_true]
  split
  · next hfree =>
    simp only [Bool.and_eq_true, Bool.not_eq_true'] at hfree
    exact ⟨.subtitle, rfl, by simp [Spent, hfree.2], rfl⟩
  · exact ⟨.member .text (naming.texts + 1), rfl, Int.not_le.2 (Int.lt_succ _), Int.le_refl _⟩

/-- A place with an own key gets one that was not given before, and that is given then. -/
theorem exists_own_of_ask {place : Place} (hown : place.HasOwnKey) (mode : ClassMode)
    (naming : Naming) : ∃ own : OwnKey, (naming.ask mode place).1 = some own.text ∧
      ¬ naming.Spent own ∧ (naming.ask mode place).2.Spent own := by
  cases place with
  | ofClass tag content => cases hown
  | ofAttribute tag name value =>
    obtain ⟨hname, rfl⟩ := hown
    obtain ⟨own, hkey, hspent⟩ := exists_own_of_attributeKey tag naming hname
    exact ⟨own, congrArg some hkey, hspent⟩
  | ofText parent content =>
    obtain ⟨own, hkey, hspent⟩ := exists_own_of_textKey parent naming hown
    exact ⟨own, congrArg some hkey, hspent⟩

/-- Whether all that was given in a history is given in another. -/
structure Grows (naming next : Naming) : Prop where
  subtitle : naming.subtitleTaken = true → next.subtitleTaken = true
  buttons : naming.buttons ≤ next.buttons
  texts : naming.texts ≤ next.texts
  links : naming.links ≤ next.links

theorem Spent.grows {naming next : Naming} {own : OwnKey} (h : naming.Spent own)
    (hgrows : Grows naming next) : next.Spent own := by
  cases own with
  | subtitle => exact hgrows.subtitle h
  | member series number =>
    refine Int.le_trans h ?_
    cases series with
    | label => exact hgrows.buttons
    | text => exact hgrows.texts
    | buttonUrl => exact hgrows.links
    | linkUrl => exact hgrows.links

theorem Grows.of_textPart {naming next : Naming} (htexts : next.textPart = naming.textPart)
    (hlinks : naming.links ≤ next.links) : Grows naming next := by
  simp only [textPart, Prod.mk.injEq] at htexts
  obtain ⟨-, hsubtitle, hbuttons, htexts⟩ := htexts
  exact ⟨fun htaken => hsubtitle.trans htaken, Int.le_of_eq hbuttons.symm,
    Int.le_of_eq htexts.symm, hlinks⟩

theorem grows_attributeKey (tag : Tag) (name : Text) (naming : Naming) :
    Grows naming (naming.attributeKey tag name).2 := by
  apply Grows.of_textPart (textPart_attributeKey tag name naming)
  unfold attributeKey
  split
  · exact Int.le_of_lt (Int.lt_succ _)
  · exact Int.le_refl _

theorem grows_textKey (tag : Tag) (naming : Naming) : Grows naming (naming.textKey tag).2 := by
  have hnext : ∀ n : Int, n ≤ n + 1 := fun n => Int.le_of_lt (Int.lt_succ n)
  unfold textKey
  split
  · exact ⟨id, hnext _, Int.le_refl _, Int.le_refl _⟩
  split
  · split
    · exact ⟨id, Int.le_refl _, Int.le_refl _, Int.le_refl _⟩
    · exact ⟨id, Int.le_refl _, Int.le_refl _, Int.le_refl _⟩
  split
  · exact ⟨fun _ => rfl, Int.le_refl _, Int.le_refl _, Int.le_refl _⟩
  · exact ⟨id, Int.le_refl _, hnext _, Int.le_refl _⟩

/-- What was given stays so. -/
theorem grows_ask (mode : ClassMode) (place : Place) (naming : Naming) :
    Grows naming (naming.ask mode place).2 := by
  cases place with
  | ofClass tag content =>
    exact Grows.of_textPart (textPart_classKey mode tag naming)
      (Int.le_of_eq (links_classKey mode tag naming).symm)
  | ofAttribute tag name value => exact grows_attributeKey tag name naming
  | ofText parent content => exact grows_textKey parent naming

/-- An own key that a place gets was not given before, and is given then. -/
theorem spent_ask {mode : ClassMode} {place : Place} {naming : Naming} {own : OwnKey}
    (hexpected : place.Expected) (hkey : (naming.ask mode place).1 = some own.text) :
    ¬ naming.Spent own ∧ (naming.ask mode place).2.Spent own := by
  by_cases hown : place.HasOwnKey
  · obtain ⟨other, hother, hspent⟩ := exists_own_of_ask hown mode naming
    rw [hkey, Option.some_inj] at hother
    rw [OwnKey.text_injective hother]
    exact hspent
  · exact absurd hkey (ask_ne_text hexpected hown own)

/-! ### Lists of places -/

variable {mode : ClassMode} {places : List Place} {naming : Naming} {own : OwnKey}

theorem spent_after (hspent : naming.Spent own) : (after mode places naming).Spent own := by
  induction places generalizing naming with
  | nil => exact hspent
  | cons place rest ih => exact ih (hspent.grows (grows_ask mode place naming))

/-- An own key that was given before a list of places is none of their keys. -/
theorem not_mem_keys_of_spent (hexpected : ∀ place ∈ places, place.Expected)
    (hspent : naming.Spent own) : own.text ∉ keys mode places naming := by
  induction places generalizing naming with
  | nil => exact List.not_mem_nil
  | cons place rest ih =>
    rw [keys, List.mem_append, not_or]
    constructor
    · intro hkey
      exact (spent_ask (hexpected place List.mem_cons_self) (Option.mem_toList.1 hkey)).1 hspent
    · exact ih (fun other hother => hexpected other (List.mem_cons_of_mem place hother))
        (hspent.grows (grows_ask mode place naming))

/-- An own key among the keys of a list of places is given behind them. -/
theorem spent_after_of_mem_keys (hexpected : ∀ place ∈ places, place.Expected)
    (hkey : own.text ∈ keys mode places naming) : (after mode places naming).Spent own := by
  induction places generalizing naming with
  | nil => cases hkey
  | cons place rest ih =>
    rw [keys] at hkey
    rcases List.mem_append.1 hkey with hfirst | hrest
    · -- The first place gives it, and the later ones take nothing back.
      exact @spent_after mode rest _ own
        (spent_ask (hexpected place List.mem_cons_self) (Option.mem_toList.1 hfirst)).2
    · exact ih (fun other hother => hexpected other (List.mem_cons_of_mem place hother)) hrest

/-- The own key of a place is a key neither of the places before it nor of those behind it. -/
theorem exists_keys_eq {before later : List Place} {place : Place}
    (hexpected : ∀ other ∈ before ++ place :: later, other.Expected) (hown : place.HasOwnKey)
    (mode : ClassMode) (naming : Naming) :
    ∃ key next, (after mode before naming).ask mode place = (some key, next) ∧
      keys mode (before ++ place :: later) naming =
        keys mode before naming ++ key :: keys mode later next ∧
      key ∉ keys mode before naming ∧ key ∉ keys mode later next := by
  have hbefore : ∀ other ∈ before, other.Expected :=
    fun other hother => hexpected other (List.mem_append_left _ hother)
  have hlater : ∀ other ∈ later, other.Expected := fun other hother =>
    hexpected other (List.mem_append_right _ (List.mem_cons_of_mem place hother))
  obtain ⟨own, hkey, hfresh, hspent⟩ := exists_own_of_ask hown mode (after mode before naming)
  refine ⟨own.text, ((after mode before naming).ask mode place).2, ?_, ?_, ?_, ?_⟩
  · rw [← hkey]
  · rw [keys_append, keys, hkey]
    rfl
  · exact fun hmem => hfresh (spent_after_of_mem_keys hbefore hmem)
  · exact not_mem_keys_of_spent hlater hspent

end Naming

end Stencil
