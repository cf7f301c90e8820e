import Mathlib.Data.List.Induction
import Stencil.Proofs.Markup.Mention
import Stencil.Proofs.Text.Pieces

/-!
# The grammar of attributes

Attributes are written one after another with blanks between them. Each is a name, on its own or
with an equals sign and a value; the value stands between double quotes, between single quotes, or
bare (`Attributes.Spelled`). Whatever is written so is read to the end, item by item
(`Attributes.readMentions_of_spelled`): no name takes the value of a later one, and no value takes
a part of its neighbours.

The attributes that are read have the names in the order in which they first come up, each with its
last value (`Attributes.read_of_spelled`).
-/

set_option autoImplicit false

namespace Stencil

/-- The characters of values without quotes are all but the blanks and six others. -/
theorem CodePoint.isPlainValue_iff {c : CodePoint} :
    c.isPlainValue = true ↔ c.isBlank = false ∧ c ∉ ("\"'\x60=<>" : Text) := by
  simp [CodePoint.isPlainValue, Text.ofString, not_or, and_assoc]

namespace Attributes

/-! ## The grammar -/

/-- How a name may be written. -/
def SpelledName (name : Text) : Prop :=
  name ≠ [] ∧ ∀ c ∈ name, c.isAsciiAlphanumeric = true ∨ c ∈ (":@_-" : Text)

/-- How a value may be written, with the value itself. -/
inductive SpelledValue : Text → Text → Prop where
  | double {value : Text} : .scalar '"' ∉ value →
      SpelledValue (.scalar '"' :: (value ++ ("\"" : Text))) value
  | single {value : Text} : .scalar '\'' ∉ value →
      SpelledValue (.scalar '\'' :: (value ++ ("'" : Text))) value
  | bare {value : Text} : value ≠ [] →
      (∀ c ∈ value, c.isBlank = false ∧ c ∉ ("\"'\x60=<>" : Text)) → SpelledValue value value

/-- How an attribute may be written, with what it says. -/
inductive SpelledItem : Text → Text × AttributeValue → Prop where
  | alone {name : Text} : SpelledName name → SpelledItem name (name, .flag true)
  | assigned {name before after spelling value : Text} : SpelledName name →
      (∀ c ∈ before, c.isBlank = true) → (∀ c ∈ after, c.isBlank = true) →
      SpelledValue spelling value →
      SpelledItem (name ++ before ++ ("=" : Text) ++ after ++ spelling) (name, .text value)

/-- How a list of attributes may be written: the items in order, with at least one blank between
two of them. -/
inductive Spelled : Text → List (Text × AttributeValue) → Prop where
  | none : Spelled [] []
  | last {item : Text} {mention : Text × AttributeValue} :
      SpelledItem item mention → Spelled item [mention]
  | more {item gap rest : Text} {mention : Text × AttributeValue}
      {mentions : List (Text × AttributeValue)} : SpelledItem item mention →
      gap ≠ [] → (∀ c ∈ gap, c.isBlank = true) → Spelled rest mentions →
      Spelled (item ++ gap ++ rest) (mention :: mentions)

theorem SpelledName.legible {name : Text} (h : SpelledName name) : LegibleName name :=
  ⟨h.1, fun c hc => CodePoint.isAttributeName_iff.2 (h.2 c hc)⟩

/-! ## Reading one item -/

/-- A value is read to its end in front of a blank or of nothing. -/
theorem readBareValue?_append {spelling value tail : Text} (h : SpelledValue spelling value)
    (htail : ∀ c ∈ tail.head?, c.isBlank = true) :
    readBareValue? (spelling ++ tail) = some (value, tail) := by
  cases h with
  | double hvalue =>
    have hquoted := readQuoted?_append hvalue tail
    rw [List.cons_append, List.append_assoc, readBareValue?, if_pos (Or.inl rfl)]
    exact hquoted
  | single hvalue =>
    have hquoted := readQuoted?_append hvalue tail
    rw [List.cons_append, List.append_assoc, readBareValue?, if_pos (Or.inr rfl)]
    exact hquoted
  | bare hne hplain =>
    -- A bare value ends where the blanks start, for none of its own characters is one.
    have hstop : ∀ c ∈ tail.head?, c.isPlainValue = false := by
      intro c hc
      simp [CodePoint.isPlainValue, htail c hc]
    cases spelling with
    | nil => exact absurd rfl hne
    | cons c rest =>
      have hc := hplain c List.mem_cons_self
      have hplain_c : c.isPlainValue = true := CodePoint.isPlainValue_iff.2 hc
      have hrest : ∀ d ∈ rest, d.isPlainValue = true :=
        fun d hd => CodePoint.isPlainValue_iff.2 (hplain d (List.mem_cons_of_mem c hd))
      have hunquoted : ¬ (c = .scalar '"' ∨ c = .scalar '\'') := by
        rintro (rfl | rfl)
        · exact hc.2 (by decide)
        · exact hc.2 (by decide)
      rw [List.cons_append, readBareValue?, if_neg hunquoted, if_pos hplain_c,
        Text.takeWhile_append_of_stop hrest hstop, Text.dropWhile_append_of_stop hrest hstop]

theorem head?_append_of_spelledValue {spelling value : Text} (h : SpelledValue spelling value)
    (tail : Text) : ∀ c ∈ (spelling ++ tail).head?, c.isBlank = false := by
  intro c hc
  cases h with
  | double hvalue =>
    cases hc
    decide
  | single hvalue =>
    cases hc
    decide
  | bare hne hplain =>
    cases spelling with
    | nil => exact absurd rfl hne
    | cons d rest =>
      cases hc
      exact (hplain c List.mem_cons_self).1

/-- The value behind an equals sign, whatever blanks stand around the sign. -/
theorem readValue?_append {before after spelling value tail : Text}
    (hbefore : ∀ c ∈ before, c.isBlank = true) (hafter : ∀ c ∈ after, c.isBlank = true)
    (hvalue : SpelledValue spelling value) (htail : ∀ c ∈ tail.head?, c.isBlank = true) :
    readValue? (before ++ .scalar '=' :: (after ++ (spelling ++ tail))) = some (value, tail) := by
  have hsign : Text.trimStart (before ++ .scalar '=' :: (after ++ (spelling ++ tail))) =
      .scalar '=' :: (after ++ (spelling ++ tail)) := by
    refine Text.trimStart_eq_of_between hbefore ?_
    rintro c ⟨⟩
    decide
  rw [readValue?, hsign]
  dsimp only
  rw [if_pos rfl, Text.trimStart_eq_of_between hafter (head?_append_of_spelledValue hvalue tail),
    readBareValue?_append hvalue htail]

/-- An item is read to its end in front of blanks behind which no value follows. -/
theorem readMentions_item_append {item tail : Text} {mention : Text × AttributeValue}
    (hitem : SpelledItem item mention) (htail : ∀ c ∈ tail.head?, c.isBlank = true)
    (hnone : readValue? tail = none) :
    readMentions (item ++ tail) = mention :: readMentions tail := by
  cases hitem with
  | alone hname =>
    have hstop : ∀ c ∈ tail.head?, c.isAttributeName = false := by
      intro c hc
      exact not_isAttributeName_of_isBlank (htail c hc)
    rw [readMentions_name_append hname.legible hstop, hnone]
  | @assigned name before after spelling value hname hbefore hafter hvalue =>
    have hsplit : name ++ before ++ ("=" : Text) ++ after ++ spelling ++ tail =
        name ++ (before ++ .scalar '=' :: (after ++ (spelling ++ tail))) := by
      simp only [List.append_assoc]
      rfl
    have hstop : ∀ c ∈ (before ++ .scalar '=' :: (after ++ (spelling ++ tail))).head?,
        c.isAttributeName = false := by
      intro c hc
      cases before with
      | nil =>
        cases hc
        decide
      | cons d rest =>
        cases hc
        exact not_isAttributeName_of_isBlank (hbefore c List.mem_cons_self)
    rw [hsplit, readMentions_name_append hname.legible hstop,
      readValue?_append hbefore hafter hvalue htail]

/-! ## Reading all of them -/

theorem SpelledName.exists_cons {name : Text} (h : SpelledName name) :
    ∃ c rest, name = c :: rest ∧ c.isAttributeName = true := by
  cases name with
  | nil => exact absurd rfl h.1
  | cons c rest => exact ⟨c, rest, rfl, h.legible.2 c List.mem_cons_self⟩

theorem SpelledItem.exists_cons {item : Text} {mention : Text × AttributeValue}
    (h : SpelledItem item mention) : ∃ c rest, item = c :: rest ∧ c.isAttributeName = true := by
  cases h with
  | alone hname => exact hname.exists_cons
  | assigned hname hbefore hafter hvalue =>
    obtain ⟨c, rest, rfl, hc⟩ := hname.exists_cons
    exact ⟨c, _, rfl, hc⟩

/-- What is written starts with a name. -/
theorem isAttributeName_head?_of_spelled {text : Text} {mentions : List (Text × AttributeValue)}
    (h : Spelled text mentions) : ∀ c ∈ text.head?, c.isAttributeName = true := by
  intro c hc
  cases h with
  | none => cases hc
  | last hitem =>
    obtain ⟨d, tail, rfl, hd⟩ := hitem.exists_cons
    cases hc
    exact hd
  | more hitem hgap hblank hrest =>
    obtain ⟨d, tail, rfl, hd⟩ := hitem.exists_cons
    cases hc
    exact hd

/-- No value stands in front of the next item, for a name does not start with an equals sign. -/
theorem readValue?_gap_append {gap rest : Text} {mentions : List (Text × AttributeValue)}
    (hblank : ∀ c ∈ gap, c.isBlank = true) (hrest : Spelled rest mentions) :
    readValue? (gap ++ rest) = none := by
  have hname := isAttributeName_head?_of_spelled hrest
  have hstart : Text.trimStart (gap ++ rest) = rest :=
    Text.trimStart_eq_of_between hblank
      fun c hc => not_isBlank_of_isAttributeName (hname c hc)
  rw [readValue?, hstart]
  cases rest with
  | nil => rfl
  | cons c tail =>
    dsimp only
    rw [if_neg]
    rintro rfl
    exact absurd (hname _ rfl) (by decide)

/-- The mentions that are read are those that are written. -/
theorem readMentions_of_spelled {text : Text} {mentions : List (Text × AttributeValue)}
    (h : Spelled text mentions) : readMentions text = mentions := by
  induction h with
  | none => rw [readMentions]
  | @last item mention hitem =>
    have hread := @readMentions_item_append _ [] _ hitem (by simp) rfl
    rw [List.append_nil, readMentions] at hread
    exact hread
  | @more item gap rest mention mentions hitem hgap hblank hrest ih =>
    -- The gap ends the item, and the next name behind it is no value of this one.
    have hhead : ∀ c ∈ (gap ++ rest).head?, c.isBlank = true := by
      intro c hc
      cases gap with
      | nil => exact absurd rfl hgap
      | cons d tail =>
        cases hc
        exact hblank c List.mem_cons_self
    rw [List.append_assoc,
      readMentions_item_append hitem hhead (readValue?_gap_append hblank hrest),
      readMentions_blank_append hblank, ih]

/-! ## The attributes that mentions leave behind -/

theorem ofMentions_concat (mentions : List (Text × AttributeValue))
    (mention : Text × AttributeValue) :
    ofMentions (mentions ++ [mention]) = set mention.1 mention.2 (ofMentions mentions) := by
  rw [ofMentions, List.foldl_append]
  rfl

/-- A name stands where it is first mentioned. -/
theorem map_fst_ofMentions (mentions : List (Text × AttributeValue)) :
    (ofMentions mentions).map Prod.fst = (mentions.map Prod.fst).eraseDups := by
  induction mentions using List.reverseRecOn with
  | nil => rfl
  | append_singleton mentions mention ih =>
    rw [ofMentions_concat, map_fst_set, ih, List.map_append, List.map_singleton,
      Text.eraseDups_concat]
    exact if_congr List.mem_eraseDups rfl rfl

theorem value?_set (name other : Text) (value : AttributeValue) (attributes : Attributes) :
    value? other (set name value attributes) =
      if name = other then some value else value? other attributes := by
  induction attributes with
  | nil => rfl
  | cons head rest ih =>
    obtain ⟨known, old⟩ := head
    rw [set]
    by_cases hsame : known = name
    · subst hsame
      rw [if_pos rfl, value?, value?]
      split
      · rfl
      · rfl
    · rw [if_neg hsame, value?, value?, ih]
      by_cases hother : known = other
      · subst hother
        rw [if_pos rfl, if_pos rfl, if_neg (Ne.symm hsame)]
      · rw [if_neg hother, if_neg hother]

/-- A name has the value of its last mention. -/
theorem value?_ofMentions (name : Text) (mentions : List (Text × AttributeValue)) :
    value? name (ofMentions mentions) =
      (mentions.reverse.find? (·.1 = name)).map Prod.snd := by
  induction mentions using List.reverseRecOn with
  | nil => rfl
  | append_singleton mentions mention ih =>
    rw [ofMentions_concat, value?_set, ih, List.reverse_concat, List.find?_cons]
    by_cases hsame : mention.1 = name
    · rw [if_pos hsame, decide_eq_true hsame]
      rfl
    · rw [if_neg hsame, decide_eq_false hsame]

/-- **The whole grammar of attributes is read.** Attributes that are written one after another, each
in any of its forms, are read as they are mentioned: the names in the order in which they first come
up, each with the value of its last mention. -/
theorem read_of_spelled {text : Text} {mentions : List (Text × AttributeValue)}
    (h : Spelled text mentions) :
    read text = ofMentions mentions ∧
      (read text).map Prod.fst = (mentions.map Prod.fst).eraseDups ∧
      ∀ name, value? name (read text) =
        (mentions.reverse.find? (·.1 = name)).map Prod.snd := by
  have hread : read text = ofMentions mentions := by
    rw [read, readMentions_of_spelled h]
  refine ⟨hread, ?_, ?_⟩
  · rw [hread, map_fst_ofMentions]
  · intro name
    rw [hread, value?_ofMentions]

/-- A value that holds an equals sign and the other kind of quote, a flag, a sign between blanks and
a name that comes up twice. -/
theorem read_of_spelled_link :
    let text : Text := "href='a=\"b\"' hidden\n@x = y/z  href=\"\""
    let mentions : List (Text × AttributeValue) :=
      [("href", .text "a=\"b\""), ("hidden", .flag true), ("@x", .text "y/z"), ("href", .text "")]
    let attributes : Attributes :=
      [("href", .text ""), ("hidden", .flag true), ("@x", .text "y/z")]
    Spelled text mentions ∧ read text = attributes := by
  intro text mentions attributes
  have hhref : SpelledName "href" := ⟨by decide, by decide⟩
  have hhidden : SpelledName "hidden" := ⟨by decide, by decide⟩
  have hat : SpelledName "@x" := ⟨by decide, by decide⟩
  have hquoted : SpelledItem "href='a=\"b\"'" ("href", .text "a=\"b\"") :=
    @SpelledItem.assigned "href" [] [] "'a=\"b\"'" _ hhref (by decide) (by decide)
      (@SpelledValue.single "a=\"b\"" (by decide))
  have hbare : SpelledItem "@x = y/z" ("@x", .text "y/z") :=
    @SpelledItem.assigned "@x" " " " " "y/z" _ hat (by decide) (by decide)
      (.bare (by decide) (by decide))
  have hempty : SpelledItem "href=\"\"" ("href", .text "") :=
    @SpelledItem.assigned "href" [] [] "\"\"" _ hhref (by decide) (by decide)
      (@SpelledValue.double "" (by decide))
  have hspelled : Spelled text mentions :=
    @Spelled.more _ " " _ _ _ hquoted (by decide) (by decide)
      (@Spelled.more _ "\n" _ _ _ (.alone hhidden) (by decide) (by decide)
        (@Spelled.more _ "  " _ _ _ hbare (by decide) (by decide) (.last hempty)))
  exact ⟨hspelled, (read_of_spelled hspelled).1⟩

end Attributes

end Stencil
