import Mathlib.Data.List.Basic
import Stencil.Proofs.Template.History

/-!
# When class lists share a key

Four rules give a class list its key, and which of them it is can be told from the places named
before it (`Tag.classRule`): the first section and the first container have keys of their own, a
button is numbered from the labels, and any other class list takes the next of the slots
(`Naming.slots`). All keys are spelled alike, a series and a number (`Naming.classKey_eq_numbered`),
so they can be compared part by part.

Two class lists have the same key if and only if they are buttons behind the same number of labels,
or one of them takes the slot that spells the key of the other (`Naming.class_keys_eq_iff`). Slots
never share a key, whatever their elements are called.
-/

set_option autoImplicit false

namespace Stencil

/-! ## Rules -/

/-- The rules that give a class list its key. -/
inductive ClassRule where
  | firstSection
  | firstContainer
  | button
  | slot
  deriving DecidableEq, Repr

/-- The rule for the class list of an element, when some places were named before. -/
def Tag.classRule (earlier : List Place) (tag : Tag) : ClassRule :=
  if !earlier.any Place.isSectionClass && tag.name = "section" then .firstSection
  else if !earlier.any Place.isContainerClass && tag.isContainer then .firstContainer
  else if tag.isButton then .button
  else .slot

/-- Whether a place takes a slot, when some places were named before. -/
def Place.takesSlot (earlier : List Place) : Place → Bool
  | .ofClass tag _ => tag.classRule earlier = .slot
  | .ofAttribute _ _ _ => false
  | .ofText _ _ => false

/-- How many of some places take a slot, when others were named before. -/
def Naming.slots (earlier : List Place) : List Place → Nat
  | [] => 0
  | place :: rest => (if place.takesSlot earlier then 1 else 0) + slots (earlier ++ [place]) rest

namespace Tag

variable (earlier : List Place) (tag : Tag)

/-- What the key of a class list starts with. -/
def classSeries : Text :=
  match tag.classRule earlier with
  | .firstSection => "section"
  | .firstContainer => "container"
  | .button => "btn"
  | .slot => tag.name

/-- The number in the key of a class list. -/
def classNumber : Nat :=
  match tag.classRule earlier with
  | .firstSection => 1
  | .firstContainer => 1
  | .button => earlier.countP Place.isLabel + 1
  | .slot => Naming.slots [] earlier + 1

variable {earlier tag}

/-- What each rule asks for. -/
theorem classRule_spec (earlier : List Place) (tag : Tag) :
    match tag.classRule earlier with
    | .firstSection => earlier.any Place.isSectionClass = false ∧ tag.name = "section"
    | .firstContainer => earlier.any Place.isContainerClass = false ∧ tag.isContainer = true
    | .button => tag.isButton = true
    | .slot => tag.isButton = false := by
  by_cases hsection : (!earlier.any Place.isSectionClass && tag.name = "section") = true
  · rw [classRule, if_pos hsection]
    simpa using hsection
  by_cases hcontainer : (!earlier.any Place.isContainerClass && tag.isContainer) = true
  · rw [classRule, if_neg hsection, if_pos hcontainer]
    simpa using hcontainer
  by_cases hbutton : tag.isButton = true
  · rw [classRule, if_neg hsection, if_neg hcontainer, if_pos hbutton]
    exact hbutton
  · rw [classRule, if_neg hsection, if_neg hcontainer, if_neg hbutton]
    simpa using hbutton

/-- Neither the first section nor the first container is a button. -/
theorem classRule_eq_button_iff : tag.classRule earlier = .button ↔ tag.isButton = true := by
  constructor
  · intro hrule
    have hspec := classRule_spec earlier tag
    rw [hrule] at hspec
    exact hspec
  · intro hbutton
    have hname := name_of_isButton hbutton
    have hsection : ("a" : Text) ≠ "section" := by decide
    have hdiv : ("a" : Text) ≠ "div" := by decide
    simp [classRule, isContainer, hname, hsection, hdiv, hbutton]

/-- Whether a class list spells its key as a slot does that another class list takes. -/
inductive MeetsSlot (earlier : List Place) (tag : Tag) (behind : List Place) (other : Tag) : Prop
  | firstSection (hrule : tag.classRule earlier = .firstSection)
      (hslot : other.classRule behind = .slot) (hname : other.name = "section")
      (hnumber : Naming.slots [] behind = 0)
  | firstContainer (hrule : tag.classRule earlier = .firstContainer)
      (hslot : other.classRule behind = .slot) (hname : other.name = "container")
      (hnumber : Naming.slots [] behind = 0)
  | button (hbutton : tag.isButton = true)
      (hslot : other.classRule behind = .slot) (hname : other.name = "btn")
      (hnumber : Naming.slots [] behind = earlier.countP Place.isLabel)

/-- Whether the rules give one key to two class lists: both are those of buttons behind as many
labels, or one is spelled as the slot that the other takes. -/
inductive Collides (earlier : List Place) (tag : Tag) (behind : List Place) (other : Tag) : Prop
  | labels (hbutton : tag.isButton = true) (hbutton' : other.isButton = true)
      (hlabels : earlier.countP Place.isLabel = behind.countP Place.isLabel)
  | slot (hmeets : tag.MeetsSlot earlier behind other)
  | slotBefore (hmeets : other.MeetsSlot behind earlier tag)

/-- Whether two class lists have the same series and the same number. -/
structure SameKey (earlier : List Place) (tag : Tag) (behind : List Place) (other : Tag) :
    Prop where
  series : tag.classSeries earlier = other.classSeries behind
  number : tag.classNumber earlier = other.classNumber behind

section Pairs

variable {behind : List Place} {other : Tag}

theorem SameKey.symm (h : SameKey earlier tag behind other) : SameKey behind other earlier tag :=
  ⟨h.series.symm, h.number.symm⟩

theorem MeetsSlot.sameKey (h : MeetsSlot earlier tag behind other) :
    SameKey earlier tag behind other := by
  cases h with
  | firstSection hrule hslot hname hnumber =>
    constructor
    · simp [classSeries, hrule, hslot, hname]
    · simp [classNumber, hrule, hslot, hnumber]
  | firstContainer hrule hslot hname hnumber =>
    constructor
    · simp [classSeries, hrule, hslot, hname]
    · simp [classNumber, hrule, hslot, hnumber]
  | button hbutton hslot hname hnumber =>
    have hrule : tag.classRule earlier = .button := classRule_eq_button_iff.2 hbutton
    constructor
    · simp [classSeries, hrule, hslot, hname]
    · simp [classNumber, hrule, hslot, hnumber]

theorem MeetsSlot.not_slot (h : MeetsSlot earlier tag behind other) :
    tag.classRule earlier ≠ .slot := by
  cases h with
  | firstSection hrule => simp [hrule]
  | firstContainer hrule => simp [hrule]
  | button hbutton => simp [classRule_eq_button_iff.2 hbutton]

theorem SameKey.meetsSlot (h : SameKey earlier tag behind other)
    (hslot : other.classRule behind = .slot) (hother : tag.classRule earlier ≠ .slot) :
    MeetsSlot earlier tag behind other := by
  obtain ⟨hseries, hnumber⟩ := h
  cases hrule : tag.classRule earlier with
  | firstSection =>
    simp only [classSeries, classNumber, hrule, hslot] at hseries hnumber
    exact .firstSection hrule hslot hseries.symm (by omega)
  | firstContainer =>
    simp only [classSeries, classNumber, hrule, hslot] at hseries hnumber
    exact .firstContainer hrule hslot hseries.symm (by omega)
  | button =>
    simp only [classSeries, classNumber, hrule, hslot] at hseries hnumber
    exact .button (classRule_eq_button_iff.1 hrule) hslot hseries.symm (by omega)
  | slot => exact absurd hrule hother

theorem Collides.symm (h : Collides earlier tag behind other) :
    Collides behind other earlier tag := by
  cases h with
  | labels hbutton hbutton' hlabels => exact .labels hbutton' hbutton hlabels.symm
  | slot hmeets => exact .slotBefore hmeets
  | slotBefore hmeets => exact .slot hmeets

theorem Collides.sameKey (h : Collides earlier tag behind other) :
    SameKey earlier tag behind other := by
  cases h with
  | labels hbutton hbutton' hlabels =>
    have hrule : tag.classRule earlier = .button := classRule_eq_button_iff.2 hbutton
    have hrule' : other.classRule behind = .button := classRule_eq_button_iff.2 hbutton'
    constructor
    · simp [classSeries, hrule, hrule']
    · simp [classNumber, hrule, hrule', hlabels]
  | slot hmeets => exact hmeets.sameKey
  | slotBefore hmeets => exact hmeets.sameKey.symm

/-- Slots never collide, whatever their elements are called. -/
theorem Collides.not_slots (h : Collides earlier tag behind other) :
    ¬ (tag.classRule earlier = .slot ∧ other.classRule behind = .slot) := by
  rintro ⟨hslot, hslot'⟩
  cases h with
  | labels hbutton =>
    rw [classRule_eq_button_iff.2 hbutton] at hslot
    cases hslot
  | slot hmeets => exact hmeets.not_slot hslot
  | slotBefore hmeets => exact hmeets.not_slot hslot'

/-- Slots apart, the series tells the rule. -/
theorem SameKey.classRule_eq (h : SameKey earlier tag behind other)
    (hother : tag.classRule earlier ≠ .slot) (hother' : other.classRule behind ≠ .slot) :
    tag.classRule earlier = other.classRule behind := by
  have hseries := h.series
  rw [classSeries, classSeries] at hseries
  revert hseries hother hother'
  cases tag.classRule earlier <;> cases other.classRule behind <;> simp +decide

end Pairs

end Tag

namespace Naming

/-! ## Slots -/

theorem slots_append (earlier first second : List Place) :
    slots earlier (first ++ second) = slots earlier first + slots (earlier ++ first) second := by
  induction first generalizing earlier with
  | nil => simp [slots]
  | cons place rest ih =>
    rw [List.cons_append, slots, slots, ih, List.append_assoc, List.singleton_append, Nat.add_assoc]

/-! ## Keys -/

/-- The number of a key can be read off its end, if what is numbered ends in no digit. -/
theorem takeWhile_reverse_numbered {base : Text} {last : CodePoint} (hlast : last ∈ base.getLast?)
    (hother : last.isAsciiDigit = false) (n : Nat) :
    (numbered base n).reverse.takeWhile CodePoint.isAsciiDigit =
      if n = 1 then [] else (natNumeral n).reverse := by
  rw [numbered]
  by_cases hone : n = 1
  · have hhead : ∀ c ∈ base.reverse.head?, c.isAsciiDigit = false := by
      intro c hc
      rw [List.head?_reverse] at hc
      rw [Option.mem_unique hc hlast]
      exact hother
    rw [if_pos (by omega), if_pos hone]
    exact @Text.takeWhile_append_of_stop _ [] _ (by simp) hhead
  · have hnot : ¬ (n : Int) = 1 := by omega
    have hdigits : ∀ c ∈ (natNumeral n).reverse, c.isAsciiDigit = true := by
      intro c hc
      exact isAsciiDigit_of_mem_natNumeral (List.mem_reverse.1 hc)
    rw [if_neg hnot, if_neg hone, List.reverse_append, List.reverse_append]
    refine Text.takeWhile_append_of_stop hdigits ?_
    rintro c ⟨⟩
    decide

/-- A class key tells its series and its number, whatever the series is. -/
theorem numbered_classes_inj {first second : Text} {m n : Nat}
    (h : numbered (first ++ ("_classes" : Text)) m = numbered (second ++ ("_classes" : Text)) n) :
    first = second ∧ m = n := by
  have hlast : ∀ series : Text, .scalar 's' ∈ (series ++ ("_classes" : Text)).getLast? := by
    intro series
    rw [List.getLast?_append]
    exact rfl
  have hnumber : m = n := by
    -- Read the digits off the end; the first key of a series has none.
    have hdigits := congrArg (fun key => key.reverse.takeWhile CodePoint.isAsciiDigit) h
    rw [takeWhile_reverse_numbered (hlast first) (by decide),
      takeWhile_reverse_numbered (hlast second) (by decide)] at hdigits
    split at hdigits
    · next hm =>
      split at hdigits
      · next hn => rw [hm, hn]
      · exact absurd (List.reverse_eq_nil_iff.1 hdigits.symm) (natNumeral_ne_nil n)
    · split at hdigits
      · exact absurd (List.reverse_eq_nil_iff.1 hdigits) (natNumeral_ne_nil m)
      · exact natNumeral_injective (List.reverse_inj.1 hdigits)
  subst hnumber
  refine ⟨?_, rfl⟩
  rw [numbered, numbered] at h
  split at h
  · exact List.append_cancel_right h
  · exact List.append_cancel_right (List.append_cancel_right (List.append_cancel_right h))

section Keys

variable {mode : ClassMode} (hmode : mode ≠ .fixed)

include hmode

/-- A class list is named by its rule, and takes what the rule takes. -/
theorem classKey_after (earlier : List Place) (tag : Tag) :
    let naming := after mode earlier {}
    naming.classKey mode tag =
      match tag.classRule earlier with
      | .firstSection => (some "section_classes", { naming with sectionTaken := true })
      | .firstContainer => (some "container_classes", { naming with containerTaken := true })
      | .button => (some (numbered "btn_classes" (naming.buttons + 1)), naming)
      | .slot => (some (numbered (tag.name ++ ("_classes" : Text)) (naming.classLists + 1)),
          { naming with classLists := naming.classLists + 1 }) := by
  intro naming
  have hsection : naming.sectionTaken = earlier.any Place.isSectionClass :=
    sectionTaken_after hmode earlier {}
  have hcontainer : naming.containerTaken = earlier.any Place.isContainerClass :=
    containerTaken_after hmode earlier {}
  by_cases hbutton : tag.isButton = true
  · rw [classKey_button hmode hbutton, Tag.classRule_eq_button_iff.2 hbutton]
  rw [classKey, if_neg hmode, Bool.and_assoc, ← Tag.isContainer, hsection, hcontainer,
    Tag.classRule, if_neg hbutton, if_neg hbutton]
  split
  · rfl
  split
  · rfl
  · rfl

theorem classLists_ask (earlier : List Place) (place : Place) :
    ((after mode earlier {}).ask mode place).2.classLists =
      (after mode earlier {}).classLists + if place.takesSlot earlier then 1 else 0 := by
  cases place with
  | ofClass tag content =>
    rw [ask, classKey_after hmode, Place.takesSlot]
    cases tag.classRule earlier with
    | firstSection => exact (Int.add_zero _).symm
    | firstContainer => exact (Int.add_zero _).symm
    | button => exact (Int.add_zero _).symm
    | slot => rfl
  | ofAttribute tag name value =>
    have hpart := classPart_attributeKey tag name (after mode earlier {})
    exact (congrArg (fun part => part.2.2) hpart).trans (Int.add_zero _).symm
  | ofText parent content =>
    have hpart := classPart_textKey parent (after mode earlier {})
    exact (congrArg (fun part => part.2.2) hpart).trans (Int.add_zero _).symm

/-- The history counts the slots. -/
theorem classLists_after (earlier places : List Place) :
    (after mode (earlier ++ places) {}).classLists =
      (after mode earlier {}).classLists + (slots earlier places : Nat) := by
  induction places generalizing earlier with
  | nil => simp [slots]
  | cons place rest ih =>
    have hstep : after mode (earlier ++ [place]) {} =
        ((after mode earlier {}).ask mode place).2 := by
      rw [after_append]
      rfl
    have hrest := ih (earlier ++ [place])
    rw [List.append_assoc, List.singleton_append, hstep, classLists_ask hmode] at hrest
    rw [hrest, slots, Int.natCast_add, Int.add_assoc]
    split
    · rfl
    · rfl

/-- All keys of class lists are spelled alike. -/
theorem classKey_eq_numbered (earlier : List Place) (tag : Tag) :
    ((after mode earlier {}).classKey mode tag).1 =
      some (numbered (tag.classSeries earlier ++ ("_classes" : Text))
        (tag.classNumber earlier)) := by
  have hslots : (after mode earlier {}).classLists = (slots [] earlier : Nat) := by
    have hcount := classLists_after hmode [] earlier
    rw [List.nil_append] at hcount
    exact hcount.trans (Int.zero_add _)
  have hlabels : (after mode earlier {}).buttons = (earlier.countP Place.isLabel : Nat) := by
    rw [buttons_after]
    exact Int.zero_add _
  -- The first section and the first container have the first key of their series.
  have hone : ∀ base : Text, numbered base ((1 : Nat) : Int) = base := fun base => if_pos rfl
  rw [classKey_after hmode, Tag.classSeries, Tag.classNumber]
  cases tag.classRule earlier with
  | firstSection => exact congrArg some (hone "section_classes").symm
  | firstContainer => exact congrArg some (hone "container_classes").symm
  | button =>
    dsimp only
    rw [hlabels]
    rfl
  | slot =>
    dsimp only
    rw [hslots]
    rfl

theorem classKey_eq_iff_sameKey (earlier behind : List Place) (tag other : Tag) :
    ((after mode earlier {}).classKey mode tag).1 = ((after mode behind {}).classKey mode other).1 ↔
      Tag.SameKey earlier tag behind other := by
  rw [classKey_eq_numbered hmode, classKey_eq_numbered hmode, Option.some_inj]
  constructor
  · intro h
    obtain ⟨hseries, hnumber⟩ := numbered_classes_inj h
    exact ⟨hseries, hnumber⟩
  · intro h
    rw [h.series, h.number]

end Keys

/-! ## One class list behind another -/

section Behind

variable {earlier behind rest : List Place} {tag other : Tag} {content : Text}
  (hbehind : behind = earlier ++ .ofClass tag content :: rest)

include hbehind

/-- Behind the class list that takes a slot, there is one slot less to take. -/
theorem slots_lt (hslot : tag.classRule earlier = .slot) : slots [] earlier < slots [] behind := by
  have htakes : (Place.ofClass tag content).takesSlot earlier = true := decide_eq_true hslot
  rw [hbehind, slots_append, List.nil_append, slots, htakes, if_pos rfl]
  omega

/-- Only buttons can have the same rule and the same key. -/
theorem isButton_of_sameKey (h : tag.SameKey earlier behind other)
    (hrule : tag.classRule earlier = other.classRule behind) :
    tag.isButton = true ∧ other.isButton = true := by
  have hmem : Place.ofClass tag content ∈ behind := by simp [hbehind]
  have hspec := tag.classRule_spec earlier
  have hspec' := other.classRule_spec behind
  rw [← hrule] at hspec'
  cases hfirst : tag.classRule earlier with
  | firstSection =>
    -- The later of the two would not be the first.
    rw [hfirst] at hspec hspec'
    exact absurd (decide_eq_true hspec.2) (List.any_eq_false.1 hspec'.1 _ hmem)
  | firstContainer =>
    rw [hfirst] at hspec hspec'
    exact absurd hspec.2 (List.any_eq_false.1 hspec'.1 _ hmem)
  | button =>
    rw [hfirst] at hspec hspec'
    exact ⟨hspec, hspec'⟩
  | slot =>
    -- The later of two slots has the greater number.
    have hnumber := h.number
    have hlt := slots_lt hbehind hfirst
    simp only [Tag.classNumber, ← hrule, hfirst] at hnumber
    omega

theorem sameKey_iff_collides :
    tag.SameKey earlier behind other ↔ tag.Collides earlier behind other := by
  constructor
  · intro h
    -- Slots are spelled with the names of their elements, which may be those of the other rules.
    by_cases hslot : tag.classRule earlier = .slot
    · by_cases hslot' : other.classRule behind = .slot
      · have hbutton := (isButton_of_sameKey hbehind h (hslot.trans hslot'.symm)).1
        rw [Tag.classRule_eq_button_iff.2 hbutton] at hslot
        cases hslot
      · exact .slotBefore (h.symm.meetsSlot hslot hslot')
    by_cases hslot' : other.classRule behind = .slot
    · exact .slot (h.meetsSlot hslot' hslot)
    · obtain ⟨hbutton, hbutton'⟩ := isButton_of_sameKey hbehind h (h.classRule_eq hslot hslot')
      have hnumber := h.number
      simp only [Tag.classNumber, Tag.classRule_eq_button_iff.2 hbutton,
        Tag.classRule_eq_button_iff.2 hbutton'] at hnumber
      exact .labels hbutton hbutton' (Nat.succ.inj hnumber)
  · exact Tag.Collides.sameKey

end Behind

/-- **Class lists share a key just where the rules make them.** Let class lists, texts and
attributes of any elements be named in any order, under a class mode that is not fixed. Two class
lists that are named at different times both have a key. The keys are the same if and only if both
elements are buttons and as many labels were named before the one as before the other; or one is the
first section or the first container, and the other took the first slot for an element of that name;
or one is a button, and the other took, for an element called `btn`, the slot with its number. Two
slots have different keys. -/
theorem class_keys_eq_iff {mode : ClassMode} (hmode : mode ≠ .fixed) {places : List Place}
    {first second : Nat} {tag other : Tag} {content content' : Text}
    (hfirst : places[first]? = some (.ofClass tag content))
    (hsecond : places[second]? = some (.ofClass other content')) (hne : first ≠ second) :
    let earlier := places.take first
    let behind := places.take second
    ∃ key key', (answers mode places {})[first]? = some (some key) ∧
      (answers mode places {})[second]? = some (some key') ∧
      (key = key' ↔ tag.Collides earlier behind other) ∧
      (tag.classRule earlier = .slot → other.classRule behind = .slot → key ≠ key') := by
  intro earlier behind
  obtain ⟨key, next, hkey⟩ := exists_classKey hmode tag (after mode earlier {})
  obtain ⟨key', next', hkey'⟩ := exists_classKey hmode other (after mode behind {})
  have hsame : key = key' ↔ tag.SameKey earlier behind other := by
    rw [← classKey_eq_iff_sameKey hmode, hkey, hkey', Option.some_inj]
  have hiff : key = key' ↔ tag.Collides earlier behind other := by
    rw [hsame]
    rcases Nat.lt_or_gt_of_ne hne with hlt | hgt
    · obtain ⟨rest, hbehind⟩ := take_eq_append_of_lt hfirst hlt
      exact sameKey_iff_collides hbehind
    · -- The class list named second is the earlier one.
      obtain ⟨rest, hearlier⟩ := take_eq_append_of_lt hsecond hgt
      have hpair := @sameKey_iff_collides _ _ rest _ tag content' hearlier
      exact ⟨fun h => (hpair.1 h.symm).symm, fun h => (hpair.2 h.symm).symm⟩
  refine ⟨key, key', ?_, ?_, hiff, ?_⟩
  · rw [getElem?_answers hfirst, ask, hkey]
  · rw [getElem?_answers hsecond, ask, hkey']
  · intro hslot hslot' heq
    exact (hiff.1 heq).not_slots ⟨hslot, hslot'⟩

/-- The second of two sections takes the first slot, and with it the key of the first section. -/
theorem class_keys_eq_iff_sections :
    let place : Place := .ofClass ⟨"section", [("class", .text "hero")]⟩ "hero"
    let places : List Place := [place, .ofText ⟨"h1", []⟩ "Hello", place]
    ClassMode.single ≠ .fixed ∧ places[0]? = some place ∧ places[2]? = some place ∧ 0 ≠ 2 ∧
      ∃ key, (answers .single places {})[0]? = some (some key) ∧
        (answers .single places {})[2]? = some (some key) := by
  intro place places
  have hmode : ClassMode.single ≠ .fixed := by decide
  obtain ⟨key, key', hkey, hkey', hiff, -⟩ :=
    @class_keys_eq_iff .single hmode places 0 2 _ _ _ _ rfl rfl (by decide)
  have hmeets : Tag.MeetsSlot [] ⟨"section", [("class", .text "hero")]⟩
      [place, .ofText ⟨"h1", []⟩ "Hello"] ⟨"section", [("class", .text "hero")]⟩ :=
    .firstSection (by decide +kernel) (by decide +kernel) rfl rfl
  obtain rfl : key = key' := hiff.2 (.slot hmeets)
  exact ⟨hmode, rfl, rfl, by decide, key, hkey, hkey'⟩

end Naming

end Stencil
