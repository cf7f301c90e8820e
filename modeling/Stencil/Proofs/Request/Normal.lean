import Stencil.Proofs.Component.Contents
import Stencil.Proofs.Text.Pieces
import Stencil.Proofs.Text.SortedSet
import Stencil.Proofs.Value.Written
import Stencil.Proofs.Yaml.Hexadecimal
import Stencil.Request.Load

/-!
# Requests in normal form

Every mapping describes a request in normal form: what may be absent is not empty, and the editable
attributes are sorted (`Request.normal_ofEntries`). A request in normal form is the one that its own
document describes (`Request.ofValue_toJson`), so making a request of a value a second time changes
nothing (`Request.ofValue_normalises`).

Only integers of too many digits and nesting that is too deep stand against it
(`Request.ofValue_mapping`). JSON has no such integers, but hexadecimal numerals of YAML are read
whatever their length, and the integer is not written then (`Request.hexadecimal_name`).

* `Request.Long` and `Request.Deep`, what is not written for a request;
* `Request.Normal`;
* `Request.toJson`, a request as a document.
-/

set_option autoImplicit false

namespace Stencil

theorem Value.ofItems_strings (texts : List Text) :
    ofItems (texts.map Json.string) = texts.map Value.string := by
  induction texts with
  | nil => rfl
  | cons text texts ih => rw [List.map_cons, ofItems, ofJson, ih, List.map_cons]

namespace Request

variable {host : Host} {request : Request} {entry : Option Value} {value written : Value}

/-! ## What can be made of a value -/

/-- Whether a value that is written for a request has an integer of too many digits. -/
def Long (value : Value) : Prop :=
  ∃ written ∈ writtenValues value, ∃ n ∈ written.integers, ¬ Json.IsShort n

/-- Whether a value that is written for a request is nested too deep, or the one that names its
class mode is, before an integer of too many digits comes up in that. -/
def Deep (host : Host) (value : Value) : Prop :=
  (modeValue value).fault? host.showing = some .tooDeep ∨
    ∃ written ∈ writtenValues value, host.showing < written.depth

/-- What stands in the way of making a request is explained by what is written for it. -/
theorem fault?_cases (host : Host) (value : Value) :
    (¬ Long value ∧ ¬ Deep host value ∧ fault? host value = none) ∨
      (Long value ∧ fault? host value = some .longInteger) ∨
      Deep host value ∧ fault? host value = some .tooDeep := by
  rw [fault?]
  split
  · next hmode => exact Or.inr (Or.inr ⟨Or.inl hmode, rfl⟩)
  next hmode =>
  -- Behind the class mode it is the first fault that counts, of whichever kind.
  cases hfirst : (writtenValues value).findSome? fun written => written.fault? host.showing with
  | none =>
    rw [List.findSome?_eq_none_iff] at hfirst
    refine Or.inl ⟨?_, ?_, rfl⟩
    · rintro ⟨written, hwritten, n, hn, hlong⟩
      exact hlong ((Value.fault?_eq_none_iff.1 (hfirst written hwritten)).1 n hn)
    · rintro (hdeep | ⟨written, hwritten, hdeep⟩)
      · exact hmode hdeep
      · exact absurd (Value.fault?_eq_none_iff.1 (hfirst written hwritten)).2 (Nat.not_le.2 hdeep)
  | some fault =>
    obtain ⟨written, hwritten, hfault⟩ := List.exists_of_findSome?_eq_some hfirst
    cases fault with
    | longInteger =>
      exact Or.inr (Or.inl ⟨⟨written, hwritten, Value.exists_long_of_fault? hfault⟩, rfl⟩)
    | tooDeep =>
      exact Or.inr (Or.inr ⟨Or.inr ⟨written, hwritten, Value.lt_depth_of_fault? hfault⟩, rfl⟩)

/-- Where each text can be written, nothing stands in the way. -/
theorem fault?_of_forall (h : ∀ written ∈ modeValue value :: writtenValues value,
    written.fault? host.showing = none) : fault? host value = none := by
  rw [fault?, h _ List.mem_cons_self]
  exact List.findSome?_eq_none_iff.2 fun written hwritten =>
    h written (List.mem_cons_of_mem _ hwritten)

/-- **What a mapping makes.** It makes a request, unless a value that is written for it has an
integer of too many digits or is nested too deep. -/
theorem ofValue_mapping (host : Host) (entries : List (Value × Value)) :
    (¬ Long (.mapping entries) ∧ ¬ Deep host (.mapping entries) ∧
        ofValue host (.mapping entries) = .ok (ofEntries entries)) ∨
      (Long (.mapping entries) ∧
        ofValue host (.mapping entries) = .error (.broken .unwritable)) ∨
      Deep host (.mapping entries) ∧
        ofValue host (.mapping entries) = .error (.broken (.tooDeep .value)) := by
  rcases fault?_cases host (.mapping entries) with ⟨hlong, hdeep, hfault⟩ | ⟨hlong, hfault⟩ |
    ⟨hdeep, hfault⟩
  · refine Or.inl ⟨hlong, hdeep, ?_⟩
    rw [ofValue, hfault]
    rfl
  · refine Or.inr (Or.inl ⟨hlong, ?_⟩)
    rw [ofValue, hfault]
    rfl
  · refine Or.inr (Or.inr ⟨hdeep, ?_⟩)
    rw [ofValue, hfault]
    rfl

theorem mem_tagValues (h : written ∈ tagValues entry) :
    ∃ items, entry = some (.list items) ∧ written ∈ items := by
  rw [tagValues.eq_def] at h
  split at h
  · exact ⟨_, rfl, h⟩
  · cases h

/-- A name for an editable attribute stands in the value that lists the names. -/
theorem inside_of_mem_nameValues (h : written ∈ (nameValues? entry).getD []) :
    ∃ value, entry = some value ∧ written.Inside value := by
  rw [nameValues?.eq_def] at h
  split at h
  · exact ⟨_, rfl, (Value.inside_of_mem h).1⟩
  · exact ⟨_, rfl, (Value.inside_of_mem h).2⟩
  · cases h

/-- What stands under a name in the options stands in the value of the options. -/
theorem inside_of_optionEntries {name : Text}
    (h : Value.member? name (optionEntries entry) = some written) :
    ∃ value, entry = some value ∧ written.Inside value := by
  rw [optionEntries.eq_def] at h
  split at h
  · exact ⟨_, rfl, Value.inside_of_member? h⟩
  · cases h

/-- What is written for a request, and what names its class mode, stands in the value that it is
made of. -/
theorem inside_of_mem_written (h : written ∈ modeValue value :: writtenValues value) :
    written.Inside value := by
  cases value with
  | mapping entries =>
    have hentry : ∀ {name : Text}, written ∈ (Value.member? name entries).toList →
        written.Inside (.mapping entries) := fun hmember =>
      Value.inside_of_member? (Option.mem_toList.1 hmember)
    simp only [modeValue, writtenValues, List.mem_cons, List.mem_append] at h
    -- The class mode and the editable attributes stand two levels down, in the options.
    rcases h with hmode | ((((hname | hcomponent) | hmarkup) | hcategory) | htag) | hdescription
    · cases hmember : Value.member? "classesMode"
          (optionEntries (Value.member? "options" entries)) with
      | none =>
        rw [hmode, hmember]
        exact Value.inside_null _
      | some mode =>
        rw [hmember] at hmode
        obtain rfl : written = mode := hmode
        obtain ⟨options, hoptions, hinside⟩ := inside_of_optionEntries hmember
        exact hinside.trans (Value.inside_of_member? hoptions)
    · obtain ⟨names, hnames, hlisted⟩ := inside_of_mem_nameValues hname
      obtain ⟨options, hoptions, hinside⟩ := inside_of_optionEntries hnames
      exact (hlisted.trans hinside).trans (Value.inside_of_member? hoptions)
    · exact hentry hcomponent
    · rw [Option.mem_toList, Option.filter_eq_some_iff] at hmarkup
      exact Value.inside_of_member? hmarkup.1
    · exact hentry hcategory
    · obtain ⟨tags, htags, hlisted⟩ := mem_tagValues htag
      exact (Value.inside_of_mem hlisted).1.trans (Value.inside_of_member? htags)
    · exact hentry hdescription
  | _ =>
    obtain rfl : written = .null := List.mem_singleton.1 h
    exact Value.inside_null _

/-- What is not too deep to be written has nothing in it that is. -/
theorem not_deep_of_depth_le (h : value.depth ≤ host.showing) : ¬ Deep host value := by
  have hall : ∀ written ∈ modeValue value :: writtenValues value, written.depth ≤ host.showing :=
    fun written hwritten => Nat.le_trans (inside_of_mem_written hwritten).depth h
  rintro (hmode | ⟨written, hwritten, hdeep⟩)
  · exact absurd (Value.lt_depth_of_fault? hmode) (Nat.not_lt.2 (hall _ List.mem_cons_self))
  · exact absurd hdeep (Nat.not_lt.2 (hall written (List.mem_cons_of_mem _ hwritten)))

/-- The documents of JSON texts have no integers that are too long to be written. -/
theorem not_long_of_read {text : Text} {document : Json}
    (h : Json.read host text = .ok document) : ¬ Long (.ofJson document) := by
  rintro ⟨written, hwritten, n, hn, hlong⟩
  have hinside := inside_of_mem_written (List.mem_cons_of_mem _ hwritten)
  exact hlong (Json.short_of_read h n
    ((Value.mem_integers_ofJson document).1 (hinside.integers n hn)))

/-! ## What a mapping makes -/

/-- A request in normal form: what may be absent is not empty, and the names of the editable
attributes are sorted. -/
structure Normal (request : Request) : Prop where
  componentName : request.componentName ≠ some []
  category : request.category ≠ some []
  description : request.description ≠ some []
  editable : Text.Sorted request.options.editable

theorem optionalText_ne_empty (entry : Option Value) : optionalText entry ≠ some [] := by
  rw [optionalText.eq_def]
  split
  · exact nofun
  · exact nofun
  · exact nofun
  · next hempty =>
    intro h
    exact hempty (Value.display_eq_nil_iff.1 (Option.some.inj h))

theorem sorted_editableNames (entry : Option Value) : Text.Sorted (editableNames entry) := by
  rw [editableNames]
  split
  · exact Text.sorted_sortedSet _
  · exact Text.sorted_sortedSet _

/-- **A mapping makes a request in normal form.** -/
theorem normal_ofEntries (entries : List (Value × Value)) : (ofEntries entries).Normal where
  componentName := optionalText_ne_empty _
  category := optionalText_ne_empty _
  description := optionalText_ne_empty _
  editable := sorted_editableNames _

/-- Whatever is made of a value is in normal form. -/
theorem normal_of_ofValue (h : ofValue host value = .ok request) : request.Normal := by
  cases value with
  | mapping entries =>
    rcases ofValue_mapping host entries with ⟨-, -, hok⟩ | ⟨-, herror⟩ | ⟨-, herror⟩
    · obtain rfl := Except.ok.inj (h.symm.trans hok)
      exact normal_ofEntries entries
    · cases h.symm.trans herror
    · cases h.symm.trans herror
  | _ => cases h

namespace Normal

theorem slugSource_ne_nil (h : request.Normal) : request.slugSource ≠ [] := by
  rw [slugSource]
  cases hname : request.componentName with
  | none => decide
  | some name =>
    rintro rfl
    exact h.componentName hname

end Normal

/-- A segment of a category is a name between slashes. -/
theorem of_mem_categorySegments {segment : Text} (h : segment ∈ request.categorySegments) :
    segment ≠ [] ∧ .scalar '/' ∉ segment := by
  obtain ⟨hpiece, hne⟩ := List.mem_filter.1 h
  refine ⟨?_, Text.not_mem_of_mem_splitOn hpiece⟩
  rintro rfl
  cases hne

end Request

/-! ## What a request says -/

/-- Options as a document that lists the editable attributes in the order of `names`. -/
def Options.toJson (options : Options) (names : List Text) : Json :=
  .object [("classesMode", .string options.classMode.word),
    ("textEditable", .bool options.textEditable), ("attrEditable", .array (names.map .string))]

/-- A request as a document, without what it does not have. The editable attributes are a set, which
the document lists in the order of `names`. -/
def Request.toJson (request : Request) (names : List Text) : Json :=
  let named := optionalMember "componentName" request.componentName
  let placed := optionalMember "category" request.category
  let described := optionalMember "description" request.description
  let required : List (Text × Json) :=
    [("sourceHtml", .string request.sourceHtml), ("tags", .array (request.tags.map .string)),
      ("options", request.options.toJson names)]
  .object (named ++ placed ++ described ++ required)

namespace Request

variable {request : Request} {names : List Text}

theorem optionalText_string {text : Option Text} (h : text ≠ some []) :
    optionalText (text.map Value.string) = text := by
  cases text with
  | none => rfl
  | some text =>
    cases text with
    | nil => exact absurd rfl h
    | cons c rest => rfl

theorem markupText_string (text : Text) : markupText (some (.string text)) = text := by
  cases text <;> rfl

theorem map_display_strings (texts : List Text) :
    (texts.map Value.string).map Value.display = texts := by
  rw [List.map_map]
  exact List.map_id texts

theorem tagTexts_strings (texts : List Text) :
    tagTexts (some (.ofJson (.array (texts.map .string)))) = texts := by
  rw [Value.ofJson, Value.ofItems_strings]
  exact map_display_strings texts

/-- The editable attributes do not depend on the order in which they are listed. -/
theorem editableNames_strings {editable : List Text} (h : Text.Sorted editable)
    (hnames : ∀ name, name ∈ names ↔ name ∈ editable) :
    editableNames (some (.ofJson (.array (names.map .string)))) = editable := by
  rw [Value.ofJson, Value.ofItems_strings, editableNames, nameValues?]
  dsimp only
  rw [map_display_strings, Text.sortedSet_eq h hnames]

theorem classMode_word (mode : ClassMode) : classMode (some (.string mode.word)) = mode := by
  cases mode <;> decide

theorem textEditable_bool (value : Bool) : textEditable (some (.bool value)) = value := by
  cases value <;> rfl

theorem optionsOf_toJson {options : Options} (h : Text.Sorted options.editable)
    (hnames : ∀ name, name ∈ names ↔ name ∈ options.editable) :
    optionsOf (some (.ofJson (options.toJson names))) = options := by
  obtain ⟨mode, editsText, editable⟩ := options
  have hmode := classMode_word mode
  have htext := textEditable_bool editsText
  have heditable := editableNames_strings h hnames
  rw [optionsOf, Options.mk.injEq]
  exact ⟨hmode, htext, heditable⟩

/-- What the value of a request's document has under its names. -/
theorem exists_entries_toJson (request : Request) (names : List Text) : ∃ entries,
    Value.ofJson (request.toJson names) = .mapping entries ∧
      Value.member? "componentName" entries = request.componentName.map .string ∧
      Value.member? "sourceHtml" entries = some (.string request.sourceHtml) ∧
      Value.member? "category" entries = request.category.map .string ∧
      Value.member? "tags" entries = some (.ofJson (.array (request.tags.map .string))) ∧
      Value.member? "options" entries = some (.ofJson (request.options.toJson names)) ∧
      Value.member? "description" entries = request.description.map .string := by
  obtain ⟨name, markup, category, tags, options, description⟩ := request
  -- Which entries are there decides how far a name is looked for.
  cases name <;> cases category <;> cases description <;>
    exact ⟨_, rfl, rfl, rfl, rfl, rfl, rfl, rfl⟩

/-- The document of a request describes the request. -/
theorem ofValue?_toJson (h : request.Normal)
    (hnames : ∀ name, name ∈ names ↔ name ∈ request.options.editable) :
    ofValue? (.ofJson (request.toJson names)) = some request := by
  obtain ⟨entries, hvalue, hname, hmarkup, hcategory, htags, hoptions, hdescription⟩ :=
    request.exists_entries_toJson names
  rw [hvalue, ofValue?, ofEntries, hname, hmarkup, hcategory, htags, hoptions, hdescription,
    optionalText_string h.componentName, optionalText_string h.category,
    optionalText_string h.description, markupText_string, tagTexts_strings,
    optionsOf_toJson h.editable hnames]

/-- The document of a request gives strings for all texts. -/
theorem exists_string_of_mem_written {written : Value}
    (h : written ∈ modeValue (.ofJson (request.toJson names)) ::
      writtenValues (.ofJson (request.toJson names))) : ∃ text, written = .string text := by
  have hoptional : ∀ {text : Option Text}, written ∈ (text.map Value.string).toList →
      ∃ text, written = .string text := by
    intro text hmem
    obtain ⟨text, -, rfl⟩ := Option.map_eq_some_iff.1 (Option.mem_toList.1 hmem)
    exact ⟨text, rfl⟩
  have hlist : ∀ {texts : List Text}, written ∈ Value.ofItems (texts.map .string) →
      ∃ text, written = .string text := by
    intro texts hmem
    rw [Value.ofItems_strings] at hmem
    obtain ⟨text, -, rfl⟩ := List.mem_map.1 hmem
    exact ⟨text, rfl⟩
  obtain ⟨entries, hvalue, hname, hmarkup, hcategory, htags, hoptions, hdescription⟩ :=
    request.exists_entries_toJson names
  rw [hvalue, modeValue, writtenValues, hname, hmarkup, hcategory, htags, hoptions,
    hdescription] at h
  simp only [List.mem_cons, List.mem_append] at h
  rcases h with hmode | ((((hname | hcomponent) | hmarkup) | hcategory) | htag) | hdescription
  · exact ⟨request.options.classMode.word, hmode⟩
  · exact hlist hname
  · exact hoptional hcomponent
  · rw [Option.mem_toList, Option.filter_eq_some_iff] at hmarkup
    exact ⟨request.sourceHtml, (Option.some.inj hmarkup.1).symm⟩
  · exact hoptional hcategory
  · exact hlist htag
  · exact hoptional hdescription

/-- The names of a request are distinct, whichever of them are left out. -/
theorem plain_toJson (request : Request) (names : List Text) : (request.toJson names).Plain := by
  have hmembers : (["componentName"] ++ ["category"] ++ ["description"] ++
      ["sourceHtml", "tags", "options"] : List Text).Nodup := by
    decide
  have hswitches : (["classesMode", "textEditable", "attrEditable"] : List Text).Nodup := by
    decide
  have hname := names_optionalMember_sublist "componentName" request.componentName
  have hcategory := names_optionalMember_sublist "category" request.category
  have hdescription := names_optionalMember_sublist "description" request.description
  have hoptions : (request.options.toJson names).Plain :=
    ⟨hswitches, trivial, trivial, plainItems_texts names, trivial⟩
  unfold toJson
  constructor
  · refine hmembers.sublist ?_
    rw [List.map_append, List.map_append, List.map_append]
    exact ((hname.append hcategory).append hdescription).append (List.Sublist.refl _)
  · refine plainMembers_append (plainMembers_append (plainMembers_append ?_ ?_) ?_) ?_
    · exact plainMembers_optionalMember "componentName" request.componentName
    · exact plainMembers_optionalMember "category" request.category
    · exact plainMembers_optionalMember "description" request.description
    · exact ⟨trivial, plainItems_texts request.tags, hoptions, trivial⟩

/-- The document of a request is an object with the options, which hold an array. -/
theorem depth_toJson_le (request : Request) (names : List Text) :
    (request.toJson names).depth ≤ 3 := by
  simp [toJson, Options.toJson, Json.depth, Json.depthOfMembers, Json.depthOfMembers_append,
    depthOfMembers_optionalMember, depthOf_texts]

/-- **A request in normal form is the one that its document describes**, on every host. -/
theorem ofValue_toJson (host : Host) (h : request.Normal)
    (hnames : ∀ name, name ∈ names ↔ name ∈ request.options.editable) :
    ofValue host (.ofJson (request.toJson names)) = .ok request := by
  have hnone : ∀ written ∈ modeValue (.ofJson (request.toJson names)) ::
      writtenValues (.ofJson (request.toJson names)), written.fault? host.showing = none := by
    intro written hwritten
    obtain ⟨text, rfl⟩ := exists_string_of_mem_written hwritten
    rfl
  have hfault : fault? host (.ofJson (request.toJson names)) = none := fault?_of_forall hnone
  rw [ofValue, ofValue?_toJson h hnames, hfault]

/-- A request in normal form can be stored as a text. -/
theorem parse_print_toJson (host : Host) (h : request.Normal)
    (hnames : ∀ name, name ∈ names ↔ name ∈ request.options.editable) :
    parse host (request.toJson names).print = .ok request := by
  have hdepth := Nat.le_trans (request.depth_toJson_le names) host.documents.1
  rw [parse, Json.read_print (request.plain_toJson names) hdepth]
  exact ofValue_toJson host h hnames

/-! ## Normalising -/

/-- **Making a request of a value.** A mapping makes a request just when no value that is written
for it has an integer of too many digits or is nested too deep. An object in a JSON text has no such
integers, and makes a request just when nothing in it is too deep, so at least when the object
itself is not. The document of the request, in whatever order it lists the editable attributes,
makes the same request again. Its name, category and description are absent or not empty, there is
something to make its slug of, and the segments of its category are not empty and hold no slash.
What is no mapping is refused. -/
theorem ofValue_normalises (host : Host) (value : Value) :
    (∀ entries, value = .mapping entries →
      (¬ Long value ∧ ¬ Deep host value ∧ ofValue host value = .ok (ofEntries entries)) ∨
        (Long value ∧ ofValue host value = .error (.broken .unwritable)) ∨
        Deep host value ∧ ofValue host value = .error (.broken (.tooDeep .value))) ∧
    (∀ text members, Json.read host text = .ok (.object members) →
      value = .ofJson (.object members) →
      ((Json.object members).depth ≤ host.showing → ¬ Deep host value) ∧
        ((¬ Deep host value ∧
            ofValue host value = .ok (ofEntries (Value.ofMembers members))) ∨
          Deep host value ∧ ofValue host value = .error (.broken (.tooDeep .value)))) ∧
    (∀ request, ofValue host value = .ok request →
      (∀ names, (∀ name, name ∈ names ↔ name ∈ request.options.editable) →
          ofValue host (.ofJson (request.toJson names)) = .ok request) ∧
        request.componentName ≠ some [] ∧ request.category ≠ some [] ∧
        request.description ≠ some [] ∧ request.slugSource ≠ [] ∧
        ∀ segment ∈ request.categorySegments, segment ≠ [] ∧ .scalar '/' ∉ segment) ∧
    ((∀ entries, value ≠ .mapping entries) →
      ofValue host value = .error (.refused .noMapping)) := by
  refine ⟨?_, ?_, ?_, ?_⟩
  · rintro entries rfl
    exact ofValue_mapping host entries
  · rintro text members hread rfl
    refine ⟨fun hdepth => not_deep_of_depth_le (by rwa [Value.depth_ofJson]), ?_⟩
    rcases ofValue_mapping host (Value.ofMembers members) with ⟨-, hdeep, hok⟩ | ⟨hlong, -⟩ | hdeep
    · exact Or.inl ⟨hdeep, hok⟩
    · exact absurd hlong (not_long_of_read hread)
    · exact Or.inr hdeep
  · intro request h
    have hnormal := normal_of_ofValue h
    exact ⟨fun names => ofValue_toJson host hnormal, hnormal.componentName, hnormal.category,
      hnormal.description, hnormal.slugSource_ne_nil, fun segment => of_mem_categorySegments⟩
  · intro hvalue
    cases value with
    | mapping entries => exact absurd rfl (hvalue entries)
    | _ => rfl

/-- A name of a YAML file that is an integer and cannot be written. -/
theorem hexadecimal_name :
    let numeral : Text := ("0x1" : Text) ++ zeros maxIntegerDigits
    let name : Value := .int (16 ^ maxIntegerDigits)
    Yaml.scalarValue false .int numeral = .ok name ∧
      ofValue .usual (.mapping [(.string "componentName", name)]) =
        .error (.broken .unwritable) := by
  intro numeral name
  have hread : Yaml.scalarValue false .int numeral = .ok name := by
    rw [Yaml.scalarValue, Yaml.readInt_power]
    rfl
  have hlong : ¬ Json.IsShort (16 ^ maxIntegerDigits) := by
    rw [Json.isShort_iff, Int.natAbs_pow]
    -- Whatever the limit is; its powers are not to be worked out.
    generalize maxIntegerDigits = limit
    exact Nat.not_lt.2 (Nat.pow_le_pow_left (by decide) limit)
  have hwritten : writtenValues (.mapping [(.string "componentName", name)]) = [name] := rfl
  have hinteger : 16 ^ maxIntegerDigits ∈ name.integers := by
    rw [Value.integers]
    exact List.mem_singleton_self _
  refine ⟨hread, ?_⟩
  rcases ofValue_mapping .usual [(.string "componentName", name)] with ⟨hshort, -, -⟩ |
    ⟨-, herror⟩ | ⟨hmode | ⟨written, hmem, hdeep⟩, -⟩
  · exact absurd ⟨name, hwritten ▸ List.mem_singleton_self name, _, hinteger, hlong⟩ hshort
  · exact herror
  · cases hmode
  · rw [hwritten, List.mem_singleton] at hmem
    rw [hmem] at hdeep
    exact absurd hdeep (Nat.not_lt_zero _)

end Request

end Stencil
