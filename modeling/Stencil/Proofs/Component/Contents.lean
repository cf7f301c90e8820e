import Stencil.Proofs.Component.Agreement
import Stencil.Proofs.Json.Room
import Stencil.Proofs.Value.Written

/-!
# What the stored documents tell

A document is printed unless one of its integers has too many digits or it is nested too deep
(`Json.dump_cases`). Both JSON documents of a component are printed on every host
(`dump_fieldsDocument`, `dump_metaDocument`), and read back as what was printed, whatever the
fields, the request and the slug are. So the fields and what is said of the component can be told
from the printed texts (`Json.documents_read_back`), and so can any other document without fractions
that is printed and is not too deep to be read.
-/

set_option autoImplicit false

namespace Stencil

/-! ## Printing -/

namespace Json

/-- **What printing comes to.** A document is printed, or one of its integers is too long, or it is
nested too deep. -/
theorem dump_cases (host : Host) (document : Json) :
    (document.Short ∧ document.depth ≤ host.printing ∧
        document.dump host = .ok document.print) ∨
      ((∃ value, .int value ∈ document.parts ∧ ¬ IsShort value) ∧
        document.dump host = .error .longInteger) ∨
      host.printing < document.depth ∧ document.dump host = .error .tooDeep := by
  rw [dump]
  cases hfault : (Value.ofJson document).fault? host.printing with
  | none =>
    obtain ⟨hshort, hdepth⟩ := Value.fault?_ofJson_eq_none_iff.1 hfault
    exact Or.inl ⟨hshort, hdepth, rfl⟩
  | some fault =>
    cases fault with
    | longInteger =>
      obtain ⟨value, hvalue, hlong⟩ := Value.exists_long_of_fault? hfault
      exact Or.inr (Or.inl ⟨⟨value, (Value.mem_integers_ofJson document).1 hvalue, hlong⟩, rfl⟩)
    | tooDeep =>
      have hdeep := Value.lt_depth_of_fault? hfault
      rw [Value.depth_ofJson] at hdeep
      exact Or.inr (Or.inr ⟨hdeep, rfl⟩)

section Dump

variable {host : Host} {document : Json} {text : Text}

theorem dump_of_short (hshort : document.Short) (hdepth : document.depth ≤ host.printing) :
    document.dump host = .ok document.print := by
  rw [dump, Value.fault?_ofJson_eq_none_iff.2 ⟨hshort, hdepth⟩]

/-- A document that is printed is short and not too deep. -/
theorem of_dump (h : document.dump host = .ok text) :
    text = document.print ∧ document.Short ∧ document.depth ≤ host.printing := by
  rcases document.dump_cases host with ⟨hshort, hdepth, hok⟩ | ⟨-, herror⟩ | ⟨-, herror⟩
  · exact ⟨Except.ok.inj (h.symm.trans hok), hshort, hdepth⟩
  · cases h.symm.trans herror
  · cases h.symm.trans herror

/-- What the printed text of a document reads as, if there is one. -/
theorem exists_dump_read_iff (h : document.Exact) :
    (∃ text, document.dump host = .ok text ∧ read host text = .ok document) ↔
      document.Short ∧ document.depth ≤ host.printing ∧ document.depth ≤ host.reading := by
  constructor
  · rintro ⟨text, hdump, hread⟩
    obtain ⟨rfl, hshort, hprinting⟩ := of_dump hdump
    exact ⟨hshort, hprinting, depth_of_read hread⟩
  · rintro ⟨hshort, hprinting, hreading⟩
    exact ⟨document.print, dump_of_short hshort hprinting,
      (read_print_iff h).2 ⟨hshort, hreading⟩⟩

/-- Documents of three levels are printed on every host. -/
theorem dump_of_plain (host : Host) (hplain : document.Plain) (hdepth : document.depth ≤ 3) :
    document.dump host = .ok document.print :=
  dump_of_short (plain_iff.1 hplain).2 (Nat.le_trans hdepth host.documents.2)

end Dump

end Json

/-! ## Fields -/

/-- The document of the fields is printed on every host. -/
theorem dump_fieldsDocument (host : Host) (fields : Register) :
    (fieldsDocument fields).dump host = .ok (fieldsDocument fields).print :=
  Json.dump_of_plain host (plain_fieldsDocument fields) (depth_fieldsDocument_le fields)

/-- The texts that an object has under some names. -/
def Json.memberTexts? (names : List Text) (document : Json) : Option (List Text) :=
  names.mapM fun name => do (← document.member? name).text?

/-- What a document lists of each of its fields: key, type, label and default. -/
def fieldTexts? (document : Json) : Option (List (List Text)) := do
  let items ← (← document.member? "fields").items?
  items.mapM (Json.memberTexts? ["key", "type", "label", "default"])

theorem fieldTexts?_fieldsDocument (fields : Register) :
    fieldTexts? (fieldsDocument fields) =
      some (fields.map fun field => [field.key, field.kind.word, field.label, field.default]) := by
  have htexts : (fields.map Field.toJson).mapM
      (Json.memberTexts? ["key", "type", "label", "default"]) =
        some (fields.map fun field =>
          [field.key, field.kind.word, field.label, field.default]) := by
    induction fields with
    | nil => rfl
    | cons field fields ih =>
      rw [List.map_cons, List.mapM_cons, ih]
      rfl
  exact htexts

/-! ## What is said of a component -/

theorem plainItems_texts (texts : List Text) : Json.PlainItems (texts.map .string) := by
  induction texts with
  | nil => trivial
  | cons text texts ih => exact ⟨trivial, ih⟩

theorem Json.depthOfMembers_append (first second : List (Text × Json)) :
    depthOfMembers (first ++ second) = max (depthOfMembers first) (depthOfMembers second) := by
  induction first with
  | nil => exact (Nat.zero_max _).symm
  | cons member first ih => rw [List.cons_append, depthOfMembers, depthOfMembers, ih, Nat.max_assoc]

theorem depthOf_texts (texts : List Text) : Json.depthOf (texts.map .string) = 0 := by
  induction texts with
  | nil => rfl
  | cons text texts ih =>
    rw [List.map_cons, Json.depthOf, ih]
    rfl

theorem plainMembers_append {first second : List (Text × Json)} (hfirst : Json.PlainMembers first)
    (hsecond : Json.PlainMembers second) : Json.PlainMembers (first ++ second) := by
  induction first with
  | nil => exact hsecond
  | cons member first ih => exact ⟨hfirst.1, ih hfirst.2⟩

section OptionalMember

variable (name : Text) (text : Option Text)

theorem plainMembers_optionalMember : Json.PlainMembers (optionalMember name text) := by
  cases text with
  | none => trivial
  | some text => exact ⟨trivial, trivial⟩

theorem depthOfMembers_optionalMember : Json.depthOfMembers (optionalMember name text) = 0 := by
  cases text <;> rfl

theorem names_optionalMember_sublist :
    ((optionalMember name text).map Prod.fst).Sublist [name] := by
  cases text with
  | none => exact List.nil_sublist _
  | some text => exact List.Sublist.refl _

end OptionalMember

/-- The names of the document about a component are distinct, whichever of them are left out. -/
theorem plain_metaDocument (request : Request) (slug : Text) :
    (metaDocument request slug).Plain := by
  have hnames : (["name"] ++ ["slug"] ++ ["category"] ++ ["tags", "description", "bootstrap",
      "accessibility", "version"] : List Text).Nodup := by
    decide
  have hready : (["ariaReady"] : List Text).Nodup := by
    decide
  have hname := names_optionalMember_sublist "name" request.componentName
  have hcategory := names_optionalMember_sublist "category" request.category
  unfold metaDocument
  constructor
  · refine hnames.sublist ?_
    rw [List.map_append, List.map_append, List.map_append]
    exact ((hname.append (List.Sublist.refl _)).append hcategory).append (List.Sublist.refl _)
  · refine plainMembers_append (plainMembers_append (plainMembers_append ?_ ?_) ?_) ?_
    · exact plainMembers_optionalMember "name" request.componentName
    · exact ⟨trivial, trivial⟩
    · exact plainMembers_optionalMember "category" request.category
    · exact ⟨plainItems_texts request.tags, trivial, trivial, ⟨hready, trivial, trivial⟩, trivial,
        trivial⟩

/-- The document about a component is an object with an array and an object. -/
theorem depth_metaDocument_le (request : Request) (slug : Text) :
    (metaDocument request slug).depth ≤ 3 := by
  simp [metaDocument, documentVersion, Json.depth, Json.depthOfMembers,
    Json.depthOfMembers_append, depthOfMembers_optionalMember, depthOf_texts]

/-- The document about a component is printed on every host. -/
theorem dump_metaDocument (host : Host) (request : Request) (slug : Text) :
    (metaDocument request slug).dump host = .ok (metaDocument request slug).print :=
  Json.dump_of_plain host (plain_metaDocument request slug) (depth_metaDocument_le request slug)

/-- The printed document about a component can be read on every host. -/
theorem read_print_metaDocument (host : Host) (request : Request) (slug : Text) :
    Json.read host (metaDocument request slug).print = .ok (metaDocument request slug) :=
  Json.read_print (plain_metaDocument request slug)
    (Nat.le_trans (depth_metaDocument_le request slug) host.documents.1)

/-- Whether a document says of a component what its request and its slug say. -/
structure Tells (document : Json) (request : Request) (slug : Text) : Prop where
  name : document.member? "name" = request.componentName.map .string
  slug : document.member? "slug" = some (.string slug)
  category : document.member? "category" = request.category.map .string
  tags : document.member? "tags" = some (.array (request.tags.map .string))
  description :
    document.member? "description" = some (.string (statedDescription request.description))

theorem tells_metaDocument (request : Request) (slug : Text) :
    Tells (metaDocument request slug) request slug := by
  obtain ⟨name, html, category, tags, options, description⟩ := request
  cases name <;> cases category <;> exact ⟨rfl, rfl, rfl, rfl, rfl⟩

/-! ## Reading back -/

namespace Json

/-- **The documents read back.** A document of objects with distinct names, arrays, strings,
integers, truth values and nulls is printed as a text that reads as the document just when none of
its integers has more digits than can be read and there is room for its levels, to print and to read
them. One that is not printed has an integer that is too long, or is too deep; and so is one that is
printed and not read back. The two documents of a component are always printed and always read back:
the one about its fields tells key, type, label and default of each of them in order, and the one
about the component tells its slug, its tags, its description, and name and category where the
request has them. -/
theorem documents_read_back (host : Host) :
    (∀ document : Json, document.Exact →
      ((∃ text, document.dump host = .ok text ∧ read host text = .ok document) ↔
        (∀ value : Int, .int value ∈ document.parts →
          (natNumeral value.natAbs).length ≤ maxIntegerDigits) ∧
        document.depth ≤ host.printing ∧ document.depth ≤ host.reading) ∧
      (document.dump host = .error .longInteger → ∃ value : Int, .int value ∈ document.parts ∧
        maxIntegerDigits < (natNumeral value.natAbs).length) ∧
      (document.dump host = .error .tooDeep → host.printing < document.depth) ∧
      ∀ text, document.dump host = .ok text → host.reading < document.depth →
        ∃ descent, read host text = .error (.tooDeep descent)) ∧
      (∀ fields : Register, ∃ text document,
        (fieldsDocument fields).dump host = .ok text ∧ read host text = .ok document ∧
          document = fieldsDocument fields ∧
          fieldTexts? document = some (fields.map fun field =>
            [field.key, field.kind.word, field.label, field.default])) ∧
      ∀ (request : Request) (slug : Text), ∃ text document,
        (metaDocument request slug).dump host = .ok text ∧ read host text = .ok document ∧
          document = metaDocument request slug ∧ Tells document request slug := by
  refine ⟨?_, ?_, ?_⟩
  · intro document hexact
    refine ⟨exists_dump_read_iff hexact, ?_, ?_, ?_⟩
    · intro hfault
      rcases document.dump_cases host with ⟨-, -, hok⟩ | ⟨⟨value, hvalue, hlong⟩, -⟩ | ⟨-, hdeep⟩
      · cases hfault.symm.trans hok
      · exact ⟨value, hvalue, Nat.not_le.1 hlong⟩
      · cases hfault.symm.trans hdeep
    · intro hfault
      rcases document.dump_cases host with ⟨-, -, hok⟩ | ⟨-, hlong⟩ | ⟨hdeep, -⟩
      · cases hfault.symm.trans hok
      · cases hfault.symm.trans hlong
      · exact hdeep
    · intro text hdump hdeep
      obtain ⟨rfl, hshort, -⟩ := of_dump hdump
      exact tooDeep_of_print (plain_iff.2 ⟨hexact, hshort⟩) hdeep
  · intro fields
    exact ⟨_, _, dump_fieldsDocument host fields, read_print_fieldsDocument host fields, rfl,
      fieldTexts?_fieldsDocument fields⟩
  · intro request slug
    exact ⟨_, _, dump_metaDocument host request slug, read_print_metaDocument host request slug,
      rfl, tells_metaDocument request slug⟩

/-- A document with an empty array, a control and a quote in a name, and a negative integer. -/
theorem documents_read_back_nested :
    let document : Json := .object [("a\"\n", .array []),
      ("b", .array [.object [("c", .int (-12)), ("d", .null)], .string "\x7f\\u2028"])]
    document.Exact ∧ ∃ text, document.dump .usual = .ok text ∧
      read .usual text = .ok document := by
  intro document
  have hparts : document.parts = [document, .array [],
      .array [.object [("c", .int (-12)), ("d", .null)], .string "\x7f\\u2028"],
      .object [("c", .int (-12)), ("d", .null)], .int (-12), .null, .string "\x7f\\u2028"] := rfl
  have hexact : document.Exact := by
    intro part hpart
    simp only [hparts, List.mem_cons, List.not_mem_nil, or_false] at hpart
    rcases hpart with rfl | rfl | rfl | rfl | rfl | rfl | rfl <;> simp [IsExact]
    · decide
    · decide
  refine ⟨hexact, ((documents_read_back .usual).1 document hexact).1.2 ⟨?_, by decide, by decide⟩⟩
  intro value hvalue
  have honly : value = -12 := by
    simpa [hparts, document] using hvalue
  rw [honly]
  decide

/-- A document with an integer of one digit too many is not printed. -/
theorem long_integer_not_printed :
    let document : Json := .object [("n", .int (10 ^ 4300))]
    document.Exact ∧ document.dump .usual = .error .longInteger := by
  intro document
  have hparts : document.parts = [document, .int (10 ^ 4300)] := rfl
  have hdepth : document.depth = 1 := rfl
  constructor
  · intro part hpart
    rw [hparts, List.mem_cons, List.mem_singleton] at hpart
    rcases hpart with rfl | rfl
    · exact List.nodup_singleton _
    · trivial
  · rcases document.dump_cases .usual with ⟨hshort, -⟩ | ⟨-, hlong⟩ | ⟨hdeep, -⟩
    · have hmem : .int (10 ^ 4300) ∈ document.parts :=
        hparts ▸ List.mem_cons_of_mem document List.mem_cons_self
      have hlength := hshort (10 ^ 4300) hmem
      exact absurd ((isShort_pow_iff 4300).1 hlength) (Nat.lt_irrefl maxIntegerDigits)
    · exact hlong
    · rw [hdepth] at hdeep
      exact absurd hdeep (by decide)

end Json

end Stencil
