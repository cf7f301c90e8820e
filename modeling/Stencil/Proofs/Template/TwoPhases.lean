import Mathlib.Data.List.Induction
import Mathlib.Data.List.Nodup
import Stencil.Proofs.Template.Walk
import Stencil.Proofs.Text.Pieces

/-!
# One pass and two phases

`Template.ofTree` names, registers and writes in one walk over the tree. Here the same template is
put together in two phases: the places of the tree are listed and named as a list, and the keys are
then written into the tree (`Template.ofTree_eq_two_phases`). The fields are those of the first
places that have their key, in the order in which the keys first come up (`Register.firsts`).
-/

set_option autoImplicit false

namespace Stencil

/-! ## The register after a walk -/

namespace Register

/-- The first field of each key, in the order in which the keys first come up. -/
def firsts (fields : List Field) : Register :=
  (fields.map Field.key).eraseDups.filterMap fun key => fields.find? (·.key = key)

theorem exists_find?_of_mem {fields : List Field} {key : Text} (hmem : key ∈ fields.map Field.key) :
    ∃ field, fields.find? (·.key = key) = some field ∧ field.key = key := by
  obtain ⟨field, hfield, hkey⟩ := List.mem_map.1 hmem
  have hsome : (fields.find? (·.key = key)).isSome := by
    rw [List.find?_isSome]
    exact ⟨field, hfield, decide_eq_true hkey⟩
  obtain ⟨first, hfirst⟩ := Option.isSome_iff_exists.1 hsome
  have hsame := List.find?_some hfirst
  exact ⟨first, hfirst, of_decide_eq_true hsame⟩

theorem map_key_firsts (fields : List Field) :
    (firsts fields).map Field.key = (fields.map Field.key).eraseDups := by
  rw [firsts, List.map_filterMap]
  refine (List.filterMap_congr ?_).trans List.filterMap_some
  intro key hmem
  obtain ⟨field, hfind, hkey⟩ := exists_find?_of_mem (List.mem_eraseDups.1 hmem)
  rw [hfind, Option.map_some, hkey]

/-- A field is kept just when it is the first one of its key. -/
theorem mem_firsts_iff {fields : List Field} {field : Field} :
    field ∈ firsts fields ↔ fields.find? (·.key = field.key) = some field := by
  rw [firsts, List.mem_filterMap]
  constructor
  · rintro ⟨key, -, hfind⟩
    have hkey : field.key = key := by
      simpa using List.find?_some hfind
    rw [hkey]
    exact hfind
  · intro hfind
    refine ⟨field.key, List.mem_eraseDups.2 ?_, hfind⟩
    exact List.mem_map_of_mem (List.mem_of_find?_eq_some hfind)

theorem has_firsts (fields : List Field) (key : Text) :
    (firsts fields).has key = true ↔ key ∈ fields.map Field.key := by
  rw [← List.mem_eraseDups, ← map_key_firsts, has, List.any_eq_true, List.mem_map]
  simp only [decide_eq_true_eq]

/-- A further field counts only when its key is new. -/
theorem firsts_concat (fields : List Field) (field : Field) :
    firsts (fields ++ [field]) =
      if field.key ∈ fields.map Field.key then firsts fields else firsts fields ++ [field] := by
  -- Where a key was there before, the field behind it is never looked at.
  have hold : (fields.map Field.key).eraseDups.filterMap
      (fun key => (fields ++ [field]).find? (·.key = key)) = firsts fields := by
    refine List.filterMap_congr ?_
    intro key hmem
    obtain ⟨first, hfind, -⟩ := exists_find?_of_mem (List.mem_eraseDups.1 hmem)
    rw [List.find?_append, hfind, Option.some_or]
  rw [firsts, List.map_append, List.map_singleton, Text.eraseDups_concat]
  by_cases htaken : field.key ∈ fields.map Field.key
  · rw [if_pos htaken, if_pos htaken, hold]
  · have hnew : fields.find? (·.key = field.key) = none := by
      rw [List.find?_eq_none]
      intro other hother hkey
      exact htaken (List.mem_map.2 ⟨other, hother, of_decide_eq_true hkey⟩)
    rw [if_neg htaken, if_neg htaken, List.filterMap_append, hold]
    simp [List.find?_append, hnew]

/-- No key is registered twice. -/
theorem nodup_firsts (fields : List Field) : ((firsts fields).map Field.key).Nodup := by
  induction fields using List.reverseRecOn with
  | nil => exact List.nodup_nil
  | append_singleton fields field ih =>
    rw [firsts_concat]
    split
    · exact ih
    · next hnew =>
      rw [List.map_append, List.map_singleton, List.nodup_append]
      refine ⟨ih, List.nodup_singleton field.key, ?_⟩
      intro old hold other hother hsame
      rw [map_key_firsts, List.mem_eraseDups] at hold
      rw [hsame, List.mem_singleton.1 hother] at hold
      exact hnew hold

end Register

namespace Run

/-- The fields that a list of places gets in a given state. -/
def fieldsOf (mode : ClassMode) (run : Run) (places : List Place) : List Field :=
  List.zipWith Place.field (Naming.keys mode places run.naming) places

theorem note_register (run : Run) (field : Field) :
    (run.note field).register =
      if run.register.has field.key then run.register else run.register ++ [field] := by
  unfold note Register.add?
  by_cases htaken : run.register.has field.key = true
  · simp only [htaken, if_true]
  · simp only [htaken, if_false, Bool.false_eq_true]

theorem note_repeated (run : Run) (field : Field) :
    (run.note field).repeated =
      if run.register.has field.key then run.repeated ++ [field.key] else run.repeated := by
  unfold note Register.add?
  by_cases htaken : run.register.has field.key = true
  · simp only [htaken, if_true]
  · simp only [htaken, if_false, Bool.false_eq_true]

theorem fieldsOf_cons {mode : ClassMode} {run : Run} {place : Place} {key : Text}
    {naming : Naming} (hask : run.naming.ask mode place = (some key, naming))
    (rest : List Place) :
    run.fieldsOf mode (place :: rest) =
      place.field key :: (run.visit mode place).fieldsOf mode rest := by
  rw [fieldsOf, fieldsOf, Naming.keys, visit_naming, hask]
  rfl

theorem map_key_fieldsOf {mode : ClassMode} {places : List Place}
    (hopen : ∀ place ∈ places, place.Open mode) (run : Run) :
    (run.fieldsOf mode places).map Field.key = Naming.keys mode places run.naming := by
  have hlength := Naming.length_keys hopen run.naming
  rw [fieldsOf, List.map_zipWith]
  calc List.zipWith (fun key _ => key) (Naming.keys mode places run.naming) places
      = ((Naming.keys mode places run.naming).zip places).map Prod.fst := by
        rw [List.zip_eq_zipWith, List.map_zipWith]
    _ = Naming.keys mode places run.naming := List.map_fst_zip (Nat.le_of_eq hlength)

theorem visit_register {mode : ClassMode} {run : Run} {place : Place} {key : Text}
    {naming : Naming} (hask : run.naming.ask mode place = (some key, naming))
    {earlier : List Field} (hrun : run.register = Register.firsts earlier) :
    (run.visit mode place).register = Register.firsts (earlier ++ [place.field key]) := by
  rw [visit_of_ask hask, note_register, Register.firsts_concat]
  simp only [hrun, Register.has_firsts]

/-- The register holds the first field of each key, whatever was registered before. -/
theorem visitAll_register {mode : ClassMode} {places : List Place}
    (hopen : ∀ place ∈ places, place.Open mode) {run : Run} {earlier : List Field}
    (hrun : run.register = Register.firsts earlier) :
    (run.visitAll mode places).register =
      Register.firsts (earlier ++ run.fieldsOf mode places) := by
  induction places generalizing run earlier with
  | nil => rw [visitAll_nil, fieldsOf, List.zipWith_nil_right, List.append_nil, hrun]
  | cons place rest ih =>
    obtain ⟨key, next, hask⟩ := Naming.exists_ask (hopen place List.mem_cons_self) run.naming
    have hvisit := visit_register hask hrun
    rw [visitAll_cons, ih (fun other hmem => hopen other (List.mem_cons_of_mem place hmem)) hvisit,
      fieldsOf_cons hask, List.append_assoc, List.singleton_append]

theorem repeated_eq_nil_of_visit {mode : ClassMode} {run : Run} {place : Place}
    (hnone : (run.visit mode place).repeated = []) : run.repeated = [] := by
  unfold visit at hnone
  split at hnone
  · rw [note_repeated] at hnone
    split at hnone
    · exact (List.append_eq_nil_iff.1 hnone).1
    · exact hnone
  · exact hnone

theorem repeated_eq_nil_of_visitAll {mode : ClassMode} {places : List Place} {run : Run}
    (hnone : (run.visitAll mode places).repeated = []) : run.repeated = [] := by
  induction places generalizing run with
  | nil => exact hnone
  | cons place rest ih => exact repeated_eq_nil_of_visit (ih hnone)

/-- Where no key came up again, the keys are distinct, also from all that were registered before. -/
theorem nodup_of_repeated_eq_nil {mode : ClassMode} {places : List Place}
    (hopen : ∀ place ∈ places, place.Open mode) {run : Run} {earlier : List Field}
    (hrun : run.register = Register.firsts earlier) (hearlier : (earlier.map Field.key).Nodup)
    (hnone : (run.visitAll mode places).repeated = []) :
    ((earlier ++ run.fieldsOf mode places).map Field.key).Nodup := by
  induction places generalizing run earlier with
  | nil =>
    rw [fieldsOf, List.zipWith_nil_right, List.append_nil]
    exact hearlier
  | cons place rest ih =>
    obtain ⟨key, next, hask⟩ := Naming.exists_ask (hopen place List.mem_cons_self) run.naming
    -- The place itself repeated nothing, for repeated keys are never taken back.
    have hvisit : (run.visit mode place).repeated = [] := repeated_eq_nil_of_visitAll hnone
    rw [visit_of_ask hask, note_repeated] at hvisit
    have hnew : key ∉ earlier.map Field.key := by
      intro htaken
      have hhas : run.register.has key = true := by
        rw [hrun, Register.has_firsts]
        exact htaken
      simp [Place.field, hhas] at hvisit
    have hnodup : ((earlier ++ [place.field key]).map Field.key).Nodup := by
      rw [List.map_append, List.map_singleton, List.nodup_append]
      refine ⟨hearlier, List.nodup_singleton key, ?_⟩
      intro old hold other hother
      rw [List.mem_singleton] at hother
      subst hother
      exact fun hsame => hnew (hsame ▸ hold)
    have hrest := ih (fun other hmem => hopen other (List.mem_cons_of_mem place hmem))
      (visit_register hask hrun) hnodup hnone
    rw [List.append_assoc, List.singleton_append, ← fieldsOf_cons hask] at hrest
    exact hrest

end Run

/-- The fields of a template are the first ones of each key. -/
theorem Template.fields_ofTree (options : Options) (tree : List Node) :
    (Template.ofTree options tree).fields = Register.firsts
      (List.zipWith Place.field
        (Naming.keys options.classMode (Node.placesOf options none tree) {})
        (Node.placesOf options none tree)) := by
  have hstart : ({} : Run).register = Register.firsts [] := rfl
  have hopen : ∀ place ∈ Node.placesOf options none tree, place.Open options.classMode :=
    fun _ => Node.open_of_mem_placesOf tree
  have hregister := Run.visitAll_register hopen hstart
  rw [Template.ofTree, Node.renderAll_eq]
  exact hregister

/-- **One pass is two phases.** List the editable places of a tree, name the list on its own from a
fresh history, and write the keys into the tree: every place has a key, the text of the template is
the tree written literally with the i-th key at the i-th place, and the fields are, in the order of
first occurrence, the field of the first place with each key. -/
theorem Template.ofTree_eq_two_phases (options : Options) (tree : List Node) :
    let places := Node.placesOf options none tree
    let keys := Naming.keys options.classMode places {}
    keys.length = places.length ∧
      (Template.ofTree options tree).text =
        Node.printAll (Node.fillAll options none tree (keys.map placeholder)) ∧
      (Template.ofTree options tree).fields =
        keys.eraseDups.filterMap fun key =>
          (List.zipWith Place.field keys places).find? (·.key = key) := by
  intro places keys
  have hopen : ∀ place ∈ places, place.Open options.classMode :=
    fun _ => Node.open_of_mem_placesOf tree
  refine ⟨Naming.length_keys hopen {}, Template.text_ofTree options tree, ?_⟩
  have hkeys : (List.zipWith Place.field keys places).map Field.key = keys :=
    Run.map_key_fieldsOf hopen {}
  rw [Template.fields_ofTree, Register.firsts, hkeys]

end Stencil
