import Stencil.Proofs.Template.Switches
import Stencil.Proofs.Template.TwoPhases

/-!
# Leaving places out

Options that make less editable leave places out of the list of a tree (`Node.placesOf_thinned`).
The places that stay may still get other keys, since the history before them is another one, and the
register may keep other fields, since the first field of a key may be gone.

Both are ruled out piece by piece. A `Thinning` compares two namings of a list, the second with some
places left out: as long as the histories are related, the fields that are looked at are the same,
and the histories stay related. Then the fields that are looked at are the same throughout
(`Thinning.filter_fields`). If it depends on the key alone whether a field is looked at, the same
holds of the registers (`Register.filter_firsts`).
-/

set_option autoImplicit false

namespace Stencil

/-! ## The fields of a list of places -/

namespace Naming

/-- The fields that places get when they are named one after another. -/
def fields (mode : ClassMode) : List Place → Naming → List Field
  | [], _ => []
  | place :: rest, naming =>
    ((naming.ask mode place).1.toList.map fun key => place.field key) ++
      fields mode rest (naming.ask mode place).2

theorem fields_append (mode : ClassMode) (first second : List Place) (naming : Naming) :
    fields mode (first ++ second) naming =
      fields mode first naming ++ fields mode second (after mode first naming) := by
  induction first generalizing naming with
  | nil => rfl
  | cons place rest ih =>
    rw [List.cons_append, fields, ih, fields, List.append_assoc]
    rfl

/-- Where every place has a key, each has the field of its key. -/
theorem fields_eq_zipWith {mode : ClassMode} {places : List Place}
    (hopen : ∀ place ∈ places, place.Open mode) (naming : Naming) :
    fields mode places naming = List.zipWith Place.field (keys mode places naming) places := by
  induction places generalizing naming with
  | nil => rfl
  | cons place rest ih =>
    obtain ⟨key, next, hask⟩ := exists_ask (hopen place List.mem_cons_self) naming
    have hrest := ih (fun other hother => hopen other (List.mem_cons_of_mem place hother)) next
    rw [fields, keys, hask, hrest]
    rfl

/-- What holds of the field of each place, whatever was named before, holds of all fields. -/
theorem forall_mem_fields {mode : ClassMode} {holds : Field → Prop} {places : List Place}
    (hask : ∀ place ∈ places, ∀ naming : Naming, ∀ key ∈ (naming.ask mode place).1,
      holds (place.field key)) (naming : Naming) :
    ∀ field ∈ fields mode places naming, holds field := by
  induction places generalizing naming with
  | nil => exact fun _ hfield => absurd hfield List.not_mem_nil
  | cons place rest ih =>
    intro field hfield
    rcases List.mem_append.1 hfield with hfirst | hrest
    · obtain ⟨key, hkey, rfl⟩ := List.mem_map.1 hfirst
      exact hask place List.mem_cons_self naming key (Option.mem_toList.1 hkey)
    · exact ih (fun other hother => hask other (List.mem_cons_of_mem place hother)) _ field hrest

end Naming

/-- The fields of a template are the first ones of each key among those of its places. -/
theorem Template.fields_eq_firsts (options : Options) (tree : List Node) :
    (ofTree options tree).fields = Register.firsts
      (Naming.fields options.classMode (Node.placesOf options none tree) {}) := by
  rw [fields_ofTree, Naming.fields_eq_zipWith fun _ => Node.open_of_mem_placesOf tree]

theorem Register.mem_of_mem_firsts {fields : List Field} {field : Field}
    (h : field ∈ firsts fields) : field ∈ fields :=
  List.mem_of_find?_eq_some (mem_firsts_iff.1 h)

/-- If fields with the same key are kept or dropped together, it does not matter whether the first
of each key are taken before or after some are dropped. -/
theorem Register.filter_firsts {keeps : Field → Bool} {fields : List Field}
    (hkey : ∀ first ∈ fields, ∀ second ∈ fields, first.key = second.key →
      keeps first = keeps second) :
    (firsts fields).filter keeps = firsts (fields.filter keeps) := by
  induction fields using List.reverseRecOn with
  | nil => rfl
  | append_singleton fields field ih =>
    have hfields := ih fun first hfirst second hsecond =>
      hkey first (List.mem_append_left _ hfirst) second (List.mem_append_left _ hsecond)
    rw [firsts_concat, List.filter_append]
    by_cases hkept : keeps field = true
    · -- The key is taken among the kept fields just when it is taken at all.
      have htaken : field.key ∈ (fields.filter keeps).map Field.key ↔
          field.key ∈ fields.map Field.key := by
        simp only [List.mem_map, List.mem_filter]
        constructor
        · rintro ⟨other, ⟨hother, -⟩, hsame⟩
          exact ⟨other, hother, hsame⟩
        · rintro ⟨other, hother, hsame⟩
          have hboth := hkey other (List.mem_append_left _ hother) field (by simp) hsame
          exact ⟨other, ⟨hother, hboth.trans hkept⟩, hsame⟩
      rw [List.filter_cons_of_pos hkept, List.filter_nil, firsts_concat]
      by_cases hold : field.key ∈ fields.map Field.key
      · rw [if_pos hold, if_pos (htaken.2 hold), hfields]
      · rw [if_neg hold, if_neg (fun hnew => hold (htaken.1 hnew)), List.filter_append, hfields,
          List.filter_cons_of_pos hkept, List.filter_nil]
    · rw [List.filter_cons_of_neg hkept, List.filter_nil, List.append_nil]
      split
      · exact hfields
      · rw [List.filter_append, List.filter_cons_of_neg hkept, List.filter_nil, List.append_nil,
          hfields]

/-- Behind a field, it does not matter whether others with its key are there. -/
theorem Register.firsts_append_filter {fields : List Field} {key : Text}
    (hkey : key ∈ fields.map Field.key) (later : List Field) :
    firsts (fields ++ later) = firsts (fields ++ later.filter (·.key ≠ key)) := by
  induction later using List.reverseRecOn with
  | nil => rfl
  | append_singleton later field ih =>
    rw [← List.append_assoc, firsts_concat, List.filter_append, ih]
    by_cases hsame : field.key = key
    · have htaken : field.key ∈ (fields ++ later).map Field.key := by
        rw [hsame, List.map_append]
        exact List.mem_append_left _ hkey
      rw [if_pos htaken, List.filter_cons_of_neg (by simp [hsame]), List.filter_nil,
        List.append_nil]
    · have htaken : field.key ∈ (fields ++ later).map Field.key ↔
          field.key ∈ (fields ++ later.filter (·.key ≠ key)).map Field.key := by
        simp only [List.map_append, List.mem_append, List.mem_map, List.mem_filter]
        refine or_congr_right (exists_congr fun other => and_congr_left fun hother => ?_)
        simp [hother, hsame]
      rw [List.filter_cons_of_pos (by simp [hsame]), List.filter_nil, ← List.append_assoc,
        firsts_concat]
      simp only [htaken]

theorem Register.firsts_append_congr {fields first second : List Field} {key : Text}
    (hkey : key ∈ fields.map Field.key)
    (h : first.filter (·.key ≠ key) = second.filter (·.key ≠ key)) :
    firsts (fields ++ first) = firsts (fields ++ second) := by
  rw [firsts_append_filter hkey, h, ← firsts_append_filter hkey]

/-! ## Lists with places left out -/

namespace Node

mutual

theorem places_thinned {first second : Options} {skips : Place → Bool}
    (htag : ∀ tag : Tag, tag.places second = (tag.places first).filter (!skips ·))
    (htext : ∀ (parent : Option Tag) (content : Text),
      textPlaces second parent content = (textPlaces first parent content).filter (!skips ·))
    (parent : Option Tag) : ∀ node : Node,
      node.places second parent = (node.places first parent).filter (!skips ·)
  | .text content => htext parent content
  | .element tag children => by
    rw [places, places, List.filter_append, htag]
    by_cases hvoid : tag.isVoid = true
    · rw [if_pos hvoid, if_pos hvoid, List.filter_nil]
    · rw [if_neg hvoid, if_neg hvoid, placesOf_thinned htag htext (some tag) children]

/-- Options that leave places out of every tag and every text leave them out of the tree. -/
theorem placesOf_thinned {first second : Options} {skips : Place → Bool}
    (htag : ∀ tag : Tag, tag.places second = (tag.places first).filter (!skips ·))
    (htext : ∀ (parent : Option Tag) (content : Text),
      textPlaces second parent content = (textPlaces first parent content).filter (!skips ·))
    (parent : Option Tag) : ∀ nodes : List Node,
      placesOf second parent nodes = (placesOf first parent nodes).filter (!skips ·)
  | [] => rfl
  | node :: rest => by
    rw [placesOf, placesOf, List.filter_append, places_thinned htag htext parent node,
      placesOf_thinned htag htext parent rest]

end

end Node

/-! ## Comparing two namings -/

/-- Two namings of places, the second with those left out that are skipped, and the fields that are
looked at. The relation between the two histories may depend on the places to come. It survives each
place; a skipped place has no field that is looked at, and any other place has the same one in both
namings, or none. -/
structure Thinning (first second : ClassMode) (skips : Place → Bool) (looksAt : Field → Bool)
    (related : List Place → Naming → Naming → Prop) : Prop where
  skipped : ∀ (place : Place) (rest : List Place) (naming other : Naming), skips place = true →
    related (place :: rest) naming other →
      related rest (naming.ask first place).2 other ∧
        ∀ key ∈ (naming.ask first place).1, looksAt (place.field key) = false
  kept : ∀ (place : Place) (rest : List Place) (naming other : Naming), skips place = false →
    related (place :: rest) naming other →
      related rest (naming.ask first place).2 (other.ask second place).2 ∧
        ((naming.ask first place).1 = (other.ask second place).1 ∨
          (∀ key ∈ (naming.ask first place).1, looksAt (place.field key) = false) ∧
            ∀ key ∈ (other.ask second place).1, looksAt (place.field key) = false)

namespace Thinning

variable {first second : ClassMode} {skips : Place → Bool} {looksAt : Field → Bool}
  {related : List Place → Naming → Naming → Prop}

/-- The histories stay related throughout a list. -/
theorem related_after (h : Thinning first second skips looksAt related) (before later : List Place)
    {naming other : Naming} (hrelated : related (before ++ later) naming other) :
    related later (Naming.after first before naming)
      (Naming.after second (before.filter (!skips ·)) other) := by
  induction before generalizing naming other with
  | nil => exact hrelated
  | cons place rest ih =>
    by_cases hskip : skips place = true
    · rw [List.filter_cons_of_neg (by simp [hskip])]
      exact ih (h.skipped place _ naming other hskip hrelated).1
    · rw [List.filter_cons_of_pos (by simp [hskip])]
      exact ih (h.kept place _ naming other (Bool.not_eq_true _ ▸ hskip) hrelated).1

theorem filter_field_eq_nil {place : Place} {asked : Option Text}
    (hnone : ∀ key ∈ asked, looksAt (place.field key) = false) :
    (asked.toList.map fun key => place.field key).filter looksAt = [] := by
  rw [List.filter_eq_nil_iff]
  intro field hfield
  obtain ⟨key, hkey, rfl⟩ := List.mem_map.1 hfield
  rw [hnone key (Option.mem_toList.1 hkey)]
  exact Bool.false_ne_true

/-- Of two lists of fields, the parts that are looked at are the same. -/
theorem filter_fields (h : Thinning first second skips looksAt related) {places : List Place}
    {naming other : Naming} (hrelated : related places naming other) :
    (Naming.fields first places naming).filter looksAt =
      (Naming.fields second (places.filter (!skips ·)) other).filter looksAt := by
  induction places generalizing naming other with
  | nil => rfl
  | cons place rest ih =>
    by_cases hskip : skips place = true
    · obtain ⟨hnext, hnone⟩ := h.skipped place rest naming other hskip hrelated
      rw [List.filter_cons_of_neg (by simp [hskip]), Naming.fields, List.filter_append,
        filter_field_eq_nil hnone, List.nil_append]
      exact ih hnext
    · obtain ⟨hnext, hfield⟩ :=
        h.kept place rest naming other (Bool.not_eq_true _ ▸ hskip) hrelated
      rw [List.filter_cons_of_pos (by simp [hskip]), Naming.fields, Naming.fields,
        List.filter_append, List.filter_append, ih hnext]
      rcases hfield with hsame | ⟨hnone, hnone'⟩
      · rw [hsame]
      · rw [filter_field_eq_nil hnone, filter_field_eq_nil hnone']

end Thinning

end Stencil
