import Stencil.Proofs.Template.FixedClasses
import Stencil.Proofs.Text.References

/-!
# Attributes that stay literal

The class of an element stays as it is in the fixed mode, and so does each other attribute that is
not editable. Its value is escaped on the way into the template, so that what the template says is
the value as it stands in the source (`Template.literals_decoded`). The source may hold references
of its own. They are not decoded when the source is read, and escaping their ampersands makes the
template say the reference where the source says what it stands for
(`Template.reference_escaped_twice`); for a value without references both say the same.
-/

set_option autoImplicit false

namespace Stencil

variable {options : Options} {naming : Naming} {tag : Tag} {name content : Text}

/-- Whether an attribute with the given text stays literal: the class in the fixed mode or without
a text to it, any other attribute if it is not editable. -/
def Options.Keeps (options : Options) (name content : Text) : Prop :=
  if name = "class" then options.classMode = .fixed ∨ content = [] else name ∉ options.editable

/-! ## The value of an attribute in the written tag -/

namespace Attributes

theorem value?_append_of_forall_ne {front : Attributes} (hfront : ∀ entry ∈ front, entry.1 ≠ name)
    (back : Attributes) : value? name (front ++ back) = value? name back := by
  induction front with
  | nil => rfl
  | cons head front ih =>
    obtain ⟨hhead, hlater⟩ := List.forall_mem_cons.1 hfront
    rw [List.cons_append, value?, if_neg hhead, ih hlater]

end Attributes

namespace Tag

theorem value?_writtenOthers (hclass : name ≠ "class") (hliteral : name ∉ options.editable)
    (tag : Tag) (naming : Naming) (attributes : Attributes) :
    Attributes.value? name (tag.writtenOthers options naming attributes) =
      (Attributes.value? name attributes).map AttributeValue.literal := by
  induction attributes generalizing naming with
  | nil => rfl
  | cons head rest ih =>
    obtain ⟨other, value⟩ := head
    rw [writtenOthers_cons, Attributes.value?]
    by_cases hsame : other = name
    · -- The attribute itself: it is neither the class nor editable.
      subst hsame
      rw [if_neg hclass, if_neg (by simpa using hliteral), if_pos rfl, Attributes.value?,
        if_pos rfl]
      rfl
    rw [if_neg hsame]
    split
    · exact ih naming
    · split
      · rw [Attributes.value?, if_neg hsame, ih]
      · rw [Attributes.value?, if_neg hsame, ih]

/-- A text that stays literal stands in the written tag escaped. -/
theorem value?_written_of_keeps
    (hvalue : Attributes.value? name tag.attributes = some (.text content))
    (hkeeps : options.Keeps name content) (naming : Naming) :
    Attributes.value? name (tag.written options naming).attributes =
      some (.text (escapeAttribute content)) := by
  rw [attributes_written]
  by_cases hclass : name = "class"
  · subst hclass
    rw [Options.Keeps, if_pos rfl] at hkeeps
    have hnone : tag.classPlaces options = [] := by
      rw [classPlaces, hvalue]
      exact if_pos hkeeps.symm
    rw [writtenClass, fillClass, hvalue, hnone]
    rfl
  · rw [Options.Keeps, if_neg hclass] at hkeeps
    have hothers : ∀ entry ∈ tag.writtenClass options naming, entry.1 ≠ name := by
      intro entry hentry hsame
      exact hclass (hsame.symm.trans (name_of_mem_writtenClass entry hentry))
    rw [Attributes.value?_append_of_forall_ne hothers, value?_writtenOthers hclass hkeeps, hvalue]
    rfl

end Tag

/-! ## Whole templates -/

/-- **What literal attributes say.** Let the tags of a template be paired with those of its source
in document order. An attribute that stays literal has in the template a value that says what the
source has, taken as it stands. It says the same as the source, with the references of both read, if
and only if the source has none there. -/
theorem Template.literals_decoded (options : Options) (markup : Text) :
    let tree := Node.parse markup
    let written := Node.writtenAll options none {} tree
    (ofTree options tree).text = Node.printAll written ∧
      List.Forall₂
        (fun source tag => ∀ name content,
          Attributes.value? name source.attributes = some (.text content) →
          options.Keeps name content →
          ∃ literal, Attributes.value? name tag.attributes = some (.text literal) ∧
            Text.decodeReferences literal = content ∧
            (Text.decodeReferences literal = Text.decodeReferences content ↔
              ¬ Text.HasReference content))
        (Node.tagsOf tree) (Node.tagsOf written) := by
  intro tree written
  have htags := Node.forall₂_tagsOf_written options tree {}
  rw [Node.pruneAll_of_legibleAll _ (Node.legibleAll_parse markup)] at htags
  refine ⟨text_eq_printAll options tree, htags.imp ?_⟩
  rintro source _ ⟨history, rfl⟩ name content hvalue hkeeps
  refine ⟨escapeAttribute content, Tag.value?_written_of_keeps hvalue hkeeps history,
    Text.decode_escapeAttribute content, ?_⟩
  rw [Text.decode_escapeAttribute, eq_comm]
  exact Text.decodeReferences_eq_self_iff

/-- A title with a reference in it: the source says `a&b`, and the template says `a&amp;b`. -/
theorem Template.reference_escaped_twice :
    let options : Options := { editable := [] }
    let tree := Node.parse "<p title=\"a&amp;b\"></p>"
    let source : Tag := ⟨"p", [("title", .text "a&amp;b")]⟩
    let written : Tag := ⟨"p", [("title", .text "a&amp;amp;b")]⟩
    Node.tagsOf tree = [source] ∧
      Node.tagsOf (Node.writtenAll options none {} tree) = [written] ∧
      options.Keeps "title" "a&amp;b" ∧
      Text.decodeReferences "a&amp;amp;b" = "a&amp;b" ∧
      Text.decodeReferences "a&amp;b" = "a&b" ∧
      Text.decodeReferences "a&amp;amp;b" ≠ Text.decodeReferences "a&amp;b" := by
  intro options tree source written
  have hkeeps : options.Keeps "title" "a&amp;b" := by
    rw [Options.Keeps, if_neg (by decide)]
    exact List.not_mem_nil
  exact ⟨by decide +kernel, by decide +kernel, hkeeps, by decide, by decide, by decide⟩

end Stencil
