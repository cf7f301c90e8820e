import Stencil.Proofs.Template.Walk

/-!
# Appending content

A walk over a tree only adds: what it writes for the nodes behind comes behind what it has written,
and the register only grows at its end, since a field whose key is taken is dropped and none is ever
changed (`Run.register_prefix_visitAll`). So whatever is appended to a tree, its template and its
fields begin as they were (`Template.prefix_ofTree_append`).
-/

set_option autoImplicit false

namespace Stencil

namespace Run

/-! ## The register only grows -/

theorem register_prefix_note (run : Run) (field : Field) :
    run.register <+: (run.note field).register := by
  unfold note
  split
  · next register hadded =>
    -- Only a new field is added, behind all others.
    unfold Register.add? at hadded
    split at hadded
    · cases hadded
    · cases hadded
      exact List.prefix_append run.register [field]
  · exact List.prefix_refl _

theorem register_prefix_visit (mode : ClassMode) (run : Run) (place : Place) :
    run.register <+: (run.visit mode place).register := by
  unfold visit
  split
  · next key naming _ =>
    exact register_prefix_note { run with naming := naming } (place.field key)
  · exact List.prefix_refl _

/-- What is registered before some places stays, and stays in front. -/
theorem register_prefix_visitAll (mode : ClassMode) (run : Run) (places : List Place) :
    run.register <+: (run.visitAll mode places).register := by
  induction places generalizing run with
  | nil => exact List.prefix_refl _
  | cons place rest ih =>
    rw [visitAll_cons]
    exact (register_prefix_visit mode run place).trans (ih (run.visit mode place))

end Run

/-! ## Walks one behind another -/

/-- A walk over nodes goes on where the walk over those before them ends. -/
theorem Node.renderAll_append (options : Options) (parent : Option Tag) (first second : List Node)
    (run : Run) :
    renderAll options parent (first ++ second) run =
      let (front, middle) := renderAll options parent first run
      let (back, last) := renderAll options parent second middle
      (front ++ back, last) := by
  induction first generalizing run with
  | nil => rfl
  | cons node rest ih =>
    rw [List.cons_append, renderAll, renderAll]
    simp only [ih, List.append_assoc]

/-- **Appending changes nothing in front.** The template of a tree with more nodes behind it starts
with the template of the tree, and its fields start with the fields of the tree. -/
theorem Template.prefix_ofTree_append (options : Options) (first second : List Node) :
    (ofTree options first).text <+: (ofTree options (first ++ second)).text ∧
      (ofTree options first).fields <+: (ofTree options (first ++ second)).fields := by
  simp only [ofTree, Node.renderAll_append]
  constructor
  · exact List.prefix_append _ _
  · -- The walk over the nodes behind takes the register on from where it is.
    rw [Node.renderAll_eq options none second]
    exact Run.register_prefix_visitAll options.classMode _ _

end Stencil
