import Stencil.Proofs.Markup.Legible
import Stencil.Proofs.Markup.Nesting
import Stencil.Proofs.Template.Written

/-!
# Templates site by site

The tree of a template and its places can be read off the sites of the tree that it was made from,
with no regard to how the sites are nested. What is inside void elements is shown by no template and
left out first (`Node.pruneAll`). The places of a tree are those of the sites that are left, one
after another (`Node.placesOf_pruneAll`), and a template has each of these sites as it is written
from the history that those before it leave (`Node.visitsOf_written`).

In parsed trees void elements have no children, so there all sites count
(`Node.placesOf_eq_flatMap`).
-/

set_option autoImplicit false

namespace Stencil

namespace Site

/-- The tag of the element right around a node. -/
def parent? (site : Site) : Option Tag :=
  site.ancestors.getLast?.map Ancestor.tag

/-- The editable places of a node itself, without those below it. -/
def places (options : Options) (site : Site) : List Place :=
  match site.visit with
  | .text content => Node.textPlaces options site.parent? content
  | .element tag => tag.places options

/-- A node itself as a template has it, named from a given history. -/
def written (options : Options) (naming : Naming) (site : Site) : Visit :=
  match site.visit with
  | .text content => .text (Node.writtenText options site.parent? naming content)
  | .element tag => .element (tag.written options naming)

theorem parent?_inside (outer : List Ancestor) (parent : Ancestor) (visit : Visit) :
    parent? ⟨outer ++ [parent], visit⟩ = some parent.tag := by
  rw [parent?, List.getLast?_concat]
  rfl

theorem places_element (options : Options) (above : List Ancestor) (tag : Tag) :
    places options ⟨above, .element tag⟩ = tag.places options := rfl

theorem places_text_inside (options : Options) (outer : List Ancestor) (parent : Ancestor)
    (content : Text) :
    places options ⟨outer ++ [parent], .text content⟩ =
      Node.textPlaces options (some parent.tag) content := by
  rw [places, parent?_inside]

/-- Nodes as a template has them, each named from the history that those before it leave. -/
def writtenAll (options : Options) : Naming → List Site → List Visit
  | _, [] => []
  | naming, site :: later =>
    site.written options naming ::
      writtenAll options (Naming.after options.classMode (site.places options) naming) later

theorem length_writtenAll (options : Options) (naming : Naming) (sites : List Site) :
    (writtenAll options naming sites).length = sites.length := by
  induction sites generalizing naming with
  | nil => rfl
  | cons site later ih => rw [writtenAll, List.length_cons, ih, List.length_cons]

theorem writtenAll_append (options : Options) (naming : Naming) (first second : List Site) :
    writtenAll options naming (first ++ second) =
      writtenAll options naming first ++
        writtenAll options
          (Naming.after options.classMode (first.flatMap (places options)) naming) second := by
  induction first generalizing naming with
  | nil => rfl
  | cons site later ih =>
    rw [List.cons_append, writtenAll, ih, writtenAll, List.flatMap_cons, Naming.after_append,
      List.cons_append]

/-- A site is written from the history that the sites before it leave. -/
theorem getElem?_writtenAll (options : Options) (naming : Naming) (before later : List Site)
    (site : Site) :
    (writtenAll options naming (before ++ site :: later))[before.length]? =
      some (site.written options
        (Naming.after options.classMode (before.flatMap (places options)) naming)) := by
  rw [writtenAll_append, ← length_writtenAll options naming before,
    List.getElem?_append_right (Nat.le_refl _), Nat.sub_self]
  rfl

end Site

namespace Node

/-- The tags around a node of a parsed tree are tags as reading gives them. -/
theorem isRead_of_mem_ancestors_parse {markup : Text} {site : Site} {element : Ancestor}
    (hsite : site ∈ sitesOf 0 [] (parse markup)) (helement : element ∈ site.ancestors) :
    element.tag.IsRead := by
  rcases mem_ancestors_of_mem_sitesOf helement (parse markup) hsite with habove | ⟨index, -, hvisit⟩
  · cases habove
  · exact legible_of_mem_visitsOf _ (legibleAll_parse markup) (List.mem_of_getElem? hvisit)

/-! ## What no template shows -/

mutual

/-- A node without what is inside void elements. -/
def prune : Node → Node
  | .text content => .text content
  | .element tag children => .element tag (if tag.isVoid then [] else pruneAll children)

/-- Neighbouring nodes without what is inside void elements. -/
def pruneAll : List Node → List Node
  | [] => []
  | node :: rest => node.prune :: pruneAll rest

end

mutual

theorem prune_of_legible {fine : Tag → Prop} : ∀ node : Node, node.Legible fine →
    node.prune = node
  | .text _, _ => rfl
  | .element tag children, h => by
    rw [prune]
    by_cases hvoid : tag.isVoid = true
    · rw [if_pos hvoid, h.2.1 hvoid]
    · rw [if_neg hvoid, pruneAll_of_legibleAll children h.2.2]

/-- Where void elements have no children, nothing is left out. -/
theorem pruneAll_of_legibleAll {fine : Tag → Prop} : ∀ nodes : List Node, LegibleAll fine nodes →
    pruneAll nodes = nodes
  | [], _ => rfl
  | node :: rest, h => by
    rw [pruneAll, prune_of_legible node h.1, pruneAll_of_legibleAll rest h.2]

end

/-! ## The places and the template of a tree -/

mutual

theorem places_prune (options : Options) (position : Nat) (above : List Ancestor) :
    ∀ node : Node, node.places options (above.getLast?.map Ancestor.tag) =
      (node.prune.sites position above).flatMap (Site.places options)
  | .text content => by
    rw [prune, sites, List.flatMap_singleton]
    rfl
  | .element tag children => by
    have hinner := placesOf_pruneAll options (position + 1) (above ++ [⟨position, tag⟩]) children
    rw [List.getLast?_concat] at hinner
    rw [places, prune, sites, List.flatMap_cons]
    by_cases hvoid : tag.isVoid = true
    · rw [if_pos hvoid, if_pos hvoid]
      rfl
    · rw [if_neg hvoid, if_neg hvoid, ← hinner]
      rfl

/-- The places of a tree are those of the sites that a template shows. -/
theorem placesOf_pruneAll (options : Options) (position : Nat) (above : List Ancestor) :
    ∀ nodes : List Node, placesOf options (above.getLast?.map Ancestor.tag) nodes =
      (sitesOf position above (pruneAll nodes)).flatMap (Site.places options)
  | [] => rfl
  | node :: rest => by
    rw [placesOf, pruneAll, sitesOf, List.flatMap_append, places_prune options position above node,
      placesOf_pruneAll options _ above rest]

end

/-- The places of a tree in which void elements have no children are those of its sites. -/
theorem placesOf_eq_flatMap {fine : Tag → Prop} (options : Options) (position : Nat)
    (above : List Ancestor) (nodes : List Node) (h : LegibleAll fine nodes) :
    placesOf options (above.getLast?.map Ancestor.tag) nodes =
      (sitesOf position above nodes).flatMap (Site.places options) := by
  have hplaces := placesOf_pruneAll options position above nodes
  rw [pruneAll_of_legibleAll nodes h] at hplaces
  exact hplaces

mutual

theorem visits_written (options : Options) (position : Nat) (above : List Ancestor) :
    ∀ (node : Node) (naming : Naming),
      (node.written options (above.getLast?.map Ancestor.tag) naming).visits =
        Site.writtenAll options naming (node.prune.sites position above)
  | .text content, naming => by
    rw [written_text, prune, sites]
    rfl
  | .element tag children, naming => by
    have hinner := visitsOf_written options (position + 1) (above ++ [⟨position, tag⟩]) children
      (Naming.after options.classMode (tag.places options) naming)
    rw [List.getLast?_concat] at hinner
    rw [written_element, prune, visits, sites, Site.writtenAll]
    by_cases hvoid : tag.isVoid = true
    · rw [if_pos hvoid, if_pos hvoid]
      rfl
    · rw [if_neg hvoid, if_neg hvoid]
      exact congrArg (List.cons _) hinner

/-- A template has each site that it shows as it is written from the history that the sites before
it leave. -/
theorem visitsOf_written (options : Options) (position : Nat) (above : List Ancestor) :
    ∀ (nodes : List Node) (naming : Naming),
      visitsOf (writtenAll options (above.getLast?.map Ancestor.tag) naming nodes) =
        Site.writtenAll options naming (sitesOf position above (pruneAll nodes))
  | [], _ => rfl
  | node :: rest, naming => by
    rw [writtenAll_cons, visitsOf_cons, pruneAll, sitesOf, Site.writtenAll_append,
      visits_written options position above node naming, visitsOf_written options _ above rest _,
      places_prune options position above node]

end

/-- A shown site is written from the history that the sites before it leave. -/
theorem getElem?_visitsOf_written (options : Options) {tree : List Node} {before later : List Site}
    {site : Site} (hsites : sitesOf 0 [] (pruneAll tree) = before ++ site :: later) :
    (visitsOf (writtenAll options none {} tree))[before.length]? =
      some (site.written options
        (Naming.after options.classMode (before.flatMap (Site.places options)) {})) := by
  have hwritten := visitsOf_written options 0 [] tree {}
  rw [hsites] at hwritten
  rw [← Site.getElem?_writtenAll options {} before later site, ← hwritten]
  rfl

end Node

end Stencil
