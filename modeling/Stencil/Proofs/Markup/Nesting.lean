import Stencil.Proofs.Markup.DocumentOrder

/-!
# Nesting

Which elements a node of a parsed tree is inside can be told from the spans alone. A scan over the
spans keeps the list of open elements: a start tag opens its element, unless the element is void or
closes itself; an end tag closes the last open element of its name with all that were opened after
it, and nothing when no open element has that name. The ancestors of a node are the elements that
are open just before its span, and the nodes below an element are those of the spans during which it
is open (`Node.ancestors_parse`).

Elements with equal tags are told apart by their position among the nodes in document order.

* `Ancestor`, `Site` and `Node.sitesOf`, the nodes of a tree with their ancestors;
* `Scan`, `Scan.step` and `Scan.sites`, the same read off the spans;
* `Assembly.sites_step`: the invariant that the open elements of a tree under construction are the
  ancestors of whatever comes next.
-/

set_option autoImplicit false

namespace Stencil

/-- An element that other nodes are inside: its position among the nodes in document order, counted
from zero, and its tag. -/
structure Ancestor where
  position : Nat
  tag : Tag
  deriving DecidableEq, Repr

/-- A node with the elements that it is inside, outermost first. -/
structure Site where
  ancestors : List Ancestor
  visit : Visit
  deriving DecidableEq, Repr

/-! ## The sites of a tree -/

namespace Node

mutual

/-- The sites of a node and of all that is below it, in document order, given how many nodes stand
before it and what it is inside. -/
def sites (position : Nat) (above : List Ancestor) : Node → List Site
  | .text content => [⟨above, .text content⟩]
  | .element tag children =>
    ⟨above, .element tag⟩ :: sitesOf (position + 1) (above ++ [⟨position, tag⟩]) children

/-- The sites of neighbouring nodes. -/
def sitesOf (position : Nat) (above : List Ancestor) : List Node → List Site
  | [] => []
  | node :: rest =>
    node.sites position above ++ sitesOf (position + node.visits.length) above rest

end

mutual

/-- A node and all nodes below it, in document order, each with what is below it. -/
def subtrees : Node → List Node
  | .text content => [.text content]
  | .element tag children => .element tag children :: subtreesOf children

/-- Neighbouring nodes and all nodes below them. -/
def subtreesOf : List Node → List Node
  | [] => []
  | node :: rest => node.subtrees ++ subtreesOf rest

end

/-- What a walk meets at a node itself. -/
def visit : Node → Visit
  | .text content => .text content
  | .element tag _ => .element tag

theorem sitesOf_append (position : Nat) (above : List Ancestor) (first second : List Node) :
    sitesOf position above (first ++ second) =
      sitesOf position above first ++
        sitesOf (position + (visitsOf first).length) above second := by
  induction first generalizing position with
  | nil => rfl
  | cons node rest ih =>
    rw [List.cons_append, sitesOf, ih, sitesOf, visitsOf_cons, List.length_append,
      List.append_assoc, Nat.add_assoc]

theorem sitesOf_singleton (position : Nat) (above : List Ancestor) (node : Node) :
    sitesOf position above [node] = node.sites position above := by
  rw [sitesOf, sitesOf, List.append_nil]

mutual

theorem map_visit_sites (position : Nat) (above : List Ancestor) :
    ∀ node : Node, (node.sites position above).map Site.visit = node.visits
  | .text _ => rfl
  | .element tag children => by
    rw [sites, List.map_cons, map_visit_sitesOf _ _ children, visits]

/-- The sites are those of the nodes that a walk meets. -/
theorem map_visit_sitesOf (position : Nat) (above : List Ancestor) :
    ∀ nodes : List Node, (sitesOf position above nodes).map Site.visit = visitsOf nodes
  | [] => rfl
  | node :: rest => by
    rw [sitesOf, List.map_append, map_visit_sites _ _ node, map_visit_sitesOf _ _ rest, visitsOf]

end

mutual

theorem map_visit_subtrees : ∀ node : Node, node.subtrees.map visit = node.visits
  | .text _ => rfl
  | .element tag children => by
    rw [subtrees, List.map_cons, map_visit_subtreesOf children, visits, visit]

/-- There is one subtree for each node that a walk meets. -/
theorem map_visit_subtreesOf : ∀ nodes : List Node, (subtreesOf nodes).map visit = visitsOf nodes
  | [] => rfl
  | node :: rest => by
    rw [subtreesOf, List.map_append, map_visit_subtrees node, map_visit_subtreesOf rest, visitsOf]

end

theorem length_subtrees (node : Node) : node.subtrees.length = node.visits.length := by
  rw [← map_visit_subtrees, List.length_map]

/-! ### Ancestors in a tree -/

mutual

theorem mem_ancestors_of_mem_sites {position : Nat} {above : List Ancestor} {site : Site}
    {element : Ancestor} (helement : element ∈ site.ancestors) : ∀ node : Node,
    site ∈ node.sites position above →
      element ∈ above ∨ ∃ index, element.position = position + index ∧
        node.visits[index]? = some (.element element.tag)
  | .text content, hsite => by
    rw [sites, List.mem_singleton] at hsite
    subst hsite
    exact Or.inl helement
  | .element tag children, hsite => by
    rcases List.mem_cons.1 hsite with rfl | hsite
    · exact Or.inl helement
    rcases mem_ancestors_of_mem_sitesOf helement children hsite with habove | hbelow
    · rcases List.mem_append.1 habove with habove | hself
      · exact Or.inl habove
      · rw [List.mem_singleton] at hself
        subst hself
        exact Or.inr ⟨0, rfl, rfl⟩
    · obtain ⟨index, hposition, hvisit⟩ := hbelow
      refine Or.inr ⟨index + 1, ?_, ?_⟩
      · omega
      · rw [visits, List.getElem?_cons_succ]
        exact hvisit

/-- An ancestor stands above the whole tree or is an element of it. -/
theorem mem_ancestors_of_mem_sitesOf {position : Nat} {above : List Ancestor} {site : Site}
    {element : Ancestor} (helement : element ∈ site.ancestors) : ∀ nodes : List Node,
    site ∈ sitesOf position above nodes →
      element ∈ above ∨ ∃ index, element.position = position + index ∧
        (visitsOf nodes)[index]? = some (.element element.tag)
  | [], hsite => absurd hsite List.not_mem_nil
  | node :: rest, hsite => by
    rw [visitsOf]
    rcases List.mem_append.1 hsite with hnode | hrest
    · rcases mem_ancestors_of_mem_sites helement node hnode with habove | hbelow
      · exact Or.inl habove
      · obtain ⟨index, hposition, hvisit⟩ := hbelow
        have hindex : index < node.visits.length := (List.getElem?_eq_some_iff.1 hvisit).1
        refine Or.inr ⟨index, hposition, ?_⟩
        rw [List.getElem?_append_left hindex]
        exact hvisit
    · rcases mem_ancestors_of_mem_sitesOf helement rest hrest with habove | hbelow
      · exact Or.inl habove
      · obtain ⟨index, hposition, hvisit⟩ := hbelow
        refine Or.inr ⟨node.visits.length + index, ?_, ?_⟩
        · omega
        · rw [List.getElem?_append_right (Nat.le_add_right _ _), Nat.add_sub_cancel_left]
          exact hvisit

end

mutual

theorem above_subset_of_mem_sites {position : Nat} {above : List Ancestor} {site : Site} :
    ∀ node : Node, site ∈ node.sites position above → above ⊆ site.ancestors
  | .text content, hsite => by
    rw [sites, List.mem_singleton] at hsite
    subst hsite
    exact fun _ helement => helement
  | .element tag children, hsite => by
    rcases List.mem_cons.1 hsite with rfl | hsite
    · exact fun _ helement => helement
    · exact List.Subset.trans (List.subset_append_left _ _)
        (above_subset_of_mem_sitesOf children hsite)

/-- What stands above a tree is above each of its nodes. -/
theorem above_subset_of_mem_sitesOf {position : Nat} {above : List Ancestor} {site : Site} :
    ∀ nodes : List Node, site ∈ sitesOf position above nodes → above ⊆ site.ancestors
  | [], hsite => absurd hsite List.not_mem_nil
  | node :: rest, hsite => by
    rcases List.mem_append.1 hsite with hnode | hrest
    · exact above_subset_of_mem_sites node hnode
    · exact above_subset_of_mem_sitesOf rest hrest

end

end Node

/-- The nodes of some sites that are inside an element. -/
def Site.visitsInside (element : Ancestor) (sites : List Site) : List Visit :=
  (sites.filter fun site => element ∈ site.ancestors).map Site.visit

namespace Site

theorem visitsInside_append (element : Ancestor) (first second : List Site) :
    visitsInside element (first ++ second) =
      visitsInside element first ++ visitsInside element second := by
  rw [visitsInside, List.filter_append, List.map_append]
  rfl

theorem visitsInside_eq_nil {element : Ancestor} {sites : List Site}
    (h : ∀ site ∈ sites, element ∉ site.ancestors) : visitsInside element sites = [] := by
  have hnone : sites.filter (fun site => element ∈ site.ancestors) = [] := by
    simpa [List.filter_eq_nil_iff] using h
  rw [visitsInside, hnone]
  rfl

theorem visitsInside_eq_map {element : Ancestor} {sites : List Site}
    (h : ∀ site ∈ sites, element ∈ site.ancestors) :
    visitsInside element sites = sites.map visit := by
  have hall : sites.filter (fun site => element ∈ site.ancestors) = sites := by
    simpa [List.filter_eq_self] using h
  rw [visitsInside, hall]

theorem visitsInside_cons_of_not_mem {element : Ancestor} {site : Site} {sites : List Site}
    (h : element ∉ site.ancestors) :
    visitsInside element (site :: sites) = visitsInside element sites := by
  rw [visitsInside, visitsInside, List.filter_cons_of_neg (by simpa using h)]

end Site

namespace Node

mutual

theorem visitsInside_sites {position index : Nat} {above : List Ancestor} {tag : Tag}
    {children : List Node} (habove : ∀ element ∈ above, element.position < position) :
    ∀ node : Node, node.subtrees[index]? = some (.element tag children) →
      Site.visitsInside ⟨position + index, tag⟩ (node.sites position above) = visitsOf children
  | .text content, hindex => by
    rw [subtrees, List.getElem?_singleton] at hindex
    split at hindex
    · cases hindex
    · cases hindex
  | .element other nodes, hindex => by
    -- Nothing that stands above the node is as far on as the element looked for.
    have houter : (⟨position + index, tag⟩ : Ancestor) ∉ above := by
      intro hmem
      have hlt := habove _ hmem
      dsimp only at hlt
      omega
    rw [sites, Site.visitsInside_cons_of_not_mem houter]
    rw [subtrees] at hindex
    cases index with
    | zero =>
      -- It is this node, which all that is below it is inside.
      rw [List.getElem?_cons_zero] at hindex
      cases hindex
      rw [Site.visitsInside_eq_map, map_visit_sitesOf]
      intro site hsite
      exact above_subset_of_mem_sitesOf _ hsite (by simp)
    | succ index =>
      rw [List.getElem?_cons_succ] at hindex
      have hinner : ∀ element ∈ above ++ [⟨position, other⟩], element.position < position + 1 := by
        intro element hmem
        rcases List.mem_append.1 hmem with hmem | hmem
        · exact Nat.lt_succ_of_lt (habove element hmem)
        · rw [List.mem_singleton.1 hmem]
          exact Nat.lt_succ_self position
      have hbelow := visitsInside_sitesOf hinner nodes hindex
      rw [Nat.add_assoc, Nat.add_comm 1 index] at hbelow
      exact hbelow

/-- The nodes below an element are those that have it among their ancestors. -/
theorem visitsInside_sitesOf {position index : Nat} {above : List Ancestor} {tag : Tag}
    {children : List Node} (habove : ∀ element ∈ above, element.position < position) :
    ∀ nodes : List Node, (subtreesOf nodes)[index]? = some (.element tag children) →
      Site.visitsInside ⟨position + index, tag⟩ (sitesOf position above nodes) = visitsOf children
  | [], hindex => by
    rw [subtreesOf] at hindex
    cases hindex
  | node :: rest, hindex => by
    have houter : (⟨position + index, tag⟩ : Ancestor) ∉ above := by
      intro hmem
      have hlt := habove _ hmem
      dsimp only at hlt
      omega
    rw [subtreesOf] at hindex
    rw [sitesOf, Site.visitsInside_append]
    rcases Nat.lt_or_ge index node.subtrees.length with hnode | hrest
    · -- It is in the first tree, so nothing of the later ones is inside it.
      rw [List.getElem?_append_left hnode] at hindex
      rw [length_subtrees] at hnode
      have hlater : Site.visitsInside ⟨position + index, tag⟩
          (sitesOf (position + node.visits.length) above rest) = [] := by
        apply Site.visitsInside_eq_nil
        intro site hsite helement
        rcases mem_ancestors_of_mem_sitesOf helement rest hsite with hmem | ⟨later, hposition, -⟩
        · exact houter hmem
        · dsimp only at hposition
          omega
      rw [visitsInside_sites habove node hindex, hlater, List.append_nil]
    · -- It is in a later tree, and the positions there are counted from the end of the first one.
      rw [List.getElem?_append_right hrest] at hindex
      rw [length_subtrees] at hrest hindex
      have hearlier :
          Site.visitsInside ⟨position + index, tag⟩ (node.sites position above) = [] := by
        apply Site.visitsInside_eq_nil
        intro site hsite helement
        rcases mem_ancestors_of_mem_sites helement node hsite with hmem | ⟨early, hposition, hvisit⟩
        · exact houter hmem
        · have hearly : early < node.visits.length := (List.getElem?_eq_some_iff.1 hvisit).1
          dsimp only at hposition
          omega
      have hfar : ∀ element ∈ above, element.position < position + node.visits.length :=
        fun element hmem => Nat.lt_add_right _ (habove element hmem)
      have hlater := visitsInside_sitesOf hfar rest hindex
      have hsum : position + node.visits.length + (index - node.visits.length) =
          position + index := by
        omega
      rw [hsum] at hlater
      rw [hearlier, hlater, List.nil_append]

end

end Node

/-! ## The scan over the spans -/

/-- What an end tag leaves open: all that was opened before the last open element of its name. When
no open element has the name, everything stays open. -/
def Ancestor.closeLast (name : Text) : List Ancestor → List Ancestor
  | [] => []
  | element :: later =>
    if element.tag.name = name ∧ ∀ other ∈ later, other.tag.name ≠ name then []
    else element :: closeLast name later

/-- A scan over spans: how many nodes they have made so far, and the elements that are open,
outermost first. -/
structure Scan where
  count : Nat := 0
  opened : List Ancestor := []
  deriving DecidableEq, Repr

namespace Scan

/-- What a span does: a text and a start tag make a node, a start tag opens its element unless the
element is void or closes itself, and an end tag closes elements. -/
def step (scan : Scan) : Span → Scan
  | .text _ => { scan with count := scan.count + 1 }
  | .opening inside =>
    { count := scan.count + 1
      opened :=
        if (Tag.read inside).isVoid ∨ Tag.closesItself inside then scan.opened
        else scan.opened ++ [⟨scan.count, Tag.read inside⟩] }
  | .closing inside => { scan with opened := Ancestor.closeLast (closingName inside) scan.opened }
  | .comment _ => scan
  | .cutOff _ => scan

/-- The scan behind a list of spans. -/
def run (scan : Scan) (spans : List Span) : Scan :=
  spans.foldl step scan

/-- The nodes that spans make, each inside the elements that are open just before its span. -/
def sites (scan : Scan) : List Span → List Site
  | [] => []
  | span :: later => (span.visit?.map (Site.mk scan.opened)).toList ++ (scan.step span).sites later

end Scan

namespace Ancestor

theorem closeLast_of_none {name : Text} {opened : List Ancestor}
    (h : ∀ element ∈ opened, element.tag.name ≠ name) : closeLast name opened = opened := by
  induction opened with
  | nil => rfl
  | cons element later ih =>
    have hhead : element.tag.name ≠ name := h element List.mem_cons_self
    rw [closeLast, if_neg fun hboth => hhead hboth.1,
      ih fun other hother => h other (List.mem_cons_of_mem _ hother)]

theorem closeLast_concat_of_eq {name : Text} {element : Ancestor} (h : element.tag.name = name)
    (outer : List Ancestor) : closeLast name (outer ++ [element]) = outer := by
  induction outer with
  | nil => simp [closeLast, h]
  | cons other outer ih =>
    have hnot : ¬ (other.tag.name = name ∧
        ∀ later ∈ outer ++ [element], later.tag.name ≠ name) :=
      fun hboth => hboth.2 element (by simp) h
    rw [List.cons_append, closeLast, if_neg hnot, ih]

/-- An innermost element of another name is closed along with the one that is meant. -/
theorem closeLast_concat_of_ne {name : Text} {element : Ancestor} (h : element.tag.name ≠ name)
    {outer : List Ancestor} (hsome : ∃ other ∈ outer, other.tag.name = name) :
    closeLast name (outer ++ [element]) = closeLast name outer := by
  induction outer with
  | nil => simp at hsome
  | cons other outer ih =>
    rw [List.cons_append, closeLast, closeLast]
    by_cases hlater : ∃ later ∈ outer, later.tag.name = name
    · obtain ⟨later, hmem, hname⟩ := hlater
      rw [if_neg fun hboth => hboth.2 later (List.mem_append_left _ hmem) hname,
        if_neg fun hboth => hboth.2 later hmem hname, ih ⟨later, hmem, hname⟩]
    · -- Nothing further in has the name, so it is the head that is meant.
      have hhead : other.tag.name = name := by
        obtain ⟨found, hmem, hname⟩ := hsome
        rcases List.mem_cons.1 hmem with rfl | hmem
        · exact hname
        · exact absurd ⟨found, hmem, hname⟩ hlater
      have hnone : ∀ later ∈ outer, later.tag.name ≠ name :=
        fun later hmem hname => hlater ⟨later, hmem, hname⟩
      have hnone' : ∀ later ∈ outer ++ [element], later.tag.name ≠ name := by
        intro later hmem
        rcases List.mem_append.1 hmem with hmem | hmem
        · exact hnone later hmem
        · rw [List.mem_singleton.1 hmem]
          exact h
      rw [if_pos ⟨hhead, hnone'⟩, if_pos ⟨hhead, hnone⟩]

theorem closeLast_prefix (name : Text) (opened : List Ancestor) :
    closeLast name opened <+: opened := by
  induction opened with
  | nil => exact List.prefix_refl []
  | cons element later ih =>
    rw [closeLast]
    split
    · exact List.nil_prefix
    · exact (List.prefix_cons_inj element).2 ih

end Ancestor

/-! ## The tree under construction -/

namespace Assembly

/-- Open elements as ancestors, outermost first. -/
def ancestors : List OpenElement → List Ancestor
  | [] => []
  | element :: outer =>
    ancestors outer ++
      [⟨(openVisits outer).length + (Node.visitsOf element.earlier).length, element.tag⟩]

/-- The sites of open elements and of what stands before them. -/
def openSites : List OpenElement → List Site
  | [] => []
  | element :: outer =>
    openSites outer ++
      (Node.sitesOf (openVisits outer).length (ancestors outer) element.earlier ++
        [⟨ancestors outer, .element element.tag⟩])

/-- The sites of the tree so far. -/
def sites (assembly : Assembly) : List Site :=
  openSites assembly.opened ++
    Node.sitesOf (openVisits assembly.opened).length (ancestors assembly.opened) assembly.nodes

/-- The scan that has come as far as the tree. -/
def scan (assembly : Assembly) : Scan :=
  ⟨assembly.visits.length, ancestors assembly.opened⟩

/-- Closing an element moves no site. -/
theorem sites_close (element : OpenElement) (outer : List OpenElement) (nodes : List Node) :
    sites ⟨outer, element.close nodes⟩ = sites ⟨element :: outer, nodes⟩ := by
  have hposition : (openVisits (element :: outer)).length =
      (openVisits outer).length + (Node.visitsOf element.earlier).length + 1 := by
    simp [openVisits, Nat.add_assoc]
  simp only [sites, OpenElement.close, Node.sitesOf_append, Node.sitesOf_singleton, Node.sites,
    openSites, hposition, ancestors, List.append_assoc, List.singleton_append]

theorem sites_closeThrough (name : Text) (opened : List OpenElement) (nodes : List Node) :
    (closeThrough name opened nodes).sites = sites ⟨opened, nodes⟩ := by
  induction opened generalizing nodes with
  | nil => rfl
  | cons element outer ih =>
    rw [closeThrough, ← sites_close]
    split
    · rfl
    · exact ih (element.close nodes)

theorem exists_name_ancestors {name : Text} {opened : List OpenElement} :
    (∃ element ∈ ancestors opened, element.tag.name = name) ↔
      ∃ element ∈ opened, element.tag.name = name := by
  induction opened with
  | nil => simp [ancestors]
  | cons element outer ih =>
    simp [ancestors, or_and_right, exists_or, ih, or_comm]

theorem ancestors_closeThrough {name : Text} {opened : List OpenElement}
    (hsome : ∃ element ∈ opened, element.tag.name = name) (nodes : List Node) :
    ancestors (closeThrough name opened nodes).opened =
      Ancestor.closeLast name (ancestors opened) := by
  induction opened generalizing nodes with
  | nil => simp at hsome
  | cons element outer ih =>
    rw [closeThrough, ancestors]
    by_cases hname : element.tag.name = name
    · rw [if_pos hname, Ancestor.closeLast_concat_of_eq hname]
    · have houter : ∃ other ∈ outer, other.tag.name = name := by
        simpa [hname] using hsome
      rw [if_neg hname, ih houter,
        Ancestor.closeLast_concat_of_ne hname (exists_name_ancestors.2 houter)]

theorem ancestors_closeNamed (assembly : Assembly) (name : Text) :
    ancestors (assembly.closeNamed name).opened =
      Ancestor.closeLast name (ancestors assembly.opened) := by
  have hany : assembly.opened.any (·.tag.name = name) = true ↔
      ∃ element ∈ assembly.opened, element.tag.name = name := by
    simp
  unfold closeNamed
  split
  · next hsome => exact ancestors_closeThrough (hany.1 hsome) assembly.nodes
  · next hnone =>
    refine (Ancestor.closeLast_of_none ?_).symm
    intro element hmem hname
    exact hnone (hany.2 (exists_name_ancestors.1 ⟨element, hmem, hname⟩))

theorem sites_closeNamed (assembly : Assembly) (name : Text) :
    (assembly.closeNamed name).sites = assembly.sites := by
  unfold closeNamed
  split
  · exact sites_closeThrough name assembly.opened assembly.nodes
  · rfl

theorem sites_add (assembly : Assembly) (node : Node) :
    (assembly.add node).sites =
      assembly.sites ++ node.sites assembly.scan.count assembly.scan.opened := by
  simp [sites, add, scan, visits, Node.sitesOf_append, Node.sitesOf_singleton]

theorem sites_openElement (assembly : Assembly) (tag : Tag) :
    (assembly.openElement tag).sites =
      assembly.sites ++ [⟨assembly.scan.opened, .element tag⟩] := by
  simp [sites, openElement, openSites, scan, Node.sitesOf]

/-- A span adds its own node, inside the elements that are open just before it. -/
theorem sites_step (assembly : Assembly) (span : Span) :
    (assembly.step span).sites =
      assembly.sites ++ (span.visit?.map (Site.mk assembly.scan.opened)).toList := by
  cases span with
  | text content => exact sites_add assembly (.text content)
  | opening inside =>
    rw [step]
    split
    · exact sites_add assembly (.element (Tag.read inside) [])
    · exact sites_openElement assembly (Tag.read inside)
  | closing inside => exact (sites_closeNamed assembly _).trans (List.append_nil _).symm
  | comment covered => exact (List.append_nil _).symm
  | cutOff covered => exact (List.append_nil _).symm

/-- A span takes the open elements where the scan takes them. -/
theorem scan_step (assembly : Assembly) (span : Span) :
    (assembly.step span).scan = assembly.scan.step span := by
  have hcount : (assembly.step span).visits.length =
      assembly.visits.length + span.visit?.toList.length := by
    rw [visits_step, List.length_append]
  cases span with
  | text content =>
    rw [scan, hcount]
    rfl
  | opening inside =>
    rw [scan, hcount, Scan.step]
    refine congrArg (Scan.mk _) ?_
    rw [step]
    by_cases hstays : (Tag.read inside).isVoid ∨ Tag.closesItself inside
    · rw [if_pos hstays, if_pos (by simpa using hstays)]
      rfl
    · rw [if_neg hstays, if_neg (by simpa using hstays), scan, visits, List.length_append]
      rfl
  | closing inside =>
    rw [scan, hcount]
    exact congrArg (Scan.mk _) (ancestors_closeNamed assembly _)
  | comment covered => rfl
  | cutOff covered => rfl

/-- A run over spans adds their nodes, each inside what was open before it. -/
theorem sites_foldl (spans : List Span) (assembly : Assembly) :
    (spans.foldl step assembly).sites = assembly.sites ++ assembly.scan.sites spans := by
  induction spans generalizing assembly with
  | nil => exact (List.append_nil _).symm
  | cons span later ih =>
    rw [List.foldl_cons, ih, sites_step, scan_step, Scan.sites, List.append_assoc]

theorem sitesOf_finish (assembly : Assembly) :
    Node.sitesOf 0 [] assembly.finish = assembly.sites := by
  obtain ⟨opened, nodes⟩ := assembly
  induction opened generalizing nodes with
  | nil => rfl
  | cons element outer ih =>
    rw [← sites_close]
    exact ih (element.close nodes)

end Assembly

theorem Node.sitesOf_ofSpans (spans : List Span) :
    sitesOf 0 [] (ofSpans spans) = Scan.sites {} spans := by
  rw [ofSpans, Assembly.sitesOf_finish, Assembly.sites_foldl]
  rfl

/-! ## The spans inside an element -/

namespace Scan

/-- Whether every open element is one of the nodes so far. -/
def Counted (scan : Scan) : Prop :=
  ∀ element ∈ scan.opened, element.position < scan.count

/-- Whether an open element is open throughout `inner`, but no longer: what stands behind `inner` is
nothing, or starts with the end tag that closes the element. -/
def OpenDuring (scan : Scan) (element : Ancestor) (inner rest : List Span) : Prop :=
  (∀ part, part <+: inner → element ∈ (scan.run part).opened) ∧
    ∀ span more, rest = span :: more →
      (∃ inside, span = .closing inside) ∧ element ∉ (scan.run (inner ++ [span])).opened

theorem run_append (scan : Scan) (first second : List Span) :
    scan.run (first ++ second) = (scan.run first).run second :=
  List.foldl_append

theorem sites_append (scan : Scan) (first second : List Span) :
    scan.sites (first ++ second) = scan.sites first ++ (scan.run first).sites second := by
  induction first generalizing scan with
  | nil => rfl
  | cons span later ih => simp [sites, run, ih]

theorem map_visit_sites (scan : Scan) (spans : List Span) :
    (scan.sites spans).map Site.visit = spans.filterMap Span.visit? := by
  induction spans generalizing scan with
  | nil => rfl
  | cons span later ih =>
    rw [sites, List.map_append, ih, List.filterMap_cons]
    cases span.visit? with
    | none => rfl
    | some visit => rfl

theorem mem_opened_step {scan : Scan} {span : Span} {element : Ancestor}
    (h : element ∈ (scan.step span).opened) :
    element ∈ scan.opened ∨
      (element.position = scan.count ∧ scan.count < (scan.step span).count) := by
  cases span with
  | text content => exact Or.inl h
  | opening inside =>
    rw [step] at h
    dsimp only at h
    split at h
    · exact Or.inl h
    · rcases List.mem_append.1 h with h | h
      · exact Or.inl h
      · rw [List.mem_singleton] at h
        subst h
        exact Or.inr ⟨rfl, Nat.lt_succ_self _⟩
  | closing inside => exact Or.inl ((Ancestor.closeLast_prefix _ _).subset h)
  | comment covered => exact Or.inl h
  | cutOff covered => exact Or.inl h

theorem count_le_step (scan : Scan) (span : Span) : scan.count ≤ (scan.step span).count := by
  cases span <;> simp [step]

theorem counted_step {scan : Scan} (h : scan.Counted) (span : Span) : (scan.step span).Counted := by
  intro element helement
  have hcount := count_le_step scan span
  rcases mem_opened_step helement with hold | ⟨hnew, hlt⟩
  · exact Nat.lt_of_lt_of_le (h element hold) hcount
  · rw [hnew]
    exact hlt

theorem counted_run {scan : Scan} (h : scan.Counted) (spans : List Span) :
    (scan.run spans).Counted := by
  induction spans generalizing scan with
  | nil => exact h
  | cons span later ih => exact ih (counted_step h span)

/-- Only an end tag closes an element. -/
theorem exists_closing_of_closed {scan : Scan} {span : Span} {element : Ancestor}
    (hopen : element ∈ scan.opened) (hclosed : element ∉ (scan.step span).opened) :
    ∃ inside, span = .closing inside := by
  cases span with
  | text content => exact absurd hopen hclosed
  | opening inside =>
    rw [step] at hclosed
    dsimp only at hclosed
    split at hclosed
    · exact absurd hopen hclosed
    · exact absurd (List.mem_append_left _ hopen) hclosed
  | closing inside => exact ⟨inside, rfl⟩
  | comment covered => exact absurd hopen hclosed
  | cutOff covered => exact absurd hopen hclosed

/-- What is closed is never opened again. -/
theorem not_mem_ancestors_of_closed {scan : Scan} {element : Ancestor}
    (hcount : element.position < scan.count) (hclosed : element ∉ scan.opened)
    (spans : List Span) : ∀ site ∈ scan.sites spans, element ∉ site.ancestors := by
  induction spans generalizing scan with
  | nil => exact fun _ hsite => absurd hsite List.not_mem_nil
  | cons span later ih =>
    intro site hsite
    rcases List.mem_append.1 hsite with hself | hlater
    · obtain ⟨visit, -, rfl⟩ := Option.map_eq_some_iff.1 (Option.mem_toList.1 hself)
      exact hclosed
    · refine ih (Nat.lt_of_lt_of_le hcount (count_le_step scan span)) ?_ site hlater
      intro hagain
      rcases mem_opened_step hagain with hold | ⟨hnew, -⟩
      · exact hclosed hold
      · omega

/-- The ancestors of a node were open behind the spans before its own. -/
theorem exists_prefix_of_mem_sites {scan : Scan} {spans : List Span} {site : Site}
    (hsite : site ∈ scan.sites spans) :
    ∃ part, part <+: spans ∧ site.ancestors = (scan.run part).opened := by
  induction spans generalizing scan with
  | nil => exact absurd hsite List.not_mem_nil
  | cons span later ih =>
    rcases List.mem_append.1 hsite with hself | hlater
    · obtain ⟨visit, -, rfl⟩ := Option.map_eq_some_iff.1 (Option.mem_toList.1 hself)
      exact ⟨[], List.nil_prefix, rfl⟩
    · obtain ⟨part, hpart, hopened⟩ := ih hlater
      exact ⟨span :: part, (List.prefix_cons_inj span).2 hpart, hopened⟩

/-- An open element stays open for a run of spans. -/
theorem exists_openDuring {scan : Scan} {element : Ancestor} (hopen : element ∈ scan.opened)
    (spans : List Span) :
    ∃ inner rest, spans = inner ++ rest ∧ scan.OpenDuring element inner rest := by
  induction spans generalizing scan with
  | nil =>
    refine ⟨[], [], rfl, ?_, fun _ _ hrest => by cases hrest⟩
    intro part hpart
    rw [List.prefix_nil.1 hpart]
    exact hopen
  | cons span later ih =>
    by_cases hstays : element ∈ (scan.step span).opened
    · obtain ⟨inner, rest, rfl, hinner, hrest⟩ := ih hstays
      refine ⟨span :: inner, rest, rfl, ?_, hrest⟩
      intro part hpart
      cases part with
      | nil => exact hopen
      | cons first part =>
        obtain ⟨rfl, hpart'⟩ := List.cons_prefix_cons.1 hpart
        exact hinner part hpart'
    · -- The span is the end tag that closes the element.
      refine ⟨[], span :: later, rfl, ?_, ?_⟩
      · intro part hpart
        rw [List.prefix_nil.1 hpart]
        exact hopen
      · rintro first more ⟨⟩
        exact ⟨exists_closing_of_closed hopen hstays, hstays⟩

/-- The nodes inside an element are those of the spans during which it is open. -/
theorem visitsInside_sites {scan : Scan} {element : Ancestor} {inner rest : List Span}
    (hcounted : scan.Counted) (h : scan.OpenDuring element inner rest) :
    Site.visitsInside element (scan.sites (inner ++ rest)) = inner.filterMap Span.visit? := by
  have hinner : ∀ site ∈ scan.sites inner, element ∈ site.ancestors := by
    intro site hsite
    obtain ⟨part, hpart, hopened⟩ := exists_prefix_of_mem_sites hsite
    rw [hopened]
    exact h.1 part hpart
  -- Where the run ends before the markup does, the next span has closed the element for good.
  have hrest : ∀ site ∈ (scan.run inner).sites rest, element ∉ site.ancestors := by
    cases rest with
    | nil => exact fun _ hsite => absurd hsite List.not_mem_nil
    | cons span more =>
      obtain ⟨⟨inside, rfl⟩, hclosed⟩ := h.2 _ more rfl
      have hposition : element.position < (scan.run inner).count :=
        counted_run hcounted inner element (h.1 inner (List.prefix_refl inner))
      have hclosed' : element ∉ ((scan.run inner).step (.closing inside)).opened := by
        rw [run_append] at hclosed
        exact hclosed
      exact not_mem_ancestors_of_closed
        (Nat.lt_of_lt_of_le hposition (count_le_step _ _)) hclosed' more
  rw [sites_append, Site.visitsInside_append, Site.visitsInside_eq_map hinner,
    Site.visitsInside_eq_nil hrest, List.append_nil, map_visit_sites]

theorem count_run (scan : Scan) (spans : List Span) :
    (scan.run spans).count = scan.count + (spans.filterMap Span.visit?).length := by
  induction spans generalizing scan with
  | nil => rfl
  | cons span later ih =>
    have hstep : (scan.step span).count = scan.count + span.visit?.toList.length := by
      cases span <;> rfl
    rw [run, List.foldl_cons, ← run, ih, hstep, List.filterMap_cons]
    cases span.visit? with
    | none => rfl
    | some visit =>
      simp only [Option.toList_some, List.length_cons, List.length_nil]
      omega

/-- The scan starts with nothing open. -/
theorem counted_start (spans : List Span) : (run {} spans).Counted :=
  counted_run (fun _ hmem => absurd hmem List.not_mem_nil) spans

/-- No node stands inside an element that comes later. -/
theorem not_mem_ancestors_of_later {spans : List Span} {element : Ancestor}
    (hlater : (run {} spans).count ≤ element.position) :
    ∀ site ∈ sites {} spans, element ∉ site.ancestors := by
  intro site hsite hmem
  obtain ⟨part, ⟨more, rfl⟩, hopened⟩ := exists_prefix_of_mem_sites hsite
  rw [hopened] at hmem
  have hlt := counted_start part element hmem
  rw [run_append, count_run] at hlater
  omega

end Scan

/-! ## Parsed trees -/

namespace Node

theorem eq_nil_of_visitsOf {nodes : List Node} (h : visitsOf nodes = []) : nodes = [] := by
  cases nodes with
  | nil => rfl
  | cons node rest => cases node <;> cases h

section StartTag

variable {before later : List Span} {inside : Text}

/-- The element of a start tag is a node of the tree, with some children. -/
theorem exists_subtree_of_opening (before later : List Span) (inside : Text) :
    ∃ children, (subtreesOf (ofSpans (before ++ .opening inside :: later)))[
      (Scan.run {} before).count]? = some (.element (Tag.read inside) children) := by
  have hvisit : (visitsOf (ofSpans (before ++ .opening inside :: later)))[
      (Scan.run {} before).count]? = some (.element (Tag.read inside)) := by
    rw [visitsOf_ofSpans, List.filterMap_append, Scan.count_run, Nat.zero_add,
      List.getElem?_append_right (Nat.le_refl _), Nat.sub_self]
    rfl
  rw [← map_visit_subtreesOf, List.getElem?_map, Option.map_eq_some_iff] at hvisit
  obtain ⟨node, hnode, hself⟩ := hvisit
  cases node with
  | text content => cases hself
  | element other children =>
    cases hself
    exact ⟨children, hnode⟩

/-- What is below an element is what a scan over the later spans finds inside it. -/
theorem visitsInside_of_opening {children : List Node}
    (hchildren : (subtreesOf (ofSpans (before ++ .opening inside :: later)))[
      (Scan.run {} before).count]? = some (.element (Tag.read inside) children)) :
    Site.visitsInside ⟨(Scan.run {} before).count, Tag.read inside⟩
      (((Scan.run {} before).step (.opening inside)).sites later) = visitsOf children := by
  have hbelow := @visitsInside_sitesOf 0 _ [] _ _
    (fun _ hmem => absurd hmem List.not_mem_nil) _ hchildren
  have hbefore : ∀ site ∈ Scan.sites {} before,
      (⟨(Scan.run {} before).count, Tag.read inside⟩ : Ancestor) ∉ site.ancestors :=
    Scan.not_mem_ancestors_of_later (Nat.le_refl _)
  have hself : (⟨(Scan.run {} before).count, Tag.read inside⟩ : Ancestor) ∉
      (Scan.run {} before).opened :=
    fun hmem => Nat.lt_irrefl _ (Scan.counted_start before _ hmem)
  rw [Nat.zero_add, sitesOf_ofSpans, Scan.sites_append, Site.visitsInside_append,
    Site.visitsInside_eq_nil hbefore, List.nil_append] at hbelow
  rw [← hbelow]
  exact (Site.visitsInside_cons_of_not_mem hself).symm

end StartTag

/-- **Nesting follows the recovery rules.** The ancestors of every node, outermost first, are the
elements that a scan over the spans has open just before the span of the node. What is below the
element of a start tag are the nodes of the spans behind the tag, up to the end tag that closes the
element or to the end of the markup; a void element, and one that closes itself, has nothing below
it. -/
theorem ancestors_parse (markup : Text) :
    let spans := Span.ofMarkup markup
    let tree := parse markup
    sitesOf 0 [] tree = Scan.sites {} spans ∧
      ∀ before inside later, spans = before ++ .opening inside :: later →
        let scan := Scan.run {} before
        let tag := Tag.read inside
        ∃ children inner rest, later = inner ++ rest ∧
          (subtreesOf tree)[scan.count]? = some (.element tag children) ∧
          visitsOf children = inner.filterMap Span.visit? ∧
          if tag.isVoid ∨ Tag.closesItself inside then inner = [] ∧ children = []
          else (scan.step (.opening inside)).OpenDuring ⟨scan.count, tag⟩ inner rest := by
  intro spans tree
  refine ⟨sitesOf_ofSpans spans, ?_⟩
  intro before inside later hspans scan tag
  have htree : tree = ofSpans (before ++ .opening inside :: later) := congrArg ofSpans hspans
  obtain ⟨children, hchildren⟩ := exists_subtree_of_opening before later inside
  have hbelow := visitsInside_of_opening hchildren
  rw [htree]
  by_cases hstays : tag.isVoid ∨ Tag.closesItself inside
  · -- The element never opens, so nothing can be inside it.
    have hopened : (⟨scan.count, tag⟩ : Ancestor) ∉ (scan.step (.opening inside)).opened := by
      intro hmem
      rw [Scan.step, if_pos hstays] at hmem
      exact Nat.lt_irrefl _ (Scan.counted_start before _ hmem)
    rw [Site.visitsInside_eq_nil
      (Scan.not_mem_ancestors_of_closed (Nat.lt_succ_self _) hopened later)] at hbelow
    refine ⟨children, [], later, rfl, hchildren, hbelow.symm, ?_⟩
    rw [if_pos hstays]
    exact ⟨rfl, eq_nil_of_visitsOf hbelow.symm⟩
  · have hopened : (⟨scan.count, tag⟩ : Ancestor) ∈ (scan.step (.opening inside)).opened := by
      rw [Scan.step, if_neg hstays]
      exact List.mem_append_right _ List.mem_cons_self
    obtain ⟨inner, rest, rfl, hduring⟩ := Scan.exists_openDuring hopened later
    rw [Scan.visitsInside_sites (Scan.counted_step (Scan.counted_start before) _) hduring] at hbelow
    refine ⟨children, inner, rest, rfl, hchildren, hbelow.symm, ?_⟩
    rw [if_neg hstays]
    exact hduring

/-- An element that is closed together with the one around it, and whose own end tag then closes
nothing. -/
theorem ancestors_parse_crossed :
    let markup : Text := "<b>x<i>y</b>z</i>"
    let before : List Span := [.opening "b", .text "x"]
    let later : List Span := [.text "y", .closing "/b", .text "z", .closing "/i"]
    let bold : Ancestor := ⟨0, ⟨"b", []⟩⟩
    let italic : Ancestor := ⟨2, ⟨"i", []⟩⟩
    Span.ofMarkup markup = before ++ .opening "i" :: later ∧
      sitesOf 0 [] (parse markup) =
        [⟨[], .element bold.tag⟩, ⟨[bold], .text "x"⟩, ⟨[bold], .element italic.tag⟩,
          ⟨[bold, italic], .text "y"⟩, ⟨[], .text "z"⟩] ∧
      ∃ children inner rest, later = inner ++ rest ∧
        (subtreesOf (parse markup))[2]? = some (.element italic.tag children) ∧
        visitsOf children = inner.filterMap Span.visit? ∧
        (Scan.mk 3 [bold, italic]).OpenDuring italic inner rest := by
  intro markup before later bold italic
  have hspans : Span.ofMarkup markup = before ++ .opening "i" :: later := by
    decide +kernel
  have hsites : Scan.sites {} (Span.ofMarkup markup) =
      [⟨[], .element bold.tag⟩, ⟨[bold], .text "x"⟩, ⟨[bold], .element italic.tag⟩,
        ⟨[bold, italic], .text "y"⟩, ⟨[], .text "z"⟩] := by
    decide +kernel
  obtain ⟨hancestors, hnesting⟩ := ancestors_parse markup
  obtain ⟨children, inner, rest, hlater, hsubtree, hbelow, hduring⟩ :=
    hnesting before "i" later hspans
  have hscan : Scan.run {} before = ⟨2, [bold]⟩ := by
    decide +kernel
  have htag : Tag.read "i" = italic.tag := by
    decide +kernel
  have hstep : (Scan.mk 2 [bold]).step (.opening "i") = ⟨3, [bold, italic]⟩ := by
    decide +kernel
  have hopens : ¬ (italic.tag.isVoid = true ∨ Tag.closesItself "i" = true) := by
    decide +kernel
  rw [hscan, htag] at hsubtree hduring
  rw [if_neg hopens, hstep] at hduring
  exact ⟨hspans, hancestors.trans hsites, children, inner, rest, hlater, hsubtree, hbelow, hduring⟩

end Node

end Stencil
