import Stencil.Proofs.Markup.Legible
import Stencil.Proofs.Markup.Nesting

/-!
# Every node of a parsed tree is well formed

A parsed tree is legible as a whole (`Node.legibleAll_parse`). Here the same is said of each of its
nodes, at any depth: what a text may hold, what the name and the attributes of an element look like,
and which elements have no children (`Node.wellFormed_parse`).
-/

set_option autoImplicit false

namespace Stencil

namespace Node

mutual

theorem legible_of_mem_subtrees {fine : Tag → Prop} {below : Node} : ∀ node : Node,
    node.Legible fine → below ∈ node.subtrees → below.Legible fine
  | .text _, h, hbelow => by
    rw [List.mem_singleton.1 hbelow]
    exact h
  | .element _ children, h, hbelow => by
    rcases List.mem_cons.1 hbelow with rfl | hchild
    · exact h
    · exact legible_of_mem_subtreesOf children h.2.2 hchild

/-- All that is below legible nodes is legible. -/
theorem legible_of_mem_subtreesOf {fine : Tag → Prop} {below : Node} : ∀ nodes : List Node,
    LegibleAll fine nodes → below ∈ subtreesOf nodes → below.Legible fine
  | [], _, hbelow => absurd hbelow List.not_mem_nil
  | node :: rest, h, hbelow => by
    rcases List.mem_append.1 hbelow with hnode | hrest
    · exact legible_of_mem_subtrees node h.1 hnode
    · exact legible_of_mem_subtreesOf rest h.2 hrest

end

/-- **Every node of a parsed tree is well formed.** A text is not empty and holds no `<`. The name
of an element holds no blank and no `>`, starts neither as an end tag nor as a comment does, and is
in lower case; a void element has no children. The name of an attribute is not empty and made of
ASCII letters, digits, colons, at signs, underscores and hyphens, and a value holds no `>` and not
both kinds of quotes. -/
theorem wellFormed_parse (markup : Text) :
    (∀ content, .text content ∈ subtreesOf (parse markup) →
      content ≠ [] ∧ .scalar '<' ∉ content) ∧
    ∀ tag children, .element tag children ∈ subtreesOf (parse markup) →
      (∀ c ∈ tag.name, c.isBlank = false ∧ c ≠ .scalar '>') ∧
      ¬ ("/" : Text) <+: tag.name ∧ ¬ ("!--" : Text) <+: tag.name ∧
      Text.lower tag.name = tag.name ∧
      (tag.name ∈ voidNames → children = []) ∧
      ∀ name value, (name, value) ∈ tag.attributes →
        name ≠ [] ∧ (∀ c ∈ name, c.isAsciiAlphanumeric = true ∨ c ∈ (":@_-" : Text)) ∧
        ∀ content, value = .text content →
          .scalar '>' ∉ content ∧ ¬ (.scalar '"' ∈ content ∧ .scalar '\'' ∈ content) := by
  have hlegible : ∀ below ∈ subtreesOf (parse markup), below.Legible Tag.IsRead :=
    fun below => legible_of_mem_subtreesOf _ (legibleAll_parse markup)
  refine ⟨fun content => hlegible (.text content), ?_⟩
  intro tag children hmem
  obtain ⟨hread, hvoid, -⟩ := hlegible (.element tag children) hmem
  refine ⟨?_, hread.not_slash, hread.not_mark, hread.lower_name, ?_, ?_⟩
  · intro c hc
    exact ⟨hread.no_blank c hc, fun hbracket => hread.no_bracket (hbracket ▸ hc)⟩
  · intro hname
    exact hvoid (List.contains_iff_mem.2 hname)
  · intro name value hentry
    obtain ⟨⟨hne, hletters⟩, hgood⟩ := hread.attributes.1 _ hentry
    refine ⟨hne, fun c hc => CodePoint.isAttributeName_iff.1 (hletters c hc), ?_⟩
    rintro content rfl
    exact hgood

/-- An element with capitals in its name and a quote in a value, around a text with a `>` and a void
element that has a blank behind its slash. -/
theorem wellFormed_parse_box :
    let tree := parse "<BoX Class='a\"b' hidden>x > y<BR/ >"
    let tag : Tag := ⟨"box", [("Class", .text "a\"b"), ("hidden", .flag true)]⟩
    visitsOf tree = [.element tag, .text "x > y", .element ⟨"br", []⟩] ∧
      Text.lower tag.name = tag.name ∧
      ∃ children, .element ⟨"br", []⟩ children ∈ subtreesOf tree ∧ children = [] := by
  intro tree tag
  have hvisits : visitsOf tree = [.element tag, .text "x > y", .element ⟨"br", []⟩] := by
    decide +kernel
  have helement : ∀ other : Tag, .element other ∈ visitsOf tree →
      ∃ children, .element other children ∈ subtreesOf tree := by
    intro other hother
    rw [← map_visit_subtreesOf] at hother
    obtain ⟨node, hnode, hvisit⟩ := List.mem_map.1 hother
    cases node with
    | text content => cases hvisit
    | element found children =>
      cases hvisit
      exact ⟨children, hnode⟩
  obtain ⟨boxChildren, hbox⟩ := helement tag (by rw [hvisits]; decide)
  obtain ⟨breakChildren, hbreak⟩ := helement ⟨"br", []⟩ (by rw [hvisits]; decide)
  obtain ⟨-, hwellFormed⟩ := wellFormed_parse "<BoX Class='a\"b' hidden>x > y<BR/ >"
  obtain ⟨-, -, -, hlower, -⟩ := hwellFormed tag boxChildren hbox
  obtain ⟨-, -, -, -, hvoid, -⟩ := hwellFormed _ breakChildren hbreak
  exact ⟨hvisits, hlower, breakChildren, hbreak, hvoid (by decide)⟩

end Node

end Stencil
