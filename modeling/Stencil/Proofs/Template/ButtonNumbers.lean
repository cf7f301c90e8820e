import Stencil.Proofs.Template.ButtonClasses
import Stencil.Proofs.Template.NoCollision

/-!
# Buttons and their labels carry one number

The class list of a button is numbered before its label is named, from a count that only labels
advance. The two numbers still agree, on one condition (`Node.LabelFirst`): each button has just one
text that is not blank right inside it, and no other button in front of that text.

Then buttons and labels alternate in document order, however the elements are nested
(`Site.Paired`, `Node.paired_sitesOf`). So the labels in front of a button are as many as the
buttons in front of it, and the k-th button and its label both have the number k
(`Template.button_numbers`).
-/

set_option autoImplicit false

namespace Stencil

/-- What is behind a list that does not have the item sought. -/
theorem exists_append_of_not_mem {α : Type} {front back before later : List α} {item : α}
    (hsplit : front ++ back = before ++ item :: later) (hitem : item ∉ front) :
    ∃ more, before = front ++ more ∧ back = more ++ item :: later := by
  rcases List.append_eq_append_iff.1 hsplit with ⟨more, hbefore, hback⟩ | ⟨more, hfront, hlater⟩
  · exact ⟨more, hbefore, hback⟩
  · cases more with
    | nil => exact ⟨[], by simpa using hfront.symm, hlater.symm⟩
    | cons first rest =>
      obtain ⟨rfl, -⟩ := List.cons.inj hlater
      exact absurd (hfront ▸ List.mem_append_right before List.mem_cons_self) hitem

/-! ## Sites in pairs -/

namespace Site

@[simp] theorem isButton_element (above : List Ancestor) (tag : Tag) :
    isButton ⟨above, .element tag⟩ = tag.isButton := rfl

@[simp] theorem isButton_text (above : List Ancestor) (content : Text) :
    isButton ⟨above, .text content⟩ = false := rfl

@[simp] theorem isLabel_element (above : List Ancestor) (tag : Tag) :
    isLabel ⟨above, .element tag⟩ = false := rfl

theorem isLabel_text_inside (outer : List Ancestor) (parent : Ancestor) (content : Text) :
    isLabel ⟨outer ++ [parent], .text content⟩ =
      (parent.tag.isButton && !Text.isBlank content) := by
  rw [isLabel_text, parent?_inside]
  rfl

theorem isLabel_of_isBlank (above : List Ancestor) {content : Text}
    (hblank : Text.isBlank content = true) : isLabel ⟨above, .text content⟩ = false := by
  rw [isLabel_text, hblank]
  exact Bool.and_false _

/-- Whether a site is neither a button nor a label. -/
def isQuiet (site : Site) : Bool :=
  !site.isButton && !site.isLabel

theorem isButton_of_isQuiet {site : Site} (h : site.isQuiet = true) : site.isButton = false := by
  rw [isQuiet, Bool.and_eq_true, Bool.not_eq_true', Bool.not_eq_true'] at h
  exact h.1

theorem isLabel_of_isQuiet {site : Site} (h : site.isQuiet = true) : site.isLabel = false := by
  rw [isQuiet, Bool.and_eq_true, Bool.not_eq_true', Bool.not_eq_true'] at h
  exact h.2

theorem not_isQuiet_button {above : List Ancestor} {tag : Tag} (hbutton : tag.isButton = true) :
    ¬ isQuiet ⟨above, .element tag⟩ = true := by
  simp [isQuiet, hbutton]

theorem not_isQuiet_label {outer : List Ancestor} {parent : Ancestor} {content : Text}
    (hparent : parent.tag.isButton = true) (hcontent : Text.isBlank content = false) :
    ¬ isQuiet ⟨outer ++ [parent], .text content⟩ = true := by
  simp [isQuiet, isLabel_text_inside, hparent, hcontent]

theorem countP_of_quiet {sites : List Site} (h : ∀ site ∈ sites, site.isQuiet = true) :
    sites.countP isLabel = 0 ∧ sites.countP isButton = 0 := by
  rw [List.countP_eq_zero, List.countP_eq_zero]
  constructor
  · intro site hsite
    simp [isLabel_of_isQuiet (h site hsite)]
  · intro site hsite
    simp [isButton_of_isQuiet (h site hsite)]

/-- Sites, counted from a position on, among which each button is followed by a label of its own
before another button comes, and there are no other labels. -/
inductive Paired : Nat → List Site → Prop
  | nil (position : Nat) : Paired position []
  | quiet {position : Nat} {site : Site} {later : List Site} (hquiet : site.isQuiet = true)
      (hlater : Paired (position + 1) later) : Paired position (site :: later)
  | button {position : Nat} {above : List Ancestor} {tag : Tag} {content : Text}
      {between later : List Site} (hbutton : tag.isButton = true)
      (hcontent : Text.isBlank content = false) (hbetween : ∀ site ∈ between, site.isQuiet = true)
      (hlater : Paired (position + 1 + between.length + 1) later) :
      Paired position (⟨above, .element tag⟩ ::
        (between ++ ⟨above ++ [⟨position, tag⟩], .text content⟩ :: later))

namespace Paired

theorem append {position : Nat} {first second : List Site} (h : Paired position first)
    (hsecond : Paired (position + first.length) second) : Paired position (first ++ second) := by
  induction h with
  | nil position => exact hsecond
  | @quiet position site later hquiet _ ih =>
    refine .quiet hquiet (ih ?_)
    rw [List.length_cons, Nat.add_comm later.length, ← Nat.add_assoc] at hsecond
    exact hsecond
  | @button position above tag content between later hbutton hcontent hbetween _ ih =>
    have hlater : Paired (position + 1 + between.length + 1 + later.length) second := by
      refine Eq.mp (congrArg (Paired · second) ?_) hsecond
      simp only [List.length_cons, List.length_append]
      omega
    have hall := @button position above tag content between _ hbutton hcontent hbetween (ih hlater)
    simpa using hall

/-- In front of a button there are as many labels as buttons, and its own label is behind it. -/
theorem label_of_button {position : Nat} {sites : List Site} (h : Paired position sites)
    {before later : List Site} {above : List Ancestor} {tag : Tag} {self : Nat}
    (hsites : sites = before ++ ⟨above, .element tag⟩ :: later) (hbutton : tag.isButton = true)
    (hself : self = position + before.length) :
    before.countP isLabel = before.countP isButton ∧
      ∃ between content rest, Text.isBlank content = false ∧
        later = between ++ ⟨above ++ [⟨self, tag⟩], .text content⟩ :: rest := by
  induction h generalizing before with
  | nil position => simp at hsites
  | @quiet position site rest hquiet _ ih =>
    cases before with
    | nil =>
      obtain ⟨rfl, -⟩ := List.cons.inj hsites
      exact absurd hquiet (not_isQuiet_button hbutton)
    | cons first before =>
      obtain ⟨rfl, hrest⟩ := List.cons.inj hsites
      rw [List.length_cons] at hself
      obtain ⟨hcount, hlabel⟩ := ih hrest (by omega)
      refine ⟨?_, hlabel⟩
      simp [hcount, isLabel_of_isQuiet hquiet, isButton_of_isQuiet hquiet]
  | @button position outer owner content between rest howner hcontent hbetween _ ih =>
    cases before with
    | nil =>
      obtain ⟨hsame, hrest⟩ := List.cons.inj hsites
      cases hsame
      rw [List.length_nil, Nat.add_zero] at hself
      exact ⟨rfl, between, content, rest, hcontent, by rw [hself, ← hrest]⟩
    | cons first before =>
      obtain ⟨rfl, hrest⟩ := List.cons.inj hsites
      -- The button sought is behind the label of this one.
      have hnot : (⟨above, .element tag⟩ : Site) ∉
          between ++ [⟨outer ++ [⟨position, owner⟩], .text content⟩] := by
        intro hmem
        rcases List.mem_append.1 hmem with hmem | hmem
        · exact not_isQuiet_button hbutton (hbetween _ hmem)
        · simp at hmem
      rw [List.append_cons] at hrest
      obtain ⟨more, rfl, hmore⟩ := exists_append_of_not_mem hrest hnot
      simp only [List.length_cons, List.length_append, List.length_nil] at hself
      obtain ⟨hcount, hlabel⟩ := ih hmore (by omega)
      obtain ⟨hlabels, hbuttons⟩ := countP_of_quiet hbetween
      refine ⟨?_, hlabel⟩
      simp [hlabels, hbuttons, hcount, isLabel_text_inside, howner, hcontent]

/-- A label is behind a button that it stands in, with neither buttons nor labels between. -/
theorem button_of_label {position : Nat} {sites : List Site} (h : Paired position sites)
    {before later : List Site} {outer : List Ancestor} {owner : Ancestor} {content : Text}
    (hsites : sites = before ++ ⟨outer ++ [owner], .text content⟩ :: later)
    (howner : owner.tag.isButton = true) (hcontent : Text.isBlank content = false) :
    ∃ front between, before = front ++ ⟨outer, .element owner.tag⟩ :: between ∧
      owner.position = position + front.length ∧ ∀ site ∈ between, site.isQuiet = true := by
  induction h generalizing before with
  | nil position => simp at hsites
  | @quiet position site rest hquiet _ ih =>
    cases before with
    | nil =>
      obtain ⟨rfl, -⟩ := List.cons.inj hsites
      exact absurd hquiet (not_isQuiet_label howner hcontent)
    | cons first before =>
      obtain ⟨rfl, hrest⟩ := List.cons.inj hsites
      obtain ⟨front, between, rfl, hposition, hquiet'⟩ := ih hrest
      refine ⟨site :: front, between, rfl, ?_, hquiet'⟩
      rw [hposition, List.length_cons]
      omega
  | @button position above tag words between rest hbutton hwords hbetween _ ih =>
    cases before with
    | nil =>
      obtain ⟨hsame, -⟩ := List.cons.inj hsites
      cases hsame
    | cons first before =>
      obtain ⟨rfl, hrest⟩ := List.cons.inj hsites
      -- The label sought is that of this button, or behind it.
      have hnot : (⟨outer ++ [owner], .text content⟩ : Site) ∉ between := by
        intro hmem
        exact not_isQuiet_label howner hcontent (hbetween _ hmem)
      obtain ⟨more, rfl, hmore⟩ := exists_append_of_not_mem hrest hnot
      cases more with
      | nil =>
        obtain ⟨hsame, -⟩ := List.cons.inj hmore
        obtain ⟨hinside, -⟩ := Site.mk.inj hsame
        obtain ⟨rfl, hlast⟩ := List.append_inj' hinside rfl
        obtain rfl := List.singleton_inj.1 hlast
        exact ⟨[], between, by simp, by simp, hbetween⟩
      | cons label more =>
        obtain ⟨rfl, hbehind⟩ := List.cons.inj hmore
        obtain ⟨front, between', rfl, hposition, hquiet'⟩ := ih hbehind
        refine ⟨⟨above, .element tag⟩ :: (between ++
          ⟨above ++ [⟨position, tag⟩], .text words⟩ :: front), between', ?_, ?_, hquiet'⟩
        · simp
        · rw [hposition]
          simp
          omega

end Paired

end Site

/-! ## Trees of labelled buttons -/

namespace Node

/-- Whether a node is a text that is not blank. -/
def isWords : Node → Bool
  | .text content => !Text.isBlank content
  | .element _ _ => false

/-- Whether a node, if it is a button, has one text that is not blank right inside it, and no other
button in front of that text. -/
def LabelFirst : Node → Prop
  | .text _ => True
  | .element tag children =>
    tag.isButton = true → children.countP isWords = 1 ∧
      ∀ other ∈ tagsOf (children.takeWhile (!isWords ·)), other.isButton = false

instance : DecidablePred LabelFirst
  | .text _ => inferInstanceAs (Decidable True)
  | .element tag children => inferInstanceAs (Decidable (tag.isButton = true →
      children.countP isWords = 1 ∧
        ∀ other ∈ tagsOf (children.takeWhile (!isWords ·)), other.isButton = false))

theorem exists_text_of_isWords {node : Node} (h : node.isWords = true) :
    ∃ content, node = .text content ∧ Text.isBlank content = false := by
  cases node with
  | text content => exact ⟨content, rfl, by simpa [isWords] using h⟩
  | element tag children => cases h

/-! ### Pairs in a tree

Inside a button whose label is still to come the statement is another one than elsewhere: up to the
label there is nothing but quiet sites. So three statements are proved in one induction on the tree,
about a node, about neighbouring nodes, and about the nodes right inside such a button.
-/

theorem length_sites (position : Nat) (above : List Ancestor) (node : Node) :
    (node.sites position above).length = node.visits.length := by
  rw [← map_visit_sites position above node, List.length_map]

mutual

theorem quiet_sites {position : Nat} {above : List Ancestor} : ∀ node : Node,
    (∀ tag ∈ node.tags, tag.isButton = false) →
    (∀ content, node = .text content → Site.isLabel ⟨above, .text content⟩ = false) →
    ∀ site ∈ node.sites position above, site.isQuiet = true
  | .text content, _, htext, site, hsite => by
    rw [sites, List.mem_singleton] at hsite
    rw [hsite, Site.isQuiet, htext content rfl]
    rfl
  | .element tag children, htags, _, site, hsite => by
    rw [sites] at hsite
    rcases List.mem_cons.1 hsite with rfl | hinside
    · simp [Site.isQuiet, htags tag List.mem_cons_self]
    · refine quiet_sitesOf children ?_ ?_ site hinside
      · exact fun other hother => htags other (List.mem_cons_of_mem _ hother)
      · intro content _
        rw [Site.isLabel_text_inside, htags tag List.mem_cons_self, Bool.false_and]

/-- Where there are no buttons, only the texts right here can be labels. -/
theorem quiet_sitesOf {position : Nat} {above : List Ancestor} : ∀ nodes : List Node,
    (∀ tag ∈ tagsOf nodes, tag.isButton = false) →
    (∀ content, .text content ∈ nodes → Site.isLabel ⟨above, .text content⟩ = false) →
    ∀ site ∈ sitesOf position above nodes, site.isQuiet = true
  | [], _, _, site, hsite => by
    cases hsite
  | node :: rest, htags, htexts, site, hsite => by
    rcases List.mem_append.1 hsite with hnode | hrest
    · refine quiet_sites node ?_ ?_ site hnode
      · exact fun tag htag => htags tag (List.mem_append_left _ htag)
      · exact fun content hcontent => htexts content (hcontent ▸ List.mem_cons_self)
    · refine quiet_sitesOf rest ?_ ?_ site hrest
      · exact fun tag htag => htags tag (List.mem_append_right _ htag)
      · exact fun content hcontent => htexts content (List.mem_cons_of_mem _ hcontent)

end

mutual

theorem paired_sites (position : Nat) (above : List Ancestor) : ∀ node : Node,
    (∀ below ∈ node.subtrees, below.LabelFirst) →
    (∀ content, node = .text content → Site.isLabel ⟨above, .text content⟩ = false) →
    Site.Paired position (node.sites position above)
  | .text content, _, htext => by
    rw [sites]
    refine .quiet ?_ (.nil _)
    simp [Site.isQuiet, htext content rfl]
  | .element tag children, hbelow, _ => by
    have hchildren : ∀ below ∈ subtreesOf children, below.LabelFirst :=
      fun below hmem => hbelow below (List.mem_cons_of_mem _ hmem)
    rw [sites]
    by_cases hbutton : tag.isButton = true
    · obtain ⟨hone, hfront⟩ := hbelow (.element tag children) List.mem_cons_self hbutton
      obtain ⟨between, content, later, hsites, hcontent, hbetween, hlater⟩ :=
        exists_label_sitesOf (position + 1) (above ++ [⟨position, tag⟩]) children hchildren hone
          hfront
      rw [hsites]
      exact .button hbutton hcontent hbetween hlater
    · have hother : tag.isButton = false := Bool.not_eq_true _ ▸ hbutton
      refine .quiet (by simp [Site.isQuiet, hother]) ?_
      refine paired_sitesOf (position + 1) _ children hchildren ?_
      intro content _
      rw [Site.isLabel_text_inside, hother, Bool.false_and]

/-- Where each button has its label first, and the texts right here are no labels, buttons and
labels are paired. -/
theorem paired_sitesOf (position : Nat) (above : List Ancestor) : ∀ nodes : List Node,
    (∀ below ∈ subtreesOf nodes, below.LabelFirst) →
    (∀ content, .text content ∈ nodes → Site.isLabel ⟨above, .text content⟩ = false) →
    Site.Paired position (sitesOf position above nodes)
  | [], _, _ => .nil position
  | node :: rest, hbelow, htexts => by
    rw [sitesOf]
    refine Site.Paired.append (paired_sites position above node ?_ ?_) ?_
    · exact fun below hmem => hbelow below (List.mem_append_left _ hmem)
    · exact fun content hcontent => htexts content (hcontent ▸ List.mem_cons_self)
    · rw [length_sites]
      refine paired_sitesOf _ above rest ?_ ?_
      · exact fun below hmem => hbelow below (List.mem_append_right _ hmem)
      · exact fun content hcontent => htexts content (List.mem_cons_of_mem _ hcontent)

/-- Right inside a button, there is its label, nothing of note in front of it, and pairs behind. -/
theorem exists_label_sitesOf (position : Nat) (above : List Ancestor) : ∀ nodes : List Node,
    (∀ below ∈ subtreesOf nodes, below.LabelFirst) → nodes.countP isWords = 1 →
    (∀ tag ∈ tagsOf (nodes.takeWhile (!isWords ·)), tag.isButton = false) →
    ∃ between content later,
      sitesOf position above nodes = between ++ ⟨above, .text content⟩ :: later ∧
        Text.isBlank content = false ∧ (∀ site ∈ between, site.isQuiet = true) ∧
        Site.Paired (position + between.length + 1) later
  | [], _, hone, _ => by
    cases hone
  | node :: rest, hbelow, hone, hfront => by
    have hrest : ∀ below ∈ subtreesOf rest, below.LabelFirst :=
      fun below hmem => hbelow below (List.mem_append_right _ hmem)
    rw [sitesOf]
    cases hwords : node.isWords with
    | true =>
      -- This is the label, and the texts behind it are blank.
      obtain ⟨content, rfl, hcontent⟩ := exists_text_of_isWords hwords
      rw [List.countP_cons_of_pos hwords, Nat.succ_inj, List.countP_eq_zero] at hone
      refine ⟨[], content, sitesOf (position + 1) above rest, rfl, hcontent, ?_, ?_⟩
      · exact fun site hsite => absurd hsite List.not_mem_nil
      · refine paired_sitesOf (position + 1) above rest hrest ?_
        intro other hother
        refine Site.isLabel_of_isBlank above ?_
        simpa [isWords] using hone _ hother
    | false =>
      -- The label is further on, so no button is in this node.
      rw [List.takeWhile_cons_of_pos (by simp [hwords]), tagsOf] at hfront
      rw [List.countP_cons_of_neg (by simp [hwords])] at hone
      obtain ⟨between, content, later, hsites, hcontent, hbetween, hlater⟩ :=
        exists_label_sitesOf (position + node.visits.length) above rest hrest hone
          fun tag htag => hfront tag (List.mem_append_right _ htag)
      refine ⟨node.sites position above ++ between, content, later, ?_, hcontent, ?_, ?_⟩
      · rw [hsites, List.append_assoc]
      · intro site hsite
        rcases List.mem_append.1 hsite with hnode | hsite
        · refine quiet_sites node ?_ ?_ site hnode
          · exact fun tag htag => hfront tag (List.mem_append_left _ htag)
          · rintro other rfl
            refine Site.isLabel_of_isBlank above ?_
            simpa [isWords] using hwords
        · exact hbetween site hsite
      · rw [List.length_append, length_sites, ← Nat.add_assoc]
        exact hlater

end

end Node

/-! ## Numbers -/

namespace Template

section Parsed

variable {options : Options} {markup : Text} {before later : List Site}
  (htexts : options.textEditable = true)

include htexts

theorem buttons_after_sites (sites : List Site) :
    (Naming.after options.classMode (sites.flatMap (Site.places options)) {}).buttons =
      (sites.countP Site.isLabel : Nat) := by
  rw [Naming.buttons_after, Site.countP_flatMap_places htexts]
  exact Int.zero_add _

/-- A button is written with the number of labels in front of it. -/
theorem exists_written_button (hmode : options.classMode ≠ .fixed) {above : List Ancestor}
    {tag : Tag} (hbutton : tag.isButton = true)
    (hsites : Node.sitesOf 0 [] (Node.parse markup) = before ++ ⟨above, .element tag⟩ :: later) :
    ∃ shown,
      (Node.visitsOf (Node.writtenAll options none {} (Node.parse markup)))[before.length]? =
        some (.element shown) ∧
      shown.onlyClass = ⟨tag.name, [("class", .text
        (placeholder (numbered "btn_classes" ((before.countP Site.isLabel : Nat) + 1))))]⟩ := by
  refine ⟨_, getElem?_visitsOf options hsites, ?_⟩
  rw [Tag.onlyClass_written_button hmode hbutton, buttons_after_sites htexts]

/-- A label is written with the number of labels in front of it. -/
theorem written_label {outer : List Ancestor} {owner : Ancestor} {content : Text}
    (howner : owner.tag.isButton = true) (hcontent : Text.isBlank content = false)
    (hsites : Node.sitesOf 0 [] (Node.parse markup) =
      before ++ ⟨outer ++ [owner], .text content⟩ :: later) :
    (Node.visitsOf (Node.writtenAll options none {} (Node.parse markup)))[before.length]? =
      some (.text
        (placeholder (numbered "btn_label" ((before.countP Site.isLabel : Nat) + 1)))) := by
  let naming := Naming.after options.classMode (before.flatMap (Site.places options)) {}
  have hsome : Text.trim (Text.collapse content) ≠ [] := by
    rw [Ne, Text.trim_collapse_eq_nil_iff, hcontent]
    exact Bool.false_ne_true
  have hplace : Node.textPlaces options (some owner.tag) content = [.ofText owner.tag content] := by
    rw [Node.textPlaces, if_pos ⟨htexts, hsome⟩]
  have hkey : (naming.textKey owner.tag).1 =
      numbered "btn_label" ((before.countP Site.isLabel : Nat) + 1) := by
    rw [Naming.textKey, if_pos howner, buttons_after_sites htexts]
  have hwritten : Node.writtenText options (some owner.tag) naming content =
      placeholder (naming.textKey owner.tag).1 := Node.writtenText_of_place hplace rfl
  rw [getElem?_visitsOf options hsites, Site.written, Site.parent?_inside, ← hkey, ← hwritten]

end Parsed

/-- **Buttons and their labels carry one number.** Let classes and texts be editable, with any
attributes. If each button of a markup has just one text that is not blank right inside it, and no
other button in front of that text, then the k-th button in document order is written with the k-th
class key of buttons, and its text as the k-th label, whatever else stands around the buttons or in
them. -/
theorem button_numbers (options : Options) (markup : Text) (hmode : options.classMode ≠ .fixed)
    (htexts : options.textEditable = true)
    (hlabels : ∀ node ∈ Node.subtreesOf (Node.parse markup), node.LabelFirst) :
    let tree := Node.parse markup
    let sites := Node.sitesOf 0 [] tree
    let written := Node.writtenAll options none {} tree
    (ofTree options tree).text = Node.printAll written ∧
      ∀ (before later : List Site) (above : List Ancestor) (tag : Tag),
        sites = before ++ ⟨above, .element tag⟩ :: later → tag.isButton = true →
        let number : Int := (before.countP Site.isButton : Nat) + 1
        let inside := above ++ [⟨before.length, tag⟩]
        (∃ shown, (Node.visitsOf written)[before.length]? = some (.element shown) ∧
            shown.onlyClass = ⟨tag.name, [("class", .text
              (placeholder (numbered "btn_classes" number)))]⟩) ∧
          (∃ between content rest, later = between ++ ⟨inside, .text content⟩ :: rest ∧
            Text.isBlank content = false) ∧
          ∀ between content rest, later = between ++ ⟨inside, .text content⟩ :: rest →
            Text.isBlank content = false →
            (Node.visitsOf written)[before.length + 1 + between.length]? =
              some (.text (placeholder (numbered "btn_label" number))) := by
  intro tree sites written
  have hpaired : Site.Paired 0 sites := Node.paired_sitesOf 0 [] tree hlabels fun _ _ => rfl
  refine ⟨text_eq_printAll options tree, ?_⟩
  intro before later above tag hsites hbutton number inside
  obtain ⟨hcount, between, content, rest, hcontent, hlater⟩ :=
    hpaired.label_of_button hsites hbutton (Nat.zero_add _).symm
  refine ⟨?_, ⟨between, content, rest, hlater, hcontent⟩, ?_⟩
  · have hshown := exists_written_button htexts hmode hbutton hsites
    rw [hcount] at hshown
    exact hshown
  · intro between content rest hlater hcontent
    -- What stands between the button and its label is quiet, so it counts no labels.
    have hlabel : sites = (before ++ ⟨above, .element tag⟩ :: between) ++
        ⟨inside, .text content⟩ :: rest := by
      rw [hsites, hlater, List.append_assoc, List.cons_append]
    obtain ⟨front, quiet, hfront, hposition, hquiet⟩ :=
      hpaired.button_of_label hlabel hbutton hcontent
    rw [Nat.zero_add] at hposition
    obtain ⟨rfl, hbetween⟩ := List.append_inj hfront hposition
    obtain ⟨-, rfl⟩ := List.cons.inj hbetween
    have hnone := (Site.countP_of_quiet hquiet).1
    have hwritten := written_label htexts hbutton hcontent hlabel
    rw [List.countP_append, List.countP_cons_of_neg (by simp), hnone, Nat.add_zero, hcount,
      List.length_append, List.length_cons, Nat.add_comm between.length, ← Nat.add_assoc]
      at hwritten
    exact hwritten

/-- Two buttons, the second inside the first, which is never closed: both have their labels first,
and the second one has the number two. -/
theorem button_numbers_nested :
    let markup : Text := "<a class=\"btn btn-dark\">Go <i>there</i><p>or <a class=btn>Stay"
    let tree := Node.parse markup
    let written := Node.writtenAll {} none {} tree
    ({} : Options).classMode ≠ .fixed ∧ ({} : Options).textEditable = true ∧
      (∀ node ∈ Node.subtreesOf tree, node.LabelFirst) ∧
      (∃ shown, (Node.visitsOf written)[6]? = some (.element shown) ∧
        shown.onlyClass = ⟨"a", [("class", .text (placeholder (numbered "btn_classes" 2)))]⟩) ∧
      (Node.visitsOf written)[7]? = some (.text (placeholder (numbered "btn_label" 2))) := by
  intro markup tree written
  have hmode : ({} : Options).classMode ≠ .fixed := by decide
  have hlabels : ∀ node ∈ Node.subtreesOf tree, node.LabelFirst := by
    decide +kernel
  let before := (Node.sitesOf 0 [] tree).take 6
  let tag : Tag := ⟨"a", [("class", .text "btn")]⟩
  let above : List Ancestor :=
    [⟨0, ⟨"a", [("class", .text "btn btn-dark")]⟩⟩, ⟨4, ⟨"p", []⟩⟩]
  have hsites : Node.sitesOf 0 [] tree = before ++ ⟨above, .element tag⟩ ::
      ([] ++ ⟨above ++ [⟨before.length, tag⟩], .text "Stay"⟩ :: []) := by
    decide +kernel
  have hcount : before.length = 6 ∧ before.countP Site.isButton = 1 := by
    decide +kernel
  obtain ⟨-, hbuttons⟩ := button_numbers {} markup hmode rfl hlabels
  obtain ⟨hshown, -, hlabel⟩ := hbuttons before _ above tag hsites (by decide +kernel)
  have hwritten := hlabel [] "Stay" [] rfl (by decide +kernel)
  rw [hcount.1, hcount.2] at hshown hwritten
  exact ⟨hmode, rfl, hlabels, hshown, hwritten⟩

end Template

end Stencil
