import Stencil.Text.Blank
import Stencil.Proofs.Text.Cut

/-!
# Trimming and first words

A text is its trimmed middle between two runs of blanks (`Text.exists_eq_trim`), and a middle that
neither starts nor ends with a blank is what trimming leaves (`Text.trim_eq_of_between`). The first
word of a text is the first of its words, and trimming does not change it (`Text.firstWord_trim`).
A text is blank just when collapsing and trimming leave nothing (`Text.trim_collapse_eq_nil_iff`).
-/

set_option autoImplicit false

namespace Stencil

namespace Text

/-! ## Trimming -/

/-- A text that neither starts nor ends with a blank. -/
def Trimmed (text : Text) : Prop :=
  (∀ c ∈ text.head?, c.isBlank = false) ∧ ∀ c ∈ text.getLast?, c.isBlank = false

theorem trimmed_of_no_blank {text : Text} (h : ∀ c ∈ text, c.isBlank = false) : Trimmed text :=
  ⟨fun c hc => h c (List.mem_of_mem_head? hc), fun c hc => h c (List.mem_of_getLast? hc)⟩

theorem trimStart_eq_of_between {lead rest : Text} (hlead : ∀ c ∈ lead, c.isBlank)
    (hrest : ∀ c ∈ rest.head?, c.isBlank = false) : trimStart (lead ++ rest) = rest :=
  dropWhile_append_of_stop hlead hrest

theorem trimEnd_eq_of_between {rest trail : Text} (htrail : ∀ c ∈ trail, c.isBlank)
    (hrest : ∀ c ∈ rest.getLast?, c.isBlank = false) : trimEnd (rest ++ trail) = rest := by
  have hlead : ∀ c ∈ trail.reverse, c.isBlank := fun c hc => htrail c (List.mem_reverse.1 hc)
  have hhead : ∀ c ∈ rest.reverse.head?, c.isBlank = false := by
    intro c hc
    rw [List.head?_reverse] at hc
    exact hrest c hc
  rw [trimEnd, List.reverse_append, trimStart_eq_of_between hlead hhead, List.reverse_reverse]

/-- What stands between two runs of blanks is what trimming leaves. -/
theorem trim_eq_of_between {lead middle trail : Text} (hlead : ∀ c ∈ lead, c.isBlank)
    (htrail : ∀ c ∈ trail, c.isBlank) (hmiddle : Trimmed middle) :
    trim (lead ++ middle ++ trail) = middle := by
  rw [trim, List.append_assoc]
  cases middle with
  | nil =>
    have hall : ∀ c ∈ lead ++ trail, c.isBlank := by
      intro c hc
      rcases List.mem_append.1 hc with hc | hc
      · exact hlead c hc
      · exact htrail c hc
    have hstart : trimStart (lead ++ trail) = [] := List.dropWhile_eq_nil_iff.2 hall
    rw [List.nil_append, hstart]
    rfl
  | cons c rest =>
    have hhead : ∀ d ∈ ((c :: rest) ++ trail).head?, d.isBlank = false := hmiddle.1
    rw [trimStart_eq_of_between hlead hhead, trimEnd_eq_of_between htrail hmiddle.2]

theorem trim_of_trimmed {text : Text} (h : Trimmed text) : trim text = text := by
  have hbetween := @trim_eq_of_between [] text [] (by simp) (by simp) h
  simpa using hbetween

theorem trim_space_cons {text : Text} (h : Trimmed text) : trim (.scalar ' ' :: text) = text := by
  have hbetween := @trim_eq_of_between [.scalar ' '] text [] (by decide) (by simp) h
  simpa using hbetween

theorem trimStart_of_head? {text : Text} (h : ∀ c ∈ text.head?, c.isBlank = false) :
    trimStart text = text :=
  @trimStart_eq_of_between [] text (by simp) h

theorem trimStart_cons_of_not {c : CodePoint} {rest : Text} (hc : c.isBlank = false) :
    trimStart (c :: rest) = c :: rest :=
  List.dropWhile_cons_of_neg (by simp [hc])

/-- Blanks in front are trimmed away. -/
theorem trim_blank_append {lead : Text} (hlead : ∀ c ∈ lead, c.isBlank) (rest : Text) :
    trim (lead ++ rest) = trim rest := by
  rw [trim, trim, trimStart, trimStart, List.dropWhile_append_of_pos hlead]

theorem exists_eq_trimStart (text : Text) :
    ∃ lead, text = lead ++ trimStart text ∧ ∀ c ∈ lead, c.isBlank :=
  ⟨text.takeWhile CodePoint.isBlank, List.takeWhile_append_dropWhile.symm,
    fun _ hc => List.mem_takeWhile_imp hc⟩

theorem exists_eq_trimEnd (text : Text) :
    ∃ trail, text = trimEnd text ++ trail ∧ ∀ c ∈ trail, c.isBlank := by
  obtain ⟨lead, hsplit, hlead⟩ := exists_eq_trimStart text.reverse
  refine ⟨lead.reverse, ?_, fun c hc => hlead c (List.mem_reverse.1 hc)⟩
  rw [trimEnd, ← List.reverse_append, ← hsplit, List.reverse_reverse]

theorem head?_trimEnd_of_ne_nil {text : Text} (h : trimEnd text ≠ []) :
    (trimEnd text).head? = text.head? := by
  obtain ⟨trail, hsplit, -⟩ := exists_eq_trimEnd text
  cases hend : trimEnd text with
  | nil => exact absurd hend h
  | cons c rest =>
    rw [hend] at hsplit
    rw [hsplit]
    rfl

theorem trimmed_trim (text : Text) : Trimmed (trim text) := by
  constructor
  · intro c hc
    have hne : trim text ≠ [] := by
      intro hnil
      rw [hnil] at hc
      cases hc
    rw [trim, head?_trimEnd_of_ne_nil hne] at hc
    exact not_of_mem_head?_dropWhile c hc
  · intro c hc
    rw [trim, trimEnd, List.getLast?_reverse] at hc
    exact not_of_mem_head?_dropWhile c hc

/-- A text is its trimmed middle between two runs of blanks. -/
theorem exists_eq_trim (text : Text) :
    ∃ lead trail, text = lead ++ trim text ++ trail ∧ (∀ c ∈ lead, c.isBlank) ∧
      ∀ c ∈ trail, c.isBlank := by
  obtain ⟨lead, hlead, hlead_blank⟩ := exists_eq_trimStart text
  obtain ⟨trail, htrail, htrail_blank⟩ := exists_eq_trimEnd (trimStart text)
  refine ⟨lead, trail, ?_, hlead_blank, htrail_blank⟩
  rw [trim, List.append_assoc, ← htrail]
  exact hlead

theorem mem_of_mem_trim {text : Text} {c : CodePoint} (hc : c ∈ trim text) : c ∈ text := by
  obtain ⟨lead, trail, hsplit, -, -⟩ := exists_eq_trim text
  rw [hsplit]
  simp [hc]

/-- Only blanks are trimmed away. -/
theorem trim_eq_nil_iff {text : Text} : trim text = [] ↔ ∀ c ∈ text, c.isBlank := by
  constructor
  · intro hnil
    obtain ⟨lead, trail, hsplit, hlead, htrail⟩ := exists_eq_trim text
    intro c hc
    rw [hsplit, hnil, List.append_nil] at hc
    rcases List.mem_append.1 hc with hc | hc
    · exact hlead c hc
    · exact htrail c hc
  · intro hall
    have hstart : trimStart text = [] := List.dropWhile_eq_nil_iff.2 hall
    rw [trim, hstart]
    rfl

/-! ## First words -/

theorem splitBlank_fst (text : Text) :
    (splitBlank text).1 = text.takeWhile fun c => !c.isBlank := by
  induction text with
  | nil => rfl
  | cons c rest ih =>
    rw [splitBlank, List.takeWhile_cons]
    cases hblank : c.isBlank with
    | true => simp
    | false => simp [ih]

/-- The first word is the first of the words. -/
theorem headD_words (text : Text) : (words text).headD [] = firstWord text := by
  induction text with
  | nil => rfl
  | cons c rest ih =>
    cases hblank : c.isBlank with
    | true =>
      have hwords : words (c :: rest) = words rest := by simp [words, splitBlank, hblank]
      rw [hwords, ih, firstWord, firstWord, trimStart, trimStart,
        List.dropWhile_cons_of_pos hblank]
    | false =>
      have hwords : words (c :: rest) = (c :: (splitBlank rest).1) :: (splitBlank rest).2 := by
        simp [words, splitBlank, hblank]
      rw [hwords, List.headD_cons, splitBlank_fst, firstWord, trimStart,
        List.dropWhile_cons_of_neg (by simp [hblank]),
        List.takeWhile_cons_of_pos (by simp [hblank])]

theorem firstWord_append_of_stop {word rest : Text} (hword : ∀ c ∈ word, c.isBlank = false)
    (hne : word ≠ []) (hrest : ∀ c ∈ rest.head?, c.isBlank) : firstWord (word ++ rest) = word := by
  have hhead : ∀ c ∈ (word ++ rest).head?, c.isBlank = false := by
    intro c hc
    cases word with
    | nil => exact absurd rfl hne
    | cons d tail =>
      cases hc
      exact hword c List.mem_cons_self
  have hstart : trimStart (word ++ rest) = word ++ rest :=
    trimStart_of_head? hhead
  rw [firstWord, hstart]
  refine takeWhile_append_of_stop ?_ ?_
  · intro c hc
    simp [hword c hc]
  · intro c hc
    simp [hrest c hc]

/-- Trimming does not change the first word. -/
theorem firstWord_trim (text : Text) : firstWord (trim text) = firstWord text := by
  obtain ⟨lead, trail, hsplit, hlead, htrail⟩ := exists_eq_trim text
  have hstart : trimStart (trim text) = trim text :=
    trimStart_of_head? (trimmed_trim text).1
  have hstop : ∀ c ∈ trail.head?, (!c.isBlank) = false := by
    intro c hc
    simp [htrail c (List.mem_of_mem_head? hc)]
  cases htrim : trim text with
  | nil =>
    have hnil : trimStart text = [] := List.dropWhile_eq_nil_iff.2 (trim_eq_nil_iff.1 htrim)
    rw [firstWord, firstWord, hnil]
    rfl
  | cons c rest =>
    have hhead : ∀ d ∈ (trim text ++ trail).head?, d.isBlank = false := by
      intro d hd
      rw [htrim] at hd
      exact (trimmed_trim text).1 d (by rw [htrim]; exact hd)
    have hwhole : trimStart text = trim text ++ trail := by
      have hbetween := trimStart_eq_of_between hlead hhead
      rw [← List.append_assoc, ← hsplit] at hbetween
      exact hbetween
    rw [← htrim, firstWord, firstWord, hstart, hwhole, takeWhile_append_of_stop_behind hstop]

/-- A text without blanks that starts before a blank ends before it. -/
theorem prefix_of_prefix_append_blank {pattern text rest : Text}
    (hpattern : ∀ c ∈ pattern, c.isBlank = false) (hrest : ∀ c ∈ rest.head?, c.isBlank = true)
    (h : pattern <+: text ++ rest) : pattern <+: text := by
  obtain ⟨more, hsplit⟩ := h
  rcases List.append_eq_append_iff.1 hsplit with ⟨left, htext, -⟩ | ⟨beyond, hbeyond, hmore⟩
  · exact ⟨left, htext.symm⟩
  · cases beyond with
    | nil =>
      rw [List.append_nil] at hbeyond
      exact ⟨[], by rw [hbeyond, List.append_nil]⟩
    | cons c tail =>
      have hblank := hrest c (by rw [hmore]; rfl)
      rw [hpattern c (by rw [hbeyond]; simp)] at hblank
      cases hblank

/-! ## Runs of blanks -/

theorem mem_of_mem_collapseAfter {afterBlank : Bool} {text : Text} {c : CodePoint}
    (hc : c ∈ collapseAfter afterBlank text) : c ∈ text ∨ c = ' ' := by
  induction text generalizing afterBlank with
  | nil => cases hc
  | cons d rest ih =>
    have later : ∀ {afterBlank}, c ∈ collapseAfter afterBlank rest → c ∈ d :: rest ∨ c = ' ' :=
      fun hrest => (ih hrest).imp_left (List.mem_cons_of_mem d)
    rw [collapseAfter] at hc
    split at hc
    · split at hc
      · exact later hc
      · rcases List.mem_cons.1 hc with hspace | hrest
        · exact Or.inr hspace
        · exact later hrest
    · rcases List.mem_cons.1 hc with rfl | hrest
      · exact Or.inl List.mem_cons_self
      · exact later hrest

/-- Collapsing brings in nothing but spaces. -/
theorem not_mem_collapse {text : Text} {c : CodePoint} (hspace : c ≠ ' ') (hc : c ∉ text) :
    c ∉ collapse text := by
  intro hmem
  rcases mem_of_mem_collapseAfter hmem with hold | hnew
  · exact hc hold
  · exact hspace hnew

theorem mem_collapseAfter_of_not_blank {afterBlank : Bool} {text : Text} {c : CodePoint}
    (hblank : c.isBlank = false) (hc : c ∈ text) : c ∈ collapseAfter afterBlank text := by
  induction text generalizing afterBlank with
  | nil => cases hc
  | cons d rest ih =>
    rw [collapseAfter]
    rcases List.mem_cons.1 hc with rfl | hrest
    · rw [if_neg (by simp [hblank])]
      exact List.mem_cons_self
    · split
      · split
        · exact ih hrest
        · exact List.mem_cons_of_mem _ (ih hrest)
      · exact List.mem_cons_of_mem _ (ih hrest)

/-- Collapsing and trimming leave nothing of a text just when it is blank. -/
theorem trim_collapse_eq_nil_iff {text : Text} :
    trim (collapse text) = [] ↔ isBlank text = true := by
  rw [trim_eq_nil_iff, isBlank, List.all_eq_true]
  constructor
  · intro hall c hc
    cases hblank : c.isBlank with
    | true => rfl
    | false =>
      rw [hall c (mem_collapseAfter_of_not_blank hblank hc)] at hblank
      cases hblank
  · intro hall c hc
    rcases mem_of_mem_collapseAfter hc with hold | rfl
    · exact hall c hold
    · decide

theorem collapse_ne_nil {text : Text} (h : text ≠ []) : collapse text ≠ [] := by
  cases text with
  | nil => exact absurd rfl h
  | cons c rest =>
    rw [collapse, collapseAfter]
    split
    · exact List.cons_ne_nil _ _
    · exact List.cons_ne_nil _ _

end Text

end Stencil
