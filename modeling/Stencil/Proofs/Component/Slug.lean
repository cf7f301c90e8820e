import Mathlib.Data.List.Basic
import Stencil.Proofs.Text.Pieces
import Stencil.Slug
import Stencil.Storage.Path

/-!
# What slugs are made of

A slug holds small ASCII letters, digits and hyphens only (`mem_slugOf`), so it is no double dot and
has no slash. It is empty if and only if the text has neither an ASCII letter or digit nor an
ampersand once its marks are gone (`slugOf_ne_nil_iff`).
-/

set_option autoImplicit false

namespace Stencil

variable {c : CodePoint} {text run : Text}

/-! ## Runs -/

/-- The runs of a text together are its letters and digits. -/
theorem splitRuns_append_flatten (text : Text) :
    (splitRuns text).1 ++ (splitRuns text).2.flatten =
      text.filter CodePoint.isAsciiAlphanumeric := by
  induction text with
  | nil => rfl
  | cons c rest ih =>
    rw [splitRuns]
    by_cases hc : c.isAsciiAlphanumeric
    · simp [hc, ih]
    · simp only [hc, Bool.false_eq_true, if_false, List.filter_cons_of_neg, not_false_eq_true,
        List.nil_append]
      rw [← ih]
      split
      · next hempty => rw [List.isEmpty_iff.1 hempty, List.nil_append]
      · rw [List.flatten_cons]

theorem flatten_alphanumericRuns (text : Text) :
    (alphanumericRuns text).flatten = text.filter CodePoint.isAsciiAlphanumeric := by
  rw [← splitRuns_append_flatten, alphanumericRuns]
  dsimp only
  split
  · next hempty => rw [List.isEmpty_iff.1 hempty, List.nil_append]
  · rw [List.flatten_cons]

theorem ne_nil_of_mem_splitRuns (h : run ∈ (splitRuns text).2) : run ≠ [] := by
  induction text generalizing run with
  | nil => cases h
  | cons c rest ih =>
    rw [splitRuns] at h
    dsimp only at h
    split at h
    · exact ih h
    · split at h
      · exact ih h
      · next hfull =>
        rcases List.mem_cons.1 h with rfl | hlater
        · rwa [List.isEmpty_iff] at hfull
        · exact ih hlater

theorem ne_nil_of_mem_alphanumericRuns (h : run ∈ alphanumericRuns text) : run ≠ [] := by
  rw [alphanumericRuns] at h
  dsimp only at h
  split at h
  · exact ne_nil_of_mem_splitRuns h
  · next hfull =>
    rcases List.mem_cons.1 h with rfl | hlater
    · rwa [List.isEmpty_iff] at hfull
    · exact ne_nil_of_mem_splitRuns hlater

theorem isAsciiAlphanumeric_of_mem_run (h : run ∈ alphanumericRuns text) (hc : c ∈ run) :
    c.isAsciiAlphanumeric = true := by
  have hmem : c ∈ (alphanumericRuns text).flatten := List.mem_flatten.2 ⟨run, h, hc⟩
  rw [flatten_alphanumericRuns] at hmem
  exact (List.mem_filter.1 hmem).2

/-- A text has a run if and only if it has a letter or a digit. -/
theorem alphanumericRuns_ne_nil_iff :
    alphanumericRuns text ≠ [] ↔ ∃ c ∈ text, c.isAsciiAlphanumeric = true := by
  constructor
  · intro h
    obtain ⟨run, hrun⟩ := List.exists_mem_of_ne_nil _ h
    obtain ⟨c, hc⟩ := List.exists_mem_of_ne_nil run (ne_nil_of_mem_alphanumericRuns hrun)
    have hmem : c ∈ (alphanumericRuns text).flatten := List.mem_flatten.2 ⟨run, hrun, hc⟩
    rw [flatten_alphanumericRuns] at hmem
    exact ⟨c, List.mem_filter.1 hmem⟩
  · rintro ⟨c, hc, halphanumeric⟩ hnone
    have hmem : c ∈ (alphanumericRuns text).flatten := by
      rw [flatten_alphanumericRuns]
      exact List.mem_filter.2 ⟨hc, halphanumeric⟩
    rw [hnone] at hmem
    cases hmem

/-! ## Small letters -/

/-- A small ASCII letter or a digit. -/
def CodePoint.isSmallAlphanumeric (c : CodePoint) : Bool :=
  c.satisfies fun c => ('a' ≤ c && c ≤ 'z') || ('0' ≤ c && c ≤ '9')

theorem CodePoint.isSmallAlphanumeric_lowerAscii (h : c.isAsciiAlphanumeric = true) :
    c.lowerAscii.isSmallAlphanumeric = true := by
  cases c with
  | half offset => cases h
  | scalar c =>
    simp only [isAsciiAlphanumeric, isAsciiLetter, isAsciiDigit, satisfies, Bool.or_eq_true,
      Bool.and_eq_true, decide_eq_true_eq, Char.le_def, UInt32.le_iff_toNat_le] at h
    simp only [isSmallAlphanumeric, lowerAscii, satisfies, Bool.or_eq_true, Bool.and_eq_true,
      decide_eq_true_eq, Char.le_def, UInt32.le_iff_toNat_le]
    unfold Char.toLower
    split
    · next hcapital =>
      simp [UInt32.le_iff_toNat_le] at hcapital ⊢
      omega
    · next hcapital =>
      simp [UInt32.le_iff_toNat_le] at hcapital h ⊢
      omega

/-! ## Slugs -/

/-- The text that a slug takes its runs from. -/
def spelledOut (text : Text) : Text :=
  Text.replace '&' " and " (withoutMarks text)

theorem slugOf_eq_join (text : Text) :
    slugOf text =
      Text.join "-" ((alphanumericRuns (spelledOut text)).map (List.map CodePoint.lowerAscii)) :=
  rfl

/-- Joining runs gives something if there is a run. -/
theorem slugOf_eq_nil_iff : slugOf text = [] ↔ alphanumericRuns (spelledOut text) = [] := by
  rw [slugOf_eq_join]
  constructor
  · intro hempty
    refine Decidable.byContradiction ?_
    intro hruns
    obtain ⟨run, hrun⟩ := List.exists_mem_of_ne_nil _ hruns
    obtain ⟨c, hc⟩ := List.exists_mem_of_ne_nil run (ne_nil_of_mem_alphanumericRuns hrun)
    have hmem := Text.mem_join_of_mem "-" (List.mem_map_of_mem hrun)
      (List.mem_map_of_mem (f := CodePoint.lowerAscii) hc)
    rw [hempty] at hmem
    cases hmem
  · intro hruns
    rw [hruns]
    rfl

/-- An ampersand is spelled out with letters; other letters and digits are left alone. -/
theorem exists_mem_spelledOut_iff :
    (∃ c ∈ spelledOut text, c.isAsciiAlphanumeric = true) ↔
      ∃ c ∈ withoutMarks text, c.isAsciiAlphanumeric = true ∨ c = .scalar '&' := by
  constructor
  · rintro ⟨c, hc, halphanumeric⟩
    rcases Text.mem_replace_iff.1 hc with ⟨hmem, -⟩ | ⟨hampersand, -⟩
    · exact ⟨c, hmem, Or.inl halphanumeric⟩
    · exact ⟨.scalar '&', hampersand, Or.inr rfl⟩
  · rintro ⟨c, hc, halphanumeric | rfl⟩
    · refine ⟨c, Text.mem_replace_iff.2 (Or.inl ⟨hc, ?_⟩), halphanumeric⟩
      rintro rfl
      exact absurd halphanumeric (by decide)
    · exact ⟨.scalar 'a', Text.mem_replace_iff.2 (Or.inr ⟨hc, by decide⟩), by decide⟩

/-- **A slug is empty** if and only if no ASCII letter or digit and no ampersand is left of the text
without its marks. -/
theorem slugOf_ne_nil_iff :
    slugOf text ≠ [] ↔
      ∃ c ∈ withoutMarks text, c.isAsciiAlphanumeric = true ∨ c = .scalar '&' := by
  rw [← exists_mem_spelledOut_iff, ← alphanumericRuns_ne_nil_iff, ne_eq, slugOf_eq_nil_iff]

/-- What stands in a slug is a hyphen, a small ASCII letter or a digit. -/
theorem mem_slugOf (h : c ∈ slugOf text) : c = .scalar '-' ∨ c.isSmallAlphanumeric = true := by
  rw [slugOf_eq_join] at h
  rcases Text.mem_of_mem_join h with hglue | ⟨lowered, hlowered, hc⟩
  · exact Or.inl (List.mem_singleton.1 hglue)
  · obtain ⟨run, hrun, rfl⟩ := List.mem_map.1 hlowered
    obtain ⟨d, hd, rfl⟩ := List.mem_map.1 hc
    exact Or.inr (CodePoint.isSmallAlphanumeric_lowerAscii (isAsciiAlphanumeric_of_mem_run hrun hd))

theorem not_mem_slugOf (hhyphen : c ≠ .scalar '-') (hsmall : c.isSmallAlphanumeric = false) :
    c ∉ slugOf text := by
  intro h
  rcases mem_slugOf h with hc | hc
  · exact hhyphen hc
  · rw [hsmall] at hc
    cases hc

theorem dot_not_mem_slugOf (text : Text) : .scalar '.' ∉ slugOf text :=
  not_mem_slugOf (by decide) (by decide)

theorem slugOf_ne_doubleDot (text : Text) : slugOf text ≠ ".." := by
  intro hdots
  apply dot_not_mem_slugOf text
  rw [hdots]
  decide

/-- A slug counts in a path unless it is empty. -/
theorem isName_slugOf_iff : Path.isName (slugOf text) = true ↔ slugOf text ≠ [] := by
  have hdot : slugOf text ≠ "." := by
    intro hdot
    apply dot_not_mem_slugOf text
    rw [hdot]
    decide
  simp [Path.isName, hdot]

end Stencil
