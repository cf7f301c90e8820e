import Mathlib.Data.List.TakeWhile
import Stencil.Text.Basic

/-!
# Cutting a text

Where a text is cut at the first code point that fails a test, the part in front of the cut is all
that passes, and the part behind it starts with a code point that fails or is empty. This module
holds both directions, and the case where the test is to differ from one given code point.
-/

set_option autoImplicit false

namespace Stencil

namespace Text

theorem takeWhile_append_of_stop {p : CodePoint → Bool} {front back : Text}
    (hfront : ∀ c ∈ front, p c) (hback : ∀ c ∈ back.head?, p c = false) :
    (front ++ back).takeWhile p = front := by
  rw [List.takeWhile_append_of_pos hfront]
  cases back with
  | nil => rw [List.takeWhile_nil, List.append_nil]
  | cons c rest => rw [List.takeWhile_cons, hback c rfl, if_neg Bool.false_ne_true, List.append_nil]

theorem dropWhile_append_of_stop {p : CodePoint → Bool} {front back : Text}
    (hfront : ∀ c ∈ front, p c) (hback : ∀ c ∈ back.head?, p c = false) :
    (front ++ back).dropWhile p = back := by
  rw [List.dropWhile_append_of_pos hfront]
  cases back with
  | nil => rfl
  | cons c rest => rw [List.dropWhile_cons, hback c rfl, if_neg Bool.false_ne_true]

theorem not_of_mem_head?_dropWhile {p : CodePoint → Bool} {text : Text} :
    ∀ c ∈ (text.dropWhile p).head?, p c = false := by
  intro c hc
  have hnot := List.head?_dropWhile_not p text
  rw [Option.mem_def.1 hc] at hnot
  exact hnot

theorem takeWhile_append_of_stop_behind {p : CodePoint → Bool} {front back : Text}
    (hback : ∀ c ∈ back.head?, p c = false) :
    (front ++ back).takeWhile p = front.takeWhile p := by
  have hnone : back.takeWhile p = [] := @takeWhile_append_of_stop p [] back (by simp) hback
  rw [List.takeWhile_append]
  split
  · next hlength =>
    rw [hnone, List.append_nil]
    exact ((List.takeWhile_prefix p).eq_of_length hlength).symm
  · rfl

/-! ## Cutting in front of a given code point -/

theorem not_mem_takeWhile_ne (stop : CodePoint) (text : Text) :
    stop ∉ text.takeWhile (· ≠ stop) := by
  intro hmem
  have hne := List.mem_takeWhile_imp hmem
  exact of_decide_eq_true hne rfl

/-- A text without the code point is all dropped on the way to it. -/
theorem dropWhile_ne_eq_nil_iff {stop : CodePoint} {text : Text} :
    text.dropWhile (· ≠ stop) = [] ↔ stop ∉ text := by
  rw [List.dropWhile_eq_nil_iff]
  constructor
  · intro h hmem
    exact of_decide_eq_true (h stop hmem) rfl
  · intro h c hc
    exact decide_eq_true fun hsame => h (hsame ▸ hc)

theorem eq_of_dropWhile_ne {stop c : CodePoint} {text rest : Text}
    (h : text.dropWhile (· ≠ stop) = c :: rest) :
    c = stop ∧ text = text.takeWhile (· ≠ stop) ++ stop :: rest := by
  have hhead : decide (c ≠ stop) = false :=
    not_of_mem_head?_dropWhile (p := (· ≠ stop)) c (by rw [h]; rfl)
  have hc : c = stop := by simpa using hhead
  subst hc
  refine ⟨rfl, ?_⟩
  rw [← h, List.takeWhile_append_dropWhile]

theorem takeWhile_ne_append {stop : CodePoint} {inside rest : Text} (h : stop ∉ inside) :
    (inside ++ stop :: rest).takeWhile (· ≠ stop) = inside := by
  refine takeWhile_append_of_stop ?_ ?_
  · exact fun c hc => decide_eq_true fun hsame => h (hsame ▸ hc)
  · rintro c ⟨⟩
    simp

theorem dropWhile_ne_append {stop : CodePoint} {inside rest : Text} (h : stop ∉ inside) :
    (inside ++ stop :: rest).dropWhile (· ≠ stop) = stop :: rest := by
  refine dropWhile_append_of_stop ?_ ?_
  · exact fun c hc => decide_eq_true fun hsame => h (hsame ▸ hc)
  · rintro c ⟨⟩
    simp

/-! ## Cutting off an ending -/

theorem startsWith_iff {text pattern : Text} : text.startsWith pattern = true ↔ pattern <+: text :=
  List.isPrefixOf_iff_prefix

theorem endsWith_iff {text ending : Text} : text.endsWith ending = true ↔ ending <:+ text :=
  List.isSuffixOf_iff_suffix

theorem withoutEnding_of_not {text ending : Text} (h : ¬ ending <:+ text) :
    withoutEnding text ending = text :=
  if_neg fun hends => h (endsWith_iff.1 hends)

theorem withoutEnding_append (text ending : Text) :
    withoutEnding (text ++ ending) ending = text := by
  have hends : (text ++ ending).endsWith ending = true :=
    endsWith_iff.2 (List.suffix_append text ending)
  have hlength : (text ++ ending).length - ending.length = text.length := by
    rw [List.length_append, Nat.add_sub_cancel]
  rw [withoutEnding, if_pos hends, hlength, List.take_left]

/-- An ending that fits into the text is looked for in the text alone, whatever stands before it. -/
theorem withoutEnding_append_of_length_le {text ending : Text} (h : ending.length ≤ text.length)
    (front : Text) : withoutEnding (front ++ text) ending = front ++ withoutEnding text ending := by
  by_cases hends : ending <:+ text
  · obtain ⟨stem, rfl⟩ := hends
    rw [← List.append_assoc, withoutEnding_append, withoutEnding_append]
  · have hnot : ¬ ending <:+ front ++ text := fun hlonger =>
      hends (List.suffix_of_suffix_length_le hlonger (List.suffix_append front text) h)
    rw [withoutEnding_of_not hends, withoutEnding_of_not hnot]

theorem withoutEnding_prefix (text ending : Text) : withoutEnding text ending <+: text := by
  unfold withoutEnding
  split
  · exact List.take_prefix _ text
  · exact List.prefix_refl text

/-- Where nothing is left, there was nothing but the ending. -/
theorem eq_of_withoutEnding_eq_nil {text ending : Text} (h : withoutEnding text ending = []) :
    text = [] ∨ text = ending := by
  by_cases hends : ending <:+ text
  · obtain ⟨front, rfl⟩ := hends
    rw [withoutEnding_append] at h
    exact Or.inr (by rw [h, List.nil_append])
  · rw [withoutEnding_of_not hends] at h
    exact Or.inl h

end Text

end Stencil
