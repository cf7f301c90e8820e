import Stencil.Proofs.Text.Lower

/-!
# Sorted sets of texts

The order by code point is a strict total order, so there is one way to sort the distinct texts of
a list: `Text.sortedSet` has the same texts as the list (`Text.mem_sortedSet`), each before all that
follow it (`Text.sorted_sortedSet`), and no other list has both (`Text.sortedSet_eq`).

* `Text.Sorted`.
-/

set_option autoImplicit false

namespace Stencil

namespace Text

variable {text other first second third : Text} {texts : List Text}

/-! ## The order -/

theorem before_cons_cons (a b : CodePoint) (first second : Text) :
    before (a :: first) (b :: second) = if a = b then before first second else a.value < b.value :=
  rfl

theorem before_irrefl (text : Text) : text.before text = false := by
  induction text with
  | nil => rfl
  | cons c rest ih => rw [before_cons_cons, if_pos rfl, ih]

theorem before_trans (hfirst : first.before second = true) (hsecond : second.before third = true) :
    first.before third = true := by
  induction second generalizing first third with
  | nil => cases first <;> cases hfirst
  | cons b second ih =>
    cases third with
    | nil => cases hsecond
    | cons c third =>
      cases first with
      | nil => rfl
      | cons a first =>
        rw [before_cons_cons] at hfirst hsecond ⊢
        by_cases hab : a = b
        · subst hab
          rw [if_pos rfl] at hfirst
          by_cases hac : a = c
          · rw [if_pos hac] at hsecond ⊢
            exact ih hfirst hsecond
          · rwa [if_neg hac] at hsecond ⊢
        · rw [if_neg hab, decide_eq_true_eq] at hfirst
          by_cases hbc : b = c
          · subst hbc
            rwa [if_neg hab, decide_eq_true_eq]
          · rw [if_neg hbc, decide_eq_true_eq] at hsecond
            have hac : a ≠ c := by
              rintro rfl
              omega
            rw [if_neg hac, decide_eq_true_eq]
            omega

/-- Of two different texts, one comes before the other. -/
theorem before_total (hne : first ≠ second) :
    first.before second = true ∨ second.before first = true := by
  -- The first code points that differ decide, unless one text ends before.
  induction first generalizing second with
  | nil =>
    cases second with
    | nil => exact absurd rfl hne
    | cons b second => exact Or.inl rfl
  | cons a first ih =>
    cases second with
    | nil => exact Or.inr rfl
    | cons b second =>
      rw [before_cons_cons, before_cons_cons]
      by_cases hab : a = b
      · subst hab
        rw [if_pos rfl, if_pos rfl]
        exact ih fun hsame => hne (congrArg (List.cons a) hsame)
      · have hvalue : a.value ≠ b.value := fun hsame => hab (CodePoint.eq_of_value_eq hsame)
        rw [if_neg hab, if_neg (Ne.symm hab), decide_eq_true_eq, decide_eq_true_eq]
        omega

/-- Whether each text of a list comes before all that follow it. -/
def Sorted (texts : List Text) : Prop :=
  texts.Pairwise fun first second => first.before second = true

/-- No text stands twice in a sorted list. -/
theorem Sorted.nodup (h : Sorted texts) : texts.Nodup := by
  refine h.imp ?_
  rintro first second hbefore rfl
  rw [before_irrefl] at hbefore
  cases hbefore

/-- Two sorted lists with the same texts are one. -/
theorem Sorted.eq_of_mem_iff {sorted : List Text} (hsorted : Sorted sorted) (h : Sorted texts)
    (hsame : ∀ text, text ∈ sorted ↔ text ∈ texts) : sorted = texts := by
  have hperm : sorted.Perm texts := (List.perm_ext_iff_of_nodup hsorted.nodup h.nodup).2 hsame
  refine hperm.eq_of_pairwise ?_ hsorted h
  intro first second _ _ hbefore hafter
  -- Neither comes before the other, as it would come before itself.
  have hself := before_trans hbefore hafter
  rw [before_irrefl] at hself
  cases hself

/-! ## Insertion -/

/-- An insertion adds the text, if it is not there already. -/
theorem mem_insertSorted : other ∈ insertSorted text texts ↔ other = text ∨ other ∈ texts := by
  induction texts with
  | nil => rw [insertSorted, List.mem_singleton, or_iff_left List.not_mem_nil]
  | cons head rest ih =>
    rw [insertSorted]
    split
    · next hsame =>
      subst hsame
      rw [List.mem_cons, or_self_left]
    · split
      · rw [List.mem_cons]
      · rw [List.mem_cons, ih, List.mem_cons, or_left_comm]

theorem sorted_insertSorted (text : Text) (h : Sorted texts) :
    Sorted (insertSorted text texts) := by
  induction texts with
  | nil => exact List.pairwise_singleton _ text
  | cons head rest ih =>
    obtain ⟨hhead, hrest⟩ := List.pairwise_cons.1 h
    rw [insertSorted]
    split
    · exact h
    · next hne =>
      split
      · next hbefore =>
        refine List.pairwise_cons.2 ⟨?_, h⟩
        intro later hlater
        rcases List.mem_cons.1 hlater with rfl | hlater
        · exact hbefore
        · exact before_trans hbefore (hhead later hlater)
      · next hafter =>
        refine List.pairwise_cons.2 ⟨?_, ih hrest⟩
        intro later hlater
        rcases mem_insertSorted.1 hlater with rfl | hlater
        · exact (before_total hne).resolve_left hafter
        · exact hhead later hlater

/-! ## Sorting -/

/-- Sorting keeps the texts and adds none. -/
theorem mem_sortedSet : text ∈ sortedSet texts ↔ text ∈ texts := by
  induction texts with
  | nil => rfl
  | cons head rest ih =>
    rw [sortedSet, List.foldr_cons, mem_insertSorted, ← sortedSet, ih, List.mem_cons]

/-- Each text of a sorted set comes before all that follow it. -/
theorem sorted_sortedSet (texts : List Text) : Sorted (sortedSet texts) := by
  induction texts with
  | nil => exact List.Pairwise.nil
  | cons head rest ih => exact sorted_insertSorted head ih

/-- **Sorting.** A sorted list is what every list with the same texts is sorted to. -/
theorem sortedSet_eq {listed : List Text} (h : Sorted texts)
    (hsame : ∀ text, text ∈ listed ↔ text ∈ texts) : sortedSet listed = texts :=
  (sorted_sortedSet listed).eq_of_mem_iff h fun text => mem_sortedSet.trans (hsame text)

end Text

end Stencil
