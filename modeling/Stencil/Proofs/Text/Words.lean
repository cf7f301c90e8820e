import Mathlib.Data.List.Chain
import Stencil.Proofs.Text.Blank
import Stencil.Proofs.Text.Runs

/-!
# Words of several texts

A text may be collapsed and trimmed without a change to its words (`Text.words_collapse`,
`Text.words_trim`). Where several texts are put one behind another, each may be replaced by one with
the same words, but blanks at its ends may be what keeps it apart from its neighbour. The words of
all texts together are left alone if and only if no two neighbours meet within a word that did not
do so before (`Text.words_flatten`).
-/

set_option autoImplicit false

namespace Stencil

namespace Text

variable {text kept front back : Text}

/-! ## One text -/

theorem isWordPart_of_isBlank {c : CodePoint} (h : c.isBlank = true) : c.isWordPart = false := by
  rw [CodePoint.isWordPart, h]
  rfl

theorem isWordPart_of_not_isBlank {c : CodePoint} (h : c.isBlank = false) :
    c.isWordPart = true := by
  rw [CodePoint.isWordPart, h]
  rfl

theorem words_collapse (text : Text) : words (collapse text) = words text := by
  rw [words_eq_runsWhere, words_eq_runsWhere, collapse_eq_squeeze]
  exact runsWhere_squeeze (by decide)

theorem words_trim (text : Text) : words (trim text) = words text := by
  obtain ⟨lead, trail, hsplit, hlead, htrail⟩ := exists_eq_trim text
  have hbefore : ∀ c ∈ lead, c.isWordPart = false := fun c hc => isWordPart_of_isBlank (hlead c hc)
  have hbehind : ∀ c ∈ trail, c.isWordPart = false :=
    fun c hc => isWordPart_of_isBlank (htrail c hc)
  have hmeet : ¬ MeetsWhere CodePoint.isWordPart (trim text) trail := by
    rintro ⟨-, c, hc, hp⟩
    rw [hbehind c (List.mem_of_mem_head? hc)] at hp
    cases hp
  have hnone : runsWhere CodePoint.isWordPart trail = [] := by
    have hgap := runsWhere_gap_append hbehind []
    rwa [List.append_nil] at hgap
  have hall : runsWhere CodePoint.isWordPart text =
      runsWhere CodePoint.isWordPart (trim text) := by
    conv_lhs => rw [hsplit]
    rw [List.append_assoc, runsWhere_gap_append hbefore, runsWhere_append hmeet, hnone,
      List.append_nil]
  rw [words_eq_runsWhere, words_eq_runsWhere, hall]

/-- What is left of a trimmed text starts and ends within words. -/
theorem meets_trim (hne : trim text ≠ []) :
    StartsWhere CodePoint.isWordPart (trim text) ∧ EndsWhere CodePoint.isWordPart (trim text) := by
  obtain ⟨hhead, hlast⟩ := trimmed_trim text
  constructor
  · refine ⟨(trim text).head hne, List.head?_eq_some_head hne, ?_⟩
    exact isWordPart_of_not_isBlank (hhead _ (List.head?_eq_some_head hne))
  · refine ⟨(trim text).getLast hne, List.getLast?_eq_some_getLast hne, ?_⟩
    exact isWordPart_of_not_isBlank (hlast _ (List.getLast?_eq_some_getLast hne))

/-! ## Texts one behind another -/

/-- `kept` may stand for `text`: it has the same words, and wherever the text starts or ends within
a word, so does `kept`. -/
structure StandsFor (text kept : Text) : Prop where
  words_eq : words kept = words text
  ne_nil : text ≠ [] ∧ kept ≠ []
  starts : StartsWhere CodePoint.isWordPart text → StartsWhere CodePoint.isWordPart kept
  ends : EndsWhere CodePoint.isWordPart text → EndsWhere CodePoint.isWordPart kept

theorem standsFor_collapse (hne : text ≠ []) : StandsFor text (collapse text) where
  words_eq := words_collapse text
  ne_nil := ⟨hne, collapse_ne_nil hne⟩
  starts h := by
    rw [collapse_eq_squeeze]
    exact (startsWhere_squeeze (by decide)).2 h
  ends h := by
    rw [collapse_eq_squeeze]
    exact (endsWhere_squeezeAfter (by decide) false).2 h

theorem standsFor_trim_collapse (hblank : trim (collapse text) ≠ []) :
    StandsFor text (trim (collapse text)) where
  words_eq := by rw [words_trim, words_collapse]
  ne_nil := by
    refine ⟨?_, hblank⟩
    rintro rfl
    exact hblank rfl
  starts _ := (meets_trim hblank).1
  ends _ := (meets_trim hblank).2

theorem words_ne_nil_of_endsWhere (h : EndsWhere CodePoint.isWordPart text) : words text ≠ [] := by
  obtain ⟨c, hc, hp⟩ := h
  rw [words_eq_runsWhere]
  exact runsWhere_ne_nil (List.mem_of_getLast? hc) hp

theorem words_ne_nil_of_startsWhere (h : StartsWhere CodePoint.isWordPart text) :
    words text ≠ [] := by
  obtain ⟨c, hc, hp⟩ := h
  rw [words_eq_runsWhere]
  exact runsWhere_ne_nil (List.mem_of_mem_head? hc) hp

theorem words_append (hmeet : ¬ MeetsWhere CodePoint.isWordPart front back) :
    words (front ++ back) = words front ++ words back := by
  simp only [words_eq_runsWhere, runsWhere_append hmeet]

theorem words_append_of_meets (hmeet : MeetsWhere CodePoint.isWordPart front back) :
    words (front ++ back) = joinEnds (words front) (words back) := by
  simp only [words_eq_runsWhere, runsWhere_append_of_meets hmeet]

/-- Where two texts meet within a word, they have one word less than on their own. -/
theorem length_words_append_of_meets (hmeet : MeetsWhere CodePoint.isWordPart front back) :
    (words (front ++ back)).length + 1 = (words front).length + (words back).length := by
  rw [words_append_of_meets hmeet]
  exact length_joinEnds (words_ne_nil_of_endsWhere hmeet.1) (words_ne_nil_of_startsWhere hmeet.2)

section Replacing

variable {α : Type} {source target : α → Text}

theorem meetsWhere_flatten {f : α → Text} {next : α} (hnext : f next ≠ []) (item : α)
    (rest : List α) :
    MeetsWhere CodePoint.isWordPart (f item) (((next :: rest).map f).flatten) ↔
      MeetsWhere CodePoint.isWordPart (f item) (f next) := by
  rw [MeetsWhere, MeetsWhere, List.map_cons, List.flatten_cons, startsWhere_append hnext]

/-- **Replacing texts leaves the words alone** if and only if no two neighbours meet within a word
that did not before. The words never become more: each such meeting makes one out of two. -/
theorem words_flatten (items : List α)
    (h : ∀ item ∈ items, StandsFor (source item) (target item)) :
    (words (items.map target).flatten).length ≤ (words (items.map source).flatten).length ∧
      (words (items.map target).flatten = words (items.map source).flatten ↔
        items.IsChain fun item next =>
          MeetsWhere CodePoint.isWordPart (target item) (target next) →
            MeetsWhere CodePoint.isWordPart (source item) (source next)) := by
  induction items with
  | nil => simp
  | cons item rest ih =>
    obtain ⟨hitem, hlater⟩ := List.forall_mem_cons.1 h
    obtain ⟨hlength, hwords⟩ := ih hlater
    cases rest with
    | nil => simp [hitem.words_eq]
    | cons next rest =>
      have hnext := (hlater next List.mem_cons_self).ne_nil
      have htarget := meetsWhere_flatten hnext.2 item rest
      have hsource := meetsWhere_flatten hnext.1 item rest
      have hcons : ∀ f : α → Text, ((item :: next :: rest).map f).flatten =
          f item ++ ((next :: rest).map f).flatten := fun _ => rfl
      rw [List.isChain_cons_cons, ← hwords, hcons target, hcons source]
      by_cases hmeet : MeetsWhere CodePoint.isWordPart (target item) (target next)
      · have htargetlength := length_words_append_of_meets (htarget.2 hmeet)
        rw [hitem.words_eq] at htargetlength
        by_cases hbefore : MeetsWhere CodePoint.isWordPart (source item) (source next)
        · -- Both join the last word of the one with the first word of the other.
          have hsourcelength := length_words_append_of_meets (hsource.2 hbefore)
          refine ⟨by omega, ?_⟩
          rw [words_append_of_meets (htarget.2 hmeet), words_append_of_meets (hsource.2 hbefore),
            hitem.words_eq, joinEnds_right_inj]
          · simp [hbefore]
          · exact words_ne_nil_of_startsWhere (htarget.2 hmeet).2
          · exact words_ne_nil_of_startsWhere (hsource.2 hbefore).2
        · -- Two words have become one, and later ones cannot make up for it.
          have hsourcelength :
              (words (source item ++ ((next :: rest).map source).flatten)).length =
                (words (source item)).length +
                  (words ((next :: rest).map source).flatten).length := by
            rw [words_append (mt hsource.1 hbefore), List.length_append]
          refine ⟨by omega, iff_of_false ?_ fun hchain => hbefore (hchain.1 hmeet)⟩
          intro hsame
          have hsamelength := congrArg List.length hsame
          omega
      · -- Texts that do not meet now did not meet before.
        have hbefore : ¬ MeetsWhere CodePoint.isWordPart (source item) (source next) := by
          rintro ⟨hends, hstarts⟩
          exact hmeet ⟨hitem.ends hends, (hlater next List.mem_cons_self).starts hstarts⟩
        rw [words_append (mt htarget.1 hmeet), words_append (mt hsource.1 hbefore), hitem.words_eq,
          List.length_append, List.length_append, List.append_cancel_left_eq]
        refine ⟨by omega, ?_⟩
        simp [hmeet]

/-- What is no blank is kept, code point by code point. -/
theorem filter_flatten (items : List α)
    (h : ∀ item ∈ items, StandsFor (source item) (target item)) :
    (items.map target).flatten.filter CodePoint.isWordPart =
      (items.map source).flatten.filter CodePoint.isWordPart := by
  induction items with
  | nil => rfl
  | cons item rest ih =>
    obtain ⟨hitem, hlater⟩ := List.forall_mem_cons.1 h
    have hsame : (target item).filter CodePoint.isWordPart =
        (source item).filter CodePoint.isWordPart := by
      rw [← flatten_runsWhere, ← flatten_runsWhere, ← words_eq_runsWhere, ← words_eq_runsWhere,
        hitem.words_eq]
    simp only [List.map_cons, List.flatten_cons, List.filter_append, hsame, ih hlater]

end Replacing

end Text

end Stencil
