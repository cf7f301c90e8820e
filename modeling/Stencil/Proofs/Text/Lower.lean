import Stencil.Text.Case
import Stencil.Text.Blank

/-!
# Lower case is stable

Lower case has no capitals left, so lowering a text again changes nothing (`Text.lower_lower`). And
it brings in nothing but letters and marks: a blank, or an ASCII code point that is no small letter,
stands in the lower-case text only where it stood in the text (`Text.mem_of_mem_lower`,
`Text.prefix_of_prefix_lower`). Both come down to where the runs of the case table lead
(`lowerRuns_avoid`, `lowerRuns_avoid_steady`).
-/

set_option autoImplicit false

namespace Stencil

open CaseTable

/-! ## Where the runs lead -/

namespace CaseTable

/-- Whether no image under `run` is among the numbers that `other` has. Where the images lie between
those numbers, both go in steps of two and never meet. -/
def CaseRun.avoids (run other : CaseRun) : Bool :=
  Nat.blt (run.image + (run.last - run.first)) other.first || Nat.blt other.last run.image ||
    (other.step == 2 && (run.step == 2 || run.first == run.last) &&
      (run.image + other.first) % 2 == 1)

/-- Numbers that are no image of another: those below the ASCII small letters and the first ones
behind them, and the blanks further on. -/
def steadyRanges : CodeRanges :=
  [(0, 0x60), (0x7B, 0xDE), (0x1680, 0x1680), (0x2000, 0x206F), (0x3000, 0x3000)]

/-- The one code point with a longer lower-case form, as a run. -/
def dottedRun : CaseRun := ⟨0x130, 0x130, 1, 0⟩

theorem CaseRun.apply?_eq_some_iff {run : CaseRun} {n image : Nat} :
    run.apply? n = some image ↔
      (run.first ≤ n ∧ n ≤ run.last ∧ (n - run.first) % run.step = 0) ∧
        run.image + (n - run.first) = image := by
  unfold CaseRun.apply?
  split
  · next h => simp [h]
  · next h => simp [h]

theorem CaseRun.apply?_eq_none_of_avoids {run other : CaseRun} {n image : Nat}
    (havoids : run.avoids other = true) (himage : run.apply? n = some image) :
    other.apply? image = none := by
  obtain ⟨⟨hfirst, hlast, hstep⟩, rfl⟩ := CaseRun.apply?_eq_some_iff.1 himage
  unfold CaseRun.apply?
  rw [if_neg]
  rintro ⟨hlow, hhigh, hother⟩
  simp only [CaseRun.avoids, Bool.or_eq_true, Bool.and_eq_true, Nat.blt_eq,
    beq_iff_eq] at havoids
  rcases havoids with (hbelow | habove) | ⟨⟨htwo, hrun⟩, hodd⟩
  · omega
  · omega
  · rw [htwo] at hother
    rcases hrun with hrun | hrun
    · rw [hrun] at hstep
      omega
    · omega

theorem lowerRuns_avoid :
    (lowerRuns.all fun run => (dottedRun :: lowerRuns).all run.avoids) = true := by
  decide +kernel

theorem lowerRuns_avoid_steady :
    ∀ run ∈ lowerRuns, ∀ range ∈ steadyRanges,
      run.avoids ⟨range.1, range.2, 1, 0⟩ = true := by
  decide +kernel

end CaseTable

/-! ## One code point -/

namespace CodePoint

theorem value_of_ofValue? {n : Nat} {c : CodePoint} (h : ofValue? n = some c) : c.value = n := by
  rw [ofValue?] at h
  by_cases hvalid : n.isValidChar
  · rw [dif_pos hvalid] at h
    cases h
    rfl
  · rw [dif_neg hvalid] at h
    split at h
    · next hrange =>
      cases h
      show 0xD800 + (n - 0xD800) % 2048 = n
      omega
    · cases h

/-- A code point is the one with its number. -/
theorem ofValue?_value (c : CodePoint) : ofValue? c.value = some c := by
  cases c with
  | scalar c =>
    have hvalid : c.toNat.isValidChar := c.valid
    rw [value, ofValue?, dif_pos hvalid]
    rfl
  | half offset =>
    have hlt := offset.isLt
    have hinvalid : ¬ (0xD800 + offset.val).isValidChar := by
      rintro (hlow | hhigh)
      · omega
      · omega
    rw [value, ofValue?, dif_neg hinvalid, if_pos (by omega), Nat.add_sub_cancel_left]
    simp [Fin.ofNat, Nat.mod_eq_of_lt hlt]

/-- A code point that lower case leaves alone. -/
def Lowered (c : CodePoint) : Prop :=
  c ≠ 'Σ' ∧ c.lowerAlone = [c]

/-- A code point that is in no range of other images: a blank, or an ASCII code point that is no
small letter. -/
def Steady (c : CodePoint) : Prop :=
  ∃ range ∈ steadyRanges, range.1 ≤ c.value ∧ c.value ≤ range.2

instance (c : CodePoint) : Decidable c.Steady :=
  inferInstanceAs (Decidable (∃ range ∈ steadyRanges, range.1 ≤ c.value ∧ c.value ≤ range.2))

theorem steady_of_isBlank {c : CodePoint} (h : c.isBlank = true) : c.Steady := by
  simp only [isBlank, Bool.or_eq_true, Bool.and_eq_true, decide_eq_true_eq, beq_iff_eq] at h
  simp only [Steady, steadyRanges, List.mem_cons, List.not_mem_nil, or_false, exists_eq_or_imp,
    exists_eq_left]
  omega

/-- The lower-case form of a code point is the code point itself or its image under a run. -/
theorem mapCase_lowerRuns (c : CodePoint) :
    c.mapCase lowerRuns = c ∨
      ∃ run ∈ lowerRuns, run.apply? c.value = some (c.mapCase lowerRuns).value := by
  unfold mapCase
  split
  · next image hfind =>
    obtain ⟨run, hrun, himage⟩ := List.exists_of_findSome?_eq_some hfind
    cases hvalue : ofValue? image with
    | none => exact Or.inl rfl
    | some d =>
      refine Or.inr ⟨run, hrun, ?_⟩
      rw [Option.getD_some, value_of_ofValue? hvalue, himage]
  · exact Or.inl rfl

theorem mapCase_eq_self {c : CodePoint} (h : ∀ run ∈ lowerRuns, run.apply? c.value = none) :
    c.mapCase lowerRuns = c := by
  unfold mapCase
  rw [List.findSome?_eq_none_iff.2 h]

theorem avoids_of_mem_lowerRuns {run other : CaseRun} (hrun : run ∈ lowerRuns)
    (hother : other ∈ dottedRun :: lowerRuns) : run.avoids other = true := by
  have hall := List.all_eq_true.1 lowerRuns_avoid run hrun
  exact List.all_eq_true.1 hall other hother

/-- The image of a code point under a run is lower case. -/
theorem lowered_of_apply? {run : CaseRun} {n : Nat} {c : CodePoint} (hrun : run ∈ lowerRuns)
    (himage : run.apply? n = some c.value) : c.Lowered := by
  have hnone : ∀ other ∈ dottedRun :: lowerRuns, other.apply? c.value = none := fun other hother =>
    CaseRun.apply?_eq_none_of_avoids (avoids_of_mem_lowerRuns hrun hother) himage
  have hself := mapCase_eq_self fun other hother => hnone other (List.mem_cons_of_mem _ hother)
  constructor
  · rintro rfl
    exact absurd hself (by decide)
  · have hdotted : c.value ≠ 0x130 := by
      intro hvalue
      have hdot := hnone dottedRun List.mem_cons_self
      rw [hvalue] at hdot
      exact absurd hdot (by decide)
    rw [lowerAlone, if_neg hdotted, hself]

theorem lowered_of_mem_lowerAlone {c d : CodePoint} (hc : c ≠ 'Σ') (hd : d ∈ c.lowerAlone) :
    d.Lowered := by
  unfold lowerAlone at hd
  split at hd
  · simp only [List.mem_cons, List.not_mem_nil, or_false] at hd
    rcases hd with rfl | rfl
    · exact ⟨by decide, by decide⟩
    · exact ⟨by decide, by decide⟩
  · next hdotted =>
    rw [List.mem_singleton] at hd
    subst hd
    rcases mapCase_lowerRuns c with hself | ⟨run, hrun, himage⟩
    · rw [hself]
      exact ⟨hc, by rw [lowerAlone, if_neg hdotted, hself]⟩
    · exact lowered_of_apply? hrun himage

/-- Two code points with the same number are one. -/
theorem eq_of_value_eq {c d : CodePoint} (h : c.value = d.value) : c = d := by
  have hsome : some c = some d := by
    rw [← ofValue?_value c, ← ofValue?_value d, h]
  exact Option.some.inj hsome

theorem length_lowerAlone (c : CodePoint) :
    c.lowerAlone.length = 1 + [c].count (.scalar '\u0130') := by
  by_cases hdotted : c = .scalar '\u0130'
  · subst hdotted
    rfl
  · have hvalue : c.value ≠ 0x130 := fun h => hdotted (eq_of_value_eq h)
    rw [lowerAlone, if_neg hvalue, List.count_singleton, if_neg (by simpa using hdotted)]
    rfl

/-- Lower case brings in no steady code point: where one stands, it stood there before. -/
theorem eq_of_mem_lowerAlone {c d : CodePoint} (hsteady : d.Steady) (hd : d ∈ c.lowerAlone) :
    c.lowerAlone = [c] ∧ d = c := by
  unfold lowerAlone at hd ⊢
  split at hd
  · simp only [List.mem_cons, List.not_mem_nil, or_false] at hd
    rcases hd with rfl | rfl
    · exact absurd hsteady (by decide)
    · exact absurd hsteady (by decide)
  · next hdotted =>
    rw [List.mem_singleton] at hd
    rw [if_neg hdotted]
    rcases mapCase_lowerRuns c with hself | ⟨run, hrun, himage⟩
    · rw [hself] at hd ⊢
      exact ⟨rfl, hd⟩
    · obtain ⟨range, hrange, hlow, hhigh⟩ := hsteady
      have hnone := CaseRun.apply?_eq_none_of_avoids
        (lowerRuns_avoid_steady run hrun range hrange) himage
      rw [← hd] at hnone
      simp [hlow, hhigh, Nat.mod_one, CaseRun.apply?] at hnone

end CodePoint

/-! ## Whole texts -/

namespace Text

theorem lowered_of_mem_lowerAfter {behind text : Text} {c : CodePoint}
    (hc : c ∈ lowerAfter behind text) : c.Lowered := by
  induction text generalizing behind with
  | nil => cases hc
  | cons d rest ih =>
    rw [lowerAfter, List.mem_append] at hc
    rcases hc with hc | hc
    · split at hc
      · split at hc
        · rw [List.mem_singleton] at hc
          subst hc
          exact ⟨by decide, by decide⟩
        · rw [List.mem_singleton] at hc
          subst hc
          exact ⟨by decide, by decide⟩
      · next hsigma => exact CodePoint.lowered_of_mem_lowerAlone hsigma hc
    · exact ih hc

theorem lowerAfter_of_lowered {behind text : Text} (h : ∀ c ∈ text, c.Lowered) :
    lowerAfter behind text = text := by
  induction text generalizing behind with
  | nil => rfl
  | cons c rest ih =>
    obtain ⟨hsigma, halone⟩ := h c List.mem_cons_self
    rw [lowerAfter, if_neg hsigma, halone,
      ih fun d hd => h d (List.mem_cons_of_mem c hd), List.singleton_append]

/-- Lower case once more changes nothing. -/
theorem lower_lower (text : Text) : lower (lower text) = lower text :=
  lowerAfter_of_lowered fun _ hc => lowered_of_mem_lowerAfter hc

theorem mem_of_mem_lowerAfter {behind text : Text} {c : CodePoint} (hsteady : c.Steady)
    (hc : c ∈ lowerAfter behind text) : c ∈ text := by
  induction text generalizing behind with
  | nil => cases hc
  | cons d rest ih =>
    rw [lowerAfter, List.mem_append] at hc
    rcases hc with hc | hc
    · split at hc
      · split at hc
        · rw [List.mem_singleton] at hc
          subst hc
          exact absurd hsteady (by decide)
        · rw [List.mem_singleton] at hc
          subst hc
          exact absurd hsteady (by decide)
      · rw [(CodePoint.eq_of_mem_lowerAlone hsteady hc).2]
        exact List.mem_cons_self
    · exact List.mem_cons_of_mem d (ih hc)

/-- Lower case brings in no steady code point. -/
theorem mem_of_mem_lower {text : Text} {c : CodePoint} (hsteady : c.Steady)
    (hc : c ∈ lower text) : c ∈ text :=
  mem_of_mem_lowerAfter hsteady hc

theorem ne_nil_of_lowerAlone (c : CodePoint) : c.lowerAlone ≠ [] := by
  unfold CodePoint.lowerAlone
  split <;> exact List.cons_ne_nil _ _

theorem prefix_of_prefix_lowerAfter {pattern behind text : Text}
    (hsteady : ∀ c ∈ pattern, c.Steady) (h : pattern <+: lowerAfter behind text) :
    pattern <+: text := by
  induction pattern generalizing behind text with
  | nil => exact List.nil_prefix
  | cons c pattern ih =>
    cases text with
    | nil =>
      rw [lowerAfter, List.prefix_nil] at h
      cases h
    | cons d rest =>
      have hc := hsteady c List.mem_cons_self
      rw [lowerAfter] at h
      split at h
      · -- A sigma never becomes steady.
        exfalso
        split at h
        · rw [List.singleton_append, List.cons_prefix_cons] at h
          rw [h.1] at hc
          exact absurd hc (by decide)
        · rw [List.singleton_append, List.cons_prefix_cons] at h
          rw [h.1] at hc
          exact absurd hc (by decide)
      · have hmem : c ∈ d.lowerAlone := by
          cases himage : d.lowerAlone with
          | nil => exact absurd himage (ne_nil_of_lowerAlone d)
          | cons e tail =>
            rw [himage, List.cons_append, List.cons_prefix_cons] at h
            rw [h.1]
            exact List.mem_cons_self
        obtain ⟨himage, rfl⟩ := CodePoint.eq_of_mem_lowerAlone hc hmem
        rw [himage, List.singleton_append, List.cons_prefix_cons] at h
        rw [List.cons_prefix_cons]
        exact ⟨rfl, ih (fun e he => hsteady e (List.mem_cons_of_mem c he)) h.2⟩

/-- A text of steady code points starts the lower-case text only where it starts the text. -/
theorem prefix_of_prefix_lower {pattern text : Text} (hsteady : ∀ c ∈ pattern, c.Steady)
    (h : pattern <+: lower text) : pattern <+: text :=
  prefix_of_prefix_lowerAfter hsteady h

/-- A dotted capital I is the one code point with a longer lower-case form. -/
theorem length_lowerAfter (behind text : Text) :
    (lowerAfter behind text).length = text.length + text.count (.scalar '\u0130') := by
  induction text generalizing behind with
  | nil => rfl
  | cons c rest ih =>
    have hcount : (c :: rest).count (.scalar '\u0130') =
        [c].count (.scalar '\u0130') + rest.count (.scalar '\u0130') := by
      rw [← List.count_append, List.singleton_append]
    have hone := CodePoint.length_lowerAlone c
    rw [lowerAfter, List.length_append, ih, List.length_cons, hcount]
    split
    · next hsigma =>
      -- Either small sigma is one code point.
      subst hsigma
      have hnone : ([.scalar 'Σ'] : Text).count (.scalar '\u0130') = 0 := by
        decide
      rw [hnone]
      split
      · rw [List.length_singleton]
        omega
      · rw [List.length_singleton]
        omega
    · omega

theorem length_lower (text : Text) :
    (lower text).length = text.length + text.count (.scalar '\u0130') :=
  length_lowerAfter [] text

theorem lower_eq_nil_iff {text : Text} : lower text = [] ↔ text = [] := by
  constructor
  · intro h
    cases text with
    | nil => rfl
    | cons c rest =>
      rw [lower, lowerAfter, List.append_eq_nil_iff] at h
      have himage := h.1
      split at himage
      · split at himage <;> cases himage
      · exact absurd himage (ne_nil_of_lowerAlone c)
  · rintro rfl
    rfl

end Text

end Stencil
