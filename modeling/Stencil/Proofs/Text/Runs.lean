import Stencil.Text.Blank

/-!
# Maximal runs

A text is cut into runs by a property of its code points: a gap, a run of code points that have the
property and is not empty, a gap, and so on, with something between any two runs.
`Text.MaximalRuns` says so without a word about how the runs are found, and `Text.runsWhere` finds
them: there is one list of maximal runs, and it is this one (`Text.maximalRuns_iff`). The words of a
text are its runs of code points that are not blank (`Text.words_eq_runsWhere`).

Where two texts meet, either a gap lies between them and the runs of both are the runs of the whole
(`Text.runsWhere_append`), or the last run of the one and the first of the other become one
(`Text.runsWhere_append_of_meets`).
-/

set_option autoImplicit false

namespace Stencil

/-- A code point that words are made of: one that is not blank. -/
def CodePoint.isWordPart (c : CodePoint) : Bool :=
  !c.isBlank

namespace Text

variable {p : CodePoint → Bool} {c : CodePoint} {gap run rest text front back : Text}
  {runs others : List Text}

/-- `runs` are the maximal runs of code points with the property `p` in a text, in order. What
follows a run is empty or starts with a code point that does not have the property, so no run can be
made longer. -/
inductive MaximalRuns (p : CodePoint → Bool) : Text → List Text → Prop
  /-- A text in which no code point has the property. -/
  | gap {gap : Text} (hgap : ∀ c ∈ gap, p c = false) : MaximalRuns p gap []
  /-- A gap, the first run behind it, and the others. -/
  | run {gap run rest : Text} {runs : List Text} (hgap : ∀ c ∈ gap, p c = false) (hne : run ≠ [])
      (hrun : ∀ c ∈ run, p c = true) (hstop : ∀ c ∈ rest.head?, p c = false)
      (hrest : MaximalRuns p rest runs) : MaximalRuns p (gap ++ (run ++ rest)) (run :: runs)

/-- Splitting where `p` fails: the run that the text starts with, and the runs after it. -/
def splitWhere (p : CodePoint → Bool) : Text → Text × List Text
  | [] => ([], [])
  | c :: rest =>
    let (run, runs) := splitWhere p rest
    if p c then (c :: run, runs) else ([], if run.isEmpty then runs else run :: runs)

/-- The runs of code points with the property `p`, in order. -/
def runsWhere (p : CodePoint → Bool) (text : Text) : List Text :=
  let (run, runs) := splitWhere p text
  if run.isEmpty then runs else run :: runs

/-! ## How the runs are found -/

theorem runsWhere_cons_of_not (hc : p c = false) :
    runsWhere p (c :: rest) = runsWhere p rest := by
  simp [runsWhere, splitWhere, hc]

theorem runsWhere_gap_append (hgap : ∀ c ∈ gap, p c = false) (rest : Text) :
    runsWhere p (gap ++ rest) = runsWhere p rest := by
  induction gap with
  | nil => rfl
  | cons c gap ih =>
    rw [List.cons_append, runsWhere_cons_of_not (hgap c List.mem_cons_self)]
    exact ih fun d hd => hgap d (List.mem_cons_of_mem c hd)

/-- A run is split off as a whole if nothing that follows makes it longer. -/
theorem splitWhere_run_append (hrun : ∀ c ∈ run, p c = true)
    (hstop : ∀ c ∈ rest.head?, p c = false) :
    splitWhere p (run ++ rest) = (run, runsWhere p rest) := by
  induction run with
  | nil =>
    cases rest with
    | nil => rfl
    | cons c rest =>
      have hc := hstop c rfl
      simp [splitWhere, runsWhere, hc]
  | cons c run ih =>
    have hc := hrun c List.mem_cons_self
    rw [List.cons_append, splitWhere, ih fun d hd => hrun d (List.mem_cons_of_mem c hd)]
    simp [hc]

theorem runsWhere_run_append (hne : run ≠ []) (hrun : ∀ c ∈ run, p c = true)
    (hstop : ∀ c ∈ rest.head?, p c = false) :
    runsWhere p (run ++ rest) = run :: runsWhere p rest := by
  rw [runsWhere, splitWhere_run_append hrun hstop]
  simp [hne]

/-! ## There is one list of maximal runs -/

namespace MaximalRuns

/-- The runs that a text has are the ones that are found. -/
theorem runsWhere_eq (h : MaximalRuns p text runs) : runsWhere p text = runs := by
  induction h with
  | @gap gap hgap =>
    have hnone := runsWhere_gap_append hgap []
    rwa [List.append_nil] at hnone
  | run hgap hne hrun hstop _ ih =>
    rw [runsWhere_gap_append hgap, runsWhere_run_append hne hrun hstop, ih]

theorem cons_of_not (hc : p c = false) (h : MaximalRuns p rest runs) :
    MaximalRuns p (c :: rest) runs := by
  cases h with
  | gap hgap => exact gap (List.forall_mem_cons.2 ⟨hc, hgap⟩)
  | run hgap hne hrun hstop hrest =>
    exact run (List.forall_mem_cons.2 ⟨hc, hgap⟩) hne hrun hstop hrest

/-- A code point with the property starts a run of its own or makes the first run longer. -/
theorem exists_cons (hc : p c = true) (h : MaximalRuns p rest runs) :
    ∃ runs, MaximalRuns p (c :: rest) runs := by
  by_cases hstop : ∀ d ∈ rest.head?, p d = false
  · exact ⟨[c] :: runs, @run p [] [c] rest runs (by simp) (List.cons_ne_nil c [])
      (by simpa using hc) hstop h⟩
  · cases h with
    | gap hgap =>
      exact absurd (fun d hd => hgap d (List.mem_of_mem_head? hd)) hstop
    | @run gap first rest runs hgap hne hrun hend hrest =>
      -- The text goes on with a run, so there is no gap in front of it.
      cases gap with
      | nil =>
        refine ⟨(c :: first) :: runs, ?_⟩
        exact @MaximalRuns.run p [] (c :: first) rest runs (by simp) (List.cons_ne_nil c first)
          (List.forall_mem_cons.2 ⟨hc, hrun⟩) hend hrest
      | cons d gap =>
        refine absurd ?_ hstop
        intro e he
        rw [List.cons_append, List.head?_cons, Option.mem_some_iff] at he
        exact he ▸ hgap d List.mem_cons_self

end MaximalRuns

theorem exists_maximalRuns (p : CodePoint → Bool) (text : Text) :
    ∃ runs, MaximalRuns p text runs := by
  induction text with
  | nil => exact ⟨[], .gap (by simp)⟩
  | cons c rest ih =>
    obtain ⟨runs, hruns⟩ := ih
    cases hc : p c with
    | false => exact ⟨runs, hruns.cons_of_not hc⟩
    | true => exact hruns.exists_cons hc

theorem maximalRuns_runsWhere (p : CodePoint → Bool) (text : Text) :
    MaximalRuns p text (runsWhere p text) := by
  obtain ⟨runs, hruns⟩ := exists_maximalRuns p text
  rwa [hruns.runsWhere_eq]

/-- **Each text has one list of maximal runs**, and `runsWhere` finds it. -/
theorem maximalRuns_iff : MaximalRuns p text runs ↔ runs = runsWhere p text := by
  constructor
  · intro h
    exact h.runsWhere_eq.symm
  · rintro rfl
    exact maximalRuns_runsWhere p text

theorem MaximalRuns.forall_mem (h : MaximalRuns p text runs) :
    ∀ run ∈ runs, run ≠ [] ∧ ∀ c ∈ run, p c = true := by
  induction h with
  | gap => simp
  | run _ hne hrun _ _ ih => exact List.forall_mem_cons.2 ⟨⟨hne, hrun⟩, ih⟩

theorem ne_nil_of_mem_runsWhere (h : run ∈ runsWhere p text) : run ≠ [] :=
  ((maximalRuns_runsWhere p text).forall_mem run h).1

theorem of_mem_of_mem_runsWhere (h : run ∈ runsWhere p text) (hc : c ∈ run) : p c = true :=
  ((maximalRuns_runsWhere p text).forall_mem run h).2 c hc

/-! ## Two texts that meet -/

/-- A text starts within a run. -/
def StartsWhere (p : CodePoint → Bool) (text : Text) : Prop :=
  ∃ c ∈ text.head?, p c = true

/-- A text ends within a run. -/
def EndsWhere (p : CodePoint → Bool) (text : Text) : Prop :=
  ∃ c ∈ text.getLast?, p c = true

/-- Two texts meet within a run: the one ends and the other starts with a code point that has the
property. -/
def MeetsWhere (p : CodePoint → Bool) (front back : Text) : Prop :=
  EndsWhere p front ∧ StartsWhere p back

instance (p : CodePoint → Bool) (text : Text) : Decidable (StartsWhere p text) :=
  inferInstanceAs (Decidable (∃ c ∈ text.head?, p c = true))

instance (p : CodePoint → Bool) (text : Text) : Decidable (EndsWhere p text) :=
  inferInstanceAs (Decidable (∃ c ∈ text.getLast?, p c = true))

instance (p : CodePoint → Bool) (front back : Text) : Decidable (MeetsWhere p front back) :=
  inferInstanceAs (Decidable (EndsWhere p front ∧ StartsWhere p back))

theorem startsWhere_cons : StartsWhere p (c :: rest) ↔ p c = true := by
  simp [StartsWhere]

theorem endsWhere_cons : EndsWhere p (c :: rest) ↔ (rest = [] ∧ p c = true) ∨ EndsWhere p rest := by
  cases rest with
  | nil => simp [EndsWhere]
  | cons d rest => simp [EndsWhere]

theorem startsWhere_append (hne : front ≠ []) :
    StartsWhere p (front ++ back) ↔ StartsWhere p front := by
  cases front with
  | nil => exact absurd rfl hne
  | cons c front => rw [List.cons_append, startsWhere_cons, startsWhere_cons]

/-- Two lists of runs of which the last run of the one and the first of the other are one. -/
def joinEnds (runs others : List Text) : List Text :=
  runs.dropLast ++ (runs.getLast?.getD [] ++ others.headD []) :: others.tail

theorem length_joinEnds (hruns : runs ≠ []) (hothers : others ≠ []) :
    (joinEnds runs others).length + 1 = runs.length + others.length := by
  have hfront := List.length_pos_iff.2 hruns
  have hback := List.length_pos_iff.2 hothers
  simp only [joinEnds, List.length_append, List.length_dropLast, List.length_cons, List.length_tail]
  omega

theorem joinEnds_cons (hruns : runs ≠ []) (run : Text) (others : List Text) :
    joinEnds (run :: runs) others = run :: joinEnds runs others := by
  cases runs with
  | nil => exact absurd rfl hruns
  | cons first runs => rfl

/-- What stands in front of the first text has no part in it. -/
theorem MeetsWhere.append_left (h : MeetsWhere p rest back) (front : Text) :
    MeetsWhere p (front ++ rest) back := by
  obtain ⟨⟨c, hc, hlast⟩, hback⟩ := h
  refine ⟨⟨c, ?_, hlast⟩, hback⟩
  rw [List.getLast?_append, hc]
  rfl

/-- A run that ends the first text is the one that may go on in the second. -/
theorem meetsWhere_of_run (hne : run ≠ []) (hrun : ∀ c ∈ run, p c = true) (hc : c ∈ back.head?)
    (hback : p c = true) : MeetsWhere p run back := by
  refine ⟨⟨run.getLast hne, ?_, hrun _ (List.getLast_mem hne)⟩, c, hc, hback⟩
  exact List.getLast?_eq_some_getLast hne

/-- Where no run goes across, the runs of both texts are the runs of the whole. -/
theorem runsWhere_append (hmeet : ¬ MeetsWhere p front back) :
    runsWhere p (front ++ back) = runsWhere p front ++ runsWhere p back := by
  have hfront := maximalRuns_runsWhere p front
  generalize runsWhere p front = runs at hfront ⊢
  induction hfront with
  | gap hgap => exact runsWhere_gap_append hgap back
  | @run gap run rest runs hgap hne hrun hstop _ ih =>
    have hlater : runsWhere p (rest ++ back) = runs ++ runsWhere p back :=
      ih fun hrest => hmeet ((hrest.append_left run).append_left gap)
    -- The run ends in front of the rest, or at the end of the first text.
    have hnext : ∀ c ∈ (rest ++ back).head?, p c = false := by
      intro c hc
      cases rest with
      | cons d rest => exact hstop c hc
      | nil =>
        rw [Bool.eq_false_iff]
        intro hback
        rw [List.append_nil] at hmeet
        exact hmeet ((meetsWhere_of_run hne hrun hc hback).append_left gap)
    rw [List.append_assoc, List.append_assoc, runsWhere_gap_append hgap,
      runsWhere_run_append hne hrun hnext, hlater, List.cons_append]

theorem runsWhere_ne_nil (hc : c ∈ text) (hp : p c = true) : runsWhere p text ≠ [] := by
  intro hnone
  have hruns := maximalRuns_runsWhere p text
  rw [hnone] at hruns
  cases hruns with
  | gap hgap =>
    rw [hgap c hc] at hp
    cases hp

/-- A text that starts within a run: the run, and what follows it. -/
theorem exists_run_of_head? (hc : c ∈ text.head?) (hp : p c = true) :
    ∃ run rest, text = run ++ rest ∧ run ≠ [] ∧ (∀ d ∈ run, p d = true) ∧
      (∀ d ∈ rest.head?, p d = false) ∧ runsWhere p text = run :: runsWhere p rest := by
  have hruns := maximalRuns_runsWhere p text
  generalize runsWhere p text = runs at hruns ⊢
  cases hruns with
  | gap hgap =>
    rw [hgap c (List.mem_of_mem_head? hc)] at hp
    cases hp
  | @run gap run rest runs hgap hne hrun hstop hrest =>
    cases gap with
    | nil => exact ⟨run, rest, rfl, hne, hrun, hstop, by rw [hrest.runsWhere_eq]⟩
    | cons d gap =>
      rw [List.cons_append, List.head?_cons, Option.mem_some_iff] at hc
      rw [← hc, hgap d List.mem_cons_self] at hp
      cases hp

/-- Where a run goes across, it is the last run of the one text and the first of the other. -/
theorem runsWhere_append_of_meets (hmeet : MeetsWhere p front back) :
    runsWhere p (front ++ back) = joinEnds (runsWhere p front) (runsWhere p back) := by
  obtain ⟨-, c, hc, hp⟩ := id hmeet
  obtain ⟨first, behind, rfl, hfirst, hall, hstop, hback⟩ := exists_run_of_head? hc hp
  rw [hback]
  have hfront := maximalRuns_runsWhere p front
  generalize runsWhere p front = runs at hfront ⊢
  induction hfront with
  | gap hgap =>
    obtain ⟨⟨d, hd, hlast⟩, -⟩ := hmeet
    rw [hgap d (List.mem_of_getLast? hd)] at hlast
    cases hlast
  | @run gap run rest runs hgap hne hrun hend hrest ih =>
    rw [List.append_assoc, List.append_assoc, runsWhere_gap_append hgap]
    cases hcase : rest with
    | nil =>
      -- The run ends the first text and goes on.
      rw [hcase] at hrest
      rw [List.nil_append, ← List.append_assoc, ← hrest.runsWhere_eq]
      exact runsWhere_run_append (List.append_ne_nil_of_left_ne_nil hne first)
        (List.forall_mem_append.2 ⟨hrun, hall⟩) hstop
    | cons d tail =>
      have hrestmeets : MeetsWhere p rest (first ++ behind) := by
        obtain ⟨⟨e, he, hlast⟩, hhead⟩ := hmeet
        refine ⟨⟨e, ?_, hlast⟩, hhead⟩
        rw [List.getLast?_append, List.getLast?_append, hcase] at he
        rw [hcase]
        simpa using he
      have hruns : runs ≠ [] := by
        obtain ⟨⟨e, he, hlast⟩, -⟩ := hrestmeets
        rw [← hrest.runsWhere_eq]
        exact runsWhere_ne_nil (List.mem_of_getLast? he) hlast
      rw [joinEnds_cons hruns, ← ih hrestmeets, ← hcase]
      refine runsWhere_run_append hne hrun ?_
      rw [hcase] at hend ⊢
      exact hend

/-- What comes before the last run of the one text and after the first run of the other is told from
the joined runs. -/
theorem joinEnds_right_inj {first second : List Text} (hfirst : first ≠ [])
    (hsecond : second ≠ []) :
    joinEnds runs first = joinEnds runs second ↔ first = second := by
  constructor
  · intro h
    have hsame := List.append_cancel_left h
    rw [List.cons.injEq] at hsame
    have hhead := List.append_cancel_left hsame.1
    cases first with
    | nil => exact absurd rfl hfirst
    | cons run later =>
      cases second with
      | nil => exact absurd rfl hsecond
      | cons other others =>
        rw [List.headD_cons, List.headD_cons] at hhead
        rw [hhead]
        exact congrArg (List.cons other) hsame.2
  · rintro rfl
    rfl

theorem flatten_runsWhere (p : CodePoint → Bool) (text : Text) :
    (runsWhere p text).flatten = text.filter p := by
  have hruns := maximalRuns_runsWhere p text
  generalize runsWhere p text = runs at hruns
  induction hruns with
  | gap hgap =>
    refine (List.filter_eq_nil_iff.2 ?_).symm
    intro c hc
    simp [hgap c hc]
  | @run gap run rest runs hgap _ hrun _ _ ih =>
    have hnone : gap.filter p = [] := by
      rw [List.filter_eq_nil_iff]
      intro c hc
      simp [hgap c hc]
    rw [List.filter_append, List.filter_append, hnone, List.filter_eq_self.2 hrun, ← ih]
    rfl

/-! ## Squeezing gaps -/

/-- A mark for each gap, with a note whether the code point just before was in the gap. -/
def squeezeAfter (p : CodePoint → Bool) (mark : CodePoint) : Bool → Text → Text
  | _, [] => []
  | afterGap, c :: rest =>
    if p c then c :: squeezeAfter p mark false rest
    else if afterGap then squeezeAfter p mark true rest
    else mark :: squeezeAfter p mark true rest

/-- The text with each gap written as one mark. -/
def squeeze (p : CodePoint → Bool) (mark : CodePoint) (text : Text) : Text :=
  squeezeAfter p mark false text

section Squeeze

variable {mark : CodePoint}

theorem squeezeAfter_run_append (afterGap : Bool) (hne : run ≠ []) (hrun : ∀ c ∈ run, p c = true)
    (mark : CodePoint) (rest : Text) :
    squeezeAfter p mark afterGap (run ++ rest) = run ++ squeeze p mark rest := by
  induction run generalizing afterGap with
  | nil => exact absurd rfl hne
  | cons c run ih =>
    obtain ⟨hc, hlater⟩ := List.forall_mem_cons.1 hrun
    rw [List.cons_append, squeezeAfter, if_pos hc, List.cons_append]
    cases run with
    | nil => rfl
    | cons d run => rw [ih false (List.cons_ne_nil d run) hlater]

theorem squeezeAfter_gap_append (hgap : ∀ c ∈ gap, p c = false) (mark : CodePoint) (rest : Text) :
    squeezeAfter p mark true (gap ++ rest) = squeezeAfter p mark true rest := by
  induction gap with
  | nil => rfl
  | cons c gap ih =>
    obtain ⟨hc, hlater⟩ := List.forall_mem_cons.1 hgap
    rw [List.cons_append, squeezeAfter, if_neg (by simp [hc]), if_pos rfl, ih hlater]

/-- A gap starts with its one mark. -/
theorem squeeze_cons_of_not (hc : p c = false) :
    squeeze p mark (c :: rest) = mark :: squeezeAfter p mark true (c :: rest) := by
  simp [squeeze, squeezeAfter, hc]

theorem squeeze_cons_of_pos (hc : p c = true) :
    squeeze p mark (c :: rest) = squeezeAfter p mark true (c :: rest) := by
  simp [squeeze, squeezeAfter, hc]

theorem exists_squeeze_eq (p : CodePoint → Bool) (mark : CodePoint) (text : Text) :
    ∃ before, (∀ c ∈ before, c = mark) ∧
      squeeze p mark text = before ++ squeezeAfter p mark true text := by
  cases text with
  | nil => exact ⟨[], by simp, rfl⟩
  | cons c rest =>
    cases hc : p c with
    | true => exact ⟨[], by simp, squeeze_cons_of_pos hc⟩
    | false => exact ⟨[mark], by simp, squeeze_cons_of_not hc⟩

theorem squeeze_eq_nil_iff : squeeze p mark text = [] ↔ text = [] := by
  cases text with
  | nil => simp [squeeze, squeezeAfter]
  | cons c rest =>
    rw [squeeze, squeezeAfter]
    split
    · simp
    · simp

theorem startsWhere_squeeze (hmark : p mark = false) :
    StartsWhere p (squeeze p mark text) ↔ StartsWhere p text := by
  cases text with
  | nil => rfl
  | cons c rest =>
    cases hc : p c with
    | true => rw [squeeze, squeezeAfter, if_pos hc, startsWhere_cons, startsWhere_cons]
    | false => rw [squeeze_cons_of_not hc, startsWhere_cons, startsWhere_cons, hmark, hc]

theorem endsWhere_squeezeAfter (hmark : p mark = false) (afterGap : Bool) :
    EndsWhere p (squeezeAfter p mark afterGap text) ↔ EndsWhere p text := by
  induction text generalizing afterGap with
  | nil => rfl
  | cons c rest ih =>
    rw [squeezeAfter, endsWhere_cons]
    cases hc : p c with
    | true =>
      have hnil : squeezeAfter p mark false rest = [] ↔ rest = [] := squeeze_eq_nil_iff
      rw [if_pos rfl, endsWhere_cons, hnil, hc, ih]
    | false =>
      have hnone : ¬ (rest = [] ∧ false = true) := fun h => Bool.false_ne_true h.2
      rw [if_neg Bool.false_ne_true, or_iff_right hnone]
      split
      · exact ih true
      · rw [endsWhere_cons, hmark, ih, or_iff_right]
        exact fun h => Bool.false_ne_true h.2

/-- Squeezing leaves the runs alone. -/
theorem runsWhere_squeeze (hmark : p mark = false) :
    runsWhere p (squeeze p mark text) = runsWhere p text := by
  have hbefore : ∀ text, runsWhere p (squeeze p mark text) =
      runsWhere p (squeezeAfter p mark true text) := by
    intro text
    obtain ⟨before, hmarks, heq⟩ := exists_squeeze_eq p mark text
    rw [heq, runsWhere_gap_append]
    intro c hc
    rw [hmarks c hc, hmark]
  have hruns := maximalRuns_runsWhere p text
  generalize runsWhere p text = runs at hruns ⊢
  rw [hbefore]
  induction hruns with
  | @gap gap hgap =>
    have hnone := squeezeAfter_gap_append hgap mark []
    rw [List.append_nil] at hnone
    rw [hnone]
    rfl
  | @run gap run rest runs hgap hne hrun hstop _ ih =>
    have hend : ∀ c ∈ (squeeze p mark rest).head?, p c = false := by
      intro c hc
      rw [Bool.eq_false_iff]
      intro hp
      obtain ⟨d, hd, hstarts⟩ := (startsWhere_squeeze hmark).1 ⟨c, hc, hp⟩
      rw [hstop d hd] at hstarts
      cases hstarts
    rw [squeezeAfter_gap_append hgap, squeezeAfter_run_append true hne hrun,
      runsWhere_run_append hne hrun hend, hbefore, ih]

end Squeeze

/-! ## Words -/

theorem splitBlank_eq (text : Text) : splitBlank text = splitWhere CodePoint.isWordPart text := by
  induction text with
  | nil => rfl
  | cons c rest ih =>
    rw [splitBlank, splitWhere, ih, CodePoint.isWordPart]
    cases c.isBlank <;> rfl

/-- Words are runs of what is not blank. -/
theorem words_eq_runsWhere (text : Text) : words text = runsWhere CodePoint.isWordPart text := by
  rw [words, runsWhere, splitBlank_eq]

theorem collapseAfter_eq (afterBlank : Bool) (text : Text) :
    collapseAfter afterBlank text = squeezeAfter CodePoint.isWordPart ' ' afterBlank text := by
  induction text generalizing afterBlank with
  | nil => rfl
  | cons c rest ih =>
    rw [collapseAfter, squeezeAfter, ih, ih, CodePoint.isWordPart]
    cases c.isBlank <;> rfl

/-- Collapsing squeezes what lies between words. -/
theorem collapse_eq_squeeze (text : Text) :
    collapse text = squeeze CodePoint.isWordPart ' ' text :=
  collapseAfter_eq false text

end Text

end Stencil
