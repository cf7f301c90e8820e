import Stencil.Proofs.Component.Slug
import Stencil.Proofs.Text.Runs
import Stencil.Text.Case

/-!
# The form of a slug

A slug is made in passes over the whole text: it is decomposed, its marks are dropped, each
ampersand is spelled out, what stands between letters and digits becomes one hyphen, the hyphens at
both ends go, and the rest is lower-cased (`Decomposition.slug`). What comes out is the maximal runs
of ASCII letters and digits with single hyphens between them, in lower case, and a slug is its own
slug. The function `slugOf`, which takes the runs at once, is the same one (`slug_law`).

Nothing of the decomposition matters here but that it leaves ASCII alone. So all this is stated for
every `Decomposition`, of which `Decomposition.plain` is the one that `slugOf` goes by.
-/

set_option autoImplicit false

namespace Stencil

open Text (MaximalRuns runsWhere)

variable {p : CodePoint → Bool} {c : CodePoint} {text run rest gap word : Text} {runs : List Text}

/-! ## ASCII -/

namespace CodePoint

/-- Whether a code point is an ASCII one. -/
def isAscii (c : CodePoint) : Bool :=
  c.value < 0x80

theorem isAscii_iff : c.isAscii = true ↔ c.value < 0x80 :=
  decide_eq_true_iff

theorem isAscii_of_isAsciiAlphanumeric (h : c.isAsciiAlphanumeric = true) : c.isAscii = true := by
  rw [isAscii_iff]
  cases c with
  | half offset => cases h
  | scalar c =>
    simp only [isAsciiAlphanumeric, isAsciiLetter, isAsciiDigit, satisfies, Bool.or_eq_true,
      Bool.and_eq_true, decide_eq_true_eq, Char.le_def, UInt32.le_iff_toNat_le] at h
    rw [value, ← Char.toNat_val]
    simp only [Char.reduceVal, UInt32.reduceToNat] at h
    omega

/-- A small letter or a digit is a letter or a digit, and lower case already. -/
theorem isAsciiAlphanumeric_of_isSmallAlphanumeric (h : c.isSmallAlphanumeric = true) :
    c.isAsciiAlphanumeric = true ∧ c.lowerAscii = c := by
  cases c with
  | half offset => cases h
  | scalar c =>
    simp only [isSmallAlphanumeric, satisfies, Bool.or_eq_true, Bool.and_eq_true,
      decide_eq_true_eq, Char.le_def, UInt32.le_iff_toNat_le, Char.reduceVal,
      UInt32.reduceToNat] at h
    constructor
    · simp only [isAsciiAlphanumeric, isAsciiLetter, isAsciiDigit, satisfies, Bool.or_eq_true,
        Bool.and_eq_true, decide_eq_true_eq, Char.le_def, UInt32.le_iff_toNat_le, Char.reduceVal,
        UInt32.reduceToNat]
      omega
    · have hsmall : ¬ (c.val ≥ 'A'.val ∧ c.val ≤ 'Z'.val) := by
        simp only [ge_iff_le, UInt32.le_iff_toNat_le, Char.reduceVal, UInt32.reduceToNat]
        omega
      exact congrArg scalar (dif_neg hsmall)

/-- Of the ASCII code points only the capital letters have another lower-case form. -/
theorem lowerAlone_ascii :
    ∀ n : Fin 128, lowerAlone (.scalar (Char.ofNat n)) = [lowerAscii (.scalar (Char.ofNat n))] := by
  decide +kernel

theorem lowerAlone_of_isAscii (h : c.isAscii = true) : c.lowerAlone = [c.lowerAscii] := by
  rw [isAscii_iff] at h
  cases c with
  | half offset =>
    rw [value] at h
    omega
  | scalar c =>
    have hascii := lowerAlone_ascii ⟨c.toNat, h⟩
    rwa [Char.ofNat_toNat] at hascii

end CodePoint

theorem Text.lowerAfter_of_isAscii {behind : Text} (h : ∀ c ∈ text, c.isAscii = true) :
    Text.lowerAfter behind text = text.map CodePoint.lowerAscii := by
  induction text generalizing behind with
  | nil => rfl
  | cons c rest ih =>
    obtain ⟨hc, hrest⟩ := List.forall_mem_cons.1 h
    have hsigma : c ≠ .scalar 'Σ' := by
      rintro rfl
      exact absurd hc (by decide)
    rw [Text.lowerAfter, if_neg hsigma, CodePoint.lowerAlone_of_isAscii hc, ih hrest, List.map_cons,
      List.singleton_append]

/-- Lower case works on the letters of an ASCII text one by one. -/
theorem Text.lower_of_isAscii (h : ∀ c ∈ text, c.isAscii = true) :
    Text.lower text = text.map CodePoint.lowerAscii :=
  Text.lowerAfter_of_isAscii h

/-! ## The passes -/

/-- A way to decompose texts, and the code points that it counts as marks. It leaves ASCII text
alone, and no ASCII code point is a mark. -/
structure Decomposition where
  /-- The text with its characters taken apart. -/
  decompose : Text → Text
  /-- Whether a code point only combines with another. -/
  isMark : CodePoint → Bool
  /-- ASCII text is decomposed already. -/
  decompose_ascii : ∀ text : Text, (∀ c ∈ text, c.isAscii = true) → decompose text = text
  /-- An ASCII code point is no mark. -/
  isMark_ascii : ∀ c : CodePoint, c.isAscii = true → isMark c = false

/-- The text with each run of code points other than ASCII letters and digits written as one hyphen.
-/
def hyphenate (text : Text) : Text :=
  Text.squeeze CodePoint.isAsciiAlphanumeric '-' text

/-- The text without the hyphens that it starts and ends with. -/
def stripHyphens (text : Text) : Text :=
  ((text.dropWhile (· = .scalar '-')).reverse.dropWhile (· = .scalar '-')).reverse

namespace Decomposition

/-- The text that a slug takes its runs from: decomposed, without marks, each ampersand spelled out.
-/
def spelledOut (D : Decomposition) (text : Text) : Text :=
  Text.replace '&' " and " ((D.decompose text).filter fun c => !D.isMark c)

/-- The slug of a text, pass by pass. -/
def slug (D : Decomposition) (text : Text) : Text :=
  Text.lower (stripHyphens (hyphenate (D.spelledOut text)))

theorem value_le_of_mem_combiningMarks : ∀ range ∈ combiningMarks, 0x80 ≤ range.1 := by
  decide +kernel

/-- The decomposition by the tables of plain spellings and of combining marks. -/
def plain : Decomposition where
  decompose text := text.flatMap CodePoint.spelling
  isMark := CodePoint.isMark
  decompose_ascii text htext := by
    induction text with
    | nil => rfl
    | cons c rest ih =>
      obtain ⟨hc, hrest⟩ := List.forall_mem_cons.1 htext
      rw [List.flatMap_cons, ih hrest, CodePoint.spelling, if_pos (CodePoint.isAscii_iff.1 hc),
        List.singleton_append]
  isMark_ascii c hc := by
    have hvalue := CodePoint.isAscii_iff.1 hc
    rw [CodePoint.isMark, CodePoint.isIn, List.any_eq_false]
    intro range hrange
    have hfirst := value_le_of_mem_combiningMarks range hrange
    simp only [Bool.and_eq_true, decide_eq_true_eq]
    omega

end Decomposition

/-! ## Words and hyphens -/

/-- Words of code points with the property `p`, none of them empty, with single hyphens between
them. -/
inductive Hyphenated (p : CodePoint → Bool) : Text → Prop
  /-- One word. -/
  | word {word : Text} (hne : word ≠ []) (hword : ∀ c ∈ word, p c = true) : Hyphenated p word
  /-- A word in front of others. -/
  | more {word rest : Text} (hne : word ≠ []) (hword : ∀ c ∈ word, p c = true)
      (hrest : Hyphenated p rest) : Hyphenated p (word ++ .scalar '-' :: rest)

namespace Hyphenated

/-- Runs that are joined by hyphens. -/
theorem of_join (hne : runs ≠ []) (h : ∀ run ∈ runs, run ≠ [] ∧ ∀ c ∈ run, p c = true) :
    Hyphenated p (Text.join "-" runs) := by
  induction runs with
  | nil => exact absurd rfl hne
  | cons run runs ih =>
    obtain ⟨⟨hrunne, hrun⟩, hlater⟩ := List.forall_mem_cons.1 h
    cases runs with
    | nil => exact word hrunne hrun
    | cons other runs =>
      have hmore := more hrunne hrun (ih (List.cons_ne_nil other runs) hlater)
      rw [Text.join_cons_cons, List.append_assoc]
      exact hmore

theorem mem (h : Hyphenated p text) (hc : c ∈ text) : c = .scalar '-' ∨ p c = true := by
  induction h with
  | word _ hword => exact Or.inr (hword c hc)
  | more _ hword _ ih =>
    rcases List.mem_append.1 hc with hfirst | hlater
    · exact Or.inr (hword c hfirst)
    · rcases List.mem_cons.1 hlater with rfl | hrest
      · exact Or.inl rfl
      · exact ih hrest

theorem mono {q : CodePoint → Bool} (h : Hyphenated p text)
    (hpq : ∀ c, p c = true → q c = true) : Hyphenated q text := by
  induction h with
  | word hne hword => exact .word hne fun c hc => hpq c (hword c hc)
  | more hne hword _ ih => exact .more hne (fun c hc => hpq c (hword c hc)) ih

theorem exists_head? (h : Hyphenated p text) : ∃ c, text.head? = some c ∧ p c = true := by
  cases h with
  | word hne hword => exact ⟨_, List.head?_eq_some_head hne, hword _ (List.head_mem hne)⟩
  | @more word rest hne hword _ =>
    refine ⟨word.head hne, ?_, hword _ (List.head_mem hne)⟩
    rw [List.head?_append_of_ne_nil _ hne, List.head?_eq_some_head hne]

theorem exists_getLast? (h : Hyphenated p text) : ∃ c, text.getLast? = some c ∧ p c = true := by
  induction h with
  | word hne hword => exact ⟨_, List.getLast?_eq_some_getLast hne, hword _ (List.getLast_mem hne)⟩
  | more _ _ _ ih =>
    obtain ⟨c, hc, hp⟩ := ih
    refine ⟨c, ?_, hp⟩
    rw [List.getLast?_append, List.getLast?_cons, hc]
    rfl

/-- A hyphen comes neither first nor last. -/
theorem not_mem_ends (hyphen : p (.scalar '-') = false) (h : Hyphenated p text) :
    .scalar '-' ∉ text.head? ∧ .scalar '-' ∉ text.getLast? := by
  obtain ⟨c, hhead, hc⟩ := h.exists_head?
  obtain ⟨d, hlast, hd⟩ := h.exists_getLast?
  rw [hhead, hlast, Option.mem_some_iff, Option.mem_some_iff]
  constructor
  · rintro rfl
    rw [hyphen] at hc
    cases hc
  · rintro rfl
    rw [hyphen] at hd
    cases hd

end Hyphenated

/-! ## Stripping -/

theorem dropWhile_hyphens (hgap : ∀ c ∈ gap, c = .scalar '-') (hrest : .scalar '-' ∉ rest.head?) :
    (gap ++ rest).dropWhile (· = .scalar '-') = rest := by
  induction gap with
  | nil =>
    cases rest with
    | nil => rfl
    | cons c rest =>
      have hc : c ≠ .scalar '-' := by
        rintro rfl
        exact hrest rfl
      simp [hc]
  | cons c gap ih =>
    obtain ⟨rfl, hlater⟩ := List.forall_mem_cons.1 hgap
    simpa using ih hlater

/-- Hyphens around a text that has none at its ends are stripped. -/
theorem stripHyphens_between {before behind : Text} (hbefore : ∀ c ∈ before, c = .scalar '-')
    (hbehind : ∀ c ∈ behind, c = .scalar '-') (hhead : .scalar '-' ∉ text.head?)
    (hlast : .scalar '-' ∉ text.getLast?) : stripHyphens (before ++ (text ++ behind)) = text := by
  by_cases hempty : text = []
  · subst hempty
    have hall : ∀ c ∈ before ++ behind, c = .scalar '-' :=
      List.forall_mem_append.2 ⟨hbefore, hbehind⟩
    have hnothing := @dropWhile_hyphens [] (before ++ behind) hall (by simp)
    rw [List.append_nil] at hnothing
    rw [stripHyphens, List.nil_append, hnothing]
    rfl
  · have hfront : .scalar '-' ∉ (text ++ behind).head? := by
      rwa [List.head?_append_of_ne_nil _ hempty]
    have hback : .scalar '-' ∉ text.reverse.head? := by
      rwa [List.head?_reverse]
    have hreversed : ∀ c ∈ behind.reverse, c = .scalar '-' := fun c hc =>
      hbehind c (List.mem_reverse.1 hc)
    rw [stripHyphens, dropWhile_hyphens hbefore hfront, List.reverse_append,
      dropWhile_hyphens hreversed hback, List.reverse_reverse]

/-! ## Hyphenating -/

/-- What is hyphenated behind a gap is the runs with single hyphens between them, and a hyphen
behind them if a gap comes last. -/
theorem exists_squeezeAfter_eq (h : MaximalRuns CodePoint.isAsciiAlphanumeric text runs) :
    ∃ behind, (∀ c ∈ behind, c = .scalar '-') ∧
      Text.squeezeAfter CodePoint.isAsciiAlphanumeric '-' true text =
        Text.join "-" runs ++ behind := by
  induction h with
  | @gap gap hgap =>
    refine ⟨[], by simp, ?_⟩
    have hnone := Text.squeezeAfter_gap_append hgap '-' []
    rwa [List.append_nil] at hnone
  | @run gap run rest runs hgap hne hrun hstop hrest ih =>
    obtain ⟨behind, hbehind, heq⟩ := ih
    rw [Text.squeezeAfter_gap_append hgap, Text.squeezeAfter_run_append true hne hrun]
    cases rest with
    | nil =>
      -- No gap is left to be hyphenated.
      refine ⟨[], by simp, ?_⟩
      rw [← hrest.runsWhere_eq]
      rfl
    | cons c rest =>
      rw [Text.squeeze_cons_of_not (hstop c rfl), heq]
      cases runs with
      | nil => exact ⟨.scalar '-' :: behind, List.forall_mem_cons.2 ⟨rfl, hbehind⟩, rfl⟩
      | cons other runs =>
        refine ⟨behind, hbehind, ?_⟩
        rw [Text.join_cons_cons, List.append_assoc, List.append_assoc]
        rfl

/-- **Hyphenating and stripping leave the runs**, with single hyphens between them. -/
theorem stripHyphens_hyphenate (text : Text) :
    stripHyphens (hyphenate text) =
      Text.join "-" (runsWhere CodePoint.isAsciiAlphanumeric text) := by
  have hruns := Text.maximalRuns_runsWhere CodePoint.isAsciiAlphanumeric text
  obtain ⟨before, hbefore, hall⟩ :=
    Text.exists_squeeze_eq CodePoint.isAsciiAlphanumeric '-' text
  obtain ⟨behind, hbehind, hlater⟩ := exists_squeezeAfter_eq hruns
  have hends : .scalar '-' ∉ (Text.join "-" (runsWhere CodePoint.isAsciiAlphanumeric text)).head? ∧
      .scalar '-' ∉ (Text.join "-" (runsWhere CodePoint.isAsciiAlphanumeric text)).getLast? := by
    by_cases hnone : runsWhere CodePoint.isAsciiAlphanumeric text = []
    · simp [hnone, Text.join]
    · exact (Hyphenated.of_join hnone hruns.forall_mem).not_mem_ends (by decide)
  rw [hyphenate, hall, hlater, stripHyphens_between hbefore hbehind hends.1 hends.2]

/-- Words of letters and digits with single hyphens between them are hyphenated already. -/
theorem squeezeAfter_of_hyphenated (afterGap : Bool)
    (h : Hyphenated CodePoint.isAsciiAlphanumeric text) :
    Text.squeezeAfter CodePoint.isAsciiAlphanumeric '-' afterGap text = text := by
  induction h generalizing afterGap with
  | @word word hne hword =>
    have hrun := Text.squeezeAfter_run_append afterGap hne hword '-' []
    rw [List.append_nil] at hrun
    rw [hrun, Text.squeeze, Text.squeezeAfter, List.append_nil]
  | @more word rest hne hword _ ih =>
    have hgap : Text.squeeze CodePoint.isAsciiAlphanumeric '-' (.scalar '-' :: rest) =
        .scalar '-' :: Text.squeezeAfter CodePoint.isAsciiAlphanumeric '-' true rest := rfl
    rw [Text.squeezeAfter_run_append afterGap hne hword, hgap, ih true]

/-! ## Slugs -/

theorem splitRuns_eq (text : Text) :
    splitRuns text = Text.splitWhere CodePoint.isAsciiAlphanumeric text := by
  induction text with
  | nil => rfl
  | cons c rest ih => rw [splitRuns, Text.splitWhere, ih]

theorem alphanumericRuns_eq_runsWhere (text : Text) :
    alphanumericRuns text = runsWhere CodePoint.isAsciiAlphanumeric text := by
  rw [alphanumericRuns, runsWhere, splitRuns_eq]

theorem Text.map_join (f : CodePoint → CodePoint) (glue : Text) (texts : List Text) :
    (Text.join glue texts).map f = Text.join (glue.map f) (texts.map (List.map f)) := by
  induction texts with
  | nil => rfl
  | cons text texts ih =>
    cases texts with
    | nil => rfl
    | cons other texts =>
      rw [join_cons_cons, List.map_append, List.map_append, ih]
      rfl

namespace Decomposition

variable {D : Decomposition}

theorem isAscii_of_mem_runsWhere (hrun : run ∈ runsWhere CodePoint.isAsciiAlphanumeric text)
    (hc : c ∈ run) : c.isAscii = true :=
  CodePoint.isAscii_of_isAsciiAlphanumeric (Text.of_mem_of_mem_runsWhere hrun hc)

/-- The slug of a text is its lower-case runs with single hyphens between them. -/
theorem slug_eq_join (D : Decomposition) (text : Text) :
    D.slug text =
      Text.join "-" ((runsWhere CodePoint.isAsciiAlphanumeric (D.spelledOut text)).map
        (List.map CodePoint.lowerAscii)) := by
  have hascii : ∀ c ∈ Text.join "-" (runsWhere CodePoint.isAsciiAlphanumeric (D.spelledOut text)),
      c.isAscii = true := by
    intro c hc
    rcases Text.mem_of_mem_join hc with hglue | ⟨run, hrun, hmem⟩
    · rw [List.mem_singleton.1 hglue]
      decide
    · exact isAscii_of_mem_runsWhere hrun hmem
  rw [slug, stripHyphens_hyphenate, Text.lower_of_isAscii hascii, Text.map_join]
  rfl

theorem map_lower_runsWhere (text : Text) :
    (runsWhere CodePoint.isAsciiAlphanumeric text).map Text.lower =
      (runsWhere CodePoint.isAsciiAlphanumeric text).map (List.map CodePoint.lowerAscii) := by
  refine List.map_congr_left ?_
  intro run hrun
  exact Text.lower_of_isAscii fun c hc => isAscii_of_mem_runsWhere hrun hc

/-- A slug is empty, or it is words of small letters and digits with single hyphens between them. -/
theorem slug_form (D : Decomposition) (text : Text) :
    D.slug text = [] ∨ Hyphenated CodePoint.isSmallAlphanumeric (D.slug text) := by
  rw [slug_eq_join]
  by_cases hnone : runsWhere CodePoint.isAsciiAlphanumeric (D.spelledOut text) = []
  · rw [hnone]
    exact Or.inl rfl
  · refine Or.inr (Hyphenated.of_join (by simpa using hnone) ?_)
    intro lowered hlowered
    obtain ⟨run, hrun, rfl⟩ := List.mem_map.1 hlowered
    constructor
    · simpa using Text.ne_nil_of_mem_runsWhere hrun
    · intro c hc
      obtain ⟨d, hd, rfl⟩ := List.mem_map.1 hc
      exact CodePoint.isSmallAlphanumeric_lowerAscii (Text.of_mem_of_mem_runsWhere hrun hd)

theorem mem_slug (h : c ∈ D.slug text) : c = .scalar '-' ∨ c.isSmallAlphanumeric = true := by
  rcases D.slug_form text with hempty | hform
  · rw [hempty] at h
    cases h
  · exact hform.mem h

theorem not_mem_slug (hhyphen : c ≠ .scalar '-') (hsmall : c.isSmallAlphanumeric = false) :
    c ∉ D.slug text := by
  intro h
  rcases mem_slug h with hc | hc
  · exact hhyphen hc
  · rw [hsmall] at hc
    cases hc

/-- Decomposing and spelling out leave an ASCII text without ampersands alone. -/
theorem spelledOut_of_isAscii (hascii : ∀ c ∈ text, c.isAscii = true)
    (hampersand : .scalar '&' ∉ text) : D.spelledOut text = text := by
  have hmarks : (text.filter fun c => !D.isMark c) = text := by
    rw [List.filter_eq_self]
    intro c hc
    rw [D.isMark_ascii c (hascii c hc)]
    rfl
  have hsingle : Text.replace '&' " and " text = text.flatMap fun c => [c] := by
    refine List.flatMap_congr ?_
    intro c hc
    rw [if_neg]
    rintro rfl
    exact hampersand hc
  rw [spelledOut, D.decompose_ascii text hascii, hmarks, hsingle, List.flatMap_singleton']

/-- What has the form of a slug is its own slug. -/
theorem slug_of_hyphenated (hform : Hyphenated CodePoint.isSmallAlphanumeric text) :
    D.slug text = text := by
  have hletters : Hyphenated CodePoint.isAsciiAlphanumeric text :=
    hform.mono fun c hc => (CodePoint.isAsciiAlphanumeric_of_isSmallAlphanumeric hc).1
  have hmem : ∀ c ∈ text, c.isAscii = true ∧ c ≠ .scalar '&' ∧ c.lowerAscii = c := by
    intro c hc
    rcases hform.mem hc with rfl | hsmall
    · exact ⟨by decide, by decide, by decide⟩
    · obtain ⟨halphanumeric, hlower⟩ :=
        CodePoint.isAsciiAlphanumeric_of_isSmallAlphanumeric hsmall
      refine ⟨CodePoint.isAscii_of_isAsciiAlphanumeric halphanumeric, ?_, hlower⟩
      rintro rfl
      exact absurd hsmall (by decide)
  have hspelled : D.spelledOut text = text :=
    spelledOut_of_isAscii (fun c hc => (hmem c hc).1) fun hc => (hmem _ hc).2.1 rfl
  have hends := hform.not_mem_ends (by decide)
  have hstrip : stripHyphens text = text := by
    have hbetween : stripHyphens ([] ++ (text ++ [])) = text :=
      stripHyphens_between (by simp) (by simp) hends.1 hends.2
    rwa [List.nil_append, List.append_nil] at hbetween
  have hlower : text.map CodePoint.lowerAscii = text := by
    conv_rhs => rw [← List.map_id text]
    exact List.map_congr_left fun c hc => (hmem c hc).2.2
  rw [slug, hspelled, hyphenate, Text.squeeze, squeezeAfter_of_hyphenated false hletters, hstrip,
    Text.lower_of_isAscii fun c hc => (hmem c hc).1, hlower]

theorem slug_slug (D : Decomposition) (text : Text) : D.slug (D.slug text) = D.slug text := by
  rcases D.slug_form text with hempty | hform
  · -- Nothing is left of an empty text.
    have hnone : D.spelledOut [] = [] := spelledOut_of_isAscii (by simp) (by simp)
    rw [hempty, slug, hnone]
    rfl
  · exact slug_of_hyphenated hform

end Decomposition

theorem slugOf_eq_slug (text : Text) : slugOf text = Decomposition.plain.slug text := by
  rw [slugOf_eq_join, alphanumericRuns_eq_runsWhere, Decomposition.slug_eq_join]
  rfl

/-- **The law of slugs.** The slug of a text, made pass by pass from any decomposition that leaves
ASCII alone, is the maximal runs of ASCII letters and digits of the spelled-out text, each in lower
case, with single hyphens between them. So it is empty or words of small letters and digits with
single hyphens between them, has no slash, backslash or dot, and is its own slug. The function
`slugOf` makes this slug for the plain decomposition. -/
theorem slug_law (text : Text) :
    slugOf text = Decomposition.plain.slug text ∧
      ∀ D : Decomposition,
        (∃ runs, (∀ other, MaximalRuns CodePoint.isAsciiAlphanumeric (D.spelledOut text) other ↔
            other = runs) ∧
          D.slug text = Text.join "-" (runs.map Text.lower)) ∧
        (D.slug text = [] ∨ Hyphenated CodePoint.isSmallAlphanumeric (D.slug text)) ∧
        (∀ c : CodePoint, c = .scalar '/' ∨ c = .scalar '\\' ∨ c = .scalar '.' → c ∉ D.slug text) ∧
        D.slug (D.slug text) = D.slug text := by
  refine ⟨slugOf_eq_slug text, ?_⟩
  intro D
  refine ⟨⟨runsWhere CodePoint.isAsciiAlphanumeric (D.spelledOut text), ?_, ?_⟩, D.slug_form text,
    ?_, D.slug_slug text⟩
  · intro other
    exact Text.maximalRuns_iff
  · rw [Decomposition.map_lower_runsWhere]
    exact D.slug_eq_join text
  · rintro c (rfl | rfl | rfl)
    · exact Decomposition.not_mem_slug (by decide) (by decide)
    · exact Decomposition.not_mem_slug (by decide) (by decide)
    · exact Decomposition.not_mem_slug (by decide) (by decide)

example : slugOf " &R&D-- 2 " = "and-r-and-d-2" := by
  decide

end Stencil
