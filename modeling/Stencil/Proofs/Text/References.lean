import Stencil.Proofs.Text.Pieces
import Stencil.Template.Render

/-!
# References

A reader of markup takes `&amp;` and `&quot;` in an attribute value for the code points that they
stand for, in one pass from left to right (`Text.decodeReferences`). Decoding an escaped text gives
the text back (`Text.decode_escapeAttribute`). Escaping writes no double quote and no ampersand but
those of its references (`Text.escapeAttribute_decodable`), and every text of that form is written
(`Text.exists_escapeAttribute_eq_iff`). A text that holds a reference of its own says something else
once it is decoded, and any other text is what it says (`Text.decodeReferences_eq_self_iff`).
-/

set_option autoImplicit false

namespace Stencil

namespace Text

variable {c : CodePoint} {front text rest : Text}

/-- A text with the references for ampersands and double quotes read, from left to right. What a
reference stands for is not looked at again. -/
def decodeReferences : Text → Text
  | .scalar '&' :: .scalar 'a' :: .scalar 'm' :: .scalar 'p' :: .scalar ';' :: rest =>
    .scalar '&' :: decodeReferences rest
  | .scalar '&' :: .scalar 'q' :: .scalar 'u' :: .scalar 'o' :: .scalar 't' :: .scalar ';' ::
      rest =>
    .scalar '"' :: decodeReferences rest
  | c :: rest => c :: decodeReferences rest
  | [] => []

/-- Whether a text holds one of the references. -/
def HasReference (text : Text) : Prop :=
  ("&amp;" : Text) <:+: text ∨ ("&quot;" : Text) <:+: text

instance (text : Text) : Decidable (HasReference text) :=
  inferInstanceAs (Decidable (("&amp;" : Text) <:+: text ∨ ("&quot;" : Text) <:+: text))

/-- Whether a text begins with one of the references. -/
def BeginsReference (text : Text) : Prop :=
  ("&amp;" : Text) <+: text ∨ ("&quot;" : Text) <+: text

theorem hasReference_cons_iff :
    HasReference (c :: rest) ↔ BeginsReference (c :: rest) ∨ HasReference rest := by
  rw [HasReference, HasReference, BeginsReference, List.infix_cons_iff, List.infix_cons_iff]
  exact or_or_or_comm

/-- What is left to the last pattern of `decodeReferences` begins with no reference. -/
theorem not_beginsReference
    (hamp : ∀ behind, c = .scalar '&' →
      rest = .scalar 'a' :: .scalar 'm' :: .scalar 'p' :: .scalar ';' :: behind → False)
    (hquot : ∀ behind, c = .scalar '&' →
      rest = .scalar 'q' :: .scalar 'u' :: .scalar 'o' :: .scalar 't' :: .scalar ';' :: behind →
      False) :
    ¬ BeginsReference (c :: rest) := by
  rintro (⟨behind, hbehind⟩ | ⟨behind, hbehind⟩)
  · cases hbehind
    exact hamp behind rfl rfl
  · cases hbehind
    exact hquot behind rfl rfl

/-! ## Reading what is written -/

theorem decodeReferences_amp (rest : Text) :
    decodeReferences (("&amp;" : Text) ++ rest) = .scalar '&' :: decodeReferences rest :=
  rfl

theorem decodeReferences_quot (rest : Text) :
    decodeReferences (("&quot;" : Text) ++ rest) = .scalar '"' :: decodeReferences rest :=
  rfl

theorem decodeReferences_cons_of_ne (hc : c ≠ .scalar '&') (rest : Text) :
    decodeReferences (c :: rest) = c :: decodeReferences rest := by
  rw [decodeReferences]
  · rintro _ rfl
    exact absurd rfl hc
  · rintro _ rfl
    exact absurd rfl hc

/-- A code point as it stands in an escaped text. -/
def escapeOne (c : CodePoint) : Text :=
  if c = .scalar '&' then ("&amp;" : Text)
  else if c = .scalar '"' then ("&quot;" : Text)
  else [c]

/-- The two replacements do not get in each other's way: the second finds no quote in what the first
one has brought in. -/
theorem escapeAttribute_cons (c : CodePoint) (rest : Text) :
    escapeAttribute (c :: rest) = escapeOne c ++ escapeAttribute rest := by
  rw [escapeOne]
  by_cases hampersand : c = .scalar '&'
  · rw [if_pos hampersand, hampersand]
    rfl
  · have hkept : replace '&' "&amp;" (c :: rest) = c :: replace '&' "&amp;" rest := by
      rw [replace, List.flatMap_cons, if_neg hampersand]
      rfl
    rw [if_neg hampersand, escapeAttribute, hkept, replace, List.flatMap_cons]
    rfl

/-- **Decoding undoes escaping**: what is written is read again. -/
theorem decode_escapeAttribute (text : Text) :
    decodeReferences (escapeAttribute text) = text := by
  induction text with
  | nil => rfl
  | cons c rest ih =>
    rw [escapeAttribute_cons, escapeOne]
    split
    · next hampersand => rw [decodeReferences_amp, ih, hampersand]
    · next hampersand =>
      split
      · next hquote => rw [decodeReferences_quot, ih, hquote]
      · rw [List.singleton_append, decodeReferences_cons_of_ne hampersand, ih]

/-! ## Escaped texts -/

/-- Whether every ampersand of a text begins one of the references. -/
def NoBareAmpersand (text : Text) : Prop :=
  ∀ behind, .scalar '&' :: behind <:+ text → BeginsReference (.scalar '&' :: behind)

theorem noBareAmpersand_nil : NoBareAmpersand [] := by
  intro behind hbehind
  exact absurd (List.suffix_nil.1 hbehind) (List.cons_ne_nil _ _)

theorem noBareAmpersand_cons_iff :
    NoBareAmpersand (c :: rest) ↔
      (c = .scalar '&' → BeginsReference (c :: rest)) ∧ NoBareAmpersand rest := by
  constructor
  · intro hall
    refine ⟨?_, fun behind hbehind => hall behind (List.suffix_cons_iff.2 (Or.inr hbehind))⟩
    rintro rfl
    exact hall rest List.suffix_rfl
  · rintro ⟨hhead, hrest⟩ behind hbehind
    -- The ampersand is the first code point, or it stands in the rest.
    rcases List.suffix_cons_iff.1 hbehind with hsame | hlater
    · obtain ⟨rfl, rfl⟩ := List.cons.inj hsame
      exact hhead rfl
    · exact hrest behind hlater

theorem noBareAmpersand_append_iff (hfront : .scalar '&' ∉ front) :
    NoBareAmpersand (front ++ rest) ↔ NoBareAmpersand rest := by
  induction front with
  | nil => rfl
  | cons c front ih =>
    obtain ⟨hother, hlater⟩ := List.ne_and_not_mem_of_not_mem_cons hfront
    rw [List.cons_append, noBareAmpersand_cons_iff, ih hlater]
    exact and_iff_right fun hsame => absurd hsame.symm hother

/-- A reference is read past as a whole: no other ampersand stands in it. -/
theorem noBareAmpersand_reference_iff (name : Text) (hname : .scalar '&' ∉ name)
    (hbegins : BeginsReference (.scalar '&' :: (name ++ rest))) :
    NoBareAmpersand (.scalar '&' :: (name ++ rest)) ↔ NoBareAmpersand rest := by
  rw [noBareAmpersand_cons_iff, noBareAmpersand_append_iff hname]
  exact and_iff_right fun _ => hbegins

theorem noBareAmpersand_escapeOne_iff (c : CodePoint) :
    NoBareAmpersand (escapeOne c ++ rest) ↔ NoBareAmpersand rest := by
  rw [escapeOne]
  split
  · exact noBareAmpersand_reference_iff "amp;" (by decide) (Or.inl (List.prefix_append _ _))
  · next hampersand =>
    split
    · exact noBareAmpersand_reference_iff "quot;" (by decide) (Or.inr (List.prefix_append _ _))
    · refine noBareAmpersand_append_iff ?_
      rw [List.mem_singleton]
      exact Ne.symm hampersand

theorem noBareAmpersand_escapeAttribute (text : Text) :
    NoBareAmpersand (escapeAttribute text) := by
  induction text with
  | nil => exact noBareAmpersand_nil
  | cons c rest ih =>
    rw [escapeAttribute_cons]
    exact (noBareAmpersand_escapeOne_iff c).2 ih

/-- The second replacement takes every quote away, and brings none in. -/
theorem quote_not_mem_escapeAttribute (text : Text) : .scalar '"' ∉ escapeAttribute text := by
  rw [escapeAttribute, mem_replace_iff]
  rintro (⟨-, hother⟩ | ⟨-, hmem⟩)
  · exact hother rfl
  · exact absurd hmem (by decide)

/-- A text of the form that escaping writes is what its decoding is written as. -/
theorem escapeAttribute_decode (hquote : .scalar '"' ∉ text) (hbare : NoBareAmpersand text) :
    escapeAttribute (decodeReferences text) = text := by
  fun_induction decodeReferences text with
  | case1 rest ih =>
    have hlater : .scalar '"' ∉ rest := fun hmem => hquote (List.mem_append_right "&amp;" hmem)
    have hrest : NoBareAmpersand rest := (noBareAmpersand_escapeOne_iff (.scalar '&')).1 hbare
    rw [escapeAttribute_cons, ih hlater hrest]
    rfl
  | case2 rest ih =>
    have hlater : .scalar '"' ∉ rest := fun hmem => hquote (List.mem_append_right "&quot;" hmem)
    have hrest : NoBareAmpersand rest := (noBareAmpersand_escapeOne_iff (.scalar '"')).1 hbare
    rw [escapeAttribute_cons, ih hlater hrest]
    rfl
  | case3 c rest hamp hquot ih =>
    obtain ⟨hbegins, hrest⟩ := noBareAmpersand_cons_iff.1 hbare
    obtain ⟨hplain, hlater⟩ := List.ne_and_not_mem_of_not_mem_cons hquote
    -- An ampersand here would begin a reference, and an earlier pattern would have read it.
    have hampersand : c ≠ .scalar '&' := by
      intro hsame
      exact not_beginsReference hamp hquot (hbegins hsame)
    rw [escapeAttribute_cons, escapeOne, if_neg hampersand, if_neg hplain.symm, ih hlater hrest]
    rfl
  | case4 => rfl

/-- The texts that escaping writes are those with no double quote and no bare ampersand. -/
theorem exists_escapeAttribute_eq_iff :
    (∃ source, escapeAttribute source = text) ↔ .scalar '"' ∉ text ∧ NoBareAmpersand text := by
  constructor
  · rintro ⟨source, rfl⟩
    exact ⟨quote_not_mem_escapeAttribute source, noBareAmpersand_escapeAttribute source⟩
  · rintro ⟨hquote, hbare⟩
    exact ⟨decodeReferences text, escapeAttribute_decode hquote hbare⟩

/-- **An escaped text** can stand between double quotes, its ampersands are those of references
alone, and decoding gives back what was escaped; so no two texts are escaped alike. -/
theorem escapeAttribute_decodable :
    (∀ text : Text,
      .scalar '"' ∉ escapeAttribute text ∧
        NoBareAmpersand (escapeAttribute text) ∧
        decodeReferences (escapeAttribute text) = text) ∧
      Function.Injective escapeAttribute := by
  refine ⟨fun text => ?_, Function.LeftInverse.injective decode_escapeAttribute⟩
  exact ⟨quote_not_mem_escapeAttribute text, noBareAmpersand_escapeAttribute text,
    decode_escapeAttribute text⟩

-- What looks like a reference before escaping is not one afterwards.
example : escapeAttribute "\"&quot;\"" = ("&quot;&amp;quot;&quot;" : Text) := by
  decide

/-! ## Texts without references -/

theorem length_decodeReferences_le (text : Text) :
    (decodeReferences text).length ≤ text.length := by
  fun_induction decodeReferences text with
  | case1 rest ih =>
    simp only [List.length_cons]
    omega
  | case2 rest ih =>
    simp only [List.length_cons]
    omega
  | case3 c rest _ _ ih =>
    simp only [List.length_cons]
    omega
  | case4 => exact Nat.le_refl 0

/-- A text is what it says if and only if it holds no reference. -/
theorem decodeReferences_eq_self_iff : decodeReferences text = text ↔ ¬ HasReference text := by
  fun_induction decodeReferences text with
  | case1 rest ih =>
    -- A reference is longer than what it stands for.
    have hshort := length_decodeReferences_le rest
    refine iff_of_false ?_ (not_not_intro (Or.inl ⟨[], rest, rfl⟩))
    intro hsame
    have hlength := congrArg List.length hsame
    simp only [List.length_cons] at hlength
    omega
  | case2 rest ih =>
    have hshort := length_decodeReferences_le rest
    refine iff_of_false ?_ (not_not_intro (Or.inr ⟨[], rest, rfl⟩))
    intro hsame
    have hlength := congrArg List.length hsame
    simp only [List.length_cons] at hlength
    omega
  | case3 c rest hamp hquot ih =>
    have hbegins := not_beginsReference hamp hquot
    rw [List.cons_inj_right, ih, hasReference_cons_iff, or_iff_right hbegins]
  | case4 => decide

end Text

end Stencil
