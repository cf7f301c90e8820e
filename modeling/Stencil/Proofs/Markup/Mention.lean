import Stencil.Markup.AttributeReader
import Stencil.Proofs.Markup.Print
import Stencil.Proofs.Text.Blank

/-!
# Attributes as they are read

What reading may give: names that are not empty and made of name characters, each of them once;
flags that are on; and values that were in the text and hold not both kinds of quotes
(`Attributes.legible_read`). And what printing leaves for reading: attributes whose values hold no
double quote are read back as they are, whatever blanks stand behind them
(`Attributes.read_print_append`).
-/

set_option autoImplicit false

namespace Stencil

namespace AttributeValue

/-- A flag that is on, or a text that satisfies `good`. -/
def Good (good : Text → Prop) : AttributeValue → Prop
  | .flag on => on = true
  | .text content => good content

theorem Good.mono {first second : Text → Prop} {value : AttributeValue} (h : value.Good first)
    (himp : ∀ content, first content → second content) : value.Good second := by
  cases value with
  | flag on => exact h
  | text content => exact himp content h

end AttributeValue

/-- The characters of names are the ASCII letters and digits and four others. -/
theorem CodePoint.isAttributeName_iff {c : CodePoint} :
    c.isAttributeName = true ↔ c.isAsciiAlphanumeric = true ∨ c ∈ (":@_-" : Text) := by
  simp [CodePoint.isAttributeName, Text.ofString, or_assoc]

namespace Attributes

/-- A name that is not empty and made of name characters. -/
def LegibleName (name : Text) : Prop :=
  name ≠ [] ∧ ∀ c ∈ name, c.isAttributeName = true

theorem LegibleName.not_mem {name : Text} {c : CodePoint} (h : LegibleName name)
    (hc : c.isAttributeName = false) : c ∉ name := by
  intro hmem
  rw [h.2 c hmem] at hc
  cases hc

theorem legibleName_class : LegibleName "class" := by
  constructor
  · exact List.cons_ne_nil _ _
  · decide

/-- Attributes with distinct legible names and good values. -/
def Legible (good : Text → Prop) (attributes : Attributes) : Prop :=
  (∀ entry ∈ attributes, LegibleName entry.1 ∧ entry.2.Good good) ∧
    (attributes.map Prod.fst).Nodup

/-! ## What reading gives -/

/-- A value without both kinds of quotes, made of code points of `text`. -/
def Taken (text value : Text) : Prop :=
  (∀ c ∈ value, c ∈ text) ∧ ¬ ((.scalar '"') ∈ value ∧ (.scalar '\'') ∈ value)

theorem Taken.mono {small large value : Text} (h : Taken small value)
    (hsub : ∀ c ∈ small, c ∈ large) : Taken large value :=
  ⟨fun c hc => hsub c (h.1 c hc), h.2⟩

theorem taken_of_readQuoted? {quote : CodePoint} {text value rest : Text}
    (hquote : quote = .scalar '"' ∨ quote = .scalar '\'')
    (h : readQuoted? quote text = some (value, rest)) :
    Taken text value ∧ ∀ c ∈ rest, c ∈ text := by
  unfold readQuoted? at h
  split at h
  · cases h
  · next d tail hdrop =>
    cases h
    -- A value stops in front of its quote, so it lacks that one of the two.
    have hnot : quote ∉ text.takeWhile (· ≠ quote) := by
      intro hmem
      simpa using List.mem_takeWhile_imp hmem
    refine ⟨⟨fun c hc => (List.takeWhile_subset _) hc, ?_⟩, ?_⟩
    · rintro ⟨hdouble, hsingle⟩
      rcases hquote with rfl | rfl
      · exact hnot hdouble
      · exact hnot hsingle
    · intro c hc
      have hmem : c ∈ text.dropWhile (· ≠ quote) := by
        rw [hdrop]
        exact List.mem_cons_of_mem d hc
      exact (List.dropWhile_subset _) hmem

theorem taken_of_readBareValue? {text value rest : Text}
    (h : readBareValue? text = some (value, rest)) :
    Taken text value ∧ ∀ c ∈ rest, c ∈ text := by
  cases text with
  | nil => cases h
  | cons c tail =>
    rw [readBareValue?] at h
    by_cases hquoted : c = '"' ∨ c = '\''
    · rw [if_pos hquoted] at h
      obtain ⟨htaken, hrest⟩ := taken_of_readQuoted? hquoted h
      exact ⟨htaken.mono fun d hd => List.mem_cons_of_mem c hd,
        fun d hd => List.mem_cons_of_mem c (hrest d hd)⟩
    rw [if_neg hquoted] at h
    by_cases hplain : c.isPlainValue = true
    · rw [if_pos hplain] at h
      cases h
      refine ⟨⟨?_, ?_⟩, ?_⟩
      · intro d hd
        rcases List.mem_cons.1 hd with rfl | hd
        · exact List.mem_cons_self
        · exact List.mem_cons_of_mem c ((List.takeWhile_subset _) hd)
      · -- A plain value holds no quotes at all.
        rintro ⟨hdouble, -⟩
        rcases List.mem_cons.1 hdouble with hhead | htail
        · exact hquoted (Or.inl hhead.symm)
        · exact absurd (List.mem_takeWhile_imp htail) (by decide)
      · intro d hd
        exact List.mem_cons_of_mem c ((List.dropWhile_subset _) hd)
    · rw [if_neg hplain] at h
      cases h

theorem taken_of_readValue? {text value rest : Text} (h : readValue? text = some (value, rest)) :
    Taken text value ∧ ∀ c ∈ rest, c ∈ text := by
  have hstart : ∀ {some : Text} (c : CodePoint), c ∈ Text.trimStart some → c ∈ some :=
    fun c hc => (List.dropWhile_subset _) hc
  unfold readValue? at h
  split at h
  · cases h
  · next c tail htrim =>
    split at h
    · obtain ⟨htaken, hrest⟩ := taken_of_readBareValue? h
      have hback : ∀ d ∈ Text.trimStart tail, d ∈ text := by
        intro d hd
        refine hstart d ?_
        rw [htrim]
        exact List.mem_cons_of_mem c (hstart d hd)
      exact ⟨htaken.mono hback, fun d hd => hback d (hrest d hd)⟩
    · cases h

theorem legibleName_cons_takeWhile {c : CodePoint} {rest : Text} (hc : c.isAttributeName = true) :
    LegibleName (c :: rest.takeWhile CodePoint.isAttributeName) := by
  refine ⟨List.cons_ne_nil _ _, ?_⟩
  intro d hd
  rcases List.mem_cons.1 hd with rfl | hd
  · exact hc
  · exact List.mem_takeWhile_imp hd

theorem readMentions_cons_of_not {c : CodePoint} {rest : Text}
    (hc : ¬ c.isAttributeName = true) : readMentions (c :: rest) = readMentions rest := by
  rw [readMentions, if_neg hc]

theorem readMentions_cons_of_some {c : CodePoint} {rest value after : Text}
    (hc : c.isAttributeName = true)
    (hread : readValue? (rest.dropWhile CodePoint.isAttributeName) = some (value, after)) :
    readMentions (c :: rest) =
      (c :: rest.takeWhile CodePoint.isAttributeName, .text value) :: readMentions after := by
  rw [readMentions, if_pos hc]
  dsimp only
  split
  · next value' after' hread' =>
    rw [hread] at hread'
    cases hread'
    rfl
  · next hread' =>
    rw [hread] at hread'
    cases hread'

theorem readMentions_cons_of_none {c : CodePoint} {rest : Text} (hc : c.isAttributeName = true)
    (hread : readValue? (rest.dropWhile CodePoint.isAttributeName) = none) :
    readMentions (c :: rest) =
      (c :: rest.takeWhile CodePoint.isAttributeName, .flag true) ::
        readMentions (rest.dropWhile CodePoint.isAttributeName) := by
  rw [readMentions, if_pos hc]
  dsimp only
  split
  · next value' after' hread' =>
    rw [hread] at hread'
    cases hread'
  · rfl

/-- What a mention may be. -/
theorem legible_of_mem_readMentions {text : Text} :
    ∀ entry ∈ readMentions text, LegibleName entry.1 ∧ entry.2.Good (Taken text) := by
  -- The induction speaks of the rest that is still to be read, which is a part of the text.
  have widen : ∀ {small large : Text}, (∀ c ∈ small, c ∈ large) →
      (∀ entry ∈ readMentions small, LegibleName entry.1 ∧ entry.2.Good (Taken small)) →
      ∀ entry ∈ readMentions small, LegibleName entry.1 ∧ entry.2.Good (Taken large) :=
    fun hsub h entry hentry =>
      ⟨(h entry hentry).1, (h entry hentry).2.mono fun _ htaken => htaken.mono hsub⟩
  induction text using readMentions.induct with
  | case1 => simp [readMentions]
  | case2 c rest hname value after hread ih =>
    have hback : ∀ d ∈ rest.dropWhile CodePoint.isAttributeName, d ∈ c :: rest :=
      fun d hd => List.mem_cons_of_mem c ((List.dropWhile_subset _) hd)
    obtain ⟨htaken, hafter⟩ := taken_of_readValue? hread
    intro entry hentry
    rw [readMentions_cons_of_some hname hread] at hentry
    rcases List.mem_cons.1 hentry with rfl | hentry
    · exact ⟨legibleName_cons_takeWhile hname, htaken.mono hback⟩
    · exact widen (fun d hd => hback d (hafter d hd)) ih entry hentry
  | case3 c rest hname hread ih =>
    intro entry hentry
    rw [readMentions_cons_of_none hname hread] at hentry
    rcases List.mem_cons.1 hentry with rfl | hentry
    · exact ⟨legibleName_cons_takeWhile hname, rfl⟩
    · exact widen (fun d hd => List.mem_cons_of_mem c ((List.dropWhile_subset _) hd)) ih entry
        hentry
  | case4 c rest hname ih =>
    rw [readMentions_cons_of_not hname]
    exact widen (fun d hd => List.mem_cons_of_mem c hd) ih

/-! ## Attributes that a sequence of mentions leaves behind -/

theorem map_fst_set (name : Text) (value : AttributeValue) (attributes : Attributes) :
    (set name value attributes).map Prod.fst =
      if name ∈ attributes.map Prod.fst then attributes.map Prod.fst
      else attributes.map Prod.fst ++ [name] := by
  induction attributes with
  | nil => rfl
  | cons head rest ih =>
    obtain ⟨other, old⟩ := head
    rw [set]
    by_cases hsame : other = name
    · subst hsame
      simp
    · rw [if_neg hsame, List.map_cons, ih]
      by_cases hrest : name ∈ rest.map Prod.fst
      · rw [if_pos hrest, if_pos (by simp [hrest])]
        rfl
      · rw [if_neg hrest, if_neg (by simp [hrest, Ne.symm hsame])]
        rfl

theorem mem_of_mem_set {name : Text} {value : AttributeValue} {attributes : Attributes}
    {entry : Text × AttributeValue} (h : entry ∈ set name value attributes) :
    entry = (name, value) ∨ entry ∈ attributes := by
  induction attributes with
  | nil => exact Or.inl (List.mem_singleton.1 h)
  | cons head rest ih =>
    obtain ⟨other, old⟩ := head
    rw [set] at h
    split at h
    · next hsame =>
      rcases List.mem_cons.1 h with rfl | h
      · exact Or.inl (by rw [hsame])
      · exact Or.inr (List.mem_cons_of_mem _ h)
    · rcases List.mem_cons.1 h with rfl | h
      · exact Or.inr List.mem_cons_self
      · rcases ih h with hnew | hold
        · exact Or.inl hnew
        · exact Or.inr (List.mem_cons_of_mem _ hold)

theorem set_of_not_mem {name : Text} {value : AttributeValue} {attributes : Attributes}
    (h : name ∉ attributes.map Prod.fst) :
    set name value attributes = attributes ++ [(name, value)] := by
  induction attributes with
  | nil => rfl
  | cons head rest ih =>
    obtain ⟨other, old⟩ := head
    rw [List.map_cons, List.mem_cons, not_or] at h
    rw [set, if_neg (Ne.symm h.1), ih h.2, List.cons_append]

theorem nodup_set {name : Text} {value : AttributeValue} {attributes : Attributes}
    (h : (attributes.map Prod.fst).Nodup) : ((set name value attributes).map Prod.fst).Nodup := by
  rw [map_fst_set]
  split
  · exact h
  · next hnew =>
    rw [List.nodup_append]
    refine ⟨h, List.pairwise_singleton _ _, ?_⟩
    intro old hold other hother
    rw [List.mem_singleton] at hother
    subst hother
    exact fun hsame => hnew (hsame ▸ hold)

/-- Attributes that have distinct names stay distinct, and each of them was mentioned. -/
theorem foldl_set_facts (mentions : List (Text × AttributeValue)) (attributes : Attributes)
    (hnodup : (attributes.map Prod.fst).Nodup) :
    let result :=
      mentions.foldl (fun attributes (name, value) => set name value attributes) attributes
    (result.map Prod.fst).Nodup ∧ ∀ entry ∈ result, entry ∈ attributes ∨ entry ∈ mentions := by
  induction mentions generalizing attributes with
  | nil => exact ⟨hnodup, fun entry hentry => Or.inl hentry⟩
  | cons mention rest ih =>
    obtain ⟨name, value⟩ := mention
    obtain ⟨hdistinct, hentries⟩ := ih (set name value attributes) (nodup_set hnodup)
    refine ⟨hdistinct, ?_⟩
    intro entry hentry
    rcases hentries entry hentry with hold | hlater
    · rcases mem_of_mem_set hold with rfl | hold
      · exact Or.inr List.mem_cons_self
      · exact Or.inl hold
    · exact Or.inr (List.mem_cons_of_mem _ hlater)

theorem read_nil : read [] = [] := by
  rw [read, readMentions]
  rfl

/-- Attributes as they are read. -/
theorem legible_read (text : Text) : Legible (Taken text) (read text) := by
  obtain ⟨hnodup, hentries⟩ := foldl_set_facts (readMentions text) [] List.nodup_nil
  refine ⟨?_, hnodup⟩
  intro entry hentry
  rcases hentries entry hentry with hnone | hmention
  · cases hnone
  · exact legible_of_mem_readMentions entry hmention

theorem foldl_set_of_nodup (rest earlier : Attributes)
    (hnodup : ((earlier ++ rest).map Prod.fst).Nodup) :
    rest.foldl (fun attributes (name, value) => set name value attributes) earlier =
      earlier ++ rest := by
  induction rest generalizing earlier with
  | nil => exact (List.append_nil earlier).symm
  | cons head rest ih =>
    obtain ⟨name, value⟩ := head
    have hnew : name ∉ earlier.map Prod.fst := by
      intro hmem
      rw [List.map_append, List.nodup_append] at hnodup
      exact hnodup.2.2 name hmem name List.mem_cons_self rfl
    have hmoved : (earlier ++ [(name, value)]) ++ rest = earlier ++ (name, value) :: rest := by
      rw [List.append_assoc, List.singleton_append]
    rw [List.foldl_cons]
    dsimp only
    rw [set_of_not_mem hnew, ih _ (by rw [hmoved]; exact hnodup), hmoved]

/-- Mentions of distinct names are the attributes themselves. -/
theorem ofMentions_of_nodup {mentions : Attributes} (h : (mentions.map Prod.fst).Nodup) :
    ofMentions mentions = mentions :=
  foldl_set_of_nodup mentions [] h

/-! ## Reading back what is printed -/

/-- A mention starts where a name does: its name is read to the end, and what follows decides
whether it has a value. -/
theorem readMentions_name_append {name tail : Text} (hname : LegibleName name)
    (htail : ∀ c ∈ tail.head?, c.isAttributeName = false) :
    readMentions (name ++ tail) =
      match readValue? tail with
      | some (value, after) => (name, .text value) :: readMentions after
      | none => (name, .flag true) :: readMentions tail := by
  obtain ⟨hne, hall⟩ := hname
  cases name with
  | nil => exact absurd rfl hne
  | cons c rest =>
    have hc : c.isAttributeName = true := hall c List.mem_cons_self
    have hrest : ∀ d ∈ rest, d.isAttributeName = true :=
      fun d hd => hall d (List.mem_cons_of_mem c hd)
    have htake := Text.takeWhile_append_of_stop hrest htail
    have hdrop := Text.dropWhile_append_of_stop hrest htail
    rw [List.cons_append]
    cases hread : readValue? tail with
    | none =>
      rw [readMentions_cons_of_none hc (by rw [hdrop]; exact hread), htake, hdrop]
    | some pair =>
      rw [readMentions_cons_of_some hc (by rw [hdrop]; exact hread), htake]

theorem value_of_isAttributeName {c : CodePoint} (h : c.isAttributeName = true) :
    c.value = 0x2D ∨ (0x30 ≤ c.value ∧ c.value ≤ 0x3A) ∨ (0x40 ≤ c.value ∧ c.value ≤ 0x5A) ∨
      c.value = 0x5F ∨ (0x61 ≤ c.value ∧ c.value ≤ 0x7A) := by
  simp only [CodePoint.isAttributeName, Bool.or_eq_true, decide_eq_true_eq] at h
  rcases h with (((hletter | rfl) | rfl) | rfl) | rfl
  · cases c with
    | half offset => cases hletter
    | scalar c =>
      simp only [CodePoint.isAsciiAlphanumeric, CodePoint.isAsciiLetter, CodePoint.isAsciiDigit,
        CodePoint.satisfies, Bool.or_eq_true, Bool.and_eq_true, decide_eq_true_eq, Char.le_def,
        UInt32.le_iff_toNat_le] at hletter
      simp only [CodePoint.value, Char.toNat]
      have ha : ('a' : Char).val.toNat = 0x61 := rfl
      have hz : ('z' : Char).val.toNat = 0x7A := rfl
      have hA : ('A' : Char).val.toNat = 0x41 := rfl
      have hZ : ('Z' : Char).val.toNat = 0x5A := rfl
      have h0 : ('0' : Char).val.toNat = 0x30 := rfl
      have h9 : ('9' : Char).val.toNat = 0x39 := rfl
      omega
  · decide
  · decide
  · decide
  · decide

theorem not_isBlank_of_isAttributeName {c : CodePoint} (h : c.isAttributeName = true) :
    c.isBlank = false := by
  have hvalue := value_of_isAttributeName h
  cases hblank : c.isBlank with
  | false => rfl
  | true =>
    simp only [CodePoint.isBlank, Bool.or_eq_true, Bool.and_eq_true, decide_eq_true_eq,
      beq_iff_eq] at hblank
    omega

theorem not_isAttributeName_of_isBlank {c : CodePoint} (h : c.isBlank = true) :
    c.isAttributeName = false := by
  cases hname : c.isAttributeName with
  | false => rfl
  | true =>
    rw [not_isBlank_of_isAttributeName hname] at h
    cases h

theorem readQuoted?_append {quote : CodePoint} {value : Text} (h : quote ∉ value) (after : Text) :
    readQuoted? quote (value ++ quote :: after) = some (value, after) := by
  rw [readQuoted?, Text.dropWhile_ne_append h, Text.takeWhile_ne_append h]

/-- A value between double quotes that holds none is read to its end. -/
theorem readValue?_quoted {value : Text} (hvalue : .scalar '"' ∉ value) (after : Text) :
    readValue? (("=\"" : Text) ++ value ++ ("\"" : Text) ++ after) = some (value, after) := by
  have hwhole : ("=\"" : Text) ++ value ++ ("\"" : Text) ++ after =
      .scalar '=' :: .scalar '"' :: (value ++ .scalar '"' :: after) := by
    simp [Text.ofString]
  rw [hwhole, readValue?, Text.trimStart_cons_of_not (by decide)]
  dsimp only
  rw [if_pos rfl, Text.trimStart_cons_of_not (by decide), readBareValue?, if_pos (Or.inl rfl),
    readQuoted?_append hvalue]

/-- Blanks in front of a mention are passed over. -/
theorem readMentions_blank_append {lead : Text} (hlead : ∀ c ∈ lead, c.isBlank) (rest : Text) :
    readMentions (lead ++ rest) = readMentions rest := by
  induction lead with
  | nil => rfl
  | cons c tail ih =>
    have hname := not_isAttributeName_of_isBlank (hlead c List.mem_cons_self)
    rw [List.cons_append, readMentions_cons_of_not (by simp [hname]),
      ih fun d hd => hlead d (List.mem_cons_of_mem c hd)]

theorem readMentions_blank {trail : Text} (htrail : ∀ c ∈ trail, c.isBlank) :
    readMentions trail = [] := by
  rw [← List.append_nil trail, readMentions_blank_append htrail, readMentions]

/-- Printed attributes start with a space and a name. -/
theorem exists_print_eq {attributes : Attributes} (hne : attributes ≠ [])
    (h : ∀ entry ∈ attributes, LegibleName entry.1) :
    ∃ c more, print attributes = .scalar ' ' :: c :: more ∧ c.isAttributeName = true := by
  cases attributes with
  | nil => exact absurd rfl hne
  | cons head rest =>
    obtain ⟨name, value⟩ := head
    obtain ⟨hname, hall⟩ := h _ List.mem_cons_self
    cases name with
    | nil => exact absurd rfl hname
    | cons c tail =>
      have hc : c.isAttributeName = true := hall c List.mem_cons_self
      cases value with
      | flag on => exact ⟨c, _, rfl, hc⟩
      | text content => exact ⟨c, _, rfl, hc⟩

/-- Behind a flag stand blanks or a space and the next name, which is no value. -/
theorem readValue?_print_append {attributes : Attributes} {trail : Text}
    (h : ∀ entry ∈ attributes, LegibleName entry.1) (htrail : ∀ c ∈ trail, c.isBlank) :
    readValue? (print attributes ++ trail) = none := by
  by_cases hne : attributes = []
  · subst hne
    have hnil : Text.trimStart trail = [] := List.dropWhile_eq_nil_iff.2 htrail
    rw [print_nil, List.nil_append, readValue?, hnil]
  · obtain ⟨c, more, hprint, hc⟩ := exists_print_eq hne h
    have hstart : Text.trimStart (.scalar ' ' :: c :: (more ++ trail)) = c :: (more ++ trail) := by
      rw [Text.trimStart, List.dropWhile_cons_of_pos (by decide)]
      exact Text.trimStart_cons_of_not (not_isBlank_of_isAttributeName hc)
    rw [hprint, List.cons_append, List.cons_append, readValue?, hstart]
    dsimp only
    -- A name does not start with an equals sign.
    rw [if_neg]
    rintro rfl
    exact absurd hc (by decide)

theorem head?_print_append {attributes : Attributes} {trail : Text}
    (htrail : ∀ c ∈ trail.head?, c.isBlank) :
    ∀ c ∈ (print attributes ++ trail).head?, c.isBlank := by
  intro c hc
  cases attributes with
  | nil => exact htrail c hc
  | cons head rest =>
    obtain ⟨name, value⟩ := head
    cases value with
    | flag on =>
      cases hc
      decide
    | text content =>
      cases hc
      decide

/-- A text attribute is read back in front of anything: its value ends at the closing quote. -/
theorem readMentions_printOne_text {name content : Text} (hname : LegibleName name)
    (hcontent : .scalar '"' ∉ content) (rest : Text) :
    readMentions (printOne name (.text content) ++ rest) =
      (name, .text content) :: readMentions rest := by
  have hsplit : printOne name (.text content) ++ rest =
      .scalar ' ' :: (name ++ (("=\"" : Text) ++ content ++ ("\"" : Text) ++ rest)) := by
    simp only [printOne, List.append_assoc, List.cons_append]
  have hstop : ∀ c ∈ (("=\"" : Text) ++ content ++ ("\"" : Text) ++ rest).head?,
      c.isAttributeName = false := by
    rintro c ⟨⟩
    decide
  rw [hsplit, readMentions_cons_of_not (by decide), readMentions_name_append hname hstop,
    readValue?_quoted hcontent rest]

/-- A flag is read back where what follows ends its name and cannot be taken for its value. -/
theorem readMentions_printOne_flag {name rest : Text} (hname : LegibleName name)
    (hblank : ∀ c ∈ rest.head?, c.isBlank) (hnone : readValue? rest = none) :
    readMentions (printOne name (.flag true) ++ rest) =
      (name, .flag true) :: readMentions rest := by
  have hstop : ∀ c ∈ rest.head?, c.isAttributeName = false :=
    fun c hc => not_isAttributeName_of_isBlank (hblank c hc)
  rw [printOne, List.cons_append, readMentions_cons_of_not (by decide),
    readMentions_name_append hname hstop, hnone]

/-- Printed attributes are read back, whatever blanks stand behind them. -/
theorem readMentions_print_append {attributes : Attributes} {trail : Text}
    (h : ∀ entry ∈ attributes,
      LegibleName entry.1 ∧ entry.2.Good fun value => .scalar '"' ∉ value)
    (htrail : ∀ c ∈ trail, c.isBlank) :
    readMentions (print attributes ++ trail) = attributes := by
  induction attributes with
  | nil => rw [print_nil, List.nil_append, readMentions_blank htrail]
  | cons head rest ih =>
    obtain ⟨name, value⟩ := head
    obtain ⟨hname, hgood⟩ := h _ List.mem_cons_self
    have hrest := fun entry hentry => h entry (List.mem_cons_of_mem _ hentry)
    rw [print_cons, List.append_assoc]
    cases value with
    | flag on =>
      have hon : on = true := hgood
      subst hon
      have hblank : ∀ c ∈ (print rest ++ trail).head?, c.isBlank :=
        head?_print_append fun c hc => htrail c (List.mem_of_mem_head? hc)
      have hnone := readValue?_print_append (fun entry hentry => (hrest entry hentry).1) htrail
      rw [readMentions_printOne_flag hname hblank hnone, ih hrest]
    | text content =>
      rw [readMentions_printOne_text hname hgood, ih hrest]

end Attributes

end Stencil
