import Stencil.Proofs.Json.Lexemes

/-!
# JSON read back

A printed document reads as the document (`Json.read_print`), if its objects have distinct names,
its integers are not too long to be read, it has no numbers with a fraction or an exponent
(`Json.Plain`), and there is room for its brackets.

Each part is read in front of whatever follows it: items and members up to the bracket that closes
them, a document up to anything that no number goes on with. A step of the reader costs one unit of
fuel, and each part has at least one code point for each step.
-/

set_option autoImplicit false

namespace Stencil

namespace Json

/-! ## Documents that can be read back -/

mutual

/-- Whether a document can be read back: its objects have distinct names, its integers are not too
long to be read, and all its numbers are integers. -/
def Plain : Json → Prop
  | .null => True
  | .bool _ => True
  | .int value => (natNumeral value.natAbs).length ≤ maxIntegerDigits
  | .float _ => False
  | .string _ => True
  | .array items => PlainItems items
  | .object members => (members.map Prod.fst).Nodup ∧ PlainMembers members

/-- Whether all items of an array can be read back. -/
def PlainItems : List Json → Prop
  | [] => True
  | item :: items => item.Plain ∧ PlainItems items

/-- Whether the values of all members of an object can be read back. -/
def PlainMembers : List (Text × Json) → Prop
  | [] => True
  | (_, value) :: members => value.Plain ∧ PlainMembers members

end

/-- Whether a text starts as a printed document can: with no blank, no bracket that closes an array,
and no byte order mark. -/
def Starts (text : Text) : Prop :=
  ∃ c rest, text = c :: rest ∧ isSpace c = false ∧ c ≠ ']' ∧ c ≠ '\ufeff'

theorem starts_of_isAsciiDigit {c : CodePoint} (hdigit : c.isAsciiDigit = true) (rest : Text) :
    Starts (c :: rest) := by
  refine ⟨c, rest, rfl, ?_, ?_, ?_⟩
  · rw [isSpace]
    by_contra hspace
    simp only [Bool.not_eq_false, Bool.or_eq_true, decide_eq_true_eq] at hspace
    rcases hspace with ((rfl | rfl) | rfl) | rfl <;> exact absurd hdigit (by decide)
  · rintro rfl
    exact absurd hdigit (by decide)
  · rintro rfl
    exact absurd hdigit (by decide)

theorem starts_printAt (indent : Nat) {document : Json} (h : document.Plain) :
    Starts (document.printAt indent) := by
  cases document with
  | null => exact ⟨'n', "ull", by rw [printAt]; rfl, by decide⟩
  | bool value =>
    cases value with
    | true => exact ⟨'t', "rue", by rw [printAt]; rfl, by decide⟩
    | false => exact ⟨'f', "alse", by rw [printAt]; rfl, by decide⟩
  | int value =>
    rw [printAt]
    cases value with
    | ofNat n =>
      obtain ⟨c, digits, hnumeral, hdigit⟩ := exists_natNumeral_eq_cons n
      rw [intNumeral, hnumeral]
      exact starts_of_isAsciiDigit hdigit digits
    | negSucc n => exact ⟨'-', _, rfl, by decide⟩
  | float value => exact absurd h (by simp [Plain])
  | string value => exact ⟨'"', _, by rw [printAt, quote], by decide⟩
  | array items =>
    rw [printAt]
    split
    · exact ⟨'[', "]", rfl, by decide⟩
    · exact ⟨'[', _, rfl, by decide⟩
  | object members =>
    rw [printAt]
    split
    · exact ⟨'\x7b', "\x7d", rfl, by decide⟩
    · exact ⟨'\x7b', _, rfl, by decide⟩

/-! ## Blanks between the parts -/

theorem skipSpace_lineBreak (indent : Nat) (text : Text) :
    skipSpace (lineBreak indent ++ text) = skipSpace text := by
  apply List.dropWhile_append_of_pos
  intro c hc
  rcases List.mem_cons.1 hc with rfl | hc
  · decide
  · rw [List.eq_of_mem_replicate hc]
    decide

theorem skipSpace_of_starts {text : Text} (h : Starts text) (rest : Text) :
    skipSpace (text ++ rest) = text ++ rest := by
  obtain ⟨c, tail, rfl, hspace, -⟩ := h
  exact List.dropWhile_cons_of_neg (by simp [hspace])

theorem endsNumber_cons {c : CodePoint}
    (h : c.isAsciiDigit = false ∧ c ≠ '.' ∧ c ≠ 'e' ∧ c ≠ 'E') (rest : Text) :
    EndsNumber (c :: rest) := by
  rintro d ⟨⟩
  exact h

/-! ## Words -/

theorem afterWord?_of_ne {c d : CodePoint} (h : c ≠ d) (word rest : Text) :
    afterWord? (c :: word) (d :: rest) = none := by
  simp [afterWord?, List.isPrefixOf, h]

/-! ## Documents -/

theorem setMember_of_not_mem {name : Text} {known : List (Text × Json)}
    (h : name ∉ known.map Prod.fst) (value : Json) :
    setMember name value known = known ++ [(name, value)] := by
  induction known with
  | nil => rfl
  | cons head rest ih =>
    obtain ⟨other, old⟩ := head
    rw [List.map_cons, List.mem_cons, not_or] at h
    rw [setMember, if_neg (Ne.symm h.1), ih h.2]
    rfl

/-! ### Items and members one by one -/

section Step

variable {fuel room : Nat} {tail more rest : Text}

/-- The last item of an array stands before the closing bracket. -/
theorem readItems_last {text : Text} {item : Json} (outer : Nat) (known : List Json)
    (hitem : readValue fuel room text = .ok (item, lineBreak outer ++ .scalar ']' :: rest)) :
    readItems (fuel + 1) room known text = .ok (.array (known.reverse ++ [item]), rest) := by
  have hclose : skipSpace (lineBreak outer ++ .scalar ']' :: rest) = .scalar ']' :: rest :=
    skipSpace_lineBreak outer _
  rw [readItems, hitem]
  dsimp only
  rw [hclose]
  dsimp only
  rw [if_pos rfl, List.reverse_cons]

/-- Behind any other item stands a comma. -/
theorem readItems_more {text : Text} {item : Json} (known : List Json)
    (hitem : readValue fuel room text = .ok (item, .scalar ',' :: more)) :
    readItems (fuel + 1) room known text =
      readItems fuel room (item :: known) (skipSpace more) := by
  have hcomma : skipSpace (.scalar ',' :: more) = .scalar ',' :: more :=
    List.dropWhile_cons_of_neg (by decide)
  rw [readItems, hitem]
  dsimp only
  rw [hcomma]
  dsimp only
  rw [if_neg (by decide), if_pos rfl]

/-- A member is its name, a colon and a blank, and its value. -/
theorem readMembers_value {name printed : Text} {value : Json} {c : CodePoint}
    (known : List (Text × Json)) (hprinted : Starts printed)
    (hvalue : readValue fuel room (printed ++ tail) = .ok (value, tail))
    (hafter : skipSpace tail = c :: rest) :
    readMembers (fuel + 1) room known (quote name ++ (": " : Text) ++ printed ++ tail) =
      if c = '\x7d' then .ok (.object (setMember name value known), rest)
      else if c = ',' then readMembers fuel room (setMember name value known) (skipSpace rest)
      else stopAt .expectingComma (c :: rest) := by
  have hname := readString_quoted name
  have hcolon : skipSpace (.scalar ':' :: .scalar ' ' :: (printed ++ tail)) =
      .scalar ':' :: .scalar ' ' :: (printed ++ tail) :=
    List.dropWhile_cons_of_neg (by decide)
  have hblank : skipSpace (.scalar ' ' :: (printed ++ tail)) = printed ++ tail := by
    rw [skipSpace, List.dropWhile_cons_of_pos (by decide)]
    exact skipSpace_of_starts hprinted tail
  have hshape : quote name ++ (": " : Text) ++ printed ++ tail =
      .scalar '"' :: (name.flatMap escape ++
        .scalar '"' :: .scalar ':' :: .scalar ' ' :: (printed ++ tail)) := by
    simp [quote, Text.ofString]
  rw [hshape, readMembers, if_neg (by simp), hname]
  dsimp only
  rw [hcolon]
  dsimp only
  rw [if_neg (by simp), hblank, hvalue]
  dsimp only
  rw [hafter]

theorem readMembers_last {name printed : Text} {value : Json} {known : List (Text × Json)}
    (outer : Nat) (hnew : name ∉ known.map Prod.fst) (hprinted : Starts printed)
    (hvalue : readValue fuel room (printed ++ (lineBreak outer ++ .scalar '\x7d' :: rest)) =
      .ok (value, lineBreak outer ++ .scalar '\x7d' :: rest)) :
    readMembers (fuel + 1) room known (quote name ++ (": " : Text) ++ printed ++
        (lineBreak outer ++ .scalar '\x7d' :: rest)) =
      .ok (.object (known ++ [(name, value)]), rest) := by
  have hclose : skipSpace (lineBreak outer ++ .scalar '\x7d' :: rest) = .scalar '\x7d' :: rest :=
    skipSpace_lineBreak outer _
  rw [readMembers_value known hprinted hvalue hclose, if_pos rfl, setMember_of_not_mem hnew]

theorem readMembers_more {name printed : Text} {value : Json} {known : List (Text × Json)}
    (hnew : name ∉ known.map Prod.fst) (hprinted : Starts printed)
    (hvalue : readValue fuel room (printed ++ .scalar ',' :: more) =
      .ok (value, .scalar ',' :: more)) :
    readMembers (fuel + 1) room known
        (quote name ++ (": " : Text) ++ printed ++ .scalar ',' :: more) =
      readMembers fuel room (known ++ [(name, value)]) (skipSpace more) := by
  have hcomma : skipSpace (.scalar ',' :: more) = .scalar ',' :: more :=
    List.dropWhile_cons_of_neg (by decide)
  rw [readMembers_value known hprinted hvalue hcomma, if_neg (by decide), if_pos rfl,
    setMember_of_not_mem hnew]

end Step

/-! ### Whole documents -/

theorem printItems_cons (indent : Nat) (item : Json) (items : List Json) :
    printItems indent (item :: items) =
      lineBreak indent ++
        (item.printAt indent ++ (separator items.isEmpty ++ printItems indent items)) := by
  rw [printItems, List.append_assoc, List.append_assoc]

theorem printMembers_cons (indent : Nat) (name : Text) (value : Json)
    (members : List (Text × Json)) :
    printMembers indent ((name, value) :: members) =
      lineBreak indent ++ (quote name ++ (": " : Text) ++ value.printAt indent ++
        (separator members.isEmpty ++ printMembers indent members)) := by
  rw [printMembers, List.append_assoc, List.append_assoc, List.append_assoc, List.append_assoc,
    List.append_assoc, List.append_assoc]

theorem printAt_array (indent : Nat) {items : List Json} (hne : items ≠ []) :
    (array items).printAt indent =
      .scalar '[' :: (printItems (indent + 1) items ++ (lineBreak indent ++ [.scalar ']'])) := by
  have hsome : ¬ items.isEmpty = true := by simpa using hne
  rw [printAt, if_neg hsome, List.append_assoc, List.append_assoc]
  rfl

theorem printAt_object (indent : Nat) {members : List (Text × Json)} (hne : members ≠ []) :
    (object members).printAt indent =
      .scalar '\x7b' ::
        (printMembers (indent + 1) members ++ (lineBreak indent ++ [.scalar '\x7d'])) := by
  have hsome : ¬ members.isEmpty = true := by simpa using hne
  rw [printAt, if_neg hsome, List.append_assoc, List.append_assoc]
  rfl

/-- Before the first item no array is closed. -/
theorem afterWord?_printItems (indent : Nat) {items : List Json} (hne : items ≠ [])
    (h : PlainItems items) (rest : Text) :
    afterWord? "]" (skipSpace (printItems indent items ++ rest)) = none := by
  cases items with
  | nil => exact absurd rfl hne
  | cons item items =>
    rw [PlainItems] at h
    have hstarts := starts_printAt indent h.1
    rw [printItems_cons, List.append_assoc, skipSpace_lineBreak, List.append_assoc,
      skipSpace_of_starts hstarts]
    obtain ⟨c, tail, hprinted, -, hbracket, -⟩ := hstarts
    rw [hprinted]
    exact afterWord?_of_ne (Ne.symm hbracket) [] _

theorem starts_quote (text : Text) : Starts (quote text) :=
  ⟨'"', _, rfl, by decide⟩

/-- The members of an object start with the name of the first one. -/
theorem skipSpace_printMembers (indent : Nat) (name : Text) (value : Json)
    (members : List (Text × Json)) (rest : Text) :
    skipSpace (printMembers indent ((name, value) :: members) ++ rest) =
      quote name ++ (": " : Text) ++ value.printAt indent ++
        (separator members.isEmpty ++ (printMembers indent members ++ rest)) := by
  rw [printMembers_cons, List.append_assoc, skipSpace_lineBreak, List.append_assoc,
    List.append_assoc, List.append_assoc, List.append_assoc,
    skipSpace_of_starts (starts_quote name)]
  simp only [List.append_assoc]

/-- Before the first member no object is closed. -/
theorem afterWord?_printMembers (indent : Nat) {members : List (Text × Json)} (hne : members ≠ [])
    (rest : Text) : afterWord? "\x7d" (skipSpace (printMembers indent members ++ rest)) = none := by
  cases members with
  | nil => exact absurd rfl hne
  | cons member members =>
    rw [skipSpace_printMembers]
    exact afterWord?_of_ne (by decide) [] _

/-- What is behind an opening bracket, and is not closed at once, is read as items. -/
theorem readValue_array (fuel room : Nat) {inside : Text}
    (hinside : afterWord? "]" (skipSpace inside) = none) :
    readValue (fuel + 1) (room + 1) (.scalar '[' :: inside) =
      readItems fuel room [] (skipSpace inside) := by
  rw [readValue, if_neg (by decide), if_neg (by decide), if_pos rfl, descend]
  dsimp only
  rw [hinside]

/-- What is behind an opening brace, and is not closed at once, is read as members. -/
theorem readValue_object (fuel room : Nat) {inside : Text}
    (hinside : afterWord? "\x7d" (skipSpace inside) = none) :
    readValue (fuel + 1) (room + 1) (.scalar '\x7b' :: inside) =
      readMembers fuel room [] (skipSpace inside) := by
  rw [readValue, if_neg (by decide), if_pos rfl, descend]
  dsimp only
  rw [hinside]

/-- The words that stand for documents. -/
def words : List Text :=
  ["null", "true", "false", "NaN", "Infinity", "-Infinity"]

/-- What starts neither a string nor an object, an array or a word is read as a number. -/
theorem readValue_number (fuel room : Nat) {c : CodePoint} {rest : Text}
    (hopens : c ≠ '"' ∧ c ≠ '\x7b' ∧ c ≠ '[')
    (hwords : ∀ word ∈ words, afterWord? word (c :: rest) = none) :
    readValue (fuel + 1) room (c :: rest) = readNumber (c :: rest) := by
  rw [readValue, if_neg hopens.1, if_neg hopens.2.1, if_neg hopens.2.2]
  simp only [words, List.forall_mem_cons, List.not_mem_nil, false_implies, implies_true] at hwords
  obtain ⟨hnull, htrue, hfalse, hnan, hinfinity, hminus, -⟩ := hwords
  simp only [hnull, htrue, hfalse, hnan, hinfinity, hminus]

theorem readValue_intNumeral (fuel room : Nat) {value : Int} {rest : Text}
    (hsize : (natNumeral value.natAbs).length ≤ maxIntegerDigits) (h : EndsNumber rest) :
    readValue (fuel + 1) room (intNumeral value ++ rest) = .ok (.int value, rest) := by
  rw [← readNumber_intNumeral hsize h]
  cases value with
  | ofNat n =>
    obtain ⟨c, digits, hnumeral, hdigit⟩ := exists_natNumeral_eq_cons n
    have hne : ∀ {d : CodePoint}, d.isAsciiDigit = false → d ≠ c := by
      rintro d hd rfl
      rw [hdigit] at hd
      cases hd
    rw [intNumeral, hnumeral, List.cons_append]
    apply readValue_number
    · exact ⟨Ne.symm (hne rfl), Ne.symm (hne rfl), Ne.symm (hne rfl)⟩
    · intro word hword
      simp only [words, List.mem_cons, List.not_mem_nil, or_false] at hword
      rcases hword with rfl | rfl | rfl | rfl | rfl | rfl <;> exact afterWord?_of_ne (hne rfl) _ _
  | negSucc n =>
    obtain ⟨c, digits, hnumeral, hdigit⟩ := exists_natNumeral_eq_cons (n + 1)
    have hletter : CodePoint.scalar 'I' ≠ c := by
      rintro rfl
      exact absurd hdigit (by decide)
    rw [intNumeral, hnumeral, List.cons_append, List.cons_append]
    apply readValue_number
    · decide
    · intro word hword
      simp only [words, List.mem_cons, List.not_mem_nil, or_false] at hword
      rcases hword with rfl | rfl | rfl | rfl | rfl | rfl
      iterate 5 exact afterWord?_of_ne (by decide) _ _
      -- The last word shares its sign with the numeral, but not its second letter.
      simp [afterWord?, Text.ofString, List.isPrefixOf, hletter]

mutual

/-- A printed document is read in front of anything that no number goes on with. -/
theorem readValue_printAt (indent : Nat) :
    ∀ (document : Json) (fuel room : Nat) (rest : Text), document.Plain → document.depth ≤ room →
      EndsNumber rest → (document.printAt indent).length ≤ fuel →
      readValue fuel room (document.printAt indent ++ rest) = .ok (document, rest)
  | document, 0, _, rest, h, _, _, hfuel => by
    obtain ⟨c, tail, hprinted, -⟩ := starts_printAt indent h
    rw [hprinted] at hfuel
    cases hfuel
  | .null, fuel + 1, _, rest, _, _, _, _ => rfl
  | .bool true, fuel + 1, _, rest, _, _, _, _ => rfl
  | .bool false, fuel + 1, _, rest, _, _, _, _ => rfl
  | .int value, fuel + 1, room, rest, h, _, hrest, _ => by
    rw [Plain] at h
    rw [printAt]
    exact readValue_intNumeral fuel room h hrest
  | .float _, _, _, _, h, _, _, _ => by
    rw [Plain] at h
    exact h.elim
  | .string value, fuel + 1, _, rest, _, _, _, _ => by
    rw [printAt, quote, List.cons_append, List.append_assoc, List.singleton_append, readValue,
      if_pos rfl, readString_quoted]
  | .array items, fuel + 1, room, rest, h, hdepth, _, hfuel => by
    rw [Plain] at h
    -- The brackets of the array take the room of one level.
    rw [depth] at hdepth
    obtain ⟨room, rfl⟩ : ∃ less, room = less + 1 := ⟨room - 1, by omega⟩
    by_cases hempty : items = []
    · subst hempty
      rw [printAt]
      rfl
    · rw [printAt_array indent hempty] at hfuel ⊢
      have hsize : (printItems (indent + 1) items).length ≤ fuel := by
        simp only [List.length_cons, List.length_append] at hfuel
        omega
      rw [List.cons_append, List.append_assoc, List.append_assoc,
        readValue_array fuel room (afterWord?_printItems _ hempty h _)]
      exact readItems_printItems (indent + 1) indent items [] fuel room rest hempty h
        (Nat.le_of_succ_le_succ hdepth) hsize
  | .object members, fuel + 1, room, rest, h, hdepth, _, hfuel => by
    rw [Plain] at h
    rw [depth] at hdepth
    obtain ⟨room, rfl⟩ : ∃ less, room = less + 1 := ⟨room - 1, by omega⟩
    by_cases hempty : members = []
    · subst hempty
      rw [printAt]
      rfl
    · rw [printAt_object indent hempty] at hfuel ⊢
      have hsize : (printMembers (indent + 1) members).length ≤ fuel := by
        simp only [List.length_cons, List.length_append] at hfuel
        omega
      rw [List.cons_append, List.append_assoc, List.append_assoc,
        readValue_object fuel room (afterWord?_printMembers _ hempty _)]
      exact readMembers_printMembers (indent + 1) indent members [] fuel room rest hempty h.1 h.2
        (Nat.le_of_succ_le_succ hdepth) hsize

/-- Printed items are read up to the bracket that closes their array. -/
theorem readItems_printItems (indent outer : Nat) :
    ∀ (items : List Json) (known : List Json) (fuel room : Nat) (rest : Text), items ≠ [] →
      PlainItems items → depthOf items ≤ room → (printItems indent items).length ≤ fuel →
      readItems fuel room known
          (skipSpace (printItems indent items ++ (lineBreak outer ++ .scalar ']' :: rest))) =
        .ok (.array (known.reverse ++ items), rest)
  | [], _, _, _, _, hne, _, _, _ => absurd rfl hne
  | item :: items, known, fuel, room, rest, _, h, hdepth, hfuel => by
    rw [PlainItems] at h
    rw [depthOf, Nat.max_le] at hdepth
    have hstarts := starts_printAt indent h.1
    rw [printItems_cons, List.length_append, List.length_append] at hfuel
    rw [printItems_cons, List.append_assoc, skipSpace_lineBreak, List.append_assoc,
      skipSpace_of_starts hstarts]
    -- The line break before an item is worth the unit of fuel that the item costs.
    have hbreak : (lineBreak indent).length = 2 * indent + 1 := by simp [lineBreak]
    obtain ⟨fuel, rfl⟩ : ∃ less, fuel = less + 1 := ⟨fuel - 1, by omega⟩
    cases items with
    | nil =>
      have hitem := readValue_printAt indent item fuel room (lineBreak outer ++ .scalar ']' :: rest)
        h.1 hdepth.1 (endsNumber_cons (by decide) _) (by omega)
      exact readItems_last outer known hitem
    | cons next items =>
      have hitem := readValue_printAt indent item fuel room
        (.scalar ',' ::
          (printItems indent (next :: items) ++ (lineBreak outer ++ .scalar ']' :: rest)))
        h.1 hdepth.1 (endsNumber_cons (by decide) _) (by omega)
      have hlater := readItems_printItems indent outer (next :: items) (item :: known) fuel room
        rest (List.cons_ne_nil _ _) h.2 hdepth.2 (by rw [List.length_append] at hfuel; omega)
      rw [List.reverse_cons, List.append_assoc] at hlater
      exact (readItems_more known hitem).trans hlater

/-- Printed members are read up to the bracket that closes their object. -/
theorem readMembers_printMembers (indent outer : Nat) :
    ∀ (members known : List (Text × Json)) (fuel room : Nat) (rest : Text), members ≠ [] →
      ((known ++ members).map Prod.fst).Nodup → PlainMembers members →
      depthOfMembers members ≤ room → (printMembers indent members).length ≤ fuel →
      readMembers fuel room known
          (skipSpace (printMembers indent members ++ (lineBreak outer ++ .scalar '\x7d' :: rest))) =
        .ok (.object (known ++ members), rest)
  | [], _, _, _, _, hne, _, _, _, _ => absurd rfl hne
  | (name, value) :: members, known, fuel, room, rest, _, hnodup, h, hdepth, hfuel => by
    rw [PlainMembers] at h
    rw [depthOfMembers, Nat.max_le] at hdepth
    have hstarts := starts_printAt indent h.1
    have hnew : name ∉ known.map Prod.fst := by
      rw [List.map_append, List.nodup_append] at hnodup
      exact fun hmem => hnodup.2.2 name hmem name List.mem_cons_self rfl
    rw [printMembers_cons] at hfuel
    simp only [List.length_append] at hfuel
    have hbreak : (lineBreak indent).length = 2 * indent + 1 := by simp [lineBreak]
    rw [skipSpace_printMembers]
    obtain ⟨fuel, rfl⟩ : ∃ less, fuel = less + 1 := ⟨fuel - 1, by omega⟩
    cases members with
    | nil =>
      have hvalue := readValue_printAt indent value fuel room
        (lineBreak outer ++ .scalar '\x7d' :: rest) h.1 hdepth.1 (endsNumber_cons (by decide) _)
        (by omega)
      exact readMembers_last outer hnew hstarts hvalue
    | cons next members =>
      have hvalue := readValue_printAt indent value fuel room
        (.scalar ',' ::
          (printMembers indent (next :: members) ++ (lineBreak outer ++ .scalar '\x7d' :: rest)))
        h.1 hdepth.1 (endsNumber_cons (by decide) _) (by omega)
      have hknown : known ++ [(name, value)] ++ next :: members =
          known ++ (name, value) :: next :: members := by simp
      have hlater := readMembers_printMembers indent outer (next :: members)
        (known ++ [(name, value)]) fuel room rest (List.cons_ne_nil _ _)
        (by rw [hknown]; exact hnodup) h.2 hdepth.2 (by omega)
      rw [hknown] at hlater
      exact (readMembers_more hnew hstarts hvalue).trans hlater

end

variable {document : Json} {host : Host}

/-- A printed document is read as the document. -/
theorem read_print (h : document.Plain) (hdepth : document.depth ≤ host.reading) :
    read host document.print = .ok document := by
  have hstarts := starts_printAt 0 h
  have hends : EndsNumber [] := fun c hc => by cases hc
  have hvalue := readValue_printAt 0 document (2 * (document.printAt 0).length + 1) host.reading []
    h hdepth hends (by omega)
  have hskip := skipSpace_of_starts hstarts []
  rw [List.append_nil] at hvalue hskip
  have hmark : ¬ Text.startsWith (document.printAt 0) "\ufeff" = true := by
    obtain ⟨c, tail, hprinted, -, -, hmark⟩ := hstarts
    rw [hprinted, Text.startsWith_iff]
    rintro ⟨rest, hrest⟩
    cases hrest
    exact hmark rfl
  rw [read, readWholeText, print, if_neg hmark, hskip, hvalue]
  rfl

end Json

end Stencil
