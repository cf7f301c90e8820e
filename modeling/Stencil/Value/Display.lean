import Stencil.Number.Numeral
import Stencil.Text.Quoted
import Stencil.Value.Basic

/-!
# Values as text

Where a request gives another value for a text, the value is written out: a string as it is, a
number by its numeral, a list or a mapping with all that it holds between brackets. Strings inside a
list or a mapping stand between quotes.

* `Moment.display`;
* `Value.shown`, a value inside another, and `Value.display`, a value on its own;
* `Value.fault?`, since integers of too many digits are not written, nor what is nested too deep.
-/

set_option autoImplicit false

namespace Stencil

/-- A number in at least `width` digits. -/
def paddedNumeral (width n : Nat) : Text :=
  let digits := natNumeral n
  zeros (width - digits.length) ++ digits

/-- The distance from universal time in hours and minutes. -/
def Zone.display (zone : Zone) : Text :=
  (if zone.minutes < 0 then ("-" : Text) else ("+" : Text)) ++
    paddedNumeral 2 (zone.minutes.natAbs / 60) ++ (":" : Text) ++
    paddedNumeral 2 (zone.minutes.natAbs % 60)

/-- A time of day, with a fraction of the second unless it is zero. -/
def Clock.display (clock : Clock) : Text :=
  paddedNumeral 2 clock.hour ++ (":" : Text) ++ paddedNumeral 2 clock.minute ++ (":" : Text) ++
    paddedNumeral 2 clock.second ++
    (if clock.microsecond = 0 then [] else ("." : Text) ++ paddedNumeral 6 clock.microsecond) ++
    (match clock.zone with
      | none => []
      | some zone => zone.display)

/-- A date, and behind a space its time of day. -/
def Moment.display (moment : Moment) : Text :=
  paddedNumeral 4 moment.year ++ ("-" : Text) ++ paddedNumeral 2 moment.month ++ ("-" : Text) ++
    paddedNumeral 2 moment.day ++
    (match moment.clock with
      | none => []
      | some clock => (" " : Text) ++ clock.display)

/-- A span of minutes inside a value: whole days, which may be negative, and seconds that are not.
-/
def shownSpan (minutes : Int) : Text :=
  let days := minutes.fdiv 1440
  let seconds := minutes.fmod 1440 * 60
  let parts :=
    (if days = 0 then [] else [("days=" : Text) ++ intNumeral days]) ++
      (if seconds = 0 then [] else [("seconds=" : Text) ++ intNumeral seconds])
  let span : Text := if parts.isEmpty then "0" else Text.join ", " parts
  ("datetime.timedelta(" : Text) ++ span ++ (")" : Text)

/-- The zone of a time inside a value, with its name. -/
def Zone.shown (zone : Zone) : Text :=
  ("datetime.timezone(" : Text) ++ shownSpan zone.minutes ++ (", " : Text) ++
    Text.quoted zone.name ++ (")" : Text)

/-- A date or a time inside a value, spelled out by its parts. -/
def Moment.shown (moment : Moment) : Text :=
  let date := [moment.year, moment.month, moment.day].map natNumeral
  match moment.clock with
  | none => ("datetime.date(" : Text) ++ Text.join ", " date ++ (")" : Text)
  | some clock =>
    let small :=
      if clock.microsecond ≠ 0 then [clock.second, clock.microsecond]
      else if clock.second ≠ 0 then [clock.second]
      else []
    let time := ([clock.hour, clock.minute] ++ small).map natNumeral
    let zone :=
      match clock.zone with
      | none => []
      | some zone => [("tzinfo=" : Text) ++ zone.shown]
    ("datetime.datetime(" : Text) ++ Text.join ", " (date ++ time ++ zone) ++ (")" : Text)

/-- Why a value is not written out: an integer in it has too many digits, or it is nested too deep.
-/
inductive Unwritable where
  | longInteger
  | tooDeep
  deriving DecidableEq, Repr

/-- How values write numbers without digits. -/
def plainWords : SpecialWords :=
  ⟨"inf", "nan"⟩

namespace Value

mutual

/-- A value inside another one. -/
def shown : Value → Text
  | .null => "None"
  | .bool true => "True"
  | .bool false => "False"
  | .int value => intNumeral value
  | .float value => value.numeral plainWords
  | .string value => Text.quoted value
  | .moment value => value.shown
  | .bytes value => Bytes.quoted value
  | .list items => ("[" : Text) ++ shownItems items ++ ("]" : Text)
  | .tuple items =>
    ("(" : Text) ++ shownItems items ++ (if items.length = 1 then ("," : Text) else []) ++
      (")" : Text)
  | .set items =>
    if items.isEmpty then "set()" else ("\x7b" : Text) ++ shownItems items ++ ("\x7d" : Text)
  | .mapping entries => ("\x7b" : Text) ++ shownEntries entries ++ ("\x7d" : Text)

/-- Values side by side, with commas between them. -/
def shownItems : List Value → Text
  | [] => []
  | item :: items =>
    shown item ++ (if items.isEmpty then [] else (", " : Text)) ++ shownItems items

/-- The entries of a mapping, with commas between them. -/
def shownEntries : List (Value × Value) → Text
  | [] => []
  | (key, value) :: entries =>
    shown key ++ (": " : Text) ++ shown value ++ (if entries.isEmpty then [] else (", " : Text)) ++
      shownEntries entries

end

/-- A value on its own: strings and moments as they are, all else as inside another value. -/
def display : Value → Text
  | .string value => value
  | .moment value => value.display
  | value => value.shown

/-- The text that a value stands for where a text may be left out: nothing for an empty value. -/
def displayOrEmpty (value : Value) : Text :=
  if value.isEmpty then [] else value.display

/-! ## What is not written -/

/-- What goes down by one level into a list or a mapping, if there is room for one more. -/
def within (inside : Nat → Option Unwritable) : Nat → Option Unwritable
  | 0 => some .tooDeep
  | room + 1 => inside room

mutual

/-- What stands in the way of writing a value with no more than `room` lists and mappings inside
each other: the first integer of too many digits or the first bracket that is too deep. -/
def fault? : Value → Nat → Option Unwritable
  | .int value, _ =>
    if maxIntegerDigits < (natNumeral value.natAbs).length then some .longInteger else none
  | .list items, room => within (itemsFault? items) room
  | .tuple items, room => within (itemsFault? items) room
  | .set items, room => within (itemsFault? items) room
  | .mapping entries, room => within (entriesFault? entries) room
  | _, _ => none

/-- What stands in the way of writing values side by side. -/
def itemsFault? : List Value → Nat → Option Unwritable
  | [], _ => none
  | item :: items, room => (item.fault? room).or (itemsFault? items room)

/-- What stands in the way of writing the entries of a mapping. -/
def entriesFault? : List (Value × Value) → Nat → Option Unwritable
  | [], _ => none
  | (key, value) :: entries, room =>
    ((key.fault? room).or (value.fault? room)).or (entriesFault? entries room)

end

end Value

end Stencil
