import Stencil.Text.Case
import Stencil.Value.Display
import Stencil.Yaml.Tag
import Stencil.Yaml.Cursor

/-!
# Values of scalars

What a scalar of each type stands for. A scalar gets its type by its form or by its tag, so the text
may still be none of that type.

* `Yaml.readBool`, `Yaml.readInt`, `Yaml.readFloating`, `Yaml.readBinary`, `Yaml.readMoment`;
* `Yaml.scalarValue`, by the type;
* `ScalarFault.message`, the words for a scalar without a value.
-/

set_option autoImplicit false

namespace Stencil

namespace Yaml

/-! ## Truth values and numbers -/

/-- The words for true in lower case. -/
def trueWords : List Text :=
  ["true", "yes", "y", "on"]

/-- The words for false in lower case. -/
def falseWords : List Text :=
  ["false", "no", "n", "off"]

/-- A truth value, in letters of any case. -/
def readBool (text : Text) : Except Failure Bool :=
  let word := Text.lower text
  if trueWords.contains word then .ok true
  else if falseWords.contains word then .ok false
  else .error .malformed

/-- A number without its underscores; no number is empty. -/
def withoutUnderscores (text : Text) : Except Failure Text :=
  match text.filter fun c => c ≠ .scalar '_' with
  | [] => .error .malformed
  | numeral => .ok numeral

/-- An integer in a base. -/
def integerIn (base : Nat) (numeral : Text) : Except Failure Int :=
  match readInteger base numeral with
  | .ok value => .ok value
  | .error fault => .error (.scalar (.numeral fault))

/-- An integer without its sign; what stands in front tells the base, and under the older rules a
zero means eight and colons mean sixty. -/
def unsignedInt (legacy : Bool) (numeral : Text) : Except Failure Int :=
  if numeral.startsWith "0b" then integerIn 2 (numeral.drop 2)
  else if numeral.startsWith "0x" then integerIn 16 (numeral.drop 2)
  else if numeral.startsWith "0o" then integerIn 8 (numeral.drop 2)
  else if legacy && numeral.startsWith "0" then integerIn 8 numeral
  else if legacy && numeral.contains ':' then do
    let parts ← (Text.splitOn ':' numeral).mapM (integerIn 10)
    return parts.foldl (fun value part => value * 60 + part) 0
  else integerIn 10 numeral

/-- An integer. -/
def readInt (legacy : Bool) (text : Text) : Except Failure Int := do
  let (negative, numeral) := splitSign (← withoutUnderscores text)
  let value ← unsignedInt legacy numeral
  return if negative then -value else value

/-- A decimal. -/
def decimal (numeral : Text) : Except Failure Binary64 :=
  match readFloat? numeral with
  | some value => .ok value
  | none => .error (.scalar (.invalidFloat numeral))

/-- The sum of the parts of a sexagesimal number, the last part first, each rounded when it is
added. -/
def sumSixtieths : List Binary64 → Nat → Binary64 → Binary64
  | [], _, sum => sum
  | part :: parts, unit, sum =>
    sumSixtieths parts (unit * 60) (sum.add (part.mul (.ofInt unit)))

/-- A number without its sign, in lower case; under the older rules colons mean sixty. -/
def unsignedFloating (legacy : Bool) (numeral : Text) : Except Failure Binary64 :=
  if numeral = (".inf" : Text) then .ok (.infinite false)
  else if numeral = (".nan" : Text) then .ok .nan
  else if legacy && numeral.contains ':' then do
    let parts ← (Text.splitOn ':' numeral).mapM decimal
    return sumSixtieths parts.reverse 1 (.ofInt 0)
  else decimal numeral

/-- A number with a fraction or an exponent. -/
def readFloating (legacy : Bool) (text : Text) : Except Failure Binary64 := do
  let (negative, numeral) := splitSign (Text.lower (← withoutUnderscores text))
  let value ← unsignedFloating legacy numeral
  return if negative then value.negate else value

/-! ## Bytes -/

/-- The six bits that a letter of a binary scalar stands for. -/
def sextet? (c : CodePoint) : Option Nat :=
  let n := c.value
  if 0x41 ≤ n ∧ n ≤ 0x5A then some (n - 0x41)
  else if 0x61 ≤ n ∧ n ≤ 0x7A then some (n - 0x61 + 26)
  else if 0x30 ≤ n ∧ n ≤ 0x39 then some (n - 0x30 + 52)
  else if n = 0x2B then some 62
  else if n = 0x2F then some 63
  else none

/-- The bytes of a row of letters, four of which make three bytes. `known` are the bits of the
letters of a group that is not full, `count` is how many those are, and `padding` counts the equal
signs behind them. Other code points are passed over, and what follows a padded group is ignored. -/
def bytesOf (known count padding : Nat) : Text → Except Failure Bytes
  | [] => if count = 0 then .ok [] else .error .malformed
  | c :: rest =>
    if c = '=' then
      if 2 ≤ count ∧ 4 ≤ count + padding + 1 then .ok []
      else bytesOf known count (if 2 ≤ count then padding + 1 else padding) rest
    else
      match sextet? c with
      | none => bytesOf known count padding rest
      | some bits =>
        let joined := known * 64 + bits
        if count = 0 then bytesOf joined 1 0 rest
        else
          let unit := if count = 1 then 16 else if count = 2 then 4 else 1
          match bytesOf (joined % unit) ((count + 1) % 4) 0 rest with
          | .ok more => .ok (UInt8.ofNat (joined / unit) :: more)
          | .error failure => .error failure

/-- The bytes of a binary scalar, which is written in ASCII alone. -/
def readBinary (text : Text) : Except Failure Bytes :=
  if text.all fun c => c.value < 0x80 then bytesOf 0 0 0 text else .error .malformed

/-! ## Dates and times -/

/-- Whether a year has 366 days. -/
def isLeapYear (year : Nat) : Bool :=
  (year % 4 = 0 && year % 100 ≠ 0) || year % 400 = 0

/-- How many days a month has. -/
def daysIn (year month : Nat) : Nat :=
  if month = 2 then (if isLeapYear year then 29 else 28)
  else if month = 4 ∨ month = 6 ∨ month = 9 ∨ month = 11 then 30
  else 31

/-- Refuses a scalar unless a condition holds. -/
def require (condition : Bool) (fault : ScalarFault) : Except Failure Unit :=
  if condition then .ok () else .error (.scalar fault)

/-- Refuses a date that no calendar has. -/
def checkDate (year month day : Nat) : Except Failure Unit := do
  require (1 ≤ year) (.year year)
  require (1 ≤ month && month ≤ 12) .month
  require (1 ≤ day && day ≤ daysIn year month) .day

/-- The day after a date. -/
def nextDay (moment : Moment) : Moment :=
  if moment.day < daysIn moment.year moment.month then { moment with day := moment.day + 1 }
  else if moment.month < 12 then { moment with month := moment.month + 1, day := 1 }
  else { moment with year := moment.year + 1, month := 1, day := 1 }

/-- A time one second later. -/
def addSecond (moment : Moment) (clock : Clock) : Moment :=
  let seconds := (clock.hour * 60 + clock.minute) * 60 + clock.second + 1
  let later :=
    { clock with
      hour := seconds / 3600 % 24
      minute := seconds / 60 % 60
      second := seconds % 60 }
  let moment := if seconds = 86400 then nextDay moment else moment
  { moment with clock := some later }

/-- The microseconds of a fraction, rounded at the seventh digit; they may come to a whole second.
-/
def microseconds (fraction : Text) : Nat :=
  let six := digitsValue (fraction.take 6 ++ zeros (6 - fraction.length))
  if (fraction[6]?).any fun c => 0x34 < c.value then six + 1 else six

/-- The zone of a time as it is written; the empty one stands for none. -/
def zoneOf (name : Text) : Except Failure (Option Zone) :=
  match name with
  | [] => .ok none
  | sign :: rest =>
    if sign = 'Z' then .ok (some ⟨0, name⟩)
    else
      let (hours, minutes) :=
        match Text.splitOn ':' rest with
        | [hours, minutes] => (digitsValue hours, digitsValue minutes)
        | _ => (digitsValue rest, 0)
      let size : Int := hours * 60 + minutes
      let distance := if sign = '-' then -size else size
      if -1440 < distance ∧ distance < 1440 then .ok (some ⟨distance, name⟩)
      else .error (.scalar (.zone distance))

/-- The moment that the parts of a date and time name. -/
def momentOf (stamp : Stamp) : Except Failure Moment := do
  let year := digitsValue stamp.year
  let month := digitsValue stamp.month
  let day := digitsValue stamp.day
  match stamp.clock with
  | none =>
    checkDate year month day
    return ⟨year, month, day, none⟩
  | some clock =>
    let zone ← zoneOf clock.zone
    checkDate year month day
    let hour := digitsValue clock.hour
    let minute := digitsValue clock.minute
    let second := digitsValue clock.second
    require (hour ≤ 23) .hour
    require (minute ≤ 59) .minute
    require (second ≤ 59) .second
    let fraction := microseconds clock.fraction
    let time : Clock := ⟨hour, minute, second, fraction % 1000000, zone⟩
    let moment : Moment := ⟨year, month, day, some time⟩
    return if fraction < 1000000 then moment else addSecond moment time

/-- A date, with or without a time of day. -/
def readMoment (text : Text) : Except Failure Moment :=
  match Stamp.ofText? text with
  | some stamp => momentOf stamp
  | none => .error .malformed

/-! ## By type -/

/-- The value of a scalar with a type; types of collections have no scalars. -/
def scalarValue (legacy : Bool) (tag : Tag) (text : Text) : Except Failure Value :=
  match tag with
  | .null => .ok .null
  | .string => .ok (.string text)
  | .bool => (readBool text).map Value.bool
  | .int => (readInt legacy text).map Value.int
  | .float => (readFloating legacy text).map Value.float
  | .binary => (readBinary text).map Value.bytes
  | .timestamp => (readMoment text).map Value.moment
  | _ => .error .malformed

/-- The words for a scalar without a value. -/
def ScalarFault.message : ScalarFault → Text
  | numeral (.invalid base text) =>
    ("invalid literal for int() with base " : Text) ++ natNumeral base ++ (": " : Text) ++
      (Text.quoted text).take 200
  | numeral (.huge digits) => hugeIntegerMessage digits
  | invalidFloat text => ("could not convert string to float: " : Text) ++ Text.quoted text
  | codePoint => "chr() arg not in range(0x110000)"
  | year number => ("year " : Text) ++ natNumeral number ++ (" is out of range" : Text)
  | month => "month must be in 1..12"
  | day => "day is out of range for month"
  | hour => "hour must be in 0..23"
  | minute => "minute must be in 0..59"
  | second => "second must be in 0..59"
  | zone minutes =>
    ("offset must be a timedelta strictly between -timedelta(hours=24) and " : Text) ++
      ("timedelta(hours=24), not " : Text) ++ shownSpan minutes ++ ("." : Text)

end Yaml

end Stencil
