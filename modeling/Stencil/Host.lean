import Stencil.Text.Basic

/-!
# What the program runs on

What is nested is gone through by recursion, and a call that is one too many is broken off. How many
there may be depends on what the program runs on and on the calls that are open already; so do the
words for a YAML text that is not well formed, since the reader of such texts is not part of the
program. All of that is a `Host`.

* `Descent`, the work that goes down level by level, with the words for one that goes too deep;
* `Host`, and `Host.usual`, one with a thousand calls.
-/

set_option autoImplicit false

namespace Stencil

/-- Work that goes down into what is nested, level by level: reading an array or an object,
composing a YAML document, writing a value as text, walking through the elements of markup, and
making the directories above one. -/
inductive Descent where
  | array
  | object
  | composition
  | value
  | markup
  | directory
  deriving DecidableEq, Repr

/-- The words for a descent that goes too deep. -/
def Descent.message (descent : Descent) : Text :=
  ("maximum recursion depth exceeded" : Text) ++
    (match descent with
      | array => (" while decoding a JSON array from a unicode string" : Text)
      | object => (" while decoding a JSON object from a unicode string" : Text)
      | value => (" while getting the repr of an object" : Text)
      | composition | markup | directory => [])

/-- What the program runs on: how many levels each descent may have, whatever calls the work on one
level takes, and what is said of a YAML text that is not well formed. There is always room for the
documents of a component, which have three levels. -/
structure Host where
  /-- Arrays and objects inside each other in a JSON text. -/
  reading : Nat
  /-- Sequences and mappings inside each other in a YAML text. -/
  composing : Nat
  /-- Arrays and objects inside each other in a document that is printed. -/
  printing : Nat
  /-- Lists and mappings inside each other in a value that is written as text. -/
  showing : Nat
  /-- Elements inside each other in markup whose elements are counted. -/
  counting : Nat
  /-- Elements inside each other in markup that is rendered. -/
  rendering : Nat
  /-- Directories that are missing above one that is made. -/
  directories : Nat
  /-- What is said of a YAML text that is not well formed. -/
  yamlReason : Text → Text
  documents : 3 ≤ reading ∧ 3 ≤ printing

/-- A host with a thousand calls, some of which are open already. Composing and rendering take three
calls for a level, all other work takes one. -/
def Host.usual : Host where
  reading := 950
  composing := 300
  printing := 950
  showing := 950
  counting := 950
  rendering := 300
  directories := 950
  yamlReason := fun _ => "not well formed"
  documents := by decide

end Stencil
