/- source: none(language runtime)
   digest: JSON values and `JSON.stringify` in both of its layouts. -/

import Kratos.Foundation.Text
import Mathlib.Data.Bool.AllAny
import Mathlib.Data.List.Nodup

set_option autoImplicit false

namespace Kratos.Foundation.JsonText

open Foundation.Text

/-- A JSON value. A double that is not written as a safe integer keeps its literal; members
stand in insertion order. -/
inductive Json where
  | null
  | bool (value : Bool)
  | integer (value : Int)
  | double (literal : JsString)
  | string (value : JsString)
  | array (items : List Json)
  | object (members : List (JsString × Json))

/-- `Number.MAX_SAFE_INTEGER`. -/
def maxSafeInteger : Nat := 9007199254740991

def isSafeInteger (value : Int) : Bool := value.natAbs ≤ maxSafeInteger

def hexDigit (n : Nat) : CodeUnit :=
  if n % 16 < 10 then UInt16.ofNat (0x30 + n % 16) else UInt16.ofNat (0x57 + n % 16)

/-- `\uXXXX` in lower case. -/
def unicodeEscape (u : CodeUnit) : JsString :=
  js "\\u" ++ [hexDigit (u.toNat / 4096), hexDigit (u.toNat / 256), hexDigit (u.toNat / 16),
    hexDigit u.toNat]

def letterEscapes : List (CodeUnit × CodeUnit) :=
  [(unit '"', 0x22), (unit '\\', 0x5C), (unit 'b', 0x08), (unit 'f', 0x0C), (unit 'n', 0x0A),
    (unit 'r', 0x0D), (unit 't', 0x09)]

/-- One unit of a quoted string that is no surrogate. -/
def quoteUnit (u : CodeUnit) : JsString :=
  match letterEscapes.find? fun entry => entry.2 == u with
  | some (letter, _) => [unit '\\', letter]
  | none => if u.toNat < 0x20 then unicodeEscape u else [u]

def isSurrogate (u : CodeUnit) : Bool := isHighSurrogate u || isLowSurrogate u

/-- A lone surrogate is escaped, every other unit is quoted. -/
def quoteLone (u : CodeUnit) : JsString :=
  if isSurrogate u then unicodeEscape u else quoteUnit u

def quoteUnits : JsString → JsString
  | [] => []
  | [u] => quoteLone u
  | u :: v :: rest =>
      if isHighSurrogate u && isLowSurrogate v then u :: v :: quoteUnits rest
      else quoteLone u ++ quoteUnits (v :: rest)

/-- `JSON.stringify` of a string. -/
def quote (s : JsString) : JsString := unit '"' :: (quoteUnits s ++ [unit '"'])

/-- `JSON.stringify` of a safe integer. -/
def integerText (value : Int) : JsString :=
  if value < 0 then unit '-' :: decimal value.natAbs else decimal value.natAbs

/-- `[ \t\n\r]`. -/
def isJsonSpace (u : CodeUnit) : Bool :=
  u.toNat == 0x20 || u.toNat == 0x09 || u.toNat == 0x0A || u.toNat == 0x0D

/-- Where a serializer puts white space: before the entries of a nesting depth and after a
colon. -/
structure Layout where
  newline : Nat → JsString
  gap : JsString
  newline_blank : ∀ depth, ∀ u ∈ newline depth, isJsonSpace u = true
  gap_blank : ∀ u ∈ gap, isJsonSpace u = true

/-- `entries.join(",")` with the layout's line breaks. -/
def joinEntries (separator : JsString) : List JsString → JsString
  | [] => []
  | [entry] => entry
  | entry :: next :: rest => entry ++ unit ',' :: separator ++ joinEntries separator (next :: rest)

/-- The entries of an array or an object between their brackets. -/
def enclose (layout : Layout) (depth : Nat) (opening closing : Char) (entries : List JsString) :
    JsString :=
  if entries.isEmpty then [unit opening, unit closing]
  else
    unit opening :: layout.newline (depth + 1) ++
      joinEntries (layout.newline (depth + 1)) entries ++ layout.newline depth ++ [unit closing]

mutual

/-- `JSON.stringify(value)` in a layout. -/
def stringify (layout : Layout) (depth : Nat) : Json → JsString
  | .null => js "null"
  | .bool value => if value then js "true" else js "false"
  | .integer value => integerText value
  | .double literal => literal
  | .string value => quote value
  | .array items => enclose layout depth '[' ']' (stringifyItems layout (depth + 1) items)
  | .object members =>
      enclose layout depth '{' '}' (stringifyMembers layout (depth + 1) members)

def stringifyItems (layout : Layout) (depth : Nat) : List Json → List JsString
  | [] => []
  | item :: rest => stringify layout depth item :: stringifyItems layout depth rest

def stringifyMembers (layout : Layout) (depth : Nat) : List (JsString × Json) → List JsString
  | [] => []
  | (key, value) :: rest =>
      (quote key ++ unit ':' :: layout.gap ++ stringify layout depth value) ::
        stringifyMembers layout depth rest

end

/-- `JSON.stringify(value)`. -/
def compact : Layout where
  newline _ := []
  gap := []
  newline_blank := by simp
  gap_blank := by simp

/-- `JSON.stringify(value, null, 2)`. -/
def indented : Layout where
  newline depth := js "\n" ++ List.replicate (2 * depth) 0x20
  gap := js " "
  newline_blank := by
    intro depth u member
    rcases List.mem_append.mp member with line | spaces
    · obtain rfl := List.mem_singleton.mp line
      decide
    · obtain rfl := List.eq_of_mem_replicate spaces
      decide
  gap_blank := List.all_eq_true.mp (by decide)

end Kratos.Foundation.JsonText
