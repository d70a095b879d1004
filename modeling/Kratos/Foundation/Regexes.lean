/- source: none(language runtime)
   digest: The backtracking matcher of regular expressions with the unicode flag, and replacement. -/

import Kratos.Foundation.Utf8Decoding

set_option autoImplicit false

namespace Kratos.Foundation.Regexes

open Foundation.Text
open Foundation.Utf8 (unitsOfCodePoint)

/-- A pattern; with the unicode flag it reads code points. -/
inductive Regex
  | empty
  | one (test : Nat → Bool)
  | seq (first second : Regex)
  | alt (first second : Regex)
  | star (greedy : Bool) (body : Regex)
  | group (index : Nat) (body : Regex)
  | ahead (positive : Bool) (body : Regex)
  | boundary (test : Option Nat → Option Nat → Bool)

/-- Where the matcher stands: the point before, the points after, and the groups captured. -/
structure Place where
  before : Option Nat
  rest : List Nat
  groups : List (Nat × List Nat)

/-- The repetition of a step, each time with progress; the fuel is at least the points left. -/
def iterate (step : Place → (Place → Option Place) → Option Place) (greedy : Bool)
    (next : Place → Option Place) : Nat → Place → Option Place
  | 0, place => next place
  | fuel + 1, place =>
      let again := fun () => step place fun later =>
        if later.rest.length < place.rest.length then iterate step greedy next fuel later
        else none
      if greedy then (again ()).orElse fun () => next place
      else (next place).orElse again

/-- The first way of matching a pattern that the rest goes on from. -/
def matchFrom : Regex → Place → (Place → Option Place) → Option Place
  | .empty, place, next => next place
  | .one test, place, next =>
      match place.rest with
      | [] => none
      | point :: rest => if test point then next { place with before := some point, rest } else none
  | .seq first second, place, next =>
      matchFrom first place fun middle => matchFrom second middle next
  | .alt first second, place, next =>
      (matchFrom first place next).orElse fun () => matchFrom second place next
  | .star greedy body, place, next =>
      iterate (matchFrom body) greedy next place.rest.length place
  | .group index body, place, next =>
      matchFrom body place fun later =>
        let taken := place.rest.take (place.rest.length - later.rest.length)
        next { later with groups := (index, taken) :: later.groups }
  | .ahead positive body, place, next =>
      match matchFrom body place some, positive with
      | some later, true => next { place with groups := later.groups }
      | none, false => next place
      | _, _ => none
  | .boundary test, place, next => if test place.before place.rest.head? then next place else none

/-- The first place at which a pattern matches: the points passed over and where the match ends. -/
def search (pattern : Regex) : Option Nat → List Nat → Option (List Nat × Place)
  | before, [] => (matchFrom pattern { before, rest := [], groups := [] } some).map ([], ·)
  | before, point :: rest =>
      match matchFrom pattern { before, rest := point :: rest, groups := [] } some with
      | some place => some ([], place)
      | none => (search pattern (some point) rest).map fun found => (point :: found.1, found.2)

/-- `pattern.test(text)`. -/
def Regex.test (pattern : Regex) (text : JsString) : Bool :=
  (search pattern none (codePoints text)).isSome

/-- The replacement of every match, from left to right; after an empty one a point is kept. -/
def replaceFrom (pattern : Regex) (template : List (Nat × List Nat) → List Nat) :
    Nat → Option Nat → List Nat → List Nat
  | 0, _, points => points
  | fuel + 1, before, points =>
      match search pattern before points with
      | none => points
      | some (passed, place) =>
          if place.rest.length < points.length - passed.length then
            passed ++ template place.groups ++ replaceFrom pattern template fuel place.before place.rest
          else
            match place.rest with
            | [] => passed ++ template place.groups
            | point :: rest =>
                passed ++ template place.groups ++
                  point :: replaceFrom pattern template fuel (some point) rest

/-- `text.replace(pattern, template)` of a global pattern. -/
def Regex.replace (pattern : Regex) (template : List (Nat × List Nat) → List Nat)
    (text : JsString) : JsString :=
  (replaceFrom pattern template ((codePoints text).length + 1) none (codePoints text)).flatMap
    unitsOfCodePoint

section Notions

def points (literal : String) : List Nat := codePoints (js literal)

def Regex.any (test : Nat → Bool) : Regex := .one test

def Regex.word (literal : String) : Regex :=
  (points literal).foldr (fun point rest => .seq (.one (· == point)) rest) .empty

def Regex.wordAnyCase (literal : String) : Regex :=
  (points literal).foldr (fun point rest => .seq (.one (foldsTo point)) rest) .empty
where
  /-- Simple case folding to a lower-case letter, the Kelvin sign and the long s with it. -/
  foldsTo (letter point : Nat) : Bool :=
    point == letter || (0x61 ≤ letter && letter ≤ 0x7A && point + 0x20 == letter) ||
      (letter == 0x6B && point == 0x212A) || (letter == 0x73 && point == 0x17F)

def Regex.plus (body : Regex) : Regex := .seq body (.star true body)

def Regex.lazyPlus (body : Regex) : Regex := .seq body (.star false body)

def Regex.maybe (body : Regex) : Regex := .alt body .empty

/-- `body{count}`. -/
def Regex.times (count : Nat) (body : Regex) : Regex :=
  (List.replicate count body).foldr .seq .empty

/-- `body{0,most}`. -/
def Regex.upTo (most : Nat) (body : Regex) : Regex :=
  Nat.rec .empty (fun _ rest => .maybe (.seq body rest)) most

/-- `body{least,}`. -/
def Regex.atLeast (least : Nat) (body : Regex) : Regex := .seq (.times least body) (.star true body)

def Regex.oneOf (choices : List Regex) : Regex :=
  match choices with
  | [] => .one fun _ => false
  | first :: rest => rest.foldl .alt first

def Regex.sequence (parts : List Regex) : Regex := parts.foldr .seq .empty

def pointIn (low high : Char) (point : Nat) : Bool := low.toNat ≤ point && point ≤ high.toNat

def digitPoint (point : Nat) : Bool := pointIn '0' '9' point

def letterPoint (point : Nat) : Bool := pointIn 'a' 'z' point || pointIn 'A' 'Z' point

def alnumPoint (point : Nat) : Bool := letterPoint point || digitPoint point

/-- `\w`. -/
def wordPoint (point : Nat) : Bool := alnumPoint point || point == '_'.toNat

/-- `\w` where the pattern also ignores case. -/
def wordPointAnyCase (point : Nat) : Bool := wordPoint point || point == 0x17F || point == 0x212A

/-- `\s`. -/
def spacePoint (point : Nat) : Bool :=
  (0x09 ≤ point && point ≤ 0x0D) || point == 0x20 || point == 0xA0 || point == 0x1680 ||
    (0x2000 ≤ point && point ≤ 0x200A) || point == 0x2028 || point == 0x2029 || point == 0x202F ||
    point == 0x205F || point == 0x3000 || point == 0xFEFF

/-- `\b` under a notion of word characters. -/
def Regex.wordBoundary (isWord : Nat → Bool) : Regex :=
  .boundary fun before after => (before.map isWord).getD false != (after.map isWord).getD false

/-- `^`. -/
def Regex.start : Regex := .boundary fun before _ => before.isNone

/-- `$`. -/
def Regex.finish : Regex := .boundary fun _ after => after.isNone

def captured (groups : List (Nat × List Nat)) (index : Nat) : List Nat :=
  ((groups.find? fun entry => entry.1 == index).map Prod.snd).getD []

end Notions

example : (Regex.plus (.any digitPoint)).replace (fun _ => points "#") (js "a12b3") = js "a#b#" := by
  decide +kernel

end Kratos.Foundation.Regexes
