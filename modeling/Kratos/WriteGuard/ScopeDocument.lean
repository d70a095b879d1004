/- source: domain/write-guard/scope-document.ts
   digest: The scope sections of a summary: their line parser and their renderer. -/

import Kratos.Foundation.Pieces
import Kratos.Foundation.Utf8
import Kratos.WriteGuard.Glob

set_option autoImplicit false

namespace Kratos.WriteGuard

open Foundation.Text Foundation.Pieces
open Foundation.Lines (lineFeed)
open Patterns (literal)

structure FeatureScope where
  allow : List JsString
  deny : List JsString
deriving DecidableEq, Repr

inductive SummaryScopeParse
  | valid (scope : FeatureScope)
  | malformed (line : Nat)
deriving DecidableEq, Repr

def allowHeading : JsString := js "File allowlist"
def denyHeading : JsString := js "File denylist"

structure ScopeFence where
  kind : CodeUnit
  length : Nat
deriving DecidableEq, Repr

/-- Up to three blanks, and then a run of one marker. -/
def fenceRun (line : JsString) : Option (CodeUnit × Nat × JsString) :=
  let blanks := line.takeWhile (· == unit ' ')
  match line.drop blanks.length with
  | marker :: rest =>
      if blanks.length ≤ 3 ∧ (marker = unit '`' ∨ marker = unit '~') then
        some (marker, (rest.takeWhile (· == marker)).length + 1, rest.dropWhile (· == marker))
      else none
  | [] => none

/-- `` ^(?: {0,3})(`{3,}|~{3,}) ``. -/
def openingFence (line : JsString) : Option ScopeFence :=
  match fenceRun line with
  | some (marker, length, _) => if 3 ≤ length then some ⟨marker, length⟩ else none
  | none => none

/-- `` ^(?: {0,3})(`+|~+)[ \t]*$ ``, at least as long as what it closes. -/
def isClosingFence (line : JsString) (fence : ScopeFence) : Bool :=
  match fenceRun line with
  | some (marker, length, rest) =>
      (rest.all fun u => u == unit ' ' || u == unit '\t') && marker == fence.kind &&
        decide (fence.length ≤ length)
  | none => false

/-- `value.includes(part)`. -/
def includes (value part : JsString) : Bool :=
  startsWith value part ||
    match value with
    | [] => false
    | _ :: rest => includes rest part

/-- `\s*#*\s*$`. -/
def headingEnd (s : JsString) : Bool :=
  ((s.dropWhile isWhiteSpace).dropWhile (· == unit '#')).all isWhiteSpace

/-- `(.+?)\s*#*\s*$`: the shortest title. -/
def headingTitleFrom : JsString → Option JsString
  | [] => none
  | u :: rest =>
      if isLineTerminator u then none
      else if headingEnd rest then some [u]
      else (headingTitleFrom rest).map (u :: ·)

/-- `^(#{1,6})\s+(.+?)\s*#*\s*$`: the depth and the title, the blanks before the title as many as
the match allows. -/
def scopeHeading (line : JsString) : Option (Nat × JsString) :=
  let depth := (line.takeWhile (· == unit '#')).length
  let rest := line.drop depth
  let blanks := (rest.takeWhile isWhiteSpace).length
  if 1 ≤ depth ∧ depth ≤ 6 then
    ((List.range blanks).reverse.findSome? fun before => headingTitleFrom (rest.drop (before + 1))).map
      fun title => (depth, title)
  else none

/-- `` ^- `([^`]+)`\s*$ ``. -/
def scopeDeclaration (line : JsString) : Option JsString := do
  let rest ← literal (js "- `") line
  let pattern := rest.takeWhile fun u => !(u == unit '`')
  let rest ← literal (js "`") (rest.dropWhile fun u => !(u == unit '`'))
  if pattern ≠ [] ∧ rest.all isWhiteSpace = true then some pattern else none

inductive ScopeSection
  | allow | deny
deriving DecidableEq, Repr

/-- What hides lines from the sections: an open comment or an open fence. -/
structure Layer where
  comment : Bool
  fence : Option ScopeFence
deriving DecidableEq, Repr

/-- The layer after a hidden line; none when the line is read. -/
def Layer.hide (layer : Layer) (line : JsString) : Option Layer :=
  match layer.fence with
  | some fence => some (if isClosingFence line fence then { layer with fence := none } else layer)
  | none =>
  match openingFence line with
  | some fence => some { layer with fence := some fence }
  | none =>
      if layer.comment || startsWith (line.dropWhile isWhiteSpace) (js "<!--") then
        some { layer with comment := !includes line (js "-->") }
      else none

structure ScopeReader where
  allow : List JsString
  deny : List JsString
  section_ : Option ScopeSection
  sectionDepth : Option Nat
  seenAllow : Bool
  seenDeny : Bool
  layer : Layer
deriving DecidableEq, Repr

def ScopeReader.start : ScopeReader := ⟨[], [], none, none, false, false, ⟨false, none⟩⟩

/-- A heading closes the section that it does not lie under. -/
def ScopeReader.leave (reader : ScopeReader) (depth : Nat) : ScopeReader :=
  if reader.sectionDepth.any fun opened => decide (depth ≤ opened) then
    { reader with section_ := none, sectionDepth := none }
  else reader

/-- A heading opens the section it names, once. -/
def ScopeReader.enter (reader : ScopeReader) (depth : Nat) (title : JsString) :
    Option ScopeReader :=
  if depth ≠ 2 then some reader
  else if title = allowHeading then
    if reader.seenAllow then none
    else some { reader with seenAllow := true, section_ := some .allow, sectionDepth := some depth }
  else if title = denyHeading then
    if reader.seenDeny then none
    else some { reader with seenDeny := true, section_ := some .deny, sectionDepth := some depth }
  else some reader

def ScopeReader.add (reader : ScopeReader) (opened : ScopeSection) (pattern : JsString) :
    ScopeReader :=
  match opened with
  | .allow => { reader with allow := reader.allow ++ [pattern] }
  | .deny => { reader with deny := reader.deny ++ [pattern] }

/-- A line outside comments and fences; none where it is malformed. -/
def ScopeReader.readShown (reader : ScopeReader) (line : JsString) : Option ScopeReader :=
  match scopeHeading line with
  | some (depth, title) => (reader.leave depth).enter depth title
  | none =>
  match reader.section_ with
  | none => some reader
  | some opened =>
      if line.all isWhiteSpace then some reader
      else
        match scopeDeclaration line with
        | some pattern => if isPathGlob pattern then some (reader.add opened pattern) else none
        | none => none

def ScopeReader.read (reader : ScopeReader) (line : JsString) : Option ScopeReader :=
  match reader.layer.hide line with
  | some layer => some { reader with layer := layer }
  | none => reader.readShown line

def ScopeReader.finish (reader : ScopeReader) : SummaryScopeParse :=
  if !reader.seenAllow || !reader.seenDeny || reader.layer.comment || reader.layer.fence.isSome then
    .malformed 0
  else .valid ⟨reader.allow, reader.deny⟩

def readScope (index : Nat) (reader : ScopeReader) : List JsString → SummaryScopeParse
  | [] => reader.finish
  | line :: lines =>
      match reader.read line with
      | some reader => readScope (index + 1) reader lines
      | none => .malformed (index + 1)

def parseSummaryScope (content : JsString) : SummaryScopeParse :=
  readScope 0 .start (splitBreaks content)

def bullet (pattern : JsString) : JsString := js "- `" ++ pattern ++ js "`"

def renderSummaryScope (scope : FeatureScope) : Except String JsString :=
  if (scope.allow ++ scope.deny).all isPathGlob then
    .ok (List.intercalate [lineFeed]
      ([js "## File allowlist", []] ++ scope.allow.map bullet ++
        [[], js "## File denylist", []] ++ scope.deny.map bullet) ++ [lineFeed])
  else .error "Summary scope contains an unrenderable glob"

end Kratos.WriteGuard
