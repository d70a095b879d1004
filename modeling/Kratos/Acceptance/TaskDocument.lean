/- source: domain/acceptance-criteria/parser.ts, domain/acceptance-criteria/model.ts
   digest: The line reader of task documents: fences, headings, sections and criterion declarations. -/

import Kratos.Foundation.Pieces
import Kratos.Patterns

set_option autoImplicit false

namespace Kratos.Acceptance

open Foundation.Text Foundation.Pieces
open Patterns (isAcceptanceCriterionId literal)

inductive AcceptanceCriterionKind
  | main | edge
deriving DecidableEq, Repr

inductive AcceptanceCriterionOutcome
  | passed | failed | notRun
deriving DecidableEq, Repr

structure AcceptanceCriterionDeclaration where
  criterionId : JsString
  workUnit : JsString
  task : JsString
  criterionKind : AcceptanceCriterionKind
  checked : Bool
  ordinal : Nat
  line : Nat
  text : JsString
  normalizedDeclaration : JsString
deriving DecidableEq, Repr

inductive TaskDocumentObservation
  | missing
  | malformed (line : Nat)
  | duplicate (criterionId : JsString)
  | valid (declarations : List AcceptanceCriterionDeclaration)
deriving DecidableEq, Repr

def MAX_CRITERIA : Nat := 126

/-- `\d+`, greedy, and what follows it. -/
def someDigits (s : JsString) : Option (JsString × JsString) :=
  if s.takeWhile isDigit = [] then none else some (s.takeWhile isDigit, s.dropWhile isDigit)

/-- `:\s+\S.*$`. -/
def headingTitle (s : JsString) : Bool :=
  match s with
  | colon :: blank :: rest =>
      colon == unit ':' && isWhiteSpace blank && !(rest.dropWhile isWhiteSpace).isEmpty &&
        (rest.dropWhile isWhiteSpace).all fun u => !isLineTerminator u
  | _ => false

/-- `^### Work unit (\d+):\s+\S.*$`. -/
def workUnitHeading (line : JsString) : Option JsString := do
  let rest ← literal (js "### Work unit ") line
  let (workUnit, rest) ← someDigits rest
  if headingTitle rest then some workUnit else none

/-- `^#### Task (\d+)\.(\d+):\s+\S.*$`. -/
def taskHeading (line : JsString) : Option (JsString × JsString) := do
  let rest ← literal (js "#### Task ") line
  let (workUnit, rest) ← someDigits rest
  let rest ← literal (js ".") rest
  let (task, rest) ← someDigits rest
  if headingTitle rest then some (workUnit, task) else none

/-- `^#{1,5}\s`, with the number of hashes. -/
def headingLevel (line : JsString) : Option Nat :=
  let hashes := line.takeWhile (· == unit '#')
  if 1 ≤ hashes.length ∧ hashes.length ≤ 5 ∧
      ((line.drop hashes.length).head?.map isWhiteSpace).getD false = true then
    some hashes.length
  else none

inductive Fence
  | tick | tilde
deriving DecidableEq, Repr

/-- The character of `` ^\s*(`{3,}|~{3,}) ``. -/
def fenceMarker (line : JsString) : Option Fence :=
  let rest := line.dropWhile isWhiteSpace
  if startsWith rest (js "```") then some .tick
  else if startsWith rest (js "~~~") then some .tilde
  else none

/-- The groups of `^- \[( |x)\] (\S+): (\S.*)$`: the run of visible units that carries the
identifier ends in the colon that a space follows. -/
def checkboxDeclaration (line : JsString) : Option (Bool × JsString × JsString) :=
  match line with
  | dash :: space :: bracket :: box :: rest =>
      if dash = unit '-' ∧ space = unit ' ' ∧ bracket = unit '[' ∧
          (box = unit ' ' ∨ box = unit 'x') then do
        let rest ← literal (js "] ") rest
        let run := rest.takeWhile fun u => !isWhiteSpace u
        let text ← literal (js " ") (rest.dropWhile fun u => !isWhiteSpace u)
        if run.getLast? = some (unit ':') ∧ run.dropLast ≠ [] ∧
            (text.head?.map fun u => !isWhiteSpace u).getD false = true ∧
            (text.all fun u => !isLineTerminator u) = true then
          some (decide (box = unit 'x'), run.dropLast, text)
        else none
      else none
  | _ => none

/-- The groups of a criterion identifier. -/
structure CriterionParts where
  workUnit : JsString
  task : JsString
  edge : Bool
  number : JsString
deriving DecidableEq, Repr

/-- `AC-(\d+)\.(\d+)\.(E?)(\d+)` and what follows it. -/
def criterionHead (s : JsString) : Option (CriterionParts × JsString) := do
  let rest ← literal (js "AC-") s
  let (workUnit, rest) ← someDigits rest
  let rest ← literal (js ".") rest
  let (task, rest) ← someDigits rest
  let rest ← literal (js ".") rest
  let edge := startsWith rest (js "E")
  let (number, rest) ← someDigits (if edge then rest.drop 1 else rest)
  some (⟨workUnit, task, edge, number⟩, rest)

/-- `^AC-(\d+)\.(\d+)\.(E?)(\d+)$`. -/
def criterionParts (s : JsString) : Option CriterionParts :=
  match criterionHead s with
  | some (parts, []) => some parts
  | _ => none

/-- Where the reader is in the document. -/
structure Position where
  fence : Option Fence
  workUnit : Option JsString
  task : Option JsString
  section_ : Option AcceptanceCriterionKind
deriving DecidableEq, Repr

def Position.start : Position := ⟨none, none, none, none⟩

/-- A criterion as its line declares it. -/
structure Declared where
  checked : Bool
  criterionId : JsString
  workUnit : JsString
  task : JsString
  criterionKind : AcceptanceCriterionKind
  text : JsString
deriving DecidableEq, Repr

inductive LineReading
  | moves (position : Position)
  | declares (declared : Declared)
  | malformed
deriving DecidableEq, Repr

/-- A line of a criterion section that begins as a list item. -/
def readDeclaration (position : Position) (kind : AcceptanceCriterionKind) (line : JsString) :
    LineReading :=
  match checkboxDeclaration line, position.workUnit, position.task with
  | some (checked, criterionId, text), some workUnit, some task =>
      if isAcceptanceCriterionId criterionId then
        match criterionParts criterionId with
        | some parts =>
            if parts.workUnit = workUnit ∧ parts.task = task ∧
                parts.edge = decide (kind = .edge) then
              .declares ⟨checked, criterionId, workUnit, task, kind, text⟩
            else .malformed
        | none => .malformed
      else .malformed
  | _, _, _ => .malformed

/-- `^- \[(?: |x)\] AC-`. -/
def strayDeclaration (line : JsString) : Bool :=
  startsWith line (js "- [ ] AC-") || startsWith line (js "- [x] AC-")

def readLine (position : Position) (line : JsString) : LineReading :=
  match fenceMarker line with
  | some kind =>
      .moves { position with
        fence := match position.fence with
          | none => some kind
          | some opened => if opened = kind then none else some opened }
  | none =>
  if position.fence.isSome then .moves position else
  match workUnitHeading line with
  | some workUnit =>
      .moves { position with workUnit := some workUnit, task := none, section_ := none }
  | none =>
  match taskHeading line with
  | some (workUnit, task) =>
      if position.workUnit = some workUnit then
        .moves { position with task := some task, section_ := none }
      else .malformed
  | none =>
  if line = js "##### Acceptance criteria" then .moves { position with section_ := some .main }
  else if line = js "##### Edge cases" then .moves { position with section_ := some .edge }
  else
  match headingLevel line with
  | some level =>
      .moves { position with
        workUnit := if level ≤ 2 then none else position.workUnit
        task := if level ≤ 3 then none else position.task
        section_ := none }
  | none =>
  match position.section_ with
  | none => if strayDeclaration line then .malformed else .moves position
  | some kind =>
      if startsWith line (js "- [") then readDeclaration position kind line
      else .moves position

def Declared.record (declared : Declared) (ordinal line : Nat) : AcceptanceCriterionDeclaration where
  criterionId := declared.criterionId
  workUnit := declared.workUnit
  task := declared.task
  criterionKind := declared.criterionKind
  checked := declared.checked
  ordinal := ordinal
  line := line
  text := declared.text
  normalizedDeclaration := js "- [ ] " ++ declared.criterionId ++ js ": " ++ declared.text

/-- The loop over the lines; the identifiers seen are those of the declarations so far. -/
def inspectLines (index : Nat) (position : Position)
    (declarations : List AcceptanceCriterionDeclaration) :
    List JsString → TaskDocumentObservation
  | [] => if declarations = [] then .malformed 0 else .valid declarations
  | line :: lines =>
      match readLine position line with
      | .moves position => inspectLines (index + 1) position declarations lines
      | .malformed => .malformed (index + 1)
      | .declares declared =>
          if declared.criterionId ∈ declarations.map (·.criterionId) then
            .duplicate declared.criterionId
          else if declarations.length = MAX_CRITERIA then .malformed (index + 1)
          else
            inspectLines (index + 1) position
              (declarations ++ [declared.record declarations.length (index + 1)]) lines

/-- Parse already-observed task-document bytes. -/
def inspectTaskDocument : Option JsString → TaskDocumentObservation
  | none => .missing
  | some content => inspectLines 0 .start [] (splitBreaks content)

/-- What the loop keeps of the declarations it has taken. -/
structure DeclaredApart (declarations : List AcceptanceCriterionDeclaration) : Prop where
  distinct : (declarations.map (·.criterionId)).Nodup
  bounded : declarations.length ≤ MAX_CRITERIA

theorem DeclaredApart.nil : DeclaredApart [] := ⟨List.nodup_nil, Nat.zero_le _⟩

private theorem DeclaredApart.concat {declarations : List AcceptanceCriterionDeclaration}
    {declaration : AcceptanceCriterionDeclaration} (apart : DeclaredApart declarations)
    (fresh : declaration.criterionId ∉ declarations.map (·.criterionId))
    (room : declarations.length ≠ MAX_CRITERIA) : DeclaredApart (declarations ++ [declaration]) := by
  constructor
  · rw [List.map_append, List.map_singleton]
    refine List.nodup_append.mpr ⟨apart.distinct, List.pairwise_singleton _ _, ?_⟩
    intro id inside other here same
    obtain rfl := List.mem_singleton.mp here
    exact fresh (same ▸ inside)
  · have bounded := apart.bounded
    rw [List.length_append, List.length_singleton]
    omega

theorem inspectLines_apart {lines : List JsString} {index : Nat} {position : Position}
    {before found : List AcceptanceCriterionDeclaration} (apart : DeclaredApart before)
    (accepted : inspectLines index position before lines = .valid found) :
    DeclaredApart found ∧ found ≠ [] := by
  induction lines generalizing index position before with
  | nil =>
      rw [inspectLines] at accepted
      split at accepted
      · cases accepted
      · next nonempty =>
          injection accepted with same
          exact same ▸ ⟨apart, nonempty⟩
  | cons line lines ih =>
      rw [inspectLines] at accepted
      split at accepted
      · exact ih apart accepted
      · cases accepted
      · split at accepted
        · cases accepted
        split at accepted
        · cases accepted
        · next fresh room => exact ih (apart.concat fresh room) accepted

/-- An accepted document declares at least one criterion, at most MAX_CRITERIA, and none twice. -/
theorem inspectTaskDocument_apart {document : Option JsString}
    {declarations : List AcceptanceCriterionDeclaration}
    (accepted : inspectTaskDocument document = .valid declarations) :
    DeclaredApart declarations ∧ declarations ≠ [] := by
  cases document with
  | none => cases accepted
  | some content => exact inspectLines_apart .nil accepted

end Kratos.Acceptance
