/- source: domain/hooks/index.ts, domain/cli/hook.ts
   digest: Failure candidates: their keys, their capture and the inbox that keeps them. -/

import Kratos.Hooks.Diagnostics
import Kratos.Memory.Chronology

set_option autoImplicit false

namespace Kratos.Hooks

open Foundation.Text Foundation.JsonText Foundation.Doubles Memory

inductive ToolFamily
  | file | shell | mcp | search | other
  deriving DecidableEq, Repr

def ToolFamily.text : ToolFamily → JsString
  | .file => js "file"
  | .shell => js "shell"
  | .mcp => js "mcp"
  | .search => js "search"
  | .other => js "other"

def failureClassText : FailureKind → JsString
  | .nonzeroExit => js "nonzero_exit"
  | .toolError => js "tool_error"
  | .timeout => js "timeout"
  | .denied => js "denied"
  | .unknown => js "unknown"

/-- What tells one failure from another. -/
structure CandidateIdentity where
  toolFamily : ToolFamily
  failureClass : FailureKind
  exitCode : Option (Fin 256)
  diagnostic : JsString
  deriving DecidableEq, Repr

structure FailureObservation extends CandidateIdentity where
  observedAt : JsString
  deriving DecidableEq, Repr

/-- `FailureCandidateV1`, and `FailureCandidateV1_1` with its counted observations. -/
structure FailureCandidate extends CurrentCandidate, CandidateIdentity
  deriving DecidableEq, Repr

def exitCodeJson : Option (Fin 256) → Json
  | none => .null
  | some exitCode => .integer exitCode.val

def identityJson (identity : CandidateIdentity) : Json :=
  .array [.string identity.toolFamily.text, .string (failureClassText identity.failureClass),
    exitCodeJson identity.exitCode,
    .string (normalizeCandidateDiagnostic identity.diagnostic)]

/-- What the normalization key of an identity is the digest of. -/
def identityText (identity : CandidateIdentity) : JsString :=
  stringify compact 0 (identityJson identity)

section Capture

variable (digest : JsString → JsString) (localeCompare : JsString → JsString → Int)

def candidateNormalizationKey (identity : CandidateIdentity) : JsString :=
  digest (identityText identity)

/-- The candidate of the same key, the first one by its identifier. -/
def matchingCandidate (observation : FailureObservation) (existing : List FailureCandidate) :
    Option FailureCandidate :=
  (existing.mergeSort fun left right =>
      decide (localeCompare left.candidateId right.candidateId ≤ 0)).find? fun candidate =>
    candidateNormalizationKey digest candidate.toCandidateIdentity ==
      candidateNormalizationKey digest observation.toCandidateIdentity

def reobserved (matched : FailureCandidate) (observedAt : JsString) : FailureCandidate := {
  matched with
  firstObservedAt := minText matched.firstObservedAt observedAt
  counted := some (nearestDouble (matched.observationCount + 1),
    maxText matched.lastObservedAt observedAt) }

def firstCandidate (observation : FailureObservation) : FailureCandidate where
  toCandidateIdentity := observation.toCandidateIdentity
  candidateId := candidateNormalizationKey digest observation.toCandidateIdentity
  firstObservedAt := observation.observedAt
  counted := some (1, observation.observedAt)

def captureCandidate (observation : FailureObservation) (existing : List FailureCandidate) :
    FailureCandidate :=
  match matchingCandidate digest localeCompare observation existing with
  | some matched => reobserved matched observation.observedAt
  | none => firstCandidate digest observation

/-- Writing `.brain/03-memory/candidates/<candidateId>.json`. -/
def writeCandidate (inbox : List FailureCandidate) (candidate : FailureCandidate) :
    List FailureCandidate :=
  if candidate.candidateId ∈ inbox.map (fun held => held.candidateId) then
    inbox.map fun held => if held.candidateId = candidate.candidateId then candidate else held
  else inbox ++ [candidate]

/-- The inbox after the capture of an observation. -/
def capture (inbox : List FailureCandidate) (observation : FailureObservation) :
    List FailureCandidate :=
  writeCandidate inbox (captureCandidate digest localeCompare observation inbox)

end Capture

end Kratos.Hooks
