/- source: domain/repair-loop/artifact.ts
   digest: Repair-loop decisions bound to the artifacts that document them. -/

import Kratos.RepairLoop.Decision

set_option autoImplicit false

namespace Kratos.RepairLoop

open Foundation.Text Foundation.Collections Foundation.Runs Events

structure RepairLoopStopBinding where
  criterionId : JsString
  artifactRef : JsString
  artifactDigest : JsString
  deriving DecidableEq, Repr

/-- `byCriterion.get(criterionId)`. -/
def bindingOf (bindings : List RepairLoopStopBinding) (criterionId : JsString) :
    Option RepairLoopStopBinding :=
  mapGet (bindings.map fun binding => (binding.criterionId, binding)) criterionId

/-- `byCriterion.size`. -/
def boundCriteria (bindings : List RepairLoopStopBinding) : Nat :=
  (bindings.map (·.criterionId)).dedup.length

def bindStop (bindings : List RepairLoopStopBinding) (stop : RepairLoopStop) :
    Except String RepairStop :=
  match bindingOf bindings stop.criterionId with
  | none => .error "Repair stop binding is missing"
  | some binding =>
      .ok
        { criterionId := stop.criterionId
          attempt := stop.attempt
          classification := stop.classification
          artifactRef := binding.artifactRef
          artifactDigest := binding.artifactDigest }

/-- Bind a pure loop decision to immutable stop artifact references. -/
def buildAcceptanceDecisionMetadata (decision : RepairLoopDecision)
    (bindings : List RepairLoopStopBinding) : Except String AcceptanceDecision :=
  match decision with
  | .passed _ =>
      if bindings ≠ [] then .error "Repair stop bindings are unexpected"
      else .ok ⟨.passed, [], []⟩
  | .repair attempts =>
      if bindings ≠ [] then .error "Repair stop bindings are unexpected"
      else .ok ⟨.repair, attempts, []⟩
  | .stopped attempts stops =>
      if boundCriteria bindings ≠ stops.length then .error "Repair stop bindings are incomplete"
      else (stops.mapM (bindStop bindings)).map fun repairStops =>
        ⟨.stopped, attempts, repairStops⟩

/-- The stop a binding documents. -/
structure Bound (bindings : List RepairLoopStopBinding) (stop : RepairLoopStop)
    (bound : RepairStop) : Prop where
  criterion : bound.criterionId = stop.criterionId
  attempt : bound.attempt = stop.attempt
  reference : bound.artifactRef ∈ bindings.map (·.artifactRef)

theorem bindStop_ok {bindings : List RepairLoopStopBinding} {stop : RepairLoopStop}
    {bound : RepairStop} (stopped : bindStop bindings stop = .ok bound) :
    Bound bindings stop bound := by
  unfold bindStop at stopped
  split at stopped
  · cases stopped
  · rename_i binding found
    obtain rfl := Except.ok.inj stopped
    obtain ⟨entry, member, same⟩ := List.mem_map.mp (mapGet_mem found)
    obtain ⟨-, rfl⟩ := Prod.mk.inj same
    exact ⟨rfl, rfl, List.mem_map.mpr ⟨entry, member, rfl⟩⟩

inductive Metadata (bindings : List RepairLoopStopBinding) :
    RepairLoopDecision → AcceptanceDecision → Prop
  | passed (attempts : List AcceptanceAttempt) :
      Metadata bindings (.passed attempts) ⟨.passed, [], []⟩
  | repair (attempts : List AcceptanceAttempt) :
      Metadata bindings (.repair attempts) ⟨.repair, attempts, []⟩
  | stopped {attempts : List AcceptanceAttempt} {stops : List RepairLoopStop}
      {repairStops : List RepairStop} (each : List.Forall₂ (Bound bindings) stops repairStops) :
      Metadata bindings (.stopped attempts stops) ⟨.stopped, attempts, repairStops⟩

theorem buildAcceptanceDecisionMetadata_ok {decision : RepairLoopDecision}
    {bindings : List RepairLoopStopBinding} {metadata : AcceptanceDecision}
    (built : buildAcceptanceDecisionMetadata decision bindings = .ok metadata) :
    Metadata bindings decision metadata := by
  cases decision with
  | passed attempts =>
      obtain ⟨-, built⟩ := guard_ok_iff.mp built
      exact Except.ok.inj built ▸ .passed attempts
  | repair attempts =>
      obtain ⟨-, built⟩ := guard_ok_iff.mp built
      exact Except.ok.inj built ▸ .repair attempts
  | stopped attempts stops =>
      obtain ⟨-, built⟩ := guard_ok_iff.mp built
      cases bound : stops.mapM (bindStop bindings) with
      | error message =>
          rw [bound] at built
          cases built
      | ok repairStops =>
          rw [bound] at built
          obtain rfl := Except.ok.inj built
          exact .stopped ((mapM_ok_iff.mp bound).imp fun _ _ stopped => bindStop_ok stopped)

end Kratos.RepairLoop
