/- source: domain/hooks/index.ts, domain/cli/hook.ts, domain/cli/unlock.ts
   digest: The token usage of a run, its samples, its epochs and the stop-loss of the gates. -/

import Kratos.Foundation.Doubles
import Kratos.Foundation.Text

set_option autoImplicit false

namespace Kratos.Hooks

open Foundation.Text Foundation.Doubles

structure SessionUsage where
  sessionId : JsString
  cumulativeGrossTokens : Nat
  deriving DecidableEq, Repr

structure UsageEpoch where
  number : Nat
  baselineGrossTokens : Nat
  exhaustedAt : Option JsString
  deriving DecidableEq, Repr

/-- `RunUsageV1`; its contract versions are the same for all. -/
structure RunUsage where
  runId : JsString
  totalGrossTokens : Nat
  epoch : UsageEpoch
  sessions : List SessionUsage
  measurementFaultAt : Option JsString
  updatedAt : JsString
  deriving DecidableEq, Repr

structure UsageSample where
  sessionId : JsString
  cumulativeGrossTokens : Option Nat
  budget : Option Nat
  now : JsString
  deriving DecidableEq, Repr

structure StopLossState where
  tripped : Bool
  exhausted : Bool
  deriving DecidableEq, Repr

structure UsageSampleResult where
  usage : RunUsage
  stopLoss : StopLossState
  newlyObservedGrossTokens : Nat
  deriving DecidableEq, Repr

def initialRunUsage (runId now : JsString) : RunUsage where
  runId := runId
  totalGrossTokens := 0
  epoch := { number := 1, baselineGrossTokens := 0, exhaustedAt := none }
  sessions := []
  measurementFaultAt := none
  updatedAt := now

/-- The last cumulative value kept of a session, zero where there is none. -/
def previousTokens (sessions : List SessionUsage) (sessionId : JsString) : Nat :=
  ((sessions.find? fun session => session.sessionId == sessionId).map
    SessionUsage.cumulativeGrossTokens).getD 0

/-- `budget !== null && total - baseline >= budget`. -/
def spent (budget : Option Nat) (total baseline : Nat) : Bool :=
  match budget with
  | none => false
  | some budget => decide ((budget : Int) ≤ nearestInteger (total - baseline))

/-- `result(usage, budget, newlyObservedGrossTokens)`. -/
def sampleResult (usage : RunUsage) (budget : Option Nat) (newlyObservedGrossTokens : Nat) :
    UsageSampleResult where
  usage := usage
  newlyObservedGrossTokens := newlyObservedGrossTokens
  stopLoss := {
    tripped := usage.measurementFaultAt.isSome
    exhausted := usage.epoch.exhaustedAt.isSome ||
      spent budget usage.totalGrossTokens usage.epoch.baselineGrossTokens }

/-- The sessions with one of them at a new value, by their identifiers. -/
def withSession (localeCompare : JsString → JsString → Int) (sessions : List SessionUsage)
    (session : SessionUsage) : List SessionUsage :=
  ((sessions.filter fun other => other.sessionId != session.sessionId) ++ [session]).mergeSort
    fun left right => decide (localeCompare left.sessionId right.sessionId ≤ 0)

/-- The usage after a session was seen to have used more. -/
def accepted (localeCompare : JsString → JsString → Int) (current : RunUsage)
    (sample : UsageSample) (accepted delta : Nat) : RunUsage :=
  let totalGrossTokens := nearestDouble (current.totalGrossTokens + delta)
  let exhausted := current.epoch.exhaustedAt.isSome ||
    spent sample.budget totalGrossTokens current.epoch.baselineGrossTokens
  { current with
    totalGrossTokens := totalGrossTokens
    epoch := {
      current.epoch with
      exhaustedAt := current.epoch.exhaustedAt.or (if exhausted then some sample.now else none) }
    sessions := withSession localeCompare current.sessions
      { sessionId := sample.sessionId, cumulativeGrossTokens := accepted }
    updatedAt := sample.now }

def recordUsageSample (localeCompare : JsString → JsString → Int) (current : RunUsage)
    (sample : UsageSample) : UsageSampleResult :=
  match sample.cumulativeGrossTokens with
  | none =>
      if sample.budget.isNone || current.measurementFaultAt.isSome then
        sampleResult current sample.budget 0
      else
        sampleResult
          { current with measurementFaultAt := some sample.now, updatedAt := sample.now }
          sample.budget 0
  | some cumulativeGrossTokens =>
      let previous := previousTokens current.sessions sample.sessionId
      let greatest := max previous cumulativeGrossTokens
      let delta := greatest - previous
      if delta = 0 then sampleResult current sample.budget 0
      else sampleResult (accepted localeCompare current sample greatest delta) sample.budget delta

def unlockStopLoss (current : RunUsage) (now : JsString) : RunUsage := {
  current with
  epoch := {
    number := current.epoch.number + 1
    baselineGrossTokens := current.totalGrossTokens
    exhaustedAt := none }
  measurementFaultAt := none
  updatedAt := now }

/-- What the hook and the unlock command write: the usage and the stop-loss of the gates. -/
structure StopLossBooks where
  usage : RunUsage
  stopLoss : StopLossState
  deriving DecidableEq, Repr

/-- The hook's effects on the two: the gates keep what was set. -/
def hookSample (localeCompare : JsString → JsString → Int) (books : StopLossBooks)
    (sample : UsageSample) : StopLossBooks :=
  let sampled := recordUsageSample localeCompare books.usage sample
  { usage := sampled.usage
    stopLoss := {
      tripped := books.stopLoss.tripped || sampled.stopLoss.tripped
      exhausted := books.stopLoss.exhausted || sampled.stopLoss.exhausted } }

/-- The unlock command, which must name the run twice and leaves what is not latched. -/
def unlockCommand (books : StopLossBooks) (requested confirmation : Option JsString)
    (now : JsString) : StopLossBooks :=
  if requested ≠ some books.usage.runId then books
  else if confirmation.map trim ≠ some (js "UNLOCK " ++ books.usage.runId) then books
  else if !books.stopLoss.tripped && !books.stopLoss.exhausted then books
  else {
    usage := unlockStopLoss books.usage now
    stopLoss := { tripped := false, exhausted := false } }

end Kratos.Hooks
