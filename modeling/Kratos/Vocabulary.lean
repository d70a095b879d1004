/- source: domain/workflow/model.ts, domain/model-roles/model.ts, schemas/state/event.v1.4.schema.json
   digest: The closed vocabularies every contract of the runtime shares. -/

import Kratos.Foundation.Text

set_option autoImplicit false

namespace Kratos

open Foundation.Text

inductive RunPhase
  | prd | spec | plan | code | review | acceptance
  deriving DecidableEq, Repr

/-- `RUN_PHASES`, in workflow order. -/
def runPhases : List RunPhase := [.prd, .spec, .plan, .code, .review, .acceptance]

def RunPhase.text : RunPhase → JsString
  | .prd => js "prd"
  | .spec => js "spec"
  | .plan => js "plan"
  | .code => js "code"
  | .review => js "review"
  | .acceptance => js "acceptance"

inductive ModelRole
  | planner | implementer | judge
  deriving DecidableEq, Repr

def ModelRole.text : ModelRole → JsString
  | .planner => js "planner"
  | .implementer => js "implementer"
  | .judge => js "judge"

/-- `PHASE_MODEL_ROLE`. -/
def phaseModelRole : RunPhase → ModelRole
  | .prd | .spec | .plan => .planner
  | .code => .implementer
  | .review | .acceptance => .judge

/-- The two diagnoses a stopped criterion may carry. -/
inductive Classification
  | code | specification
  deriving DecidableEq, Repr

def Classification.text : Classification → JsString
  | .code => js "code"
  | .specification => js "specification"

inductive RunStatus
  | idle | active | blocked | completed
  deriving DecidableEq, Repr

def RunStatus.text : RunStatus → JsString
  | .idle => js "idle"
  | .active => js "active"
  | .blocked => js "blocked"
  | .completed => js "completed"

inductive ContractVersion
  | v1_0 | v1_1 | v1_2 | v1_3 | v1_4
  deriving DecidableEq, Repr

def ContractVersion.text : ContractVersion → JsString
  | .v1_0 => js "1.0.0"
  | .v1_1 => js "1.1.0"
  | .v1_2 => js "1.2.0"
  | .v1_3 => js "1.3.0"
  | .v1_4 => js "1.4.0"

inductive EventType
  | operation | decision | transition | recovery
  deriving DecidableEq, Repr

def EventType.text : EventType → JsString
  | .operation => js "operation"
  | .decision => js "decision"
  | .transition => js "transition"
  | .recovery => js "recovery"

inductive EventEffect
  | none | state | artifact | stateAndArtifact
  deriving DecidableEq, Repr

def EventEffect.text : EventEffect → JsString
  | .none => js "none"
  | .state => js "state"
  | .artifact => js "artifact"
  | .stateAndArtifact => js "state-and-artifact"

inductive AcceptanceOutcome
  | passed | repair | stopped
  deriving DecidableEq, Repr

def AcceptanceOutcome.text : AcceptanceOutcome → JsString
  | .passed => js "passed"
  | .repair => js "repair"
  | .stopped => js "stopped"

end Kratos
