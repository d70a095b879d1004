/- source: adapters/pre-tool-use.ts, adapters/codex/pre-tool-use.ts
   digest: The relay from a native tool call to the write guard, and what it lets through. -/

import Kratos.Foundation.JsonParser
import Kratos.Foundation.Collections
import Kratos.Patterns
import Kratos.Relay.PatchHeaders
import Kratos.Relay.PatchRendering

set_option autoImplicit false

namespace Kratos.Relay

open Foundation.Text Foundation.JsonText
open Foundation.Collections (mapGet)

section Model

inductive ResultStatus
  | success | failure | blocked
deriving DecidableEq, Repr

/-- A validated operation result: the value, and the members that the relay reads of it. -/
structure OperationResult where
  value : Json
  status : ResultStatus
  exitCode : Int

structure PreToolRequest where
  contractVersion : JsString
  hostContract : JsString
  mutations : List Mutation
deriving DecidableEq, Repr

def preToolRequest (mutations : List Mutation) : PreToolRequest where
  contractVersion := js "1.0.0"
  hostContract := js "1.0.0"
  mutations := mutations

def uninspectablePreToolRequest : PreToolRequest where
  contractVersion := js "1.0.0"
  hostContract := js "1.0.0"
  mutations := []

inductive NormalizedPreToolUse
  | pass
  | guarded (request : PreToolRequest)
deriving DecidableEq, Repr

structure GuardExecution where
  exitCode : Option Int
  stdout : JsString
deriving DecidableEq, Repr

abbrev GuardExecutor := PreToolRequest → JsString → Option GuardExecution

inductive PreToolRelayResult
  | pass
  | allow (guardRequest : PreToolRequest) (operationResult : OperationResult)
  | deny (guardRequest : PreToolRequest) (operationResult : Option OperationResult)
      (stdout : JsString)

def record : Json → Option (List (JsString × Json))
  | .object members => some members
  | _ => none

def recordMember (value : Json) (key : JsString) : Option Json :=
  (record value).bind fun members => mapGet members key

def denial (reason : JsString) : JsString :=
  stringify compact 0
    (.object [(js "hookSpecificOutput", .object
      [(js "hookEventName", .string (js "PreToolUse")),
        (js "permissionDecision", .string (js "deny")),
        (js "permissionDecisionReason", .string reason)])]) ++ js "\n"

def invalidResultReason : JsString :=
  js "Kratos write guard did not return a valid operation result."

def isSlash (u : CodeUnit) : Bool := u == unit '\\' || u == unit '/'

/-- `^(?:\\\\|\/\/)[^\\/]+[\\/][^\\/]+`. -/
def uncPrefix (value : JsString) : Bool :=
  (startsWith value (js "\\\\") || startsWith value (js "//")) &&
    (match (value.drop 2).head? with
      | some u => !isSlash u
      | none => false) &&
    (match (value.drop 2).dropWhile fun u => !isSlash u with
      | _ :: u :: _ => !isSlash u
      | _ => false)

def absoluteNativePath (value : JsString) : Bool :=
  !value.isEmpty && value.all (fun u => !isControl u) &&
    (startsWith value (js "/") || Patterns.drivePrefix value || uncPrefix value)

def projectRoot (input : Json) : Option JsString :=
  match recordMember input (js "cwd") with
  | some (.string cwd) => if absoluteNativePath cwd then some cwd else none
  | _ => none

/-- `validateOperationResult` of the printed result, none where it throws, is given. -/
def relayPreToolUse (operationResult : Json → Option OperationResult) (input : Json)
    (normalized : NormalizedPreToolUse) (execute : GuardExecutor) : PreToolRelayResult :=
  match normalized with
  | .pass => .pass
  | .guarded request =>
  match projectRoot input with
  | none => .deny request none (denial invalidResultReason)
  | some root =>
  match execute request root with
  | none => .deny request none (denial invalidResultReason)
  | some execution =>
  match operationResult ((Foundation.JsonText.parse execution.stdout).getD .null) with
  | none => .deny request none (denial invalidResultReason)
  | some result =>
      if execution.exitCode ≠ some result.exitCode then
        .deny request none (denial invalidResultReason)
      else if result.status = .success ∧ result.exitCode = 0 then .allow request result
      else .deny request (some result) (denial (stringify compact 0 result.value))

def normalizeCodexPreToolUse (input : Json) : NormalizedPreToolUse :=
  match recordMember input (js "tool_name") with
  | some (.string toolName) =>
      if toolName ≠ js "apply_patch" then .pass
      else
        let mutations :=
          match (recordMember input (js "tool_input")).bind fun toolInput =>
              recordMember toolInput (js "command") with
          | some (.string command) => parsePatch command
          | _ => none
        match mutations with
        | none => .guarded uninspectablePreToolRequest
        | some mutations => .guarded (preToolRequest mutations)
  | _ => .guarded uninspectablePreToolRequest

def relayCodexPreToolUse (operationResult : Json → Option OperationResult) (input : Json)
    (execute : GuardExecutor) : PreToolRelayResult :=
  relayPreToolUse operationResult input (normalizeCodexPreToolUse input) execute

end Model

section Relay

/-- A native apply_patch call with its command. -/
structure PatchCall (input : Json) (command : JsString) : Prop where
  tool : recordMember input (js "tool_name") = some (.string (js "apply_patch"))
  command : ((recordMember input (js "tool_input")).bind fun toolInput =>
    recordMember toolInput (js "command")) = some (.string command)

/-- What an allowing answer of the relay rests on. -/
structure GuardAllowed (operationResult : Json → Option OperationResult) (input : Json)
    (execute : GuardExecutor) (request : PreToolRequest) (result : OperationResult) : Prop where
  guarded : normalizeCodexPreToolUse input = .guarded request
  executed : ∃ root execution, projectRoot input = some root ∧
    execute request root = some execution ∧ execution.exitCode = some 0 ∧
    operationResult ((Foundation.JsonText.parse execution.stdout).getD .null) = some result
  status : result.status = .success
  exitCode : result.exitCode = 0

theorem relayPreToolUse_allow {operationResult : Json → Option OperationResult} {input : Json}
    {normalized : NormalizedPreToolUse} {execute : GuardExecutor} {request : PreToolRequest}
    {result : OperationResult}
    (allowed : relayPreToolUse operationResult input normalized execute = .allow request result) :
    normalized = .guarded request ∧ ∃ root execution, projectRoot input = some root ∧
      execute request root = some execution ∧ execution.exitCode = some result.exitCode ∧
      operationResult ((Foundation.JsonText.parse execution.stdout).getD .null) = some result ∧
      result.status = .success ∧ result.exitCode = 0 := by
  unfold relayPreToolUse at allowed
  split at allowed
  · cases allowed
  split at allowed
  · cases allowed
  next asked root rooted =>
  split at allowed
  · cases allowed
  next execution ran =>
  split at allowed
  · cases allowed
  next found validated =>
  split at allowed
  · cases allowed
  next agreed =>
  split at allowed
  · next success =>
      injection allowed with sameRequest sameResult
      subst sameRequest sameResult
      exact ⟨rfl, root, execution, rooted, ran, not_not.mp agreed, validated, success⟩
  · cases allowed

theorem normalize_patch {input : Json} {ending : LineEnding} {closed : Bool}
    {wrapped : Option HereDocument} {operations : List FileOperation}
    (well : ∀ operation ∈ operations, operation.WellFormed)
    (call : PatchCall input (renderPatch ending closed wrapped operations)) :
    normalizeCodexPreToolUse input =
      .guarded (preToolRequest (operations.map FileOperation.mutation)) := by
  unfold normalizeCodexPreToolUse
  simp only [call.tool, call.command, parsePatch_render closed wrapped well]
  rw [if_neg (not_not.mpr rfl)]
  by_cases none : operations = []
  · subst none
    rfl
  · rw [if_neg none]

/-- The relay hands a rendered patch over as exactly its mutations, misses no header of any other
command it accepts, and allows a call only on a successful validated result. -/
theorem codex_relay_exact (operationResult : Json → Option OperationResult) :
    (∀ (ending : LineEnding) (closed : Bool) (wrapped : Option HereDocument)
      (operations : List FileOperation) (input : Json),
      (∀ operation ∈ operations, operation.WellFormed) →
      PatchCall input (renderPatch ending closed wrapped operations) →
      normalizeCodexPreToolUse input =
        .guarded (preToolRequest (operations.map FileOperation.mutation))) ∧
    (∀ (command : JsString) (mutations : List Mutation), parsePatch command = some mutations →
      mutations.flatMap Mutation.headers = commandHeaders command) ∧
    (∀ (input : Json) (execute : GuardExecutor) (request : PreToolRequest)
      (result : OperationResult),
      relayCodexPreToolUse operationResult input execute = .allow request result →
      GuardAllowed operationResult input execute request result) := by
  refine ⟨?_, ?_, ?_⟩
  · intro ending closed wrapped operations input well call
    exact normalize_patch well call
  · intro command mutations parsed
    exact parsePatch_headers parsed
  · intro input execute request result allowed
    obtain ⟨guarded, root, execution, rooted, ran, agreed, validated, status, exitCode⟩ :=
      relayPreToolUse_allow allowed
    rw [exitCode] at agreed
    exact ⟨guarded, ⟨root, execution, rooted, ran, agreed, validated⟩, status, exitCode⟩

private def sampleOperations : List FileOperation :=
  [.add (js "a.ts") [js "*** End Patch"], .delete (js "old name.ts"),
    .update (js "b.ts") (some (js "c.ts"))
      [⟨some (js "*** End of File"), [.context (js "*** Add File: d.ts"), .added []], true⟩]]

private def sampleCall : Json :=
  .object [(js "tool_name", .string (js "apply_patch")),
    (js "tool_input", .object
      [(js "command", .string (renderPatch .lf true (some .single) sampleOperations))])]

/-- Header texts in the contents of a patch give no mutation. -/
theorem imitated_headers_relayed :
    normalizeCodexPreToolUse sampleCall =
      .guarded (preToolRequest [.change .create (js "a.ts"), .change .delete (js "old name.ts"),
        .move (js "b.ts") (js "c.ts")]) :=
  (codex_relay_exact fun _ => none).1 .lf true (some .single) sampleOperations sampleCall
    (by decide +kernel) ⟨rfl, rfl⟩

end Relay

end Kratos.Relay
