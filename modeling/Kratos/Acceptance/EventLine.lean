/- source: domain/cli/agent.ts, domain/events/parse.ts
   digest: The bytes of the line of an acceptance event, and of the paths it refers to. -/

import Kratos.Acceptance.Recording
import Kratos.Acceptance.RoundTrip
import Kratos.Locks.TransitionText
import Kratos.Schema.ByteLength

set_option autoImplicit false

namespace Kratos.Acceptance

open Foundation Foundation.Text Foundation.JsonText Foundation.Lines
open Patterns Schema Events RepairLoop Workflow
open Locks (plain_id plain_sha256 plain_append sha256_length)

section LineBytes

/-- `null` or a quoted text. -/
def nullableBytes (value : Option JsString) : Nat := (value.map stringBytes).getD 4

private theorem nullableText_bytes (value : Option JsString) :
    canonicalBytes (nullableText.encode value) = nullableBytes value := by
  rw [nullableText, canonicalBytes_nullable]
  cases value with
  | none => rfl
  | some text => simp [nullableBytes]

def identityBytes (identity : ObservedIdentity) : Nat :=
  28 + stringBytes identity.host + nullableBytes identity.model +
    nullableBytes (identity.effort.getD none)

private theorem identity_bytes {identity : ObservedIdentity} (shown : identity.effort.isSome = true) :
    canonicalBytes (observedIdentity.encode identity) = identityBytes identity := by
  obtain ⟨host, model, effort⟩ := identity
  obtain ⟨effort, rfl⟩ := Option.isSome_iff_exists.mp shown
  have shape : observedIdentity.encode ⟨host, model, some effort⟩ =
      .object [(js "host", text.encode host), (js "model", nullableText.encode model),
        (js "effort", nullableText.encode effort)] := rfl
  have keys : ([js "host", js "model", js "effort"].map stringBytes).sum = 21 := by decide
  rw [shape, canonicalBytes_object]
  simp only [List.map_cons, List.map_nil, List.sum_cons, List.sum_nil, canonicalBytes_text,
    nullableText_bytes, List.length_cons, List.length_nil] at keys ⊢
  simp only [identityBytes, Option.getD_some]
  omega

def attemptBytes (attempt : AcceptanceAttempt) : Nat :=
  27 + stringBytes attempt.criterionId + (decimal attempt.attempt).length

private theorem attempt_bytes (entry : AcceptanceAttempt) :
    canonicalBytes (attempt.encode entry) = attemptBytes entry := by
  have shape : attempt.encode entry = .object [(js "criterionId", text.encode entry.criterionId),
      (js "attempt", natural.encode entry.attempt)] := rfl
  have keys : ([js "criterionId", js "attempt"].map stringBytes).sum = 22 := by decide
  rw [shape, canonicalBytes_object]
  simp only [List.map_cons, List.map_nil, List.sum_cons, List.sum_nil, canonicalBytes_text,
    canonicalBytes_natural, List.length_cons, List.length_nil] at keys ⊢
  simp only [attemptBytes]
  omega

def repairStopBytes (stop : RepairStop) : Nat :=
  78 + stringBytes stop.criterionId + (decimal stop.attempt).length +
    stringBytes stop.classification.text + stringBytes stop.artifactRef +
    stringBytes stop.artifactDigest

private theorem repairStop_bytes (stop : RepairStop) :
    canonicalBytes (repairStop.encode stop) = repairStopBytes stop := by
  have shape : repairStop.encode stop =
      .object [(js "criterionId", text.encode stop.criterionId),
        (js "attempt", natural.encode stop.attempt),
        (js "classification", classification.encode stop.classification),
        (js "artifactRef", text.encode stop.artifactRef),
        (js "artifactDigest", text.encode stop.artifactDigest)] := rfl
  have keys : ([js "criterionId", js "attempt", js "classification", js "artifactRef",
      js "artifactDigest"].map stringBytes).sum = 67 := by decide
  rw [shape, canonicalBytes_object]
  simp only [List.map_cons, List.map_nil, List.sum_cons, List.sum_nil, canonicalBytes_text,
    canonicalBytes_natural, classification, canonicalBytes_enumeration, List.length_cons,
    List.length_nil] at keys ⊢
  simp only [repairStopBytes]
  omega

def decisionBytes (decision : AcceptanceDecision) : Nat :=
  43 + stringBytes decision.outcome.text + joinedLength (decision.attempts.map attemptBytes) +
    joinedLength (decision.repairStops.map repairStopBytes)

private theorem decision_bytes (decision : AcceptanceDecision) :
    canonicalBytes (acceptanceDecision.encode decision) = decisionBytes decision := by
  have shape : acceptanceDecision.encode decision =
      .object [(js "outcome", acceptanceOutcome.encode decision.outcome),
        (js "attempts", (list attempt).encode decision.attempts),
        (js "repairStops", (list repairStop).encode decision.repairStops)] := rfl
  have keys : ([js "outcome", js "attempts", js "repairStops"].map stringBytes).sum = 32 := by
    decide
  have attempts := funext attempt_bytes
  have stops := funext repairStop_bytes
  rw [shape, canonicalBytes_object]
  simp only [List.map_cons, List.map_nil, List.sum_cons, List.sum_nil, canonicalBytes_list,
    acceptanceOutcome, canonicalBytes_enumeration, attempts, stops, List.length_cons,
    List.length_nil] at keys ⊢
  simp only [decisionBytes]
  omega

def lineBytes (state : WorkflowState) (recording : AcceptanceRecording)
    (decision : RepairLoopDecision) (references : List JsString) (metadata : AcceptanceDecision) :
    Nat :=
  481 + stringBytes recording.eventId + stringBytes recording.occurredAt +
    stringBytes (acceptanceOperation recording.correlationId) + (decimal state.revision).length +
    (decimal (state.revision + 1)).length + stringBytes decision.reasonCode +
    joinedLength (references.map stringBytes) +
    joinedLength (recording.evidenceRefs.map stringBytes) +
    identityBytes (phaseIdentity recording.identity (some recording.execution)) +
    decisionBytes metadata

private theorem phaseIdentity_effort (identity : WorkflowIdentity)
    (execution : PhaseExecutionObservation) :
    (phaseIdentity identity (some execution)).effort.isSome = true := by
  obtain ⟨digest, model, effort, provenance⟩ := execution
  cases provenance <;> rfl

private theorem exact_two {first second : JsString × Json} (one : Exact first.2)
    (two : Exact second.2) : Exact (.object [first, second]) :=
  exact_object (List.forall_mem_cons.mpr ⟨one, List.forall_mem_singleton.mpr two⟩)

private theorem exact_nullableText (value : Option JsString) : Exact (nullableText.encode value) :=
  exact_nullable exact_text value

private theorem exact_texts (values : List JsString) : Exact ((list text).encode values) :=
  exact_list exact_text values

private theorem exact_identity (identity : ObservedIdentity)
    (shown : identity.effort.isSome = true) : Exact (observedIdentity.encode identity) := by
  obtain ⟨host, model, effort⟩ := identity
  obtain ⟨effort, rfl⟩ := Option.isSome_iff_exists.mp shown
  change Exact (.object [(js "host", text.encode host), (js "model", nullableText.encode model),
    (js "effort", nullableText.encode effort)])
  refine exact_object ?_
  simp only [List.forall_mem_cons, List.not_mem_nil, false_imp_iff, implies_true, and_true]
  exact ⟨exact_text host, exact_nullableText model, exact_nullableText effort⟩

private theorem exact_attempt (entry : AcceptanceAttempt) : Exact (attempt.encode entry) :=
  exact_two (exact_text entry.criterionId) (exact_natural entry.attempt)

private theorem exact_repairStop (stop : RepairStop) : Exact (repairStop.encode stop) := by
  change Exact (.object [(js "criterionId", text.encode stop.criterionId),
    (js "attempt", natural.encode stop.attempt),
    (js "classification", classification.encode stop.classification),
    (js "artifactRef", text.encode stop.artifactRef),
    (js "artifactDigest", text.encode stop.artifactDigest)])
  refine exact_object ?_
  simp only [List.forall_mem_cons, List.not_mem_nil, false_imp_iff, implies_true, and_true]
  exact ⟨exact_text _, exact_natural _, exact_enumeration _, exact_text _, exact_text _⟩

private theorem exact_decision (decision : AcceptanceDecision) :
    Exact (acceptanceDecision.encode decision) := by
  change Exact (.object [(js "outcome", acceptanceOutcome.encode decision.outcome),
    (js "attempts", (list attempt).encode decision.attempts),
    (js "repairStops", (list repairStop).encode decision.repairStops)])
  refine exact_object ?_
  simp only [List.forall_mem_cons, List.not_mem_nil, false_imp_iff, implies_true, and_true]
  exact ⟨exact_enumeration _, exact_list exact_attempt _, exact_list exact_repairStop _⟩

variable (state : WorkflowState) (recording : AcceptanceRecording)
  (decision : RepairLoopDecision) (bindings : List RepairLoopStopBinding)
  (metadata : AcceptanceDecision)

private theorem line_members (previousHash eventHash : JsString) :
    sealedEvent.encode
        ⟨commitAcceptance state recording decision bindings metadata, some previousHash, eventHash⟩ =
      .object
        [(js "contractVersion", contractVersion.encode .v1_2),
          (js "stateContract", contractVersion.encode .v1_2),
          (js "eventId", text.encode recording.eventId),
          (js "eventType", eventType.encode .decision),
          (js "occurredAt", text.encode recording.occurredAt),
          (js "operation", text.encode (acceptanceOperation recording.correlationId)),
          (js "policyVersion", text.encode workflowPolicyVersion),
          (js "priorRevision", natural.encode state.revision),
          (js "resultingRevision", natural.encode (state.revision + 1)),
          (js "reasonCode", text.encode decision.reasonCode),
          (js "effect", eventEffect.encode .stateAndArtifact),
          (js "artifactRefs",
            (list text).encode (recording.references ++ bindings.map (·.artifactRef))),
          (js "evidenceRefs", (list text).encode recording.evidenceRefs),
          (js "observedIdentity", observedIdentity.encode
            (phaseIdentity recording.identity (some recording.execution))),
          (js "previousHash", nullableText.encode (some previousHash)),
          (js "eventHash", text.encode eventHash),
          (js "gateFailures", (list gateFailure).encode []),
          (js "acceptanceDecision", acceptanceDecision.encode metadata)] := rfl

private theorem line_exact (previousHash eventHash : JsString) :
    Exact (sealedEvent.encode
      ⟨commitAcceptance state recording decision bindings metadata, some previousHash, eventHash⟩) := by
  rw [line_members]
  refine exact_object ?_
  simp only [List.forall_mem_cons, List.not_mem_nil, false_imp_iff, implies_true, and_true]
  have none : Exact ((list gateFailure).encode []) := by
    change Exact (.array [])
    rw [Exact]
    trivial
  exact ⟨exact_enumeration _, exact_enumeration _, exact_text _, exact_enumeration _, exact_text _,
    exact_text _, exact_text _, exact_natural _, exact_natural _, exact_text _, exact_enumeration _,
    exact_texts _, exact_texts _, exact_identity _ (phaseIdentity_effort _ _),
    exact_nullableText _, exact_text _, none, exact_decision _⟩

/-- The line takes the bytes its record gives it, whichever hashes chain it. -/
theorem line_length {previousHash eventHash : JsString} (previous : sha256Pattern previousHash = true)
    (hashed : sha256Pattern eventHash = true) :
    utf8Length (canonicalLine
        ⟨commitAcceptance state recording decision bindings metadata, some previousHash, eventHash⟩) =
      lineBytes state recording decision (recording.references ++ bindings.map (·.artifactRef))
        metadata := by
  have first : stringBytes previousHash = 66 := by
    rw [stringBytes_plain (plain_sha256 previous), sha256_length previous]
  have second : stringBytes eventHash = 66 := by
    rw [stringBytes_plain (plain_sha256 hashed), sha256_length hashed]
  have keys : ((sealedEventKeys.take 17 ++ [js "acceptanceDecision"]).map stringBytes).sum = 249 := by
    decide
  have words : stringBytes (ContractVersion.text .v1_2) = 7 ∧
      stringBytes (EventType.text .decision) = 10 ∧ stringBytes workflowPolicyVersion = 13 ∧
      stringBytes (EventEffect.text .stateAndArtifact) = 20 := by decide
  obtain ⟨version, kind, policy, effect⟩ := words
  rw [canonicalLine, utf8Length_canonicalizeJson (line_exact ..), line_members,
    canonicalBytes_object]
  have names : sealedEventKeys.take 17 ++ [js "acceptanceDecision"] =
      [js "contractVersion", js "stateContract", js "eventId", js "eventType", js "occurredAt",
        js "operation", js "policyVersion", js "priorRevision", js "resultingRevision",
        js "reasonCode", js "effect", js "artifactRefs", js "evidenceRefs", js "observedIdentity",
        js "previousHash", js "eventHash", js "gateFailures", js "acceptanceDecision"] := rfl
  have texts : ∀ values : List JsString, canonicalBytes ((list text).encode values) =
      joinedLength (values.map stringBytes) + 2 := by
    intro values
    have each : (fun value : JsString => canonicalBytes (text.encode value)) = stringBytes :=
      funext canonicalBytes_text
    rw [canonicalBytes_list, each]
  rw [names] at keys
  simp only [List.map_cons, List.map_nil] at keys ⊢
  rw [keys]
  simp only [List.sum_cons, List.sum_nil, canonicalBytes_text, canonicalBytes_natural,
    contractVersion, eventType, eventEffect, canonicalBytes_enumeration, texts, canonicalBytes_list,
    nullableText_bytes, identity_bytes (phaseIdentity_effort _ _), decision_bytes, version, kind,
    policy, effect, first, second, nullableBytes, Option.map_some, Option.getD_some, List.map_nil,
    List.length_cons, List.length_nil, joinedLength, List.sum_nil]
  unfold lineBytes joinedLength
  omega

end LineBytes

section Paths

private theorem plain_someDigits {s digits rest : JsString}
    (found : someDigits s = some (digits, rest)) : s = digits ++ rest ∧ Plain digits := by
  unfold someDigits at found
  split at found
  · cases found
  · injection found with found
    injection found with taken left
    rw [← taken, ← left]
    exact ⟨(List.takeWhile_append_dropWhile).symm,
      fun u member => isPlain_digit (List.mem_takeWhile_imp member)⟩

theorem plain_criterion {criterionId : JsString} {parts : CriterionParts}
    (found : criterionParts criterionId = some parts) : Plain criterionId := by
  unfold criterionParts at found
  split at found
  · next groups head =>
      simp only [criterionHead, bind, Option.bind_eq_some_iff] at head
      obtain ⟨s₁, opening, ⟨workUnit, s₂⟩, unitDigits, s₃, dot, ⟨task, s₄⟩, taskDigits, s₅, dot',
        ⟨number, s₆⟩, numberDigits, final⟩ := head
      injection final with final
      injection final with _ ended
      rw [literal_eq_some_iff] at opening dot dot'
      obtain ⟨unitText, plainUnit⟩ := plain_someDigits unitDigits
      obtain ⟨taskText, plainTask⟩ := plain_someDigits taskDigits
      obtain ⟨numberText, plainNumber⟩ := plain_someDigits numberDigits
      simp only at dot dot' ended
      subst ended
      have last : Plain s₅ := by
        split at numberText
        · next begins =>
            obtain ⟨tail, rfl⟩ := (startsWith_iff s₅ _).mp begins
            have edge : Plain (js "E") := List.all_iff_forall_prop.mp (by decide)
            have shown : tail = number ++ [] := numberText
            rw [shown, List.append_nil]
            exact plain_append edge plainNumber
        · rw [numberText, List.append_nil]
          exact plainNumber
      have head : Plain (js "AC-") := List.all_iff_forall_prop.mp (by decide)
      have point : Plain (js ".") := List.all_iff_forall_prop.mp (by decide)
      rw [opening, unitText, dot, taskText, dot']
      exact plain_append head (plain_append plainUnit (plain_append point
        (plain_append plainTask (plain_append point last))))
  · cases found

private theorem plain_feature {feature : JsString} (valid : featurePattern feature = true) :
    Plain feature := by
  have each : ∀ n : Nat, n < 0x80 → (isLowerAlpha (UInt16.ofNat n) || isDigit (UInt16.ofNat n) ||
      UInt16.ofNat n == unit '-') = true → isPlain (UInt16.ofNat n) = true := by decide +kernel
  have units : ∀ u : CodeUnit, (isLowerAlpha u || isDigit u || u == unit '-') = true →
      isPlain u = true := by
    intro u valid
    have small : u.toNat < 0x80 := by
      simp only [isLowerAlpha, isDigit, between, Bool.or_eq_true, Bool.and_eq_true,
        decide_eq_true_eq, beq_iff_eq] at valid
      have z : 'z'.toNat = 0x7A := rfl
      have nine : '9'.toNat = 0x39 := rfl
      rcases valid with (lower | digit) | rfl
      · omega
      · omega
      · decide
    have same : UInt16.ofNat u.toNat = u := UInt16.ofNat_toNat
    exact same ▸ each u.toNat small (same.symm ▸ valid)
  cases feature with
  | nil => cases valid
  | cons first rest =>
      simp only [featurePattern, Bool.and_eq_true, List.all_eq_true] at valid
      intro u member
      rcases List.mem_cons.mp member with rfl | inside
      · exact units u (by rw [valid.1.1, Bool.true_or])
      · exact units u (valid.2 u inside)

/-- The identifiers the paths of an event are made of are allowed ones. -/
structure Allowed (observation : AcceptanceObservation) : Prop where
  feature : featurePattern observation.feature = true
  runId : idPattern observation.runId = true
  eventId : idPattern observation.eventId = true

variable {observation : AcceptanceObservation}

/-- A text quoted as it stands, with its length. -/
def Shown (text : JsString) (length : Nat) : Prop := Plain text ∧ text.length = length

private theorem Shown.append {left right : JsString} {first second : Nat} (one : Shown left first)
    (two : Shown right second) : Shown (left ++ right) (first + second) := by
  refine ⟨plain_append one.1 two.1, ?_⟩
  rw [List.length_append, one.2, two.2]

private theorem shown_self {text : JsString} (plain : Plain text) : Shown text text.length :=
  ⟨plain, rfl⟩

theorem Shown.bytes {text : JsString} {length : Nat} (shown : Shown text length) :
    stringBytes text = length + 2 := by
  rw [stringBytes_plain shown.1, shown.2]

/-- The units of `.brain/02-features/<feature>/runs/<runId>`. -/
def AcceptanceObservation.rootLength (observation : AcceptanceObservation) : Nat :=
  25 + observation.feature.length + observation.runId.length

private theorem shown_root (allowed : Allowed observation) :
    Shown observation.runRoot observation.rootLength := by
  have head : Shown (js ".brain/02-features/") 19 := ⟨List.all_iff_forall_prop.mp (by decide), rfl⟩
  have runs : Shown (js "/runs/") 6 := ⟨List.all_iff_forall_prop.mp (by decide), rfl⟩
  have whole := ((head.append (shown_self (plain_feature allowed.feature))).append runs).append
    (shown_self (plain_id allowed.runId))
  refine ⟨whole.1, whole.2.trans ?_⟩
  simp only [AcceptanceObservation.rootLength]
  omega

theorem shown_document (allowed : Allowed observation) :
    Shown observation.documentRef (31 + observation.feature.length) := by
  have head : Shown (js ".brain/02-features/") 19 := ⟨List.all_iff_forall_prop.mp (by decide), rfl⟩
  have tail : Shown (js "/02-tasks.md") 12 := ⟨List.all_iff_forall_prop.mp (by decide), rfl⟩
  have whole := (head.append (shown_self (plain_feature allowed.feature))).append tail
  exact ⟨whole.1, whole.2.trans (by omega)⟩

theorem shown_output (allowed : Allowed observation) :
    Shown observation.outputRef (observation.rootLength + 29) := by
  have tail : Shown (js "/agent-output/acceptance.json") 29 :=
    ⟨List.all_iff_forall_prop.mp (by decide), rfl⟩
  exact (shown_root allowed).append tail

theorem shown_criteria (allowed : Allowed observation) :
    Shown observation.criteriaRef (observation.rootLength + observation.eventId.length + 26) := by
  have middle : Shown (js "/acceptance/criteria/") 21 :=
    ⟨List.all_iff_forall_prop.mp (by decide), rfl⟩
  have tail : Shown (js ".json") 5 := ⟨List.all_iff_forall_prop.mp (by decide), rfl⟩
  have whole := (((shown_root allowed).append middle).append
    (shown_self (plain_id allowed.eventId))).append tail
  exact ⟨whole.1, whole.2.trans (by omega)⟩

private theorem shown_artifact (allowed : Allowed observation) {directory criterionId : JsString}
    {length : Nat} (named : Shown directory length) (plain : Plain criterionId) :
    Shown (observation.runRoot ++ directory ++ observation.eventId ++ js "/" ++ criterionId ++
        js ".json")
      (observation.rootLength + observation.eventId.length + criterionId.length + length + 6) := by
  have slash : Shown (js "/") 1 := ⟨List.all_iff_forall_prop.mp (by decide), rfl⟩
  have tail : Shown (js ".json") 5 := ⟨List.all_iff_forall_prop.mp (by decide), rfl⟩
  have whole := (((((shown_root allowed).append named).append
    (shown_self (plain_id allowed.eventId))).append slash).append (shown_self plain)).append tail
  exact ⟨whole.1, whole.2.trans (by omega)⟩

theorem shown_verdict (allowed : Allowed observation) {criterionId : JsString}
    (plain : Plain criterionId) :
    Shown (observation.verdictRef criterionId)
      (observation.rootLength + observation.eventId.length + criterionId.length + 21 + 6) :=
  shown_artifact allowed ⟨List.all_iff_forall_prop.mp (by decide), rfl⟩ plain

theorem shown_stop (allowed : Allowed observation) {criterionId : JsString}
    (plain : Plain criterionId) :
    Shown (observation.stopRef criterionId)
      (observation.rootLength + observation.eventId.length + criterionId.length + 25 + 6) :=
  shown_artifact allowed ⟨List.all_iff_forall_prop.mp (by decide), rfl⟩ plain

private theorem shown_anchor {ref digest : JsString} {length : Nat} (shown : Shown ref length)
    (hashed : sha256Pattern digest = true) :
    Shown (artifactDigestRef ref digest) (length + 72) := by
  have middle : Shown (js "#sha256=") 8 := ⟨List.all_iff_forall_prop.mp (by decide), rfl⟩
  have digestShown : Shown digest 64 := ⟨plain_sha256 hashed, sha256_length hashed⟩
  have whole := (shown.append middle).append digestShown
  exact ⟨whole.1, whole.2.trans (by omega)⟩

def anchoredBytes (stopped : Bool) (length : Nat) : List Nat :=
  if stopped then [length + 74] else [length + 2, length + 74]

theorem anchored_bytes (stopped : Bool) {ref digest : JsString} {length : Nat}
    (shown : Shown ref length) (hashed : sha256Pattern digest = true) :
    (anchoredRefs stopped ref digest).map stringBytes = anchoredBytes stopped length := by
  have anchor := (shown_anchor shown hashed).bytes
  cases stopped with
  | true => exact congrArg (fun bytes => [bytes]) anchor
  | false => exact congrArg₂ (fun first second => [first, second]) shown.bytes anchor

end Paths

end Kratos.Acceptance
