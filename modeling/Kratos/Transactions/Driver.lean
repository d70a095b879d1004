/- source: composition/transactions.ts, domain/transactions/transition.ts
   digest: Executing, inspecting and recovering a transaction, call by durable call. -/

import Kratos.Transactions.DurableCalls

set_option autoImplicit false

namespace Kratos.Transactions.Driver

open Foundation.Text Foundation.Crashes Foundation.Paths Patterns Schema Durable
open Locks.Guard

structure TransactionServices where
  sha256 : JsString → JsString
  lower : CaseMapping
  localeCompare : JsString → JsString → Int

inductive RootMode
  | existing | initializing
  deriving DecidableEq, Repr

/-- `ExecuteManagedMutationOptions`, once its event store preconditions are checked. -/
structure ExecuteManagedMutationOptions where
  rootMode : RootMode
  guardPreconditions : List EventStorePrecondition
  leaseGuard : Option LeaseGuardBinding

structure TransactionSummary where
  transactionId : JsString
  manifestDigest : Option JsString
  recoveryToken : JsString
  phase : TransactionPhase
  deriving DecidableEq, Repr

structure TransactionReceipt where
  transactionId : JsString
  manifestDigest : Option JsString
  recoveryToken : JsString
  phase : TransactionPhase
  directorySync : DirectorySync
  deriving DecidableEq, Repr

section Paths

def brain : JsString := js ".brain"

def transactionsRoot : JsString := js ".brain/transactions"

def transactionRoot (transactionId : JsString) : JsString := transactionsRoot ++ (js "/" ++ transactionId)

def progressPath (root : JsString) : JsString := root ++ (js "/" ++ js "progress.json")

def nextPath (root : JsString) : JsString := root ++ (js "/" ++ js "progress.next")

def manifestPath (root : JsString) : JsString := root ++ (js "/" ++ js "manifest.json")

def stagingRoot (root : JsString) : JsString := root ++ (js "/" ++ js "staging")

end Paths

section Calls

def corrupt (path : JsString) : DriverFailure := .transaction .stateCorrupt [path]

def inspect (path : JsString) : Driver DurableEntry := perform (DurableCall.inspect path)

def list (path : JsString) : Driver (List JsString) := perform (DurableCall.list path)

def readText (path : JsString) : Driver JsString := perform (DurableCall.readText path)

def createDirectory (path : JsString) : Driver Unit := perform (DurableCall.createDirectory path)

def createDirectoryExclusive (path : JsString) : Driver Unit :=
  perform (DurableCall.createDirectoryExclusive path)

def writeSynced (path content : JsString) : Driver Unit := perform (DurableCall.writeSynced path content)

def replaceFile (stagedPath targetPath : JsString) : Driver Unit :=
  perform (DurableCall.replaceFile stagedPath targetPath)

def removeFile (path : JsString) : Driver Unit := perform (DurableCall.removeFile path)

def removeEmptyDirectory (path : JsString) : Driver Unit := perform (DurableCall.removeEmptyDirectory path)

def now : Driver JsString := perform DurableCall.now

def syncDirectory (path : JsString) : Driver DirectorySync := do
  let supported : Bool ← perform (DurableCall.syncDirectory path)
  return if supported then .supported else .unsupported

def mergeDirectorySync (current observed : DirectorySync) : DirectorySync :=
  if current = .unsupported ∨ observed = .unsupported then .unsupported else .supported

def toFingerprint (entry : DurableEntry) (path : JsString) : Driver PathFingerprint :=
  match entry with
  | .missing => return .missing
  | .directory => return .directory
  | .file size sha256 => return .file size sha256
  | .special | .symlink => .fail (.transaction .stateCorrupt [path])

def observeFingerprint (path : JsString) : Driver PathFingerprint := do
  toFingerprint (← inspect path) path

def isFileEntry : DurableEntry → Bool
  | .file _ _ => true
  | _ => false

end Calls

section Checks

variable (services : TransactionServices)

/-- `assertLeaseAuthority` of one artifact. -/
def assertArtifact (artifact : GuardedArtifact) : Driver Unit := do
  let observed ← observeFingerprint artifact.path
  if !sameFingerprint observed artifact.expected && !sameFingerprint observed artifact.published then
    .fail (.transaction .leaseConflict [artifact.path])

def assertLeaseAuthority (authority : Option LeaseAuthority) : Driver Unit :=
  match authority with
  | none => return ()
  | some artifacts => do
      assertArtifact artifacts.1
      assertArtifact artifacts.2

/-- One entry of `assertDeclaredGuardPreconditions`. -/
def changedPrecondition (changed : List JsString) (entry : EventStorePrecondition) :
    Driver (List JsString) := do
  let observed ← observeFingerprint entry.path
  return if sameFingerprint observed entry.expected then changed else changed ++ [entry.path]

def assertDeclaredGuardPreconditions (entries : List EventStorePrecondition) : Driver Unit := do
  let changed ← entries.foldlM changedPrecondition []
  if changed ≠ [] then .fail (.transaction .revisionConflict changed)

def assertInitializeNamespaceAvailable (createdBrain : Bool) : Driver Unit := do
  if !createdBrain then
    let entries ← list brain
    if entries ≠ [] then .fail (corrupt brain)

def assertExistingRoot (rootMode : RootMode) : Driver Unit := do
  let found ← inspect brain
  let createdBrain := decide (rootMode = .initializing ∧ found = .missing)
  if createdBrain then
    createDirectory brain
    let _ ← syncDirectory (js ".")
  if !createdBrain && found != .directory then .fail (corrupt brain)
  else
    let transactions ← inspect transactionsRoot
    if rootMode = .initializing ∧ transactions = .missing then
      assertInitializeNamespaceAvailable createdBrain
      createDirectory transactionsRoot
      let _ ← syncDirectory brain
    else if transactions ≠ .directory then .fail (corrupt transactionsRoot)

def validateProgress (progress : TransactionProgressV1) : Driver TransactionProgressV1 :=
  if validProgress progress then return progress else .fail (.transaction .stateCorrupt [])

def validateManifest (manifest : TransactionManifestV1) : Driver TransactionManifestV1 :=
  if validManifest manifest then return manifest else .fail (.transaction .stateCorrupt [])

/-- `assertPhaseTransition`. -/
def legalTransition : TransactionPhase → TransactionPhase → Bool
  | .begun, .prepared | .begun, .aborted | .prepared, .publishing | .prepared, .aborted
  | .publishing, .committed => true
  | _, _ => false

def assertPhaseTransition (source target : TransactionPhase) : Driver Unit :=
  if legalTransition source target then return () else .fail .error

def persistProgress (progress : TransactionProgressV1) : Driver DirectorySync := do
  let validated ← validateProgress progress
  let root := transactionRoot validated.transactionId
  let next ← inspect (nextPath root)
  if isFileEntry next then
    removeFile (nextPath root)
    let _ ← syncDirectory root
  else if next ≠ .missing then .fail (corrupt (nextPath root))
  writeSynced (nextPath root) (progressDocument.text validated)
  replaceFile (nextPath root) (progressPath root)
  return mergeDirectorySync validated.directorySync (← syncDirectory root)

def assertPreconditions (operations : List PersistedOperation) : Driver Unit :=
  operations.forM fun operation => do
    let observed ← observeFingerprint operation.path
    if !sameFingerprint observed operation.expected then
      .fail (.transaction .revisionConflict [operation.path])

def assertResults (operations : List PersistedOperation) : Driver Unit :=
  operations.forM fun operation => do
    let observed ← observeFingerprint operation.path
    if !sameFingerprint observed operation.result then
      .fail (.transaction .stateCorrupt [operation.path])

def assertPublishable (operation : ManagedOperation) : Driver Unit := do
  let parent ← inspect (parentOf operation.path)
  if parent ≠ .directory then .fail (.transaction .stateCorrupt [operation.path])
  else
    let observed ← observeFingerprint operation.path
    if !sameFingerprint observed operation.expected then
      .fail (.transaction .revisionConflict [operation.path])

/-- The check of a staged payload against the file it becomes. -/
def assertPayload (path : JsString) (result : PathFingerprint) : Driver Unit := do
  let observed ← observeFingerprint path
  if !sameFingerprint observed result then .fail (corrupt path)

def stagedPayloadPath (root : JsString) (operation : ManagedOperation) : JsString :=
  root ++ js "/" ++ operation.stagedPath.getD []

/-- `assertExecutionPayload` of a file that is written. -/
def assertExecutionPayload (root : JsString) (operation : ManagedOperation) : Driver Unit :=
  match operation.kind with
  | .writeFile _ => assertPayload (stagedPayloadPath root operation) operation.result
  | .createDirectory | .deleteFile => return ()

def assertResult (operation : ManagedOperation) : Driver Unit := do
  let observed ← observeFingerprint operation.path
  if !sameFingerprint observed operation.result then
    .fail (.transaction .stateCorrupt [operation.path])

end Checks

section Manifest

variable (services : TransactionServices)

def operationsText (operations : List PersistedOperation) : JsString :=
  canonicalizeJson (.object [(js "operations", (Schema.list persistedOperation).encode operations)])

def createManifest (plan : List ManagedOperation) (transactionId createdAt root : JsString) :
    Driver TransactionManifestV1 :=
  validateManifest
    { transactionId
      createdAt
      planDigest := services.sha256 (operationsText (plan.map toPersistedManagedOperation))
      operations := manifestOperations root plan }

def manifestDigestOf (manifest : TransactionManifestV1) : JsString :=
  services.sha256 (canonicalizeJson (transactionManifest.encode manifest))

/-- What `assertManifestSemantics` asks of the operation at an index. -/
def operationSemantics (root : JsString) (index : Nat) (operation : PersistedOperation) : Bool :=
  operation.operationId == operationIdAt index &&
    isManagedDirectoryDestination services.lower operation.path &&
    match operation.kind with
    | .createDirectory => operation.expected == .missing && operation.result == .directory
    | .writeFile =>
        operation.stagedPath ==
            some (root ++ js "/" ++ (js "staging/" ++ operationIdAt index ++ js ".payload")) &&
          operation.expected != .directory && isFile operation.result
    | .deleteFile => isFile operation.expected && operation.result == .missing

def relativeOperation (operation : PersistedOperation) : PersistedOperation :=
  { operation with
    stagedPath := operation.stagedPath.map fun _ =>
      js "staging/" ++ operation.operationId ++ js ".payload" }

def manifestSemantics (root : JsString) (manifest : TransactionManifestV1) : Bool :=
  (manifest.operations.zipIdx.all fun entry => operationSemantics services root entry.2 entry.1) &&
    manifest.planDigest == services.sha256 (operationsText (manifest.operations.map relativeOperation))

def readRegularText (path : JsString) : Driver JsString := do
  let entry ← inspect path
  if !isFileEntry entry then .fail (corrupt path) else readText path

def readDocument {α : Type} (document : Document α) (path : JsString) : Driver α := do
  let text ← readRegularText path
  match document.read text with
  | some value => return value
  | none => .fail (corrupt path)

def readProgress (path : JsString) : Driver TransactionProgressV1 := readDocument progressDocument path

/-- `readManifest` with `assertManifestSemantics`, bound to a progress. -/
def readRequiredManifest (root : JsString) (progress : TransactionProgressV1) :
    Driver TransactionManifestV1 := do
  let value ← readDocument manifestDocument (manifestPath root)
  if !manifestSemantics services root value then .fail (corrupt (manifestPath root))
  else if value.transactionId ≠ progress.transactionId ∨ value.createdAt ≠ progress.createdAt ∨
      (progress.manifestDigest.any fun digest => digest != manifestDigestOf services value) then
    .fail (corrupt (manifestPath root))
  else return value

end Manifest

section Inspection

variable (services : TransactionServices)

/-- The digest of what identifies a transaction that has no manifest yet. -/
def identityToken (transactionId createdAt : JsString) : JsString :=
  services.sha256 (canonicalizeJson (.object
    [(js "contractVersion", .string (js "1.0.0")), (js "stateContract", .string (js "1.0.0")),
      (js "transactionId", .string transactionId), (js "createdAt", .string createdAt)]))

def layoutNames : List JsString :=
  [js "manifest.json", js "progress.json", js "progress.next", js "staging"]

def validateTransactionLayout (root : JsString) : Driver Unit := do
  let entries ← list root
  if entries.any fun entry => !layoutNames.contains entry then .fail (corrupt root)
  else
    [manifestPath root, progressPath root, nextPath root].forM fun path => do
      let observed ← inspect path
      if observed ≠ .missing && !isFileEntry observed then .fail (corrupt path)
    let staging ← inspect (stagingRoot root)
    if staging ≠ .missing && staging ≠ .directory then .fail (corrupt (stagingRoot root))

def validatePersistedIdentity (progress : TransactionProgressV1) (root : JsString) : Driver Unit := do
  let bound :=
    match progress.manifestDigest with
    | none => progress.recoveryToken == identityToken services progress.transactionId progress.createdAt
    | some digest => progress.recoveryToken == digest
  if !bound then .fail (corrupt (progressPath root))
  else
    let manifestEntry ← inspect (manifestPath root)
    if progress.manifestDigest.isSome then
      if !isFileEntry manifestEntry then .fail (corrupt (manifestPath root))
      else
        let _ ← readRequiredManifest services root progress

/-- One turn of the loop of `inspectManagedTransactions`. -/
def summarize (transactionId : JsString) : Driver TransactionSummary := do
  let root := transactionRoot transactionId
  let found ← inspect root
  if found ≠ .directory then .fail (corrupt root)
  else
    validateTransactionLayout root
    let progress ← readProgress (progressPath root)
    if progress.transactionId ≠ transactionId then .fail (corrupt (progressPath root))
    else
      validatePersistedIdentity services progress root
      return ⟨transactionId, progress.manifestDigest, progress.recoveryToken, progress.phase⟩

def inspectManagedTransactions : Driver (List TransactionSummary) := do
  let found ← inspect brain
  if found = .missing then return []
  else if found ≠ .directory then .fail (corrupt brain)
  else
    let transactions ← inspect transactionsRoot
    if transactions = .missing then return []
    else if transactions ≠ .directory then .fail (corrupt transactionsRoot)
    else
      let names ← list transactionsRoot
      (names.mergeSort fun left right => decide (services.localeCompare left right ≤ 0)).mapM
        (summarize services)

end Inspection

section Publication

variable (services : TransactionServices)

def publishOperation (root : JsString) (operation : ManagedOperation) : Driver Unit :=
  match operation.kind with
  | .createDirectory => createDirectory operation.path
  | .writeFile _ => replaceFile (stagedPayloadPath root operation) operation.path
  | .deleteFile => removeFile operation.path

def publishPersistedOperation (operation : PersistedOperation) : Driver Unit :=
  match operation.kind with
  | .createDirectory => createDirectory operation.path
  | .writeFile => replaceFile (operation.stagedPath.getD []) operation.path
  | .deleteFile => removeFile operation.path

/-- A staged payload that is still there is removed. -/
def removePayload (operation : PersistedOperation) : Driver Unit :=
  match operation.stagedPath with
  | none => return ()
  | some stagedPath => do
      let payload ← inspect stagedPath
      if isFileEntry payload then removeFile stagedPath
      else if payload ≠ .missing then .fail (corrupt stagedPath)

def removeStaging (root : JsString) : Driver Unit := do
  let staging ← inspect (stagingRoot root)
  if staging = .directory then
    let names ← list (stagingRoot root)
    if names ≠ [] then .fail (corrupt (stagingRoot root))
    else removeEmptyDirectory (stagingRoot root)
  else if staging ≠ .missing then .fail (corrupt (stagingRoot root))

/-- A file of the transaction's own that is still there is removed. -/
def removeLeftover (path : JsString) : Driver Unit := do
  let entry ← inspect path
  if isFileEntry entry then removeFile path
  else if entry ≠ .missing then .fail (corrupt path)

def cleanupTransaction (manifest : TransactionManifestV1) (currentDirectorySync : DirectorySync) :
    Driver DirectorySync := do
  let root := transactionRoot manifest.transactionId
  manifest.operations.forM removePayload
  removeStaging root
  removeLeftover (nextPath root)
  return mergeDirectorySync currentDirectorySync (← syncDirectory root)

def persistTerminalDirectorySync (progress : TransactionProgressV1) (observed : DirectorySync) :
    Driver TransactionProgressV1 := do
  let directorySync := mergeDirectorySync progress.directorySync observed
  if directorySync = progress.directorySync then return progress
  else
    let next ← validateProgress { progress with directorySync, updatedAt := ← now }
    return { next with directorySync := ← persistProgress next }

def receiptFromProgress (progress : TransactionProgressV1) : Driver TransactionReceipt :=
  if progress.phase ≠ .committed ∧ progress.phase ≠ .aborted then
    .fail (corrupt (progressPath (transactionRoot progress.transactionId)))
  else
    return ⟨progress.transactionId, progress.manifestDigest, progress.recoveryToken, progress.phase,
      progress.directorySync⟩

def hasCleanupEntries (root : JsString) (removeUnboundManifest : Bool) : Driver Bool := do
  let staging ← inspect (stagingRoot root)
  if staging ≠ .missing then return true
  else
    let next ← inspect (nextPath root)
    if next ≠ .missing then return true
    else if removeUnboundManifest then
      let manifest ← inspect (manifestPath root)
      return manifest != .missing
    else return false

end Publication

section Execution

variable (services : TransactionServices)

/-- One turn of the loop that stages the payloads. -/
def stagePayload (root : JsString) (directorySync : DirectorySync) (operation : ManagedOperation) :
    Driver DirectorySync :=
  match operation.kind with
  | .writeFile content => do
      writeSynced (stagedPayloadPath root operation) content
      assertExecutionPayload root operation
      return mergeDirectorySync directorySync (← syncDirectory (stagingRoot root))
  | .createDirectory | .deleteFile => return directorySync

/-- What a progress that is about to be persisted carries on from the last one. -/
def advance (progress : TransactionProgressV1) (phase : TransactionPhase)
    (publishedOperationIds : List JsString) (directorySync : DirectorySync) :
    Driver TransactionProgressV1 := do
  validateProgress
    { progress with phase, publishedOperationIds, directorySync, updatedAt := ← now }

/-- One turn of the loop that publishes the operations. -/
def publishNext (options : ExecuteManagedMutationOptions) (authority : Option LeaseAuthority)
    (root : JsString) (acc : TransactionProgressV1 × DirectorySync) (operation : ManagedOperation) :
    Driver (TransactionProgressV1 × DirectorySync) := do
  assertLeaseAuthority authority
  assertDeclaredGuardPreconditions options.guardPreconditions
  assertPublishable operation
  assertExecutionPayload root operation
  publishOperation root operation
  let directorySync := mergeDirectorySync acc.2 (← syncDirectory (parentOf operation.path))
  assertResult operation
  let progress ← advance acc.1 acc.1.phase (acc.1.publishedOperationIds ++ [operation.operationId])
    directorySync
  return (progress, ← persistProgress progress)

/-- The first record of a transaction, before its directory is there. -/
def beginTransaction (transactionId : JsString) : Driver TransactionProgressV1 := do
  let createdAt ← now
  validateProgress
    { transactionId
      manifestDigest := none
      recoveryToken := identityToken services transactionId createdAt
      phase := .begun
      publishedOperationIds := []
      directorySync := .notAttempted
      createdAt
      updatedAt := ← now }

/-- `driveExecution` up to the manifest that is written and bound. -/
def prepareTransaction (plan : List ManagedOperation) (transactionId : JsString)
    (begun : TransactionProgressV1) : Driver (TransactionManifestV1 × DirectorySync) := do
  let root := transactionRoot transactionId
  createDirectoryExclusive root
  let directorySync := mergeDirectorySync .notAttempted (← syncDirectory transactionsRoot)
  let directorySync ← persistProgress { begun with directorySync }
  createDirectory (stagingRoot root)
  let directorySync := mergeDirectorySync directorySync (← syncDirectory root)
  let directorySync ← plan.foldlM (stagePayload root) directorySync
  let manifest ← createManifest services plan transactionId begun.createdAt root
  writeSynced (manifestPath root) (manifestDocument.text manifest)
  return (manifest, mergeDirectorySync directorySync (← syncDirectory root))

/-- `driveExecution` from the prepared record to the last published operation. -/
def publishTransaction (plan : List ManagedOperation) (options : ExecuteManagedMutationOptions)
    (authority : Option LeaseAuthority) (begun : TransactionProgressV1)
    (manifest : TransactionManifestV1) (directorySync : DirectorySync) :
    Driver (TransactionProgressV1 × DirectorySync) := do
  assertDeclaredGuardPreconditions options.guardPreconditions
  assertPreconditions manifest.operations
  let digest := manifestDigestOf services manifest
  let progress ← advance { begun with manifestDigest := some digest, recoveryToken := digest }
    .prepared begun.publishedOperationIds directorySync
  let directorySync ← persistProgress progress
  assertLeaseAuthority authority
  assertDeclaredGuardPreconditions options.guardPreconditions
  let progress ← advance progress .publishing progress.publishedOperationIds directorySync
  let directorySync ← persistProgress progress
  plan.foldlM (publishNext options authority (transactionRoot begun.transactionId))
    (progress, directorySync)

/-- `driveExecution` from the last published operation to the receipt. -/
def commitTransaction (options : ExecuteManagedMutationOptions) (manifest : TransactionManifestV1)
    (progress : TransactionProgressV1) (directorySync : DirectorySync) :
    Driver TransactionReceipt := do
  assertResults manifest.operations
  assertDeclaredGuardPreconditions options.guardPreconditions
  let progress ← advance progress .committed (manifest.operations.map PersistedOperation.operationId)
    directorySync
  let directorySync ← persistProgress progress
  let directorySync ← cleanupTransaction manifest directorySync
  receiptFromProgress (← persistTerminalDirectorySync progress directorySync)

def driveExecution (plan : List ManagedOperation) (options : ExecuteManagedMutationOptions)
    (transactionId : JsString) : Driver TransactionReceipt := do
  let authority := options.leaseGuard.map (bindingAuthority services.sha256)
  assertLeaseAuthority authority
  assertExistingRoot options.rootMode
  let begun ← beginTransaction services transactionId
  let (manifest, directorySync) ← prepareTransaction services plan transactionId begun
  let (progress, directorySync) ←
    publishTransaction services plan options authority begun manifest directorySync
  commitTransaction options manifest progress directorySync

end Execution

section Recovery

variable (services : TransactionServices)

def observeInto (observations : Observations) (path : JsString) : Driver Observations := do
  return observations ++ [(path, ← observeFingerprint path)]

def observeTransaction (manifest : TransactionManifestV1) : Driver TransactionObservation := do
  let known := manifest.operations.filterMap PersistedOperation.stagedPath
  let destinations ← (manifest.operations.map PersistedOperation.path).foldlM observeInto []
  let stagedPayloads ← known.foldlM observeInto []
  let staged := stagingRoot (transactionRoot manifest.transactionId)
  let staging ← inspect staged
  if staging = .directory then
    let names ← list staged
    let others := (names.map fun name => staged ++ (js "/" ++ name)).filter fun path =>
      !known.contains path
    return ⟨destinations, ← others.foldlM observeInto stagedPayloads⟩
  else if staging ≠ .missing then .fail (corrupt staged)
  else return ⟨destinations, stagedPayloads⟩

/-- A progress is validated and persisted, and carries on with what its directory answered. -/
def record (progress : TransactionProgressV1) (phase : TransactionPhase)
    (publishedOperationIds : List JsString) (directorySync : DirectorySync) :
    Driver TransactionProgressV1 := do
  let next ← advance progress phase publishedOperationIds directorySync
  return { next with directorySync := ← persistProgress next }

/-- The `publish` case of `driveRecovery`. -/
def republish (authority : Option LeaseAuthority) (progress : TransactionProgressV1)
    (operation : PersistedOperation) : Driver TransactionProgressV1 := do
  let parent := parentOf operation.path
  let found ← inspect parent
  let publishedOperationIds := progress.publishedOperationIds ++ [operation.operationId]
  if found ≠ .directory then .fail (corrupt operation.path)
  else
    let immediateTarget ← observeFingerprint operation.path
    if sameFingerprint immediateTarget operation.result then
      record progress progress.phase publishedOperationIds progress.directorySync
    else if !sameFingerprint immediateTarget operation.expected then .fail (corrupt operation.path)
    else
      if operation.kind = .writeFile then
        assertPayload (operation.stagedPath.getD []) operation.result
      assertLeaseAuthority authority
      publishPersistedOperation operation
      let directorySync := mergeDirectorySync progress.directorySync (← syncDirectory parent)
      let result ← observeFingerprint operation.path
      if !sameFingerprint result operation.result then .fail (corrupt operation.path)
      else record progress progress.phase publishedOperationIds directorySync

def decided (manifest : TransactionManifestV1) (operationId : JsString) : Driver PersistedOperation :=
  match manifest.operations.find? fun candidate => candidate.operationId == operationId with
  | none => .fail (corrupt (manifestPath (transactionRoot manifest.transactionId)))
  | some operation => return operation

def blockedRef (manifest : TransactionManifestV1) : Option JsString → Driver JsString
  | none => return progressPath (transactionRoot manifest.transactionId)
  | some operationId => do return (← decided manifest operationId).path

/-- The leftovers of a terminal transaction are removed. -/
def cleanUp (manifest : TransactionManifestV1) (progress : TransactionProgressV1) :
    Driver TransactionProgressV1 := do
  persistTerminalDirectorySync progress (← cleanupTransaction manifest progress.directorySync)

/-- The loop of `driveRecovery`; it is left without an answer when the fuel is spent. -/
def driveDecisions (manifest : TransactionManifestV1) (authority : Option LeaseAuthority) :
    Nat → TransactionProgressV1 → Driver TransactionReceipt
  | 0, _ => .fail .error
  | fuel + 1, progress => do
      let observation ← observeTransaction manifest
      match decideRecovery manifest.toTransactionManifest progress.toTransactionProgress observation with
      | .abort =>
          assertPhaseTransition progress.phase .aborted
          driveDecisions manifest authority fuel
            (← record progress .aborted [] progress.directorySync)
      | .recordPublished operationId =>
          driveDecisions manifest authority fuel
            (← record progress progress.phase (progress.publishedOperationIds ++ [operationId])
              progress.directorySync)
      | .publish operationId =>
          let operation ← decided manifest operationId
          driveDecisions manifest authority fuel (← republish authority progress operation)
      | .commit =>
          assertPhaseTransition progress.phase .committed
          driveDecisions manifest authority fuel
            (← record progress .committed (manifest.operations.map PersistedOperation.operationId)
              progress.directorySync)
      | .cleanup _ => driveDecisions manifest authority fuel (← cleanUp manifest progress)
      | .complete _ =>
          let root := transactionRoot manifest.transactionId
          let leftovers ← hasCleanupEntries root progress.manifestDigest.isNone
          if leftovers then receiptFromProgress (← cleanUp manifest progress)
          else receiptFromProgress progress
      | .blocked _ operationId =>
          .fail (.transaction .stateCorrupt [← blockedRef manifest operationId])

/-- `^operation-[0-9]{4}\.payload$`. -/
def payloadNamePattern (name : JsString) : Bool :=
  (do
    let rest ← literal (js "operation-") name
    let after ← literal (js ".payload") (rest.drop 4)
    if (rest.take 4).length = 4 ∧ (rest.take 4).all isDigit ∧ after = [] then some ()
    else none).isSome

/-- A payload that may be removed without a manifest to name it. -/
def unboundPayload (staged : JsString) (name : JsString) : Driver JsString := do
  let path := staged ++ (js "/" ++ name)
  if !payloadNamePattern name then .fail (corrupt path)
  else
    let entry ← inspect path
    if !isFileEntry entry then .fail (corrupt path) else return path

/-- `recoverWithoutManifest` once the payloads and their directory are gone. -/
def finishWithoutManifest (root : JsString) (progress : TransactionProgressV1) :
    Driver TransactionReceipt := do
  let leftover ← inspect (nextPath root)
  if isFileEntry leftover then removeFile (nextPath root)
  removeLeftover (manifestPath root)
  let directorySync := mergeDirectorySync progress.directorySync (← syncDirectory root)
  receiptFromProgress (← persistTerminalDirectorySync progress directorySync)

/-- `recoverWithoutManifest` once its record says aborted. -/
def clearWithoutManifest (root : JsString) (staging : DurableEntry) (payloads : List JsString)
    (progress : TransactionProgressV1) : Driver TransactionReceipt := do
  payloads.forM removeFile
  if staging = .directory then removeEmptyDirectory (stagingRoot root)
  finishWithoutManifest root progress

/-- `recoverWithoutManifest` from the payloads that are there. -/
def abortWithoutManifest (root : JsString) (initial : TransactionProgressV1) (staging : DurableEntry)
    (payloads : List JsString) : Driver TransactionReceipt := do
  let next ← inspect (nextPath root)
  if !isFileEntry next && next != .missing then .fail (corrupt (nextPath root))
  else
    let progress ←
      if initial.phase = .begun then record initial .aborted [] initial.directorySync
      else pure initial
    clearWithoutManifest root staging payloads progress

def recoverWithoutManifest (initial : TransactionProgressV1) : Driver TransactionReceipt := do
  let root := transactionRoot initial.transactionId
  let staged := stagingRoot root
  let staging ← inspect staged
  if staging ≠ .directory ∧ staging ≠ .missing then .fail (corrupt staged)
  else
    let payloads ←
      if staging = .directory then do (← list staged).mapM (unboundPayload staged) else pure []
    abortWithoutManifest root initial staging payloads

def recoveryRequired (transactionId : JsString) : DriverFailure :=
  .transaction .recoveryRequired [progressPath (transactionRoot transactionId)]

def driveRecovery (fuel : Nat) (summary : TransactionSummary) : Driver TransactionReceipt := do
  let root := transactionRoot summary.transactionId
  let progress ← readProgress (progressPath root)
  if progress.transactionId ≠ summary.transactionId ∨ progress.recoveryToken ≠ summary.recoveryToken ∨
      progress.manifestDigest ≠ summary.manifestDigest then
    .fail (recoveryRequired summary.transactionId)
  else
    let manifestEntry ← inspect (manifestPath root)
    if progress.manifestDigest.isNone then recoverWithoutManifest progress
    else if !isFileEntry manifestEntry then .fail (corrupt (manifestPath root))
    else
      let manifest ← readRequiredManifest services root progress
      let authority :=
        if progress.phase = .publishing ∨ progress.phase = .committed then
          manifestAuthority manifest.operations
        else none
      assertLeaseAuthority authority
      driveDecisions manifest authority fuel progress

/-- The first transaction that is not ended, or that has left something behind. -/
def firstIncompleteSummary : List TransactionSummary → Driver (Option TransactionSummary)
  | [] => return none
  | summary :: rest => do
      if summary.phase ≠ .committed ∧ summary.phase ≠ .aborted then return some summary
      else
        let root := transactionRoot summary.transactionId
        let staging ← inspect (stagingRoot root)
        let next ← inspect (nextPath root)
        let unboundManifest ←
          if summary.manifestDigest.isNone then inspect (manifestPath root) else pure .missing
        if staging ≠ .missing ∨ next ≠ .missing ∨ unboundManifest ≠ .missing then return some summary
        else firstIncompleteSummary rest

/-- `recoverManagedMutation` with the token it is called with. -/
def recoverManagedMutation (fuel : Nat) (transactionId recoveryToken : JsString) :
    Driver TransactionReceipt := do
  let summaries ← inspectManagedTransactions services
  match summaries.find? fun candidate => candidate.transactionId == transactionId with
  | none =>
      match ← firstIncompleteSummary summaries with
      | some incomplete => .fail (recoveryRequired incomplete.transactionId)
      | none => .fail (corrupt (transactionRoot transactionId))
  | some summary =>
      if summary.recoveryToken ≠ recoveryToken then .fail (recoveryRequired transactionId)
      else driveRecovery services fuel summary

/-- A recovery by a caller that gives the token the inspection reports. -/
def recoverReported (fuel : Nat) (transactionId : JsString) : Driver TransactionReceipt := do
  let summaries ← inspectManagedTransactions services
  match summaries.find? fun candidate => candidate.transactionId == transactionId with
  | none => .fail (corrupt (transactionRoot transactionId))
  | some summary => recoverManagedMutation services fuel transactionId summary.recoveryToken

end Recovery

end Kratos.Transactions.Driver
