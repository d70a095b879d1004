/- source: composition/migration.ts, domain/cli/migration.ts
   digest: Runs of replacements that are rolled back, and the next plan after them. -/

import Kratos.Foundation.Sha256
import Kratos.Migration.Cycles

set_option autoImplicit false

namespace Kratos.Migration

open Foundation Foundation.Text Foundation.Collections Foundation.Calendar Foundation.Paths
open Foundation.Runs Patterns Durable Schema Transactions

variable {sha256 : JsString → JsString} {input : ConfigInput} {storage final : Storage}
  {cycles more : List Cycle} {lower : CaseMapping} {upgrade : Upgrade}

section Running

variable (hashed : ∀ content, sha256Pattern (sha256 content) = true)
include hashed

theorem Cycled.cycle (cycled : Cycled sha256 input storage cycles) (keeps : Keeps lower)
    (upgraded : upgrade input.sourceContent = .ok input.toConfigUpgrade)
    (room : cycles.length < maxConfigMigrationAttempts) (dated : ∀ times ∈ cycles, times.Dated)
    {times : Cycle} (timed : times.Dated) :
    ∃ next, Migration.cycle lower sha256 upgrade storage times = .ok next ∧
      Cycled sha256 input next (cycles ++ [times]) := by
  obtain ⟨applied, accepted, holds⟩ := cycled.applyConfig hashed keeps upgraded room dated timed.1
  obtain ⟨next, reverted, restored⟩ := holds.rolledBack hashed room keeps timed
  refine ⟨next, ?_, restored⟩
  unfold Migration.cycle
  simp only [accepted, bind, Except.bind, reverted]

theorem Cycled.run (cycled : Cycled sha256 input storage cycles) (keeps : Keeps lower)
    (upgraded : upgrade input.sourceContent = .ok input.toConfigUpgrade)
    (dated : ∀ times ∈ cycles ++ more, times.Dated)
    (room : (cycles ++ more).length ≤ maxConfigMigrationAttempts) :
    ∃ final, Reaches (Migration.cycle lower sha256 upgrade) storage more final ∧
      Cycled sha256 input final (cycles ++ more) := by
  induction more generalizing storage cycles with
  | nil =>
      rw [List.append_nil]
      exact ⟨storage, reaches_nil.mpr rfl, cycled⟩
  | cons times more ih =>
      have longer : cycles.length < maxConfigMigrationAttempts := by
        rw [List.length_append, List.length_cons] at room
        omega
      obtain ⟨next, accepted, again⟩ := cycled.cycle hashed keeps upgraded longer
        (fun earlier member => dated earlier (List.mem_append_left _ member))
        (dated times (List.mem_append_right _ List.mem_cons_self))
      have shape : cycles ++ times :: more = cycles ++ [times] ++ more := by simp
      rw [shape] at dated room
      obtain ⟨final, run, holds⟩ := ih again dated room
      rw [shape]
      exact ⟨final, reaches_cons.mpr ⟨next, accepted, run⟩, holds⟩

omit hashed in
private theorem observePriorConfigAttempt_stored (cycled : Cycled sha256 input storage cycles) {index : Nat}
    {times : Cycle} (made : cycles[index]? = some times) (file : AuditFile) :
    readStableFile sha256 (storedFiles sha256 storage)
        (auditPath (attemptAt sha256 input (index + 1)) file) =
      .ok (.file (observedAs sha256 (settledContent sha256 input (attemptAt sha256 input (index + 1))
        (toISOString times.planTime) (toISOString times.rollbackTime) file))) :=
  readStableFile_stored (cycled.attempts index times made file)

theorem Cycled.refused (cycled : Cycled sha256 input storage cycles)
    (bounded : cycles.length ≤ maxConfigMigrationAttempts) {index : Nat} (within : index < cycles.length)
    {file : AuditFile} {altered : MigrationFileSystem}
    (change : Altered (storedFiles sha256 storage) altered (attemptAt sha256 input (index + 1)) file)
    (attempt : ConfigAttempt) : nextConfigAttempt sha256 altered input ≠ .ok attempt := by
  have identifier : Identifier (attemptAt sha256 input (index + 1)) :=
    identifier_attemptAt hashed (by omega)
  have beside : migrationsRef ≠ auditPath (attemptAt sha256 input (index + 1)) file := by
    intro same
    have parts := congrArg segments same
    rw [segments_auditPath identifier] at parts
    cases parts
  have inspected : altered.inspect migrationsRef = some (Node.entry sha256 (storage.find migrationsRef)) :=
    change.inspect _ beside
  have apart : migrationsRef ≠ attemptRoot (attemptAt sha256 input (index + 1)) := by
    intro same
    have parts := congrArg segments same
    rw [segments_attemptRoot identifier] at parts
    cases parts
  have listed : altered.list migrationsRef = some (storage.list migrationsRef) :=
    change.list _ apart
  have directory : storage.find migrationsRef = some .directory := by
    have held := cycled.attempts index _ (List.getElem?_eq_getElem within) .receipt
    have above : isParent migrationsRef
        (auditPath (attemptAt sha256 input (index + 1)) .receipt) = true := by
      rw [isParent, auditPath_eq]
      exact startsWith_append (js ".brain/migrations/") _
    exact cycled.housed _ (by rw [held]; exact Option.some_ne_none _) _ above
  intro accepted
  rw [nextConfigAttempt, inspected, directory] at accepted
  simp only [Node.entry, listed, lineageOf_numbered (cycled.numbered hashed bounded), attemptAfter,
    List.length_range', consecutive_range bounded] at accepted
  rw [if_neg (by simp)] at accepted
  split at accepted
  · cases accepted
  · obtain ⟨guards, all, -⟩ := bind_ok_iff.mp accepted
    obtain ⟨found, -, passed⟩ := (mapM_ok_mem all).1 (index + 1) (List.mem_range'_1.mpr (by omega))
    exact observePriorConfigAttempt_altered
      (observePriorConfigAttempt_stored cycled (List.getElem?_eq_getElem within)) change _ passed

theorem Cycled.unplanned (cycled : Cycled sha256 input storage cycles)
    (upgraded : upgrade input.sourceContent = .ok input.toConfigUpgrade)
    (bounded : cycles.length ≤ maxConfigMigrationAttempts) {index : Nat} (within : index < cycles.length)
    {file : AuditFile} {altered : MigrationFileSystem}
    (change : Altered (storedFiles sha256 storage) altered (attemptAt sha256 input (index + 1)) file)
    (now : Int) (authorization : Option ConfigAuthorization) (operation : ConfigOperation) :
    observeConfig sha256 altered upgrade now authorization ≠ .ok operation := by
  have source : readStableFile sha256 altered configRef =
      .ok (.file (observedAs sha256 input.sourceContent)) := by
    rw [change.readStableFile (configRef_ne hashed (by omega) file)]
    exact readStableFile_stored cycled.config
  intro accepted
  rw [observeConfig] at accepted
  split at accepted
  · cases accepted
  · rw [source] at accepted
    simp only [observedAs, upgraded, bind, Except.bind] at accepted
    cases next : nextConfigAttempt sha256 altered input with
    | error failure =>
        rw [next] at accepted
        cases accepted
    | ok attempt => exact cycled.refused hashed bounded within change attempt next

end Running

section Claim

/-- What holds after a run of cycles. -/
structure Restored (sha256 : JsString → JsString) (input : ConfigInput) (upgrade : Upgrade)
    (cycles : List Cycle) (final : Storage) : Prop where
  config : final.find configRef = some (.file input.sourceContent)
  backups : ∀ attempt, 1 ≤ attempt → attempt ≤ cycles.length →
    final.find (auditPath (attemptId (baseMigrationId sha256 input) attempt) .backup) =
      some (.file input.sourceContent)
  /-- The next plan is of the next attempt, which depends on the five files of every attempt. -/
  next : cycles.length < maxConfigMigrationAttempts →
    nextConfigAttempt sha256 (storedFiles sha256 final) input =
      .ok ⟨attemptId (baseMigrationId sha256 input) (cycles.length + 1),
        (List.range' 1 cycles.length).flatMap (guardsOf sha256 input cycles)⟩
  full : cycles.length = maxConfigMigrationAttempts →
    nextConfigAttempt sha256 (storedFiles sha256 final) input = .error (stateCorrupt migrationsRef)
  altered : ∀ attempt file altered, 1 ≤ attempt → attempt ≤ cycles.length →
    Altered (storedFiles sha256 final) altered (attemptId (baseMigrationId sha256 input) attempt) file →
      ∀ now authorization operation,
        observeConfig sha256 altered upgrade now authorization ≠ .ok operation

/-- Replacements and their rollbacks are inverse, as often as there are attempts. -/
theorem replacements_restored (hashed : ∀ content, sha256Pattern (sha256 content) = true)
    (keeps : Keeps lower) (upgraded : upgrade input.sourceContent = .ok input.toConfigUpgrade)
    (fresh : Fresh sha256 input storage) (dated : ∀ times ∈ cycles, times.Dated)
    (bounded : cycles.length ≤ maxConfigMigrationAttempts) :
    ∃ final, Reaches (Migration.cycle lower sha256 upgrade) storage cycles final ∧
      Restored sha256 input upgrade cycles final := by
  obtain ⟨final, run, cycled⟩ := @Cycled.run _ _ _ [] cycles _ _ hashed fresh.cycled keeps upgraded
    dated bounded
  rw [List.nil_append] at cycled
  refine ⟨final, run, cycled.config, ?_, fun room => cycled.next hashed room dated,
    fun full => cycled.full hashed full, ?_⟩
  · intro attempt least most
    have held := cycled.attempts (attempt - 1) _ (List.getElem?_eq_getElem (by omega)) .backup
    rw [Nat.sub_add_cancel least] at held
    exact held
  · intro attempt file altered least most change now authorization operation
    rw [← Nat.sub_add_cancel least] at change
    exact cycled.unplanned hashed upgraded bounded (by omega) change now authorization operation

end Claim

section Instances

private theorem housed_of_stored (each : (storage.all fun entry => (prefixes entry.1).all fun parent =>
      parent == entry.1 || storage.find parent == some .directory) = true) : Housed storage.find := by
  intro path stored parent above
  obtain ⟨node, held⟩ := Option.ne_none_iff_exists'.mp stored
  have inside := List.all_eq_true.mp (List.all_eq_true.mp each _ (mapGet_mem held)) parent
    (mem_prefixes_iff.mpr (.inr above))
  rw [Bool.or_eq_true, beq_iff_eq, beq_iff_eq] at inside
  refine inside.resolve_left fun same => ?_
  rw [same, isParent_irrefl] at above
  cases above

/-- A configuration that moves to another schema version. -/
def sampleInput : ConfigInput where
  sourceContent := js "schemaVersion 1"
  destinationContent := js "schemaVersion 2"
  hosts := [.claude]
  answers := ⟨js ".brain/answers.json", Sha256.sha256 (js "answers")⟩
  catalogs := [(.claude, Sha256.sha256 (js "catalog"))]
  modelRoles := ⟨[(.claude, [])], by decide, by decide⟩
  defaulted := []

def sampleUpgrade : Upgrade := fun source =>
  if source = sampleInput.sourceContent then .ok sampleInput.toConfigUpgrade
  else .error (.refused (js "trail.uso") [])

def sampleStorage : Storage :=
  [(js ".brain", .directory), (configRef, .file sampleInput.sourceContent)]

def sampleTimes : Cycle := ⟨1767225600000, 1767225601000⟩

private theorem sample_hashed (content : JsString) : sha256Pattern (Sha256.sha256 content) = true := by
  rw [sha256Pattern, Sha256.length_sha256, Sha256.all_sha256]
  rfl

private theorem sample_fresh : Fresh Sha256.sha256 sampleInput sampleStorage where
  housed := housed_of_stored (by decide)
  config := rfl
  directory := .inl (by decide)
  unattempted := by
    have none : sampleStorage.list migrationsRef = [] := by decide
    rw [none]
    exact fun _ member => nomatch member

private theorem sample_dated : sampleTimes.Dated := by
  constructor <;> constructor <;> decide

private theorem asciiLowerCase_keeps : Keeps asciiLowerCase := by
  intro path plain
  have kept : ∀ u ∈ path, (if isUpperAlpha u then u + 32 else u) = u := by
    intro u member
    refine if_neg fun upper => ?_
    have other := plain u member
    simp only [isPathUnit, isSlugUnit, isLowerAlpha, isUpperAlpha, isDigit, between, unit,
      Bool.or_eq_true, Bool.and_eq_true, decide_eq_true_eq, beq_iff_eq] at other upper
    have letters : Char.toNat 'A' = 65 ∧ Char.toNat 'Z' = 90 ∧ Char.toNat 'a' = 97 ∧
        Char.toNat '0' = 48 ∧ Char.toNat '9' = 57 := by decide
    rcases other with (((lower | digit) | rfl) | rfl) | rfl
    · omega
    · omega
    all_goals exact absurd upper (by decide)
  exact (List.map_congr_left kept).trans (List.map_id' path)

/-- After ten thousand cycles there is no next attempt. -/
theorem replacements_exhausted :
    ∃ final, Reaches (Migration.cycle asciiLowerCase Sha256.sha256 sampleUpgrade) sampleStorage
        (List.replicate 10000 sampleTimes) final ∧
      nextConfigAttempt Sha256.sha256 (storedFiles Sha256.sha256 final) sampleInput =
        .error (stateCorrupt migrationsRef) := by
  obtain ⟨final, run, cycled⟩ := @Cycled.run Sha256.sha256 sampleInput _ []
    (List.replicate 10000 sampleTimes) _ sampleUpgrade sample_hashed sample_fresh.cycled
    asciiLowerCase_keeps (if_pos rfl) (fun times member => List.eq_of_mem_replicate member ▸ sample_dated)
    (Nat.le_of_eq List.length_replicate)
  exact ⟨final, run, cycled.full sample_hashed List.length_replicate⟩

/-- Two cycles of one replacement. -/
theorem replacements_restored_twice :
    ∃ final, Reaches (Migration.cycle asciiLowerCase Sha256.sha256 sampleUpgrade) sampleStorage
        [sampleTimes, sampleTimes] final ∧
      Restored Sha256.sha256 sampleInput sampleUpgrade [sampleTimes, sampleTimes] final :=
  replacements_restored sample_hashed asciiLowerCase_keeps (if_pos rfl) sample_fresh
    (by simp [sample_dated]) (by decide)

end Instances

end Kratos.Migration
