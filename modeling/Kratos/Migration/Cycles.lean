/- source: composition/migration.ts, domain/cli/migration.ts, domain/migration/receipt.ts
   digest: A replacement and its rollback, any number of times. -/

import Kratos.Migration.Attempts

set_option autoImplicit false

namespace Kratos.Migration

open Foundation.Text Foundation.JsonText Foundation.Collections Foundation.Lines Foundation.Calendar
open Foundation.Paths Foundation.Runs Patterns Durable Schema Transactions

section Places

variable {id other : JsString} {file another : AuditFile}

private theorem names_apart {rest : List JsString}
    (shape : segments another.name = segments file.name ++ rest) : file = another ∧ rest = [] := by
  have table : ∀ left right : AuditFile,
      (segments left.name).isPrefixOf (segments right.name) = true → left = right := by
    intro left right
    cases left <;> cases right <;> decide
  have same : file = another :=
    table file another (List.isPrefixOf_iff_prefix.mpr ⟨rest, shape.symm⟩)
  subst same
  exact ⟨rfl, List.append_right_eq_self.mp shape.symm⟩

theorem unrelated_auditPath (identifier : Identifier id) (otherIdentifier : Identifier other)
    (different : id ≠ other ∨ file ≠ another) :
    Unrelated (auditPath id file) (auditPath other another) := by
  have apart : ∀ {left right : JsString} {f g : AuditFile}, Identifier left → Identifier right →
      ∀ rest, segments (auditPath right g) = segments (auditPath left f) ++ rest →
        left = right ∧ f = g ∧ rest = [] := by
    intro left right f g leftNamed rightNamed rest shape
    rw [segments_auditPath leftNamed, segments_auditPath rightNamed, List.append_assoc] at shape
    injection shape with _ shape
    injection shape with _ shape
    injection shape with same shape
    obtain ⟨rfl, none⟩ := names_apart shape
    exact ⟨same.symm, rfl, none⟩
  refine ⟨?_, ?_, ?_⟩
  · intro same
    obtain ⟨rfl, rfl, -⟩ := apart identifier otherIdentifier [] (by rw [same, List.append_nil])
    exact different.elim (· rfl) (· rfl)
  · rw [Bool.eq_false_iff]
    intro above
    obtain ⟨rest, some, shape⟩ := isParent_iff.mp above
    exact some (apart identifier otherIdentifier rest shape).2.2
  · rw [Bool.eq_false_iff]
    intro above
    obtain ⟨rest, some, shape⟩ := isParent_iff.mp above
    exact some (apart otherIdentifier identifier rest shape).2.2

theorem unrelated_configRef (identifier : Identifier id) (file : AuditFile) :
    Unrelated configRef (auditPath id file) := by
  have config : segments configRef = [js ".brain", js "config.json"] := by decide
  have apart : ∀ rest, segments (auditPath id file) ≠ segments configRef ++ rest := by
    intro rest shape
    rw [segments_auditPath identifier, config] at shape
    injection shape with _ shape
    injection shape with same
    exact absurd same (by decide)
  refine ⟨?_, ?_, ?_⟩
  · intro same
    exact apart [] (by rw [same, List.append_nil])
  · rw [Bool.eq_false_iff]
    intro above
    obtain ⟨rest, -, shape⟩ := isParent_iff.mp above
    exact apart rest shape
  · rw [Bool.eq_false_iff]
    intro above
    obtain ⟨rest, -, shape⟩ := isParent_iff.mp above
    rw [segments_auditPath identifier, config] at shape
    injection shape with _ shape
    injection shape with same
    exact absurd same (by decide)

theorem isParent_auditPath (identifier : Identifier id) {parent : JsString}
    (above : isParent parent (auditPath id file) = true) :
    parent = js ".brain" ∨ parent = migrationsRef ∨ isParent (attemptRoot id) parent = true ∨
      parent = attemptRoot id := by
  have root : isParent (attemptRoot id) (auditPath id file) = true :=
    isParent_iff.mpr ⟨segments file.name, segments_ne_nil _, by
      rw [segments_auditPath identifier, segments_attemptRoot identifier]⟩
  rcases isParent_line above root with same | higher | lower
  · exact .inr (.inr (.inr same))
  · obtain ⟨rest, some, shape⟩ := isParent_iff.mp higher
    rw [segments_attemptRoot identifier] at shape
    have brain : segments (js ".brain") = [js ".brain"] := by decide
    have migrations : segments migrationsRef = [js ".brain", js "migrations"] := by decide
    cases parts : segments parent with
    | nil => exact absurd parts (segments_ne_nil parent)
    | cons first parts' =>
        rw [parts] at shape
        injection shape with firstSame shape
        cases parts' with
        | nil => exact .inl (segments_injective (by rw [parts, brain, firstSame]))
        | cons second parts' =>
            injection shape with secondSame shape
            cases parts' with
            | nil => exact .inr (.inl (segments_injective (by rw [parts, migrations, firstSame, secondSame])))
            | cons third parts' =>
                injection shape with _ none
                exact absurd (List.append_eq_nil_iff.mp none.symm).2 some
  · exact .inr (.inr (.inl lower))

private theorem segments_entry {entry : JsString} (plain : unit '/' ∉ entry) :
    segments (migrationsRef ++ (js "/" ++ entry)) = [js ".brain", js "migrations", entry] := by
  rw [← List.append_assoc, segments_append, segments_name plain]
  rfl

private theorem entry_above (identifier : Identifier id) {entry : JsString} (plain : unit '/' ∉ entry)
    (near : migrationsRef ++ (js "/" ++ entry) = auditPath id file ∨
      isParent (migrationsRef ++ (js "/" ++ entry)) (auditPath id file) = true) : entry = id := by
  have shape : ∃ rest, segments (auditPath id file) =
      segments (migrationsRef ++ (js "/" ++ entry)) ++ rest := by
    rcases near with same | above
    · exact ⟨[], by rw [same, List.append_nil]⟩
    · obtain ⟨rest, -, shape⟩ := isParent_iff.mp above
      exact ⟨rest, shape⟩
  obtain ⟨rest, shape⟩ := shape
  rw [segments_entry plain, segments_auditPath identifier] at shape
  injection shape with _ shape
  injection shape with _ shape
  injection shape with same
  exact same.symm

private theorem entry_config {entry : JsString} (plain : unit '/' ∉ entry) :
    ¬(migrationsRef ++ (js "/" ++ entry) = configRef ∨
      isParent (migrationsRef ++ (js "/" ++ entry)) configRef = true) := by
  have config : segments configRef = [js ".brain", js "config.json"] := by decide
  rintro (same | above)
  · have parts := congrArg segments same
    rw [segments_entry plain, config] at parts
    cases parts
  · obtain ⟨rest, -, shape⟩ := isParent_iff.mp above
    rw [segments_entry plain, config] at shape
    injection shape with _ shape
    injection shape with same
    exact absurd same (by decide)

end Places

section States

variable (sha256 : JsString → JsString) (input : ConfigInput)

/-- The identifier of an attempt by its number. -/
def attemptAt (attempt : Nat) : JsString := attemptId (baseMigrationId sha256 input) attempt

/-- What an audit file of an attempt holds after the cycle that made it. -/
def cycleContent (attempt : Nat) (times : Cycle) (file : AuditFile) : JsString :=
  settledContent sha256 input (attemptAt sha256 input attempt) (toISOString times.planTime)
    (toISOString times.rollbackTime) file

/-- A project with the source of a replacement, of which no attempt was made. -/
structure Fresh (storage : Storage) : Prop where
  housed : Housed storage.find
  config : storage.find configRef = some (.file input.sourceContent)
  directory : storage.find migrationsRef = none ∨ storage.find migrationsRef = some .directory
  unattempted : ∀ entry ∈ storage.list migrationsRef,
    attemptOf (baseMigrationId sha256 input) entry = none

/-- A project with the source of a replacement that was applied and rolled back at these times. -/
structure Cycled (storage : Storage) (cycles : List Cycle) : Prop where
  housed : Housed storage.find
  config : storage.find configRef = some (.file input.sourceContent)
  directory : storage.find migrationsRef = none ∨ storage.find migrationsRef = some .directory
  attempts : ∀ index times, cycles[index]? = some times → ∀ file,
    storage.find (auditPath (attemptAt sha256 input (index + 1)) file) =
      some (.file (cycleContent sha256 input (index + 1) times file))
  entries : ∀ entry ∈ storage.list migrationsRef,
    attemptOf (baseMigrationId sha256 input) entry = none ∨
      ∃ attempt, 1 ≤ attempt ∧ attempt ≤ cycles.length ∧ entry = attemptAt sha256 input attempt

/-- The times of a cycle are times of the calendar. -/
def Cycle.Dated (times : Cycle) : Prop := InCalendar times.planTime ∧ InCalendar times.rollbackTime

/-- The files of an attempt that the next plan depends on. -/
def guardsOf (cycles : List Cycle) (attempt : Nat) : List ConfigAttemptGuard :=
  match cycles[attempt - 1]? with
  | none => []
  | some times =>
      attemptGuards (attemptAt sha256 input attempt)
        (settledFiles sha256 input (attemptAt sha256 input attempt) (toISOString times.planTime)
          (toISOString times.rollbackTime))

variable {sha256 input} {storage : Storage} {cycles : List Cycle}

theorem Fresh.cycled (fresh : Fresh sha256 input storage) : Cycled sha256 input storage [] where
  housed := fresh.housed
  config := fresh.config
  directory := fresh.directory
  attempts index times member := by cases member
  entries entry member := .inl (fresh.unattempted entry member)

variable (hashed : ∀ content, sha256Pattern (sha256 content) = true)
include hashed

theorem identifier_attemptAt {attempt : Nat} (bounded : attempt ≤ maxConfigMigrationAttempts) :
    Identifier (attemptAt sha256 input attempt) :=
  identifier_attemptId hashed bounded

private theorem attemptRoot_listed {attempt : Nat} (bounded : attempt ≤ maxConfigMigrationAttempts)
    (stored : storage.find (attemptRoot (attemptAt sha256 input attempt)) ≠ none) :
    attemptAt sha256 input attempt ∈ storage.list migrationsRef := by
  refine Storage.mem_list_iff.mpr ⟨?_, ?_⟩
  · intro slash
    exact absurd ((identifier_attemptAt hashed bounded).slug _ slash) (by decide)
  · rw [attemptRoot, List.append_assoc] at stored
    exact stored

theorem Cycled.unstored (cycled : Cycled sha256 input storage cycles) {attempt : Nat}
    (later : cycles.length < attempt) (bounded : attempt ≤ maxConfigMigrationAttempts) {path : JsString}
    (inside : path = attemptRoot (attemptAt sha256 input attempt) ∨
      isParent (attemptRoot (attemptAt sha256 input attempt)) path = true) :
    storage.find path = none := by
  by_contra stored
  have root : storage.find (attemptRoot (attemptAt sha256 input attempt)) ≠ none := by
    rcases inside with rfl | below
    · exact stored
    · rw [cycled.housed path stored _ below]
      exact Option.some_ne_none _
  have number : attemptOf (baseMigrationId sha256 input) (attemptAt sha256 input attempt) =
      some (some attempt) := attemptOf_attemptId (by omega)
  rcases cycled.entries _ (attemptRoot_listed hashed bounded root) with other | ⟨k, least, most, same⟩
  · rw [other] at number
    cases number
  · have again : attemptOf (baseMigrationId sha256 input) (attemptAt sha256 input k) = some (some k) :=
      attemptOf_attemptId least
    rw [same, again] at number
    injection number with number
    injection number with number
    omega

theorem Cycled.numbered (cycled : Cycled sha256 input storage cycles)
    (bounded : cycles.length ≤ maxConfigMigrationAttempts) :
    Numbered (baseMigrationId sha256 input) (storage.list migrationsRef) cycles.length := by
  refine ⟨fun attempt least most => ?_, cycled.entries⟩
  have within : attempt - 1 < cycles.length := by omega
  have held := cycled.attempts (attempt - 1) cycles[attempt - 1] (List.getElem?_eq_getElem within) .receipt
  rw [Nat.sub_add_cancel least] at held
  refine attemptRoot_listed hashed (by omega) ?_
  have above : isParent (attemptRoot (attemptAt sha256 input attempt))
      (auditPath (attemptAt sha256 input attempt) .receipt) = true := startsWith_append _ _
  rw [cycled.housed _ (by rw [held]; exact Option.some_ne_none _) _ above]
  exact Option.some_ne_none _

omit hashed in
private theorem Cycled.listed (cycled : Cycled sha256 input storage cycles) (made : 0 < cycles.length) :
    storage.find migrationsRef = some .directory := by
  have held := cycled.attempts 0 _ (List.getElem?_eq_getElem made) .receipt
  have above : isParent migrationsRef (auditPath (attemptAt sha256 input 1) .receipt) = true := by
    rw [isParent, auditPath_eq]
    exact startsWith_append (js ".brain/migrations/") _
  exact cycled.housed _ (by rw [held]; exact Option.some_ne_none _) _ above

omit hashed in
private theorem Cycled.read (cycled : Cycled sha256 input storage cycles) {attempt : Nat} {times : Cycle}
    (least : 1 ≤ attempt) (made : cycles[attempt - 1]? = some times) (file : AuditFile) :
    readStableFile sha256 (storedFiles sha256 storage)
        (auditPath (attemptAt sha256 input attempt) file) =
      .ok (.file (observedAs sha256 (settledContent sha256 input (attemptAt sha256 input attempt)
        (toISOString times.planTime) (toISOString times.rollbackTime) file))) := by
  have held := cycled.attempts (attempt - 1) times made file
  rw [Nat.sub_add_cancel least] at held
  exact readStableFile_stored held

private theorem Cycled.observed (cycled : Cycled sha256 input storage cycles)
    (bounded : cycles.length ≤ maxConfigMigrationAttempts) (dated : ∀ times ∈ cycles, times.Dated)
    {attempt : Nat} (least : 1 ≤ attempt) (most : attempt ≤ cycles.length) :
    observePriorConfigAttempt sha256 (storedFiles sha256 storage) input
        (attemptAt sha256 input attempt) = .ok (guardsOf sha256 input cycles attempt) := by
  have within : attempt - 1 < cycles.length := by omega
  have made : cycles[attempt - 1]? = some cycles[attempt - 1] := List.getElem?_eq_getElem within
  obtain ⟨planned, reverted⟩ := dated _ (List.getElem_mem within)
  have files := attemptFiles_settled (cycled.read least made)
    (validMigration_settled hashed (identifier_attemptAt hashed (by omega)) planned reverted)
  refine observePriorConfigAttempt_ok_iff.mpr ⟨_, _, _, files, ?_⟩
  rw [guardsOf, made]

/-- After any number of cycles below the limit the next plan has the next number. -/
theorem Cycled.next (cycled : Cycled sha256 input storage cycles)
    (room : cycles.length < maxConfigMigrationAttempts) (dated : ∀ times ∈ cycles, times.Dated) :
    nextConfigAttempt sha256 (storedFiles sha256 storage) input =
      .ok ⟨attemptAt sha256 input (cycles.length + 1),
        (List.range' 1 cycles.length).flatMap (guardsOf sha256 input cycles)⟩ := by
  have inspected : (storedFiles sha256 storage).inspect migrationsRef =
      some (Node.entry sha256 (storage.find migrationsRef)) := rfl
  rcases cycled.directory with none | directory
  · have empty : cycles.length = 0 := by
      by_contra some
      have directory := cycled.listed (by omega)
      rw [none] at directory
      cases directory
    rw [nextConfigAttempt, inspected, none, empty]
    rfl
  · have read := lineageOf_numbered (cycled.numbered hashed (Nat.le_of_lt room))
    have listed : (storedFiles sha256 storage).list migrationsRef = some (storage.list migrationsRef) :=
      rfl
    have accepted : (List.range' 1 cycles.length).mapM (fun attempt =>
        observePriorConfigAttempt sha256 (storedFiles sha256 storage) input
          (attemptId (baseMigrationId sha256 input) attempt)) =
        .ok ((List.range' 1 cycles.length).map (guardsOf sha256 input cycles)) := by
      refine mapM_ok_of fun attempt member => ?_
      rw [List.mem_range'_1] at member
      exact cycled.observed hashed (Nat.le_of_lt room) dated member.1 (by omega)
    rw [nextConfigAttempt, inspected, directory]
    simp only [Node.entry, listed, read, attemptAfter, List.length_range',
      consecutive_range (Nat.le_of_lt room), accepted]
    rw [if_neg (by simp), if_neg (by omega)]
    rfl

theorem Cycled.full (cycled : Cycled sha256 input storage cycles)
    (full : cycles.length = maxConfigMigrationAttempts) :
    nextConfigAttempt sha256 (storedFiles sha256 storage) input =
      .error (stateCorrupt migrationsRef) := by
  have most : 0 < maxConfigMigrationAttempts := by decide
  have inspected : (storedFiles sha256 storage).inspect migrationsRef =
      some (Node.entry sha256 (storage.find migrationsRef)) := rfl
  have listed : (storedFiles sha256 storage).list migrationsRef = some (storage.list migrationsRef) := rfl
  rw [nextConfigAttempt, inspected, cycled.listed (by omega)]
  simp only [Node.entry, listed, lineageOf_numbered (cycled.numbered hashed (Nat.le_of_eq full)),
    attemptAfter, List.length_range', consecutive_range (Nat.le_of_eq full)]
  rw [if_neg (by simp), if_pos (by omega)]

end States

section Plans

variable {sha256 : JsString → JsString} {input : ConfigInput} {path other : JsString}
  {effects : List WriteEffect} {lower : CaseMapping}

/-- A path that a replacement writes or depends on. -/
def Place (sha256 : JsString → JsString) (input : ConfigInput) (path : JsString) : Prop :=
  path = configRef ∨ ∃ attempt file, 1 ≤ attempt ∧ attempt ≤ maxConfigMigrationAttempts ∧
    path = auditPath (attemptAt sha256 input attempt) file

theorem attemptAt_injective {attempt again : Nat} (least : 1 ≤ attempt) (positive : 1 ≤ again)
    (same : attemptAt sha256 input attempt = attemptAt sha256 input again) : attempt = again := by
  have first : attemptOf (baseMigrationId sha256 input) (attemptAt sha256 input attempt) =
      some (some attempt) := attemptOf_attemptId least
  have second : attemptOf (baseMigrationId sha256 input) (attemptAt sha256 input again) =
      some (some again) := attemptOf_attemptId positive
  rw [same, second] at first
  injection first with first
  injection first with first
  exact first.symm

variable (hashed : ∀ content, sha256Pattern (sha256 content) = true)
include hashed

theorem Place.unrelated (place : Place sha256 input path) (otherPlace : Place sha256 input other)
    (different : path ≠ other) : Unrelated path other := by
  rcases place with rfl | ⟨attempt, file, least, most, rfl⟩
  · rcases otherPlace with rfl | ⟨again, another, -, bounded, rfl⟩
    · exact absurd rfl different
    · exact unrelated_configRef (identifier_attemptAt hashed bounded) another
  · rcases otherPlace with rfl | ⟨again, another, positive, bounded, rfl⟩
    · exact (unrelated_configRef (identifier_attemptAt hashed most) file).symm
    · refine unrelated_auditPath (identifier_attemptAt hashed most) (identifier_attemptAt hashed bounded) ?_
      by_contra same
      rw [not_or, not_not, not_not] at same
      rw [same.1, same.2] at different
      exact different rfl

private theorem Place.plain (place : Place sha256 input path) : ∀ u ∈ path, isPathUnit u = true := by
  rcases place with rfl | ⟨attempt, file, -, most, rfl⟩
  · decide
  · exact auditPath_plain (identifier_attemptAt hashed most) file

private theorem Place.managed (keeps : Keeps lower) (place : Place sha256 input path) :
    isManagedDestination lower path = true := by
  rcases place with rfl | ⟨attempt, file, -, most, rfl⟩
  · exact isManagedDestination_configRef keeps
  · exact isManagedDestination_auditPath keeps (identifier_attemptAt hashed most) file

theorem checkPlan_places (keeps : Keeps lower) (places : ∀ effect ∈ effects, Place sha256 input effect.path)
    (distinct : effects.Pairwise fun left right => left.path ≠ right.path) :
    checkPlan lower effects = .ok () ∧
      effects.Pairwise fun left right => Unrelated left.path right.path := by
  have unrelated : effects.Pairwise fun left right => Unrelated left.path right.path := by
    refine distinct.imp_of_mem ?_
    intro left right leftIn rightIn different
    exact (places left leftIn).unrelated hashed (places right rightIn) different
  refine ⟨checkPlan_ok (fun effect member => (places effect member).managed hashed keeps) ?_ unrelated,
    unrelated⟩
  have spelling : ∀ path ∈ effects.flatMap (fun effect => prefixes effect.path),
      lower.toLowerCase path = path := by
    intro path member
    obtain ⟨effect, among, inside⟩ := List.mem_flatMap.mp member
    have plain := (places effect among).plain hashed
    refine keeps path fun u unit => plain u ?_
    rcases mem_prefixes_iff.mp inside with rfl | above
    · exact unit
    · obtain ⟨rest, shape⟩ := (startsWith_iff _ _).mp above
      rw [shape]
      exact List.mem_append_left _ (List.mem_append_left _ unit)
  intro left leftIn right rightIn same
  rwa [spelling left leftIn, spelling right rightIn] at same

theorem auditPath_ne {attempt again : Nat} {file another : AuditFile} (least : 1 ≤ attempt)
    (most : attempt ≤ maxConfigMigrationAttempts) (positive : 1 ≤ again)
    (bounded : again ≤ maxConfigMigrationAttempts) (different : attempt ≠ again ∨ file ≠ another) :
    auditPath (attemptAt sha256 input attempt) file ≠ auditPath (attemptAt sha256 input again) another :=
  (unrelated_auditPath (identifier_attemptAt hashed most) (identifier_attemptAt hashed bounded)
    (different.imp_left fun other same => other (attemptAt_injective least positive same))).1

theorem configRef_ne {attempt : Nat} (bounded : attempt ≤ maxConfigMigrationAttempts)
    (file : AuditFile) : configRef ≠ auditPath (attemptAt sha256 input attempt) file :=
  (unrelated_configRef (identifier_attemptAt hashed bounded) file).1

end Plans

section Applying

variable (sha256 : JsString → JsString) (input : ConfigInput)

/-- What an audit file of an attempt holds once the attempt was applied. -/
def appliedContent (attempt : Nat) (planTime : Int) (file : AuditFile) : JsString :=
  auditContent sha256 input
    (settledReceipt sha256 input .completed (attemptAt sha256 input attempt) (toISOString planTime)
      (toISOString planTime))
    (attemptAt sha256 input attempt) (toISOString planTime) file

/-- A project in which the next replacement was applied after the cycles at these times. -/
structure Applied (storage : Storage) (cycles : List Cycle) (planTime : Int) : Prop where
  housed : Housed storage.find
  config : storage.find configRef = some (.file input.destinationContent)
  attempts : ∀ index times, cycles[index]? = some times → ∀ file,
    storage.find (auditPath (attemptAt sha256 input (index + 1)) file) =
      some (.file (cycleContent sha256 input (index + 1) times file))
  current : ∀ file, storage.find (auditPath (attemptAt sha256 input (cycles.length + 1)) file) =
    some (.file (appliedContent sha256 input (cycles.length + 1) planTime file))
  entries : ∀ entry ∈ storage.list migrationsRef,
    attemptOf (baseMigrationId sha256 input) entry = none ∨
      ∃ attempt, 1 ≤ attempt ∧ attempt ≤ cycles.length + 1 ∧ entry = attemptAt sha256 input attempt

def guardsAfter (cycles : List Cycle) : List ConfigAttemptGuard :=
  (List.range' 1 cycles.length).flatMap (guardsOf sha256 input cycles)

def asEffect (guarded : ConfigAttemptGuard) : WriteEffect :=
  ⟨guarded.path, guarded.content, guarded.expected⟩

def writesAfter (cycles : List Cycle) (planTime : Int) : List WriteEffect :=
  planWrites sha256 input (utf8Length input.sourceContent)
    (attemptAt sha256 input (cycles.length + 1)) (toISOString planTime)
    (settledReceipt sha256 input .completed (attemptAt sha256 input (cycles.length + 1))
      (toISOString planTime) (toISOString planTime))

variable {sha256 input} {storage : Storage} {cycles : List Cycle} {planTime : Int}

private theorem mem_guardsOf {attempt : Nat} {guarded : ConfigAttemptGuard}
    (member : guarded ∈ guardsOf sha256 input cycles attempt) :
    ∃ times file, cycles[attempt - 1]? = some times ∧
      guarded.path = auditPath (attemptAt sha256 input attempt) file ∧
      guarded.content = cycleContent sha256 input attempt times file ∧
      guarded.expected = .file (utf8Length guarded.content) (sha256 guarded.content) := by
  rw [guardsOf] at member
  split at member
  · cases member
  · rename_i times made
    obtain ⟨file, -, rfl⟩ := List.mem_map.mp member
    refine ⟨times, file, made, rfl, ?_, ?_⟩
    · rw [settledFiles_get]
      rfl
    · rw [settledFiles_get]
      rfl

private theorem mem_guardsAfter {guarded : ConfigAttemptGuard}
    (member : guarded ∈ guardsAfter sha256 input cycles) :
    ∃ index times file, cycles[index]? = some times ∧
      guarded.path = auditPath (attemptAt sha256 input (index + 1)) file ∧
      guarded.content = cycleContent sha256 input (index + 1) times file ∧
      guarded.expected = .file (utf8Length guarded.content) (sha256 guarded.content) := by
  obtain ⟨attempt, numbered, inside⟩ := List.mem_flatMap.mp member
  rw [List.mem_range'_1] at numbered
  obtain ⟨times, file, made, shape⟩ := mem_guardsOf inside
  refine ⟨attempt - 1, times, file, made, ?_⟩
  rw [Nat.sub_add_cancel numbered.1]
  exact shape

private theorem guarded_guardsAfter {index : Nat} {times : Cycle} (made : cycles[index]? = some times)
    (file : AuditFile) : ∃ guarded ∈ guardsAfter sha256 input cycles,
      guarded.path = auditPath (attemptAt sha256 input (index + 1)) file ∧
        guarded.content = cycleContent sha256 input (index + 1) times file := by
  have within := (List.getElem?_eq_some_iff.mp made).1
  have listed : file ∈ auditFiles := by cases file <;> decide
  let content := cycleContent sha256 input (index + 1) times file
  refine ⟨⟨auditPath (attemptAt sha256 input (index + 1)) file, content,
    .file (utf8Length content) (sha256 content)⟩, List.mem_flatMap.mpr ⟨index + 1,
      List.mem_range'_1.mpr ⟨by omega, by omega⟩, ?_⟩, rfl, rfl⟩
  rw [guardsOf, Nat.add_sub_cancel, made]
  refine List.mem_map.mpr ⟨file, listed, ?_⟩
  rw [settledFiles_get]
  rfl

private theorem mem_writesAfter {effect : WriteEffect}
    (member : effect ∈ writesAfter sha256 input cycles planTime) :
    effect = ⟨configRef, input.destinationContent,
        .file (utf8Length input.sourceContent) (input.sourceDigest sha256)⟩ ∨
      ∃ file, effect = ⟨auditPath (attemptAt sha256 input (cycles.length + 1)) file,
        appliedContent sha256 input (cycles.length + 1) planTime file, .missing⟩ := by
  simp only [writesAfter, planWrites, List.mem_cons, List.not_mem_nil, or_false] at member
  rcases member with rfl | rfl | rfl | rfl | rfl | rfl
  · exact .inl rfl
  · exact .inr ⟨.backup, rfl⟩
  · exact .inr ⟨.authorization, rfl⟩
  · exact .inr ⟨.rollback, rfl⟩
  · exact .inr ⟨.receipt, rfl⟩
  · exact .inr ⟨.verification, rfl⟩

private theorem written_writesAfter (file : AuditFile) :
    ⟨auditPath (attemptAt sha256 input (cycles.length + 1)) file,
      appliedContent sha256 input (cycles.length + 1) planTime file, .missing⟩ ∈
      writesAfter sha256 input cycles planTime := by
  simp only [writesAfter, planWrites, List.mem_cons, List.not_mem_nil, or_false]
  cases file with
  | authorization => exact .inr (.inr (.inl rfl))
  | backup => exact .inr (.inl rfl)
  | receipt => exact .inr (.inr (.inr (.inr (.inl rfl))))
  | rollback => exact .inr (.inr (.inr (.inl rfl)))
  | verification => exact .inr (.inr (.inr (.inr (.inr rfl))))

variable (sha256 input) in
def effectsAfter (cycles : List Cycle) (planTime : Int) : List WriteEffect :=
  (guardsAfter sha256 input cycles).map asEffect ++ writesAfter sha256 input cycles planTime

variable (hashed : ∀ content, sha256Pattern (sha256 content) = true)
include hashed

omit hashed in
private theorem effectsAfter_places (room : cycles.length < maxConfigMigrationAttempts) :
    ∀ effect ∈ effectsAfter sha256 input cycles planTime, Place sha256 input effect.path := by
  intro effect member
  rcases List.mem_append.mp member with guarded | written
  · obtain ⟨entry, inside, rfl⟩ := List.mem_map.mp guarded
    obtain ⟨index, times, file, made, path, -, -⟩ := mem_guardsAfter inside
    have within := (List.getElem?_eq_some_iff.mp made).1
    exact .inr ⟨index + 1, file, by omega, by omega, path⟩
  · rcases mem_writesAfter written with rfl | ⟨file, rfl⟩
    · exact .inl rfl
    · exact .inr ⟨cycles.length + 1, file, by omega, by omega, rfl⟩

private theorem guardsOf_distinct {attempt : Nat} (least : 1 ≤ attempt)
    (bounded : attempt ≤ maxConfigMigrationAttempts) :
    (guardsOf sha256 input cycles attempt).Pairwise fun left right => left.path ≠ right.path := by
  have files : auditFiles.Nodup := by decide
  rw [guardsOf]
  split
  · exact .nil
  · refine List.pairwise_map.mpr (files.imp ?_)
    intro left right different
    exact auditPath_ne hashed least bounded least bounded (.inr different)

private theorem writesAfter_distinct (room : cycles.length < maxConfigMigrationAttempts) :
    (writesAfter sha256 input cycles planTime).Pairwise fun left right => left.path ≠ right.path := by
  have apart : ∀ {left right : AuditFile}, left ≠ right →
      auditPath (attemptAt sha256 input (cycles.length + 1)) left ≠
        auditPath (attemptAt sha256 input (cycles.length + 1)) right := by
    intro left right different
    exact auditPath_ne hashed (by omega) (by omega) (by omega) (by omega) (.inr different)
  have beside : ∀ file, configRef ≠ auditPath (attemptAt sha256 input (cycles.length + 1)) file :=
    configRef_ne hashed (by omega)
  simp [writesAfter, planWrites, beside, apart]

private theorem effectsAfter_distinct (room : cycles.length < maxConfigMigrationAttempts) :
    (effectsAfter sha256 input cycles planTime).Pairwise fun left right => left.path ≠ right.path := by
  refine List.pairwise_append.mpr ⟨List.pairwise_map.mpr ?_, writesAfter_distinct hashed room, ?_⟩
  · refine List.pairwise_flatMap.mpr ⟨?_, ?_⟩
    · intro attempt member
      rw [List.mem_range'_1] at member
      exact guardsOf_distinct hashed member.1 (by omega)
    · have ascending : (List.range' 1 cycles.length).Pairwise (· < ·) := List.pairwise_lt_range'
      refine ascending.imp_of_mem ?_
      intro attempt later member laterIn less left leftIn right rightIn
      rw [List.mem_range'_1] at member laterIn
      obtain ⟨-, file, -, path, -⟩ := mem_guardsOf leftIn
      obtain ⟨-, another, -, laterPath, -⟩ := mem_guardsOf rightIn
      show left.path ≠ right.path
      rw [path, laterPath]
      exact auditPath_ne hashed (by omega) (by omega) (by omega) (by omega) (.inl (by omega))
  · intro left leftIn right rightIn
    obtain ⟨entry, inside, rfl⟩ := List.mem_map.mp leftIn
    obtain ⟨index, times, file, made, path, -, -⟩ := mem_guardsAfter inside
    have within := (List.getElem?_eq_some_iff.mp made).1
    show entry.path ≠ right.path
    rw [path]
    rcases mem_writesAfter rightIn with rfl | ⟨another, rfl⟩
    · exact (configRef_ne hashed (by omega) file).symm
    · exact auditPath_ne hashed (by omega) (by omega) (by omega) (by omega) (.inl (by omega))

private theorem Cycled.expected (cycled : Cycled sha256 input storage cycles)
    (room : cycles.length < maxConfigMigrationAttempts) :
    ∀ effect ∈ effectsAfter sha256 input cycles planTime,
      fingerprintOf (Node.entry sha256 (storage.find effect.path)) = some effect.expected := by
  intro effect member
  rcases List.mem_append.mp member with guarded | written
  · obtain ⟨entry, inside, rfl⟩ := List.mem_map.mp guarded
    obtain ⟨index, times, file, made, path, content, expected⟩ := mem_guardsAfter inside
    show fingerprintOf (Node.entry sha256 (storage.find entry.path)) = some entry.expected
    rw [path, cycled.attempts index times made file, expected, content]
    rfl
  · rcases mem_writesAfter written with rfl | ⟨file, rfl⟩
    · show fingerprintOf (Node.entry sha256 (storage.find configRef)) = _
      rw [cycled.config]
      rfl
    · have above : isParent (attemptRoot (attemptAt sha256 input (cycles.length + 1)))
          (auditPath (attemptAt sha256 input (cycles.length + 1)) file) = true := startsWith_append _ _
      show fingerprintOf (Node.entry sha256 (storage.find (auditPath _ file))) = _
      rw [cycled.unstored hashed (Nat.lt_succ_self _) room (.inr above)]
      rfl

private theorem Cycled.writable (cycled : Cycled sha256 input storage cycles)
    (room : cycles.length < maxConfigMigrationAttempts) :
    ∀ effect ∈ effectsAfter sha256 input cycles planTime, Writable storage.find effect.path := by
  intro effect member
  rcases List.mem_append.mp member with guarded | written
  · obtain ⟨entry, inside, rfl⟩ := List.mem_map.mp guarded
    obtain ⟨index, times, file, made, path, -⟩ := mem_guardsAfter inside
    show Writable storage.find entry.path
    rw [path]
    exact cycled.housed.writable (cycled.attempts index times made file)
  · rcases mem_writesAfter written with rfl | ⟨file, rfl⟩
    · exact cycled.housed.writable cycled.config
    · have unstored := fun path inside =>
        @Cycled.unstored _ _ _ _ hashed cycled _ (Nat.lt_succ_self cycles.length) room path inside
      have above : isParent (attemptRoot (attemptAt sha256 input (cycles.length + 1)))
          (auditPath (attemptAt sha256 input (cycles.length + 1)) file) = true := startsWith_append _ _
      constructor
      · show storage.find (auditPath _ file) ≠ _
        rw [unstored _ (.inr above)]
        exact fun directory => nomatch directory
      · intro parent higher
        rcases isParent_auditPath (identifier_attemptAt hashed room) higher with rfl | rfl | beneath | rfl
        · have brain : isParent (js ".brain") configRef = true := by decide
          exact .inr (cycled.housed configRef (by rw [cycled.config]; exact Option.some_ne_none _) _ brain)
        · exact cycled.directory
        · exact .inl (unstored _ (.inr beneath))
        · exact .inl (unstored _ (.inl rfl))

theorem Cycled.applied {lower : CaseMapping} (cycled : Cycled sha256 input storage cycles)
    (room : cycles.length < maxConfigMigrationAttempts) (keeps : Keeps lower) (planTime : Int) :
    ∃ next, commit lower sha256 storage (effectsAfter sha256 input cycles planTime) = .ok next ∧
      Applied sha256 input next cycles planTime := by
  have distinct : (effectsAfter sha256 input cycles planTime).Pairwise
      fun left right => left.path ≠ right.path := effectsAfter_distinct hashed room
  obtain ⟨planned, unrelated⟩ := checkPlan_places hashed keeps (effectsAfter_places room) distinct
  have independent : Independent storage.find (effectsAfter sha256 input cycles planTime) :=
    ⟨cycled.writable hashed room, unrelated⟩
  obtain ⟨next, done, holds⟩ := commit_spec (cycled.expected hashed room) planned independent
  refine ⟨next, done, ?_⟩
  constructor
  · rw [holds]
    exact foldl_written_housed cycled.housed independent
  · rw [holds]
    exact foldl_written_own independent (List.mem_append_right _ List.mem_cons_self)
  · intro index times made file
    obtain ⟨guarded, member, path, content⟩ := guarded_guardsAfter made file
    have own := foldl_written_own independent
      (List.mem_append_left _ (List.mem_map_of_mem (f := asEffect) member))
    rw [holds, ← path, ← content]
    exact own
  · intro file
    rw [holds]
    exact foldl_written_own independent (List.mem_append_right _ (written_writesAfter file))
  · intro entry member
    obtain ⟨plain, stored⟩ := Storage.mem_list_iff.mp member
    rw [holds] at stored
    rcases foldl_written_new stored with before | ⟨effect, among, near⟩
    · rcases cycled.entries entry (Storage.mem_list_iff.mpr ⟨plain, before⟩) with other | made
      · exact .inl other
      · obtain ⟨attempt, least, most, same⟩ := made
        exact .inr ⟨attempt, least, by omega, same⟩
    · right
      rcases List.mem_append.mp among with guarded | written
      · obtain ⟨guard, inside, rfl⟩ := List.mem_map.mp guarded
        obtain ⟨index, times, file, made, path, -⟩ := mem_guardsAfter inside
        have within := (List.getElem?_eq_some_iff.mp made).1
        rw [show (asEffect guard).path = guard.path from rfl, path] at near
        exact ⟨index + 1, by omega, by omega,
          entry_above (identifier_attemptAt hashed (by omega)) plain near⟩
      · rcases mem_writesAfter written with rfl | ⟨file, rfl⟩
        · exact absurd near (entry_config plain)
        · exact ⟨cycles.length + 1, by omega, by omega,
            entry_above (identifier_attemptAt hashed room) plain near⟩

omit hashed

variable (sha256 input) in
def operationAfter (cycles : List Cycle) (planTime : Int) : ConfigOperation where
  migrationId := attemptAt sha256 input (cycles.length + 1)
  now := toISOString planTime
  planDigest := writeSetDigest sha256 (attemptAt sha256 input (cycles.length + 1))
    (toISOString planTime) (guardsAfter sha256 input cycles)
    ((writesAfter sha256 input cycles planTime).map (withDigest sha256))
  guards := guardsAfter sha256 input cycles
  writes := (writesAfter sha256 input cycles planTime).map (withDigest sha256)

private theorem migrateConfig_operationAfter :
    migrateConfig (operationAfter sha256 input cycles planTime) =
      effectsAfter sha256 input cycles planTime := by
  have writes : ((writesAfter sha256 input cycles planTime).map (withDigest sha256)).map
      PlannedWrite.toWriteEffect = writesAfter sha256 input cycles planTime := by
    rw [List.map_map]
    exact List.map_id'' (fun _ => rfl) _
  rw [migrateConfig, effectsAfter, operationAfter, writes]
  rfl

private theorem planConfig_after {requestedDigest : Option JsString}
    (requested : ∀ digest ∈ requestedDigest,
      digest = (operationAfter sha256 input cycles planTime).planDigest) :
    planConfig sha256 input (utf8Length input.sourceContent) (toISOString planTime) requestedDigest
        ⟨attemptAt sha256 input (cycles.length + 1), guardsAfter sha256 input cycles⟩ =
      .ok (operationAfter sha256 input cycles planTime) := by
  have same : requestedDigest.any
      (· != (operationAfter sha256 input cycles planTime).planDigest) = false := by
    cases requestedDigest with
    | none => rfl
    | some digest =>
        rw [requested digest rfl]
        simp
  rw [planConfig, completedReceipt_eq]
  exact if_neg (by rw [Bool.not_eq_true]; exact same)

include hashed

/-- What is planned after any number of cycles below the limit, with or without its digest. -/
theorem Cycled.planned {upgrade : Upgrade} (cycled : Cycled sha256 input storage cycles)
    (upgraded : upgrade input.sourceContent = .ok input.toConfigUpgrade)
    (room : cycles.length < maxConfigMigrationAttempts) (dated : ∀ times ∈ cycles, times.Dated)
    (planned : InCalendar planTime) {authorization : Option ConfigAuthorization}
    (named : ∀ given ∈ authorization, given =
      ⟨(operationAfter sha256 input cycles planTime).planDigest, toISOString planTime⟩) :
    observeConfig sha256 (storedFiles sha256 storage) upgrade planTime authorization =
      .ok (operationAfter sha256 input cycles planTime) := by
  have source : readStableFile sha256 (storedFiles sha256 storage) configRef =
      .ok (.file (observedAs sha256 input.sourceContent)) := readStableFile_stored cycled.config
  have attempt := cycled.next hashed room dated
  have valid : authorization.any (fun given => !given.valid) = false := by
    cases authorization with
    | none => rfl
    | some given =>
        have digest : sha256Pattern given.planDigest = true := by
          rw [named given rfl]
          exact hashed _
        have instant : isCanonicalInstant given.planTime = true := by
          rw [named given rfl]
          exact isCanonicalInstant_toISOString planned
        simp [ConfigAuthorization.valid, digest, instant]
  have time : (authorization.map ConfigAuthorization.planTime).getD (toISOString planTime) =
      toISOString planTime := by
    cases authorization with
    | none => rfl
    | some given =>
        rw [named given rfl]
        rfl
  have requested : ∀ digest ∈ authorization.map ConfigAuthorization.planDigest,
      digest = (operationAfter sha256 input cycles planTime).planDigest := by
    intro digest member
    obtain ⟨given, same, rfl⟩ := Option.map_eq_some_iff.mp member
    rw [named given same]
  rw [observeConfig, valid, if_neg Bool.false_ne_true, source]
  simp only [observedAs, upgraded, attempt, time, bind, Except.bind]
  exact planConfig_after requested

theorem Cycled.applyConfig {lower : CaseMapping} {upgrade : Upgrade}
    (cycled : Cycled sha256 input storage cycles) (keeps : Keeps lower)
    (upgraded : upgrade input.sourceContent = .ok input.toConfigUpgrade)
    (room : cycles.length < maxConfigMigrationAttempts) (dated : ∀ times ∈ cycles, times.Dated)
    (planned : InCalendar planTime) :
    ∃ next, Migration.applyConfig lower sha256 upgrade storage planTime =
        .ok (next, attemptAt sha256 input (cycles.length + 1)) ∧
      Applied sha256 input next cycles planTime := by
  obtain ⟨next, done, applied⟩ := cycled.applied hashed room keeps planTime
  have preview := cycled.planned hashed upgraded room dated planned
    (fun given (none : given ∈ (none : Option ConfigAuthorization)) => nomatch none)
  have operation := cycled.planned hashed upgraded room dated planned
    (fun given (same : given ∈ some _) => (Option.some.inj same).symm)
  refine ⟨next, ?_, applied⟩
  rw [Migration.applyConfig, preview]
  show (do
    let operation ← observeConfig sha256 (storedFiles sha256 storage) upgrade planTime
      (some ⟨(operationAfter sha256 input cycles planTime).planDigest, toISOString planTime⟩)
    let next ← commit lower sha256 storage (migrateConfig operation)
    pure (next, operation.migrationId)) = _
  rw [operation]
  show (do
    let next ← commit lower sha256 storage (migrateConfig (operationAfter sha256 input cycles planTime))
    pure (next, attemptAt sha256 input (cycles.length + 1))) = _
  rw [migrateConfig_operationAfter, done]
  rfl

end Applying

section Reverting

variable (sha256 : JsString → JsString) (input : ConfigInput)

def appliedReceipt (cycles : List Cycle) (planTime : Int) : MigrationReceipt :=
  settledReceipt sha256 input .completed (attemptAt sha256 input (cycles.length + 1))
    (toISOString planTime) (toISOString planTime)

def appliedFile (cycles : List Cycle) (planTime : Int) (file : AuditFile) : ObservedFile :=
  observedAs sha256 (appliedContent sha256 input (cycles.length + 1) planTime file)

def appliedGuard (cycles : List Cycle) (planTime : Int) (file : AuditFile) : ConfigAttemptGuard :=
  ⟨auditPath (attemptAt sha256 input (cycles.length + 1)) file,
    appliedContent sha256 input (cycles.length + 1) planTime file,
    expectedFile (appliedFile sha256 input cycles planTime file)⟩

/-- What the rollback of the next attempt replaces. -/
def replacementAfter (cycles : List Cycle) (planTime : Int) : ConfigReplacement where
  destinationRef := configRef
  content := input.sourceContent
  expected := expectedFile (observedAs sha256 input.destinationContent)
  receiptExpected := expectedFile (appliedFile sha256 input cycles planTime .receipt)
  guards :=
    [appliedGuard sha256 input cycles planTime .backup,
      appliedGuard sha256 input cycles planTime .rollback,
      appliedGuard sha256 input cycles planTime .verification]
  backupDigest := input.sourceDigest sha256
  destinationDigest := input.destinationDigest sha256

variable {sha256 input} {storage : Storage} {cycles : List Cycle} {planTime : Int}

private theorem Applied.read (applied : Applied sha256 input storage cycles planTime) (file : AuditFile) :
    readStableFile sha256 (storedFiles sha256 storage)
        (auditPath (attemptAt sha256 input (cycles.length + 1)) file) =
      .ok (.file (appliedFile sha256 input cycles planTime file)) :=
  readStableFile_stored (applied.current file)

private theorem parse_appliedFile {file : AuditFile} {value : Json}
    (document : auditDocument sha256 input (appliedReceipt sha256 input cycles planTime)
      (attemptAt sha256 input (cycles.length + 1)) (toISOString planTime) file = some value) :
    parse (appliedFile sha256 input cycles planTime file).content = some value := by
  have content := parse_auditContent document
  unfold appliedFile observedAs appliedContent
  exact content

private theorem replacementReceipt_applied :
    replacementReceipt (appliedReceipt sha256 input cycles planTime)
      (rollbackManifestJson (appliedReceipt sha256 input cycles planTime))
      (attemptAt sha256 input (cycles.length + 1)) = true := by
  have manifest : validConfigRollbackManifest
      (rollbackManifestJson (appliedReceipt sha256 input cycles planTime))
      (appliedReceipt sha256 input cycles planTime) = true := by
    rw [validConfigRollbackManifest, sameJson, decide_eq_true rfl]
    rfl
  simp only [replacementReceipt, appliedReceipt, settledReceipt, plannedReceipt,
    plannedConfigMigration, beq_self_eq_true, Bool.true_and] at manifest ⊢
  exact manifest

private theorem isMemoryRollbackManifest_applied :
    isMemoryRollbackManifest (rollbackManifestJson (appliedReceipt sha256 input cycles planTime)) =
      false := by
  have absent : js "kind" ∉ [js "contractVersion", js "stateContract", js "migrationId",
    js "planDigest", js "rollback"] := by decide
  have kind : ∀ members : Members, js "kind" ∉ members.map Prod.fst →
      isMemoryRollbackManifest (.object members) = false := by
    intro members none
    rw [isMemoryRollbackManifest, field, mapGet_eq_none_iff.mpr none]
    rfl
  exact kind _ absent

private theorem validConfigVerificationAt_applied :
    validConfigVerificationAt
      (verificationJson (attemptAt sha256 input (cycles.length + 1))
        (receiptPlanDigest sha256 input (attemptAt sha256 input (cycles.length + 1))
          (toISOString planTime))
        (auditPath (attemptAt sha256 input (cycles.length + 1)) .backup) (input.sourceDigest sha256)
        configRef (input.destinationDigest sha256) (toISOString planTime))
      (appliedReceipt sha256 input cycles planTime)
      (appliedReceipt sha256 input cycles planTime).updatedAt = true := by
  have same : ∀ value, sameJson value value = true := fun value => decide_eq_true rfl
  unfold validConfigVerificationAt
  rw [show (appliedReceipt sha256 input cycles planTime).rollback =
      .replace (auditPath (attemptAt sha256 input (cycles.length + 1)) .backup)
        (input.sourceDigest sha256) configRef (input.destinationDigest sha256) from rfl]
  refine (Bool.and_eq_true _ _).mpr ⟨rfl, ?_⟩
  unfold appliedReceipt settledReceipt plannedReceipt plannedConfigMigration
  exact same _

private theorem replacementReady_applied :
    replacementReady sha256 (appliedReceipt sha256 input cycles planTime)
        (attemptAt sha256 input (cycles.length + 1))
        (appliedFile sha256 input cycles planTime .receipt)
        (appliedFile sha256 input cycles planTime .rollback)
        (appliedFile sha256 input cycles planTime .verification)
        (appliedFile sha256 input cycles planTime .backup)
        (.file (observedAs sha256 input.destinationContent)) =
      .ok (some (replacementAfter sha256 input cycles planTime)) := by
  have rollback : (appliedReceipt sha256 input cycles planTime).rollback =
      .replace (auditPath (attemptAt sha256 input (cycles.length + 1)) .backup)
        (input.sourceDigest sha256) configRef (input.destinationDigest sha256) := rfl
  have verification := @parse_appliedFile sha256 input cycles planTime .verification _ rfl
  have backup : (appliedFile sha256 input cycles planTime .backup).sha256 =
      input.sourceDigest sha256 := rfl
  have content : sha256 (appliedFile sha256 input cycles planTime .backup).content =
      input.sourceDigest sha256 := rfl
  have destination : (observedAs sha256 input.destinationContent).sha256 =
      input.destinationDigest sha256 := rfl
  have valid := @validConfigVerificationAt_applied sha256 input cycles planTime
  unfold replacementReady
  simp only [rollback, verification, backup, content, destination, ne_eq, not_true_eq_false,
    if_false, valid, Bool.true_eq_false, or_false]
  rfl

private theorem Applied.replacement (applied : Applied sha256 input storage cycles planTime) :
    observeConfigReplacement sha256 (storedFiles sha256 storage)
        (appliedReceipt sha256 input cycles planTime)
        (rollbackManifestJson (appliedReceipt sha256 input cycles planTime))
        (attemptAt sha256 input (cycles.length + 1)) (appliedFile sha256 input cycles planTime .receipt)
        (appliedFile sha256 input cycles planTime .rollback) =
      .ok (some (replacementAfter sha256 input cycles planTime)) := by
  have rollback : (appliedReceipt sha256 input cycles planTime).rollback =
      .replace (auditPath (attemptAt sha256 input (cycles.length + 1)) .backup)
        (input.sourceDigest sha256) configRef (input.destinationDigest sha256) := rfl
  have destination : readStableFile sha256 (storedFiles sha256 storage) configRef =
      .ok (.file (observedAs sha256 input.destinationContent)) := readStableFile_stored applied.config
  have accepted := @replacementReceipt_applied sha256 input cycles planTime
  have ready := @replacementReady_applied sha256 input cycles planTime
  unfold observeConfigReplacement
  simp only [rollback, accepted, Bool.true_eq_false, if_false, applied.read, destination, ready, bind,
    Except.bind, StableFileObservation.isConflict, Bool.or_false, Bool.false_eq_true]

theorem Applied.observed (hashed : ∀ content, sha256Pattern (sha256 content) = true)
    (applied : Applied sha256 input storage cycles planTime)
    (room : cycles.length < maxConfigMigrationAttempts) (planned : InCalendar planTime)
    (now : JsString) :
    observeRollback sha256 (storedFiles sha256 storage) (attemptAt sha256 input (cycles.length + 1)) now =
      .ok (some ⟨attemptAt sha256 input (cycles.length + 1), appliedReceipt sha256 input cycles planTime,
        replacementAfter sha256 input cycles planTime, now⟩) := by
  have identifier : Identifier (attemptAt sha256 input (cycles.length + 1)) :=
    identifier_attemptAt hashed room
  have valid : validateMigration (migrationReceipt.encode (appliedReceipt sha256 input cycles planTime)) =
      some (appliedReceipt sha256 input cycles planTime) :=
    validateMigration_iff.mpr ⟨migrationReceipt.decode_encode _,
      validMigration_settled hashed identifier planned planned⟩
  have receipt : parse (appliedFile sha256 input cycles planTime .receipt).content =
      some (migrationReceipt.encode (appliedReceipt sha256 input cycles planTime)) :=
    parse_appliedFile rfl
  have manifest : parse (appliedFile sha256 input cycles planTime .rollback).content =
      some (rollbackManifestJson (appliedReceipt sha256 input cycles planTime)) :=
    parse_appliedFile rfl
  have other := @isMemoryRollbackManifest_applied sha256 input cycles planTime
  unfold observeRollback observeRollbackFiles
  simp only [identifier.canonical, Bool.not_true, Bool.false_eq_true, if_false, applied.read, bind,
    Except.bind, StableFileObservation.isConflict, Bool.or_false, receipt, manifest, valid, other,
    applied.replacement, Option.map_some, pure, Except.pure]

variable (sha256 input) in
def effectsOfRollback (cycles : List Cycle) (times : Cycle) : List WriteEffect :=
  ([appliedGuard sha256 input cycles times.planTime .backup,
      appliedGuard sha256 input cycles times.planTime .rollback,
      appliedGuard sha256 input cycles times.planTime .verification].map asEffect) ++
    [⟨configRef, input.sourceContent, expectedFile (observedAs sha256 input.destinationContent)⟩,
      ⟨auditPath (attemptAt sha256 input (cycles.length + 1)) .receipt,
        cycleContent sha256 input (cycles.length + 1) times .receipt,
        expectedFile (appliedFile sha256 input cycles times.planTime .receipt)⟩]

variable {times : Cycle}

private theorem migrateRollback_after :
    migrateRollback ⟨attemptAt sha256 input (cycles.length + 1),
        appliedReceipt sha256 input cycles times.planTime,
        replacementAfter sha256 input cycles times.planTime, toISOString times.rollbackTime⟩ =
      .ok (effectsOfRollback sha256 input cycles times) := by
  have reverted := @rollBack_settled sha256 input (attemptAt sha256 input (cycles.length + 1))
    (toISOString times.planTime) (toISOString times.planTime) (toISOString times.rollbackTime)
  unfold migrateRollback
  simp only [replacementAfter, appliedReceipt, reverted]
  rfl

private theorem appliedContent_eq {attempt : Nat} {file : AuditFile} (other : file ≠ .receipt) :
    appliedContent sha256 input attempt times.planTime file =
      cycleContent sha256 input attempt times file := by
  have same : auditDocument sha256 input
      (settledReceipt sha256 input .completed (attemptAt sha256 input attempt)
        (toISOString times.planTime) (toISOString times.planTime))
      (attemptAt sha256 input attempt) (toISOString times.planTime) file =
      auditDocument sha256 input
      (settledReceipt sha256 input .rolledBack (attemptAt sha256 input attempt)
        (toISOString times.planTime) (toISOString times.rollbackTime))
      (attemptAt sha256 input attempt) (toISOString times.planTime) file := by
    cases file with
    | receipt => exact absurd rfl other
    | authorization | backup | rollback | verification => rfl
  unfold appliedContent cycleContent settledContent auditContent
  rw [same]

private theorem mem_effectsOfRollback {effect : WriteEffect}
    (member : effect ∈ effectsOfRollback sha256 input cycles times) :
    (effect.path = configRef ∧
        effect.expected = expectedFile (observedAs sha256 input.destinationContent)) ∨
      ∃ file, file ≠ .authorization ∧
        effect.path = auditPath (attemptAt sha256 input (cycles.length + 1)) file ∧
          effect.expected = expectedFile (appliedFile sha256 input cycles times.planTime file) := by
  simp only [effectsOfRollback, List.map_cons, List.map_nil, List.mem_append, List.mem_cons,
    List.not_mem_nil, or_false] at member
  rcases member with (rfl | rfl | rfl) | rfl | rfl
  · exact .inr ⟨.backup, nofun, rfl, rfl⟩
  · exact .inr ⟨.rollback, nofun, rfl, rfl⟩
  · exact .inr ⟨.verification, nofun, rfl, rfl⟩
  · exact .inl ⟨rfl, rfl⟩
  · exact .inr ⟨.receipt, nofun, rfl, rfl⟩

private theorem written_effectsOfRollback {file : AuditFile} (written : file ≠ .authorization) :
    ∃ effect ∈ effectsOfRollback sha256 input cycles times,
      effect.path = auditPath (attemptAt sha256 input (cycles.length + 1)) file ∧
        effect.content = cycleContent sha256 input (cycles.length + 1) times file := by
  have held : ∀ file, file ≠ .receipt →
      (asEffect (appliedGuard sha256 input cycles times.planTime file)).content =
        cycleContent sha256 input (cycles.length + 1) times file :=
    fun file other => appliedContent_eq other
  cases file with
  | authorization => exact absurd rfl written
  | backup => exact ⟨_, List.mem_append_left _ (List.mem_map_of_mem (by simp)), rfl, held _ nofun⟩
  | rollback => exact ⟨_, List.mem_append_left _ (List.mem_map_of_mem (by simp)), rfl, held _ nofun⟩
  | verification => exact ⟨_, List.mem_append_left _ (List.mem_map_of_mem (by simp)), rfl, held _ nofun⟩
  | receipt =>
      exact ⟨_, List.mem_append_right _ (List.mem_cons_of_mem _ List.mem_cons_self), rfl, rfl⟩

variable (hashed : ∀ content, sha256Pattern (sha256 content) = true)
include hashed

private theorem effectsOfRollback_distinct (room : cycles.length < maxConfigMigrationAttempts) :
    (effectsOfRollback sha256 input cycles times).Pairwise fun left right => left.path ≠ right.path := by
  have apart : ∀ {left right : AuditFile}, left ≠ right →
      auditPath (attemptAt sha256 input (cycles.length + 1)) left ≠
        auditPath (attemptAt sha256 input (cycles.length + 1)) right := by
    intro left right different
    exact auditPath_ne hashed (by omega) (by omega) (by omega) (by omega) (.inr different)
  have beside : ∀ file, configRef ≠ auditPath (attemptAt sha256 input (cycles.length + 1)) file :=
    configRef_ne hashed (by omega)
  have besides : ∀ file, auditPath (attemptAt sha256 input (cycles.length + 1)) file ≠ configRef :=
    fun file => (beside file).symm
  simp [effectsOfRollback, asEffect, appliedGuard, beside, besides, apart]

theorem Applied.rolledBack {lower : CaseMapping}
    (applied : Applied sha256 input storage cycles times.planTime)
    (room : cycles.length < maxConfigMigrationAttempts) (keeps : Keeps lower) (dated : times.Dated) :
    ∃ next, rollBackConfig lower sha256 storage (attemptAt sha256 input (cycles.length + 1))
        times.rollbackTime = .ok next ∧
      Cycled sha256 input next (cycles ++ [times]) := by
  have places : ∀ effect ∈ effectsOfRollback sha256 input cycles times,
      Place sha256 input effect.path := by
    intro effect member
    rcases mem_effectsOfRollback member with ⟨path, -⟩ | ⟨file, -, path, -⟩
    · exact .inl path
    · exact .inr ⟨cycles.length + 1, file, by omega, by omega, path⟩
  obtain ⟨planned, unrelated⟩ :=
    checkPlan_places hashed keeps places (effectsOfRollback_distinct hashed room)
  have independent : Independent storage.find (effectsOfRollback sha256 input cycles times) := by
    refine ⟨?_, unrelated⟩
    intro effect member
    rcases mem_effectsOfRollback member with ⟨path, -⟩ | ⟨file, -, path, -⟩
    · rw [path]
      exact applied.housed.writable applied.config
    · rw [path]
      exact applied.housed.writable (applied.current file)
  have expected : ∀ effect ∈ effectsOfRollback sha256 input cycles times,
      fingerprintOf (Node.entry sha256 (storage.find effect.path)) = some effect.expected := by
    intro effect member
    rcases mem_effectsOfRollback member with ⟨path, expected⟩ | ⟨file, -, path, expected⟩
    · rw [path, expected, applied.config]
      rfl
    · rw [path, expected, applied.current]
      rfl
  obtain ⟨next, done, holds⟩ := commit_spec expected planned independent
  have observed := applied.observed hashed room dated.1 (toISOString times.rollbackTime)
  have accepted : rollBackConfig lower sha256 storage (attemptAt sha256 input (cycles.length + 1))
      times.rollbackTime = .ok next := by
    unfold rollBackConfig
    simp only [observed, bind, Except.bind, migrateRollback_after, done]
  have housed : Housed next.find := by
    rw [holds]
    exact foldl_written_housed applied.housed independent
  have current : ∀ file, next.find (auditPath (attemptAt sha256 input (cycles.length + 1)) file) =
      some (.file (cycleContent sha256 input (cycles.length + 1) times file)) := by
    intro file
    rw [holds]
    by_cases kept : file = .authorization
    · subst kept
      have same : appliedContent sha256 input (cycles.length + 1) times.planTime .authorization =
          cycleContent sha256 input (cycles.length + 1) times .authorization := appliedContent_eq nofun
      rw [foldl_written_stored, applied.current, same]
      · intro effect member
        rcases mem_effectsOfRollback member with ⟨path, -⟩ | ⟨file, other, path, -⟩
        · rw [path]
          exact (configRef_ne hashed (by omega) _).symm
        · rw [path]
          exact auditPath_ne hashed (by omega) (by omega) (by omega) (by omega) (.inr other.symm)
      · rw [applied.current]
        exact Option.some_ne_none _
    · obtain ⟨effect, member, path, content⟩ := written_effectsOfRollback kept
      rw [← path, ← content]
      exact foldl_written_own independent member
  refine ⟨next, accepted, ?_⟩
  constructor
  · exact housed
  · rw [holds]
    exact foldl_written_own independent (List.mem_append_right _ List.mem_cons_self)
  · have above : isParent migrationsRef
        (auditPath (attemptAt sha256 input (cycles.length + 1)) .receipt) = true := by
      rw [isParent, auditPath_eq]
      exact startsWith_append (js ".brain/migrations/") _
    exact .inr (housed _ (by rw [current]; exact Option.some_ne_none _) _ above)
  · intro index made which file
    rcases Nat.lt_or_ge index cycles.length with earlier | last
    · rw [List.getElem?_append_left earlier] at which
      have held := applied.attempts index made which file
      rw [holds, foldl_written_stored, held]
      · intro effect member
        rcases mem_effectsOfRollback member with ⟨path, -⟩ | ⟨another, -, path, -⟩
        · rw [path]
          exact (configRef_ne hashed (by omega) _).symm
        · rw [path]
          exact auditPath_ne hashed (by omega) (by omega) (by omega) (by omega) (.inl (by omega))
      · rw [held]
        exact Option.some_ne_none _
    · rw [List.getElem?_append_right last, List.getElem?_singleton] at which
      split at which
      · rename_i first
        cases which
        rw [show index = cycles.length by omega]
        exact current file
      · cases which
  · intro entry member
    obtain ⟨plain, stored⟩ := Storage.mem_list_iff.mp member
    rw [holds] at stored
    have length : (cycles ++ [times]).length = cycles.length + 1 := by simp
    rw [length]
    rcases foldl_written_new stored with before | ⟨effect, among, near⟩
    · exact applied.entries entry (Storage.mem_list_iff.mpr ⟨plain, before⟩)
    · rcases mem_effectsOfRollback among with ⟨path, -⟩ | ⟨file, -, path, -⟩
      · rw [path] at near
        exact absurd near (entry_config plain)
      · rw [path] at near
        exact .inr ⟨cycles.length + 1, by omega, by omega,
          entry_above (identifier_attemptAt hashed room) plain near⟩

end Reverting

end Kratos.Migration
