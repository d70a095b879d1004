/- source: composition/migration.ts, domain/migration/receipt.ts
   digest: The names, the instants and the documents of an attempt, and what the checks make of them. -/

import Kratos.Foundation.JsonReading
import Kratos.Migration.Replacement
import Kratos.Timestamps

set_option autoImplicit false

namespace Kratos.Migration

open Foundation.Text Foundation.JsonText Foundation.Calendar Foundation.Paths
open Patterns Schema Transactions

section Instants

def InCalendar (time : Int) : Prop := 0 ≤ yearOf time ∧ yearOf time ≤ 9999

theorem timestampPattern_toISOString {time : Int} (dated : InCalendar time) :
    timestampPattern (toISOString time) = true := by
  obtain ⟨year, month, date, hours, minutes, seconds, ms, monthFits, dateFits, hoursFit, minutesFit,
    secondsFit, shape⟩ := toISOString_fields dated.1 dated.2
  have fraction : secondFraction (unit '.' :: (fixedDigits 3 ms ++ [unit 'Z'])) = true := by
    obtain ⟨digits, zone⟩ := digits_zone 3 ms
    have begins : startsWith (unit '.' :: (fixedDigits 3 ms ++ [unit 'Z'])) (js ".") = true :=
      startsWith_append (js ".") _
    rw [secondFraction, begins, List.tail_cons, digits, zone, fixedDigits_length]
    simp
  rw [shape, fixedDigits_century, timestampPattern, beq_iff_eq]
  simp only [Option.bind_eq_bind]
  rw [twoDigits_fixedDigits (Nat.zero_le _) (by omega) (by omega), Option.bind_some,
    twoDigits_fixedDigits (Nat.zero_le _) (by omega) (by omega), Option.bind_some,
    show js "-" = [unit '-'] from rfl, literal_cons, Option.bind_some,
    twoDigits_fixedDigits monthFits.1 monthFits.2 (by omega), Option.bind_some, literal_cons,
    Option.bind_some, twoDigits_fixedDigits dateFits.1 dateFits.2 (by omega), Option.bind_some,
    show js "T" = [unit 'T'] from rfl, literal_cons, Option.bind_some,
    twoDigits_fixedDigits (Nat.zero_le _) hoursFit (by omega), Option.bind_some,
    show js ":" = [unit ':'] from rfl, literal_cons, Option.bind_some,
    twoDigits_fixedDigits (Nat.zero_le _) minutesFit (by omega), Option.bind_some, literal_cons,
    Option.bind_some, twoDigits_fixedDigits (Nat.zero_le _) secondsFit (by omega), Option.bind_some,
    fraction]
  rfl

theorem isCanonicalInstant_toISOString {time : Int} (dated : InCalendar time) :
    isCanonicalInstant (toISOString time) = true := by
  obtain ⟨year, month, date, hours, minutes, seconds, ms, -, -, -, -, -, shape⟩ :=
    toISOString_fields dated.1 dated.2
  have length : (toISOString time).length = 24 := by
    rw [shape]
    simp only [List.length_append, List.length_cons, List.length_nil, fixedDigits_length]
  have clipped : time.natAbs ≤ 8640000000000000 := by
    obtain ⟨least, most⟩ := dated
    obtain ⟨started, ends⟩ := yearFromDay_spec (time / msPerDay)
    have perDay : msPerDay = 86400000 := rfl
    simp only [yearOf, dayFromYear, perDay] at least most started ends
    omega
  rw [isCanonicalInstant, length, dateParse_toISOString clipped]
  simp

end Instants

section Names

/-- The units an identifier of an attempt is made of. -/
def isSlugUnit (u : CodeUnit) : Bool := isLowerAlpha u || isDigit u || u == unit '-'

def isPathUnit (u : CodeUnit) : Bool := isSlugUnit u || u == unit '.' || u == unit '/'

/-- A case mapping that leaves these units alone. -/
def Keeps (lower : CaseMapping) : Prop :=
  ∀ path, (∀ u ∈ path, isPathUnit u = true) → lower.toLowerCase path = path

/-- What every identifier of an attempt is. -/
structure Identifier (id : JsString) : Prop where
  slug : ∀ u ∈ id, isSlugUnit u = true
  begins : ∃ rest, id = unit 'c' :: rest
  long : 4 < id.length
  short : id.length ≤ 64
  ends : ∃ u, id.getLast? = some u ∧ isAlnum u = true

private theorem isSlugUnit_iff {u : CodeUnit} :
    isSlugUnit u = true ↔ isLowerAlpha u = true ∨ isDigit u = true ∨ u = unit '-' := by
  simp [isSlugUnit, or_assoc]

private theorem isSlugUnit_ne {u : CodeUnit} (slug : isSlugUnit u = true) :
    u ≠ unit '.' ∧ u ≠ unit '/' := by
  constructor <;> rintro rfl <;> exact absurd slug (by decide)

private theorem decimal_ends (n : Nat) :
    ∃ u, (decimal n).getLast? = some u ∧ isAlnum u = true := by
  have digit : ∀ d < 10, isAlnum (digitUnit d) = true := by decide
  by_cases small : n < 10
  · exact ⟨digitUnit n, by rw [decimal_of_lt small]; rfl, digit n small⟩
  · refine ⟨digitUnit (n % 10), ?_, digit _ (Nat.mod_lt n (by decide))⟩
    rw [decimal_of_le (by omega), List.getLast?_concat]

private theorem identifier_attempt {base : JsString} (identifier : Identifier base)
    (short : base.length ≤ 31) {attempt : Nat} (bounded : attempt ≤ maxConfigMigrationAttempts) :
    Identifier (attemptId base attempt) := by
  unfold attemptId
  split
  · exact identifier
  · have length : (decimal attempt).length ≤ 5 :=
      decimal_length 4 (Nat.lt_of_le_of_lt bounded (by decide))
    have middle : (js "-attempt-").length = 9 := by decide
    have slug : ∀ u ∈ js "-attempt-", isSlugUnit u = true := by decide
    obtain ⟨rest, begins⟩ := identifier.begins
    obtain ⟨last, shape, digit⟩ := decimal_ends attempt
    constructor
    · intro u member
      simp only [List.mem_append] at member
      rcases member with (front | mark) | digits
      · exact identifier.slug u front
      · exact slug u mark
      · exact isSlugUnit_iff.mpr (.inr (.inl (decimal_digits attempt u digits)))
    · exact ⟨rest ++ js "-attempt-" ++ decimal attempt, by rw [begins]; rfl⟩
    · rw [List.length_append, List.length_append]
      have long := identifier.long
      omega
    · rw [List.length_append, List.length_append]
      omega
    · exact ⟨last, by rw [List.getLast?_append, shape]; rfl, digit⟩

variable {sha256 : JsString → JsString} {input : ConfigInput}

theorem identifier_attemptId (hashed : ∀ content, sha256Pattern (sha256 content) = true)
    {attempt : Nat} (bounded : attempt ≤ maxConfigMigrationAttempts) :
    Identifier (attemptId (baseMigrationId sha256 input) attempt) := by
  have digest : sha256Pattern (seedDigest sha256 input) = true := hashed _
  simp only [sha256Pattern, Bool.and_eq_true, decide_eq_true_eq, List.all_eq_true, Bool.or_eq_true]
    at digest
  obtain ⟨whole, hex⟩ := digest
  have length : ((seedDigest sha256 input).take 24).length = 24 := by
    rw [List.length_take, whole]
    rfl
  have units : ∀ u ∈ (seedDigest sha256 input).take 24, isLowerAlpha u = true ∨ isDigit u = true := by
    intro u member
    rcases hex u (List.mem_of_mem_take member) with letter | digit
    · left
      simp only [between, isLowerAlpha, Bool.and_eq_true, decide_eq_true_eq] at letter ⊢
      exact ⟨letter.1, Nat.le_trans letter.2 (by decide)⟩
    · exact .inr digit
  unfold baseMigrationId
  generalize (seedDigest sha256 input).take 24 = seed at length units
  have front : (js "config-").length = 7 := by decide
  have slug : ∀ u ∈ js "config-", isSlugUnit u = true := by decide
  have identifier : Identifier (js "config-" ++ seed) := by
    constructor
    · intro u member
      rcases List.mem_append.mp member with mark | inside
      · exact slug u mark
      · exact isSlugUnit_iff.mpr ((units u inside).imp_right .inl)
    · exact ⟨js "onfig-" ++ seed, rfl⟩
    · rw [List.length_append]
      omega
    · rw [List.length_append]
      omega
    · obtain ⟨last, shape⟩ : ∃ last, seed.getLast? = some last := by
        cases shape : seed.getLast? with
        | some last => exact ⟨last, rfl⟩
        | none =>
            rw [List.getLast?_eq_none_iff.mp shape] at length
            cases length
      refine ⟨last, by rw [List.getLast?_append, shape]; rfl, ?_⟩
      rcases units last (List.mem_of_getLast? shape) with letter | digit
      · simp [isAlnum, letter]
      · simp [isAlnum, digit]
  exact identifier_attempt identifier (by rw [List.length_append]; omega) bounded

end Names

section Spellings

variable {id : JsString}

private theorem hasDoubleDot_append {front back : JsString} (other : back.head? ≠ some (unit '.')) :
    hasDoubleDot (front ++ back) = (hasDoubleDot front || hasDoubleDot back) := by
  induction front with
  | nil => rfl
  | cons first rest ih =>
      cases rest with
      | nil =>
          cases back with
          | nil => rfl
          | cons second after =>
              have different : (second == unit '.') = false :=
                beq_eq_false_iff_ne.mpr fun same => other (congrArg some same)
              simp [hasDoubleDot, different]
      | cons second rest =>
          rw [List.cons_append, List.cons_append, hasDoubleDot, hasDoubleDot, ← List.cons_append, ih,
            Bool.or_assoc]

private theorem hasDoubleDot_slug {text : JsString} (slug : ∀ u ∈ text, isSlugUnit u = true) :
    hasDoubleDot text = false := by
  induction text with
  | nil => rfl
  | cons first rest ih =>
      cases rest with
      | nil => rfl
      | cons second rest =>
          have different : (first == unit '.') = false :=
            beq_eq_false_iff_ne.mpr (isSlugUnit_ne (slug first List.mem_cons_self)).1
          rw [hasDoubleDot, different, Bool.false_and, Bool.false_or]
          exact ih fun u member => slug u (List.mem_cons_of_mem _ member)

private theorem isWindowsDevice_long {name : JsString} (long : 4 < name.length) :
    isWindowsDevice name = false := by
  have listed : ∀ device ∈ [js "CON", js "PRN", js "AUX", js "NUL"], device.length ≤ 4 := by decide
  have other : [js "CON", js "PRN", js "AUX", js "NUL"].contains name = false := by
    rw [Bool.eq_false_iff, ne_eq, List.contains_iff_mem]
    intro member
    have short := listed name member
    omega
  unfold isWindowsDevice
  rw [other, Bool.false_or]
  match name, long with
  | _ :: _ :: _ :: _ :: _ :: _, _ => rfl

theorem Identifier.idPattern (identifier : Identifier id) : idPattern id = true := by
  obtain ⟨rest, rfl⟩ := identifier.begins
  have short := identifier.short
  have alnum : isAlnum (unit 'c') = true := by decide
  rw [List.length_cons] at short
  simp only [Patterns.idPattern, alnum, Bool.true_and, Bool.and_eq_true, decide_eq_true_eq,
    List.all_eq_true]
  refine ⟨by omega, fun u member => ?_⟩
  rcases isSlugUnit_iff.mp (identifier.slug u (List.mem_cons_of_mem _ member)) with letter | digit | rfl
  · simp [isIdUnit, isAlnum, letter]
  · simp [isIdUnit, isAlnum, digit]
  · decide

theorem Identifier.canonical (identifier : Identifier id) : isCanonicalMigrationId id = true := by
  have plain : id.takeWhile (· != unit '.') = id := by
    rw [List.takeWhile_eq_self_iff]
    intro u member
    exact bne_iff_ne.mpr (isSlugUnit_ne (identifier.slug u member)).1
  have device : isWindowsDevice (id.map upperUnit) = false := by
    apply isWindowsDevice_long
    rw [List.length_map]
    exact identifier.long
  have short : id.length ≤ 128 := Nat.le_trans identifier.short (by decide)
  have units : id.all isMigrationIdUnit = true := by
    rw [List.all_eq_true]
    intro u member
    rcases isSlugUnit_iff.mp (identifier.slug u member) with letter | digit | rfl
    · simp [isMigrationIdUnit, isAlnum, letter]
    · simp [isMigrationIdUnit, isAlnum, digit]
    · decide
  obtain ⟨last, ends, alnum⟩ := identifier.ends
  obtain ⟨rest, begins⟩ := identifier.begins
  have head : (id.head?.map isAlnum).getD false = true := by
    rw [begins]
    rfl
  have tail : (id.getLast?.map isAlnum).getD false = true := by
    rw [ends]
    exact alnum
  rw [isCanonicalMigrationId, hasDoubleDot_slug identifier.slug, plain, device, units, head, tail]
  simp [short]

end Spellings

section References

variable {id path : JsString}

private theorem dotThen_suffix {here : JsString → Bool} {text : JsString}
    (found : dotThen here text = true) : ∃ front rest, text = front ++ rest ∧ here rest = true := by
  induction text with
  | nil => exact ⟨[], [], rfl, found⟩
  | cons u rest ih =>
      rw [dotThen, Bool.or_eq_true, Bool.and_eq_true] at found
      rcases found with now | later
      · exact ⟨[], u :: rest, rfl, now⟩
      · obtain ⟨front, back, rfl, held⟩ := ih later.2
        exact ⟨u :: front, back, rfl, held⟩

private theorem hasDoubleDot_middle (front back : JsString) :
    hasDoubleDot (front ++ unit '.' :: unit '.' :: back) = true := by
  induction front with
  | nil => rfl
  | cons first rest ih =>
      cases rest with
      | nil => simp [hasDoubleDot]
      | cons second rest =>
          rw [List.cons_append, List.cons_append, hasDoubleDot, ← List.cons_append, ih, Bool.or_true]

private theorem isPathUnit_iff {u : CodeUnit} :
    isPathUnit u = true ↔
      isLowerAlpha u = true ∨ isDigit u = true ∨ u = unit '-' ∨ u = unit '.' ∨ u = unit '/' := by
  simp [isPathUnit, isSlugUnit, or_assoc]

private theorem isPathUnit_plain {u : CodeUnit} (held : isPathUnit u = true) :
    isControl u = false ∧ u ≠ unit '\\' := by
  have bounds : 0x2D ≤ u.toNat ∧ u.toNat ≤ 0x39 ∨ 0x61 ≤ u.toNat ∧ u.toNat ≤ 0x7A := by
    rcases isPathUnit_iff.mp held with letter | digit | rfl | rfl | rfl
    · simp only [isLowerAlpha, between, Bool.and_eq_true, decide_eq_true_eq] at letter
      exact .inr letter
    · simp only [isDigit, between, Bool.and_eq_true, decide_eq_true_eq] at digit
      exact .inl ⟨Nat.le_trans (by decide) digit.1, digit.2⟩
    · exact .inl (by decide)
    · exact .inl (by decide)
    · exact .inl (by decide)
  constructor
  · rw [Bool.eq_false_iff]
    intro control
    simp only [isControl, Bool.or_eq_true, decide_eq_true_eq, beq_iff_eq] at control
    omega
  · rintro rfl
    exact absurd bounds (by decide)

/-- A path beneath the state directory without two dots in a row follows the reference grammar. -/
theorem referencePattern_state {rest : JsString} (shape : path = js ".b" ++ rest)
    (plain : ∀ u ∈ path, isPathUnit u = true) (apart : hasDoubleDot path = false)
    (short : path.length ≤ 1024) : referencePattern path = true := by
  have backslash : dotThen (fun rest => startsWith rest (js "\\")) path = false := by
    rw [Bool.eq_false_iff]
    intro found
    obtain ⟨front, back, split, begins⟩ := dotThen_suffix found
    obtain ⟨tail, rfl⟩ := (startsWith_iff _ _).mp begins
    have member : unit '\\' ∈ path := by
      rw [split]
      exact List.mem_append_right _ (List.mem_append_left _ List.mem_cons_self)
    exact (isPathUnit_plain (plain _ member)).2 rfl
  have parents : dotThen (fun rest => startsWith rest (js "/") && parentSegment rest.tail) path =
      false := by
    rw [Bool.eq_false_iff]
    intro found
    obtain ⟨front, back, split, begins⟩ := dotThen_suffix found
    rw [Bool.and_eq_true] at begins
    obtain ⟨tail, rfl⟩ := (startsWith_iff _ _).mp begins.1
    obtain ⟨after, dots⟩ : ∃ after, tail = unit '.' :: unit '.' :: after := by
      have parent := begins.2
      rw [show (js "/" ++ tail).tail = tail from rfl, parentSegment, Bool.or_eq_true, beq_iff_eq,
        startsWith_iff] at parent
      rcases parent with rfl | ⟨after, rfl⟩
      · exact ⟨[], rfl⟩
      · exact ⟨unit '/' :: after, rfl⟩
    have middle := hasDoubleDot_middle (front ++ js "/") after
    rw [List.append_assoc, ← dots, ← split, apart] at middle
    cases middle
  have controls : path.all (fun u => !isControl u) = true := by
    rw [List.all_eq_true]
    intro u member
    simp [(isPathUnit_plain (plain u member)).1]
  obtain ⟨most, least⟩ := codePoints_length path
  have filled : path ≠ [] := by
    rw [shape]
    exact List.cons_ne_nil _ _
  have root : startsWith path (js "/") = false := by rw [shape]; rfl
  have drive : drivePrefix path = false := by
    rw [shape]
    cases rest <;> rfl
  have parent : parentSegment path = false := by rw [shape]; rfl
  have scheme : uriScheme path = false := by rw [shape]; rfl
  rw [referencePattern, root, drive, backslash, parent, parents, scheme, controls,
    decide_eq_true (least filled), decide_eq_true (Nat.le_trans most short)]
  rfl

theorem segments_name {name : JsString} (plain : unit '/' ∉ name) : segments name = [name] := by
  have single : ∀ part ∈ [name], unit '/' ∉ part := by
    intro part member
    rw [List.mem_singleton.mp member]
    exact plain
  have same := segments_joinSegments single (List.cons_ne_nil _ _)
  rwa [joinSegments, List.intercalate_singleton] at same

private theorem segments_slug (slug : ∀ u ∈ id, isSlugUnit u = true) : segments id = [id] :=
  segments_name fun slash => (isSlugUnit_ne (slug _ slash)).2 rfl

theorem segments_attemptRoot (identifier : Identifier id) :
    segments (attemptRoot id) = [js ".brain", js "migrations", id] := by
  rw [attemptRoot, segments_append, segments_slug identifier.slug]
  rfl

theorem segments_auditPath (identifier : Identifier id) (file : AuditFile) :
    segments (auditPath id file) = [js ".brain", js "migrations", id] ++ segments file.name := by
  rw [auditPath, segments_append, segments_attemptRoot identifier]

theorem auditPath_eq (id : JsString) (file : AuditFile) :
    auditPath id file = js ".brain/migrations/" ++ (id ++ (js "/" ++ file.name)) := by
  rw [auditPath, attemptRoot, List.append_assoc, List.append_assoc]
  rfl

theorem auditPath_plain (identifier : Identifier id) (file : AuditFile) :
    ∀ u ∈ auditPath id file, isPathUnit u = true := by
  have root : ∀ u ∈ js ".brain/migrations/", isPathUnit u = true := by decide
  have name : ∀ u ∈ js "/" ++ file.name, isPathUnit u = true := by cases file <;> decide
  intro u member
  rw [auditPath_eq] at member
  rcases List.mem_append.mp member with front | inside
  · exact root u front
  · rcases List.mem_append.mp inside with slug | last
    · simp [isPathUnit, identifier.slug u slug]
    · exact name u last

theorem referencePattern_auditPath (identifier : Identifier id) (file : AuditFile) :
    referencePattern (auditPath id file) = true := by
  have apart : hasDoubleDot (auditPath id file) = false := by
    obtain ⟨rest, begins⟩ := identifier.begins
    have name : hasDoubleDot (js "/" ++ file.name) = false := by cases file <;> decide
    have root : hasDoubleDot (js ".brain/migrations/") = false := by decide
    have head : (id ++ (js "/" ++ file.name)).head? = some (unit 'c') := by
      rw [begins]
      rfl
    have slash : (js "/" ++ file.name).head? = some (unit '/') := rfl
    rw [auditPath_eq, hasDoubleDot_append (by rw [head]; decide),
      hasDoubleDot_append (by rw [slash]; decide), hasDoubleDot_slug identifier.slug, name, root]
    rfl
  have length : (auditPath id file).length ≤ 1024 := by
    have root : (js ".brain/migrations/").length = 18 := by decide
    have slash : (js "/").length = 1 := by decide
    have name : file.name.length ≤ 20 := by cases file <;> decide
    have short := identifier.short
    rw [auditPath_eq, List.length_append, List.length_append, List.length_append]
    omega
  have shape : auditPath id file =
      js ".b" ++ (js "rain/migrations/" ++ (id ++ (js "/" ++ file.name))) := by
    rw [auditPath_eq]
    rfl
  exact referencePattern_state shape (auditPath_plain identifier file) apart length

/-- A path beneath the state directory that no rule excludes is one a plan may write. -/
theorem isManagedDestination_state {lower : CaseMapping} {next tail : JsString}
    {parts : List JsString} (dotted : path = unit '.' :: tail)
    (plain : ∀ u ∈ path, isPathUnit u = true) (shape : segments path = js ".brain" :: next :: parts)
    (kept : ∀ part ∈ next :: parts, Kept part)
    (other : lower.toLowerCase next ≠ reservedStateNamespace) :
    isManagedDestination lower path = true := by
  have units : unit '\\' ∉ path ∧ hasControlCharacters path = false := by
    constructor
    · exact fun slash => (isPathUnit_plain (plain _ slash)).2 rfl
    · rw [hasControlCharacters, List.any_eq_false]
      intro u member
      simp [(isPathUnit_plain (plain u member)).1]
  have segmentsKept : ∀ part ∈ segments path, Kept part := by
    rw [shape]
    intro part member
    rcases List.mem_cons.mp member with rfl | inside
    · exact ⟨by decide, by decide, by decide⟩
    · exact kept part inside
  have canonical := canonical_of_segments dotted units segmentsKept
  have filled : path ≠ [] := by
    rw [dotted]
    exact List.cons_ne_nil _ _
  have surface : isManagedPathShape path = true := by
    rw [isManagedPathShape, canonical]
    simp only [ne_eq, not_true_eq_false, filled, or_self, if_false, shape]
    decide
  rw [isManagedDestination, surface, shape]
  simp [reservedNamespace, other]

theorem isManagedDestination_auditPath {lower : CaseMapping} (keeps : Keeps lower)
    (identifier : Identifier id) (file : AuditFile) :
    isManagedDestination lower (auditPath id file) = true := by
  have same : lower.toLowerCase (js "migrations") = js "migrations" := keeps _ (by decide)
  have kept : Kept id := by
    obtain ⟨rest, rfl⟩ := identifier.begins
    refine ⟨List.cons_ne_nil _ _, ?_, ?_⟩ <;> intro equal <;> cases equal
  have name : ∀ part ∈ segments file.name, part ≠ [] ∧ part ≠ js "." ∧ part ≠ js ".." := by
    cases file <;> decide
  refine isManagedDestination_state (auditPath_eq id file) (auditPath_plain identifier file)
    (segments_auditPath identifier file) ?_ ?_
  · intro part member
    rcases List.mem_cons.mp member with rfl | inside
    · exact ⟨by decide, by decide, by decide⟩
    · rcases List.mem_cons.mp inside with rfl | last
      · exact kept
      · exact name part last
  · rw [same]
    decide

theorem isManagedDestination_configRef {lower : CaseMapping} (keeps : Keeps lower) :
    isManagedDestination lower configRef = true := by
  have same : lower.toLowerCase (js "config.json") = js "config.json" := keeps _ (by decide)
  have shape : segments configRef = [js ".brain", js "config.json"] := by decide
  have dotted : configRef = unit '.' :: js "brain/config.json" := rfl
  refine isManagedDestination_state dotted (by decide) shape ?_ ?_
  · intro part member
    rw [List.mem_singleton.mp member]
    exact ⟨by decide, by decide, by decide⟩
  · rw [same]
    decide

end References

section Receipts

variable (sha256 : JsString → JsString) (input : ConfigInput)

/-- The receipt of an attempt once it has been completed, or rolled back. -/
def settledReceipt (status : MigrationStatus) (migrationId planTime updatedAt : JsString) :
    MigrationReceipt :=
  { plannedReceipt sha256 input migrationId planTime with
    status
    verificationRefs := [auditPath migrationId .verification]
    updatedAt }

theorem completedReceipt_eq (migrationId planTime : JsString) :
    completedReceipt sha256 input migrationId planTime =
      some (settledReceipt sha256 input .completed migrationId planTime planTime) := by
  simp [completedReceipt, authorizeConfigMigration, completeConfigMigration, plannedReceipt,
    plannedConfigMigration, settledReceipt]

theorem rollBack_settled (migrationId planTime updatedAt now : JsString) :
    rollBackConfigMigration (settledReceipt sha256 input .completed migrationId planTime updatedAt)
        (input.sourceDigest sha256) (input.destinationDigest sha256) now =
      some (settledReceipt sha256 input .rolledBack migrationId planTime now) := by
  simp [rollBackConfigMigration, settledReceipt, plannedReceipt, plannedConfigMigration]

theorem rolledBackReceipt_eq (migrationId planTime updatedAt : JsString) :
    rolledBackReceipt sha256 input migrationId planTime updatedAt =
      some (settledReceipt sha256 input .rolledBack migrationId planTime updatedAt) := by
  rw [rolledBackReceipt, completedReceipt_eq, Option.bind_some, rollBack_settled]

variable {sha256 input} {id : JsString} {status : MigrationStatus} {planTime updatedAt : Int}

theorem validMigration_settled (hashed : ∀ content, sha256Pattern (sha256 content) = true)
    (identifier : Identifier id) (planned : InCalendar planTime) (updated : InCalendar updatedAt) :
    validMigration (settledReceipt sha256 input status id (toISOString planTime)
      (toISOString updatedAt)) = true := by
  have contract : idPattern (js "state.project-config") = true := by decide
  have config : referencePattern configRef = true := by decide
  simp [validMigration, settledReceipt, plannedReceipt, plannedConfigMigration, validConversion,
    validRollback, identifier.idPattern, referencePattern_auditPath identifier, receiptPlanDigest,
    ConfigInput.sourceDigest, ConfigInput.destinationDigest, hashed, contract, config,
    timestampPattern_toISOString planned, timestampPattern_toISOString updated]

end Receipts

section Forms

/-- `json(value)` is read back as the value. -/
theorem parse_json {value : Json} (formed : WellFormed value) : parse (json value) = some value := by
  have blank : Blank (js "\n") := by
    intro u member
    rw [List.mem_singleton.mp member]
    decide
  exact parse_stringify indented formed blank

theorem sameJson_iff {left right : Json} (leftFormed : WellFormed left) (rightFormed : WellFormed right) :
    sameJson left right = true ↔ SameValue left right := by
  rw [sameJson, decide_eq_true_eq]
  constructor
  · exact canonicalForm_of_canonicalizeJson leftFormed rightFormed
  · intro same
    rw [← canonicalizeJson_canonicalForm left, same, canonicalizeJson_canonicalForm]

theorem wellFormed_object {members : Members} (distinct : (members.map Prod.fst).Nodup)
    (formed : ∀ member ∈ members, WellFormed member.2) : WellFormed (.object members) := by
  rw [WellFormed]
  exact ⟨distinct, (wellFormedMembers_iff _).mpr formed⟩

theorem wellFormed_string (value : JsString) : WellFormed (.string value) := by
  simp [WellFormed]

theorem wellFormed_array {items : List Json} (formed : ∀ item ∈ items, WellFormed item) :
    WellFormed (.array items) := by
  rw [WellFormed]
  induction items with
  | nil => trivial
  | cons item rest ih =>
      exact ⟨formed item List.mem_cons_self, ih fun other member =>
        formed other (List.mem_cons_of_mem _ member)⟩

theorem wellFormed_texts (values : List JsString) : WellFormed (textsJson values) := by
  refine wellFormed_array fun item member => ?_
  obtain ⟨value, -, rfl⟩ := List.mem_map.mp member
  exact wellFormed_string value

theorem wellFormed_reference (ref digest : JsString) : WellFormed (referenceJson ref digest) := by
  have distinct : [js "ref", js "sha256"].Nodup := by decide
  refine wellFormed_object distinct ?_
  simp [wellFormed_string]

theorem wellFormed_catalogs (catalogs : List (ConfigHost × JsString)) :
    WellFormed (catalogsJson catalogs) := by
  have distinct : [js "host", js "sha256"].Nodup := by decide
  refine wellFormed_array fun item member => ?_
  obtain ⟨catalog, -, rfl⟩ := List.mem_map.mp member
  refine wellFormed_object distinct ?_
  simp [wellFormed_string]

theorem wellFormed_modelRoles (roles : ModelRoles) : WellFormed (modelRolesJson roles) := by
  have hostText : Function.Injective ConfigHost.text := by
    intro left right same
    cases left <;> cases right <;> first | rfl | exact absurd same (by decide)
  have roleText : Function.Injective ModelRole.text := by
    intro left right same
    cases left <;> cases right <;> first | rfl | exact absurd same (by decide)
  have distinct : [js "model", js "effort"].Nodup := by decide
  apply wellFormed_object
  · have keys := roles.hosts.map hostText
    rwa [List.map_map] at keys ⊢
  · intro member listed
    obtain ⟨entry, held, rfl⟩ := List.mem_map.mp listed
    apply wellFormed_object
    · have keys := (roles.roles entry held).map roleText
      rwa [List.map_map] at keys ⊢
    · intro role listed
      obtain ⟨⟨name, assignment⟩, -, rfl⟩ := List.mem_map.mp listed
      cases assignment with
      | model name => exact wellFormed_string name
      | effort model effort =>
          refine wellFormed_object distinct ?_
          simp [wellFormed_string]

variable (sha256 : JsString → JsString) (input : ConfigInput) (migrationId planTime : JsString)

theorem wellFormed_authorization :
    WellFormed (authorizationJson sha256 input migrationId planTime) := by
  have distinct : [js "contractVersion", js "stateContract", js "migrationId", js "planDigest",
    js "answers", js "catalogs", js "plan", js "source", js "destination", js "authorizedAt"].Nodup := by
    decide
  have plan : [js "hosts", js "modelRoles", js "defaulted"].Nodup := by decide
  have planned : WellFormed (.object
      [(js "hosts", hostsJson input.hosts), (js "modelRoles", modelRolesJson input.modelRoles),
        (js "defaulted", textsJson input.defaulted)]) := by
    refine wellFormed_object plan ?_
    simp [hostsJson, wellFormed_texts, wellFormed_modelRoles]
  refine wellFormed_object distinct ?_
  simp [wellFormed_string, wellFormed_reference, wellFormed_catalogs, planned]

theorem wellFormed_rollback (value : MigrationRollback) : WellFormed (rollback.encode value) := by
  have distinct : (rollbackShape value).keys.Nodup := by
    cases value <;> exact (by decide : rollbackKeys.Nodup)
  refine wellFormed_shape distinct ?_ ?_
  · cases value <;> simp [rollbackShape, wellFormed_text]
  · cases value <;> simp [rollbackShape, wellFormed_text]

theorem wellFormed_receipt (receipt : MigrationReceipt) :
    WellFormed (migrationReceipt.encode receipt) := by
  have distinct : (migrationShape receipt).keys.Nodup := (by decide : migrationKeys.Nodup)
  have conversions : WellFormed ((list conversion).encode receipt.conversions) := by
    refine wellFormed_list fun entry _ => ?_
    have keys : (conversionShape entry).keys.Nodup := (by decide : conversionKeys.Nodup)
    refine wellFormed_shape keys ?_ ?_
    · simp [conversionShape, wellFormed_text]
    · simp [conversionShape]
  have references : WellFormed ((list text).encode receipt.verificationRefs) :=
    wellFormed_list fun entry _ => wellFormed_text entry
  have source : WellFormed (sourceContract.encode receipt.sourceContract) :=
    wellFormed_enumeration receipt.sourceContract
  have status : WellFormed (migrationStatus.encode receipt.status) :=
    wellFormed_enumeration receipt.status
  refine wellFormed_shape distinct ?_ ?_
  · simp [migrationShape, wellFormed_text, conversions, references, source, status,
      wellFormed_rollback]
  · simp [migrationShape]

theorem wellFormed_rollbackManifest (receipt : MigrationReceipt) :
    WellFormed (rollbackManifestJson receipt) := by
  have distinct : [js "contractVersion", js "stateContract", js "migrationId", js "planDigest",
    js "rollback"].Nodup := by decide
  refine wellFormed_object distinct ?_
  simp [wellFormed_string, wellFormed_rollback]

theorem wellFormed_verification (planDigest backupRef backupDigest destinationRef destinationDigest
    verifiedAt : JsString) :
    WellFormed (verificationJson migrationId planDigest backupRef backupDigest destinationRef
      destinationDigest verifiedAt) := by
  have distinct : [js "contractVersion", js "stateContract", js "migrationId", js "planDigest",
    js "backup", js "destination", js "verifiedAt"].Nodup := by decide
  refine wellFormed_object distinct ?_
  simp [wellFormed_string, wellFormed_reference]

end Forms

end Kratos.Migration
