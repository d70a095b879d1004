/- source: composition/locks.ts
   digest: Which claim records that are written are read back. -/

import Kratos.Locks.ClaimRecord

set_option autoImplicit false

namespace Kratos.Locks

open Foundation.Text Foundation.Calendar Foundation.JsonText Foundation.Lines
open Patterns Schema Durable Durable.Storage
open Events (safeNatural)

section Timestamps

def FourDigitYear (time : Int) : Prop := 0 ≤ yearOf time ∧ yearOf time ≤ 9999

private theorem digitRun_fixedDigits (width n : Nat) (rest : JsString) :
    digitRun width (fixedDigits width n ++ rest) = some rest := by
  have length := fixedDigits_length width n
  have front : (fixedDigits width n ++ rest).take width = fixedDigits width n := by
    rw [List.take_append_of_le_length length.ge, List.take_of_length_le length.le]
  have back : (fixedDigits width n ++ rest).drop width = rest := by
    rw [List.drop_append_of_le_length length.ge, List.drop_of_length_le length.le, List.nil_append]
  have digits : (fixedDigits width n).all isDigit = true :=
    List.all_eq_true.mpr (fixedDigits_digit width n)
  rw [digitRun, front, back, if_pos ⟨length, digits⟩]

theorem strictTimestampPattern_toISOString (time : Int) :
    strictTimestampPattern (toISOString time) = true ↔ FourDigitYear time := by
  unfold toISOString
  simp only
  rw [show yearFromDay (time / msPerDay) = yearOf time from rfl]
  simp only [List.append_assoc, List.cons_append]
  constructor
  · intro accepted
    by_contra signed
    rw [FourDigitYear] at signed
    have refused : ∀ sign : CodeUnit, isDigit sign = false → ∀ rest : JsString,
        digitRun 4 (sign :: rest) = none := by
      intro sign letter rest
      rw [digitRun, if_neg]
      rintro ⟨-, digits⟩
      rw [List.take_succ_cons, List.all_cons, letter] at digits
      cases digits
    have sign : isDigit (if yearOf time < 0 then unit '-' else unit '+') = false := by
      split <;> decide
    rw [strictTimestampPattern, yearText, if_neg signed, List.cons_append, refused _ sign] at accepted
    cases accepted
  · intro short
    rw [FourDigitYear] at short
    rw [strictTimestampPattern, yearText, if_pos short]
    simp only [digitRun_fixedDigits, expect_cons, Option.bind_eq_bind, Option.bind_some]
    rfl

theorem strictTimestamp_toISOString {time : Int} (clipped : time.natAbs ≤ 8640000000000000) :
    strictTimestamp (toISOString time) = true ↔ FourDigitYear time := by
  rw [← strictTimestampPattern_toISOString, strictTimestamp, dateParse_toISOString clipped]
  simp

end Timestamps

section Records

variable {record : LockClaimRecord}

theorem wellFormed_lockClaim (safe : record.fencingToken.all safeNatural = true) :
    WellFormed (lockClaim.encode record) := by
  have distinct : (lockClaimShape record).keys.Nodup := (by decide : lockClaimKeys.Nodup)
  refine wellFormed_shape distinct ?_ (by intro entry member; cases member)
  have token : WellFormed (Events.nullableNatural.encode record.fencingToken) := by
    refine wellFormed_nullable fun value member => wellFormed_natural ?_
    rw [Option.mem_def.mp member] at safe
    simpa [safeNatural] using safe
  simp only [lockClaimShape, List.forall_mem_cons, List.not_mem_nil, false_implies,
    implies_true, and_true]
  exact ⟨wellFormed_text _, wellFormed_text _, wellFormed_text _, token,
    wellFormed_nullable fun _ _ => wellFormed_text _, wellFormed_text _, wellFormed_text _⟩

theorem exactRecord_claimText (safe : record.fencingToken.all safeNatural = true) :
    (parse (claimText record)).bind exactRecord =
      if validClaimRecord record then some record else none := by
  have nothing : Blank ([] : JsString) := by
    intro u member
    cases member
  have read := parse_canonicalizeJson (wellFormed_lockClaim safe) nothing
  rw [List.append_nil] at read
  have decoded : lockClaim.decode (canonicalForm (lockClaim.encode record)) = some record :=
    lockClaim.decode_same record _ (sameValue_canonicalForm _)
  rw [claimText, read, Option.bind_some, exactRecord, decoded, Option.bind_some]

theorem resource_cases {resource : JsString} (known : (lockPaths resource).toBool = true) :
    resource = js "project" ∨ ∃ id, idPattern id = true ∧ resource = js "run:" ++ id := by
  unfold lockPaths lockRoot at known
  split at known
  · cases known
  · rename_i root located
    split at located
    · rename_i project
      exact .inl project
    · split at located
      · rename_i run
        obtain ⟨id, rfl⟩ := (startsWith_iff _ _).mp run.1
        exact .inr ⟨id, run.2, rfl⟩
      · cases located

theorem idPattern_resource {resource : JsString} (known : (lockPaths resource).toBool = true) :
    idPattern resource = true ↔ resource.length ≤ 128 := by
  constructor
  · exact idPattern_length
  · intro short
    rcases resource_cases known with rfl | ⟨id, valid, rfl⟩
    · decide
    · have units : ∀ u ∈ id, isIdUnit u = true := by
        intro u member
        cases id with
        | nil => cases member
        | cons first rest =>
            simp only [idPattern, Bool.and_eq_true, List.all_eq_true] at valid
            rcases List.mem_cons.mp member with rfl | inside
            · simp [isIdUnit, valid.1.1]
            · exact valid.2 u inside
      have head : ∀ u ∈ js "un:", isIdUnit u = true := List.all_iff_forall_prop.mp (by decide)
      have shape : js "run:" ++ id = unit 'r' :: (js "un:" ++ id) := rfl
      have first : isAlnum (unit 'r') = true := by decide
      rw [shape, List.length_cons] at short
      rw [shape, idPattern, first, Bool.true_and, Bool.and_eq_true, decide_eq_true_eq]
      exact ⟨by omega, List.all_eq_true.mpr (List.forall_mem_append.mpr ⟨head, units⟩)⟩

/-- An admission is valid when its resource is short and its times have four-digit years. -/
theorem validClaimRecord_admission {claimId resource owner : JsString} {now : Int}
    {admission : LockClaimRecord} (id : idPattern claimId = true)
    (known : (lockPaths resource).toBool = true) (owned : (parseOwner owner).toBool = true)
    (started : now.natAbs ≤ 8640000000000000)
    (made : admissionRecord claimId resource owner now = some admission) :
    validClaimRecord admission = true ↔
      resource.length ≤ 128 ∧ FourDigitYear now ∧ FourDigitYear (now + claimMs) := by
  obtain ⟨expiry, clipped, rfl⟩ := Option.map_eq_some_iff.mp made
  unfold timeClip at clipped
  split at clipped
  · rename_i ends
    obtain rfl := Option.some.inj clipped
    simp only [validClaimRecord, id, owned, Option.all_some, Option.isNone_some, beq_self_eq_true,
      Bool.true_or, Bool.and_true, Bool.true_and, Bool.and_eq_true, idPattern_resource known,
      strictTimestamp_toISOString started, strictTimestamp_toISOString ends, and_assoc]
    simp [safeNatural]
  · cases clipped

theorem validClaimRecord_scope {claimId : JsString} {request : AcquireClaimRequest} {now : Int}
    {claim : LockClaimRecord} (id : idPattern claimId = true)
    (checked : validClaimRequest request = true) (started : now.natAbs ≤ 8640000000000000)
    (made : scopeRecord claimId request now = some claim) :
    validClaimRecord claim = true ↔ FourDigitYear now ∧ FourDigitYear (now + claimMs) := by
  obtain ⟨expiry, clipped, rfl⟩ := Option.map_eq_some_iff.mp made
  simp only [validClaimRequest, Bool.and_eq_true] at checked
  obtain ⟨⟨known, owned⟩, observed⟩ := checked
  have named : (request.resource == js "admission" || request.resource == js "project" ||
      startsWith request.resource (js "run:")) = true := by
    rcases resource_cases known with project | ⟨id, -, run⟩
    · rw [project]
      decide
    · rw [run, startsWith_append, Bool.or_true]
  have lease : ((request.observed.map LeaseGuard.leaseId).all idPattern &&
      (request.observed.map LeaseGuard.leaseId).isNone ==
        (request.observed.map LeaseGuard.fencingToken).isNone &&
      (request.observed.map LeaseGuard.fencingToken).all safeNatural) = true := by
    cases held : request.observed with
    | none => rfl
    | some guard =>
        rw [held] at observed
        simp only [Option.all_some, validObservedGuard, Bool.and_eq_true] at observed
        simp [observed]
  simp only [Bool.and_eq_true] at lease
  unfold timeClip at clipped
  split at clipped
  · rename_i ends
    obtain rfl := Option.some.inj clipped
    simp only [validClaimRecord, id, named, lease, owned, known, Bool.or_true, Bool.and_true,
      Bool.true_and, Bool.and_eq_true, strictTimestamp_toISOString started,
      strictTimestamp_toISOString ends]
  · cases clipped

end Records

section Publication

variable {sha256 : JsString → JsString} {storage published : Storage} {record : LockClaimRecord}

private theorem generationName_plain {digest : JsString} (hashed : sha256Pattern digest = true) :
    unit '/' ∉ generationName digest := by
  simp only [sha256Pattern, Bool.and_eq_true, List.all_eq_true, Bool.or_eq_true] at hashed
  intro member
  rcases List.mem_append.mp member with head | tail
  · exact absurd head (by decide)
  · rcases hashed.2 _ tail with letter | digit
    · exact absurd letter (by decide)
    · exact absurd digit (by decide)

/-- What a published admission leaves in the directory of the claim. -/
structure PublishedClaim (storage : Storage) (digest content : JsString) : Prop where
  claim : storage.find admissionClaim = some .directory
  generations : storage.list admissionClaim = [generationName digest]
  generation : storage.find (generationIn admissionClaim digest).directory = some .directory
  children : storage.list (generationIn admissionClaim digest).directory = [js "claim.json"]
  content : storage.find (generationIn admissionClaim digest).recordPath = some (.file content)

private theorem candidate_storage {candidate digest content : JsString}
    (unused : storage.free candidate = true) (plain : unit '/' ∉ generationName digest) :
    let filled : Storage := storage ++ [(candidate, .directory)] ++
      [((generationIn candidate digest).directory, .directory)] ++
      [((generationIn candidate digest).recordPath, .file content)]
    (filled.list candidate = [generationName digest] ∧
      filled.list (generationIn candidate digest).directory = [js "claim.json"]) ∧
    filled.find candidate = some .directory ∧
      filled.find (generationIn candidate digest).directory = some .directory ∧
      filled.find (generationIn candidate digest).recordPath = some (.file content) := by
  intro filled
  have directory : (generationIn candidate digest).directory =
      candidate ++ (js "/" ++ generationName digest) := List.append_assoc _ _ _
  have path : (generationIn candidate digest).recordPath =
      candidate ++ (js "/" ++ generationName digest) ++ js "/claim.json" :=
    congrArg (· ++ js "/claim.json") (List.append_assoc _ _ _)
  have below : (generationIn candidate digest).recordPath =
      candidate ++ (js "/" ++ (generationName digest ++ js "/claim.json")) := by
    rw [path]
    simp only [List.append_assoc]
  have slash : unit '/' ∈ generationName digest ++ js "/claim.json" :=
    List.mem_append_right _ (by decide)
  have lengths : candidate.length < (generationIn candidate digest).directory.length ∧
      (generationIn candidate digest).directory.length <
        (generationIn candidate digest).recordPath.length := by
    have one : (js "/").length = 1 := rfl
    have eleven : (js "/claim.json").length = 11 := rfl
    rw [path, directory]
    simp only [List.length_append]
    omega
  refine ⟨⟨?_, ?_⟩, ?_, ?_, ?_⟩
  · have empty : storage.list candidate = [] := by
      have children := list_free unused (.inl rfl : Extension [])
      rwa [List.append_nil] at children
    rw [list_append, list_append, list_append, empty, List.nil_append]
    show List.filterMap _ [_] ++ List.filterMap _ [_] ++ List.filterMap _ [_] = _
    simp only [List.filterMap_cons, List.filterMap_nil]
    rw [childName_short (Nat.le_refl _), below, childName_deeper candidate slash, directory,
      childName_child candidate plain]
    rfl
  · have empty : storage.list (generationIn candidate digest).directory = [] := by
      rw [directory]
      exact list_free unused (.inr ⟨_, rfl⟩)
    have child : childName (generationIn candidate digest).directory
        (generationIn candidate digest).recordPath = some (js "claim.json") := by
      rw [path, directory]
      exact childName_child _ (by decide)
    rw [list_append, list_append, list_append, empty, List.nil_append]
    show List.filterMap _ [_] ++ List.filterMap _ [_] ++ List.filterMap _ [_] = _
    simp only [List.filterMap_cons, List.filterMap_nil]
    rw [childName_short (Nat.le_of_lt lengths.1), childName_short (Nat.le_refl _), child]
    rfl
  · rw [find_concat, if_neg, find_concat, if_neg, find_concat, if_pos rfl]
    · intro same
      rw [same] at lengths
      omega
    · intro same
      rw [same] at lengths
      omega
  · rw [find_concat, if_neg, find_concat, if_pos rfl]
    intro same
    rw [same] at lengths
    omega
  · rw [find_concat, if_pos rfl]

/-- A published admission is the only generation of the claim, with its record in it. -/
theorem publishAdmission_spec (hashed : sha256Pattern (sha256 (claimText record)) = true)
    (done : publishAdmission sha256 storage record = some published) :
    PublishedClaim published (sha256 (claimText record)) (claimText record) := by
  unfold publishAdmission at done
  simp only [Option.bind_eq_bind, Option.bind_eq_some_iff] at done
  obtain ⟨opened, first, named, second, filled, third, renamed⟩ := done
  unfold createDirectoryExclusive at first
  split at first
  · rename_i unused
    unfold createDirectoryExclusive at second
    split at second
    · unfold writeSynced at third
      split at third
      · obtain rfl := Option.some.inj first
        obtain rfl := Option.some.inj second
        obtain rfl := Option.some.inj third
        obtain ⟨⟨children, records⟩, kept, generation, content⟩ :=
          candidate_storage unused (generationName_plain hashed)
        have place : ∀ directory, (generationIn directory (sha256 (claimText record))).directory =
            directory ++ (js "/" ++ generationName (sha256 (claimText record))) :=
          fun directory => List.append_assoc _ _ _
        have file : ∀ directory, (generationIn directory (sha256 (claimText record))).recordPath =
            directory ++ (js "/" ++
              (generationName (sha256 (claimText record)) ++ js "/claim.json")) := by
          intro directory
          show directory ++ js "/" ++ generationName _ ++ js "/claim.json" = _
          simp only [List.append_assoc]
        obtain ⟨top, found⟩ := renameDirectoryExclusive_spec renamed (.inl rfl : Extension [])
        rw [List.append_nil, List.append_nil] at top found
        obtain ⟨inner, made⟩ := renameDirectoryExclusive_spec renamed
          (.inr ⟨generationName (sha256 (claimText record)), rfl⟩ : Extension (js "/" ++ _))
        have stored := (renameDirectoryExclusive_spec renamed
          (.inr ⟨generationName (sha256 (claimText record)) ++ js "/claim.json", rfl⟩ :
            Extension (js "/" ++ _))).2
        rw [← place, ← place] at inner made
        rw [← file, ← file] at stored
        exact ⟨found.trans kept, top.trans children, made.trans generation, inner.trans records,
          stored.trans content⟩
      · cases third
    · cases second
  · cases first

private theorem generationName_head (digest : JsString) :
    (generationName digest).take 7 = js ".claim-" :=
  List.take_left' rfl

private theorem locate_published {digest content : JsString}
    (hashed : sha256Pattern digest = true) (stored : PublishedClaim published digest content) :
    locateAdmission published = .ok (some (generationIn admissionClaim digest)) := by
  have parsed : parseAdmissionGeneration (generationName digest) = some digest := by
    rw [parseAdmissionGeneration, digestAfter, generationName, literal, startsWith_append,
      if_pos rfl, List.drop_left, Option.bind_some, if_pos hashed]
  have fresh : (generationName digest == js "claim.json" ||
      isAdmissionTombstone (generationName digest)) = false := by
    have head := generationName_head digest
    rw [Bool.or_eq_false_iff]
    constructor
    · rw [beq_eq_false_iff_ne]
      intro same
      rw [same] at head
      exact absurd head (by decide)
    · have other : startsWith (generationName digest) (js ".retired-") = false := by
        rw [Bool.eq_false_iff]
        intro begins
        obtain ⟨rest, same⟩ := (startsWith_iff _ _).mp begins
        rw [same] at head
        rw [List.take_append_of_le_length (by decide)] at head
        exact absurd head (by decide)
      rw [isAdmissionTombstone, literal, other]
      rfl
  have children : assertAdmissionGenerationChildren published
      (generationIn admissionClaim digest).directory digest = .ok () := by
    rw [assertAdmissionGenerationChildren, stored.children]
    have none : parseCleanupMarker (js "claim.json") = none := by decide
    simp only [List.any_cons, List.any_nil, List.filterMap_cons, List.filterMap_nil, none]
    rfl
  rw [locateAdmission, stored.claim]
  simp only [stored.generations, List.filterMap_cons, List.filterMap_nil, parsed, List.any_cons,
    List.any_nil, Bool.or_false, fresh, stored.generation, children]
  rfl

theorem readAdmissionClaim_published (hashed : sha256Pattern (sha256 (claimText record)) = true)
    (safe : record.fencingToken.all safeNatural = true) (named : record.resource = js "admission")
    (stored : PublishedClaim published (sha256 (claimText record)) (claimText record)) :
    readAdmissionClaim sha256 published =
      if validClaimRecord record then
        .ok (some ⟨record, admissionLocationFor sha256 record,
          .file (utf8Length (claimText record)) (sha256 (claimText record))⟩)
      else .error (.stateCorrupt (admissionLocationFor sha256 record).recordPath) := by
  have text : (parse (claimText record)).bind exactRecord =
      if validClaimRecord record then some record else none := exactRecord_claimText safe
  rw [readAdmissionClaim, locate_published hashed stored]
  simp only [bind, Except.bind]
  simp only [stored.content, text]
  by_cases valid : validClaimRecord record = true
  · rw [if_pos valid, if_pos valid]
    simp only
    rw [if_neg (by simp [named]), if_neg (by rintro ⟨-, other⟩; exact other rfl)]
    rfl
  · rw [if_neg valid, if_neg valid]
    rfl

/-- The times a claim started at `now` carries have four-digit years. -/
def ClaimYears (now : Int) : Prop := FourDigitYear now ∧ FourDigitYear (now + claimMs)

/-- The claims of an acquisition are read back when its scope's name is short. -/
theorem acquired_claims_read {request : AcquireClaimRequest} {admissionId claimId : JsString}
    {started now : Int} {admission claim : LockClaimRecord}
    (hashed : ∀ content, sha256Pattern (sha256 content) = true)
    (checked : validClaimRequest request = true)
    (ids : idPattern admissionId = true ∧ idPattern claimId = true)
    (clock : started.natAbs ≤ 8640000000000000 ∧ now.natAbs ≤ 8640000000000000)
    (admitted : admissionRecord admissionId request.resource request.owner started = some admission)
    (made : scopeRecord claimId request now = some claim)
    (done : publishAdmission sha256 storage admission = some published) :
    readAdmissionClaim sha256 published =
        .ok (some ⟨admission, admissionLocationFor sha256 admission,
          .file (utf8Length (claimText admission)) (sha256 (claimText admission))⟩) ∧
        (parse (claimText claim)).bind exactRecord = some claim ↔
      request.resource.length ≤ 128 ∧ ClaimYears started ∧ ClaimYears now := by
  have request_valid := checked
  simp only [validClaimRequest, Bool.and_eq_true] at request_valid
  obtain ⟨⟨known, owned⟩, observed⟩ := request_valid
  have admissible := validClaimRecord_admission ids.1 known owned clock.1 admitted
  have claimable := validClaimRecord_scope ids.2 checked clock.2 made
  have admissionToken : admission.fencingToken.all safeNatural = true ∧
      admission.resource = js "admission" := by
    obtain ⟨expiry, -, rfl⟩ := Option.map_eq_some_iff.mp admitted
    exact ⟨by simp [safeNatural], rfl⟩
  have claimToken : claim.fencingToken.all safeNatural = true := by
    obtain ⟨expiry, -, rfl⟩ := Option.map_eq_some_iff.mp made
    cases held : request.observed with
    | none => simp
    | some guard =>
        rw [held, Option.all_some, validObservedGuard] at observed
        simp only [Bool.and_eq_true] at observed
        simp [observed]
  rw [readAdmissionClaim_published (hashed _) admissionToken.1 admissionToken.2
    (publishAdmission_spec (hashed _) done), exactRecord_claimText claimToken]
  constructor
  · rintro ⟨read, decoded⟩
    have valid : validClaimRecord admission = true := by
      by_contra refused
      rw [if_neg refused] at read
      cases read
    have scope : validClaimRecord claim = true := by
      by_contra refused
      rw [if_neg refused] at decoded
      cases decoded
    obtain ⟨short, years⟩ := admissible.mp valid
    exact ⟨short, years, claimable.mp scope⟩
  · rintro ⟨short, years, scopeYears⟩
    exact ⟨if_pos (admissible.mpr ⟨short, years⟩), if_pos (claimable.mpr scopeYears)⟩

end Publication

section Samples

/-- A request of a session for a resource it has observed no lease on. -/
def sampleRequest (resource : JsString) : AcquireClaimRequest := ⟨resource, js "claude:s", none⟩

def sampleTime : Int := 1767225600000

def projectDigest : JsString :=
  js "e9fb695b7c5198780a99a6051ce2c31191dcece030c7aa9a095e074386362568"

def lockStorage : Storage := [(admissionRoot, .directory)]

theorem project_claims_read :
    ∃ admission claim published,
      admissionRecord (js "c-1") (js "project") (js "claude:s") sampleTime = some admission ∧
        scopeRecord (js "c-2") (sampleRequest (js "project")) sampleTime = some claim ∧
        publishAdmission (fun _ => projectDigest) lockStorage admission = some published ∧
        (readAdmissionClaim (fun _ => projectDigest) published =
            .ok (some ⟨admission, admissionLocationFor (fun _ => projectDigest) admission,
              .file (utf8Length (claimText admission)) projectDigest⟩) ∧
            (parse (claimText claim)).bind exactRecord = some claim ↔
          (js "project").length ≤ 128 ∧ ClaimYears sampleTime ∧ ClaimYears sampleTime) := by
  have checked : validClaimRequest (sampleRequest (js "project")) = true := by decide
  obtain ⟨published, done⟩ := Option.isSome_iff_exists.mp
    (by decide +kernel : (publishAdmission (fun _ => projectDigest) lockStorage
      (((admissionRecord (js "c-1") (js "project") (js "claude:s") sampleTime)).get rfl)).isSome = true)
  exact ⟨_, _, published, (Option.some_get _).symm, (Option.some_get (by rfl)).symm, done,
    acquired_claims_read (fun _ => by decide) checked ⟨by decide, by decide⟩
      ⟨by decide, by decide⟩ (Option.some_get _).symm (Option.some_get (by rfl)).symm done⟩

/-- A run name that is valid and makes the name of its scope too long. -/
def longRun : JsString := js "run:" ++ List.replicate 125 (unit 'a')

def longRunDigest : JsString :=
  js "995159dfa1f221cffd74ad205e3b084e05ee276018df733ddfb268246c6e5442"

theorem long_run_admission_corrupt :
    validClaimRequest (sampleRequest longRun) = true ∧
      ∃ admission published,
        admissionRecord (js "c-1") longRun (js "claude:s") sampleTime = some admission ∧
          publishAdmission (fun _ => longRunDigest) lockStorage admission = some published ∧
          readAdmissionClaim (fun _ => longRunDigest) published =
            .error (.stateCorrupt (admissionLocationFor (fun _ => longRunDigest) admission).recordPath) := by
  have known : (lockPaths longRun).toBool = true := by decide +kernel
  have hashed : sha256Pattern longRunDigest = true := by decide
  have made := (Option.some_get (rfl : (admissionRecord (js "c-1") longRun (js "claude:s")
    sampleTime).isSome = true)).symm
  obtain ⟨published, done⟩ := Option.isSome_iff_exists.mp
    (by decide +kernel : (publishAdmission (fun _ => longRunDigest) lockStorage
      ((admissionRecord (js "c-1") longRun (js "claude:s") sampleTime).get rfl)).isSome = true)
  refine ⟨by decide +kernel, _, published, made, done, ?_⟩
  rw [readAdmissionClaim_published hashed (by decide) (by decide) (publishAdmission_spec hashed done),
    if_neg]
  intro valid
  have short := ((validClaimRecord_admission (by decide) known (by decide) (by decide) made).mp
    valid).1
  rw [longRun, List.length_append, List.length_replicate] at short
  exact absurd short (by decide)

end Samples

end Kratos.Locks
