/- source: composition/locks.ts, composition/transactions.ts, domain/locks/scope.ts
   digest: Which scopes the transactions recognise of those the leases can be held on. -/

import Kratos.Locks.Guard

set_option autoImplicit false

namespace Kratos.Locks.Guard

open Foundation.Text Foundation.Paths Foundation.Runs Patterns Events
open Locks Transactions

section Encoding

private theorem base64Char_unit {index : Nat} (small : index < 64) :
    (base64Char index).length = 1 ∧ ∀ u ∈ base64Char index, isIdUnit u = true := by
  have all : (List.range 64).all (fun index => decide ((base64Char index).length = 1) &&
      (base64Char index).all isIdUnit) = true := by decide
  have one := List.all_eq_true.mp all index (List.mem_range.mpr small)
  simpa using one

theorem isIdUnit_small {u : CodeUnit} (valid : isIdUnit u = true) : u.toNat < 128 := by
  by_contra large
  have outside : ∀ low high : Char, high.toNat < 128 → between low high u = false := by
    intro low high bound
    rw [between, Bool.and_eq_false_iff]
    right
    rw [decide_eq_false_iff_not]
    omega
  have other : ∀ c : Char, (unit c).toNat < 128 → (u == unit c) = false := by
    intro c bound
    rw [beq_eq_false_iff_ne]
    rintro rfl
    exact large bound
  rw [isIdUnit, isAlnum, isLowerAlpha, isUpperAlpha, isDigit, outside _ _ (by decide),
    outside _ _ (by decide), outside _ _ (by decide), other _ (by decide), other _ (by decide),
    other _ (by decide), other _ (by decide)] at valid
  cases valid

/-- A run id is encoded in four characters for three, none of them a separator. -/
theorem encodeRunId_spec : ∀ id : JsString, (∀ u ∈ id, u.toNat < 128) →
    (encodeRunId id).length = (4 * id.length + 2) / 3 ∧ ∀ u ∈ encodeRunId id, isIdUnit u = true := by
  have front : ∀ n < 128, n >>> 2 < 64 := by
    intro n small
    rw [Nat.shiftRight_eq_div_pow]
    omega
  have low : ∀ n, (n &&& 3) <<< 4 < 64 := by
    intro n
    have bound : n &&& 3 ≤ 3 := Nat.and_le_right
    rw [Nat.shiftLeft_eq]
    omega
  have middle : ∀ n m, m < 128 → (n &&& 3) <<< 4 ||| m >>> 4 < 64 := by
    intro n m small
    have shifted : m >>> 4 < 2 ^ 6 := by
      rw [Nat.shiftRight_eq_div_pow]
      omega
    exact Nat.or_lt_two_pow (n := 6) (low n) shifted
  have high : ∀ n, (n &&& 15) <<< 2 < 64 := by
    intro n
    have bound : n &&& 15 ≤ 15 := Nat.and_le_right
    rw [Nat.shiftLeft_eq]
    omega
  have last : ∀ n m, m < 128 → (n &&& 15) <<< 2 ||| m >>> 6 < 64 := by
    intro n m small
    have shifted : m >>> 6 < 2 ^ 6 := by
      rw [Nat.shiftRight_eq_div_pow]
      omega
    exact Nat.or_lt_two_pow (n := 6) (high n) shifted
  have ends : ∀ n, n &&& 63 < 64 := by
    intro n
    have bound : n &&& 63 ≤ 63 := Nat.and_le_right
    omega
  intro id
  induction id using encodeRunId.induct with
  | case1 =>
      intro _
      exact ⟨rfl, fun u member => absurd member List.not_mem_nil⟩
  | case2 first =>
      intro small
      have one := base64Char_unit (front _ (small first List.mem_cons_self))
      have two := base64Char_unit (low first.toNat)
      rw [encodeRunId]
      constructor
      · simp [one.1, two.1]
      · exact List.forall_mem_append.mpr ⟨one.2, two.2⟩
  | case3 first second =>
      intro small
      have bound := small second (by simp)
      have one := base64Char_unit (front _ (small first List.mem_cons_self))
      have two := base64Char_unit (middle first.toNat second.toNat bound)
      have three := base64Char_unit (high second.toNat)
      rw [encodeRunId]
      constructor
      · simp [one.1, two.1, three.1]
      · exact List.forall_mem_append.mpr ⟨List.forall_mem_append.mpr ⟨one.2, two.2⟩, three.2⟩
  | case4 first second third rest ih =>
      intro small
      have one := base64Char_unit (front _ (small first List.mem_cons_self))
      have two := base64Char_unit (middle first.toNat second.toNat (small second (by simp)))
      have three := base64Char_unit (last second.toNat third.toNat (small third (by simp)))
      have four := base64Char_unit (ends third.toNat)
      obtain ⟨length, units⟩ := ih fun u member => small u (by simp [member])
      rw [encodeRunId]
      constructor
      · simp only [List.length_append, one.1, two.1, three.1, four.1, length, List.length_cons]
        omega
      · exact List.forall_mem_append.mpr ⟨List.forall_mem_append.mpr ⟨List.forall_mem_append.mpr
          ⟨List.forall_mem_append.mpr ⟨one.2, two.2⟩, three.2⟩, four.2⟩, units⟩

theorem idPattern_units {id : JsString} (valid : idPattern id = true) :
    ∀ u ∈ id, u.toNat < 128 := by
  intro u member
  cases id with
  | nil => cases member
  | cons first rest =>
      simp only [idPattern, Bool.and_eq_true, List.all_eq_true] at valid
      rcases List.mem_cons.mp member with rfl | inside
      · exact isIdUnit_small (by simp [isIdUnit, valid.1.1])
      · exact isIdUnit_small (valid.2 u inside)

end Encoding

section Scopes

/-- The project, or a run whose encoded name the transactions recognise. -/
def ShortScope (resource : JsString) : Prop :=
  resource = js "project" ∨ ∃ id, resource = js "run:" ++ id ∧ id.length ≤ 96

theorem lockScope_root {resource root name : JsString} (located : lockRoot resource = some root) :
    lockScope (root ++ (js "/" ++ name)) = true ↔ ShortScope resource := by
  unfold lockRoot at located
  split at located
  · rename_i project
    obtain rfl := Option.some.inj located
    have shape : js ".brain/locks/project" ++ (js "/" ++ name) =
        js ".brain/locks/" ++ (js "project/" ++ name) := rfl
    rw [lockScope, shape, literal, startsWith_append, if_pos rfl, List.drop_left]
    simp only [startsWith_append, Bool.true_or, true_iff]
    exact .inl project
  · rename_i other
    split at located
    · rename_i run
      obtain rfl := Option.some.inj located
      obtain ⟨id, rfl⟩ := (startsWith_iff _ _).mp run.1
      have drop : (js "run:" ++ id).drop 4 = id := List.drop_left' rfl
      rw [drop] at run ⊢
      obtain ⟨length, units⟩ := encodeRunId_spec id (idPattern_units run.2)
      have positive : 1 ≤ id.length := List.length_pos_of_ne_nil (idPattern_ne_nil run.2)
      have shape : js ".brain/locks/runs/" ++ encodeRunId id ++ (js "/" ++ name) =
          js ".brain/locks/" ++ (js "runs/" ++ (encodeRunId id ++ (js "/" ++ name))) := by
        rw [List.append_assoc]
        rfl
      have slash : isIdUnit (unit '/') = false := by decide
      have taken : (encodeRunId id ++ (js "/" ++ name)).takeWhile isIdUnit = encodeRunId id := by
        rw [List.takeWhile_append_of_pos units]
        show encodeRunId id ++ (unit '/' :: name).takeWhile isIdUnit = _
        rw [List.takeWhile_cons_of_neg (by simp [slash]), List.append_nil]
      have dropped : (encodeRunId id ++ (js "/" ++ name)).dropWhile isIdUnit = js "/" ++ name := by
        rw [List.dropWhile_append_of_pos units]
        show (unit '/' :: name).dropWhile isIdUnit = _
        rw [List.dropWhile_cons_of_neg (by simp [slash])]
        rfl
      have unlike : startsWith (js "runs/" ++ (encodeRunId id ++ (js "/" ++ name)))
          (js "project/") = false :=
        startsWith_append_of_disjoint (by decide) (by decide) _
      rw [lockScope, shape, literal, startsWith_append, if_pos rfl, List.drop_left]
      simp only [unlike, literal, startsWith_append, if_true, List.drop_left, Option.map_some,
        Option.getD_some, Bool.false_or, runScope, taken, dropped, Bool.and_true, Bool.and_eq_true,
        decide_eq_true_eq, length]
      constructor
      · rintro ⟨-, short⟩
        exact .inr ⟨id, rfl, by omega⟩
      · rintro (project | ⟨short, same, bound⟩)
        · exact absurd project other
        · have equal := List.append_cancel_left same
          rw [← equal] at bound
          omega
    · cases located

private theorem reservedGuardPath_iff {resource root : JsString}
    (located : lockRoot resource = some root) (name : JsString) :
    reservedGuardPath (root ++ (js "/" ++ name)) name = true ↔ ShortScope resource := by
  have suffix : (js "/" ++ name).isSuffixOf (root ++ (js "/" ++ name)) = true :=
    List.isSuffixOf_iff_suffix.mpr (List.suffix_append _ _)
  rw [reservedGuardPath, suffix, Bool.and_true, lockScope_root located]

end Scopes

section Guards

variable {services : EventServices} {call : GuardCall} {files : ScopeFiles}
  {binding : LeaseGuardBinding}

/-- What a prepared guard is bound to: the two files of the scope it was prepared over. -/
structure BoundTo (binding : LeaseGuardBinding) (paths : LockPaths) (events lease : StoredFile) :
    Prop where
  located : lockPaths binding.guard.resource = .ok paths
  expected : binding.expected = (⟨paths.events, events.fingerprint⟩, ⟨paths.lease, lease.fingerprint⟩)

theorem prepareLeaseGuard_spec (guarded : prepareLeaseGuard services call files = .ok binding) :
    ∃ paths events lease, BoundTo binding paths events lease := by
  rw [prepareLeaseGuard] at guarded
  obtain ⟨input, validated, guarded⟩ := bind_ok_iff.mp guarded
  have same : input = call.request := by
    rw [validateRenewRequest, guard_ok_iff] at validated
    obtain ⟨-, validated⟩ := validated
    split at validated
    · exact (Except.ok.inj validated).symm
    · cases validated
  subst same
  cases located : lockPaths call.request.observed.resource with
  | error failure =>
      rw [located] at guarded
      cases guarded
  | ok paths =>
      rw [located] at guarded
      obtain ⟨inspection, inspected, guarded⟩ := bind_ok_iff.mp guarded
      obtain ⟨current, held, guarded⟩ := bind_ok_iff.mp guarded
      obtain ⟨events, leaseFile, guard⟩ : ∃ events lease, inspection.guard.map LeaseGuard.eventsFingerprint =
          some (StoredFile.fingerprint events) ∧ inspection.guard.map LeaseGuard.leaseFingerprint =
            some (StoredFile.fingerprint lease) := by
        obtain ⟨eventsFile, leaseFile⟩ := files
        cases eventsFile with
        | none =>
            cases leaseFile with
            | none =>
                cases inspected
                cases held
            | some lease => cases inspected
        | some events =>
            cases leaseFile with
            | none => cases inspected
            | some lease =>
                rw [inspectLeaseHeld] at inspected
                split at inspected
                · cases inspected
                · split at inspected
                  · cases inspected
                  · cases inspected
                    exact ⟨events, lease, rfl, rfl⟩
      split at guarded
      · cases guarded
      · rename_i action lease granted
        rw [bindRenewal] at guarded
        split at guarded
        · cases guarded
        · obtain ⟨-, guarded⟩ := guard_ok_iff.mp guarded
          obtain rfl := Except.ok.inj guarded
          refine ⟨paths, events, leaseFile, located, ?_⟩
          rw [expectedEventsFile, expectedLeaseFile, guard.1, guard.2]
          rfl
      · cases guarded

private theorem freezePrecondition_file (path : JsString) (file : StoredFile) :
    freezePrecondition ⟨path, file.fingerprint⟩ = some ⟨path, file.fingerprint⟩ := by
  simp [freezePrecondition, freezeFingerprintStrict, StoredFile.fingerprint, file.sized, file.hashed]

private theorem manifestAuthority_bound {lower : CaseMapping} {sha256 : JsString → JsString}
    {root : JsString} {plan bound : List ManagedOperation} (some : plan ≠ [])
    (accepted : bindLeaseGuard lower sha256 plan binding = .ok bound)
    (events : reservedGuardPath binding.expected.1.path (js "events.jsonl") = true)
    (lease : reservedGuardPath binding.expected.2.path (js "lease.json") = true) :
    manifestAuthority (manifestOperations root bound) = Option.some (bindingAuthority sha256 binding) := by
  obtain ⟨first, rest, rfl⟩ := List.exists_cons_of_ne_nil some
  obtain ⟨-, accepted⟩ := guard_ok_iff.mp accepted
  obtain ⟨⟨⟩, -, accepted⟩ := bind_ok_iff.mp accepted
  obtain rfl := Except.ok.inj accepted
  rw [List.mapIdx_cons, manifestOperations]
  simp only [List.map_cons, manifestAuthority, toPersistedManagedOperation, reservedGuardWrite,
    events, lease, Bool.not_true, Bool.or_self, Bool.false_eq_true, if_false]
  rfl

/-- A prepared guard composes with the transactions when the name of its scope is short. -/
theorem lease_guard_composes (guarded : prepareLeaseGuard services call files = .ok binding) :
    (freezeLeaseGuard binding = some binding ∧
        ∀ lower root plan bound, plan ≠ [] →
          bindLeaseGuard lower services.sha256 plan binding = .ok bound →
            ∃ paths authority, lockPaths binding.guard.resource = .ok paths ∧
              manifestAuthority (manifestOperations root bound) = some authority ∧
              authority = bindingAuthority services.sha256 binding ∧
              authority.1.path = paths.events ∧ authority.2.path = paths.lease) ↔
      ShortScope binding.guard.resource := by
  obtain ⟨paths, events, lease, bound⟩ := prepareLeaseGuard_spec guarded
  obtain ⟨root, located, rfl⟩ := lockPaths_ok_iff.mp bound.located
  have eventsPath : binding.expected.1.path = root ++ (js "/" ++ js "events.jsonl") := by
    rw [bound.expected]
    rfl
  have leasePath : binding.expected.2.path = root ++ (js "/" ++ js "lease.json") := by
    rw [bound.expected]
    rfl
  have eventsReserved := reservedGuardPath_iff located (js "events.jsonl")
  have leaseReserved := reservedGuardPath_iff located (js "lease.json")
  rw [← eventsPath] at eventsReserved
  rw [← leasePath] at leaseReserved
  have frozen : freezeLeaseGuard binding =
      if !reservedGuardPath binding.expected.1.path (js "events.jsonl") ||
          !reservedGuardPath binding.expected.2.path (js "lease.json") then none
      else some binding := by
    have first : freezePrecondition binding.expected.1 = some binding.expected.1 := by
      rw [bound.expected]
      exact freezePrecondition_file _ events
    have second : freezePrecondition binding.expected.2 = some binding.expected.2 := by
      rw [bound.expected]
      exact freezePrecondition_file _ lease
    rw [freezeLeaseGuard, first, second]
    rfl
  constructor
  · rintro ⟨accepted, -⟩
    rw [frozen] at accepted
    split at accepted
    · cases accepted
    · rename_i reserved
      simp only [Bool.or_eq_true, Bool.not_eq_true', not_or, Bool.not_eq_false] at reserved
      exact eventsReserved.mp reserved.1
  · intro short
    have eventsKnown := eventsReserved.mpr short
    have leaseKnown := leaseReserved.mpr short
    refine ⟨by rw [frozen, eventsKnown, leaseKnown]; rfl, ?_⟩
    intro lower transaction plan operations caller accepted
    exact ⟨_, _, bound.located, manifestAuthority_bound caller accepted eventsKnown leaseKnown, rfl,
      eventsPath, leasePath⟩

end Guards

section Samples

/-- A digest that knows the texts of some lengths. -/
def knownServices (digests : List (Nat × JsString)) : EventServices where
  sha256 text := ((digests.find? fun entry => entry.1 == text.length).map Prod.snd).getD []

/-- A lease of five seconds from the first instant. -/
def heldLease (resource : JsString) : LockLease where
  resource
  owner := js "claude:s"
  leaseId := js "l"
  acquiredAt := js "1970-01-01T00:00:00.000Z"
  expiresAt := js "1970-01-01T00:00:05.000Z"
  fencingToken := 1
  stateRevision := 0

def acquiredTrail (services : EventServices) (resource : JsString) : JsString :=
  match lockPaths resource with
  | .error _ => []
  | .ok paths =>
      match prepareLeaseTransition services
        ⟨.acquire, [], heldLease resource, paths.lease, js "e", js "1970-01-01T00:00:00.000Z",
          ⟨js "claude", none⟩⟩ with
      | .error _ => []
      | .ok prepared => prepared.eventsText

def heldFiles (services : EventServices) (resource : JsString) (events lease : StoredFile) :
    ScopeFiles where
  events := some { events with text := acquiredTrail services resource }
  lease := some { lease with text := leaseText (heldLease resource) }

/-- A request to guard the lease for another five seconds, one second on. -/
def guardCall (resource : JsString) (events lease : StoredFile) : GuardCall where
  request := ⟨leaseGuard (heldLease resource) lease events, 5000, 10, ⟨js "claude", none⟩⟩
  inspectedAt := some 1000
  decidedAt := some 1000
  eventId := js "e2"
  occurredAt := js "1970-01-01T00:00:01.000Z"

/-- The digests of the leases and events of the project. -/
def projectServices : EventServices :=
  knownServices
    [(219, js "77795345df5edaa4fe2e8286e5317f2e42531711622bec21933f88bd4c2eb8b7"),
      (504, js "cbde2c8bb01ca5c0a65875c5d8288f3d6eba64bbf5b1ecafd56f8caf7df911e2"),
      (220, js "e12af58c338ae8edc6f337e077c3a96bab747b4699f368bbec5a133b696f5646"),
      (565, js "6c3ec1f87e9095d7884f2f7d5e1d51cd3443daab133774942a0d35cb4f4b7f9b")]

def projectEvents : StoredFile :=
  ⟨584, js "039469897e21d08acd149546efa1b90ab82ac8444623b6bb378bf05a69e159fe", [], by decide, by decide⟩

def projectLease : StoredFile :=
  ⟨219, js "77795345df5edaa4fe2e8286e5317f2e42531711622bec21933f88bd4c2eb8b7", [], by decide, by decide⟩

theorem project_guard_composes :
    ∃ binding,
      prepareLeaseGuard projectServices (guardCall (js "project") projectEvents projectLease)
          (heldFiles projectServices (js "project") projectEvents projectLease) = .ok binding ∧
        freezeLeaseGuard binding = some binding := by
  have prepared : ((prepareLeaseGuard projectServices
      (guardCall (js "project") projectEvents projectLease)
      (heldFiles projectServices (js "project") projectEvents projectLease)).toOption.any
        fun binding => binding.guard.resource == js "project") = true := by decide +kernel
  cases outcome : prepareLeaseGuard projectServices
      (guardCall (js "project") projectEvents projectLease)
      (heldFiles projectServices (js "project") projectEvents projectLease) with
  | error failure =>
      rw [outcome] at prepared
      cases prepared
  | ok binding =>
      rw [outcome] at prepared
      have resource : binding.guard.resource = js "project" := beq_iff_eq.mp prepared
      exact ⟨binding, rfl, ((lease_guard_composes outcome).mpr (.inl resource)).1⟩

/-- The shortest run whose leases the transactions do not recognise. -/
def unguardedRun : JsString := js "run:" ++ List.replicate 97 (unit 'a')

/-- The digests of the leases and events of that run. -/
def unguardedServices : EventServices :=
  knownServices
    [(313, js "6b45642ddbefe4c0025b447fde78c5fe68f6b5c6394934d2d89965e416364406"),
      (632, js "b4b6f813a77597d084229b902a5a0328ed0cb681a6f575b8335f0393407941e9"),
      (314, js "06d6ba2e1a2df53956f781f495042688453a8b679f82c44b85ec231fb5476ce5"),
      (693, js "216dbd4063be6717b6a9d12dd688dd727d24a51f63dfa062571eda9ed57c975d")]

def unguardedEvents : StoredFile :=
  ⟨712, js "37904a3c32bf5a269adb9c39a073670db861ebeed289dd4b67cafafb148f9d74", [], by decide, by decide⟩

def unguardedLease : StoredFile :=
  ⟨313, js "6b45642ddbefe4c0025b447fde78c5fe68f6b5c6394934d2d89965e416364406", [], by decide, by decide⟩

theorem long_run_guard_refused :
    ∃ binding,
      prepareLeaseGuard unguardedServices (guardCall unguardedRun unguardedEvents unguardedLease)
          (heldFiles unguardedServices unguardedRun unguardedEvents unguardedLease) = .ok binding ∧
        freezeLeaseGuard binding = none := by
  have prepared : ((prepareLeaseGuard unguardedServices
      (guardCall unguardedRun unguardedEvents unguardedLease)
      (heldFiles unguardedServices unguardedRun unguardedEvents unguardedLease)).toOption.any
        fun binding => (freezeLeaseGuard binding).isNone) = true := by decide +kernel
  cases outcome : prepareLeaseGuard unguardedServices
      (guardCall unguardedRun unguardedEvents unguardedLease)
      (heldFiles unguardedServices unguardedRun unguardedEvents unguardedLease) with
  | error failure =>
      rw [outcome] at prepared
      cases prepared
  | ok binding =>
      rw [outcome] at prepared
      exact ⟨binding, rfl, Option.isNone_iff_eq_none.mp prepared⟩

end Samples

end Kratos.Locks.Guard
