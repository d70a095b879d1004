/- source: schemas/state/lock.v1.schema.json, domain/locks/lifecycle.ts
   digest: The lease document, its JSON form and what makes it valid. -/

import Kratos.Events.Contract
import Kratos.Locks.Scope

set_option autoImplicit false

namespace Kratos.Locks

open Foundation.Text Foundation.JsonText Foundation.Runs Patterns Schema

/-- `LockLeaseV1`, its constant contract versions apart. -/
structure LockLease where
  resource : JsString
  owner : JsString
  leaseId : JsString
  acquiredAt : JsString
  expiresAt : JsString
  fencingToken : Nat
  stateRevision : Nat
  deriving DecidableEq, Repr

def lockLeaseKeys : List JsString :=
  [js "contractVersion", js "stateContract", js "resource", js "owner", js "leaseId",
    js "acquiredAt", js "expiresAt", js "fencingToken", js "stateRevision"]

def lockLeaseShape (lease : LockLease) : Shape where
  required :=
    [(js "contractVersion", text.encode (js "1.0.0")),
      (js "stateContract", text.encode (js "1.0.0")),
      (js "resource", text.encode lease.resource),
      (js "owner", text.encode lease.owner),
      (js "leaseId", text.encode lease.leaseId),
      (js "acquiredAt", text.encode lease.acquiredAt),
      (js "expiresAt", text.encode lease.expiresAt),
      (js "fencingToken", natural.encode lease.fencingToken),
      (js "stateRevision", natural.encode lease.stateRevision)]
  optional := []

def decodeLockLease (members : Members) : Option LockLease := do
  let version ← field text (js "contractVersion") members
  let contract ← field text (js "stateContract") members
  let resource ← field text (js "resource") members
  let owner ← field text (js "owner") members
  let leaseId ← field text (js "leaseId") members
  let acquiredAt ← field text (js "acquiredAt") members
  let expiresAt ← field text (js "expiresAt") members
  let fencingToken ← field natural (js "fencingToken") members
  let stateRevision ← field natural (js "stateRevision") members
  if version = js "1.0.0" ∧ contract = js "1.0.0" then
    pure ⟨resource, owner, leaseId, acquiredAt, expiresAt, fencingToken, stateRevision⟩
  else none

def lockLease : Codec LockLease :=
  record lockLeaseKeys lockLeaseShape decodeLockLease (fun _ => rfl) (by
    intro lease members agree
    have distinct : (lockLeaseShape lease).keys.Nodup := (by decide : lockLeaseKeys.Nodup)
    simp only [decodeLockLease, field_at text agree distinct 0 rfl, field_at text agree distinct
      1 rfl, field_at text agree distinct 2 rfl, field_at text agree distinct 3 rfl, field_at text
      agree distinct 4 rfl, field_at text agree distinct 5 rfl, field_at text agree distinct 6
      rfl, field_at natural agree distinct 7 rfl, field_at natural agree distinct 8 rfl,
      Option.bind_eq_bind, Option.bind_some, and_self, if_true]
    rfl)

def validLockLease (lease : LockLease) : Bool :=
  idPattern lease.resource && idPattern lease.owner && idPattern lease.leaseId &&
    timestampPattern lease.acquiredAt && timestampPattern lease.expiresAt &&
    Events.safeNatural lease.fencingToken && Events.safeNatural lease.stateRevision

inductive LeaseIntegrityError
  | failed
  deriving DecidableEq, Repr

/-- The checks of `validateLease` once the value has the shape of a lease. -/
def validateLease (lease : LockLease) : Except LeaseIntegrityError LockPaths :=
  if !validLockLease lease then .error .failed
  else
    match lockPaths lease.resource, parseOwner lease.owner with
    | .ok paths, .ok _ => .ok paths
    | _, _ => .error .failed

/-- `validateLease` of a parsed value. -/
def validateLeaseValue (value : Json) : Except LeaseIntegrityError LockLease :=
  match lockLease.decode value with
  | none => .error .failed
  | some lease => (validateLease lease).map fun _ => lease

/-- `canonicalizeJson(lease)`. -/
def leaseText (lease : LockLease) : JsString := canonicalizeJson (lockLease.encode lease)

theorem validateLease_ok {lease : LockLease} {paths : LockPaths}
    (valid : validateLease lease = .ok paths) :
    validLockLease lease = true ∧ lockPaths lease.resource = .ok paths := by
  obtain ⟨schema, valid⟩ := guard_ok_iff.mp valid
  refine ⟨by simpa using schema, ?_⟩
  split at valid
  · rename_i found owner resource parsed
    obtain rfl := Except.ok.inj valid
    exact resource
  · cases valid

theorem wellFormed_lockLease {lease : LockLease} (valid : validLockLease lease = true) :
    WellFormed (lockLease.encode lease) := by
  simp only [validLockLease, Bool.and_eq_true, Events.safeNatural, decide_eq_true_eq] at valid
  obtain ⟨⟨-, token⟩, revision⟩ := valid
  have distinct : (lockLeaseShape lease).keys.Nodup := (by decide : lockLeaseKeys.Nodup)
  refine wellFormed_shape distinct ?_ (by intro entry member; cases member)
  simp only [lockLeaseShape, List.forall_mem_cons, List.not_mem_nil, false_implies,
    implies_true, and_true]
  exact ⟨wellFormed_text _, wellFormed_text _, wellFormed_text _, wellFormed_text _,
    wellFormed_text _, wellFormed_text _, wellFormed_text _, wellFormed_natural token,
    wellFormed_natural revision⟩

theorem leaseText_reads {lease : LockLease} {paths : LockPaths}
    (valid : validateLease lease = .ok paths) :
    ∃ value, parse (leaseText lease) = some value ∧ validateLeaseValue value = .ok lease := by
  have formed := wellFormed_lockLease (validateLease_ok valid).1
  have nothing : Blank ([] : JsString) := by
    intro u member
    cases member
  have read := parse_canonicalizeJson formed nothing
  rw [List.append_nil] at read
  refine ⟨_, read, ?_⟩
  have decoded := lockLease.decode_same lease _ (sameValue_canonicalForm _)
  rw [validateLeaseValue, decoded]
  simp only [valid, Except.map]

end Kratos.Locks
