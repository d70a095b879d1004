/- source: domain/locks/model.ts, domain/locks/scope.ts
   digest: Lock resources and their paths, owners, durations and the three states of a lease. -/

import Kratos.Foundation.Calendar
import Kratos.Foundation.Runs
import Kratos.Patterns
import Mathlib.Data.List.SplitOn

set_option autoImplicit false

namespace Kratos.Locks

open Foundation.Text Foundation.Calendar Patterns

/-- `LEASE_SKEW_MS`, `MIN_LEASE_TTL_MS`, `MAX_LEASE_TTL_MS`. -/
def leaseSkewMs : Int := 5000
def minLeaseTtlMs : Int := 5000
def maxLeaseTtlMs : Int := 300000

inductive LeaseTimeState
  | writable | skew | takeoverEligible
  deriving DecidableEq, Repr

inductive LeasePolicyError
  | invalidInput | invalidTransition
  deriving DecidableEq, Repr

/-- `Number.isSafeInteger`. -/
def isSafeNumber (value : Int) : Bool := decide (value.natAbs ≤ 9007199254740991)

def isOwnerUnit (u : CodeUnit) : Bool :=
  isAlnum u || u == unit '.' || u == unit '_' || u == unit '-'

/-- `^[A-Za-z0-9][A-Za-z0-9._-]{0,62}$`. -/
def ownerPart : JsString → Bool
  | [] => false
  | first :: rest => isAlnum first && decide (rest.length ≤ 62) && rest.all isOwnerUnit

def base64url : JsString :=
  js "ABCDEFGHIJKLMNOPQRSTUVWXYZabcdefghijklmnopqrstuvwxyz0123456789-_"

/-- `base64url.charAt(index)`. -/
def base64Char (index : Nat) : JsString := (base64url.drop index).take 1

def encodeRunId : JsString → JsString
  | [] => []
  | [first] => base64Char (first.toNat >>> 2) ++ base64Char ((first.toNat &&& 3) <<< 4)
  | [first, second] =>
      base64Char (first.toNat >>> 2) ++
        base64Char ((first.toNat &&& 3) <<< 4 ||| second.toNat >>> 4) ++
        base64Char ((second.toNat &&& 15) <<< 2)
  | first :: second :: third :: rest =>
      base64Char (first.toNat >>> 2) ++
        base64Char ((first.toNat &&& 3) <<< 4 ||| second.toNat >>> 4) ++
        base64Char ((second.toNat &&& 15) <<< 2 ||| third.toNat >>> 6) ++
        base64Char (third.toNat &&& 63) ++ encodeRunId rest

structure LockPaths where
  root : JsString
  lease : JsString
  events : JsString
  claim : JsString
  claimRecord : JsString
  admissionClaim : JsString
  admissionRecord : JsString
  deriving DecidableEq, Repr

def lockRoot (input : JsString) : Option JsString :=
  if input = js "project" then some (js ".brain/locks/project")
  else if startsWith input (js "run:") ∧ idPattern (input.drop 4) then
    some (js ".brain/locks/runs/" ++ encodeRunId (input.drop 4))
  else none

def pathsUnder (root : JsString) : LockPaths where
  root
  lease := root ++ js "/lease.json"
  events := root ++ js "/events.jsonl"
  claim := root ++ js "/claim"
  claimRecord := root ++ js "/claim/claim.json"
  admissionClaim := js ".brain/locks/.admission/claim"
  admissionRecord := js ".brain/locks/.admission/claim/claim.json"

def lockPaths (input : JsString) : Except LeasePolicyError LockPaths :=
  match lockRoot input with
  | none => .error .invalidInput
  | some root => .ok (pathsUnder root)

structure LockOwner where
  host : JsString
  sessionId : JsString
  value : JsString
  deriving DecidableEq, Repr

def parseOwner (value : JsString) : Except LeasePolicyError LockOwner :=
  match value.splitOn (unit ':') with
  | [host, sessionId] =>
      if ownerPart host && ownerPart sessionId then .ok ⟨host, sessionId, value⟩
      else .error .invalidInput
  | _ => .error .invalidInput

def validateTtl (ttlMs : Int) : Except LeasePolicyError Int :=
  if !isSafeNumber ttlMs ∨ ttlMs < minLeaseTtlMs ∨ ttlMs > maxLeaseTtlMs then .error .invalidInput
  else .ok ttlMs

def classifyLeaseTime (now expiresAt : JsDate) : Except LeasePolicyError LeaseTimeState :=
  match now, expiresAt with
  | some current, some expiry =>
      if current < expiry then .ok .writable
      else if current < expiry + leaseSkewMs then .ok .skew
      else .ok .takeoverEligible
  | _, _ => .error .invalidInput

theorem lockPaths_ok_iff {input : JsString} {paths : LockPaths} :
    lockPaths input = .ok paths ↔ ∃ root, lockRoot input = some root ∧ paths = pathsUnder root := by
  unfold lockPaths
  cases lockRoot input with
  | none => simp
  | some root => simp [eq_comm]

theorem classifyLeaseTime_takeover {now expiresAt : JsDate}
    (classified : classifyLeaseTime now expiresAt = .ok .takeoverEligible) :
    ∃ current expiry, now = some current ∧ expiresAt = some expiry ∧
      expiry + leaseSkewMs ≤ current := by
  cases now with
  | none => cases classified
  | some current =>
      cases expiresAt with
      | none => cases classified
      | some expiry =>
          refine ⟨current, expiry, rfl, rfl, ?_⟩
          simp only [classifyLeaseTime] at classified
          split at classified
          · cases classified
          · split at classified
            · cases classified
            · omega

example : lockRoot (js "run:ab-1") = some (js ".brain/locks/runs/YWItMQ") := by decide

end Kratos.Locks
