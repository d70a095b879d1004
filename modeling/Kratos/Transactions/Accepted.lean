/- source: composition/transactions.ts, domain/transactions/surface.ts
   digest: What the executor knows of an accepted plan, and the paths of a transaction's own files. -/

import Kratos.Transactions.Agreement
import Kratos.Transactions.Driver

set_option autoImplicit false

namespace Kratos.Transactions

open Foundation.Text Foundation.JsonText Foundation.Paths Foundation.Runs
open Patterns Durable

section Plans

variable {lower : CaseMapping} {sha256 : JsString → JsString} {plan : List ManagedOperation}

/-- What is known of the operation at an index of an accepted plan. -/
structure Frozen (lower : CaseMapping) (sha256 : JsString → JsString) (index : Nat)
    (operation : ManagedOperation) : Prop where
  named : operation.operationId = operationIdAt index
  destination : isManagedDirectoryDestination lower operation.path = true
  changes : operation.expected ≠ operation.result
  staged : operation.stagedPath = stagedPathAt operation.kind index
  sized : validFingerprint operation.expected = true ∧ validFingerprint operation.result = true
  exact : exactOperation sha256 operation = true

private theorem assertDestination_managed {kind : ManagedKind} {path : JsString}
    (allowed : assertDestination lower kind path = .ok ()) :
    isManagedDirectoryDestination lower path = true := by
  unfold assertDestination assertManagedDirectory assertManagedPath at allowed
  cases kind with
  | createDirectory =>
      dsimp only at allowed
      split at allowed
      · assumption
      · cases allowed
  | writeFile content =>
      dsimp only at allowed
      split at allowed
      · rename_i managed
        rw [isManagedDirectoryDestination, if_pos managed]
      · cases allowed
  | deleteFile =>
      dsimp only at allowed
      split at allowed
      · rename_i managed
        rw [isManagedDirectoryDestination, if_pos managed]
      · cases allowed

theorem freezeManagedOperation_ok {index : Nat} {operation : ManagedOperation}
    (frozen : freezeManagedOperation lower sha256 index operation = .ok ()) :
    Frozen lower sha256 index operation := by
  rw [freezeManagedOperation, guard_ok_iff, not_not, bind_ok_iff] at frozen
  obtain ⟨named, ⟨⟩, allowed, rest⟩ := frozen
  rw [guard_ok_iff, guard_ok_iff, guard_ok_iff] at rest
  obtain ⟨sized, changes, shaped, -⟩ := rest
  rw [not_or, not_not, Bool.not_eq_true', Bool.not_eq_false] at shaped
  simp only [Bool.or_eq_true, Bool.not_eq_true', not_or, Bool.not_eq_false] at sized
  exact ⟨named, assertDestination_managed allowed, changes, shaped.1, sized, shaped.2⟩

private theorem checkOperationPair_apart {left right : ManagedOperation}
    (accepted : checkOperationPair lower left right = .ok ()) : left.path ≠ right.path := by
  intro same
  rw [checkOperationPair, guard_ok_iff, same] at accepted
  exact accepted.1 rfl

/-- An accepted plan is kept as it is, with operations that are known by their index and that have
different paths. -/
theorem freezeManagedPlan_ok {kept : List ManagedOperation}
    (accepted : freezeManagedPlan lower sha256 plan = .ok kept) :
    plan ≠ [] ∧ (∀ index operation, plan[index]? = some operation → Frozen lower sha256 index operation) ∧
      (plan.map fun operation => operation.path).Nodup := by
  rw [freezeManagedPlan, guard_ok_iff, bind_ok_iff] at accepted
  obtain ⟨filled, ⟨⟩, each, related⟩ := accepted
  rw [bind_ok_iff] at related
  obtain ⟨⟨⟩, related, -⟩ := related
  refine ⟨filled, fun index operation held => ?_, ?_⟩
  · obtain ⟨within, rfl⟩ := List.getElem?_eq_some_iff.mp held
    refine freezeManagedOperation_ok (forM_ok_iff.mp each (index, plan[index]) ?_)
    exact List.mem_mapIdx.mpr ⟨index, within, rfl⟩
  · rw [validateManagedRelationships, bind_ok_iff] at related
    obtain ⟨⟨⟩, -, related⟩ := related
    rw [bind_ok_iff] at related
    obtain ⟨⟨⟩, pairs, -⟩ := related
    exact List.pairwise_map.mpr ((checkPairs_ok_iff.mp pairs).imp checkOperationPair_apart)

end Plans

section Indices

private theorem padding_length (n : Nat) (zeros : Nat) :
    (List.replicate zeros (unit '0') ++ decimal n).length = zeros + (decimal n).length := by
  rw [List.length_append, List.length_replicate]

private theorem digitsValue_zeros (zeros : Nat) (digits : JsString) :
    digitsValue (List.replicate zeros (unit '0') ++ digits) = digitsValue digits := by
  induction zeros with
  | zero => rfl
  | succ zeros ih =>
      rw [List.replicate_succ, List.cons_append, ← ih]
      rfl

theorem operationIdAt_injective {left right : Nat} (same : operationIdAt left = operationIdAt right) :
    left = right := by
  rw [operationIdAt, operationIdAt, List.append_assoc, List.append_assoc, List.append_cancel_left_eq]
    at same
  have value := congrArg digitsValue same
  rw [digitsValue_zeros, digitsValue_zeros, digitsValue_decimal, digitsValue_decimal] at value
  omega

private theorem numeral_digits (zeros n : Nat) :
    ∀ u ∈ List.replicate zeros (unit '0') ++ decimal n, isDigit u = true := by
  intro u member
  rcases List.mem_append.mp member with zero | digit
  · rw [List.eq_of_mem_replicate zero]
    decide
  · exact decimal_digits n u digit

theorem numeral_length {index : Nat} (few : index < 9999) :
    (List.replicate (4 - (decimal (index + 1)).length) (unit '0') ++ decimal (index + 1)).length = 4 := by
  have short := decimal_length 3 (n := index + 1) (by omega)
  rw [padding_length]
  omega

theorem idPattern_operationIdAt {index : Nat} (few : index < 9999) :
    idPattern (operationIdAt index) = true := by
  have four := numeral_length few
  have units : ∀ u ∈ js "peration-", isIdUnit u = true := List.all_iff_forall_prop.mp (by decide)
  have first : isAlnum (unit 'o') = true := by decide
  have shape : operationIdAt index = unit 'o' :: (js "peration-" ++
      (List.replicate (4 - (decimal (index + 1)).length) (unit '0') ++ decimal (index + 1))) := by
    rw [operationIdAt, List.append_assoc]
    rfl
  rw [shape, idPattern, first, Bool.true_and, Bool.and_eq_true, decide_eq_true_eq, List.all_eq_true]
  constructor
  · rw [List.length_append, four]
    decide
  · intro u member
    rcases List.mem_append.mp member with letter | digit
    · exact units u letter
    · rw [isIdUnit, isAlnum, numeral_digits _ _ u digit, Bool.or_true]
      rfl

end Indices

section Names

open Transactions.Driver

variable {path name : JsString}

/-- A name a path may be extended by. -/
structure PlainName (name : JsString) : Prop where
  kept : Kept name
  units : ∀ u ∈ name, isIdUnit u = true

private theorem plainUnit {u : CodeUnit} (plain : isIdUnit u = true) :
    u ≠ unit '/' ∧ u ≠ unit '\\' ∧ isControl u = false := by
  have codes : (unit '-').toNat = 45 ∧ (unit '.').toNat = 46 ∧ (unit ':').toNat = 58 ∧
      (unit '_').toNat = 95 ∧ (unit '/').toNat = 47 ∧ (unit '\\').toNat = 92 := by decide
  have bounds : Char.toNat 'A' = 65 ∧ Char.toNat 'Z' = 90 ∧ Char.toNat 'a' = 97 ∧
      Char.toNat 'z' = 122 ∧ Char.toNat '0' = 48 ∧ Char.toNat '9' = 57 := by decide
  have range : 45 ≤ u.toNat ∧ u.toNat ≤ 122 ∧ u.toNat ≠ 47 ∧ u.toNat ≠ 92 := by
    simp only [isIdUnit, isAlnum, isLowerAlpha, isUpperAlpha, isDigit, between, Bool.or_eq_true,
      Bool.and_eq_true, decide_eq_true_eq, beq_iff_eq] at plain
    rcases plain with ((((((lower | upper) | digit)) | rfl) | rfl) | rfl) | rfl
    all_goals omega
  refine ⟨?_, ?_, ?_⟩
  · rintro rfl
    exact range.2.2.1 codes.2.2.2.2.1
  · rintro rfl
    exact range.2.2.2 codes.2.2.2.2.2
  · simp only [isControl, Bool.or_eq_false_iff, decide_eq_false_iff_not, beq_eq_false_iff_ne]
    omega

theorem PlainName.noSlash (plain : PlainName name) : unit '/' ∉ name :=
  fun inside => (plainUnit (plain.units _ inside)).1 rfl

theorem segments_child (single : unit '/' ∉ name) :
    segments (path ++ (js "/" ++ name)) = segments path ++ [name] := by
  rw [← List.append_assoc, segments_append]
  exact congrArg (segments path ++ ·) (List.splitOn_eq_singleton single)

theorem parentOf_child (single : unit '/' ∉ name) : parentOf (path ++ (js "/" ++ name)) = path := by
  obtain ⟨first, rest, parts⟩ := List.exists_cons_of_ne_nil (segments_ne_nil path)
  rw [parentOf, segments_child single, List.dropLast_concat, parts]
  show joinSegments (first :: rest) = path
  rw [← parts, joinSegments_segments]

theorem hasControlCharacters_plain (plain : PlainName name) :
    unit '\\' ∉ name ∧ hasControlCharacters name = false := by
  refine ⟨fun inside => (plainUnit (plain.units _ inside)).2.1 rfl, ?_⟩
  rw [hasControlCharacters, List.any_eq_false]
  intro u member
  rw [(plainUnit (plain.units u member)).2.2]
  exact Bool.false_ne_true

/-- A path of the state directory. -/
structure StatePath (path : JsString) : Prop where
  shape : isManagedPathShape path = true
  within : ∃ rest, segments path = js ".brain" :: rest
  filled : path ≠ []

/-- What extends a path of the state directory by a plain name is again such a path. -/
theorem StatePath.child (state : StatePath path) (plain : PlainName name) :
    StatePath (path ++ (js "/" ++ name)) := by
  obtain ⟨shape, ⟨rest, parts⟩, filled⟩ := state
  have longer : segments (path ++ (js "/" ++ name)) = segments path ++ [name] :=
    segments_child plain.noSlash
  have canonical : canonicalizeProjectPath path = .canonical path := by
    unfold isManagedPathShape at shape
    split at shape
    · cases shape
    · rename_i canonical read
      split at shape
      · cases shape
      · rename_i whole
        rw [not_or, not_not] at whole
        rw [read, whole.1]
  obtain ⟨units, kept⟩ := canonical_segments filled canonical
  obtain ⟨tail, dotted⟩ : ∃ tail, path = unit '.' :: tail := by
    rw [← joinSegments_segments path, parts]
    cases rest with
    | nil => exact ⟨_, rfl⟩
    | cons second others => exact ⟨_, rfl⟩
  have plainUnits := hasControlCharacters_plain plain
  have canonicalChild : canonicalizeProjectPath (path ++ (js "/" ++ name)) =
      .canonical (path ++ (js "/" ++ name)) := by
    have longerDotted : path ++ (js "/" ++ name) = unit '.' :: (tail ++ (js "/" ++ name)) := by
      rw [dotted, List.cons_append]
    refine canonical_of_segments longerDotted ⟨?_, ?_⟩ ?_
    · simp only [List.mem_append, not_or]
      exact ⟨units.1, by decide, plainUnits.1⟩
    · rw [hasControlCharacters, List.any_append, List.any_append, ← hasControlCharacters,
        ← hasControlCharacters, ← hasControlCharacters, units.2, plainUnits.2]
      decide
    · intro part member
      rw [longer] at member
      rcases List.mem_append.mp member with old | new
      · exact kept part old
      · rw [List.mem_singleton.mp new]
        exact plain.kept
  have some : path ++ (js "/" ++ name) ≠ [] := fun empty => filled (List.append_eq_nil_iff.mp empty).1
  refine ⟨?_, ⟨rest ++ [name], by rw [longer, parts, List.cons_append]⟩, some⟩
  rw [isManagedPathShape, canonicalChild]
  have two : ∃ second others, segments (path ++ (js "/" ++ name)) = js ".brain" :: second :: others := by
    rw [longer, parts]
    cases rest with
    | nil => exact ⟨name, [], rfl⟩
    | cons second others => exact ⟨second, others ++ [name], rfl⟩
  obtain ⟨second, others, split⟩ := two
  simp only [ne_eq, not_true_eq_false, some, or_self, if_false, split]
  decide

theorem plainName_id (valid : idPattern name = true) : PlainName name := by
  cases name with
  | nil => cases valid
  | cons first rest =>
      simp only [idPattern, Bool.and_eq_true, List.all_eq_true] at valid
      have dot : first ≠ unit '.' := by
        rintro rfl
        exact absurd valid.1.1 (by decide)
      refine ⟨⟨List.cons_ne_nil _ _, fun same => dot (List.cons.inj same).1,
        fun same => dot (List.cons.inj same).1⟩, ?_⟩
      intro u member
      rcases List.mem_cons.mp member with rfl | inside
      · rw [isIdUnit, valid.1.1]
        rfl
      · exact valid.2 u inside

theorem plainName_layout (member : name ∈ layoutNames) : PlainName name := by
  simp only [layoutNames, List.mem_cons, List.not_mem_nil, or_false] at member
  rcases member with rfl | rfl | rfl | rfl <;>
    exact ⟨⟨by decide, by decide, by decide⟩, List.all_iff_forall_prop.mp (by decide)⟩

def payloadName (index : Nat) : JsString := operationIdAt index ++ js ".payload"

theorem plainName_payload {index : Nat} (few : index < 9999) : PlainName (payloadName index) := by
  have plain := plainName_id (idPattern_operationIdAt few)
  refine ⟨⟨by simp [payloadName, plain.kept.1], ?_, ?_⟩, ?_⟩
  · intro same
    have length := congrArg List.length same
    rw [payloadName, List.length_append] at length
    have tail : (js ".payload").length = 8 := by decide
    have one : (js ".").length = 1 := by decide
    omega
  · intro same
    have length := congrArg List.length same
    rw [payloadName, List.length_append] at length
    have tail : (js ".payload").length = 8 := by decide
    have two : (js "..").length = 2 := by decide
    omega
  · intro u member
    rcases List.mem_append.mp member with own | tail
    · exact plain.units u own
    · exact List.all_eq_true.mp (by decide : (js ".payload").all isIdUnit = true) u tail

theorem noSlash_payload (index : Nat) : unit '/' ∉ payloadName index := by
  have slash : isDigit (unit '/') = false := by decide
  intro inside
  rw [payloadName, operationIdAt, List.append_assoc (js "operation-")] at inside
  rcases List.mem_append.mp inside with named | tail
  · rcases List.mem_append.mp named with letter | digit
    · exact absurd letter (by decide)
    · have digits := numeral_digits _ _ _ digit
      rw [slash] at digits
      cases digits
  · exact absurd tail (by decide)

theorem payloadNamePattern_payload {index : Nat} (few : index < 9999) :
    payloadNamePattern (payloadName index) = true := by
  have four := numeral_length few
  have digits := numeral_digits (4 - (decimal (index + 1)).length) (index + 1)
  have shape : payloadName index = js "operation-" ++
      ((List.replicate (4 - (decimal (index + 1)).length) (unit '0') ++ decimal (index + 1)) ++
        js ".payload") := by
    simp only [payloadName, operationIdAt, List.append_assoc]
  rw [shape]
  generalize List.replicate (4 - (decimal (index + 1)).length) (unit '0') ++ decimal (index + 1) =
    numeral at four digits
  have ending : literal (js ".payload") (js ".payload") = some [] := by decide
  rw [payloadNamePattern, literal, startsWith_append, if_pos rfl, List.drop_left, Option.bind_eq_bind,
    Option.bind_some, List.drop_left' four, List.take_left' four, ending, Option.bind_some,
    if_pos ⟨four, List.all_eq_true.mpr digits, rfl⟩]
  rfl

end Names

section Destinations

open Transactions.Driver

variable {lower : CaseMapping} {path : JsString}

theorem shape_destination (allowed : isManagedDirectoryDestination lower path = true) :
    isManagedPathShape path = true := by
  rw [isManagedDirectoryDestination] at allowed
  split at allowed
  · rename_i destination
    rw [isManagedDestination] at destination
    split at destination
    · cases destination
    · rename_i shape
      simpa using shape
  · rw [Bool.and_eq_true] at allowed
    have single : path ∈ managedDirectoryRoots := by simpa [isManagedRoot] using allowed.1
    simp only [managedDirectoryRoots, List.mem_cons, List.not_mem_nil, or_false] at single
    rcases single with rfl | rfl | rfl | rfl <;> decide

theorem destination_outside (reserved : lower.toLowerCase reservedStateNamespace = reservedStateNamespace)
    (allowed : isManagedDirectoryDestination lower path = true) :
    Storage.within transactionsRoot path = false := by
  rw [Bool.eq_false_iff]
  intro inside
  have parts : ∃ rest, segments path = js ".brain" :: js "transactions" :: rest := by
    have root : segments transactionsRoot = [js ".brain", js "transactions"] := by decide
    rw [Storage.within, Bool.or_eq_true, beq_iff_eq] at inside
    rcases inside with rfl | below
    · exact ⟨[], root⟩
    · obtain ⟨rest, -, split⟩ := isParent_iff.mp (show isParent transactionsRoot path = true from below)
      exact ⟨rest, by rw [split, root]; rfl⟩
  obtain ⟨rest, parts⟩ := parts
  obtain ⟨-, unreserved, -⟩ := managed_shape parts allowed
  exact unreserved ⟨rfl, reserved⟩

theorem shape_parent (allowed : isManagedDirectoryDestination lower path = true) :
    parentOf path = js "." ∨ isManagedPathShape (parentOf path) = true := by
  rcases parentOf_cases path with root | above
  · exact .inl root
  · right
    by_cases brain : parentOf path = js ".brain"
    · rw [brain]
      decide
    · exact shape_destination (isManagedDirectoryDestination_parent allowed above brain)

theorem within_parent {root : JsString} (outside : Storage.within root path = false)
    (named : parentOf path ≠ js ".") : Storage.within root (parentOf path) = false := by
  rw [Bool.eq_false_iff]
  intro inside
  have above := (parentOf_cases path).resolve_left named
  obtain ⟨rest, -, split⟩ := isParent_iff.mp above
  obtain ⟨tail, extension, shape⟩ := Storage.within_iff.mp inside
  obtain ⟨name, below⟩ := (startsWith_iff _ _).mp above
  have whole : path = root ++ (tail ++ (js "/" ++ name)) := by
    rw [below, shape]
    simp only [List.append_assoc]
  have longer : Storage.Extension (tail ++ (js "/" ++ name)) := by
    rcases extension with rfl | ⟨first, rfl⟩
    · exact .inr ⟨name, rfl⟩
    · exact .inr ⟨first ++ (js "/" ++ name), by rw [List.append_assoc]⟩
  rw [whole, Storage.within_append longer] at outside
  cases outside

end Destinations

end Kratos.Transactions
