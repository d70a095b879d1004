/- source: domain/locks/scope.ts, composition/locks.ts
   digest: Directory names of run scopes, read back to their runs and compared without case. -/

import Kratos.Foundation.Utf8Decoding
import Kratos.Locks.GuardScope

set_option autoImplicit false

namespace Kratos.Locks

open Foundation Foundation.Text Foundation.Paths Foundation.Runs Patterns
open Locks.Guard (encodeRunId_spec idPattern_units isIdUnit_small)

section Reading

def sextet (u : CodeUnit) : Nat := base64url.idxOf u

/-- `Buffer.from(name, "base64url")` of characters of the alphabet. -/
def decodeBase64url : JsString → List Nat
  | first :: second :: third :: fourth :: rest =>
      (sextet first <<< 2 ||| sextet second >>> 4) ::
        ((sextet second &&& 15) <<< 4 ||| sextet third >>> 2) ::
        ((sextet third &&& 3) <<< 6 ||| sextet fourth) :: decodeBase64url rest
  | [first, second, third] =>
      [sextet first <<< 2 ||| sextet second >>> 4, (sextet second &&& 15) <<< 4 ||| sextet third >>> 2]
  | [first, second] => [sextet first <<< 2 ||| sextet second >>> 4]
  | [_] | [] => []

/-- `^[A-Za-z0-9_-]{2,171}$`. -/
def runNamePattern (name : JsString) : Bool :=
  decide (2 ≤ name.length) && decide (name.length ≤ 171) &&
    name.all fun u => isAlnum u || u == unit '_' || u == unit '-'

structure RunResource where
  name : JsString
  resource : JsString
  deriving DecidableEq, Repr

def runsRoot : JsString := js ".brain/locks/runs"

def canonicalRunResource (name : JsString) : Except LockFailure RunResource :=
  if !runNamePattern name then .error (.stateCorrupt runsRoot)
  else
    let resource := js "run:" ++ Utf8.toString (decodeBase64url name)
    match lockPaths resource with
    | .error _ => .error (.stateCorrupt (runsRoot ++ js "/" ++ name))
    | .ok paths =>
        if paths.root ≠ runsRoot ++ js "/" ++ name then
          .error (.stateCorrupt (runsRoot ++ js "/" ++ name))
        else .ok ⟨name, resource⟩

/-- By their resources, in the order of a locale. -/
def sortResources (localeCompare : JsString → JsString → Int) (resources : List RunResource) :
    List RunResource :=
  resources.mergeSort fun left right => decide (localeCompare left.resource right.resource ≤ 0)

/-- `listed` is none where the listing throws. -/
def canonicalRunResources (localeCompare : JsString → JsString → Int) (listed : Option (List JsString)) :
    Except LockFailure (List RunResource) :=
  match listed with
  | none => .error .internalFailure
  | some names => do
      let resources ← names.mapM canonicalRunResource
      pure (sortResources localeCompare resources)

end Reading

section Sextets

private theorem mask_two (n : Nat) : n &&& 3 = n % 4 := Nat.and_two_pow_sub_one_eq_mod n 2
private theorem mask_four (n : Nat) : n &&& 15 = n % 16 := Nat.and_two_pow_sub_one_eq_mod n 4
private theorem mask_six (n : Nat) : n &&& 63 = n % 64 := Nat.and_two_pow_sub_one_eq_mod n 6

private theorem joined {n m k : Nat} (small : m < 2 ^ k) : n <<< k ||| m = n * 2 ^ k + m := by
  rw [← Nat.shiftLeft_add_eq_or_of_lt small, Nat.shiftLeft_eq]

variable {first second third : CodeUnit} {rest : JsString}

private theorem encodeRunId_one : encodeRunId [first] =
    base64Char (first.toNat / 4) ++ base64Char (first.toNat % 4 * 16) := by
  rw [encodeRunId, mask_two, Nat.shiftRight_eq_div_pow, Nat.shiftLeft_eq]

private theorem encodeRunId_two (small : second.toNat < 128) : encodeRunId [first, second] =
    base64Char (first.toNat / 4) ++ base64Char (first.toNat % 4 * 16 + second.toNat / 16) ++
      base64Char (second.toNat % 16 * 4) := by
  rw [encodeRunId, mask_two, mask_four, Nat.shiftRight_eq_div_pow, Nat.shiftRight_eq_div_pow, joined,
    Nat.shiftLeft_eq]
  · rfl
  · omega

private theorem encodeRunId_three (smaller : second.toNat < 128) (small : third.toNat < 128) :
    encodeRunId (first :: second :: third :: rest) =
      base64Char (first.toNat / 4) ++ base64Char (first.toNat % 4 * 16 + second.toNat / 16) ++
        base64Char (second.toNat % 16 * 4 + third.toNat / 64) ++ base64Char (third.toNat % 64) ++
          encodeRunId rest := by
  rw [encodeRunId, mask_two, mask_four, mask_six, Nat.shiftRight_eq_div_pow, Nat.shiftRight_eq_div_pow,
    Nat.shiftRight_eq_div_pow, joined, joined]
  · rfl
  · omega
  · omega

end Sextets

section Decoding

private theorem base64Char_read {index : Nat} (small : index < 64) :
    ∃ u, base64Char index = [u] ∧ sextet u = index := by
  have all : ∀ index < 64, ((base64Char index).length = 1 ∧
      ∀ u ∈ base64Char index, sextet u = index) := by decide +kernel
  obtain ⟨single, each⟩ := all index small
  obtain ⟨u, shape⟩ := List.length_eq_one_iff.mp single
  exact ⟨u, shape, each u (by rw [shape]; exact List.mem_singleton_self u)⟩

theorem decodeBase64url_encodeRunId : ∀ id : JsString, (∀ u ∈ id, u.toNat < 128) →
    decodeBase64url (encodeRunId id) = id.map UInt16.toNat := by
  have first : ∀ x y, x < 64 → y < 64 → x <<< 2 ||| y >>> 4 = x * 4 + y / 16 := by
    intro x y _ small
    rw [Nat.shiftRight_eq_div_pow, joined (by omega)]
    rfl
  have middle : ∀ y z, z < 64 → (y &&& 15) <<< 4 ||| z >>> 2 = y % 16 * 16 + z / 4 := by
    intro y z small
    rw [mask_four, Nat.shiftRight_eq_div_pow, joined (by omega)]
    rfl
  have last : ∀ z w, w < 64 → (z &&& 3) <<< 6 ||| w = z % 4 * 64 + w := by
    intro z w small
    rw [mask_two, joined (by omega)]
    rfl
  intro id
  induction id using encodeRunId.induct with
  | case1 => exact fun _ => rfl
  | case2 a =>
      intro small
      have aSmall := small a List.mem_cons_self
      obtain ⟨one, oneShape, oneRead⟩ := @base64Char_read (a.toNat / 4) (by omega)
      obtain ⟨two, twoShape, twoRead⟩ := @base64Char_read (a.toNat % 4 * 16) (by omega)
      rw [encodeRunId_one, oneShape, twoShape]
      show [sextet one <<< 2 ||| sextet two >>> 4] = [a.toNat]
      rw [oneRead, twoRead, first _ _ (by omega) (by omega)]
      congr 1
      omega
  | case3 a b =>
      intro small
      have aSmall := small a List.mem_cons_self
      have bSmall := small b (by simp)
      obtain ⟨one, oneShape, oneRead⟩ := @base64Char_read (a.toNat / 4) (by omega)
      obtain ⟨two, twoShape, twoRead⟩ := @base64Char_read (a.toNat % 4 * 16 + b.toNat / 16) (by omega)
      obtain ⟨three, threeShape, threeRead⟩ := @base64Char_read (b.toNat % 16 * 4) (by omega)
      rw [encodeRunId_two bSmall, oneShape, twoShape, threeShape]
      show [sextet one <<< 2 ||| sextet two >>> 4, (sextet two &&& 15) <<< 4 ||| sextet three >>> 2] =
        [a.toNat, b.toNat]
      rw [oneRead, twoRead, threeRead, first _ _ (by omega) (by omega), middle _ _ (by omega)]
      congr 1
      · omega
      · congr 1
        omega
  | case4 a b c rest ih =>
      intro small
      have aSmall := small a List.mem_cons_self
      have bSmall := small b (by simp)
      have cSmall := small c (by simp)
      obtain ⟨one, oneShape, oneRead⟩ := @base64Char_read (a.toNat / 4) (by omega)
      obtain ⟨two, twoShape, twoRead⟩ := @base64Char_read (a.toNat % 4 * 16 + b.toNat / 16) (by omega)
      obtain ⟨three, threeShape, threeRead⟩ :=
        @base64Char_read (b.toNat % 16 * 4 + c.toNat / 64) (by omega)
      obtain ⟨four, fourShape, fourRead⟩ := @base64Char_read (c.toNat % 64) (by omega)
      rw [encodeRunId_three bSmall cSmall, oneShape, twoShape, threeShape, fourShape]
      show (sextet one <<< 2 ||| sextet two >>> 4) :: ((sextet two &&& 15) <<< 4 ||| sextet three >>> 2) ::
        ((sextet three &&& 3) <<< 6 ||| sextet four) :: decodeBase64url (encodeRunId rest) =
          a.toNat :: b.toNat :: c.toNat :: rest.map UInt16.toNat
      rw [oneRead, twoRead, threeRead, fourRead, first _ _ (by omega) (by omega), middle _ _ (by omega),
        last _ _ (by omega), ih fun u member => small u (by simp [member])]
      congr 1
      · omega
      · congr 1
        · omega
        · congr 1
          omega

private theorem encodeRunId_alphabet : ∀ id : JsString, ∀ u ∈ encodeRunId id, u ∈ base64url := by
  have char : ∀ index, ∀ u ∈ base64Char index, u ∈ base64url := fun index u member =>
    List.mem_of_mem_drop (List.mem_of_mem_take member)
  intro id
  induction id using encodeRunId.induct with
  | case1 => exact fun u member => absurd member List.not_mem_nil
  | case2 first =>
      intro u member
      rw [encodeRunId] at member
      rcases List.mem_append.mp member with inside | inside <;> exact char _ u inside
  | case3 first second =>
      intro u member
      rw [encodeRunId] at member
      simp only [List.mem_append] at member
      rcases member with (inside | inside) | inside <;> exact char _ u inside
  | case4 first second third rest ih =>
      intro u member
      rw [encodeRunId] at member
      simp only [List.mem_append] at member
      rcases member with (((inside | inside) | inside) | inside) | inside
      all_goals first | exact ih u inside | exact char _ u inside

private theorem runNamePattern_encodeRunId {id : JsString} (valid : idPattern id = true) :
    runNamePattern (encodeRunId id) = true := by
  have alphabet : ∀ u ∈ base64url, (isAlnum u || u == unit '_' || u == unit '-') = true := by decide
  have length := (encodeRunId_spec id (idPattern_units valid)).1
  have most := idPattern_length valid
  have least := List.length_pos_of_ne_nil (idPattern_ne_nil valid)
  rw [runNamePattern, Bool.and_eq_true, Bool.and_eq_true, decide_eq_true_eq, decide_eq_true_eq,
    List.all_eq_true, length]
  exact ⟨⟨by omega, by omega⟩, fun u member => alphabet u (encodeRunId_alphabet id u member)⟩

/-- The run of an id and its directory name. -/
def runResource (id : JsString) : RunResource := ⟨encodeRunId id, js "run:" ++ id⟩

theorem lockRoot_run (id : JsString) : lockRoot (js "run:" ++ id) =
    if idPattern id = true then some (runsRoot ++ js "/" ++ encodeRunId id) else none := by
  have other : js "run:" ++ id ≠ js "project" := fun same => by cases same
  have rest : (js "run:" ++ id).drop 4 = id := rfl
  rw [lockRoot, if_neg other, rest]
  simp only [startsWith_append, true_and]
  rfl

/-- A directory name is accepted exactly when a run id is encoded as it, and stands for that run. -/
theorem canonicalRunResource_ok_iff {name : JsString} {resource : RunResource} :
    canonicalRunResource name = .ok resource ↔
      ∃ id, idPattern id = true ∧ name = encodeRunId id ∧ resource = runResource id := by
  unfold canonicalRunResource
  constructor
  · intro accepted
    split at accepted
    · cases accepted
    · simp only at accepted
      split at accepted
      · cases accepted
      · rename_i paths located
        obtain ⟨root, held, rfl⟩ := lockPaths_ok_iff.mp located
        rw [guard_ok_iff, Except.ok.injEq, ne_eq, not_not] at accepted
        obtain ⟨same, rfl⟩ := accepted
        rw [lockRoot_run] at held
        split at held
        · rename_i valid
          obtain rfl := Option.some.inj held
          have name := List.append_cancel_left same
          exact ⟨_, valid, name.symm, by rw [runResource, name]⟩
        · cases held
  · rintro ⟨id, valid, rfl, rfl⟩
    have units := idPattern_units valid
    have text : Utf8.toString (decodeBase64url (encodeRunId id)) = id := by
      rw [decodeBase64url_encodeRunId id units, Utf8.toString_ascii, List.map_map]
      · exact (List.map_congr_left fun u _ => UInt16.ofNat_toNat).trans (List.map_id id)
      · intro byte member
        obtain ⟨u, inside, rfl⟩ := List.mem_map.mp member
        exact units u inside
    have located : lockPaths (js "run:" ++ id) =
        .ok (pathsUnder (runsRoot ++ js "/" ++ encodeRunId id)) :=
      lockPaths_ok_iff.mpr ⟨_, by rw [lockRoot_run, if_pos valid], rfl⟩
    simp only [runNamePattern_encodeRunId valid, text, located, Bool.not_true, Bool.false_eq_true, if_false]
    exact guard_ok_iff.mpr ⟨fun other => other rfl, rfl⟩

/-- The listing is read back to exactly the runs that are encoded in it. -/
def DecodesNames (localeCompare : JsString → JsString → Int) : Prop :=
  ∀ names resources, canonicalRunResources localeCompare (some names) = .ok resources ↔
    ∃ ids : List JsString, (∀ id ∈ ids, idPattern id = true) ∧ names = ids.map encodeRunId ∧
      resources = sortResources localeCompare (ids.map runResource)

theorem canonicalRunResources_decodes (localeCompare : JsString → JsString → Int) :
    DecodesNames localeCompare := by
  intro names resources
  have each : ∀ found, names.mapM canonicalRunResource = .ok found ↔
      ∃ ids : List JsString, (∀ id ∈ ids, idPattern id = true) ∧ names = ids.map encodeRunId ∧
        found = ids.map runResource := by
    intro found
    rw [mapM_ok_iff]
    constructor
    · intro all
      induction all with
      | nil => exact ⟨[], fun id member => absurd member List.not_mem_nil, rfl, rfl⟩
      | cons first later ih =>
          obtain ⟨id, valid, rfl, rfl⟩ := canonicalRunResource_ok_iff.mp first
          obtain ⟨ids, others, rfl, rfl⟩ := ih
          exact ⟨id :: ids, List.forall_mem_cons.mpr ⟨valid, others⟩, rfl, rfl⟩
    · rintro ⟨ids, valid, rfl, rfl⟩
      rw [List.forall₂_map_left_iff, List.forall₂_map_right_iff, List.forall₂_same]
      exact fun id member => canonicalRunResource_ok_iff.mpr ⟨id, valid id member, rfl, rfl⟩
  unfold canonicalRunResources
  rw [bind_ok_iff]
  constructor
  · rintro ⟨found, all, same⟩
    obtain ⟨ids, valid, named, rfl⟩ := (each found).mp all
    exact ⟨ids, valid, named, (Except.ok.inj same).symm⟩
  · rintro ⟨ids, valid, named, rfl⟩
    exact ⟨_, (each _).mpr ⟨ids, valid, named, rfl⟩, rfl⟩

end Decoding

section Folding

/-- Two units of an id whose last six bits are characters that differ in case. -/
def twinUnits (left right : CodeUnit) : Bool :=
  (between 'E' 'Y' left && right.toNat == left.toNat + 26) ||
    (between 'E' 'Y' right && left.toNat == right.toNat + 26)

/-- Ids that are equal but for twins at the third units of their triples. -/
def Twins : JsString → JsString → Prop
  | first :: second :: third :: rest, first' :: second' :: third' :: rest' =>
      first = first' ∧ second = second' ∧ (third = third' ∨ twinUnits third third' = true) ∧
        Twins rest rest'
  | left, right => left = right

/-- A name as a file system without case has it. -/
def folded (name : JsString) : JsString := asciiLowerCase.toLowerCase name

theorem folded_append (left right : JsString) : folded (left ++ right) = folded left ++ folded right :=
  List.map_append

/-- The character code of a sextet without case. -/
def foldedCode (index : Nat) : Nat :=
  if index < 26 then 97 + index
  else if index < 52 then 71 + index
  else if index < 62 then index - 4
  else if index = 62 then 45
  else 95

private theorem folded_base64Char {index : Nat} (small : index < 64) :
    folded (base64Char index) = [UInt16.ofNat (foldedCode index)] := by
  have all : ∀ index < 64, folded (base64Char index) = [UInt16.ofNat (foldedCode index)] := by
    decide +kernel
  exact all index small

private theorem foldedCode_eq {left right : Nat} (small : left < 64) (bound : right < 64)
    (same : UInt16.ofNat (foldedCode left) = UInt16.ofNat (foldedCode right)) :
    left = right ∨ (left < 26 ∧ right = left + 26) ∨ (right < 26 ∧ left = right + 26) := by
  have codes : ∀ index < 64, foldedCode index < 2 ^ 16 := by decide
  have equal := congrArg UInt16.toNat same
  rw [UInt16.toNat_ofNat_of_lt' (codes left small), UInt16.toNat_ofNat_of_lt' (codes right bound)] at equal
  unfold foldedCode at equal
  split_ifs at equal <;> omega

private theorem isIdUnit_codes {u : CodeUnit} (valid : isIdUnit u = true) :
    45 ≤ u.toNat ∧ u.toNat ≤ 122 ∧ u.toNat ≠ 64 ∧ ¬(91 ≤ u.toNat ∧ u.toNat ≤ 94) := by
  have codes : (unit '-').toNat = 45 ∧ (unit '.').toNat = 46 ∧ (unit ':').toNat = 58 ∧
      (unit '_').toNat = 95 := by decide
  have bounds : Char.toNat 'A' = 65 ∧ Char.toNat 'Z' = 90 ∧ Char.toNat 'a' = 97 ∧
      Char.toNat 'z' = 122 ∧ Char.toNat '0' = 48 ∧ Char.toNat '9' = 57 := by decide
  simp only [isIdUnit, isAlnum, isLowerAlpha, isUpperAlpha, isDigit, between, Bool.or_eq_true,
    Bool.and_eq_true, decide_eq_true_eq, beq_iff_eq] at valid
  rcases valid with ((((((lower | upper) | digit)) | rfl) | rfl) | rfl) | rfl
  all_goals omega

section Positions

variable {a b c a' b' c' : Nat}

private theorem first_eq (low : 45 ≤ a ∧ a ≤ 122) (other : 45 ≤ a' ∧ a' ≤ 122)
    (same : UInt16.ofNat (foldedCode (a / 4)) = UInt16.ofNat (foldedCode (a' / 4))) : a / 4 = a' / 4 := by
  rcases foldedCode_eq (by omega) (by omega) same with equal | ⟨small, shape⟩ | ⟨small, shape⟩ <;> omega

private theorem second_eq (low : 45 ≤ b ∧ b ≤ 122) (other : 45 ≤ b' ∧ b' ≤ 122)
    (same : UInt16.ofNat (foldedCode (a % 4 * 16 + b / 16)) =
      UInt16.ofNat (foldedCode (a' % 4 * 16 + b' / 16))) : a % 4 = a' % 4 ∧ b / 16 = b' / 16 := by
  rcases foldedCode_eq (by omega) (by omega) same with equal | ⟨small, shape⟩ | ⟨small, shape⟩ <;> omega

private theorem second_eq_zero
    (same : UInt16.ofNat (foldedCode (a % 4 * 16)) = UInt16.ofNat (foldedCode (a' % 4 * 16))) :
    a % 4 = a' % 4 := by
  rcases foldedCode_eq (by omega) (by omega) same with equal | ⟨small, shape⟩ | ⟨small, shape⟩ <;> omega

private theorem third_eq (low : c ≤ 1) (other : c' ≤ 1)
    (same : UInt16.ofNat (foldedCode (b % 16 * 4 + c)) = UInt16.ofNat (foldedCode (b' % 16 * 4 + c'))) :
    b % 16 = b' % 16 ∧ c = c' := by
  rcases foldedCode_eq (by omega) (by omega) same with equal | ⟨small, shape⟩ | ⟨small, shape⟩ <;> omega

end Positions

private theorem twinUnits_iff {left right : CodeUnit} : twinUnits left right = true ↔
    (69 ≤ left.toNat ∧ left.toNat ≤ 89 ∧ right.toNat = left.toNat + 26) ∨
      (69 ≤ right.toNat ∧ right.toNat ≤ 89 ∧ left.toNat = right.toNat + 26) := by
  have bounds : Char.toNat 'E' = 69 ∧ Char.toNat 'Y' = 89 := by decide
  simp only [twinUnits, between, Bool.or_eq_true, Bool.and_eq_true, decide_eq_true_eq, beq_iff_eq, bounds]
  tauto

private theorem toNat_injective {left right : CodeUnit} (same : left.toNat = right.toNat) :
    left = right := UInt16.toNat_inj.mp same

private theorem fourth_iff {c c' : CodeUnit} (valid : isIdUnit c = true) (other : isIdUnit c' = true) :
    (c.toNat / 64 = c'.toNat / 64 ∧
        UInt16.ofNat (foldedCode (c.toNat % 64)) = UInt16.ofNat (foldedCode (c'.toNat % 64))) ↔
      c = c' ∨ twinUnits c c' = true := by
  have codes := isIdUnit_codes valid
  have otherCodes := isIdUnit_codes other
  rw [twinUnits_iff]
  constructor
  · rintro ⟨high, low⟩
    rcases foldedCode_eq (Nat.mod_lt _ (by decide)) (Nat.mod_lt _ (by decide)) low with
      equal | ⟨small, shape⟩ | ⟨small, shape⟩
    · exact .inl (toNat_injective (by omega))
    · exact .inr (.inl (by omega))
    · exact .inr (.inr (by omega))
  · rintro (rfl | twins)
    · exact ⟨rfl, rfl⟩
    · refine ⟨by omega, congrArg UInt16.ofNat ?_⟩
      unfold foldedCode
      rcases twins with ⟨least, most, shape⟩ | ⟨least, most, shape⟩
      · rw [if_pos (by omega), if_neg (by omega), if_pos (by omega)]
        omega
      · rw [if_neg (by omega), if_pos (by omega), if_pos (by omega)]
        omega

private theorem folded_length {left right : JsString} (units : ∀ u ∈ left, isIdUnit u = true)
    (others : ∀ u ∈ right, isIdUnit u = true)
    (same : folded (encodeRunId left) = folded (encodeRunId right)) : left.length = right.length := by
  have length := congrArg List.length same
  rw [folded, folded, asciiLowerCase] at length
  simp only [List.length_map, (encodeRunId_spec left fun u member => isIdUnit_small (units u member)).1,
    (encodeRunId_spec right fun u member => isIdUnit_small (others u member)).1] at length
  omega

private theorem triple_eq_iff {a b c a' b' c' : CodeUnit} (left : ∀ u ∈ [a, b, c], isIdUnit u = true)
    (right : ∀ u ∈ [a', b', c'], isIdUnit u = true) {rest rest' : JsString} :
    folded (encodeRunId (a :: b :: c :: rest)) = folded (encodeRunId (a' :: b' :: c' :: rest')) ↔
      a = a' ∧ b = b' ∧ (c = c' ∨ twinUnits c c' = true) ∧
        folded (encodeRunId rest) = folded (encodeRunId rest') := by
  obtain ⟨low, high, -⟩ := isIdUnit_codes (left a (by simp))
  obtain ⟨secondLow, secondHigh, -⟩ := isIdUnit_codes (left b (by simp))
  obtain ⟨thirdLow, thirdHigh, -⟩ := isIdUnit_codes (left c (by simp))
  obtain ⟨low', high', -⟩ := isIdUnit_codes (right a' (by simp))
  obtain ⟨secondLow', secondHigh', -⟩ := isIdUnit_codes (right b' (by simp))
  obtain ⟨thirdLow', thirdHigh', -⟩ := isIdUnit_codes (right c' (by simp))
  rw [← fourth_iff (left c (by simp)) (right c' (by simp)), encodeRunId_three (by omega) (by omega),
    encodeRunId_three (by omega) (by omega)]
  simp only [folded_append]
  rw [folded_base64Char (by omega), folded_base64Char (by omega), folded_base64Char (by omega),
    folded_base64Char (by omega), folded_base64Char (by omega), folded_base64Char (by omega),
    folded_base64Char (by omega), folded_base64Char (by omega)]
  simp only [List.cons_append, List.nil_append, List.cons.injEq]
  constructor
  · rintro ⟨one, two, three, four, later⟩
    have firsts := first_eq ⟨low, high⟩ ⟨low', high'⟩ one
    have seconds := second_eq ⟨secondLow, secondHigh⟩ ⟨secondLow', secondHigh'⟩ two
    have thirds := third_eq (by omega) (by omega) three
    exact ⟨toNat_injective (by omega), toNat_injective (by omega), ⟨thirds.2, four⟩, later⟩
  · rintro ⟨rfl, rfl, ⟨high, low⟩, later⟩
    rw [high, low]
    exact ⟨rfl, rfl, rfl, rfl, later⟩

/-- Names of ids are equal without case exactly when the ids are equal but for twins. -/
theorem folded_encodeRunId_iff : ∀ left right : JsString, (∀ u ∈ left, isIdUnit u = true) →
    (∀ u ∈ right, isIdUnit u = true) →
      (folded (encodeRunId left) = folded (encodeRunId right) ↔ Twins left right) := by
  intro left
  induction left using encodeRunId.induct with
  | case1 =>
      intro right units others
      refine ⟨fun same => ?_, fun twins => ?_⟩
      · have length := folded_length units others same
        exact (List.eq_nil_of_length_eq_zero length.symm).symm
      · obtain rfl : [] = right := twins
        rfl
  | case2 a =>
      intro right units others
      refine ⟨fun same => ?_, fun twins => ?_⟩
      · obtain ⟨a', rfl⟩ := List.length_eq_one_iff.mp (folded_length units others same).symm
        obtain ⟨low, high, -⟩ := isIdUnit_codes (units a (by simp))
        obtain ⟨low', high', -⟩ := isIdUnit_codes (others a' (by simp))
        rw [encodeRunId_one, encodeRunId_one, folded_append, folded_append,
          folded_base64Char (by omega), folded_base64Char (by omega), folded_base64Char (by omega),
          folded_base64Char (by omega)] at same
        simp only [List.cons_append, List.nil_append, List.cons.injEq, and_true] at same
        have ones := first_eq ⟨low, high⟩ ⟨low', high'⟩ same.1
        have twos := second_eq_zero same.2
        have equal : a = a' := toNat_injective (by omega)
        rw [equal]
        rfl
      · obtain rfl : [a] = right := twins
        rfl
  | case3 a b =>
      intro right units others
      refine ⟨fun same => ?_, fun twins => ?_⟩
      · obtain ⟨a', b', rfl⟩ := List.length_eq_two.mp (folded_length units others same).symm
        obtain ⟨low, high, -⟩ := isIdUnit_codes (units a (by simp))
        obtain ⟨secondLow, secondHigh, -⟩ := isIdUnit_codes (units b (by simp))
        obtain ⟨low', high', -⟩ := isIdUnit_codes (others a' (by simp))
        obtain ⟨secondLow', secondHigh', -⟩ := isIdUnit_codes (others b' (by simp))
        rw [encodeRunId_two (by omega), encodeRunId_two (by omega)] at same
        simp only [folded_append] at same
        rw [folded_base64Char (by omega), folded_base64Char (by omega), folded_base64Char (by omega),
          folded_base64Char (by omega), folded_base64Char (by omega), folded_base64Char (by omega)] at same
        simp only [List.cons_append, List.nil_append, List.cons.injEq, and_true] at same
        have ones := first_eq ⟨low, high⟩ ⟨low', high'⟩ same.1
        have twos := second_eq ⟨secondLow, secondHigh⟩ ⟨secondLow', secondHigh'⟩ same.2.1
        have threes := third_eq (Nat.zero_le 1) (Nat.zero_le 1) same.2.2
        have firsts : a = a' := toNat_injective (by omega)
        have seconds : b = b' := toNat_injective (by omega)
        rw [firsts, seconds]
        rfl
      · obtain rfl : [a, b] = right := twins
        rfl
  | case4 a b c rest ih =>
      intro right units others
      rcases right with _ | ⟨a', _ | ⟨b', _ | ⟨c', rest'⟩⟩⟩
      · exact ⟨fun same => absurd (folded_length units others same) (by simp),
          fun twins => absurd (congrArg List.length twins) (by simp)⟩
      · exact ⟨fun same => absurd (folded_length units others same) (by simp),
          fun twins => absurd (congrArg List.length twins) (by simp)⟩
      · exact ⟨fun same => absurd (folded_length units others same) (by simp),
          fun twins => absurd (congrArg List.length twins) (by simp)⟩
      · have front : ∀ {x y z : CodeUnit} {tail : JsString}, (∀ u ∈ x :: y :: z :: tail, isIdUnit u = true) →
            ∀ u ∈ [x, y, z], isIdUnit u = true := fun all u member =>
          all u (List.mem_append_left _ member)
        rw [triple_eq_iff (front units) (front others), ih rest' (fun u member => units u (by simp [member]))
          (fun u member => others u (by simp [member]))]
        rfl

end Folding

section Scopes

variable {left right : JsString}

private theorem idPattern_isIdUnit {id : JsString} (valid : idPattern id = true) :
    ∀ u ∈ id, isIdUnit u = true := by
  cases id with
  | nil => cases valid
  | cons first rest =>
      simp only [idPattern, Bool.and_eq_true, List.all_eq_true] at valid
      exact List.forall_mem_cons.mpr ⟨by simp [isIdUnit, valid.1.1], valid.2⟩

/-- The scope directories of two runs stay apart without case. -/
def ApartFolded (left right : JsString) : Prop :=
  ∃ paths otherPaths, lockPaths (js "run:" ++ left) = .ok paths ∧
    lockPaths (js "run:" ++ right) = .ok otherPaths ∧ folded paths.root ≠ folded otherPaths.root

/-- The scopes of two runs stay apart without case, and names are read back, unless the runs are twins. -/
theorem run_scopes_apart_iff (localeCompare : JsString → JsString → Int)
    (valid : idPattern left = true) (otherValid : idPattern right = true) :
    (ApartFolded left right ∧ DecodesNames localeCompare) ↔ ¬Twins left right := by
  have located : ∀ {id : JsString}, idPattern id = true → lockPaths (js "run:" ++ id) =
      .ok (pathsUnder (runsRoot ++ js "/" ++ encodeRunId id)) := fun valid =>
    lockPaths_ok_iff.mpr ⟨_, by rw [lockRoot_run, if_pos valid], rfl⟩
  have apart : ApartFolded left right ↔ folded (encodeRunId left) ≠ folded (encodeRunId right) := by
    unfold ApartFolded
    simp only [located valid, located otherValid, Except.ok.injEq]
    constructor
    · rintro ⟨paths, otherPaths, rfl, rfl, different⟩ same
      refine different ?_
      show folded (runsRoot ++ js "/" ++ encodeRunId left) = folded (runsRoot ++ js "/" ++ encodeRunId right)
      rw [folded_append _ (encodeRunId left), folded_append _ (encodeRunId right), same]
    · intro different
      refine ⟨_, _, rfl, rfl, fun same => different ?_⟩
      have equal : folded (runsRoot ++ js "/" ++ encodeRunId left) =
          folded (runsRoot ++ js "/" ++ encodeRunId right) := same
      rw [folded_append _ (encodeRunId left), folded_append _ (encodeRunId right)] at equal
      exact List.append_cancel_left equal
  rw [apart, Ne, folded_encodeRunId_iff left right (idPattern_isIdUnit valid)
    (idPattern_isIdUnit otherValid)]
  exact ⟨And.left, fun different => ⟨different, canonicalRunResources_decodes localeCompare⟩⟩

/-- Two run ids whose scopes are one directory where case does not count. -/
theorem run_scopes_collide :
    js "aaG" ≠ js "aaa" ∧ idPattern (js "aaG") = true ∧ idPattern (js "aaa") = true ∧
      (lockPaths (js "run:aaG")).toOption.map (fun paths => folded paths.root) =
        some (js ".brain/locks/runs/ywfh") ∧
      (lockPaths (js "run:aaa")).toOption.map (fun paths => folded paths.root) =
        some (js ".brain/locks/runs/ywfh") := by
  decide +kernel

/-- Two runs whose scopes stay apart. -/
theorem run_scopes_apart_example :
    (ApartFolded (js "run-1") (js "run-2") ∧ DecodesNames fun _ _ => 0) ↔ ¬Twins (js "run-1") (js "run-2") :=
  run_scopes_apart_iff (fun _ _ => 0) (by decide) (by decide)

end Scopes

end Kratos.Locks
