/- source: domain/locks/lifecycle.ts
   digest: Every string of a transition is written as it stands, so its line has a known length. -/

import Kratos.Locks.Lifecycle
import Kratos.Schema.PlainText

set_option autoImplicit false

namespace Kratos.Locks

open Foundation.Text Patterns Schema Events

section Plain

private theorem isPlain_alnum {u : CodeUnit} (alnum : isAlnum u = true) : isPlain u = true := by
  simp only [isAlnum, Bool.or_eq_true] at alnum
  rcases alnum with (lower | upper) | digit
  · exact isPlain_between lower (by decide) (by decide) (by decide)
  · exact isPlain_between upper (by decide) (by decide) (by decide)
  · exact isPlain_digit digit

private theorem isPlain_id {u : CodeUnit} (valid : isIdUnit u = true) : isPlain u = true := by
  simp only [isIdUnit, Bool.or_eq_true, beq_iff_eq] at valid
  rcases valid with (((alnum | rfl) | rfl) | rfl) | rfl
  · exact isPlain_alnum alnum
  all_goals decide

theorem plain_id {s : JsString} (valid : idPattern s = true) : Plain s := by
  cases s with
  | nil => cases valid
  | cons first rest =>
      simp only [idPattern, Bool.and_eq_true, List.all_eq_true] at valid
      intro u member
      rcases List.mem_cons.mp member with rfl | inside
      · exact isPlain_alnum valid.1.1
      · exact isPlain_id (valid.2 u inside)

theorem plain_sha256 {s : JsString} (valid : sha256Pattern s = true) : Plain s := by
  simp only [sha256Pattern, Bool.and_eq_true, List.all_eq_true, Bool.or_eq_true] at valid
  intro u member
  rcases valid.2 u member with letter | digit
  · exact isPlain_between letter (by decide) (by decide) (by decide)
  · exact isPlain_digit digit

theorem sha256_length {s : JsString} (valid : sha256Pattern s = true) : s.length = 64 := by
  simp only [sha256Pattern, Bool.and_eq_true, decide_eq_true_eq] at valid
  exact valid.1

private theorem plain_cons {u : CodeUnit} {s : JsString} (head : isPlain u = true)
    (tail : Plain s) : Plain (u :: s) :=
  List.forall_mem_cons.mpr ⟨head, tail⟩

theorem plain_append {left right : JsString} (first : Plain left) (second : Plain right) :
    Plain (left ++ right) :=
  List.forall_mem_append.mpr ⟨first, second⟩

private theorem twoDigits_plain {low high : Nat} {s rest : JsString}
    (read : twoDigits low high s = some rest) (later : Plain rest) :
    Plain s ∧ s.length = rest.length + 2 := by
  unfold twoDigits at read
  split at read
  · rename_i tens ones tail
    split at read
    · rename_i digits
      obtain rfl := Option.some.inj read
      simp only [Bool.and_eq_true] at digits
      exact ⟨plain_cons (isPlain_digit digits.1.1.1) (plain_cons (isPlain_digit digits.1.1.2) later),
        rfl⟩
    · cases read
  · cases read

private theorem literal_plain {expected s rest : JsString}
    (read : literal expected s = some rest) (known : Plain expected) (later : Plain rest) :
    Plain s ∧ s.length = rest.length + expected.length := by
  unfold literal at read
  split at read
  · rename_i begins
    obtain ⟨tail, rfl⟩ := (startsWith_iff s expected).mp begins
    rw [List.drop_left] at read
    obtain rfl := Option.some.inj read
    exact ⟨plain_append known later, by rw [List.length_append]; omega⟩
  · cases read

private theorem secondFraction_plain {s : JsString} (valid : secondFraction s = true) :
    Plain s ∧ s.length ≤ 11 := by
  simp only [secondFraction, Bool.or_eq_true, beq_iff_eq, Bool.and_eq_true,
    decide_eq_true_eq] at valid
  have zone : Plain (js "Z") := List.all_iff_forall_prop.mp (by decide)
  rcases valid with rfl | ⟨⟨⟨dot, -⟩, short⟩, last⟩
  · exact ⟨zone, by decide⟩
  · obtain ⟨rest, rfl⟩ := (startsWith_iff s (js ".")).mp dot
    have tail : (js "." ++ rest).tail = rest := rfl
    rw [tail] at short last
    have split := List.takeWhile_append_dropWhile (p := isDigit) (l := rest)
    rw [last] at split
    have digits : Plain (rest.takeWhile isDigit) := by
      intro u member
      exact isPlain_digit (List.all_eq_true.mp List.all_takeWhile u member)
    have remaining : Plain rest := by
      rw [← split]
      exact plain_append digits zone
    refine ⟨plain_cons (by decide) remaining, ?_⟩
    have length := congrArg List.length split
    have one : (js "Z").length = 1 := rfl
    have whole : (js "." ++ rest).length = rest.length + 1 := rfl
    rw [List.length_append] at length
    omega

theorem plain_timestamp {s : JsString} (valid : timestampPattern s = true) :
    Plain s ∧ s.length ≤ 30 := by
  simp only [timestampPattern, beq_iff_eq, Option.bind_eq_bind, Option.bind_eq_some_iff,
    Option.pure_def, Option.some.injEq] at valid
  obtain ⟨s1, r1, s2, r2, s3, r3, s4, r4, s5, r5, s6, r6, s7, r7, s8, r8, s9, r9, s10, r10, s11,
    r11, s12, r12, last⟩ := valid
  have dash : Plain (js "-") := List.all_iff_forall_prop.mp (by decide)
  have colon : Plain (js ":") := List.all_iff_forall_prop.mp (by decide)
  have time : Plain (js "T") := List.all_iff_forall_prop.mp (by decide)
  have d1 : (js "-").length = 1 := rfl
  have d2 : (js ":").length = 1 := rfl
  have d3 : (js "T").length = 1 := rfl
  obtain ⟨p12, l12⟩ := secondFraction_plain last
  obtain ⟨p11, l11⟩ := twoDigits_plain r12 p12
  obtain ⟨p10, l10⟩ := literal_plain r11 colon p11
  obtain ⟨p9, l9⟩ := twoDigits_plain r10 p10
  obtain ⟨p8, l8⟩ := literal_plain r9 colon p9
  obtain ⟨p7, l7⟩ := twoDigits_plain r8 p8
  obtain ⟨p6, l6⟩ := literal_plain r7 time p7
  obtain ⟨p5, l5⟩ := twoDigits_plain r6 p6
  obtain ⟨p4, l4⟩ := literal_plain r5 dash p5
  obtain ⟨p3, l3⟩ := twoDigits_plain r4 p4
  obtain ⟨p2, l2⟩ := literal_plain r3 dash p3
  obtain ⟨p1, l1⟩ := twoDigits_plain r2 p2
  obtain ⟨p0, l0⟩ := twoDigits_plain r1 p1
  exact ⟨p0, by omega⟩

end Plain

section Lengths

private theorem base64Char_plain (index : Nat) :
    Plain (base64Char index) ∧ (base64Char index).length ≤ 1 := by
  have alphabet : ∀ u ∈ base64url, isPlain u = true := List.all_iff_forall_prop.mp (by decide +kernel)
  constructor
  · intro u member
    exact alphabet u (List.drop_subset _ _ (List.take_subset _ _ member))
  · rw [base64Char, List.length_take]
    omega

private theorem encodeRunId_plain (id : JsString) :
    Plain (encodeRunId id) ∧ (encodeRunId id).length ≤ 2 * id.length := by
  have plain := fun index => (base64Char_plain index).1
  have short := fun index => (base64Char_plain index).2
  induction id using encodeRunId.induct with
  | case1 => exact ⟨List.forall_mem_nil _, Nat.le_refl _⟩
  | case2 first =>
      refine ⟨plain_append (plain _) (plain _), ?_⟩
      have a := short (first.toNat >>> 2)
      have b := short ((first.toNat &&& 3) <<< 4)
      simp only [encodeRunId, List.length_append, List.length_cons, List.length_nil]
      omega
  | case3 first second =>
      refine ⟨plain_append (plain_append (plain _) (plain _)) (plain _), ?_⟩
      have a := short (first.toNat >>> 2)
      have b := short ((first.toNat &&& 3) <<< 4 ||| second.toNat >>> 4)
      have c := short ((second.toNat &&& 15) <<< 2)
      simp only [encodeRunId, List.length_append, List.length_cons, List.length_nil]
      omega
  | case4 first second third rest ih =>
      refine ⟨plain_append (plain_append (plain_append (plain_append (plain _) (plain _))
        (plain _)) (plain _)) ih.1, ?_⟩
      have a := short (first.toNat >>> 2)
      have b := short ((first.toNat &&& 3) <<< 4 ||| second.toNat >>> 4)
      have c := short ((second.toNat &&& 15) <<< 2 ||| third.toNat >>> 6)
      have d := short (third.toNat &&& 63)
      have later := ih.2
      simp only [encodeRunId, List.length_append, List.length_cons]
      omega

theorem plain_lockPaths {resource : JsString} {paths : LockPaths}
    (found : lockPaths resource = .ok paths) : Plain paths.lease ∧ paths.lease.length ≤ 400 := by
  obtain ⟨root, located, rfl⟩ := lockPaths_ok_iff.mp found
  have suffix : Plain (js "/lease.json") := List.all_iff_forall_prop.mp (by decide)
  have rooted : Plain root ∧ root.length ≤ 300 := by
    unfold lockRoot at located
    split at located
    · obtain rfl := Option.some.inj located
      exact ⟨List.all_iff_forall_prop.mp (by decide), by decide⟩
    · split at located
      · rename_i valid
        obtain rfl := Option.some.inj located
        obtain ⟨plain, short⟩ := encodeRunId_plain (resource.drop 4)
        have head : Plain (js ".brain/locks/runs/") := List.all_iff_forall_prop.mp (by decide)
        have bound := idPattern_length valid.2
        have size : (js ".brain/locks/runs/").length = 18 := rfl
        refine ⟨plain_append head plain, ?_⟩
        rw [List.length_append]
        omega
      · cases located
  have size : (js "/lease.json").length = 11 := rfl
  refine ⟨plain_append rooted.1 suffix, ?_⟩
  change (root ++ js "/lease.json").length ≤ 400
  rw [List.length_append]
  omega

def nullableLength : Option JsString → Nat
  | none => 4
  | some value => value.length + 2

/-- The length of the line a transition appends at a revision of its trail. -/
def transitionLength (input : PrepareLeaseTransitionInput) (revision : Nat) : Nat :=
  494 + input.eventId.length + input.occurredAt.length +
    (lockEventFacts input.action).eventType.text.length + input.action.text.length +
    (decimal input.lease.fencingToken).length + (decimal revision).length +
    (decimal (revision + 1)).length + input.leaseRef.length + input.observedIdentity.host.length +
    nullableLength input.observedIdentity.model + if revision = 0 then 4 else 66

private theorem nullableText_length (value : Option JsString) :
    plainLength (nullableText.encode value) = nullableLength value := by
  rw [nullableText, plainLength_nullable]
  cases value with
  | none => rfl
  | some text => simp [nullableLength]

private theorem identity_length (actor : LeaseActor) :
    plainLength (observedIdentity.encode ⟨actor.host, actor.model, some none⟩) =
      34 + actor.host.length + nullableLength actor.model := by
  have shape : observedIdentity.encode ⟨actor.host, actor.model, some none⟩ =
      .object (observedIdentityShape ⟨actor.host, actor.model, some none⟩).members := rfl
  rw [shape, plainLength_object]
  have keys : (((observedIdentityShape ⟨actor.host, actor.model, some none⟩).members.map
      Prod.fst).map List.length).sum = 15 := rfl
  have count : (observedIdentityShape ⟨actor.host, actor.model, some none⟩).members.length = 3 := rfl
  have values : (((observedIdentityShape ⟨actor.host, actor.model, some none⟩).members.map
      Prod.snd).map plainLength).sum = actor.host.length + 2 + nullableLength actor.model + 4 := by
    have shown : (observedIdentityShape ⟨actor.host, actor.model, some none⟩).members.map Prod.snd =
        [text.encode actor.host, nullableText.encode actor.model, nullableText.encode none] := rfl
    rw [shown]
    simp only [List.map_cons, List.map_nil, List.sum_cons, List.sum_nil, plainLength_text,
      nullableText_length]
    simp only [nullableLength]
    omega
  rw [keys, count, values]
  omega

private theorem operation_length (action : LockLifecycleAction) (token : Nat) (digest : JsString) :
    (lockOperationText action token digest).length =
      9 + action.text.length + (decimal token).length + digest.length := by
  have a : (js "lock.").length = 5 := rfl
  have b : (js ".t").length = 2 := rfl
  have c : (js ".d").length = 2 := rfl
  simp only [lockOperationText, List.length_append, a, b, c]
  omega

private theorem facts_length (action : LockLifecycleAction) :
    (lockEventFacts action).reasonCode.length = 8 ∧
      (lockEventFacts action).effect.text.length = 5 := by
  cases action <;> exact ⟨rfl, rfl⟩

private theorem transition_values (input : PrepareLeaseTransitionInput) (digest : JsString)
    (previousHash : Option JsString) (eventHash : JsString) (revision : Nat) :
    (sealedEventShape ⟨transitionDraft input digest revision, previousHash,
      eventHash⟩).members.map Prod.snd =
      [contractVersion.encode .v1_2, contractVersion.encode .v1_2, text.encode input.eventId,
        eventType.encode (lockEventFacts input.action).eventType, text.encode input.occurredAt,
        text.encode (lockOperationText input.action input.lease.fencingToken digest),
        text.encode (js "locks-v1"), natural.encode revision, natural.encode (revision + 1),
        text.encode (lockEventFacts input.action).reasonCode,
        eventEffect.encode (lockEventFacts input.action).effect,
        (list text).encode [input.leaseRef], (list text).encode [],
        observedIdentity.encode
          ⟨input.observedIdentity.host, input.observedIdentity.model, some none⟩,
        nullableText.encode previousHash, text.encode eventHash,
        (list gateFailure).encode []] := rfl

theorem transition_length (input : PrepareLeaseTransitionInput) {digest : JsString}
    {previousHash : Option JsString} {eventHash : JsString} {revision : Nat}
    (hashed : digest.length = 64) (sealedHash : eventHash.length = 64)
    (previous : nullableLength previousHash = if revision = 0 then 4 else 66) :
    plainLength (sealedEvent.encode ⟨transitionDraft input digest revision, previousHash,
      eventHash⟩) = transitionLength input revision := by
  have shape : sealedEvent.encode ⟨transitionDraft input digest revision, previousHash,
      eventHash⟩ = .object (sealedEventShape ⟨transitionDraft input digest revision, previousHash,
        eventHash⟩).members := rfl
  have names : (sealedEventShape ⟨transitionDraft input digest revision, previousHash,
      eventHash⟩).members.map Prod.fst = sealedEventKeys.take 17 := rfl
  have keys : ((sealedEventKeys.take 17).map List.length).sum = 195 := by decide
  have count : (sealedEventShape ⟨transitionDraft input digest revision, previousHash,
      eventHash⟩).members.length = 17 := rfl
  obtain ⟨reason, effect⟩ := facts_length input.action
  have version : (ContractVersion.text .v1_2).length = 5 := rfl
  have policy : (js "locks-v1").length = 8 := rfl
  rw [shape, plainLength_object, names, keys, count, transition_values]
  simp only [List.map_cons, List.map_nil, List.sum_cons, List.sum_nil, plainLength_text,
    contractVersion, eventType, eventEffect, plainLength_enumeration, plainLength_natural,
    plainLength_list, identity_length, nullableText_length, operation_length, reason, effect,
    version, policy, hashed, sealedHash, previous, joinedLength, List.length_cons, List.length_nil]
  unfold transitionLength
  omega

private theorem plain_facts (action : LockLifecycleAction) :
    Plain (lockEventFacts action).eventType.text ∧ Plain (lockEventFacts action).reasonCode ∧
      Plain (lockEventFacts action).effect.text := by
  cases action <;>
    exact ⟨List.all_iff_forall_prop.mp (by decide), List.all_iff_forall_prop.mp (by decide),
      List.all_iff_forall_prop.mp (by decide)⟩

private theorem plain_nullableText {value : Option JsString} {valid : JsString → Bool}
    (checked : nullableBy valid value = true) (plain : ∀ s, valid s = true → Plain s) :
    PlainJson (nullableText.encode value) := by
  refine plain_nullable fun s member => plain_text ?_
  obtain rfl := Option.mem_def.mp member
  exact plain s (by simpa [nullableBy] using checked)

private theorem plain_identity {actor : LeaseActor}
    (valid : validIdentity ⟨actor.host, actor.model, some none⟩ = true) :
    PlainJson (observedIdentity.encode ⟨actor.host, actor.model, some none⟩) := by
  simp only [validIdentity, Bool.and_eq_true] at valid
  obtain ⟨⟨host, model⟩, -⟩ := valid
  change PlainJson (.object (observedIdentityShape ⟨actor.host, actor.model, some none⟩).members)
  rw [PlainJson, plainMembers_iff]
  have members : (observedIdentityShape ⟨actor.host, actor.model, some none⟩).members =
      [(js "host", text.encode actor.host), (js "model", nullableText.encode actor.model),
        (js "effort", nullableText.encode none)] := rfl
  rw [members]
  simp only [List.forall_mem_cons, List.not_mem_nil, false_implies, implies_true, and_true]
  have none : PlainJson (nullableText.encode none) := plain_nullable (by simp)
  exact ⟨⟨List.all_iff_forall_prop.mp (by decide), plain_text (plain_id host)⟩,
    ⟨List.all_iff_forall_prop.mp (by decide), plain_nullableText model fun _ => plain_id⟩,
    ⟨List.all_iff_forall_prop.mp (by decide), none⟩⟩

theorem plain_transition {input : PrepareLeaseTransitionInput} {digest : JsString}
    {previousHash : Option JsString} {eventHash : JsString} {revision : Nat}
    (reference : Plain input.leaseRef)
    (valid : validSealedEvent ⟨transitionDraft input digest revision, previousHash, eventHash⟩ =
      true) :
    PlainJson (sealedEvent.encode ⟨transitionDraft input digest revision, previousHash,
      eventHash⟩) := by
  simp only [validSealedEvent, validDraft, transitionDraft, Bool.and_eq_true] at valid
  obtain ⟨⟨⟨⟨⟨⟨⟨⟨⟨⟨⟨⟨⟨⟨⟨⟨⟨⟨⟨-, eventId⟩, occurredAt⟩, operation⟩, -⟩, -⟩, -⟩, -⟩, -⟩, -⟩, identity⟩,
    -⟩, -⟩, -⟩, -⟩, -⟩, -⟩, -⟩, previous⟩, hash⟩ := valid
  obtain ⟨kind, reason, effect⟩ := plain_facts input.action
  have keys : ∀ key ∈ sealedEventKeys.take 17, Plain key := by
    have all : ∀ key ∈ sealedEventKeys.take 17, key.all isPlain = true :=
      List.all_iff_forall_prop.mp (by decide)
    exact fun key member => List.all_eq_true.mp (all key member)
  have names : (sealedEventShape ⟨transitionDraft input digest revision, previousHash,
      eventHash⟩).members.map Prod.fst = sealedEventKeys.take 17 := rfl
  have version : Plain (ContractVersion.text .v1_2) := List.all_iff_forall_prop.mp (by decide)
  have policy : Plain (js "locks-v1") := List.all_iff_forall_prop.mp (by decide)
  have values : ∀ value ∈ (sealedEventShape ⟨transitionDraft input digest revision, previousHash,
      eventHash⟩).members.map Prod.snd, PlainJson value := by
    rw [transition_values]
    simp only [List.forall_mem_cons, List.not_mem_nil, false_implies, implies_true, and_true]
    exact ⟨plain_enumeration version, plain_enumeration version, plain_text (plain_id eventId),
      plain_enumeration kind, plain_text (plain_timestamp occurredAt).1,
      plain_text (plain_id operation), plain_text policy, plain_natural _, plain_natural _,
      plain_text reason, plain_enumeration effect,
      plain_list (List.forall_mem_singleton.mpr (plain_text reference)),
      plain_list (List.forall_mem_nil _), plain_identity identity,
      plain_nullableText previous fun _ => plain_sha256, plain_text (plain_sha256 hash),
      plain_list (List.forall_mem_nil _)⟩
  change PlainJson (.object (sealedEventShape ⟨transitionDraft input digest revision,
    previousHash, eventHash⟩).members)
  rw [PlainJson, plainMembers_iff]
  intro member listed
  exact ⟨keys member.1 (names ▸ List.mem_map_of_mem listed),
    values member.2 (List.mem_map_of_mem listed)⟩

end Lengths

end Kratos.Locks
