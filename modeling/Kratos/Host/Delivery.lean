/- source: domain/host/delivery.ts
   digest: Messages that arrive again, out of order or not at all are accepted once and in their order. -/

import Kratos.Foundation.Text

set_option autoImplicit false

namespace Kratos.Host

open Foundation.Text

section Classifying

/-- `HostOperationMessageV1`, with what a delivery is classified by. -/
structure HostOperationMessageV1 where
  messageId : JsString
  correlationId : JsString
  operationId : JsString
  sequence : Nat
  deriving DecidableEq, Repr

structure DeliveryCursor where
  correlationId : JsString
  operationId : JsString
  lastSequence : Nat
  seenMessageIds : List JsString
  deriving DecidableEq, Repr

inductive RejectionReason
  | correlationMismatch | operationMismatch | outOfOrder
  deriving DecidableEq, Repr

inductive DeliveryDecision
  | accepted (cursor : DeliveryCursor)
  | duplicate (cursor : DeliveryCursor)
  | rejected (reason : RejectionReason) (cursor : Option DeliveryCursor)
  deriving DecidableEq, Repr

def initialCursor (message : HostOperationMessageV1) : DeliveryCursor :=
  ⟨message.correlationId, message.operationId, message.sequence, [message.messageId]⟩

def classifyDelivery : Option DeliveryCursor → HostOperationMessageV1 → DeliveryDecision
  | none, message =>
      if message.sequence ≠ 0 then .rejected .outOfOrder none else .accepted (initialCursor message)
  | some cursor, message =>
      if cursor.seenMessageIds.contains message.messageId then .duplicate cursor
      else if message.correlationId ≠ cursor.correlationId then .rejected .correlationMismatch (some cursor)
      else if message.operationId ≠ cursor.operationId then .rejected .operationMismatch (some cursor)
      else if message.sequence ≠ cursor.lastSequence + 1 then .rejected .outOfOrder (some cursor)
      else
        .accepted
          { cursor with
            lastSequence := message.sequence
            seenMessageIds := cursor.seenMessageIds ++ [message.messageId] }

/-- The messages that are accepted of those that arrive one after another. -/
def accepted : Option DeliveryCursor → List HostOperationMessageV1 → List HostOperationMessageV1
  | _, [] => []
  | cursor, message :: rest =>
      match classifyDelivery cursor message with
      | .accepted next => message :: accepted (some next) rest
      | .duplicate _ | .rejected _ _ => accepted cursor rest

end Classifying

section Histories

/-- The cursor behind the messages that were accepted so far. -/
def cursorOf : List HostOperationMessageV1 → Option DeliveryCursor
  | [] => none
  | first :: rest =>
      some ⟨first.correlationId, first.operationId, rest.length,
        (first :: rest).map HostOperationMessageV1.messageId⟩

/-- Messages of one operation, each once, numbered from zero without a gap. -/
structure InOrder (history : List HostOperationMessageV1) : Prop where
  once : (history.map HostOperationMessageV1.messageId).Nodup
  numbered : ∀ (index : Nat) (message : HostOperationMessageV1),
    history[index]? = some message → message.sequence = index
  together : ∀ message ∈ history, ∀ first ∈ history.head?,
    message.correlationId = first.correlationId ∧ message.operationId = first.operationId

variable {history : List HostOperationMessageV1} {message : HostOperationMessageV1}

theorem classifyDelivery_accepted {next : DeliveryCursor}
    (taken : classifyDelivery (cursorOf history) message = .accepted next) :
    some next = cursorOf (history ++ [message]) ∧ message.sequence = history.length ∧
      message.messageId ∉ history.map HostOperationMessageV1.messageId ∧
        ∀ first ∈ history.head?,
          message.correlationId = first.correlationId ∧ message.operationId = first.operationId := by
  cases history with
  | nil =>
      simp only [cursorOf, classifyDelivery] at taken
      split_ifs at taken with sequence
      cases taken
      have zero := not_not.mp sequence
      exact ⟨by rw [initialCursor, zero]; rfl, zero, List.not_mem_nil, fun _ held => by cases held⟩
  | cons first rest =>
      simp only [cursorOf, classifyDelivery] at taken
      split_ifs at taken with seen correlation operation sequence
      cases taken
      have next := not_not.mp sequence
      refine ⟨?_, next, fun member => seen (List.contains_iff_mem.mpr member), fun _ held => ?_⟩
      · rw [next, List.cons_append, cursorOf, ← List.cons_append, List.map_append, List.length_append]
        rfl
      · cases held
        exact ⟨not_not.mp correlation, not_not.mp operation⟩

theorem InOrder.accept {next : DeliveryCursor} (inOrder : InOrder history)
    (taken : classifyDelivery (cursorOf history) message = .accepted next) :
    InOrder (history ++ [message]) := by
  obtain ⟨-, sequence, fresh, same⟩ := classifyDelivery_accepted taken
  refine ⟨?_, fun index other held => ?_, fun other member first head => ?_⟩
  · rw [List.map_append, List.map_singleton, (List.perm_append_singleton _ _).nodup_iff]
    exact List.nodup_cons.mpr ⟨fresh, inOrder.once⟩
  · rw [List.getElem?_append] at held
    split at held
    · exact inOrder.numbered index other held
    · obtain ⟨here, rfl⟩ := List.getElem?_eq_some_iff.mp held
      rw [List.length_singleton] at here
      rw [List.getElem_singleton]
      omega
  · cases history with
    | nil =>
        cases head
        rw [List.mem_singleton.mp member]
        exact ⟨rfl, rfl⟩
    | cons start rest =>
        cases head
        rcases List.mem_append.mp member with before | last
        · exact inOrder.together other before first rfl
        · rw [List.mem_singleton.mp last]
          exact same first rfl

theorem accepted_in_order (inOrder : InOrder history) (arrived : List HostOperationMessageV1) :
    InOrder (history ++ accepted (cursorOf history) arrived) := by
  induction arrived generalizing history with
  | nil => rwa [accepted, List.append_nil]
  | cons message rest ih =>
      rw [accepted]
      split
      · rename_i next taken
        rw [(classifyDelivery_accepted taken).1, List.append_cons]
        exact ih (inOrder.accept taken)
      · exact ih inOrder
      · exact ih inOrder

theorem classifyDelivery_next {later : List HostOperationMessageV1}
    (inOrder : InOrder (history ++ message :: later)) :
    ∃ next, classifyDelivery (cursorOf history) message = .accepted next := by
  have sequence := inOrder.numbered history.length message (by simp)
  have fresh : message.messageId ∉ history.map HostOperationMessageV1.messageId := by
    have once := inOrder.once
    rw [List.map_append, List.map_cons, List.perm_middle.nodup_iff] at once
    exact fun member => (List.nodup_cons.mp once).1 (List.mem_append_left _ member)
  cases history with
  | nil => exact ⟨_, if_neg (not_not.mpr sequence)⟩
  | cons first rest =>
      have same := inOrder.together message (by simp) first rfl
      simp only [cursorOf, classifyDelivery]
      rw [if_neg fun seen => fresh (List.contains_iff_mem.mp seen), if_neg (not_not.mpr same.1),
        if_neg (not_not.mpr same.2)]
      exact ⟨_, if_neg (not_not.mpr sequence)⟩

theorem InOrder.head_of_accepted {sent : List HostOperationMessageV1} {next : DeliveryCursor}
    (inOrder : InOrder (history ++ sent)) (member : message ∈ history ++ sent)
    (taken : classifyDelivery (cursorOf history) message = .accepted next) :
    sent.head? = some message := by
  obtain ⟨index, held⟩ := List.mem_iff_getElem?.mp member
  have here : index = history.length :=
    (inOrder.numbered index message held).symm.trans (classifyDelivery_accepted taken).2.1
  rw [here, List.getElem?_append_right (Nat.le_refl _), Nat.sub_self] at held
  rwa [List.head?_eq_getElem?]

theorem accepted_all {sent arrived : List HostOperationMessageV1} (inOrder : InOrder (history ++ sent))
    (own : ∀ message ∈ arrived, message ∈ history ++ sent) (reached : sent.Sublist arrived) :
    accepted (cursorOf history) arrived = sent := by
  induction arrived generalizing history sent with
  | nil => rw [List.sublist_nil.mp reached, accepted]
  | cons message rest ih =>
      have ownRest := fun other member => own other (List.mem_cons_of_mem message member)
      by_cases first : sent.head? = some message
      · obtain ⟨later, rfl⟩ := List.head?_eq_some_iff.mp first
        obtain ⟨next, taken⟩ := classifyDelivery_next inOrder
        rw [List.append_cons] at inOrder ownRest
        simp only [accepted, taken]
        rw [(classifyDelivery_accepted taken).1, ih inOrder ownRest (List.cons_sublist_cons.mp reached)]
      · have waits : sent.Sublist rest := by
          cases reached with
          | cons _ kept => exact kept
          | cons_cons _ _ => exact absurd rfl first
        rw [accepted]
        split
        · rename_i next taken
          exact absurd (inOrder.head_of_accepted (own message List.mem_cons_self) taken) first
        · exact ih inOrder ownRest waits
        · exact ih inOrder ownRest waits

/-- What is accepted is in order whatever arrives, and it is all that was sent once all of it arrived. -/
theorem delivered (arrived sent : List HostOperationMessageV1) :
    InOrder (accepted none arrived) ∧
      (InOrder sent → (∀ message ∈ arrived, message ∈ sent) → sent.Sublist arrived →
        accepted none arrived = sent) := by
  have start : InOrder [] := by refine ⟨List.nodup_nil, ?_, ?_⟩ <;> simp
  refine ⟨accepted_in_order start arrived, fun inOrder own reached => ?_⟩
  exact accepted_all (show InOrder ([] ++ sent) from inOrder) own reached

end Histories

end Kratos.Host
