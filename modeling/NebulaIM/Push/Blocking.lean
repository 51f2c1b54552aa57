import NebulaIM.Push.Handling

/-!
# Records that are never acknowledged

A record that `handleKafkaMessage` refuses is read again.  Here every statement and
every produced record succeeds and only the deliveries to the gateways may fail, so
that what remains of a refusal is in the record and in the members of its group.
-/

namespace NebulaIM.Push

open Foundation
open Backend Protocol
open Foundation.Wire (Bytes)

/-- The offline copies and the produced records succeed.  What Redis, the member
list and the gateways answer is left open. -/
structure Outcomes.Reliable (outcomes : Outcomes) : Prop where
  inserted : ∀ row, outcomes.answer (.insertOfflineMessage row) = true
  produced : ∀ topic key payload, outcomes.answer (.produce topic key payload) = true

/--
What a record needs to be acknowledged: an invalid one nothing, the others a message
id; that of a group also at least one member, and no member with the id zero to whom
the message is pushed.
-/
def Intent.Acceptable (members : UInt64 → List UInt64) (options : PushOptions) : Intent → Prop
  | .invalid _ _ => True
  | .toUser _ _ data => data.messageId ≠ 0
  | .toGroup _ groupId data =>
    members groupId ≠ [] ∧ ∀ userId ∈ members groupId,
      ¬ (options.skipSenderForGroup ∧ userId = data.fromUserId) → userId ≠ 0 ∧ data.messageId ≠ 0

theorem Dispatch.rejected_iff {d : Dispatch} (hreliable : d.outcomes.Reliable) (userId : UInt64) :
    d.Rejected userId ↔ userId = 0 ∨ d.data.messageId = 0 := by
  have hsaved : d.copySaved userId = true := hreliable.inserted _
  have hpublished : d.published userId = true := hreliable.produced _ _ _
  simp [Dispatch.Rejected, hsaved, hpublished]

theorem intent_toUser_ne_zero {worker : PushWorkerOptions} {message : KafkaMessage}
    {requestId : Bytes} {userId : UInt64} {data : MessageData}
    (h : intent worker message = .toUser requestId userId data) : userId ≠ 0 := by
  unfold intent at h
  generalize MessageData.parse message.payload = result at h
  obtain ⟨parsed, ok⟩ := result
  cases ok with
  | false => cases h
  | true =>
    simp only at h
    split_ifs at h with _ hids _ _ _ huser
    · cases h
      exact fun hzero => hids (.inr (.inr hzero))
    · cases h
      exact huser

/--
With every statement and every produced record succeeding, a record is acknowledged
exactly when it is acceptable.
-/
theorem handled_iff_acceptable (outcomes : Outcomes) (hreliable : outcomes.Reliable)
    (options : PushOptions) (retry : PushRetryOptions) (worker : PushWorkerOptions)
    (message : KafkaMessage) :
    (handleKafkaMessage pushEnv options retry worker message).eval outcomes.answer = true ↔
      (intent worker message).Acceptable
        (fun groupId => outcomes.answer (.listMembers groupId)) options := by
  rw [handleKafkaMessage_eq]
  have huser := @intent_toUser_ne_zero worker message
  obtain ⟨key, payload, hinvalid⟩ | hvalid := intent_valid_or worker message
  · rw [hinvalid]
    exact iff_of_true (hreliable.produced _ _ _) trivial
  · rw [Intent.eval_perform hvalid]
    generalize intent worker message = valid at hvalid huser ⊢
    cases valid with
    | invalid key payload => exact hvalid.elim
    | toUser requestId userId data =>
      have hne : userId ≠ 0 := huser rfl
      simp [Intent.addressees, Intent.recipients, Intent.Acceptable,
        Intent.dispatch, Dispatch.rejected_iff (d := ⟨outcomes, options, retry,
          requestId, data⟩) hreliable, hne]
    | toGroup requestId groupId data =>
      have hrejected := @Dispatch.rejected_iff ⟨outcomes, options, retry, requestId, data⟩ hreliable
      simp only [Intent.addressees, Intent.recipients, Intent.Acceptable,
        Intent.dispatch, List.mem_filter, Dispatch.addressed, hrejected,
        Bool.not_eq_true', decide_eq_false_iff_not, and_imp, not_or]

/-! Nobody is a member of group 9, and no device is online. -/

def noMembers : Outcomes where
  answer
    | .nowMs => 0
    | .insertOfflineMessage _ => true
    | .smembers _ => []
    | .get _ => none
    | .srem _ _ => true
    | .incr _ => 1
    | .expire _ _ => true
    | .del _ => true
    | .deliverToConnection _ _ _ _ => false
    | .listMembers _ => []
    | .produce _ _ _ => true
    | .flush _ => ()
  existing _ _ := false
  applied _ := true
  applied_of_ok _ _ := rfl

theorem noMembers_reliable : noMembers.Reliable := ⟨fun _ => rfl, fun _ _ _ => rfl⟩

/-- The single message of user 7 to user 8 is saved for them. -/
theorem single_handled : (handleKafkaMessage pushEnv {} {} {} fourthFailureRecord).eval
      noMembers.answer = true := by
  refine (handled_iff_acceptable noMembers noMembers_reliable {} {} {} _).mpr ?_
  have hintent : intent {} fourthFailureRecord =
      .toUser (lit "kafka-single") 8 fourthFailure := by decide +kernel
  rw [hintent]
  exact (by decide : fourthFailure.messageId ≠ 0)

def messageToNobody : MessageData :=
  { messageId := 1, conversationId := 2, fromUserId := 7, groupId := 9 }

def emptyGroupRecord : KafkaMessage where
  topic := lit "nebula.message.group"
  key := decimal 2
  payload := messageToNobody.serialize
  partition := 0
  offset := 0

def zeroIdRecord : KafkaMessage where
  topic := lit "nebula.message.retry"
  key := decimal 8
  payload := MessageData.serialize { fourthFailure with messageId := 0 }
  partition := 0
  offset := 0

/-- A message to a group without members, and one without an id in the retry topic,
are refused although no call fails. -/
theorem emptyGroup_refused : noMembers.Reliable ∧
      (handleKafkaMessage pushEnv {} {} {} emptyGroupRecord).eval noMembers.answer = false ∧
      (handleKafkaMessage pushEnv {} {} {} zeroIdRecord).eval noMembers.answer = false :=
  ⟨noMembers_reliable, by decide +kernel, by decide +kernel⟩

end NebulaIM.Push
