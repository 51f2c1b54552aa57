import NebulaIM.Services.Outbox

/-!
# Memberships, conversation lists and offline copies

A member has joined; a conversation is listed for a user because a message was
sent to that user and the user has not deleted the conversation since.
-/

namespace NebulaIM.Services

open Foundation Foundation.Store
open Backend Protocol

def Hides (unit : Nat × List Write) (userId conversationId : UInt64) : Prop :=
  ∃ conv, .putConversation conv ∈ unit.2 ∧
    (conv.ownerUserId, conv.conversationId) = (userId, conversationId) ∧
    conv.deleted = true

/-- A message was sent to the user in the conversation, and the user has not
deleted the conversation since. -/
def Shown (log : List (Nat × List Write)) (userId conversationId : UInt64) :
    Prop :=
  ∃ later client row writes earlier,
    log = later ++ (client, .insertMessage row :: writes) :: earlier ∧
    row.conversationId = conversationId ∧ Audience earlier row userId ∧
    ∀ unit ∈ later, ¬ Hides unit userId conversationId

theorem Shown.cons {log : List (Nat × List Write)}
    {userId conversationId : UInt64} (h : Shown log userId conversationId)
    {unit : Nat × List Write} (hunit : ¬ Hides unit userId conversationId) :
    Shown (unit :: log) userId conversationId := by
  obtain ⟨later, client, row, writes, earlier, rfl, hrow, haudience, hlater⟩ := h
  refine ⟨unit :: later, client, row, writes, earlier, rfl, hrow, haudience, ?_⟩
  intro newer hnewer
  rcases List.mem_cons.mp hnewer with rfl | hold
  · exact hunit
  · exact hlater newer hold

structure Conversations (w : World) : Prop where
  shown : ∀ {userId conversationId row},
    w.db.conversations.lookup (userId, conversationId) = some row →
    row.deleted = false → Shown w.log userId conversationId
  members : ∀ {groupId userId row}, w.db.members.lookup (groupId, userId) = some row →
    EverMember w.log groupId userId

theorem Conversations.work {config : Config} {w w' : World} {client : Nat} {writes : List Write}
    (h : Conversations w) (hwork : Work config w client writes)
    (hdb : w'.db = applyAll (D := dialect) w.db writes)
    (hlog : w'.log = (client, writes) :: w.log) : Conversations w' where
  shown {userId conversationId row} hrow hdeleted := by
    rw [hdb] at hrow
    rw [hlog]
    rcases lookup_conversations_applyAll hrow with ⟨hold, hnone⟩ | ⟨hput, hkey⟩
    · refine (h.shown hold hdeleted).cons ?_
      rintro ⟨conv, hmem, heq, _⟩
      exact hnone conv hmem heq
    · cases hwork with
      | @send message event convs _ _ _ _ _ _ _ shown =>
        simp only [List.mem_cons, reduceCtorEq, List.mem_append, List.mem_map,
          Write.putConversation.injEq, exists_eq_right, List.not_mem_nil,
          or_false, false_or] at hput
        obtain ⟨hconversation, _, haudience⟩ := shown row hput
        cases hkey
        exact ⟨[], client, message, _, w.log, rfl, hconversation.symm,
          haudience, fun _ hmem => nomatch hmem⟩
      | recallMessage recalledAt convs _ _ _ _ _ _ updates =>
        simp only [List.mem_cons, reduceCtorEq, List.mem_map,
          Write.putConversation.injEq, exists_eq_right, false_or] at hput
        obtain ⟨old, hold, hsame⟩ := updates row hput
        cases hkey
        refine (h.shown hold (hsame ▸ hdeleted)).cons ?_
        rintro ⟨conv, hmem, heq, htrue⟩
        simp only [List.mem_cons, reduceCtorEq, List.mem_map,
          Write.putConversation.injEq, exists_eq_right, false_or] at hmem
        obtain ⟨old', hold', hsame'⟩ := updates conv hmem
        rw [heq, hold] at hold'
        cases hold'
        cases hdeleted.symm.trans (hsame.trans (hsame'.symm.trans htrue))
      | deleteConversation now present =>
        simp only [List.mem_singleton, Write.putConversation.injEq] at hput
        subst hput
        cases hdeleted
      | _ => simp at hput
  members {groupId userId row} hrow := by
    rw [hdb] at hrow
    rw [hlog]
    rcases lookup_members_applyAll hrow with hold | ⟨hput, hkey⟩
    · obtain ⟨role, hcommitted⟩ := h.members hold
      exact ⟨role, hcommitted.mono (List.suffix_cons _ _)⟩
    · cases hkey
      exact ⟨row.role, _, List.mem_cons_self, hput⟩

end NebulaIM.Services
