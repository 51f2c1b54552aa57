import NebulaIM.Chat.Commits

/-!
# Replayed requests

A send that finds a message of its sender and sequence number answers with that
message, whatever the request says.  As long as every user keeps one sequence
number for one request, the message named in an answer is the one asked for.
-/

namespace NebulaIM.Chat

open Foundation Foundation.Store
open Backend Protocol Message
open Foundation.Wire (Bytes)

/-- What a message is sent to, and what it says. -/
structure Payload where
  toUserId : UInt64 := 0
  groupId : UInt64 := 0
  contentType : Int32 := 0
  content : Bytes := []
  deriving DecidableEq

def payloadOf (row : MessageRecord) : Payload :=
  ⟨row.toUserId, row.groupId, row.messageType, row.content⟩

/-- The message is of the request's sender, for its target and with its
content. -/
def Carries : Request → MessageRecord → Prop
  | .sendSingleMessage _ request, row =>
    row.fromUserId = request.fromUserId ∧ payloadOf row =
      { toUserId := request.toUserId, contentType := request.contentType,
        content := request.content }
  | .sendGroupMessage _ request, row =>
    row.fromUserId = request.fromUserId ∧ payloadOf row =
      { groupId := request.groupId, contentType := request.contentType,
        content := request.content }
  | _, _ => True

/-! ## One number for one request -/

section Numbering

variable (numbering : UInt64 → UInt32 → Payload)

/-- The record has no sequence number, or the payload that its sender uses the
number for. -/
def Numbered (record : MessageRecord) : Prop :=
  record.clientSequenceId = 0 ∨
    payloadOf record = numbering record.fromUserId record.clientSequenceId

instance : DecidablePred (Numbered numbering) := fun _ => inferInstanceAs (Decidable (_ ∨ _))

/-- The request uses its sequence number as its sender does. -/
def NumberedRequest : Request → Prop
  | .sendSingleMessage _ request => Numbered numbering (singleRecord request 0 0)
  | .sendGroupMessage _ request => Numbered numbering (groupRecord request 0 0)
  | _ => True

def numberedRules : Rules where
  spawn _ request := NumberedRequest numbering request

instance (w : World) (request : Request) :
    Decidable ((numberedRules numbering).spawn w request) := by
  change Decidable (NumberedRequest numbering request)
  unfold NumberedRequest
  split <;> infer_instance

instance (w : World) (client : Nat) (op : Op) (choice : Choice) :
    Decidable ((numberedRules numbering).call w client op choice) :=
  inferInstanceAs (Decidable True)

instance (w : World) (event : Env) : Decidable ((numberedRules numbering).env w event) :=
  inferInstanceAs (Decidable True)

def numbered : Discipline :=
  locking (numberedRules numbering) (fun _ => True) (Numbered numbering)
    (fun _ _ => True) (fun _ => True) (fun _ => trivial) fun _ => trivial

theorem numbered_grants (config : Config) : Grants (numbered numbering) config :=
  .of_sent (fun _ _ => trivial) (fun h _ _ _ => h) fun h _ _ _ => h

end Numbering

variable {numbering : UInt64 → UInt32 → Payload}

theorem Numbered.of_origin {row old : MessageRecord} (h : Numbered numbering old)
    (horigin : row.origin = old.origin) : Numbered numbering row := by
  have hrow : Numbered numbering row.origin := by
    rw [horigin]
    exact h
  exact hrow

def AllNumbered (numbering : UInt64 → UInt32 → Payload) (db : Db) : Prop :=
  ∀ id row, db.messages.lookup id = some row → Numbered numbering row

theorem AllNumbered.step {client : Nat} {w w' : World}
    (h : AllNumbered numbering w.db) (hstep : Step (numbered numbering) client w w') :
    AllNumbered numbering w'.db := by
  intro id row hrow
  rcases hstep.message hrow with ⟨old, hold, horigin⟩ | ⟨new, _, hnew, _, horigin⟩
  · exact (h id old hold).of_origin horigin
  · exact Numbered.of_origin hnew horigin

theorem run_numbered (config : Config) {pool : Pool} (hinitial : Initial pool)
    {actions : List Action}
    (hrun : (numberedRules numbering).AdmitsRun (chat config) pool actions) :
    AllNumbered numbering ((chat config).run pool actions).world.db := by
  refine run_induct (numbered_grants numbering config) hinitial.safe hrun
    (p := fun w => AllNumbered numbering w.db) ?_ (fun _ h hstep => h.step hstep) ?_
  · obtain ⟨⟨users, friendships, groups, members, hsql⟩, _, _⟩ := hinitial
    rw [World.db, hsql]
    exact fun _ _ hrow => absurd hrow Table.lookup_empty_ne
  · intro w event h
    rw [AllNumbered, (env_messages w event).1]
    exact h

/-! ## What an answer names -/

section Answers

variable {D : Discipline} {tid : Nat} {start : Db} {past : Calls} {w : World}

theorem Answers.carries {build : UInt64 → Int64 → MessageRecord}
    {response : SendMessageResponse} (h : Answers D build past response)
    (hok : Accepted response) (hkeyed : w.db.Keyed)
    (hrecorded : Recorded D tid start past w) (hall : AllNumbered numbering w.db)
    (hbuild : ∀ messageId now, (build messageId now).fromUserId = (build 0 0).fromUserId ∧
      (build messageId now).clientSequenceId = (build 0 0).clientSequenceId ∧
      payloadOf (build messageId now) = payloadOf (build 0 0))
    (hnumbered : Numbered numbering (build 0 0)) :
    ∃ row, w.db.messages.lookup response.messageId = some row ∧
      row.fromUserId = (build 0 0).fromUserId ∧
      payloadOf row = payloadOf (build 0 0) := by
  obtain ⟨common, hcommon, hcode⟩ := hok
  obtain ⟨messageId, now, owners, hanswered⟩ := h
  obtain ⟨hfrom, hsequence, hpayload⟩ := hbuild messageId now
  rcases hanswered common hcommon hcode with ⟨row, hfound, hid⟩ | ⟨hstores, hid⟩
  · obtain ⟨hsender, hnumber, current, hcurrent, horigin⟩ := hfound.stored hkeyed hrecorded
    have hcurrent_from : current.fromUserId = (build 0 0).fromUserId :=
      ((congrArg MessageRecord.fromUserId horigin).trans hsender).trans hfrom
    have hcurrent_number : current.clientSequenceId = (build 0 0).clientSequenceId :=
      ((congrArg MessageRecord.clientSequenceId horigin).trans hnumber).trans hsequence
    have hne : (build 0 0).clientSequenceId ≠ 0 := hsequence ▸ hfound.numbered
    refine ⟨current, hid.messageId ▸ hcurrent, hcurrent_from, ?_⟩
    -- both the message and the request are numbered as the sender does
    have hleft := (hall _ current hcurrent).resolve_left (hcurrent_number ▸ hne)
    rw [hleft, hcurrent_from, hcurrent_number, hnumbered.resolve_left hne]
  · obtain ⟨current, hcurrent, horigin⟩ := hstores.stored hrecorded
    exact ⟨current, hid.messageId ▸ hcurrent,
      (congrArg MessageRecord.fromUserId horigin).trans hfrom,
      (congrArg payloadOf horigin).trans hpayload⟩

end Answers

/-- If every user keeps one sequence number for one target and content, a send
that is answered OK names a stored message that carries its request. -/
theorem answer_carries_request (config : Config) (numbering : UInt64 → UInt32 → Payload)
    {pool : Pool} (hinitial : Initial pool) {actions : List Action}
    (hrun : (numberedRules numbering).AdmitsRun (chat config) pool actions) {tid : Nat}
    {request : Request} {response : SendMessageResponse}
    (hsend : request.kind = .single ∨ request.kind = .group)
    (hrequest : ((chat config).run pool actions).request tid = some request)
    (hreply : ((chat config).run pool actions).reply tid = some (.sent response))
    (hok : Accepted response) :
    ∃ row, ((chat config).run pool actions).world.db.messages.lookup
        response.messageId = some row ∧ Carries request row := by
  have hgrants := numbered_grants numbering config
  have hsound := (run_safe hgrants hinitial.safe hrun).1
  have hall := run_numbered config hinitial hrun
  obtain ⟨start, past, hexplained, hrecorded⟩ := run_answer hgrants hinitial hrun hrequest hreply
  cases request with
  | sendSingleMessage ctx request | sendGroupMessage ctx request =>
    exact hexplained.1.carries hok hsound.keyed hrecorded hall
      (fun _ _ => ⟨rfl, rfl, rfl⟩) (hexplained.2 0 0 {})
  | _ => rcases hsend with hkind | hkind <;> cases hkind

/-! ### A number that is used twice -/

def numberedSend (content : Bytes) : Request :=
  .sendSingleMessage {}
    { fromUserId := 1, toUserId := 2, content := content, clientSequenceId := 7 }

def repeated : List Action :=
  runAlone 0 (numberedSend [104, 105]) { id := 50, clock := 5 } ++
    runAlone 1 (numberedSend [104, 105]) { id := 51, clock := 6 }

def reused : List Action :=
  runAlone 0 (numberedSend [104, 105]) { id := 50, clock := 5 } ++
    runAlone 1 (numberedSend [121, 111]) { id := 51, clock := 6 }

theorem repeated_carries :
    let reached := (chat {}).run friends repeated
    ∃ response row, reached.reply 1 = some (.sent response) ∧
      reached.world.db.messages.lookup response.messageId = some row ∧
      Carries (numberedSend [104, 105]) row := by
  have hreply : ((chat {}).run friends repeated).reply 1 = some (.sent
      (replayed [] { messageId := 50, createdAt := 5 })) := by decide +kernel
  have hrequest : ((chat {}).run friends repeated).request 1 = some (numberedSend [104, 105]) := by
    rw [(chat {}).run_request rfl]
    rfl
  obtain ⟨row, hrow, hcarries⟩ := answer_carries_request {}
    (fun _ _ => { toUserId := 2, content := [104, 105] }) friends_initial
    (by decide +kernel) (.inl rfl) hrequest hreply (by decide +kernel)
  exact ⟨_, row, hreply, hrow, hcarries⟩

/-- The second message is acknowledged with the first one. -/
theorem reused_acknowledged :
    let reached := (chat {}).run friends reused
    reached.reply 1 = some (.sent (replayed [] { messageId := 50, createdAt := 5 })) ∧
      (reached.world.db.messages.lookup 50).map MessageRecord.content = some [104, 105] ∧
      (Table.rows reached.world.db.messages).map MessageRecord.messageId = [50] := by
  refine ⟨?_, ?_, ?_⟩ <;> decide +kernel

end NebulaIM.Chat
