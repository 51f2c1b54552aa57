import NebulaIM.Services.Runs

/-!
# Who is shown the history of a group

`ListConversationMessages` asks for a row of the requester's conversation list,
and `LeaveGroup` leaves that row alone.  So the history of a group is shown to
those who have been sent a message of it and have not deleted the conversation
since, members or not.
-/

namespace NebulaIM.RelationService

open Foundation Foundation.Store
open Backend Protocol Services

variable {config : Config}

def founded : List Action :=
  [.spawn (.createGroup {} { ownerId := 1, groupName := [103] })] ++
    List.replicate 12 (.step 0 { id := 9 }) ++
    [.spawn (.joinGroup {} { userId := 2, groupId := 9 })] ++
    List.replicate 12 (.step 1 {})

def groupMessage : Request :=
  .sendGroupMessage {} { fromUserId := 1, groupId := 9, content := [104, 105] }
    ⟨by decide, by decide⟩

def readHistory : Request :=
  .listConversationMessages {} { requesterUserId := 2, conversationId := ConversationId.group 9 }

def showsMessage (messageId : UInt64) : Reply → Bool
  | .history response => response.messages.any fun data => data.messageId = messageId
  | _ => false

def memberAsks : List Action :=
  founded ++ [.spawn groupMessage] ++ List.replicate 30 (.step 2 { id := 50, clock := 5 })

def memberReads : List Action := memberAsks ++ .spawn readHistory :: List.replicate 12 (.step 3 {})

def leaverReads : Pool :=
  (services {}).run twoFriends
    (memberAsks ++ [.spawn (.leaveGroup {} { userId := 2, groupId := 9 })] ++
      List.replicate 12 (.step 3 {}) ++
      [.spawn groupMessage] ++
      List.replicate 30 (.step 4 { id := 51, clock := 6 }) ++
      [.spawn readHistory] ++ List.replicate 12 (.step 5 {}))

end NebulaIM.RelationService
