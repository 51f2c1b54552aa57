import NebulaIM.Services.Runs
import NebulaIM.Backend.Offline

/-!
# Offline copies of recalled messages

The original and the recall of a message share one row of `offline_messages` for
each recipient.  What `saveOffline` of the recall leaves in that row depends on
what came before, and it lasts until the next acknowledgement or until a copy of
the original is saved once more.
-/

namespace NebulaIM.Push

open Foundation Foundation.Store
open Backend Protocol Services
open Foundation.Wire (Bytes)

variable {w : World} {userId messageId : UInt64} {unit : Nat × List Write}
variable {before after : Option OfflineMessage} {row : OfflineMessage}
variable {config : Config}

/-- The payload is a message marked as recalled. -/
def CarriesRecall (payload : Bytes) : Prop :=
  ∃ message, MessageData.parse payload = (message, true) ∧ message.recalled = true

/-- The unit of work of an `AckMessage` that acknowledges the copy. -/
def AcksCopy (unit : Nat × List Write) (userId messageId : UInt64) : Prop :=
  ∃ receipt writes row, unit.2 = .putReceipt receipt :: writes ∧
    .putOffline row ∈ writes ∧ (row.userId, row.messageId) = (userId, messageId)

/-- The unit of work of a `saveOffline` that stores a copy without the recall. -/
def SavesOriginal (unit : Nat × List Write) (userId messageId : UInt64) : Prop :=
  ∃ row, unit.2 = [.putOffline row] ∧ (row.userId, row.messageId) = (userId, messageId) ∧
    row.status = .unread ∧ ¬ CarriesRecall row.payload

/-! ## The row of a copy -/

/-- What one unit of work does to one offline copy. -/
inductive CopyChange (userId messageId : UInt64) (unit : Nat × List Write)
    (before after : Option OfflineMessage) : Prop
  | same (h : after = before)
  | saved (row : OfflineMessage) (message : MessageData) (now : Int64)
      (hunit : unit.2 = [.putOffline row])
      (hkey : (row.userId, row.messageId) = (userId, messageId))
      (hrow : row = match before with
        | none => offlineCopy userId message now
        | some old => old.upsert (offlineCopy userId message now))
      (hafter : after = some row)
  | pulled (row : OfflineMessage) (now : Int64) (hbefore : before = some row)
      (hpullable : row.Pullable)
      (hafter : after = some { row with status := .pulled, updatedAt := now })
  | acked (row : OfflineMessage) (now : Int64)
      (hunit : AcksCopy unit userId messageId) (hbefore : before = some row)
      (hafter : after = some { row with status := .acked, updatedAt := now })

theorem copyChange_of_work (hkeyed : w.db.Keyed) {client : Nat} {writes : List Write}
    (hwork : Work config w client writes) (userId messageId : UInt64) :
    CopyChange userId messageId (client, writes) (w.db.offline.lookup (userId, messageId))
      ((applyAll (D := dialect) w.db writes).offline.lookup (userId, messageId)) := by
  have hkept : .removeOffline userId messageId ∉ writes := by
    cases hwork <;> simp
  obtain ⟨hsame, _⟩ | ⟨row, hmem, hkey, hafter⟩ :=
    lookup_offline_applyAll w.db writes (userId, messageId) hkept
  · exact .same hsame
  cases hwork with
  | @saveOffline user message now wellFormed =>
    rw [List.mem_singleton, Write.putOffline.injEq] at hmem
    have hsaved := savedAs_savedOffline hkeyed user message now
    rw [← hmem] at hsaved
    obtain ⟨huser, hmessage⟩ := Prod.mk.inj hkey
    obtain rfl : user = userId := hsaved.userId_eq.symm.trans huser
    have hcopy : (offlineCopy user message now).messageId = messageId :=
      (messageForRecipient_messageId user message).trans (hsaved.messageId_eq.symm.trans hmessage)
    refine .saved row message now (by rw [hmem]) hkey ?_ hafter
    rw [hmem, Db.savedOffline, hcopy]
    rfl
  | pull rows now pullable =>
    simp only [List.mem_map, Write.putOffline.injEq] at hmem
    obtain ⟨old, hold, rfl⟩ := hmem
    obtain ⟨hbefore, hpullable⟩ := pullable old hold
    exact .pulled old now (hkey ▸ hbefore) hpullable hafter
  | ack receipt rows now present =>
    simp only [List.mem_cons, reduceCtorEq, List.mem_map, Write.putOffline.injEq, false_or] at hmem
    obtain ⟨old, hold, rfl⟩ := hmem
    refine .acked old now ⟨receipt, _, _, rfl, List.mem_map.mpr ⟨old, hold, rfl⟩,
      hkey⟩ (hkey ▸ present old hold) hafter
  | _ => simp at hmem

/-! ## Copies of the recall -/

/-- The copy is pullable and tells the recipient of the recall. -/
def ShowsRecall (row : OfflineMessage) : Prop := row.Pullable ∧ CarriesRecall row.payload

theorem upsert_acked {old new : OfflineMessage} (h : old.status = .acked) :
    old.upsert new = old := by
  simp [OfflineMessage.upsert, h]

theorem upsert_open {old new : OfflineMessage} (h : old.status ≠ .acked)
    (hnew : new.status ≠ .acked) :
    old.upsert new =
      { old with
        payload := new.payload, status := new.status,
        updatedAt := new.updatedAt } := by
  simp [OfflineMessage.upsert, h, hnew]

theorem CopyChange.showsRecall (h : CopyChange userId messageId unit before after)
    (hbefore : before = some row) (hshows : ShowsRecall row)
    (hacks : ¬ AcksCopy unit userId messageId) (hsaves : ¬ SavesOriginal unit userId messageId) :
    ∃ row', after = some row' ∧ ShowsRecall row' := by
  subst hbefore
  cases h with
  | same h => exact ⟨row, h, hshows⟩
  | acked _ _ hunit _ _ => exact absurd hunit hacks
  | pulled old now hold _ hafter =>
    cases hold
    exact ⟨_, hafter, by simp [OfflineMessage.Pullable], hshows.2⟩
  | saved new message now hunit hkey hrow hafter =>
    have hopen : row.status ≠ .acked := by
      intro hstatus
      have hpullable := hshows.1
      simp [OfflineMessage.Pullable, hstatus] at hpullable
    have hnew := hrow.trans (upsert_open hopen (by simp [offlineCopy]))
    have hstatus : new.status = .unread := by rw [hnew]; rfl
    refine ⟨new, hafter, by simp [OfflineMessage.Pullable, hstatus], ?_⟩
    by_contra hplain
    exact hsaves ⟨new, hunit, hkey, hstatus, hplain⟩

theorem CopyChange.acked_kept (h : CopyChange userId messageId unit before after)
    (hbefore : before = some row) (hacked : row.status = .acked) :
    ∃ row', after = some row' ∧ row'.status = .acked ∧ row'.payload = row.payload := by
  subst hbefore
  cases h with
  | same h => exact ⟨row, h, hacked, rfl⟩
  | acked old now _ hold hafter =>
    cases hold
    exact ⟨_, hafter, rfl, rfl⟩
  | pulled old now hold hpullable _ =>
    cases hold
    simp [OfflineMessage.Pullable, hacked] at hpullable
  | saved new message now _ _ hrow hafter =>
    have hnew := hrow.trans (upsert_acked hacked)
    exact ⟨new, hafter, by rw [hnew]; exact hacked, by rw [hnew]⟩

theorem CopyChange.acked_logged (h : CopyChange userId messageId unit before after)
    (hafter : after = some row) (hacked : row.status = .acked) :
    AcksCopy unit userId messageId ∨ ∃ old, before = some old ∧ old.status = .acked := by
  cases h with
  | same h => exact .inr ⟨row, h ▸ hafter, hacked⟩
  | acked _ _ hunit _ _ => exact .inl hunit
  | pulled old now _ _ hpulled =>
    rw [hpulled] at hafter
    cases hafter
    cases hacked
  | saved new message now _ _ hrow hsaved =>
    obtain rfl : new = row := Option.some.inj (hsaved.symm.trans hafter)
    cases before with
    | none =>
      rw [hrow] at hacked
      cases hacked
    | some old =>
      refine .inr ⟨old, rfl, ?_⟩
      by_contra hopen
      have hnew := hrow.trans (upsert_open hopen (by simp [offlineCopy]))
      rw [hnew] at hacked
      cases hacked

/-- How the log explains the current copy of a message for a user. -/
structure CopyHistory (userId messageId : UInt64) (w : World) : Prop where
  logged : ∀ {row}, w.db.offline.lookup (userId, messageId) = some row →
    row.status = .acked → ∃ unit ∈ w.log, AcksCopy unit userId messageId
  acked : ∀ {later client row earlier}, w.log = later ++ (client, [.putOffline row]) :: earlier →
    (row.userId, row.messageId) = (userId, messageId) → row.status = .acked →
    (∃ unit ∈ earlier, AcksCopy unit userId messageId) ∧
      ∃ row', w.db.offline.lookup (userId, messageId) = some row' ∧
        row'.status = .acked ∧ row'.payload = row.payload
  shows : ∀ {later client row earlier}, w.log = later ++ (client, [.putOffline row]) :: earlier →
    (row.userId, row.messageId) = (userId, messageId) → ShowsRecall row →
    (∀ unit ∈ later, ¬ AcksCopy unit userId messageId ∧ ¬ SavesOriginal unit userId messageId) →
    ∃ row', w.db.offline.lookup (userId, messageId) = some row' ∧ ShowsRecall row'

theorem CopyHistory.of_same {w' : World} (h : CopyHistory userId messageId w)
    (hoffline : w'.db.offline = w.db.offline) (hlog : w'.log = w.log) :
    CopyHistory userId messageId w' where
  logged hrow := hlog ▸ h.logged (hoffline ▸ hrow)
  acked hsplit := hoffline ▸ h.acked (hlog ▸ hsplit)
  shows hsplit := hoffline ▸ h.shows (hlog ▸ hsplit)

theorem lookup_putOffline {db : Db} (hkey : (row.userId, row.messageId) = (userId, messageId)) :
    (applyAll (D := dialect) db [.putOffline row]).offline.lookup
      (userId, messageId) = some row := by
  rw [← hkey]
  exact AList.lookup_insert db.offline

theorem CopyHistory.work {w' : World} {client : Nat} {writes : List Write}
    (h : CopyHistory userId messageId w) (hkeyed : w.db.Keyed) (hwork : Work config w client writes)
    (hdb : w'.db = applyAll (D := dialect) w.db writes)
    (hlog : w'.log = (client, writes) :: w.log) : CopyHistory userId messageId w' := by
  have hchange := copyChange_of_work hkeyed hwork userId messageId
  rw [← hdb] at hchange
  constructor
  case logged =>
    intro row hrow hacked
    rw [hlog]
    obtain hunit | ⟨old, hold, hstatus⟩ := hchange.acked_logged hrow hacked
    · exact ⟨_, List.mem_cons_self, hunit⟩
    · obtain ⟨unit, hmem, hacks⟩ := h.logged hold hstatus
      exact ⟨unit, List.mem_cons_of_mem _ hmem, hacks⟩
  case acked =>
    intro later other row earlier hsplit hkey hacked
    rw [hlog] at hsplit
    cases later with
    | nil =>
      cases hsplit
      have hrow := hdb ▸ lookup_putOffline hkey
      refine ⟨?_, row, hrow, hacked, rfl⟩
      obtain ⟨_, _, _, hunit, _⟩ | ⟨old, hold, hstatus⟩ := hchange.acked_logged hrow hacked
      · cases hunit
      · exact h.logged hold hstatus
    | cons unit later =>
      rw [List.cons_append, List.cons.injEq] at hsplit
      obtain ⟨hearlier, old, hold, hstatus, hpayload⟩ := h.acked hsplit.2 hkey hacked
      obtain ⟨row', hrow', hstatus', hpayload'⟩ := hchange.acked_kept hold hstatus
      exact ⟨hearlier, row', hrow', hstatus', hpayload'.trans hpayload⟩
  case shows =>
    intro later other row earlier hsplit hkey hshows hlater
    rw [hlog] at hsplit
    cases later with
    | nil =>
      cases hsplit
      exact ⟨row, hdb ▸ lookup_putOffline hkey, hshows⟩
    | cons unit later =>
      rw [List.cons_append, List.cons.injEq] at hsplit
      obtain ⟨rfl, hsplit⟩ := hsplit
      obtain ⟨old, hold, hold'⟩ := h.shows hsplit hkey hshows
        fun unit hunit => hlater unit (List.mem_cons_of_mem _ hunit)
      obtain ⟨hacks, hsaves⟩ := hlater _ List.mem_cons_self
      exact hchange.showsRecall hold hold' hacks hsaves

theorem CopyHistory.reachable {pool : Pool} (hpool : Reachable config pool)
    (userId messageId : UInt64) : CopyHistory userId messageId pool.world := by
  refine hpool.induct ?_ ?_ ?_
  · intro start hstart
    obtain ⟨⟨users, friendships, hsql⟩, _, _, _⟩ := hstart
    constructor
    case logged =>
      intro row hrow
      simp only [World.db, hsql] at hrow
      cases hrow
    all_goals
      intro later client row earlier hsplit
      simp only [World.log, hsql] at hsplit
      exact absurd hsplit.symm (by simp)
  · intro tid w w' hinv _ h hstep
    obtain ⟨hdb, hlog⟩ | ⟨writes, hwork, hdb, hlog, _, _⟩ := hstep.effect
    · exact h.of_same (by rw [hdb]) hlog
    · exact h.work hinv.keyed hwork hdb hlog
  · intro w event h
    cases event with
    | redis key value => cases value <;> exact h.of_same rfl rfl
    | _ => exact h.of_same rfl rfl

/-! ## Saved recalls -/

theorem carriesRecall_copy (userId : UInt64) {message : MessageData}
    (hwellFormed : message.WellFormed) (hrecalled : message.recalled = true) :
    CarriesRecall (messageForRecipient userId message).serialize := by
  refine ⟨messageForRecipient userId message, MessageData.parse_serialize ?_, ?_⟩
  · unfold messageForRecipient
    split <;> exact hwellFormed
  · unfold messageForRecipient
    split <;> exact hrecalled

/-- What a saved copy of the recall guarantees from then on. -/
def RecallKept (tid : Nat) (userId messageId : UInt64) (w : World) : Prop :=
  ∃ later row earlier, w.log = later ++ (tid, [.putOffline row]) :: earlier ∧
    (row.userId, row.messageId) = (userId, messageId) ∧
    -- acknowledged before: the copy stays acknowledged, with its payload
    ((∃ unit ∈ earlier, AcksCopy unit userId messageId) ∧
        (∃ current, w.db.offline.lookup (userId, messageId) = some current ∧
          current.status = .acked ∧ current.payload = row.payload) ∨
      ShowsRecall row ∧
        ((∀ unit ∈ later, ¬ AcksCopy unit userId messageId ∧
            ¬ SavesOriginal unit userId messageId) →
          ∃ current, w.db.offline.lookup (userId, messageId) = some current ∧ ShowsRecall current))

def savesCopy (userId : UInt64) (message : MessageData) : Request → Bool
  | .saveOffline user copy _ => user = userId && copy = message
  | _ => false

/--
After `saveOffline` of a recall has returned `true`: the recipient had acknowledged
the message before, or the copy is pullable and carries the recall until the next
acknowledgement, unless a copy of the original is saved again.
-/
theorem recall_kept {pool : Pool} (hpool : Reachable config pool) {tid : Nat} {userId : UInt64}
    {message : MessageData} (hrequest : (pool.request tid).any (savesCopy userId message) = true)
    (hreply : pool.reply tid = some (.saved true)) (hrecalled : message.recalled = true) :
    RecallKept tid userId message.messageId pool.world := by
  obtain ⟨request, hrequest, hsaves⟩ := (Option.any_eq_true _ _).mp hrequest
  obtain ⟨wellFormed, rfl⟩ : ∃ wellFormed, request = .saveOffline userId message wellFormed := by
    cases request with
    | saveOffline user copy wellFormed =>
      simp only [savesCopy, Bool.and_eq_true, decide_eq_true_eq] at hsaves
      obtain ⟨rfl, rfl⟩ := hsaves
      exact ⟨wellFormed, rfl⟩
    | _ => cases hsaves
  obtain ⟨_, hpost⟩ := hpool.answer hrequest hreply
  obtain ⟨row, hmem, hsaved⟩ : SavedBy tid userId message pool.world := hpost rfl
  obtain ⟨later, earlier, hsplit⟩ := List.append_of_mem hmem
  have hkey : (row.userId, row.messageId) = (userId, message.messageId) :=
    Prod.ext hsaved.userId_eq hsaved.messageId_eq
  have hhistory := CopyHistory.reachable hpool userId message.messageId
  refine ⟨later, row, earlier, hsplit, hkey, ?_⟩
  by_cases hacked : row.status = .acked
  · exact .inl (hhistory.acked hsplit hkey hacked)
  · obtain ⟨hstatus, hpayload⟩ := hsaved.copied hacked
    have hshows : ShowsRecall row := by
      refine ⟨by simp [OfflineMessage.Pullable, hstatus], ?_⟩
      rw [hpayload]
      exact carriesRecall_copy userId wellFormed hrecalled
    exact .inr ⟨hshows, hhistory.shows hsplit hkey hshows⟩

/-! ### The message of `greeting` and its recall -/

def greetingCopy : MessageData :=
  { messageId := 42, fromUserId := 1, toUserId := 2, content := [104, 105] }

def saveOriginal : Request := .saveOffline 2 greetingCopy (by decide)

def saveRecall : Request := .saveOffline 2 { greetingCopy with recalled := true } (by decide)

def recallSaved : Pool :=
  (services {}).run twoFriends
    ([.spawn saveOriginal, .spawn saveRecall] ++
      List.replicate 2 (.step 0 {}) ++ List.replicate 2 (.step 1 {}))

theorem recallSaved_kept : RecallKept 1 2 42 recallSaved.world := by
  have hreachable : Reachable {} recallSaved := ⟨twoFriends, _, twoFriends_initial, rfl⟩
  have hrequest : (recallSaved.request 1).any
      (savesCopy 2 { greetingCopy with recalled := true }) = true := by
    decide +kernel
  exact recall_kept hreachable hrequest (by decide +kernel) rfl

def recallAfterAck : Pool :=
  (services {}).run twoFriends
    (.spawn greeting :: List.replicate 20 (.step 0 { id := 42, clock := 5 }) ++
      [.spawn saveOriginal, .spawn (.ackMessage {} { userId := 2, messageId := 42 }),
        .spawn saveRecall] ++
      List.replicate 2 (.step 1 {}) ++ List.replicate 20 (.step 2 {}) ++
      List.replicate 2 (.step 3 {}))

theorem recallAfterAck_hidden :
    Reachable {} recallAfterAck ∧ recallAfterAck.reply 3 = some (.saved true) ∧
      (recallAfterAck.world.db.offline.lookup (2, 42)).map
        (fun row => decide row.Pullable) = some false := by
  refine ⟨⟨twoFriends, _, twoFriends_initial, rfl⟩, ?_, ?_⟩
  · decide +kernel
  · decide +kernel

end NebulaIM.Push
