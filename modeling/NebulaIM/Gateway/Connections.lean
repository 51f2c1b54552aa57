import NebulaIM.Foundation.Nested
import NebulaIM.Gateway.Router
import NebulaIM.Protocol.Identifiers
import Mathlib.Data.Set.Card

/-!
# The connection manager

`ConnectionManager` keeps the connections of a gateway, their contexts and an
index from users and devices to connections.  The model carries out the calls
one at a time, as the mutex does; `bindUser` hands out the connection that has to
be closed.
-/

namespace NebulaIM.Gateway

open Foundation.Store (Nested Table)
open Foundation.Wire (Bytes)
open Protocol

/-- A context with the fields that only the connection manager uses. -/
structure TrackedContext extends ConnectionContext where
  websocket : Bool := false
  connectedAtMs : Int64 := 0
  lastActiveMs : Int64 := 0
  peerAddr : Bytes := []
  deriving DecidableEq, Repr

variable {id : Bytes} {ctx : TrackedContext}

/-- `Conn` is the type of the connection objects; a null pointer is `none`. -/
structure ConnectionManager (Conn : Type) where
  gatewayId : Bytes := lit "gateway-1"
  connections : Table Bytes (Option Conn) := ∅
  contexts : Table Bytes TrackedContext := ∅
  userDeviceToConnection : Nested UInt64 Bytes Bytes := ∅
  /-- A `uint64_t`, without its wrap after 2⁶⁴ connections. -/
  nextConnId : Nat := 1

namespace ConnectionManager

variable {Conn : Type} (m : ConnectionManager Conn)

def generateConnectionId : Bytes := m.gatewayId ++ lit "-conn-" ++ decimal m.nextConnId

def addConnection (conn : Option Conn) (peerAddr : Bytes) (now : Int64) :
    ConnectionManager Conn × Bytes :=
  let id := m.generateConnectionId
  let ctx : TrackedContext :=
    { connectionId := id, connectedAtMs := now, lastActiveMs := now, peerAddr }
  ({ m with
    nextConnId := m.nextConnId + 1
    connections := m.connections.insert id conn
    contexts := m.contexts.insert id ctx }, id)

/-- The index without a connection that goes away. -/
def withoutConnection (connectionId : Bytes) : Nested UInt64 Bytes Bytes :=
  match m.contexts.lookup connectionId with
  | some ctx =>
    if ctx.userId ≠ 0 then
      m.userDeviceToConnection.drop ctx.userId ctx.deviceId connectionId
    else m.userDeviceToConnection
  | none => m.userDeviceToConnection

def removeConnection (connectionId : Bytes) : ConnectionManager Conn :=
  { m with
    userDeviceToConnection := m.withoutConnection connectionId
    contexts := m.contexts.erase connectionId
    connections := m.connections.erase connectionId }

/-- The index without the entry of the connection's present binding. -/
def released (connectionId : Bytes) (ctx : TrackedContext) :
    Nested UInt64 Bytes Bytes :=
  if ctx.userId ≠ 0 ∧ ctx.deviceId ≠ [] then
    m.userDeviceToConnection.drop ctx.userId ctx.deviceId connectionId
  else m.userDeviceToConnection

/-- The connection whose place is taken, if there is one. -/
def replacedBy (index : Nested UInt64 Bytes Bytes) (connectionId : Bytes)
    (userId : UInt64) (deviceId : Bytes) : Option Conn :=
  match index.find userId deviceId with
  | some existing =>
    if existing ≠ connectionId then (m.connections.lookup existing).join
    else none
  | none => none

/-- The last component is the connection on which `forceClose` is called. -/
def bindUser (connectionId : Bytes) (userId : UInt64)
    (token deviceId platform : Bytes) (now : Int64) :
    ConnectionManager Conn × Bool × Option Conn :=
  if userId = 0 ∨ deviceId = [] then (m, false, none)
  else
    match m.contexts.lookup connectionId with
    | none => (m, false, none)
    | some ctx =>
      let index := m.released connectionId ctx
      let bound : TrackedContext := { ctx with
        userId, token, deviceId, platform
        authenticated := true
        lastActiveMs := now }
      ({ m with
        contexts := m.contexts.insert connectionId bound
        userDeviceToConnection := index.put userId deviceId connectionId },
        true, m.replacedBy index connectionId userId deviceId)

def markWebSocket (connectionId : Bytes) (websocket : Bool) : ConnectionManager Conn × Bool :=
  ({ m with contexts := m.contexts.modify connectionId fun ctx =>
      { ctx with websocket } }, (m.contexts.lookup connectionId).isSome)

def updateActiveTime (connectionId : Bytes) (now : Int64) : ConnectionManager Conn × Bool :=
  ({ m with contexts := m.contexts.modify connectionId fun ctx =>
      { ctx with lastActiveMs := now } }, (m.contexts.lookup connectionId).isSome)

def getContext (connectionId : Bytes) : Option TrackedContext := m.contexts.lookup connectionId

/-- A null pointer and a missing entry look alike. -/
def getConnection (connectionId : Bytes) : Option Conn := (m.connections.lookup connectionId).join

def onlineUserCount : Nat := m.userDeviceToConnection.keys.length

def bound (userId : UInt64) (deviceId : Bytes) : Option Bytes :=
  m.userDeviceToConnection.find userId deviceId

end ConnectionManager

/-! ## Runs -/

inductive ManagerCall (Conn : Type) where
  | addConnection (conn : Option Conn) (peerAddr : Bytes) (now : Int64)
  | removeConnection (connectionId : Bytes)
  | bindUser (connectionId : Bytes) (userId : UInt64)
      (token deviceId platform : Bytes) (now : Int64)
  | markWebSocket (connectionId : Bytes) (websocket : Bool)
  | updateActiveTime (connectionId : Bytes) (now : Int64)

/-- The manager, and the connections on which `forceClose` has been called. -/
structure Managed (Conn : Type) where
  manager : ConnectionManager Conn := {}
  forceClosed : List Conn := []

namespace Managed

variable {Conn : Type}

def step (s : Managed Conn) : ManagerCall Conn → Managed Conn
  | .addConnection conn peerAddr now =>
    { s with manager := (s.manager.addConnection conn peerAddr now).1 }
  | .removeConnection connectionId => { s with manager := s.manager.removeConnection connectionId }
  | .bindUser connectionId userId token deviceId platform now =>
    let (manager, _, replaced) := s.manager.bindUser connectionId userId token deviceId platform now
    ⟨manager, replaced.toList ++ s.forceClosed⟩
  | .markWebSocket connectionId websocket =>
    { s with manager := (s.manager.markWebSocket connectionId websocket).1 }
  | .updateActiveTime connectionId now =>
    { s with manager := (s.manager.updateActiveTime connectionId now).1 }

def run (s : Managed Conn) (calls : List (ManagerCall Conn)) : Managed Conn := calls.foldl step s

end Managed

/-! ## The invariant -/

structure Consistent {Conn : Type} (s : Managed Conn) : Prop where
  keys : ∀ id, (s.manager.connections.lookup id).isSome = (s.manager.contexts.lookup id).isSome
  named : ∀ {id ctx}, s.manager.contexts.lookup id = some ctx → ∃ n < s.manager.nextConnId,
      id = s.manager.gatewayId ++ lit "-conn-" ++ decimal n
  full : s.manager.userDeviceToConnection.Full
  indexed : ∀ {userId deviceId id}, s.manager.bound userId deviceId = some id →
    ∃ ctx, s.manager.contexts.lookup id = some ctx ∧ ctx.authenticated = true ∧
      ctx.userId = userId ∧ ctx.deviceId = deviceId
  /-- A context is bound to a user and a device together, or not at all. -/
  identity : ∀ {id ctx}, s.manager.contexts.lookup id = some ctx →
    if ctx.authenticated then ctx.userId ≠ 0 ∧ ctx.deviceId ≠ []
    else ctx.userId = 0
  held : ∀ {id ctx}, s.manager.contexts.lookup id = some ctx → ctx.authenticated = true →
    s.manager.bound ctx.userId ctx.deviceId = some id ∨
      ∀ conn, s.manager.getConnection id = some conn → conn ∈ s.forceClosed

namespace Consistent

variable {Conn : Type} {s : Managed Conn}

theorem initial (gatewayId : Bytes) : Consistent ({ manager := { gatewayId } } : Managed Conn) where
  keys _ := rfl
  named h := nomatch h
  full := .empty
  indexed h := nomatch h
  identity h := nomatch h
  held h := nomatch h

variable (h : Consistent s)

include h

theorem find_drop (hctx : s.manager.contexts.lookup id = some ctx)
    (userId : UInt64) (deviceId : Bytes) :
    (s.manager.userDeviceToConnection.drop ctx.userId ctx.deviceId id).find userId deviceId =
      if s.manager.bound userId deviceId = some id then none
      else s.manager.bound userId deviceId := by
  rw [Nested.find_drop]
  by_cases hbound : s.manager.bound userId deviceId = some id
  · obtain ⟨ctx', hctx', _, rfl, rfl⟩ := h.indexed hbound
    cases hctx.symm.trans hctx'
    rw [if_pos ⟨rfl, rfl, hbound⟩, if_pos hbound]
  · rw [if_neg hbound, if_neg]
    · rfl
    · rintro ⟨rfl, rfl, hfind⟩
      exact hbound hfind

theorem bound_ne_of_unbound (hctx : s.manager.contexts.lookup id = some ctx)
    (hunbound : ctx.userId = 0 ∨ ctx.deviceId = []) (userId : UInt64) (deviceId : Bytes) :
    s.manager.bound userId deviceId ≠ some id := by
  intro hbound
  obtain ⟨ctx', hctx', hauthenticated, _, _⟩ := h.indexed hbound
  cases hctx.symm.trans hctx'
  have hidentity := h.identity hctx
  rw [if_pos hauthenticated] at hidentity
  exact hunbound.elim hidentity.1 hidentity.2

theorem find_released (hctx : s.manager.contexts.lookup id = some ctx)
    (userId : UInt64) (deviceId : Bytes) :
    (s.manager.released id ctx).find userId deviceId =
      if s.manager.bound userId deviceId = some id then none
      else s.manager.bound userId deviceId := by
  rw [ConnectionManager.released]
  split
  · exact h.find_drop hctx userId deviceId
  · next hunbound =>
    rw [if_neg]
    · rfl
    · refine h.bound_ne_of_unbound hctx ?_ userId deviceId
      by_contra hboth
      exact hunbound (not_or.mp hboth)

/-! ### The calls -/

theorem addConnection (conn : Option Conn) (peerAddr : Bytes)
    (now : Int64) : Consistent (s.step (.addConnection conn peerAddr now)) := by
  have hfresh {ctx : TrackedContext} :
      s.manager.contexts.lookup s.manager.generateConnectionId ≠ some ctx := by
    intro hctx
    obtain ⟨n, hn, hname⟩ := h.named hctx
    have hsame := decimal_injective (List.append_cancel_left hname)
    omega
  constructor
  case keys =>
    intro id
    by_cases hid : id = s.manager.generateConnectionId
    · subst hid
      simp [Managed.step, ConnectionManager.addConnection]
    · simp [Managed.step, ConnectionManager.addConnection, hid, h.keys]
  case named =>
    intro id ctx hctx
    by_cases hid : id = s.manager.generateConnectionId
    · exact ⟨s.manager.nextConnId, Nat.lt_succ_self _, hid⟩
    · simp only [Managed.step, ConnectionManager.addConnection, AList.lookup_insert_ne hid] at hctx
      obtain ⟨n, hn, hname⟩ := h.named hctx
      exact ⟨n, Nat.lt_succ_of_lt hn, hname⟩
  case full => exact h.full
  case indexed =>
    intro userId deviceId id hbound
    obtain ⟨ctx, hctx, hrest⟩ := h.indexed hbound
    have hid : id ≠ s.manager.generateConnectionId := by
      rintro rfl
      exact hfresh hctx
    exact ⟨ctx, (AList.lookup_insert_ne hid).trans hctx, hrest⟩
  case identity =>
    intro id ctx hctx
    by_cases hid : id = s.manager.generateConnectionId
    · subst hid
      simp only [Managed.step, ConnectionManager.addConnection,
        AList.lookup_insert, Option.some.injEq] at hctx
      subst hctx
      rfl
    · simp only [Managed.step, ConnectionManager.addConnection, AList.lookup_insert_ne hid] at hctx
      exact h.identity hctx
  case held =>
    intro id ctx hctx hauthenticated
    by_cases hid : id = s.manager.generateConnectionId
    · subst hid
      simp only [Managed.step, ConnectionManager.addConnection,
        AList.lookup_insert, Option.some.injEq] at hctx
      subst hctx
      cases hauthenticated
    · simp only [Managed.step, ConnectionManager.addConnection, AList.lookup_insert_ne hid] at hctx
      refine (h.held hctx hauthenticated).imp_right fun hclosed conn' hconn => ?_
      simp only [Managed.step, ConnectionManager.addConnection,
        ConnectionManager.getConnection, AList.lookup_insert_ne hid] at hconn
      exact hclosed conn' hconn

theorem modify (target : Bytes) {f : TrackedContext → TrackedContext}
    (hf : ∀ ctx, (f ctx).authenticated = ctx.authenticated ∧
      (f ctx).userId = ctx.userId ∧ (f ctx).deviceId = ctx.deviceId) :
    Consistent { s with manager := { s.manager with
      contexts := s.manager.contexts.modify target f } } := by
  have hold {id : Bytes} {ctx : TrackedContext}
      (hctx : (s.manager.contexts.modify target f).lookup id = some ctx) :
      ∃ old, s.manager.contexts.lookup id = some old ∧
        ctx.authenticated = old.authenticated ∧ ctx.userId = old.userId ∧
        ctx.deviceId = old.deviceId := by
    by_cases hid : id = target
    · subst hid
      rw [Table.lookup_modify_self] at hctx
      obtain ⟨old, hold, rfl⟩ := Option.map_eq_some_iff.mp hctx
      exact ⟨old, hold, hf old⟩
    · rw [Table.lookup_modify_ne f hid] at hctx
      exact ⟨ctx, hctx, rfl, rfl, rfl⟩
  constructor
  case keys =>
    intro id
    by_cases hid : id = target
    · subst hid
      simp [h.keys]
    · simp only [Table.lookup_modify_ne f hid, h.keys]
  case named =>
    intro id ctx hctx
    obtain ⟨old, hold, _⟩ := hold hctx
    exact h.named hold
  case full => exact h.full
  case indexed =>
    intro userId deviceId id hbound
    obtain ⟨ctx, hctx, hauthenticated, huser, hdevice⟩ := h.indexed hbound
    by_cases hid : id = target
    · subst hid
      obtain ⟨hauthenticated', huser', hdevice'⟩ := hf ctx
      refine ⟨f ctx, ?_, hauthenticated'.trans hauthenticated, huser'.trans huser,
        hdevice'.trans hdevice⟩
      rw [Table.lookup_modify_self, hctx]
      rfl
    · exact ⟨ctx, (Table.lookup_modify_ne f hid).trans hctx, hauthenticated, huser, hdevice⟩
  case identity =>
    intro id ctx hctx
    obtain ⟨old, hold, hauthenticated, huser, hdevice⟩ := hold hctx
    rw [hauthenticated, huser, hdevice]
    exact h.identity hold
  case held =>
    intro id ctx hctx hauthenticated
    obtain ⟨old, hold, hauthenticated', huser, hdevice⟩ := hold hctx
    have hheld := h.held hold (hauthenticated' ▸ hauthenticated)
    rw [huser, hdevice]
    exact hheld

theorem find_withoutConnection (target : Bytes) (userId : UInt64) (deviceId : Bytes) :
    (s.manager.withoutConnection target).find userId deviceId =
      if s.manager.bound userId deviceId = some target then none
      else s.manager.bound userId deviceId := by
  rw [ConnectionManager.withoutConnection]
  cases hctx : s.manager.contexts.lookup target with
  | none =>
    rw [if_neg]
    · rfl
    · intro hbound
      obtain ⟨ctx, hctx', _⟩ := h.indexed hbound
      rw [hctx] at hctx'
      cases hctx'
  | some ctx =>
    dsimp only
    split
    · exact h.find_drop hctx userId deviceId
    · next hzero =>
      rw [if_neg]
      · rfl
      · exact h.bound_ne_of_unbound hctx (.inl (not_not.mp hzero)) userId deviceId

theorem removeConnection (target : Bytes) : Consistent (s.step (.removeConnection target)) := by
  have hother {id : Bytes} {ctx : TrackedContext}
      (hctx : (s.manager.contexts.erase target).lookup id = some ctx) :
      id ≠ target ∧ s.manager.contexts.lookup id = some ctx := by
    by_cases hid : id = target
    · subst hid
      rw [AList.lookup_erase] at hctx
      cases hctx
    · exact ⟨hid, (AList.lookup_erase_ne hid).symm.trans hctx⟩
  have hbound := h.find_withoutConnection target
  constructor
  case keys =>
    intro id
    by_cases hid : id = target
    · subst hid
      simp [Managed.step, ConnectionManager.removeConnection]
    · simp [Managed.step, ConnectionManager.removeConnection, AList.lookup_erase_ne hid, h.keys]
  case named => exact fun hctx => h.named (hother hctx).2
  case full =>
    change (s.manager.withoutConnection target).Full
    rw [ConnectionManager.withoutConnection]
    split
    · split
      · exact h.full.drop _ _ _
      · exact h.full
    · exact h.full
  case indexed =>
    intro userId deviceId id hid
    have hcases := (hbound userId deviceId).symm.trans hid
    split at hcases
    · cases hcases
    · next hne =>
      obtain ⟨ctx, hctx, hrest⟩ := h.indexed hcases
      have hid : id ≠ target := by
        rintro rfl
        exact hne hcases
      exact ⟨ctx, (AList.lookup_erase_ne hid).trans hctx, hrest⟩
  case identity => exact fun hctx => h.identity (hother hctx).2
  case held =>
    intro id ctx hctx hauthenticated
    obtain ⟨hid, hctx⟩ := hother hctx
    rcases h.held hctx hauthenticated with hheld | hclosed
    · refine .inl ((hbound _ _).trans ?_)
      rw [if_neg, hheld]
      rw [hheld]
      exact fun heq => hid (Option.some.inj heq)
    · refine .inr fun conn hconn => hclosed conn ?_
      simpa [Managed.step, ConnectionManager.removeConnection,
        ConnectionManager.getConnection, AList.lookup_erase_ne hid] using hconn

theorem bindUser (target : Bytes) (userId : UInt64)
    (token deviceId platform : Bytes) (now : Int64) :
    Consistent (s.step (.bindUser target userId token deviceId platform now)) := by
  simp only [Managed.step, ConnectionManager.bindUser]
  split
  · exact h
  next hvalid =>
  cases hctx : s.manager.contexts.lookup target with
  | none => exact h
  | some ctx =>
  dsimp only
  have hbound (user : UInt64) (device : Bytes) :
      ((s.manager.released target ctx).put userId deviceId target).find user device =
        if user = userId ∧ device = deviceId then some target
        else if s.manager.bound user device = some target then none
        else s.manager.bound user device := by
    rw [Nested.find_put, h.find_released hctx]
  constructor
  case keys =>
    intro id
    by_cases hid : id = target
    · subst hid
      simp [h.keys, hctx]
    · simp [hid, h.keys]
  case named =>
    intro id ctx' hctx'
    by_cases hid : id = target
    · subst hid
      exact h.named hctx
    · simp only [AList.lookup_insert_ne hid] at hctx'
      exact h.named hctx'
  case full =>
    refine Nested.Full.put ?_ _ _ _
    rw [ConnectionManager.released]
    split
    · exact h.full.drop _ _ _
    · exact h.full
  case indexed =>
    intro user device id hid
    have hcases := (hbound user device).symm.trans hid
    split at hcases
    · next hpair =>
      cases hcases
      exact ⟨_, AList.lookup_insert _, rfl, hpair.1.symm, hpair.2.symm⟩
    · split at hcases
      · cases hcases
      · next hne =>
        obtain ⟨ctx', hctx', hrest⟩ := h.indexed hcases
        have hid : id ≠ target := by
          rintro rfl
          exact hne hcases
        exact ⟨ctx', (AList.lookup_insert_ne hid).trans hctx', hrest⟩
  case identity =>
    intro id ctx' hctx'
    by_cases hid : id = target
    · subst hid
      simp only [AList.lookup_insert, Option.some.injEq] at hctx'
      subst hctx'
      exact not_or.mp hvalid
    · simp only [AList.lookup_insert_ne hid] at hctx'
      exact h.identity hctx'
  case held =>
    intro id ctx' hctx' hauthenticated
    by_cases hid : id = target
    · subst hid
      simp only [AList.lookup_insert, Option.some.injEq] at hctx'
      subst hctx'
      exact .inl ((hbound _ _).trans (if_pos ⟨rfl, rfl⟩))
    · simp only [AList.lookup_insert_ne hid] at hctx'
      rcases h.held hctx' hauthenticated with hheld | hclosed
      · have hne : some id ≠ some target := fun heq => hid (Option.some.inj heq)
        by_cases hpair : ctx'.userId = userId ∧ ctx'.deviceId = deviceId
        · -- the place of this connection is taken
          refine .inr fun conn hconn => List.mem_append_left _ ?_
          rw [hpair.1, hpair.2] at hheld
          have hfound := h.find_released hctx userId deviceId
          rw [hheld, if_neg hne] at hfound
          rw [ConnectionManager.replacedBy, hfound]
          simp only [ne_eq, hid, not_false_eq_true, if_true]
          exact Option.mem_toList.mpr hconn
        · refine .inl ((hbound _ _).trans ?_)
          rw [if_neg hpair, hheld, if_neg hne]
      · exact .inr fun conn hconn => List.mem_append_right _ (hclosed conn hconn)

theorem step (call : ManagerCall Conn) : Consistent (s.step call) := by
  cases call with
  | addConnection conn peerAddr now => exact h.addConnection conn peerAddr now
  | removeConnection connectionId => exact h.removeConnection connectionId
  | bindUser connectionId userId token deviceId platform now =>
    exact h.bindUser connectionId userId token deviceId platform now
  | markWebSocket connectionId websocket
  | updateActiveTime connectionId now => exact h.modify connectionId fun _ => ⟨rfl, rfl, rfl⟩

theorem run (calls : List (ManagerCall Conn)) : Consistent (s.run calls) := by
  induction calls generalizing s with
  | nil => exact h
  | cons call calls ih => exact ih (h.step call)

/-! ### What it means for the index -/

theorem bound_inj {userId userId' : UInt64}
    {deviceId deviceId' : Bytes} (hbound : s.manager.bound userId deviceId = some id)
    (hbound' : s.manager.bound userId' deviceId' = some id) :
    userId = userId' ∧ deviceId = deviceId' := by
  obtain ⟨ctx, hctx, _, rfl, rfl⟩ := h.indexed hbound
  obtain ⟨ctx', hctx', _, rfl, rfl⟩ := h.indexed hbound'
  cases hctx.symm.trans hctx'
  exact ⟨rfl, rfl⟩

theorem onlineUserCount_eq : s.manager.onlineUserCount =
    Set.ncard {userId | ∃ deviceId id, s.manager.bound userId deviceId = some id} := by
  have husers : {userId | ∃ deviceId id,
      s.manager.bound userId deviceId = some id} =
        (s.manager.userDeviceToConnection.keys.toFinset : Set UInt64) := by
    ext userId
    rw [Finset.mem_coe, List.mem_toFinset, h.full.mem_keys_iff]
    rfl
  rw [husers, Set.ncard_coe_finset, List.toFinset_card_of_nodup
    s.manager.userDeviceToConnection.keys_nodup]
  rfl

end Consistent

/-- What holds of the connection manager after any sequence of calls. -/
theorem manager_consistent {Conn : Type} (gatewayId : Bytes) (calls : List (ManagerCall Conn)) :
    let s := Managed.run { manager := { gatewayId } } calls
    (∀ id, id ∈ s.manager.connections ↔ id ∈ s.manager.contexts) ∧
    (∀ userId deviceId id, s.manager.bound userId deviceId = some id →
      ∃ ctx, s.manager.getContext id = some ctx ∧ ctx.authenticated = true ∧
        ctx.userId = userId ∧ ctx.deviceId = deviceId) ∧
    (∀ userId userId' deviceId deviceId' id, s.manager.bound userId deviceId = some id →
      s.manager.bound userId' deviceId' = some id →
      userId = userId' ∧ deviceId = deviceId') ∧
    s.manager.userDeviceToConnection.Full ∧
    s.manager.onlineUserCount = Set.ncard
      {userId | ∃ deviceId id, s.manager.bound userId deviceId = some id} ∧
    ∀ id ctx, s.manager.getContext id = some ctx → ctx.authenticated = true →
      s.manager.bound ctx.userId ctx.deviceId = some id ∨
        ∀ conn, s.manager.getConnection id = some conn → conn ∈ s.forceClosed := by
  intro s
  have h : Consistent s := (Consistent.initial gatewayId).run calls
  refine ⟨fun id => ?_, fun _ _ _ => h.indexed, fun _ _ _ _ _ => h.bound_inj, h.full,
    h.onlineUserCount_eq, fun _ _ => h.held⟩
  rw [← AList.lookup_isSome, ← AList.lookup_isSome, h.keys]

end NebulaIM.Gateway
