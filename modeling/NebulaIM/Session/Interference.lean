import NebulaIM.Foundation.History
import NebulaIM.Session.System

/-!
# What the threads of the session services do to each other

Every call, whoever issues it, forgets no token key that was seen, sets no key a
second time, leaves a live token in its row or owes its deletion, and opens no
connection that has ended.  The only assumption is that no token key is set that was
seen before.  These facts are the rely relation of all threads, so a handler is verified
alone.
-/

namespace NebulaIM.Session

open Foundation
open Foundation.Store (Fault Table)
open Foundation.Wire (Bytes)
open TokenManager (hashKey tokenKey)
open Protocol

variable {row : UInt64 × Bytes} {tokenHash : Bytes}

theorem isTokenKey_hashKey (tokenHash : Bytes) : isTokenKey (hashKey tokenHash) = true := by
  simp [isTokenKey, hashKey]

theorem tokenHash_ne_nil (config : Config) (token : Bytes) :
    TokenManager.tokenHash config token ≠ [] := by
  intro h
  have hlength := congrArg List.length h
  simp [TokenManager.tokenHash, TokenManager.hexByte, List.length_flatMap] at hlength

theorem hashKey_injective : Function.Injective hashKey := by
  intro first second h
  exact List.append_cancel_left h

namespace World

def Owing (w : World) (key : Bytes) : Prop := ∃ client, key ∈ w.owed client

/-- A live token of the given hash stands in the row, or its deletion is owed. -/
def Covered (w : World) (row : UInt64 × Bytes) (tokenHash : Bytes) : Prop :=
  w.Holds (hashKey tokenHash) → w.storedHash row = tokenHash ∨ w.Owing (hashKey tokenHash)

/-- The connection of the given serial is not open. -/
def Ended (w : World) (place : Place) (serial : Nat) : Prop :=
  ∀ connection, w.connections.lookup place = some connection →
    connection.serial = serial → connection.connected = false

/-- A token key is only set if it was not seen before. -/
def SetsUnseen (w : World) : Op → Prop
  | .redis (.setEx key _ _) => isTokenKey key = true → key ∉ w.seen
  | _ => True

instance (w : World) (place : Place) (serial : Nat) : Decidable (w.Ended place serial) :=
  match h : w.connections.lookup place with
  | none => .isTrue fun connection hconnection => by
      rw [h] at hconnection
      cases hconnection
  | some connection =>
    decidable_of_iff
      (connection.serial = serial → connection.connected = false) (by
      simp only [Ended, h, Option.some.injEq, forall_eq'])

end World

/-! ## Steps -/

/-- What every step does to the tokens and their rows. -/
structure Ledger (a b : World) : Prop where
  seen : a.seen ⊆ b.seen
  issued : a.issued ⊆ b.issued
  forgotten : ∀ key ∈ a.seen, isTokenKey key = true → b.Holds key → a.Holds key
  covered : ∀ row tokenHash, tokenHash ≠ [] → hashKey tokenHash ∈ a.seen →
    a.Covered row tokenHash → b.Covered row tokenHash
  looked : ∀ client look, a.looked client = some look → b.looked client = some look

/-- What every step does to the connections. -/
structure Links (a b : World) : Prop where
  accepted : a.accepted ≤ b.accepted
  ended : ∀ place serial, serial < a.accepted → a.Ended place serial →
    b.Ended place serial

/-- The record that a thread alone writes. -/
structure Same (client : Nat) (a b : World) : Prop where
  looked : b.looked client = a.looked client
  presented : b.presented client = a.presented client
  owed : b.owed client = a.owed client

/-- The key under which a device row has to stand. -/
def UserDevice.key (config : Config) (row : UserDevice) : UInt64 × Bytes :=
  World.deviceKey config row.userId row.deviceId

structure Invariant (config : Config) (w : World) : Prop where
  keyed : Table.Keyed (UserDevice.key config) w.devices
  serials : ∀ place connection, w.connections.lookup place = some connection →
    connection.serial < w.accepted

variable {a b c : World} {client : Nat}

theorem Ledger.refl (a : World) : Ledger a a :=
  ⟨fun _ h => h, fun _ h => h, fun _ _ _ h => h, fun _ _ _ _ h => h, fun _ _ h => h⟩

theorem Ledger.trans (hab : Ledger a b) (hbc : Ledger b c) : Ledger a c where
  seen := List.Subset.trans hab.seen hbc.seen
  issued := List.Subset.trans hab.issued hbc.issued
  forgotten key hseen htoken hc :=
    hab.forgotten key hseen htoken (hbc.forgotten key (hab.seen hseen) htoken hc)
  covered row tokenHash hne hseen ha :=
    hbc.covered row tokenHash hne (hab.seen hseen) (hab.covered row tokenHash hne hseen ha)
  looked client look ha := hbc.looked client look (hab.looked client look ha)

theorem Links.refl (a : World) : Links a a := ⟨le_rfl, fun _ _ _ h => h⟩

theorem Links.trans (hab : Links a b) (hbc : Links b c) : Links a c where
  accepted := hab.accepted.trans hbc.accepted
  ended place serial hserial ha :=
    hbc.ended place serial (lt_of_lt_of_le hserial hab.accepted) (hab.ended place serial hserial ha)

theorem Same.refl (client : Nat) (a : World) : Same client a a := ⟨rfl, rfl, rfl⟩

theorem Same.trans (hab : Same client a b) (hbc : Same client b c) :
    Same client a c :=
  ⟨hbc.looked.trans hab.looked, hbc.presented.trans hab.presented, hbc.owed.trans hab.owed⟩

theorem Ledger.of_holds (hseen : a.seen ⊆ b.seen) (hissued : a.issued ⊆ b.issued)
    (hholds : ∀ key ∈ a.seen, isTokenKey key = true → b.Holds key → a.Holds key)
    (hdevices : b.devices = a.devices) (howed : b.owed = a.owed)
    (hlooked : ∀ client look, a.looked client = some look → b.looked client = some look) :
    Ledger a b := by
  refine ⟨hseen, hissued, hholds, ?_, hlooked⟩
  intro row tokenHash _ hkey h hb
  have ha := h (hholds _ hkey (isTokenKey_hashKey tokenHash) hb)
  simpa only [World.storedHash, World.Owing, hdevices, howed] using ha

theorem Ledger.of_eq (hredis : b.redis = a.redis) (hdevices : b.devices = a.devices)
    (hseen : b.seen = a.seen) (hissued : b.issued = a.issued)
    (howed : b.owed = a.owed) (hlooked : b.looked = a.looked) : Ledger a b := by
  refine .of_holds (hseen ▸ fun _ h => h) (hissued ▸ fun _ h => h) ?_ hdevices
    howed fun client look h => hlooked ▸ h
  intro key _ _ h
  simpa only [World.Holds, hredis] using h

/-! ## Redis -/

/-- The world after a command that took effect. -/
def World.afterRedis (w : World) (client : Nat) (command : RedisCommand) :
    World :=
  { w.recordRedis client command with redis := command.apply w.redis }

theorem World.execRedis_cases (w : World) (client : Nat) (command : RedisCommand) (fault : Fault) :
    (w.execRedis client command fault).1 = w ∨
      (w.execRedis client command fault).1 = w.afterRedis client command := by
  cases fault with
  | refused => exact .inl rfl
  | none => exact .inr rfl
  | lost => exact .inr rfl

theorem World.execRedis_effect (w : World) (client : Nat)
    (command : RedisCommand) {fault : Fault} (hfault : fault ≠ .refused) :
    (w.execRedis client command fault).1 = w.afterRedis client command := by
  cases fault with
  | refused => exact absurd rfl hfault
  | none => rfl
  | lost => rfl

theorem World.not_holds_del (w : World) (client : Nat) (key : Bytes)
    {fault : Fault} (hfault : fault ≠ .refused) :
    ¬ (w.execRedis client (.del key) fault).1.Holds key := by
  rw [w.execRedis_effect client _ hfault]
  rintro ⟨value, hvalue⟩
  simp only [World.afterRedis, RedisCommand.apply, Function.update_self] at hvalue
  cases hvalue

section Redis

variable {w : World} {command : RedisCommand}
variable {store : Bytes → Option RedisValue} {key other member value : Bytes}

theorem RedisCommand.string_of_sadd
    (h : (RedisCommand.sadd key member).apply store other = some (.string value)) :
    store other = some (.string value) := by
  cases hkey : store key with
  | none =>
    simp only [RedisCommand.apply, hkey, Function.update_apply] at h
    split at h
    · cases h
    · exact h
  | some stored =>
    cases stored with
    | string _ => simpa only [RedisCommand.apply, hkey] using h
    | set members =>
      simp only [RedisCommand.apply, hkey, Function.update_apply] at h
      split at h
      · cases h
      · exact h

theorem RedisCommand.string_of_srem
    (h : (RedisCommand.srem key member).apply store other = some (.string value)) :
    store other = some (.string value) := by
  cases hkey : store key with
  | none => simpa only [RedisCommand.apply, hkey] using h
  | some stored =>
    cases stored with
    | string _ => simpa only [RedisCommand.apply, hkey] using h
    | set members =>
      simp only [RedisCommand.apply, hkey, Function.update_apply] at h
      split at h
      · split at h <;> cases h
      · exact h

theorem Ledger.del (key : Bytes) : Ledger w (w.afterRedis client (.del key)) := by
  have hholds : ∀ other, (w.afterRedis client (.del key)).Holds other →
      other ≠ key ∧ w.Holds other := by
    rintro other ⟨value, hvalue⟩
    simp only [World.afterRedis, RedisCommand.apply, Function.update_apply] at hvalue
    split at hvalue
    · cases hvalue
    · next hne => exact ⟨hne, value, hvalue⟩
  refine ⟨fun _ h => h, fun _ h => h, fun other _ _ h => (hholds other h).2, ?_, fun _ _ h => h⟩
  intro row tokenHash _ _ h hb
  obtain ⟨hne, ha⟩ := hholds _ hb
  refine (h ha).imp_right ?_
  rintro ⟨other, howed⟩
  refine ⟨other, ?_⟩
  simp only [World.afterRedis, World.recordRedis, Function.update_apply]
  split
  · next heq =>
    subst heq
    exact List.mem_filter.mpr ⟨howed, by simpa using hne⟩
  · exact howed

theorem Ledger.redis (hfresh : w.SetsUnseen (.redis command)) :
    Ledger w (w.afterRedis client command) := by
  cases command with
  | get key =>
    simp only [World.afterRedis, World.recordRedis, RedisCommand.apply]
    split <;> exact .of_eq rfl rfl rfl rfl rfl rfl
  | expire key ttlSeconds => exact .of_eq rfl rfl rfl rfl rfl rfl
  | del key => exact .del key
  | setEx key ttlSeconds value =>
    -- the key that is set is no token key, or was never seen
    have hholds : ∀ other ∈ w.seen, isTokenKey other = true →
        (∃ value', Function.update w.redis key (some (.string value)) other =
          some (.string value')) → w.Holds other := by
      intro other hseen htoken h
      have hne : other ≠ key := fun heq => hfresh (heq ▸ htoken) (heq ▸ hseen)
      rwa [Function.update_of_ne hne] at h
    simp only [World.afterRedis, World.recordRedis]
    split
    · exact .of_holds (List.subset_cons_self _ _) (fun _ h => h) hholds rfl rfl fun _ _ h => h
    · exact .of_holds (fun _ h => h) (fun _ h => h) hholds rfl rfl fun _ _ h => h
  | sadd key member =>
    refine .of_holds (fun _ h => h) (fun _ h => h) ?_ rfl rfl (fun _ _ h => h)
    rintro other _ _ ⟨value, hvalue⟩
    exact ⟨value, RedisCommand.string_of_sadd hvalue⟩
  | srem key member =>
    refine .of_holds (fun _ h => h) (fun _ h => h) ?_ rfl rfl (fun _ _ h => h)
    rintro other _ _ ⟨value, hvalue⟩
    exact ⟨value, RedisCommand.string_of_srem hvalue⟩

end Redis

/-! ## Device rows -/

section Rows

variable {w : World}

theorem World.recordOverwrite_eq (row : UInt64 × Bytes) (tokenHash : Bytes) :
    w.recordOverwrite client row tokenHash =
      { w with owed := (w.recordOverwrite client row tokenHash).owed } := by
  unfold World.recordOverwrite
  dsimp only
  split <;> rfl

theorem World.owed_recordOverwrite (row : UInt64 × Bytes) (tokenHash : Bytes) (other : Nat) :
    w.owed other ⊆ (w.recordOverwrite client row tokenHash).owed other := by
  unfold World.recordOverwrite
  dsimp only
  split
  · intro key hkey
    simp only [Function.update_apply]
    split
    · next heq => exact List.mem_cons_of_mem _ (heq ▸ hkey)
    · exact hkey
  · exact fun _ h => h

theorem World.mem_owed_recordOverwrite (hne : w.storedHash row ≠ [])
    (hchange : w.storedHash row ≠ tokenHash) (hholds : w.Holds (hashKey (w.storedHash row))) :
    hashKey (w.storedHash row) ∈ (w.recordOverwrite client row tokenHash).owed client := by
  unfold World.recordOverwrite
  dsimp only
  rw [if_pos ⟨hne, hchange, hholds⟩]
  simp only [Function.update_self, List.mem_cons_self]

theorem World.of_mem_owed_recordOverwrite {key : Bytes}
    (h : key ∈ (w.recordOverwrite client row tokenHash).owed client) :
    key ∈ w.owed client ∨
      (key = hashKey (w.storedHash row) ∧ w.storedHash row ≠ [] ∧
        w.storedHash row ≠ tokenHash ∧ w.Holds (hashKey (w.storedHash row))) := by
  unfold World.recordOverwrite at h
  dsimp only at h
  split at h
  · next hlost =>
    simp only [Function.update_self, List.mem_cons] at h
    exact h.symm.imp_right fun heq => ⟨heq, hlost⟩
  · exact .inl h

theorem Ledger.overwrite {devices : Table (UInt64 × Bytes) UserDevice}
    (hrow : ((devices.lookup row).map UserDevice.tokenHash).getD [] = tokenHash)
    (hother : ∀ other, other ≠ row → devices.lookup other = w.devices.lookup other) :
    Ledger w { w.recordOverwrite client row tokenHash with devices := devices } := by
  rw [World.recordOverwrite_eq]
  refine ⟨fun _ h => h, fun _ h => h, fun _ _ _ h => h, ?_, fun _ _ h => h⟩
  intro place other hne _ h hb
  have hholds : w.Holds (hashKey other) := hb
  rcases h hholds with hstored | ⟨holder, howed⟩
  · by_cases hplace : place = row
    · subst hplace
      by_cases hsame : tokenHash = other
      · exact .inl (hrow.trans hsame)
      · subst hstored
        exact .inr ⟨client, World.mem_owed_recordOverwrite hne (Ne.symm hsame) hholds⟩
    · refine .inl ?_
      simpa only [World.storedHash, hother place hplace] using hstored
  · exact .inr ⟨holder, World.owed_recordOverwrite row tokenHash holder howed⟩

theorem lookup_upserted (config : Config) (device : UserDevice) :
    (World.upserted config w.devices device).lookup
        (World.deviceKey config device.userId device.deviceId) =
      some
        (match w.devices.lookup (World.deviceKey config device.userId device.deviceId) with
          | none => device
          | some old =>
            { device with
              deviceId := old.deviceId, createdAt := old.createdAt }) := by
  unfold World.upserted
  dsimp only
  cases w.devices.lookup (World.deviceKey config device.userId device.deviceId)
  all_goals exact AList.lookup_insert _

theorem lookup_upserted_ne (config : Config) (device : UserDevice)
    (hne : row ≠ World.deviceKey config device.userId device.deviceId) :
    (World.upserted config w.devices device).lookup row =
      w.devices.lookup row := by
  unfold World.upserted
  dsimp only
  split <;> exact AList.lookup_insert_ne hne

theorem World.storedHash_upsertDevice (config : Config) (device : UserDevice) :
    (w.upsertDevice config client device).storedHash (device.key config) =
      device.tokenHash := by
  have hrow := lookup_upserted (w := w) config device
  simp only [World.storedHash, World.upsertDevice, UserDevice.key, hrow]
  cases w.devices.lookup (World.deviceKey config device.userId device.deviceId)
  all_goals rfl

theorem Ledger.recordLook (row : Option UserDevice) : Ledger w (w.recordLook client row) := by
  refine .of_holds (List.subset_append_right _ _) (fun _ h => h) (fun _ _ _ h => h) rfl rfl ?_
  intro other look h
  simp only [World.recordLook, Function.update_apply]
  split
  · next heq =>
    subst heq
    rw [h, Option.some_or]
  · exact h

end Rows

/-! ## Connections -/

/-- Every connection is new, or was there before and is not reopened. -/
structure Relinked (a b : World) : Prop where
  accepted : a.accepted ≤ b.accepted
  connections : ∀ place connection, b.connections.lookup place = some connection →
    (a.accepted ≤ connection.serial ∧ connection.serial < b.accepted) ∨
      ∃ old, a.connections.lookup place = some old ∧ old.serial = connection.serial ∧
        (connection.connected = true → old.connected = true)

theorem Relinked.links (h : Relinked a b) : Links a b := by
  refine ⟨h.accepted, ?_⟩
  intro place serial hserial hended connection hconnection hsame
  rcases h.connections place connection hconnection with
    ⟨hnew, _⟩ | ⟨old, hold, heq, hopen⟩
  · omega
  · have hclosed := hended old hold (heq.trans hsame)
    by_contra hconnected
    rw [hopen (by simpa using hconnected)] at hclosed
    cases hclosed

theorem Relinked.serials (h : Relinked a b)
    (hserials : ∀ place connection, a.connections.lookup place = some connection →
      connection.serial < a.accepted) :
    ∀ place connection, b.connections.lookup place = some connection →
      connection.serial < b.accepted := by
  intro place connection hconnection
  rcases h.connections place connection hconnection with
    ⟨_, hnew⟩ | ⟨old, hold, heq, _⟩
  · exact hnew
  · exact heq ▸ lt_of_lt_of_le (hserials place old hold) h.accepted

theorem Relinked.of_eq (hconnections : b.connections = a.connections)
    (haccepted : b.accepted = a.accepted) : Relinked a b := by
  refine ⟨haccepted.ge, ?_⟩
  intro place connection hconnection
  exact .inr ⟨connection, hconnections ▸ hconnection, rfl, id⟩

theorem Relinked.update (place : Place) (haccepted : b.accepted = a.accepted)
    (hother : ∀ other, other ≠ place → b.connections.lookup other = a.connections.lookup other)
    (hnext : ∀ connection, b.connections.lookup place = some connection →
      ∃ old, a.connections.lookup place = some old ∧ old.serial = connection.serial ∧
        (connection.connected = true → old.connected = true)) :
    Relinked a b := by
  refine ⟨haccepted.ge, ?_⟩
  intro other connection hconnection
  by_cases heq : other = place
  · subst heq
    exact .inr (hnext connection hconnection)
  · rw [hother other heq] at hconnection
    exact .inr ⟨connection, hconnection, rfl, id⟩

theorem Relinked.modify (place : Place) {f : Connection → Connection}
    (haccepted : b.accepted = a.accepted)
    (hconnections : b.connections = Table.modify a.connections place f)
    (hserial : ∀ connection, (f connection).serial = connection.serial)
    (hclosed : ∀ connection, (f connection).connected = true → connection.connected = true) :
    Relinked a b := by
  refine .update place haccepted ?_ ?_
  · intro other hne
    rw [hconnections, Table.lookup_modify_ne _ hne]
  · intro connection hconnection
    rw [hconnections, Table.lookup_modify_self] at hconnection
    obtain ⟨old, hold, rfl⟩ := Option.map_eq_some_iff.mp hconnection
    exact ⟨old, hold, (hserial old).symm, hclosed old⟩

section Connections

variable {w : World} {place : Place}

theorem World.removeBinding_eq (context : Gateway.ConnectionContext) :
    w.removeBinding place context = { w with bound := (w.removeBinding place context).bound } := by
  unfold World.removeBinding
  dsimp only
  split <;> rfl

theorem Relinked.bindUser (userId : UInt64) (token deviceId platform : Bytes) :
    Relinked w (w.bindUser place userId token deviceId platform).1 := by
  unfold World.bindUser
  cases hplace : w.connections.lookup place with
  | none => exact .of_eq rfl rfl
  | some connection =>
    have hinsert : ∀ (context : Gateway.ConnectionContext) {next : World},
        next.accepted = w.accepted →
        next.connections = w.connections.insert place
          { connection with context := context } → Relinked w next := by
      intro context next haccepted hconnections
      refine .update place haccepted ?_ ?_
      · intro other hne
        rw [hconnections, AList.lookup_insert_ne hne]
      · intro found hfound
        rw [hconnections, AList.lookup_insert] at hfound
        cases hfound
        exact ⟨connection, hplace, rfl, id⟩
    dsimp only
    split
    · rw [World.removeBinding_eq]
      exact hinsert _ rfl rfl
    · exact hinsert _ rfl rfl

theorem Relinked.forceClose (serial : Nat) : Relinked w (w.forceClose place serial) := by
  refine .modify place rfl rfl ?_ ?_
  · intro connection
    split <;> rfl
  · intro connection h
    split at h
    · cases h
    · exact h

theorem World.ended_forceClose (w : World) (place : Place) (serial : Nat) :
    (w.forceClose place serial).Ended place serial := by
  intro found hfound heq
  simp only [World.forceClose, Table.lookup_modify_self, Option.map_eq_some_iff] at hfound
  obtain ⟨connection, _, rfl⟩ := hfound
  split at heq
  · next hserial => rw [if_pos hserial]
  · next hserial => exact absurd heq hserial

theorem Relinked.removeConnection : Relinked w (w.removeConnection place) := by
  unfold World.removeConnection
  cases hplace : w.connections.lookup place with
  | none => exact .of_eq rfl rfl
  | some connection =>
    have herase : ∀ {next : World}, next.accepted = w.accepted →
        next.connections = w.connections.erase place → Relinked w next := by
      intro next haccepted hconnections
      refine .update place haccepted ?_ ?_
      · intro other hne
        rw [hconnections, AList.lookup_erase_ne hne]
      · intro found hfound
        rw [hconnections, AList.lookup_erase] at hfound
        cases hfound
    dsimp only
    split
    · rw [World.removeBinding_eq]
      exact herase rfl rfl
    · exact herase rfl rfl

theorem Relinked.env (event : Env) : Relinked w (w.env event) := by
  cases event with
  | register user => exact .of_eq rfl rfl
  | expire key => exact .of_eq rfl rfl
  | accept gateway =>
    refine ⟨Nat.le_succ _, ?_⟩
    intro other connection hconnection
    simp only [World.env] at hconnection
    by_cases heq : other = (gateway, w.connectionId gateway)
    · subst heq
      rw [AList.lookup_insert] at hconnection
      cases hconnection
      exact .inl ⟨le_rfl, Nat.lt_succ_self _⟩
    · rw [AList.lookup_insert_ne heq] at hconnection
      exact .inr ⟨connection, hconnection, rfl, id⟩
  | hangUp place =>
    exact .modify place rfl rfl (fun _ => rfl) fun _ h => absurd h Bool.false_ne_true
  | restart gateway =>
    refine ⟨le_rfl, ?_⟩
    intro other connection hconnection
    exact .inr ⟨connection, Table.lookup_restrict hconnection, rfl, id⟩

/-- The steps of a connection manager change nothing but its own maps. -/
theorem World.bindUser_eq (w : World) (place : Place) (userId : UInt64)
    (token deviceId platform : Bytes) :
    ∃ connections bound, (w.bindUser place userId token deviceId platform).1 =
      { w with connections := connections, bound := bound } := by
  unfold World.bindUser
  cases w.connections.lookup place with
  | none => exact ⟨_, _, rfl⟩
  | some connection =>
    dsimp only
    split
    · rw [World.removeBinding_eq]
      exact ⟨_, _, rfl⟩
    · exact ⟨_, _, rfl⟩

theorem World.removeConnection_eq (w : World) (place : Place) :
    ∃ connections bound, w.removeConnection place =
      { w with connections := connections, bound := bound } := by
  unfold World.removeConnection
  cases w.connections.lookup place with
  | none => exact ⟨_, _, rfl⟩
  | some connection =>
    dsimp only
    split
    · rw [World.removeBinding_eq]
      exact ⟨_, _, rfl⟩
    · exact ⟨_, _, rfl⟩

end Connections

/-! ## Every call -/

/-- The kinds of steps that a call can be. -/
inductive Change (config : Config) (w : World) (client : Nat) : World → Prop where
  | nothing : Change config w client w
  | issue (key : Bytes) : Change config w client { w with issued := (client, key) :: w.issued }
  | redis (command : RedisCommand) (hfresh : w.SetsUnseen (.redis command)) :
      Change config w client (w.afterRedis client command)
  | look (row : Option UserDevice) : Change config w client (w.recordLook client row)
  | overwrite (row : UInt64 × Bytes) (tokenHash : Bytes)
      (devices : Table (UInt64 × Bytes) UserDevice)
      (hrow : ((devices.lookup row).map UserDevice.tokenHash).getD [] = tokenHash)
      (hother : ∀ other, other ≠ row → devices.lookup other = w.devices.lookup other)
      (hkeyed : Table.Keyed (UserDevice.key config) w.devices →
        Table.Keyed (UserDevice.key config) devices) :
      Change config w client { w.recordOverwrite client row tokenHash with devices := devices }
  | links (connections : Table Place Connection) (bound : Bytes → UInt64 × Bytes → Option Bytes)
      (onlineTasks : Bytes → List OnlineTask)
      (hlinks : Relinked w { w with connections := connections }) :
      Change config w client
        { w with
          connections := connections, bound := bound, onlineTasks := onlineTasks }

section Calls

variable {config : Config} {w : World} {op : Op} {choice : Choice}

theorem Change.upsertDevice (device : UserDevice) :
    Change config w client (w.upsertDevice config client device) := by
  refine .overwrite _ _ _ ?_ (fun other hne => lookup_upserted_ne config device hne) ?_
  · rw [lookup_upserted]
    cases w.devices.lookup (World.deviceKey config device.userId device.deviceId)
    all_goals rfl
  · intro hkeyed key row hrow
    by_cases heq : key = World.deviceKey config device.userId device.deviceId
    · subst heq
      rw [lookup_upserted] at hrow
      cases hold : w.devices.lookup (World.deviceKey config device.userId device.deviceId) with
      | none =>
        simp only [hold, Option.some.injEq] at hrow
        subst hrow
        rfl
      | some old =>
        -- the row keeps its device id, which collates like the new one
        have hcollate := congrArg Prod.snd (hkeyed _ old hold)
        simp only [hold, Option.some.injEq] at hrow
        subst hrow
        exact Prod.ext rfl hcollate
    · rw [lookup_upserted_ne config device heq] at hrow
      exact hkeyed key row hrow

theorem Change.clearDeviceToken (userId : UInt64) (deviceId : Bytes) (now : Int64) :
    Change config w client (w.clearDeviceToken config client userId deviceId now) := by
  refine .overwrite _ _ _ ?_ (fun other hne => Table.lookup_modify_ne _ hne) ?_
  · rw [Table.lookup_modify_self]
    cases w.devices.lookup (World.deviceKey config userId deviceId)
    all_goals rfl
  · intro hkeyed
    apply hkeyed.modify
    intro row
    rfl

theorem World.exec_change (hfresh : w.SetsUnseen op) :
    Change config w client (w.exec config client op choice).1 := by
  cases op with
  | generateToken =>
    simp only [World.exec]
    split
    · exact .nothing
    · exact .issue _
  | redis command =>
    rcases w.execRedis_cases client command choice.fault with h | h
    · simp only [World.exec, h]
      exact .nothing
    · simp only [World.exec, h]
      exact .redis command hfresh
  | sql statement =>
    cases statement with
    | getDevice userId deviceId => exact .look _
    | listDevices userId => exact .nothing
    | upsertDevice device =>
      simp only [World.exec, World.execSql]
      split
      · exact .nothing
      · exact .upsertDevice device
    | clearDeviceToken userId deviceId now =>
      simp only [World.exec, World.execSql]
      split
      · exact .nothing
      · exact .clearDeviceToken userId deviceId now
  | bindUser place userId token deviceId platform =>
    have hlinks : Relinked w (w.bindUser place userId token deviceId platform).1 :=
      .bindUser userId token deviceId platform
    obtain ⟨connections, bound, h⟩ := w.bindUser_eq place userId token deviceId platform
    simp only [World.exec]
    rw [h] at hlinks ⊢
    exact .links connections bound _ ⟨hlinks.1, hlinks.2⟩
  | forceClose place serial => exact .links _ _ _ (.forceClose serial)
  | removeConnection place =>
    have hlinks : Relinked w (w.removeConnection place) := .removeConnection
    obtain ⟨connections, bound, h⟩ := w.removeConnection_eq place
    simp only [World.exec]
    rw [h] at hlinks ⊢
    exact .links connections bound _ ⟨hlinks.1, hlinks.2⟩
  | submitOnlineTask gateway task =>
    simp only [World.exec]
    split
    · exact .links _ _ _ (.of_eq rfl rfl)
    · exact .nothing
  | takeOnlineTask gateway => exact .links _ _ _ (.of_eq rfl rfl)
  | _ => exact .nothing

theorem World.recordRedis_eq (command : RedisCommand) : w.recordRedis client command =
      { w with
        presented := (w.recordRedis client command).presented
        seen := (w.recordRedis client command).seen
        owed := (w.recordRedis client command).owed } := by
  cases command with
  | get key | setEx key ttlSeconds value =>
    simp only [World.recordRedis]
    split <;> rfl
  | _ => rfl

end Calls

namespace Change

variable {config : Config}

theorem ledger (h : Change config a client b) : Ledger a b := by
  cases h with
  | nothing => exact .refl a
  | issue key =>
    exact .of_holds (fun _ h => h) (List.subset_cons_self _ _) (fun _ _ _ h => h) rfl rfl
      fun _ _ h => h
  | redis command hfresh => exact .redis hfresh
  | look row => exact .recordLook row
  | overwrite row tokenHash devices hrow hother _ => exact .overwrite hrow hother
  | links connections bound onlineTasks hlinks => exact .of_eq rfl rfl rfl rfl rfl rfl

theorem relinked (h : Change config a client b) : Relinked a b := by
  cases h with
  | nothing | issue => exact .of_eq rfl rfl
  | redis command hfresh =>
    rw [World.afterRedis, World.recordRedis_eq]
    exact .of_eq rfl rfl
  | look row => exact .of_eq rfl rfl
  | overwrite row tokenHash devices hrow hother _ =>
    rw [World.recordOverwrite_eq]
    exact .of_eq rfl rfl
  | links connections bound onlineTasks hlinks => exact ⟨hlinks.1, hlinks.2⟩

theorem same {other : Nat} (h : Change config a client b) (hne : other ≠ client) :
    Same other a b := by
  cases h with
  | nothing | issue => exact ⟨rfl, rfl, rfl⟩
  | redis command hfresh =>
    cases command with
    | get key =>
      simp only [World.afterRedis, World.recordRedis]
      split
      · exact ⟨rfl, Function.update_of_ne hne _ _, rfl⟩
      · exact ⟨rfl, rfl, rfl⟩
    | setEx key ttlSeconds value =>
      simp only [World.afterRedis, World.recordRedis]
      split <;> exact ⟨rfl, rfl, rfl⟩
    | del key => exact ⟨rfl, rfl, Function.update_of_ne hne _ _⟩
    | _ => exact ⟨rfl, rfl, rfl⟩
  | look row => exact ⟨Function.update_of_ne hne _ _, rfl, rfl⟩
  | overwrite row tokenHash devices hrow hother _ =>
    simp only [World.recordOverwrite]
    split
    · exact ⟨rfl, rfl, Function.update_of_ne hne _ _⟩
    · exact ⟨rfl, rfl, rfl⟩
  | links connections bound onlineTasks hlinks => exact ⟨rfl, rfl, rfl⟩

theorem inv (h : Change config a client b) (hinv : Invariant config a) :
    Invariant config b := by
  refine ⟨?_, h.relinked.serials hinv.serials⟩
  cases h with
  | redis command hfresh =>
    rw [World.afterRedis, World.recordRedis_eq]
    exact hinv.keyed
  | overwrite row tokenHash devices hrow hother hkeyed => exact hkeyed hinv.keyed
  | _ => exact hinv.keyed

end Change

theorem initial_inv (config : Config) : Invariant config initial.world where
  keyed _ _ h := by cases h
  serials _ _ h := by cases h

/-! ## The contract -/

section Contract

variable {config : Config} {guard : SessionGuard}

theorem env_ledger (w : World) (event : Env) : Ledger w (w.env event) := by
  cases event with
  | expire key =>
    refine .of_holds (fun _ h => h) (fun _ h => h) ?_ rfl rfl (fun _ _ h => h)
    rintro other _ _ ⟨value, hvalue⟩
    simp only [World.env, Function.update_apply] at hvalue
    split at hvalue
    · cases hvalue
    · exact ⟨value, hvalue⟩
  | _ => exact .of_eq rfl rfl rfl rfl rfl rfl

theorem env_same (w : World) (event : Env) : Same client w (w.env event) := by
  cases event <;> exact ⟨rfl, rfl, rfl⟩

def contract (config : Config) (guard : SessionGuard) :
    Contract (system config) (guard.and World.SetsUnseen) where
  inv := Invariant config
  rely client a b := Ledger a b ∧ Links a b ∧ Same client a b
  guar client a b := Change config a client b
  rely_refl client w := ⟨.refl w, .refl w, .refl client w⟩
  rely_trans hab hbc := ⟨hab.1.trans hbc.1, hab.2.1.trans hbc.2.1, hab.2.2.trans hbc.2.2⟩
  guar_rely hne _ h := ⟨h.ledger, h.relinked.links, h.same (Ne.symm hne)⟩
  env_inv {w event} hinv _ := by
    refine ⟨?_, (Relinked.env event).serials hinv.serials⟩
    cases event <;> exact hinv.keyed
  env_rely {_ w event} _ _ := ⟨env_ledger w event, (Relinked.env event).links, env_same w event⟩

/-- An assertion that holds for ever once it holds. -/
def Lasting (assertion : World → Prop) : Prop :=
  ∀ a b, Ledger a b → Links a b → assertion a → assertion b

theorem Lasting.and {first second : World → Prop} (h₁ : Lasting first)
    (h₂ : Lasting second) : Lasting fun w => first w ∧ second w :=
  fun a b hledger hlinks h => ⟨h₁ a b hledger hlinks h.1, h₂ a b hledger hlinks h.2⟩

theorem Lasting.const (fact : Prop) : Lasting fun _ => fact := fun _ _ _ _ h => h

theorem Lasting.exists {ι : Type} {family : ι → World → Prop}
    (h : ∀ index, Lasting (family index)) :
    Lasting fun w => ∃ index, family index w :=
  fun a b hledger hlinks ⟨index, ha⟩ => ⟨index, h index a b hledger hlinks ha⟩

theorem Lasting.imp {assertion : World → Prop} (fact : Prop)
    (h : Lasting assertion) : Lasting fun w => fact → assertion w :=
  fun a b hledger hlinks ha hfact => h a b hledger hlinks (ha hfact)

variable {assertion pre : World → Prop} {β : Type} {op : Op}

theorem Lasting.stable (h : Lasting assertion) : Stable (contract config guard) client assertion :=
  fun a b ha _ hrely _ => h a b hrely.1 hrely.2.1 ha

theorem Lasting.change {a b : World} (h : Lasting assertion) (ha : assertion a)
    (hchange : Change config a client b) : assertion b :=
  h a b hchange.ledger hchange.relinked.links ha

variable {post : β → World → Prop} {f : op.Res → Service β}

/-- Rule for one call: only its own effect is left to prove. -/
theorem triple_call (mid : op.Res → World → Prop)
    (hstable : Stable (contract config guard) client pre)
    (hmid : ∀ {w choice}, Invariant config w → pre w → guard.call w client op choice →
      Change config w client (w.exec config client op choice).1 →
      mid (w.exec config client op choice).2 (w.exec config client op choice).1)
    (hnext : ∀ answer, Triple (contract config guard) client (mid answer) (f answer) post) :
    Triple (contract config guard) client pre (call op >>= f) post := by
  refine Triple.call hstable ?_ hnext
  intro w choice hinv hpre hchoice
  have hchange : Change config w client (w.exec config client op choice).1 :=
    World.exec_change hchoice.2
  exact ⟨hchange.inv hinv, hchange, hmid hinv hpre hchoice.1 hchange⟩

theorem triple_read
    (hread : ∀ (w : World) (choice : Choice), (w.exec config client op choice).1 = w)
    (hstable : Stable (contract config guard) client pre)
    (hnext : ∀ answer, Triple (contract config guard) client pre (f answer) post) :
    Triple (contract config guard) client pre (call op >>= f) post := by
  refine triple_call (fun _ => pre) hstable ?_ hnext
  intro w choice _ hpre _ _
  rw [hread]
  exact hpre

theorem looked_none_stable :
    Stable (contract config guard) client fun w => w.looked client = none :=
  fun _ _ h _ hrely _ => hrely.2.2.looked.trans h

theorem triple_skip (h : Lasting assertion)
    (hnext : ∀ answer, Triple (contract config guard) client assertion (f answer) post) :
    Triple (contract config guard) client assertion (call op >>= f) post :=
  triple_call (fun _ => assertion) h.stable (fun _ ha _ hchange => h.change ha hchange) hnext

theorem triple_lasting (h : Lasting assertion) (p : Service β) :
    Triple (contract config guard) client assertion p fun _ => assertion := by
  have htrivial : Triple (contract config guard) client (fun _ => True) p fun _ _ => True := by
    refine Triple.of_calls fun op w choice hinv _ hchoice => ?_
    have hchange : Change config w client (w.exec config client op choice).1 :=
      World.exec_change hchoice.2
    exact ⟨hchange.inv hinv, hchange, trivial⟩
  refine (htrivial.frame h.stable ?_).mono (fun hw => ⟨hw, trivial⟩) fun hw => hw.1
  exact fun _ ha hchange => h.change ha hchange

end Contract

end NebulaIM.Session
