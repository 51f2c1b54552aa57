import NebulaIM.User.Tokens

/-!
# Histories of the session services

Requests that are served one after another, each of them by a handler that runs
alone.  The rules below follow a handler call by call and keep account of the
deletions that it owes for the rows it has overwritten.
-/

namespace NebulaIM.Device

open Foundation Session
open Session.TokenManager (hashKey tokenKey tokenHash)
open Foundation.Store (Table)
open Foundation.Wire (Bytes)
open Protocol
open User (Request.outcome Given HeldByRow Minted Owes OwesNothing Replaced)

variable {op : Op} {refresh : Bool}
variable {config : Config} {client : Nat}

/-! ## Histories -/

/-- A request with the choices of its calls, or something that happens between
the requests. -/
inductive Event where
  | request (request : Request) (choices : Nat → Choice)
  | env (event : Env)

/-- A request that was served, with the world in which it began. -/
structure Served where
  start : World
  request : Request
  reply : Reply

/-- The served requests, newest first. -/
structure History where
  world : World := {}
  served : List Served := []

namespace History

/-- The handler runs alone; its thread is named after the requests before it. -/
def serve (config : Config) (h : History) (request : Request)
    (choices : Nat → Choice) : World × Reply :=
  (code config request).solo (fun w => w.exec config h.served.length) h.world choices

def step (config : Config) (h : History) : Event → History
  | .request request choices =>
    let result := h.serve config request choices
    ⟨result.1, ⟨h.world, request, result.2⟩ :: h.served⟩
  | .env event => { h with world := h.world.env event }

def run (config : Config) (h : History) (events : List Event) : History :=
  events.foldl (step config) h

end History

/-! ## What the calls have to meet -/

def refreshes : Request → Bool
  | .refreshToken _ => true
  | _ => false

/-- Redis refuses to delete no token, reads of device rows do not fail, and in a
refresh no reply to a written row is lost. -/
def ReliableStep (refresh : Bool) : Op → Choice → Prop
  | .redis (.del key), choice => isTokenKey key = true → choice.fault ≠ .refused
  | .sql (.getDevice _ _), choice | .sql (.listDevices _), choice => choice.fault = .none
  | .sql (.upsertDevice _), choice => refresh = true → choice.fault ≠ .lost
  | _, _ => True

abbrev reliable (config : Config) (refresh : Bool) : SessionGuard where
  call w _ op choice := w.Fresh config op choice ∧ ReliableStep refresh op choice

instance decidableReliableStep (refresh : Bool) (op : Op) (choice : Choice) :
    Decidable (ReliableStep refresh op choice) := by
  cases op with
  | redis command => cases command <;> unfold ReliableStep <;> infer_instance
  | sql statement => cases statement <;> unfold ReliableStep <;> infer_instance
  | _ => exact .isTrue trivial

def Manages : Request → Prop
  | .login _ | .refreshToken _ | .kickDevice _ => True
  | _ => False

instance decidableManages : (request : Request) → Decidable (Manages request)
  | .login _ | .refreshToken _ | .kickDevice _ => .isTrue trivial
  | .validateToken _ | .listDevices _ | .kickAllDevices _ => .isFalse id
  | .packet _ _ | .disconnected _ | .onlineTask _ => .isFalse id

namespace History

def Reliable (config : Config) (h : History) (request : Request) (choices : Nat → Choice) : Prop :=
  (code config request).Meets (fun w => w.exec config h.served.length)
    (fun w => (reliable config (refreshes request)).call w h.served.length) h.world choices

def Admits (config : Config) (h : History) : Event → Prop
  | .request request choices => Manages request ∧ h.Reliable config request choices
  | .env _ => True

def AdmitsRun (config : Config) : History → List Event → Prop
  | _, [] => True
  | h, event :: events => h.Admits config event ∧ (h.step config event).AdmitsRun config events

theorem Reliable.setsUnseen {h : History} {request : Request} {choices : Nat → Choice}
    (hreliable : h.Reliable config request choices) (hregistered : Registered h.world) :
    (code config request).Meets (fun w => w.exec config h.served.length)
        (fun w => ((reliable config (refreshes request)).and World.SetsUnseen).call w
          h.served.length) h.world choices ∧
      Registered (h.serve config request choices).1 :=
  have hissuing : Records (system config) (reliable config (refreshes request)) _ _ _ _ :=
    issuing fun h => h.1
  hissuing.solo (hissuing.code request) hregistered (hissuing.nil _ _) hreliable

instance (h : History) (request : Request) (choices : Nat → Choice) :
    Decidable (h.Reliable config request choices) :=
  Prog.decidableMeets _ _ _

instance (h : History) : (event : Event) → Decidable (h.Admits config event)
  | .request _ _ => inferInstanceAs (Decidable (_ ∧ _))
  | .env _ => .isTrue trivial

instance decidableAdmitsRun : (h : History) → (events : List Event) →
    Decidable (h.AdmitsRun config events)
  | _, [] => .isTrue trivial
  | h, event :: events =>
    have := decidableAdmitsRun (h.step config event) events
    inferInstanceAs (Decidable (_ ∧ _))

end History

/-! ## Calls -/

abbrev Ends {α : Type} (config : Config) (refresh : Bool) (client : Nat)
    (post : α → World → Prop) (p : Service α) (w : World) : Prop :=
  Ensures (fun w => w.exec config client)
    (fun w => ((reliable config refresh).and World.SetsUnseen).call w client) post p w

/-- Only the thread may owe deletions, and only allowed ones. -/
structure Calm (config : Config) (client : Nat) (allowed : Bytes → Prop) (w : World) : Prop where
  inv : Invariant config w
  own : Owes client allowed w
  others : ∀ other, other ≠ client → ∀ key, key ∉ w.owed other

abbrev Settles (config : Config) (client : Nat) : World → Prop := Calm config client fun _ => False

theorem Calm.mono {allowed more : Bytes → Prop} {w : World}
    (h : Calm config client allowed w) (hmore : ∀ key, allowed key → more key) :
    Calm config client more w :=
  ⟨h.inv, fun key hkey => hmore key (h.own key hkey), h.others⟩

def NoRows : Op → Prop
  | .sql _ => False
  | _ => True

theorem Quiet.noRows {op : Op} (h : Quiet op) : NoRows op := by
  cases op with
  | sql statement => exact h
  | _ => trivial

theorem exec_noRows (hop : NoRows op) (w : World) (choice : Choice) :
    (w.exec config client op choice).1.devices = w.devices ∧
      ∀ other, (w.exec config client op choice).1.owed other ⊆ w.owed other := by
  cases op with
  | sql statement => exact hop.elim
  | redis command =>
    rcases w.execRedis_cases client command choice.fault with h | h
    · simp only [World.exec]
      rw [h]
      exact ⟨rfl, fun _ _ hkey => hkey⟩
    · simp only [World.exec]
      rw [h, World.afterRedis]
      cases command with
      | del key =>
        refine ⟨rfl, fun other => ?_⟩
        simp only [World.recordRedis, Function.update_apply]
        split
        · next heq => exact heq ▸ List.filter_subset_self _
        · exact fun _ hkey => hkey
      | get key | setEx key ttlSeconds value =>
        simp only [World.recordRedis]
        split <;> exact ⟨rfl, fun _ _ hkey => hkey⟩
      | _ => exact ⟨rfl, fun _ _ hkey => hkey⟩
  | bindUser place userId token deviceId platform =>
    obtain ⟨connections, bound, h⟩ := w.bindUser_eq place userId token deviceId platform
    simp only [World.exec]
    rw [h]
    exact ⟨rfl, fun _ _ hkey => hkey⟩
  | removeConnection place =>
    obtain ⟨connections, bound, h⟩ := w.removeConnection_eq place
    simp only [World.exec]
    rw [h]
    exact ⟨rfl, fun _ _ hkey => hkey⟩
  | generateToken | submitOnlineTask gateway task =>
    simp only [World.exec]
    split <;> exact ⟨rfl, fun _ _ hkey => hkey⟩
  | _ => exact ⟨rfl, fun _ _ hkey => hkey⟩

theorem Calm.noRows {allowed : Bytes → Prop} {w : World} (h : Calm config client allowed w)
    {choice : Choice} (hchange : Change config w client (w.exec config client op choice).1)
    (hop : NoRows op) :
    Calm config client allowed (w.exec config client op choice).1 ∧
      (w.exec config client op choice).1.devices = w.devices := by
  obtain ⟨hdevices, howed⟩ : (w.exec config client op choice).1.devices = w.devices ∧
        ∀ other, (w.exec config client op choice).1.owed other ⊆ w.owed other :=
    exec_noRows hop w choice
  exact ⟨⟨hchange.inv h.inv, fun key hkey => h.own key (howed client hkey),
    fun other hne key hkey => h.others other hne key (howed other hkey)⟩, hdevices⟩

section Rules

variable {α β : Type} {post : α → World → Prop} {w : World}
variable {allowed : Bytes → Prop}

theorem ends_exec {f : op.Res → Service α}
    (hnext : ∀ choice, (reliable config refresh).call w client op choice →
      Change config w client (w.exec config client op choice).1 →
      Ends config refresh client post (f (w.exec config client op choice).2)
        (w.exec config client op choice).1) :
    Ends config refresh client post (call op >>= f) w :=
  fun choice hguard => hnext choice hguard.1 (World.exec_change hguard.2)

theorem ends_ledger (p : Service α) (h : Invariant config w) :
    Ends config refresh client (fun _ after => Invariant config after ∧ Ledger w after)
      p w := by
  refine Ensures.keeps ?_ p.only_true ⟨h, .refl w⟩
  intro a op choice _ hguard ha
  have hchange : Change config a client (a.exec config client op choice).1 :=
    World.exec_change hguard.2
  exact ⟨hchange.inv ha.1, ha.2.trans hchange.ledger⟩

theorem ends_noRows {p : Service β} {f : β → Service α} (hp : p.Only NoRows)
    (h : Calm config client allowed w)
    (hnext : ∀ value after, Calm config client allowed after →
      after.devices = w.devices → Ledger w after →
      Ends config refresh client post (f value) after) :
    Ends config refresh client post (p >>= f) w := by
  have hkept : Ends config refresh client (fun _ after =>
      Calm config client allowed after ∧ after.devices = w.devices ∧ Ledger w after) p w := by
    refine Ensures.keeps ?_ hp ⟨h, rfl, .refl w⟩
    intro a op choice hop hguard ha
    obtain ⟨hcalm, hdevices, hledger⟩ := ha
    have hchange : Change config a client (a.exec config client op choice).1 :=
      World.exec_change hguard.2
    obtain ⟨hafter, hsame⟩ := hcalm.noRows hchange hop
    exact ⟨hafter, hsame.trans hdevices, hledger.trans hchange.ledger⟩
  exact hkept.bind fun value after h => hnext value after h.1 h.2.1 h.2.2

theorem ends_call {f : op.Res → Service α} (hop : NoRows op) (h : Calm config client allowed w)
    (hnext : ∀ answer after, Calm config client allowed after →
      after.devices = w.devices → Ledger w after →
      Ends config refresh client post (f answer) after) :
    Ends config refresh client post (call op >>= f) w :=
  ends_noRows ⟨hop, fun _ => trivial⟩ h hnext

end Rules

/-! ## Token keys and rows -/

section Rows

variable {α : Type} {post : α → World → Prop} {w : World}
variable {allowed : Bytes → Prop}

theorem generateToken_ends {f : Bytes → Service α} (h : Calm config client allowed w)
    (hnext : ∀ token after, Calm config client allowed after →
      after.devices = w.devices → Given config client token after →
      Ends config refresh client post (f token) after) :
    Ends config refresh client post (call .generateToken >>= f) w := by
  refine ends_exec fun choice _ hchange => ?_
  obtain ⟨hcalm, hdevices⟩ := h.noRows hchange trivial
  exact hnext _ _ hcalm hdevices w.exec_issued

theorem setEx_ends {token : Bytes} (hne : token ≠ []) {ttl : Int32} {value : Bytes}
    {f : Bool → Service α} (h : Calm config client allowed w)
    (hgiven : Given config client token w)
    (hnext : ∀ answer after, Calm config client allowed after → after.devices = w.devices →
      (answer = true → Minted config client token after) →
      Ends config refresh client post (f answer) after) :
    Ends config refresh client post (Redis.setEx (tokenKey config token) ttl value >>= f) w := by
  refine ends_exec fun choice _ hchange => ?_
  obtain ⟨hcalm, hdevices⟩ := h.noRows hchange trivial
  refine hnext _ _ hcalm hdevices ?_
  have htoken := isTokenKey_hashKey (tokenHash config token)
  simp only [World.exec, World.execRedis, World.recordRedis, tokenKey, htoken, if_true]
  cases choice.fault with
  | none => exact fun _ => ⟨hgiven hne, List.mem_cons_self⟩
  | _ => exact fun hanswer => absurd hanswer Bool.false_ne_true

theorem del_ends {key : Bytes} (htoken : isTokenKey key = true)
    {f : Bool → Service α} (h : Calm config client allowed w)
    (hnext : ∀ answer after, Calm config client (fun other => allowed other ∧ other ≠ key) after →
      after.devices = w.devices → Ledger w after → ¬ after.Holds key →
      Ends config refresh client post (f answer) after) :
    Ends config refresh client post (Redis.del key >>= f) w := by
  refine ends_exec fun choice hguard hchange => ?_
  have hfault := hguard.2 htoken
  have heffect : (w.exec config client (.redis (.del key)) choice).1 =
      w.afterRedis client (.del key) := w.execRedis_effect client _ hfault
  have hdead := w.not_holds_del client key hfault
  refine hnext _ _ ⟨hchange.inv h.inv, ?_, ?_⟩ (heffect ▸ rfl) hchange.ledger hdead
  · intro other hother
    simp only [heffect, World.afterRedis, World.recordRedis,
      Function.update_self, List.mem_filter] at hother
    exact ⟨h.own other hother.1, by simpa using hother.2⟩
  · intro other hne key' hkey
    rw [(hchange.same hne).owed] at hkey
    exact h.others other hne key' hkey

theorem getDevice_ends {userId : UInt64} {deviceId : Bytes}
    {f : Option UserDevice → Service α} (h : Calm config client allowed w)
    (hnext : ∀ after, Calm config client allowed after →
      after.devices = w.devices → Ledger w after →
      (∀ row, w.getDevice config userId deviceId = some row → hashKey row.tokenHash ∈ after.seen) →
      Ends config refresh client post (f (w.getDevice config userId deviceId)) after) :
    Ends config refresh client post (call (.sql (.getDevice userId deviceId)) >>= f)
      w := by
  refine ends_exec fun choice hguard hchange => ?_
  have hfault : choice.fault = .none := hguard.2
  simp only [World.exec, World.execSql, hfault, if_true] at hchange ⊢
  refine hnext _ ⟨hchange.inv h.inv, h.own, h.others⟩ rfl hchange.ledger ?_
  intro row hrow
  simp [World.recordLook, hrow]

/-- The deletion that writing `hash` into a row leaves to do. -/
def Overwritten (w : World) (row : UInt64 × Bytes) (hash key : Bytes) : Prop :=
  key = hashKey (w.storedHash row) ∧ w.storedHash row ≠ [] ∧
    w.storedHash row ≠ hash ∧ w.Holds (hashKey (w.storedHash row))

theorem Calm.overwrite (h : Settles config client w) (row : UInt64 × Bytes)
    (hash : Bytes) {devices : Table (UInt64 × Bytes) UserDevice}
    (hchange : Change config w client
      { w.recordOverwrite client row hash with devices := devices }) :
    Calm config client (Overwritten w row hash)
      { w.recordOverwrite client row hash with devices := devices } := by
  refine ⟨hchange.inv h.inv, ?_, ?_⟩
  · intro key hkey
    rcases World.of_mem_owed_recordOverwrite hkey with hold | hnew
    · exact (h.own key hold).elim
    · exact hnew
  · intro other hne key hkey
    rw [(hchange.same hne).owed] at hkey
    exact h.others other hne key hkey

theorem upsertDevice_ends (device : UserDevice) (h : Settles config client w) :
    Ends config refresh client
      (fun ok after => Ledger w after ∧
        if ok = true then
          Calm config client (Overwritten w (device.key config) device.tokenHash) after ∧
            after.storedHash (device.key config) = device.tokenHash
        else Calm config client (fun key => refresh = false ∧
          Overwritten w (device.key config) device.tokenHash key) after)
      (DeviceDao.upsertDevice device) w := by
  unfold DeviceDao.upsertDevice
  split
  · exact ⟨.refl w, h.mono fun _ => False.elim⟩
  refine ends_exec fun choice _ _ => ?_
  -- reading the clock changes nothing, and stamping keeps key and hash
  change Ends config refresh client _
    (call (.sql (.upsertDevice (DeviceDao.stamped device choice.clock))) >>= .ret)
    w
  refine ends_exec fun choice hguard hchange => ?_
  refine ⟨hchange.ledger, ?_⟩
  cases hfault : choice.fault with
  | lost =>
    -- the row is written although the statement reports a failure
    have hlogin : refresh = false := Bool.eq_false_iff.mpr fun h => hguard.2 h hfault
    simp only [World.exec, World.execSql, hfault] at hchange ⊢
    exact (h.overwrite _ _ hchange).mono fun _ hkey => ⟨hlogin, hkey⟩
  | refused =>
    simp only [World.exec, World.execSql, hfault]
    exact h.mono fun _ => False.elim
  | none =>
    simp only [World.exec, World.execSql, hfault] at hchange ⊢
    exact ⟨h.overwrite _ _ hchange, World.storedHash_upsertDevice config _⟩

theorem deletePrevious_ends {previous newHash : Bytes}
    (hallowed : ∀ key, allowed key → Replaced previous newHash key)
    (h : Calm config client allowed w) :
    Ends config refresh client
      (fun _ after => Settles config client after ∧ after.devices = w.devices ∧ Ledger w after ∧
        (previous ≠ [] → previous ≠ newHash → ¬ after.Holds (hashKey previous)))
      (User.deletePrevious previous newHash) w := by
  unfold User.deletePrevious
  split
  · refine del_ends (isTokenKey_hashKey previous) h fun _ after hcalm hdevices hledger hdead => ?_
    refine ⟨hcalm.mono ?_, hdevices, hledger, fun _ _ => hdead⟩
    rintro key ⟨hkey, hne⟩
    exact hne (hallowed key hkey).1
  · next hkept =>
    refine ⟨h.mono fun key hkey => hkept (hallowed key hkey).2, rfl, .refl w,
      fun hne hchanged => absurd ⟨hne, hchanged⟩ hkept⟩

end Rows

end NebulaIM.Device
