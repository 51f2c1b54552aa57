import NebulaIM.Foundation.Metering
import NebulaIM.Foundation.Store
import NebulaIM.Protocol.Identifiers
import Mathlib.Algebra.Field.Rat
import Mathlib.Algebra.Order.Ring.Rat
import Mathlib.Data.List.Induction

/-!
# The rate limiter

`RateLimiter` keeps a token bucket for each key it has seen, forgets the buckets that
have been idle, and turns new keys away while its table is full.  Tokens and times (in
seconds) are exact, and a call reads the clock once.
-/

namespace NebulaIM.Limits

open Foundation.Metering
open Foundation.Store (Table)
open Foundation.Wire (Bytes)
open Protocol

/-! ## Buckets -/

structure TokenBucket where
  capacity : ℚ
  tokens : ℚ
  refillRatePerSec : ℚ
  lastRefill : ℚ
  deriving DecidableEq

namespace TokenBucket

def make (capacity : Nat) (refillRatePerSec now : ℚ) : TokenBucket where
  capacity := if capacity = 0 then 1 else capacity
  tokens := if capacity = 0 then 1 else capacity
  refillRatePerSec := if 0 < refillRatePerSec then refillRatePerSec else 1
  lastRefill := now

def refillLocked (bucket : TokenBucket) (now : ℚ) : TokenBucket :=
  let elapsed := now - bucket.lastRefill
  if elapsed ≤ 0 then bucket
  else
    { bucket with
      tokens := min bucket.capacity (bucket.tokens + elapsed * bucket.refillRatePerSec)
      lastRefill := now }

def allow (bucket : TokenBucket) (tokens : Nat) (now : ℚ) : Bool × TokenBucket :=
  if tokens = 0 then (true, bucket)
  else
    let bucket := bucket.refillLocked now
    if bucket.tokens < tokens then (false, bucket)
    else (true, { bucket with tokens := bucket.tokens - tokens })

end TokenBucket

/-! ## The limiter -/

structure RateLimitConfig where
  enabled : Bool := true
  loginPerMinute : Nat := 20
  messagePerSecond : Nat := 10
  connectionPacketPerSecond : Nat := 50
  maxBucketCount : Nat := 100000
  bucketIdleSeconds : Nat := 600
  deriving DecidableEq

structure BucketEntry where
  bucket : TokenBucket
  lastUsed : ℚ
  deriving DecidableEq

structure RateLimiter where
  config : RateLimitConfig
  buckets : Table Bytes BucketEntry := ∅
  operationCount : Nat := 0

namespace RateLimiter

variable (limiter : RateLimiter)

def bucketCount : Nat := limiter.buckets.entries.length

def pruneLocked (now : ℚ) : RateLimiter :=
  { limiter with
    buckets :=
      ⟨limiter.buckets.entries.filter fun entry =>
          ¬ (limiter.config.bucketIdleSeconds : ℚ) ≤ now - entry.2.lastUsed,
        limiter.buckets.nodupKeys.sublist List.filter_sublist⟩ }

def opened (now : ℚ) : RateLimiter :=
  let counted := { limiter with operationCount := limiter.operationCount + 1 }
  if counted.operationCount % 256 = 0 ∨ limiter.config.maxBucketCount ≤ limiter.bucketCount then
    counted.pruneLocked now
  else counted

variable {limiter} in
theorem lookup_pruneLocked {now : ℚ} {key : Bytes} {entry : BucketEntry}
    (h : (limiter.pruneLocked now).buckets.lookup key = some entry) :
    limiter.buckets.lookup key = some entry :=
  AList.mem_lookup_iff.mpr (List.mem_filter.mp (AList.mem_lookup_iff.mp h)).1

variable {limiter} in
theorem lookup_pruneLocked_of {now : ℚ} {key : Bytes} {entry : BucketEntry}
    (h : limiter.buckets.lookup key = some entry)
    (hrecent : ¬ (limiter.config.bucketIdleSeconds : ℚ) ≤ now - entry.lastUsed) :
    (limiter.pruneLocked now).buckets.lookup key = some entry :=
  AList.mem_lookup_iff.mpr (List.mem_filter.mpr ⟨AList.mem_lookup_iff.mp h, by simpa using hrecent⟩)

/-- The call takes a token from its bucket. -/
def charge (key : Bytes) (bucket : TokenBucket) (now : ℚ) : Bool × RateLimiter :=
  let (allowed, bucket) := bucket.allow 1 now
  (allowed, { limiter with
    buckets := limiter.buckets.insert key { bucket, lastUsed := now } })

theorem bucketCount_charge (key : Bytes) (bucket : TokenBucket) (now : ℚ) :
    (limiter.charge key bucket now).2.bucketCount =
      if limiter.buckets.lookup key = none then limiter.bucketCount + 1
      else limiter.bucketCount :=
  Table.length_insert key _

def allow (key : Bytes) (capacity : Nat) (refillRatePerSec now : ℚ) : Bool × RateLimiter :=
  let opened := limiter.opened now
  match opened.buckets.lookup key with
  | some entry => opened.charge key entry.bucket now
  | none =>
    if opened.config.maxBucketCount ≤ opened.bucketCount then (false, opened)
    else opened.charge key (.make capacity refillRatePerSec now) now

def allowLogin (ip : Bytes) (now : ℚ) : Bool × RateLimiter :=
  if !limiter.config.enabled then (true, limiter)
  else limiter.allow (lit "login:" ++ ip) limiter.config.loginPerMinute
    (limiter.config.loginPerMinute / 60) now

def allowMessage (userId : UInt64) (now : ℚ) : Bool × RateLimiter :=
  if !limiter.config.enabled then (true, limiter)
  else limiter.allow (lit "message:" ++ decimal userId.toNat)
    limiter.config.messagePerSecond limiter.config.messagePerSecond now

def allowPacket (connectionId : Bytes) (now : ℚ) : Bool × RateLimiter :=
  if !limiter.config.enabled then (true, limiter)
  else limiter.allow (lit "packet:" ++ connectionId)
    limiter.config.connectionPacketPerSecond limiter.config.connectionPacketPerSecond now

end RateLimiter

/-! ## Calls -/

inductive RateCall where
  | allowLogin (ip : Bytes)
  | allowMessage (userId : UInt64)
  | allowPacket (connectionId : Bytes)
  deriving DecidableEq

variable {other : RateCall} {calls : List (ℚ × RateCall)}

variable {config : RateLimitConfig} {call : RateCall}

namespace RateCall

def key : RateCall → Bytes
  | .allowLogin ip => lit "login:" ++ ip
  | .allowMessage userId => lit "message:" ++ decimal userId.toNat
  | .allowPacket connectionId => lit "packet:" ++ connectionId

def capacity (config : RateLimitConfig) : RateCall → Nat
  | .allowLogin _ => config.loginPerMinute
  | .allowMessage _ => config.messagePerSecond
  | .allowPacket _ => config.connectionPacketPerSecond

def rate (config : RateLimitConfig) : RateCall → ℚ
  | .allowLogin _ => config.loginPerMinute / 60
  | .allowMessage _ => config.messagePerSecond
  | .allowPacket _ => config.connectionPacketPerSecond

def serve (limiter : RateLimiter) (now : ℚ) : RateCall → Bool × RateLimiter
  | .allowLogin ip => limiter.allowLogin ip now
  | .allowMessage userId => limiter.allowMessage userId now
  | .allowPacket connectionId => limiter.allowPacket connectionId now

theorem serve_eq (limiter : RateLimiter) (now : ℚ) (call : RateCall) : call.serve limiter now =
      if !limiter.config.enabled then (true, limiter)
      else limiter.allow call.key (call.capacity limiter.config)
        (call.rate limiter.config) now := by
  cases call <;> rfl

/-- The meter that the calls of a key share. -/
def meter (config : RateLimitConfig) (call : RateCall) : Meter ℚ where
  capacity := call.capacity config
  rate := call.rate config
  capacity_nonneg := Nat.cast_nonneg _
  rate_nonneg := by
    cases call with
    | allowLogin ip => exact div_nonneg (Nat.cast_nonneg _) (by decide)
    | allowMessage userId => exact Nat.cast_nonneg _
    | allowPacket connectionId => exact Nat.cast_nonneg _

theorem head_key (call : RateCall) :
    call.key.head? = some (match call with
      | .allowLogin _ => 108
      | .allowMessage _ => 109
      | .allowPacket _ => 112) := by
  cases call <;> rfl

theorem meter_of_key (h : call.key = other.key) : call.meter config = other.meter config := by
  have hhead := congrArg List.head? h
  rw [head_key, head_key] at hhead
  cases call <;> cases other <;> first | rfl | simp at hhead

theorem capacity_le_minute (config : RateLimitConfig) (call : RateCall) :
    (call.meter config).capacity ≤ (call.meter config).rate * 60 := by
  cases call with
  | allowLogin ip =>
    change (config.loginPerMinute : ℚ) ≤ config.loginPerMinute / 60 * 60
    linarith
  | allowMessage userId =>
    change (config.messagePerSecond : ℚ) ≤ config.messagePerSecond * 60
    linarith [(Nat.cast_nonneg config.messagePerSecond : (0 : ℚ) ≤ _)]
  | allowPacket connectionId =>
    change (config.connectionPacketPerSecond : ℚ) ≤ config.connectionPacketPerSecond * 60
    linarith [(Nat.cast_nonneg config.connectionPacketPerSecond : (0 : ℚ) ≤ _)]

end RateCall

/-! ## A limiter that forgets nothing -/

/-- One token bucket for each key, from its first call on. -/
abbrev Forever := Bytes → Option TokenBucket

def Forever.allow (config : RateLimitConfig) (kept : Forever) (call : RateCall)
    (now : ℚ) : Bool × Forever :=
  if !config.enabled then (true, kept)
  else
    let bucket := (kept call.key).getD (.make (call.capacity config) (call.rate config) now)
    let (allowed, bucket) := bucket.allow 1 now
    (allowed, Function.update kept call.key (some bucket))

/-- The key of the call has no bucket and the table is full. -/
def Crowded (limiter : RateLimiter) (call : RateCall) (now : ℚ) : Prop :=
  limiter.config.enabled = true ∧ (limiter.opened now).buckets.lookup call.key = none ∧
    limiter.config.maxBucketCount ≤ (limiter.opened now).bucketCount

instance decidableCrowded (limiter : RateLimiter) (call : RateCall) (now : ℚ) :
    Decidable (Crowded limiter call now) :=
  inferInstanceAs (Decidable (_ ∧ _ ∧ _))

/-- The limiter after the calls, and beside it one that forgets nothing and is asked the
same, except when the limiter has no room. -/
def compared (config : RateLimitConfig) (calls : List (ℚ × RateCall)) : RateLimiter × Forever :=
  calls.foldl
    (fun (limiter, kept) (now, call) =>
      ((call.serve limiter now).2,
        if Crowded limiter call now then kept else (kept.allow config call now).2))
    (⟨config, ∅, 0⟩, fun _ => none)

def askedAll (config : RateLimitConfig) (calls : List (ℚ × RateCall)) : Forever :=
  calls.foldl (fun kept (now, call) => (kept.allow config call now).2) fun _ => none

def admittedCalls : RateLimiter → List (ℚ × RateCall) → List (ℚ × RateCall)
  | _, [] => []
  | limiter, (now, call) :: calls =>
    if (call.serve limiter now).1 then
      (now, call) :: admittedCalls (call.serve limiter now).2 calls
    else admittedCalls (call.serve limiter now).2 calls

/-! ## Buckets as meters -/

def TokenBucket.level (bucket : TokenBucket) : Level ℚ := ⟨bucket.tokens, bucket.lastRefill⟩

/-- The bucket is one of the meter, last used at or before `now`. -/
structure Fits (m : Meter ℚ) (bucket : TokenBucket) (now : ℚ) : Prop where
  capacity : bucket.capacity = m.capacity
  rate : bucket.refillRatePerSec = m.rate
  sound : m.Sound bucket.level
  used : bucket.lastRefill ≤ now

namespace Fits

variable {m : Meter ℚ} {bucket : TokenBucket} {now : ℚ}

theorem later (h : Fits m bucket now) {next : ℚ} (hnext : now ≤ next) :
    Fits m bucket next :=
  ⟨h.capacity, h.rate, h.sound, h.used.trans hnext⟩

theorem refillLocked_eq (h : Fits m bucket now) : bucket.refillLocked now =
      { bucket with tokens := m.level bucket.level now, lastRefill := now } := by
  unfold TokenBucket.refillLocked
  dsimp only
  split_ifs with helapsed
  · obtain rfl : bucket.lastRefill = now := le_antisymm h.used (sub_nonpos.mp helapsed)
    rw [show m.level bucket.level bucket.lastRefill = bucket.tokens from
      Meter.level_self h.sound]
  · rw [Meter.level, h.capacity, h.rate, mul_comm]
    rfl

theorem allow_eq (h : Fits m bucket now) :
    bucket.allow 1 now = ((m.take bucket.level now).1,
      { bucket with tokens := (m.take bucket.level now).2.tokens, lastRefill := now }) := by
  unfold TokenBucket.allow
  rw [if_neg (by decide), h.refillLocked_eq]
  unfold Meter.take
  by_cases hone : 1 ≤ m.level bucket.level now
  · simp [hone]
  · simp [hone, not_le.mp hone]

theorem take_eq (h : Fits m bucket now) :
    m.take bucket.level now = ((bucket.allow 1 now).1, (bucket.allow 1 now).2.level) := by
  have htime := Meter.take_time (m := m) (s := bucket.level) now
  rw [h.allow_eq]
  generalize m.take bucket.level now = taken at htime
  obtain ⟨verdict, tokens, time⟩ := taken
  simpa [TokenBucket.level] using htime

theorem allow (h : Fits m bucket now) : Fits m (bucket.allow 1 now).2 now := by
  have hsound := Meter.sound_take h.sound h.used
  rw [h.allow_eq]
  exact ⟨h.capacity, h.rate, ⟨hsound.nonneg, hsound.le_capacity⟩, le_rfl⟩

theorem make (call : RateCall)
    (hcapacity : 0 < call.capacity config) (hrate : 0 < call.rate config) (now : ℚ) :
    Fits (call.meter config) (.make (call.capacity config) (call.rate config) now) now := by
  have hmake : TokenBucket.make (call.capacity config) (call.rate config) now =
      ⟨call.capacity config, call.capacity config, call.rate config, now⟩ := by
    simp [TokenBucket.make, hcapacity.ne', hrate]
  rw [hmake]
  exact ⟨rfl, rfl, ⟨Nat.cast_nonneg _, le_rfl⟩, le_rfl⟩

theorem allow_of_idle (h : Fits (call.meter config) bucket now)
    (hcapacity : 0 < call.capacity config) (hrate : 0 < call.rate config)
    (hidle : bucket.capacity ≤
      bucket.tokens + bucket.refillRatePerSec * (now - bucket.lastRefill)) :
    bucket.allow 1 now =
      (TokenBucket.make (call.capacity config) (call.rate config) now).allow 1 now := by
  have hnew := Fits.make call hcapacity hrate now
  have hfull : (call.meter config).level bucket.level now = (call.meter config).capacity := by
    apply Meter.level_of_idle
    rw [← h.capacity, ← h.rate]
    exact hidle
  have hfresh : (call.meter config).level
      (TokenBucket.make (call.capacity config) (call.rate config) now).level now =
        (call.meter config).capacity := by
    refine (Meter.level_self hnew.sound).trans ?_
    exact if_neg hcapacity.ne'
  rw [h.allow_eq, hnew.allow_eq, Meter.take_congr (hfull.trans hfresh.symm),
    h.capacity, h.rate, hnew.capacity, hnew.rate]

end Fits

/-- The limits are positive, there is room for a bucket and a bucket is kept for at
least a minute. -/
structure RateLimitConfig.Sensible (config : RateLimitConfig) : Prop where
  login : 0 < config.loginPerMinute
  message : 0 < config.messagePerSecond
  packet : 0 < config.connectionPacketPerSecond
  room : 1 ≤ config.maxBucketCount
  idle : 60 ≤ config.bucketIdleSeconds

theorem RateLimitConfig.Sensible.capacity
    (h : config.Sensible) (call : RateCall) : 0 < call.capacity config := by
  cases call with
  | allowLogin ip => exact h.login
  | allowMessage userId => exact h.message
  | allowPacket connectionId => exact h.packet

theorem RateLimitConfig.Sensible.rate
    (h : config.Sensible) (call : RateCall) : 0 < call.rate config := by
  cases call with
  | allowLogin ip => exact div_pos (Nat.cast_pos.mpr h.login) (by decide)
  | allowMessage userId => exact Nat.cast_pos.mpr h.message
  | allowPacket connectionId => exact Nat.cast_pos.mpr h.packet

/-! ## Forgetting buckets -/

/-- The limiter and the one that forgets nothing hold the same buckets, and what the
limiter has forgotten is full again. -/
structure Agrees (config : RateLimitConfig) (now : ℚ) (limiter : RateLimiter)
    (kept : Forever) : Prop where
  config_eq : limiter.config = config
  count : limiter.bucketCount ≤ config.maxBucketCount
  held : ∀ key entry, limiter.buckets.lookup key = some entry →
    kept key = some entry.bucket ∧ entry.lastUsed = entry.bucket.lastRefill
  fits : ∀ key bucket, kept key = some bucket →
    ∃ call : RateCall, call.key = key ∧ Fits (call.meter config) bucket now
  idle : ∀ key bucket, limiter.buckets.lookup key = none → kept key = some bucket →
    bucket.capacity ≤ bucket.tokens + bucket.refillRatePerSec * (now - bucket.lastRefill)

namespace Agrees

variable {config : RateLimitConfig} {now : ℚ} {limiter : RateLimiter} {kept : Forever}

theorem start (now : ℚ) : Agrees config now ⟨config, ∅, 0⟩ fun _ => none where
  config_eq := rfl
  count := Nat.zero_le _
  held key entry hentry := absurd hentry Table.lookup_empty_ne
  fits key bucket hbucket := by cases hbucket
  idle key bucket _ hbucket := by cases hbucket

variable (h : Agrees config now limiter kept)

include h

theorem later {next : ℚ} (hnext : now ≤ next) : Agrees config next limiter kept where
  config_eq := h.config_eq
  count := h.count
  held := h.held
  fits key bucket hbucket := by
    obtain ⟨call, hkey, hfits⟩ := h.fits key bucket hbucket
    exact ⟨call, hkey, hfits.later hnext⟩
  idle key bucket hnone hbucket := by
    obtain ⟨call, _, hfits⟩ := h.fits key bucket hbucket
    have hrate : 0 ≤ bucket.refillRatePerSec := hfits.rate ▸ (call.meter config).rate_nonneg
    have hmore : bucket.refillRatePerSec * (now - bucket.lastRefill) ≤
        bucket.refillRatePerSec * (next - bucket.lastRefill) :=
      mul_le_mul_of_nonneg_left (by linarith) hrate
    linarith [h.idle key bucket hnone hbucket]

theorem pruneLocked (hidle : 60 ≤ config.bucketIdleSeconds) :
    Agrees config now (limiter.pruneLocked now) kept where
  config_eq := h.config_eq
  count := List.length_filter_le _ _ |>.trans h.count
  held key entry hentry := h.held key entry (RateLimiter.lookup_pruneLocked hentry)
  fits := h.fits
  idle key bucket hnone hbucket := by
    cases hentry : limiter.buckets.lookup key with
    | none => exact h.idle key bucket hentry hbucket
    | some entry =>
      -- the entry was removed, so its bucket has been idle for a minute
      obtain ⟨hheld, hused⟩ := h.held key entry hentry
      obtain rfl : entry.bucket = bucket := Option.some.inj (hheld.symm.trans hbucket)
      obtain ⟨call, _, hfits⟩ := h.fits key entry.bucket hheld
      have hlong : (config.bucketIdleSeconds : ℚ) ≤ now - entry.bucket.lastRefill := by
        by_contra hrecent
        rw [← hused, ← h.config_eq] at hrecent
        rw [RateLimiter.lookup_pruneLocked_of hentry hrecent] at hnone
        cases hnone
      have hminute : (60 : ℚ) ≤ now - entry.bucket.lastRefill :=
        le_trans (by exact_mod_cast hidle) hlong
      have hrefill : (call.meter config).rate * 60 ≤
          (call.meter config).rate * (now - entry.bucket.lastRefill) :=
        mul_le_mul_of_nonneg_left hminute (call.meter config).rate_nonneg
      have htokens : 0 ≤ entry.bucket.tokens := hfits.sound.nonneg
      have hcapacity := call.capacity_le_minute config
      rw [hfits.capacity, hfits.rate]
      linarith

theorem opened (hidle : 60 ≤ config.bucketIdleSeconds) :
    Agrees config now (limiter.opened now) kept := by
  have hcounted : Agrees config now
      { limiter with operationCount := limiter.operationCount + 1 } kept :=
    ⟨h.config_eq, h.count, h.held, h.fits, h.idle⟩
  unfold RateLimiter.opened
  dsimp only
  split_ifs
  · exact hcounted.pruneLocked hidle
  · exact hcounted

theorem charge {bucket : TokenBucket} (hfits : Fits (call.meter config) bucket now)
    (hroom : limiter.buckets.lookup call.key = none → limiter.bucketCount < config.maxBucketCount) :
    Agrees config now (limiter.charge call.key bucket now).2
      (Function.update kept call.key (some (bucket.allow 1 now).2)) where
  config_eq := h.config_eq
  count := by
    rw [RateLimiter.bucketCount_charge]
    split_ifs with hnone
    · exact hroom hnone
    · exact h.count
  held key entry hentry := by
    by_cases hkey : key = call.key
    · subst hkey
      rw [RateLimiter.charge, AList.lookup_insert] at hentry
      cases hentry
      rw [Function.update_self]
      refine ⟨rfl, ?_⟩
      rw [hfits.allow_eq]
    · rw [RateLimiter.charge, AList.lookup_insert_ne hkey] at hentry
      rw [Function.update_of_ne hkey]
      exact h.held key entry hentry
  fits key other hother := by
    by_cases hkey : key = call.key
    · subst hkey
      rw [Function.update_self] at hother
      cases hother
      exact ⟨call, rfl, hfits.allow⟩
    · rw [Function.update_of_ne hkey] at hother
      exact h.fits key other hother
  idle key other hnone hother := by
    by_cases hkey : key = call.key
    · subst hkey
      rw [RateLimiter.charge, AList.lookup_insert] at hnone
      cases hnone
    · rw [RateLimiter.charge, AList.lookup_insert_ne hkey] at hnone
      rw [Function.update_of_ne hkey] at hother
      exact h.idle key other hnone hother

theorem fits_key {bucket : TokenBucket} (hbucket : kept call.key = some bucket) :
    Fits (call.meter config) bucket now := by
  obtain ⟨other, hkey, hfits⟩ := h.fits call.key bucket hbucket
  rwa [← RateCall.meter_of_key hkey]

/-- One call: the verdicts agree, or the limiter has no room. -/
theorem serve (hsensible : config.Sensible) (call : RateCall) :
    if Crowded limiter call now then
      (call.serve limiter now).1 = false ∧ Agrees config now (call.serve limiter now).2 kept
    else
      (call.serve limiter now).1 = (kept.allow config call now).1 ∧
        Agrees config now (call.serve limiter now).2 (kept.allow config call now).2 := by
  have hconfig := h.config_eq
  cases henabled : config.enabled with
  | false =>
    have hcrowded : ¬ Crowded limiter call now := by
      simp [Crowded, hconfig, henabled]
    rw [if_neg hcrowded, RateCall.serve_eq, hconfig]
    simp [henabled, Forever.allow, h]
  | true =>
    have hopened := h.opened hsensible.idle
    have hserve : call.serve limiter now = limiter.allow call.key
        (call.capacity config) (call.rate config) now := by
      rw [RateCall.serve_eq, hconfig]
      simp [henabled]
    have hkept : kept.allow config call now =
        ((((kept call.key).getD (.make (call.capacity config) (call.rate config)
            now)).allow 1 now).1,
          Function.update kept call.key (some ((kept call.key).getD
            (.make (call.capacity config) (call.rate config) now) |>.allow 1 now).2)) := by
      simp [Forever.allow, henabled]
    rw [hserve, hkept, RateLimiter.allow]
    cases hlookup : (limiter.opened now).buckets.lookup call.key with
    | some entry =>
      have hcrowded : ¬ Crowded limiter call now := by
        simp [Crowded, hlookup]
      obtain ⟨hheld, _⟩ := hopened.held call.key entry hlookup
      rw [if_neg hcrowded, hheld]
      exact ⟨rfl, hopened.charge (hopened.fits_key hheld)
        fun hnone => by rw [hlookup] at hnone; cases hnone⟩
    | none =>
      by_cases hfull : config.maxBucketCount ≤ (limiter.opened now).bucketCount
      · have hcrowded : Crowded limiter call now := by
          refine ⟨by rw [hconfig, henabled], hlookup, by rwa [hconfig]⟩
        rw [if_pos hcrowded, hopened.config_eq]
        simp only [hfull, if_true]
        exact ⟨trivial, hopened⟩
      · have hcrowded : ¬ Crowded limiter call now := by
          simp [Crowded, hconfig, hfull]
        have hcharge := hopened.charge (Fits.make call (hsensible.capacity call)
          (hsensible.rate call) now) fun _ => not_le.mp hfull
        rw [if_neg hcrowded, hopened.config_eq]
        simp only [hfull, if_false]
        cases hbucket : kept call.key with
        | none => exact ⟨rfl, hcharge⟩
        | some bucket =>
          have hsame := (hopened.fits_key hbucket).allow_of_idle
            (hsensible.capacity call) (hsensible.rate call)
            (hopened.idle call.key bucket hlookup hbucket)
          rw [Option.getD_some, hsame]
          exact ⟨rfl, hcharge⟩

end Agrees

/-! ## Runs -/

theorem compared_snoc (config : RateLimitConfig) (calls : List (ℚ × RateCall)) (now : ℚ)
    (call : RateCall) :
    compared config (calls ++ [(now, call)]) =
      ((call.serve (compared config calls).1 now).2,
        if Crowded (compared config calls).1 call now then (compared config calls).2
        else ((compared config calls).2.allow config call now).2) := by
  rw [compared, List.foldl_append]
  rfl

theorem agrees_compared (hsensible : config.Sensible)
    (hclock : (calls.map Prod.fst).Pairwise (· ≤ ·)) (now : ℚ)
    (hnow : ∀ entry ∈ calls, entry.1 ≤ now) :
    Agrees config now (compared config calls).1 (compared config calls).2 := by
  induction calls using List.reverseRecOn generalizing now with
  | nil => exact .start now
  | append_singleton calls entry ih =>
    obtain ⟨time, call⟩ := entry
    rw [List.map_append] at hclock
    obtain ⟨hbefore, _, hlast⟩ := List.pairwise_append.mp hclock
    have hagrees := ih hbefore time fun entry hentry =>
      hlast _ (List.mem_map_of_mem hentry) time (by simp)
    have hserve := hagrees.serve hsensible call
    have htime : time ≤ now := hnow (time, call) (by simp)
    rw [compared_snoc]
    split_ifs at hserve ⊢
    · exact hserve.2.later htime
    · exact hserve.2.later htime

theorem bucketCount_le (hsensible : config.Sensible)
    (hclock : (calls.map Prod.fst).Pairwise (· ≤ ·)) :
    (compared config calls).1.bucketCount ≤ config.maxBucketCount := by
  rcases List.eq_nil_or_concat calls with rfl | ⟨before, last, rfl⟩
  · exact (agrees_compared hsensible hclock 0 (by simp)).count
  · refine (agrees_compared hsensible hclock last.1 fun entry hentry => ?_).count
    rw [List.concat_eq_append, List.map_append] at hclock
    rw [List.concat_eq_append, List.mem_append] at hentry
    rcases hentry with hbefore | hlast
    · exact (List.pairwise_append.mp hclock).2.2 _ (List.mem_map_of_mem hbefore) _ (by simp)
    · rw [List.mem_singleton.mp hlast]

/-! ## What is admitted -/

/-- The level of the call's key: full since `origin` if it has not been called. -/
def Forever.level (config : RateLimitConfig) (kept : Forever) (call : RateCall)
    (origin : ℚ) : Level ℚ :=
  match kept call.key with
  | some bucket => bucket.level
  | none => ⟨(call.meter config).capacity, origin⟩

section Level

variable {config : RateLimitConfig} {limiter : RateLimiter} {kept : Forever}
  {call : RateCall} {origin now : ℚ}

theorem sound_level (h : Agrees config now limiter kept) :
    (call.meter config).Sound (kept.level config call origin) := by
  unfold Forever.level
  cases hbucket : kept call.key with
  | some bucket => exact (h.fits_key hbucket).sound
  | none => exact ⟨(call.meter config).capacity_nonneg, le_rfl⟩

theorem take_level (call : RateCall) (h : Agrees config now limiter kept)
    (hsensible : config.Sensible) (henabled : config.enabled = true) (horigin : origin ≤ now) :
    (call.meter config).take (kept.level config call origin) now =
      ((kept.allow config call now).1,
        (kept.allow config call now).2.level config call origin) := by
  have hfits : Fits (call.meter config)
      ((kept call.key).getD (.make (call.capacity config) (call.rate config) now)) now := by
    cases hbucket : kept call.key with
    | some bucket => exact h.fits_key hbucket
    | none => exact .make call (hsensible.capacity call) (hsensible.rate call) now
  have hlevel : (call.meter config).level (kept.level config call origin) now =
      (call.meter config).level ((kept call.key).getD
        (.make (call.capacity config) (call.rate config) now)).level now := by
    unfold Forever.level
    cases hbucket : kept call.key with
    | some bucket => rfl
    | none =>
      rw [hbucket, Option.getD_none] at hfits
      have hrefill : 0 ≤ (call.meter config).rate * (now - origin) :=
        mul_nonneg (call.meter config).rate_nonneg (sub_nonneg.mpr horigin)
      have hnew : (TokenBucket.make (call.capacity config) (call.rate config) now).level =
          ⟨(call.meter config).capacity, now⟩ := by
        simp [TokenBucket.make, TokenBucket.level, RateCall.meter, (hsensible.capacity call).ne']
      rw [Option.getD_none, hnew]
      exact (Meter.level_of_idle (by linarith)).trans
        (Meter.level_of_idle (by simp)).symm
  rw [Meter.take_congr hlevel, hfits.take_eq]
  simp [Forever.allow, henabled, Forever.level]

theorem Forever.allow_of_key (h : call.key = other.key) :
    kept.allow config call now = kept.allow config other now := by
  have hmeter : call.meter config = other.meter config := RateCall.meter_of_key h
  have hcapacity : call.capacity config = other.capacity config :=
    Nat.cast_injective (congrArg Meter.capacity hmeter)
  have hrate : call.rate config = other.rate config := congrArg Meter.rate hmeter
  rw [Forever.allow, Forever.allow, h, hcapacity, hrate]

theorem level_allow_of_ne (h : call.key ≠ other.key) :
    (kept.allow config other now).2.level config call origin =
      kept.level config call origin := by
  unfold Forever.allow
  split_ifs
  · rfl
  · simp [Forever.level, Function.update_of_ne h]

/-- The admitted calls of a key are what its meter admits at some of the times. -/
theorem admittedCalls_key (hsensible : config.Sensible) (henabled : config.enabled = true)
    (call : RateCall) (horigin : origin ≤ now) (h : Agrees config now limiter kept)
    (hclock : (now :: calls.map Prod.fst).Pairwise (· ≤ ·)) :
    ∃ times, (now :: times).Pairwise (· ≤ ·) ∧
      ((admittedCalls limiter calls).filter fun entry => entry.2.key = call.key).map Prod.fst =
        (call.meter config).admitted (kept.level config call origin) times := by
  induction calls generalizing now limiter kept with
  | nil => exact ⟨[], by simp, rfl⟩
  | cons entry calls ih =>
    obtain ⟨time, other⟩ := entry
    obtain ⟨hnow, hafter⟩ := List.pairwise_cons.mp hclock
    have htime : now ≤ time := hnow time (by simp)
    have hagrees := h.later htime
    have hserve := hagrees.serve hsensible other
    -- the times of the later calls are not before `now`
    have hsorted : ∀ {times : List ℚ}, (time :: times).Pairwise (· ≤ ·) →
        (now :: time :: times).Pairwise (· ≤ ·) := fun hrest =>
      List.pairwise_cons.mpr ⟨by
        intro later hlater
        rcases List.mem_cons.mp hlater with rfl | hmem
        · exact htime
        · exact htime.trans ((List.pairwise_cons.mp hrest).1 later hmem), hrest⟩
    unfold admittedCalls
    split_ifs at hserve with hcrowded
    · obtain ⟨hverdict, hnext⟩ := hserve
      obtain ⟨times, htimes, hadmitted⟩ := ih (horigin.trans htime) hnext hafter
      rw [if_neg (by simp [hverdict])]
      exact ⟨times, (hsorted htimes).sublist (by simp), hadmitted⟩
    · obtain ⟨hverdict, hnext⟩ := hserve
      obtain ⟨times, htimes, hadmitted⟩ := ih (horigin.trans htime) hnext hafter
      by_cases hkey : call.key = other.key
      · have htake := take_level call hagrees hsensible henabled (horigin.trans htime)
        rw [← Forever.allow_of_key hkey] at hverdict hadmitted
        refine ⟨time :: times, hsorted htimes, ?_⟩
        rw [Meter.admitted, htake, hverdict]
        split_ifs
        · rw [List.filter_cons_of_pos (by simpa using hkey.symm), List.map_cons, hadmitted]
        · exact hadmitted
      · rw [level_allow_of_ne hkey] at hadmitted
        refine ⟨times, (hsorted htimes).sublist (by simp), ?_⟩
        split_ifs
        · rw [List.filter_cons_of_neg (by simpa using Ne.symm hkey), hadmitted]
        · exact hadmitted

end Level

theorem admittedCalls_le (hsensible : config.Sensible)
    (henabled : config.enabled = true) (hclock : (calls.map Prod.fst).Pairwise (· ≤ ·))
    (call : RateCall) {first last : ℚ} (hinterval : first ≤ last) :
    (((admittedCalls ⟨config, ∅, 0⟩ calls).filter fun entry =>
        entry.2.key = call.key ∧ first ≤ entry.1 ∧ entry.1 ≤ last).length : ℚ) ≤
      call.capacity config + call.rate config * (last - first) := by
  -- the time before which nothing was called
  obtain ⟨origin, horigin⟩ : ∃ origin, (origin :: calls.map Prod.fst).Pairwise (· ≤ ·) := by
    cases calls with
    | nil => exact ⟨0, by simp⟩
    | cons entry calls =>
      refine ⟨entry.1, List.pairwise_cons.mpr ⟨fun time htime => ?_, hclock⟩⟩
      rcases List.mem_cons.mp htime with rfl | hlater
      · exact le_rfl
      · exact (List.pairwise_cons.mp hclock).1 time hlater
  have hstart : Agrees config origin ⟨config, ∅, 0⟩ fun _ => none := .start origin
  obtain ⟨times, htimes, hadmitted⟩ :=
    admittedCalls_key hsensible henabled call le_rfl hstart horigin
  have hcount : ((admittedCalls ⟨config, ∅, 0⟩ calls).filter fun entry =>
        entry.2.key = call.key ∧ first ≤ entry.1 ∧ entry.1 ≤ last).length =
      (call.meter config).admittedWithin
        (Forever.level config (fun _ => none) call origin) first last times := by
    rw [Meter.admittedWithin, ← hadmitted, List.filter_map, List.length_map, List.filter_filter]
    congr 1
    refine List.filter_congr fun entry _ => ?_
    simp [Bool.and_comm]
  rw [hcount]
  exact Meter.admittedWithin_le (sound_level hstart) hinterval htimes

/-- For every sequence of calls at times that do not decrease, from an empty limiter: the
table stays within its bound; every verdict is that of the limiter that forgets nothing,
except that a key without a bucket is refused while the table is full; and in an interval
no key has more calls admitted than its capacity and what the interval refills. -/
theorem limiter_agrees_forever (config : RateLimitConfig) (hsensible : config.Sensible)
    (calls : List (ℚ × RateCall)) (hclock : (calls.map Prod.fst).Pairwise (· ≤ ·)) :
    (compared config calls).1.bucketCount ≤ config.maxBucketCount ∧
      (∀ before now call after, calls = before ++ (now, call) :: after →
        (call.serve (compared config before).1 now).1 =
          if Crowded (compared config before).1 call now then false
          else ((compared config before).2.allow config call now).1) ∧
      (config.enabled = true → ∀ (call : RateCall) (first length : ℚ), 0 ≤ length →
        (((admittedCalls ⟨config, ∅, 0⟩ calls).filter fun entry =>
            entry.2.key = call.key ∧ first ≤ entry.1 ∧ entry.1 ≤ first + length).length : ℚ) ≤
          call.capacity config + call.rate config * length) := by
  refine ⟨bucketCount_le hsensible hclock, ?_, ?_⟩
  · rintro before now call after rfl
    rw [List.map_append] at hclock
    obtain ⟨hbefore, _, hlast⟩ := List.pairwise_append.mp hclock
    have hserve := (agrees_compared hsensible hbefore now fun entry hentry =>
      hlast _ (List.mem_map_of_mem hentry) now (by simp)).serve hsensible call
    split_ifs at hserve ⊢
    · exact hserve.1
    · exact hserve.1
  · intro henabled call first length hlength
    have hbound := admittedCalls_le hsensible henabled hclock call
      (le_add_of_nonneg_right hlength : first ≤ first + length)
    rwa [add_sub_cancel_left] at hbound

/-- One login a minute, and room for one key. -/
def oneLogin : RateLimitConfig :=
  { loginPerMinute := 1, maxBucketCount := 1, bucketIdleSeconds := 60 }

theorem oneLogin_agrees :
    ((admittedCalls ⟨oneLogin, ∅, 0⟩
        [(0, .allowLogin []), (30, .allowLogin []), (60, .allowLogin [])]).filter fun entry =>
      entry.2.key = (RateCall.allowLogin []).key ∧ (0 : ℚ) ≤ entry.1 ∧
        entry.1 ≤ 0 + 60).length = 2 ∧
    (((admittedCalls ⟨oneLogin, ∅, 0⟩
        [(0, .allowLogin []), (30, .allowLogin []), (60, .allowLogin [])]).filter fun entry =>
      entry.2.key = (RateCall.allowLogin []).key ∧ (0 : ℚ) ≤ entry.1 ∧
        entry.1 ≤ 0 + 60).length : ℚ) ≤
      (RateCall.allowLogin []).capacity oneLogin + (RateCall.allowLogin []).rate oneLogin * 60 :=
  ⟨by decide +kernel, (limiter_agrees_forever oneLogin
    ⟨by decide, by decide, by decide, by decide, by decide⟩
    [(0, .allowLogin []), (30, .allowLogin []), (60, .allowLogin [])]
    (by decide +kernel)).2.2 rfl (.allowLogin []) 0 60 (by decide +kernel)⟩

/-- A disabled limiter admits every call.  And a key that was turned away for lack of room
has its whole capacity later, which the limiter that was asked then does not give it. -/
theorem turnedAway_admitted :
    (admittedCalls ⟨{ oneLogin with enabled := false }, ∅, 0⟩
      [(0, .allowLogin []), (0, .allowLogin [])]).length = 2 ∧
    ¬ Crowded (compared oneLogin [(0, .allowLogin [97]), (59, .allowLogin [98])]).1
      (.allowLogin [98]) 60 ∧
    ((RateCall.allowLogin [98]).serve
      (compared oneLogin [(0, .allowLogin [97]), (59, .allowLogin [98])]).1 60).1 = true ∧
    ((askedAll oneLogin [(0, .allowLogin [97]), (59, .allowLogin [98])]).allow oneLogin
      (.allowLogin [98]) 60).1 = false := by
  decide +kernel

end NebulaIM.Limits
