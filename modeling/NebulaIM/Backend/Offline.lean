import NebulaIM.Backend.Rows

/-!
# Rows of `offline_messages`

The payload column holds hexadecimal text, which `OfflineMessageDao` writes and
reads back; the rows of the model hold the bytes.  The rest of the module says
what statements leave of a row and which rows are listed.
-/

namespace NebulaIM.Backend

open Foundation Foundation.Store
open Foundation.Wire (Bytes)

/-! ## The payload column -/

def hexDigits : Bytes := Protocol.lit "0123456789abcdef"

def toHex (bytes : Bytes) : Bytes :=
  bytes.flatMap fun ch : UInt8 =>
    [hexDigits.getD (ch >>> 4).toNat 0, hexDigits.getD (ch &&& 0x0F).toNat 0]

def hexValue (c : UInt8) : Int :=
  if 48 ≤ c ∧ c ≤ 57 then c.toNat - 48
  else if 97 ≤ c ∧ c ≤ 102 then c.toNat - 97 + 10
  else if 65 ≤ c ∧ c ≤ 70 then c.toNat - 65 + 10
  else -1

/-- The loop of `fromHex`; `none` where it returns early. -/
def fromHexPairs : Bytes → Option Bytes
  | hi :: lo :: rest =>
    if hexValue hi < 0 ∨ hexValue lo < 0 then none
    else (fromHexPairs rest).map fun out =>
      UInt8.ofNat ((hexValue hi).toNat <<< 4 ||| (hexValue lo).toNat) :: out
  | _ => some []

def fromHex (hex : Bytes) : Bytes :=
  if hex.length % 2 ≠ 0 then [] else (fromHexPairs hex).getD []

theorem hexValue_digits (ch : UInt8) : 0 ≤ hexValue (hexDigits.getD (ch >>> 4).toNat 0) ∧
      0 ≤ hexValue (hexDigits.getD (ch &&& 0x0F).toNat 0) ∧
      UInt8.ofNat ((hexValue (hexDigits.getD (ch >>> 4).toNat 0)).toNat <<< 4 |||
        (hexValue (hexDigits.getD (ch &&& 0x0F).toNat 0)).toNat) = ch := by
  have hbyte : ∀ n < 256, 0 ≤ hexValue (hexDigits.getD (UInt8.ofNat n >>> 4).toNat 0) ∧
      0 ≤ hexValue (hexDigits.getD (UInt8.ofNat n &&& 0x0F).toNat 0) ∧
      UInt8.ofNat
        ((hexValue (hexDigits.getD (UInt8.ofNat n >>> 4).toNat 0)).toNat <<< 4 |||
        (hexValue (hexDigits.getD (UInt8.ofNat n &&& 0x0F).toNat 0)).toNat) =
          UInt8.ofNat n := by
    decide +kernel
  simpa using hbyte ch.toNat ch.toNat_lt

theorem fromHexPairs_toHex (bytes : Bytes) : fromHexPairs (toHex bytes) = some bytes := by
  induction bytes with
  | nil => rfl
  | cons ch bytes ih =>
    obtain ⟨hhi, hlo, hbyte⟩ := hexValue_digits ch
    have hvalid : ¬ (hexValue (hexDigits.getD (ch >>> 4).toNat 0) < 0 ∨
        hexValue (hexDigits.getD (ch &&& 0x0F).toNat 0) < 0) := by
      omega
    simp only [toHex, List.flatMap_cons, List.cons_append, List.nil_append,
      fromHexPairs, if_neg hvalid] at ih ⊢
    rw [ih, Option.map_some, hbyte]

theorem toHex_length (bytes : Bytes) : (toHex bytes).length = 2 * bytes.length := by
  induction bytes with
  | nil => rfl
  | cons ch bytes ih =>
    simp only [toHex, List.flatMap_cons, List.length_append, List.length_cons,
      List.length_nil] at ih ⊢
    omega

theorem fromHex_toHex (bytes : Bytes) : fromHex (toHex bytes) = bytes := by
  have heven : ¬ (toHex bytes).length % 2 ≠ 0 := by
    rw [toHex_length]
    omega
  rw [fromHex, if_neg heven, fromHexPairs_toHex]
  rfl

/-! ## Rows behind a list of writes -/

/-- Without a removal, a copy stays as it was or is one that was put. -/
theorem lookup_offline_applyAll (db : Db) (writes : List Write)
    (key : UInt64 × UInt64) (hkept : .removeOffline key.1 key.2 ∉ writes) :
    ((applyAll (D := dialect) db writes).offline.lookup key = db.offline.lookup key ∧
      ∀ row, .putOffline row ∈ writes → (row.userId, row.messageId) ≠ key) ∨
      ∃ row, .putOffline row ∈ writes ∧ (row.userId, row.messageId) = key ∧
        (applyAll (D := dialect) db writes).offline.lookup key = some row := by
  induction writes generalizing db with
  | nil => exact .inl ⟨rfl, fun _ hmem => absurd hmem List.not_mem_nil⟩
  | cons write writes ih =>
    rw [applyAll_cons]
    obtain ⟨hwrite, hkept⟩ := not_or.mp (mt List.mem_cons.mpr hkept)
    obtain ⟨hsame, hnone⟩ | ⟨row, hmem, hkey, hrow⟩ := ih (dialect.apply db write) hkept
    · by_cases htouched : .offline key.1 key.2 ∈ write.touches
      · cases write with
        | putOffline row =>
          have hkey : (row.userId, row.messageId) = key := by
            simp only [Write.touches, List.mem_singleton, Key.offline.injEq] at htouched
            exact Prod.ext htouched.1.symm htouched.2.symm
          refine .inr ⟨row, List.mem_cons_self, hkey, hsame.trans ?_⟩
          subst hkey
          exact AList.lookup_insert db.offline
        | removeOffline userId messageId =>
          simp only [Write.touches, List.mem_singleton, Key.offline.injEq] at htouched
          exact absurd (by rw [htouched.1, htouched.2]) hwrite
        | insertMessage row =>
          simp only [Write.touches] at htouched
          split at htouched <;> simp at htouched
        | _ => simp [Write.touches] at htouched
      · refine .inl ⟨hsame.trans (Key.Agree.apply db htouched), fun row hmem => ?_⟩
        rcases List.mem_cons.mp hmem with rfl | hrest
        · rintro rfl
          exact htouched List.mem_cons_self
        · exact hnone row hrest
    · exact .inr ⟨row, List.mem_cons_of_mem _ hmem, hkey, hrow⟩

theorem removeOffline_of_mem_plan {stmt : Stmt} {choice : Choice} {db : Db}
    {locked : List Key} {userId messageId : UInt64}
    (h : .removeOffline userId messageId ∈ (stmt.plan choice db locked).writes) :
    ∃ table before limit, stmt = .deleteExpired table before limit := by
  cases stmt <;> simp only [Stmt.plan] at h
  case deleteExpired table before limit => exact ⟨table, before, limit, rfl⟩
  all_goals
    repeat' split at h
    all_goals first
      | (simp only [Backend.read, List.not_mem_nil] at h)
      | simp_all [writing]

section Saved

variable {db : Db}

theorem savedOffline_key (hkeyed : db.Keyed) (message : OfflineMessage) :
    ((db.savedOffline message).userId, (db.savedOffline message).messageId) =
      (message.userId, message.messageId) := by
  simp only [Db.savedOffline]
  split
  · rfl
  · next old hold =>
    have hkey := hkeyed.offline _ _ hold
    simp only [OfflineMessage.upsert]
    repeat' split
    all_goals exact hkey

theorem savedOffline_payload (copy : OfflineMessage) :
    (db.savedOffline copy).payload = copy.payload ∨
      ∃ old, db.offline.lookup (copy.userId, copy.messageId) = some old ∧
        (db.savedOffline copy).payload = old.payload := by
  simp only [Db.savedOffline]
  split
  · exact .inl rfl
  · next old hold =>
    by_cases hacked : old.status = .acked
    · exact .inr ⟨old, hold, by simp [OfflineMessage.upsert, hacked]⟩
    · refine .inl ?_
      simp only [OfflineMessage.upsert, if_neg hacked]
      split <;> rfl

end Saved

theorem mem_pending {db : Db} {userId : UInt64} {limit : Nat}
    (hlimit : (Table.rows db.offline).length ≤ limit) {row : OfflineMessage} :
    row ∈ db.pending userId limit ↔
      row ∈ Table.rows db.offline ∧ row.userId = userId ∧ row.Pullable := by
  simp only [Db.pending]
  rw [List.take_of_length_le]
  · simp only [List.mem_insertionSort, List.mem_filter, decide_eq_true_eq]
  · rw [List.length_insertionSort]
    exact (List.length_filter_le _ _).trans hlimit

end NebulaIM.Backend
