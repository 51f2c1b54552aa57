import NebulaIM.Foundation.Wire

/-!
# Where UTF-8 can be cut

The characters of a text are found again from any of its bytes: in well-formed UTF-8 the
positions between two characters are those that do not hold a tail byte.
-/

namespace Foundation.Wire

variable {pending : List (UInt8 × UInt8)} {text : Bytes}

def IsTail (byte : UInt8) : Prop := 0x80 ≤ byte ∧ byte ≤ 0xBF

instance decidableIsTail (byte : UInt8) : Decidable (IsTail byte) :=
  inferInstanceAs (Decidable (_ ∧ _))

theorem forall_byte {P : UInt8 → Prop} (h : ∀ n < 256, P (UInt8.ofNat n)) (byte : UInt8) :
    P byte := by
  have hbyte := h byte.toNat byte.toNat_lt
  rwa [UInt8.ofNat_toNat] at hbyte

theorem continuation_of_tail {byte : UInt8} (h : IsTail byte) : continuation byte = none :=
  forall_byte (P := fun byte => IsTail byte → continuation byte = none) (by decide +kernel) byte h

/-- What a leading byte announces are tail bytes. -/
theorem tails_of_continuation {byte : UInt8} (h : continuation byte = some pending) :
    ∀ range ∈ pending, 0x80 ≤ range.1 ∧ range.2 ≤ 0xBF := by
  unfold continuation at h
  split_ifs at h <;> cases Option.some.inj h <;> simp

theorem utf8From_append (h : utf8From pending text = true) (rest : Bytes) :
    utf8From pending (text ++ rest) = utf8From [] rest := by
  induction text generalizing pending with
  | nil =>
    cases pending with
    | nil => rfl
    | cons range pending => cases h
  | cons byte text ih =>
    cases pending with
    | nil =>
      simp only [utf8From, List.cons_append] at h ⊢
      cases hlead : continuation byte with
      | none => simp [hlead] at h
      | some pending =>
        simp only [hlead] at h
        exact ih h
    | cons range pending =>
      simp only [utf8From, List.cons_append, Bool.and_eq_true] at h ⊢
      rw [ih h.2, h.1.1, h.1.2]
      rfl

theorem utf8_append (h : utf8 text = true) (rest : Bytes) :
    utf8 (text ++ rest) = utf8 rest := utf8From_append h rest

theorem utf8From_take (h : utf8From pending text = true) :
    pending.length ≤ text.length ∧ utf8From pending (text.take pending.length) = true := by
  induction pending generalizing text with
  | nil => exact ⟨Nat.zero_le _, rfl⟩
  | cons range pending ih =>
    cases text with
    | nil => cases h
    | cons byte text =>
      simp only [utf8From, Bool.and_eq_true] at h
      obtain ⟨hlength, htake⟩ := ih h.2
      refine ⟨Nat.succ_le_succ hlength, ?_⟩
      simp only [List.length_cons, List.take_succ_cons, utf8From, htake, h.1.1, h.1.2]
      rfl

theorem utf8From_take_iff (hpending : ∀ range ∈ pending, 0x80 ≤ range.1 ∧ range.2 ≤ 0xBF)
    (h : utf8From pending text = true) {cut : Nat} (hcut : cut ≤ text.length) :
    utf8From pending (text.take cut) = true ↔
      cut = text.length ∨ ∃ byte, text[cut]? = some byte ∧ ¬ IsTail byte := by
  induction text generalizing pending cut with
  | nil =>
    obtain rfl : cut = 0 := Nat.le_zero.mp hcut
    simp [h]
  | cons byte text ih =>
    cases cut with
    | zero =>
      cases pending with
      | nil =>
        have hlead : ¬ IsTail byte := by
          intro htail
          simp [utf8From, continuation_of_tail htail] at h
        simp [utf8From, hlead]
      | cons range pending =>
        simp only [utf8From, Bool.and_eq_true, decide_eq_true_eq] at h
        have hrange := hpending range List.mem_cons_self
        have htail : IsTail byte := ⟨UInt8.le_trans hrange.1 h.1.1, UInt8.le_trans h.1.2 hrange.2⟩
        simp [utf8From, htail]
    | succ cut =>
      have hcut : cut ≤ text.length := Nat.le_of_succ_le_succ hcut
      cases pending with
      | nil =>
        simp only [utf8From, List.take_succ_cons] at h ⊢
        cases hlead : continuation byte with
        | none => simp [hlead] at h
        | some pending =>
          simp only [hlead] at h ⊢
          simpa using ih (tails_of_continuation hlead) h hcut
      | cons range pending =>
        simp only [utf8From, List.take_succ_cons, Bool.and_eq_true] at h ⊢
        have hrest := ih (fun range hrange =>
          hpending range (List.mem_cons_of_mem _ hrange)) h.2 hcut
        rw [h.1.1, h.1.2, hrest]
        simp

/-- A text can be cut where no tail byte stands, and nowhere else. -/
theorem utf8_take_iff (h : utf8 text = true) {cut : Nat} (hcut : cut ≤ text.length) :
    utf8 (text.take cut) = true ↔
      cut = text.length ∨ ∃ byte, text[cut]? = some byte ∧ ¬ IsTail byte :=
  utf8From_take_iff (by simp) h hcut

end Foundation.Wire
