import NebulaIM.Foundation.Text
import NebulaIM.Protocol.Identifiers

/-!
# Previews

`ConversationServiceHelper::buildPreview` cuts a text at the last position that is within
the limit and does not hold a tail byte.  In well-formed UTF-8 that is the end of the
longest part that fits, and its correction for a character that would still fit is never
needed.
-/

namespace NebulaIM.Protocol

open Foundation.Wire

/-- `ConversationServiceHelper::buildPreview` -/
def ConversationServiceHelper.buildPreview (content : Bytes) (maxLen : Nat) : Bytes :=
  if content.length ≤ maxLen then content
  else content.take (utf8SafePrefixLength content maxLen)

theorem isContinuationByte_iff (byte : UInt8) : (byte &&& 0xC0 == 0x80) = true ↔ IsTail byte :=
  forall_byte (P := fun byte => (byte &&& 0xC0 == 0x80) = true ↔ IsTail byte)
    (by decide +kernel) byte

theorem leadLength_eq {byte : UInt8} {pending : List (UInt8 × UInt8)} {expected : Nat}
    (hlead : continuation byte = some pending) (hlength : leadLength byte = some expected) :
    expected = pending.length + 1 := by
  have hall := forall_byte (P := fun byte => ∀ pending ∈ continuation byte,
    ∀ expected ∈ leadLength byte, expected = pending.length + 1) (by decide +kernel) byte
  exact hall pending hlead expected hlength

/-! ## The position that is found -/

theorem backUp_le (value : Bytes) (start : Nat) : backUp value start ≤ start := by
  induction start with
  | zero => exact Nat.le_refl 0
  | succ start ih =>
    unfold backUp
    split_ifs
    · omega
    · exact Nat.le_refl _

theorem tail_of_backUp_lt {value : Bytes} {start position : Nat}
    (hlower : backUp value start < position) (hupper : position ≤ start) :
    IsTail (value[position]?.getD 0) := by
  induction start with
  | zero => omega
  | succ start ih =>
    unfold backUp at hlower
    split_ifs at hlower with htail
    · rcases Nat.lt_or_eq_of_le hupper with hless | rfl
      · exact ih hlower (by omega)
      · exact (isContinuationByte_iff _).mp htail
    · omega

theorem backUp_stops (value : Bytes) (start : Nat) :
    backUp value start = 0 ∨ ¬ IsTail (value[backUp value start]?.getD 0) := by
  induction start with
  | zero => exact .inl rfl
  | succ start ih =>
    unfold backUp
    split_ifs with htail
    · exact ih
    · exact .inr fun h => htail ((isContinuationByte_iff _).mpr h)

section

variable {content : Bytes} {maxLen : Nat}

theorem utf8_take_backUp (h : utf8 content = true) (hlong : maxLen < content.length) :
    utf8 (content.take (backUp content maxLen)) = true := by
  have hle := backUp_le content maxLen
  rcases backUp_stops content maxLen with hzero | hstop
  · rw [hzero]
    rfl
  · refine (utf8_take_iff h (by omega)).mpr (.inr ⟨content[backUp content maxLen], ?_, ?_⟩)
    · exact List.getElem?_eq_getElem (by omega)
    · rwa [List.getElem?_eq_getElem (by omega), Option.getD_some] at hstop

theorem le_backUp_of_utf8_take (h : utf8 content = true) (hlong : maxLen < content.length)
    {cut : Nat} (hcut : cut ≤ maxLen) (htake : utf8 (content.take cut) = true) :
    cut ≤ backUp content maxLen := by
  by_contra hbehind
  have htail : IsTail (content[cut]?.getD 0) := tail_of_backUp_lt (by omega) hcut
  rcases (utf8_take_iff h (by omega)).mp htake with heq | ⟨byte, hbyte, hlead⟩
  · omega
  · rw [hbyte, Option.getD_some] at htail
    exact hlead htail

theorem maxLen_lt_of_leadLength (h : utf8 content = true) (hlong : maxLen < content.length)
    {expected : Nat}
    (hlength : leadLength (content[backUp content maxLen]?.getD 0) = some expected) :
    maxLen < backUp content maxLen + expected := by
  by_contra hfits
  have hle := backUp_le content maxLen
  have htake := utf8_take_backUp h hlong
  have hat : backUp content maxLen < content.length := by omega
  rw [List.getElem?_eq_getElem hat, Option.getD_some] at hlength
  -- the rest of the text begins with the character
  have hrest : utf8 (content.drop (backUp content maxLen)) = true := by
    rw [← utf8_append htake, List.take_append_drop]
    exact h
  rw [List.drop_eq_getElem_cons hat, utf8, utf8From] at hrest
  cases hlead : continuation content[backUp content maxLen] with
  | none => simp [hlead] at hrest
  | some pending =>
    rw [hlead] at hrest
    obtain rfl := leadLength_eq hlead hlength
    have hcharacter : utf8 ((content.drop (backUp content maxLen)).take
        (pending.length + 1)) = true := by
      rw [List.drop_eq_getElem_cons hat, List.take_succ_cons, utf8, utf8From, hlead]
      exact (utf8From_take hrest).2
    have hcut : utf8 (content.take (backUp content maxLen + (pending.length + 1))) = true := by
      rw [List.take_add, utf8_append htake]
      exact hcharacter
    have hbound := le_backUp_of_utf8_take h hlong (by omega) hcut
    omega

/-- The correction for a character that would fit is not needed. -/
theorem utf8SafePrefixLength_eq (h : utf8 content = true) (hlong : maxLen < content.length) :
    utf8SafePrefixLength content maxLen = backUp content maxLen := by
  unfold utf8SafePrefixLength
  rw [if_neg (by omega)]
  dsimp only
  split_ifs with hlimit
  · rfl
  · split
    · rfl
    · next expected hlength =>
      have hbeyond := maxLen_lt_of_leadLength h hlong hlength
      rw [if_neg (by omega)]

end

/-- The preview of a well-formed text is the longest part from its start that is within the
limit and well formed. -/
theorem buildPreview_longest (content : Bytes) (maxLen : Nat) (h : utf8 content = true) :
    ConversationServiceHelper.buildPreview content maxLen <+: content ∧
      (ConversationServiceHelper.buildPreview content maxLen).length ≤ maxLen ∧
      utf8 (ConversationServiceHelper.buildPreview content maxLen) = true ∧
      ∀ part, part <+: content → part.length ≤ maxLen → utf8 part = true →
        part.length ≤ (ConversationServiceHelper.buildPreview content maxLen).length := by
  unfold ConversationServiceHelper.buildPreview
  split_ifs with hshort
  · exact ⟨List.prefix_refl content, hshort, h, fun part hpart _ _ => hpart.length_le⟩
  · have hlong : maxLen < content.length := by omega
    have hle := backUp_le content maxLen
    rw [utf8SafePrefixLength_eq h hlong]
    have hlength : (content.take (backUp content maxLen)).length = backUp content maxLen :=
      List.length_take_of_le (by omega)
    refine ⟨List.take_prefix _ _, by omega, utf8_take_backUp h hlong, ?_⟩
    intro part hpart hpartLength hpartText
    rw [hlength]
    rw [List.prefix_iff_eq_take.mp hpart] at hpartText
    exact le_backUp_of_utf8_take h hlong hpartLength hpartText

/-- Between the two bytes of a character, and after it. -/
theorem accented_preview : ConversationServiceHelper.buildPreview [0x61, 0xC3, 0xA9] 2 = [0x61] ∧
      ∀ part, part <+: [0x61, 0xC3, 0xA9] → part.length ≤ 2 → utf8 part = true → part.length ≤ 1 :=
  ⟨by decide +kernel,
    (buildPreview_longest [0x61, 0xC3, 0xA9] 2 (by decide +kernel)).2.2.2⟩

end NebulaIM.Protocol
