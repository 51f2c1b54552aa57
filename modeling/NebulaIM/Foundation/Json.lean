import NebulaIM.Foundation.Wire

/-!
# JSON texts

The grammar of RFC 8259 over the bytes of a text in UTF-8, with the value that a text
denotes.  The bytes that may stand in a string without an escape are a parameter, so that
texts which fail the grammar only in them can be spoken of.  Two consequences show that
something is not a JSON text: its brackets outside of strings are balanced, and it has no
control characters but white space.
-/

namespace Foundation.Json

open Foundation.Wire (Bytes utf8)

variable {text digits body number : Bytes}

inductive Value where
  | null
  | bool (value : Bool)
  | number (digits : Bytes)
  | string (text : Bytes)
  | array (items : List Value)
  | object (members : List (Bytes × Value))

/-! ## Strings -/

/-- What may follow a backslash, with the byte that is meant. -/
def escapes : List (UInt8 × UInt8) :=
  [(34, 34), (92, 92), (47, 47), (98, 8), (102, 12), (110, 10), (114, 13), (116, 9)]

def hexDigit (byte : UInt8) : Option Nat :=
  if 48 ≤ byte ∧ byte ≤ 57 then some (byte.toNat - 48)
  else if 65 ≤ byte ∧ byte ≤ 70 then some (byte.toNat - 55)
  else if 97 ≤ byte ∧ byte ≤ 102 then some (byte.toNat - 87)
  else none

/-- The UTF-16 code unit of four hexadecimal digits. -/
def codeUnit (digits : Bytes) : Option Nat :=
  match digits.mapM hexDigit with
  | some [a, b, c, d] => some (((a * 16 + b) * 16 + c) * 16 + d)
  | _ => none

def IsHigh (unit : Nat) : Prop := 0xD800 ≤ unit ∧ unit ≤ 0xDBFF

def IsLow (unit : Nat) : Prop := 0xDC00 ≤ unit ∧ unit ≤ 0xDFFF

/-- `\uXXXX` -/
def escapedUnit (digits : Bytes) : Bytes := 92 :: 117 :: digits

def encode (codePoint : Nat) : Bytes := String.utf8EncodeChar (Char.ofNat codePoint)

section

variable (plain : UInt8 → Prop)

/-- The bytes between the quotation marks, and the text that they denote.  A surrogate
without its partner denotes the replacement character. -/
inductive Body : Bytes → Bytes → Prop
  | nil : Body [] []
  | plain {byte : UInt8} {body text : Bytes} (isPlain : plain byte) (noQuote : byte ≠ 34)
      (noEscape : byte ≠ 92) (rest : Body body text) : Body (byte :: body) (byte :: text)
  | escaped {letter byte : UInt8} {body text : Bytes} (escape : (letter, byte) ∈ escapes)
      (rest : Body body text) : Body (92 :: letter :: body) (byte :: text)
  | unit {digits body text : Bytes} {unit : Nat} (value : codeUnit digits = some unit)
      (high : ¬ IsHigh unit) (low : ¬ IsLow unit) (rest : Body body text) :
      Body (escapedUnit digits ++ body) (encode unit ++ text)
  | pair {first second body text : Bytes} {high low : Nat}
      (firstValue : codeUnit first = some high) (secondValue : codeUnit second = some low)
      (isHigh : IsHigh high) (isLow : IsLow low) (rest : Body body text) :
      Body (escapedUnit first ++ (escapedUnit second ++ body))
        (encode (0x10000 + (high - 0xD800) * 0x400 + (low - 0xDC00)) ++ text)
  | lone {digits body text : Bytes} {unit : Nat} (value : codeUnit digits = some unit)
      (surrogate : IsHigh unit ∨ IsLow unit)
      (alone : IsHigh unit → ∀ second low after, codeUnit second = some low → IsLow low →
        body ≠ escapedUnit second ++ after) (rest : Body body text) :
      Body (escapedUnit digits ++ body) (encode 0xFFFD ++ text)

end

def quoted (body : Bytes) : Bytes := 34 :: (body ++ [34])

/-! ## Numbers and white space -/

def IsDigits (digits : Bytes) : Prop := digits ≠ [] ∧ ∀ digit ∈ digits, 48 ≤ digit ∧ digit ≤ 57

/-- `[ minus ] int [ frac ] [ exp ]` -/
def IsNumber (number : Bytes) : Prop :=
  ∃ minus int frac exp, number = minus ++ int ++ frac ++ exp ∧ (minus = [] ∨ minus = [45]) ∧
    (IsDigits int ∧ (int.head? = some 48 → int = [48])) ∧
    (frac = [] ∨ ∃ digits, IsDigits digits ∧ frac = 46 :: digits) ∧
    (exp = [] ∨ ∃ letter sign digits, (letter = 101 ∨ letter = 69) ∧
      (sign = [] ∨ sign = [43] ∨ sign = [45]) ∧ IsDigits digits ∧
      exp = letter :: (sign ++ digits))

def IsBlank (blank : Bytes) : Prop := ∀ byte ∈ blank, byte ∈ [32, 9, 10, 13]

/-- The text with white space around it. -/
def Padded (text padded : Bytes) : Prop :=
  ∃ before after, IsBlank before ∧ IsBlank after ∧ padded = before ++ (text ++ after)

theorem Padded.refl (text : Bytes) : Padded text text :=
  ⟨[], [], by simp [IsBlank], by simp [IsBlank], by simp⟩

/-! ## Values -/

/-- What a part of a text stands for. -/
inductive Node where
  | value (value : Value)
  | items (values : List Value)
  | members (members : List (Bytes × Value))

section

variable (plain : UInt8 → Prop)

inductive Derives : Node → Bytes → Prop
  | nullWord : Derives (.value .null) [110, 117, 108, 108]
  | trueWord : Derives (.value (.bool true)) [116, 114, 117, 101]
  | falseWord : Derives (.value (.bool false)) [102, 97, 108, 115, 101]
  | number {digits : Bytes} (isNumber : IsNumber digits) : Derives (.value (.number digits)) digits
  | string {body text : Bytes} (isBody : Body plain body text) (isText : utf8 body = true) :
      Derives (.value (.string text)) (quoted body)
  | noItems {blank : Bytes} (isBlank : IsBlank blank) :
      Derives (.value (.array [])) (91 :: (blank ++ [93]))
  | array {values : List Value} {text : Bytes} (items : Derives (.items values) text) :
      Derives (.value (.array values)) (91 :: (text ++ [93]))
  | noMembers {blank : Bytes} (isBlank : IsBlank blank) :
      Derives (.value (.object [])) (123 :: (blank ++ [125]))
  | object {members : List (Bytes × Value)} {text : Bytes}
      (isMembers : Derives (.members members) text) :
      Derives (.value (.object members)) (123 :: (text ++ [125]))
  | lastItem {value : Value} {text padded : Bytes} (isValue : Derives (.value value) text)
      (padding : Padded text padded) : Derives (.items [value]) padded
  | item {value : Value} {values : List Value} {text padded rest : Bytes}
      (isValue : Derives (.value value) text) (padding : Padded text padded)
      (isRest : Derives (.items values) rest) :
      Derives (.items (value :: values)) (padded ++ 44 :: rest)
  | lastMember {name body : Bytes} {value : Value} {text paddedName paddedText : Bytes}
      (isName : Body plain body name) (isText : utf8 body = true)
      (namePadding : Padded (quoted body) paddedName)
      (isValue : Derives (.value value) text) (padding : Padded text paddedText) :
      Derives (.members [(name, value)]) (paddedName ++ 58 :: paddedText)
  | member {name body : Bytes} {value : Value} {members : List (Bytes × Value)}
      {text paddedName paddedText rest : Bytes}
      (isName : Body plain body name) (isText : utf8 body = true)
      (namePadding : Padded (quoted body) paddedName)
      (isValue : Derives (.value value) text) (padding : Padded text paddedText)
      (isRest : Derives (.members members) rest) :
      Derives (.members ((name, value) :: members)) (paddedName ++ 58 :: (paddedText ++ 44 :: rest))

/-- The text is a JSON text of the value, but for the bytes in strings. -/
def IsLaxText (value : Value) (text : Bytes) : Prop :=
  ∃ inner, Derives plain (.value value) inner ∧ Padded inner text

end

/-- A JSON text of the value: in strings no control character stands without an escape. -/
def IsText (value : Value) (text : Bytes) : Prop := IsLaxText (0x20 ≤ ·) value text

/-! ## Balance -/

inductive Mode where
  | outside
  | inside
  | escaped
  deriving DecidableEq, Repr

/-- The brackets that are open, and where the reader is. -/
structure Scan where
  depth : Int
  mode : Mode
  deriving DecidableEq, Repr

def Scan.step (scan : Scan) (byte : UInt8) : Scan :=
  match scan.mode with
  | .outside =>
    if byte = 34 then { scan with mode := .inside }
    else if byte = 91 ∨ byte = 123 then { scan with depth := scan.depth + 1 }
    else if byte = 93 ∨ byte = 125 then { scan with depth := scan.depth - 1 }
    else scan
  | .inside =>
    if byte = 34 then { scan with mode := .outside }
    else if byte = 92 then { scan with mode := .escaped }
    else scan
  | .escaped => { scan with mode := .inside }

def Scan.run (scan : Scan) (text : Bytes) : Scan := text.foldl Scan.step scan

@[simp] theorem Scan.run_nil (scan : Scan) : scan.run [] = scan := rfl

@[simp] theorem Scan.run_cons (scan : Scan) (byte : UInt8) (text : Bytes) :
    scan.run (byte :: text) = (scan.step byte).run text := rfl

@[simp] theorem Scan.run_append (scan : Scan) (first second : Bytes) :
    scan.run (first ++ second) = (scan.run first).run second :=
  List.foldl_append

theorem Scan.run_neutral (h : ∀ byte ∈ text, byte ∉ [34, 91, 123, 93, 125])
    (depth : Int) : Scan.run ⟨depth, .outside⟩ text = ⟨depth, .outside⟩ := by
  induction text with
  | nil => rfl
  | cons byte text ih =>
    have hbyte := h byte List.mem_cons_self
    simp only [List.mem_cons, List.not_mem_nil, or_false, not_or] at hbyte
    have hstep : Scan.step ⟨depth, .outside⟩ byte = ⟨depth, .outside⟩ := by
      simp [Scan.step, hbyte]
    rw [Scan.run_cons, hstep]
    exact ih fun byte hmem => h byte (List.mem_cons_of_mem _ hmem)

theorem Scan.run_blank {blank : Bytes} (h : IsBlank blank) (depth : Int) :
    Scan.run ⟨depth, .outside⟩ blank = ⟨depth, .outside⟩ := by
  refine Scan.run_neutral (fun byte hbyte => ?_) depth
  have hspace := h byte hbyte
  simp only [List.mem_cons, List.not_mem_nil, or_false] at hspace
  rcases hspace with rfl | rfl | rfl | rfl <;> decide

theorem hexDigit_of_codeUnit {unit : Nat} (h : codeUnit digits = some unit) :
    ∀ digit ∈ digits, (hexDigit digit).isSome = true := by
  have hsome : (digits.mapM hexDigit).isSome = true := by
    unfold codeUnit at h
    cases hdigits : digits.mapM hexDigit with
    | none => simp [hdigits] at h
    | some values => rfl
  obtain ⟨values, hvalues⟩ := Option.isSome_iff_exists.mp hsome
  clear h hsome
  induction digits generalizing values with
  | nil => simp
  | cons digit digits ih =>
    rw [List.mapM_cons] at hvalues
    cases hdigit : hexDigit digit with
    | none => simp [hdigit] at hvalues
    | some value =>
      cases hrest : digits.mapM hexDigit with
      | none => simp [hdigit, hrest] at hvalues
      | some rest =>
        intro other hother
        rcases List.mem_cons.mp hother with rfl | hmem
        · rw [hdigit]
          rfl
        · exact ih rest hrest other hmem

theorem hexDigit_range {digit : UInt8} (h : (hexDigit digit).isSome = true) :
    48 ≤ digit ∧ digit ≤ 102 ∧ digit ≠ 92 := by
  unfold hexDigit at h
  split_ifs at h with hdigit hupper hlower
  · refine ⟨hdigit.1, UInt8.le_trans hdigit.2 (by decide), ?_⟩
    rintro rfl
    exact absurd hdigit.2 (by decide)
  · refine ⟨UInt8.le_trans (by decide) hupper.1, UInt8.le_trans hupper.2 (by decide), ?_⟩
    rintro rfl
    exact absurd hupper.2 (by decide)
  · refine ⟨UInt8.le_trans (by decide) hlower.1, hlower.2, ?_⟩
    rintro rfl
    exact absurd hlower.1 (by decide)
  · cases h

theorem Scan.run_inside (h : ∀ byte ∈ text, byte ≠ 34 ∧ byte ≠ 92) (depth : Int) :
    Scan.run ⟨depth, .inside⟩ text = ⟨depth, .inside⟩ := by
  induction text with
  | nil => rfl
  | cons byte text ih =>
    have hstep : Scan.step ⟨depth, .inside⟩ byte = ⟨depth, .inside⟩ := by
      simp [Scan.step, h byte List.mem_cons_self]
    rw [Scan.run_cons, hstep]
    exact ih fun byte hmem => h byte (List.mem_cons_of_mem _ hmem)

theorem Scan.run_escapedUnit {unit : Nat} (h : codeUnit digits = some unit) (depth : Int) :
    Scan.run ⟨depth, .inside⟩ (escapedUnit digits) = ⟨depth, .inside⟩ := by
  refine @Scan.run_inside digits (fun digit hdigit => ?_) depth
  have hrange := hexDigit_range (hexDigit_of_codeUnit h digit hdigit)
  refine ⟨?_, hrange.2.2⟩
  rintro rfl
  exact absurd hrange.1 (by decide)

section

variable {plain : UInt8 → Prop}

theorem Body.balanced (h : Body plain body text) (depth : Int) :
    Scan.run ⟨depth, .inside⟩ body = ⟨depth, .inside⟩ := by
  induction h with
  | nil => rfl
  | @plain byte body text _ noQuote noEscape _ ih =>
    have hstep : Scan.step ⟨depth, .inside⟩ byte = ⟨depth, .inside⟩ := by
      simp [Scan.step, noQuote, noEscape]
    rw [Scan.run_cons, hstep, ih]
  | escaped _ _ ih => exact ih
  | unit value _ _ _ ih
  | lone value _ _ _ ih => rw [Scan.run_append, Scan.run_escapedUnit value, ih]
  | pair first second _ _ _ ih =>
    rw [Scan.run_append, Scan.run_escapedUnit first, Scan.run_append,
      Scan.run_escapedUnit second, ih]

theorem Body.balanced_quoted (h : Body plain body text) (depth : Int) :
    Scan.run ⟨depth, .outside⟩ (quoted body) = ⟨depth, .outside⟩ := by
  change Scan.run ⟨depth, .inside⟩ (body ++ [34]) = _
  rw [Scan.run_append, h.balanced]
  rfl

theorem Padded.balanced {padded : Bytes} (h : Padded text padded) {depth : Int}
    (htext : Scan.run ⟨depth, .outside⟩ text = ⟨depth, .outside⟩) :
    Scan.run ⟨depth, .outside⟩ padded = ⟨depth, .outside⟩ := by
  obtain ⟨before, after, hbefore, hafter, rfl⟩ := h
  rw [Scan.run_append, Scan.run_blank hbefore, Scan.run_append, htext, Scan.run_blank hafter]

theorem IsDigits.mem (h : IsDigits digits) {digit : UInt8} (hdigit : digit ∈ digits) :
    48 ≤ digit ∧ digit ≤ 57 := h.2 digit hdigit

theorem IsNumber.mem (h : IsNumber number) {byte : UInt8} (hbyte : byte ∈ number) :
    (48 ≤ byte ∧ byte ≤ 57) ∨ byte ∈ [43, 45, 46, 69, 101] := by
  obtain ⟨minus, int, frac, exp, rfl, hminus, ⟨hint, -⟩, hfrac, hexp⟩ := h
  simp only [List.mem_append] at hbyte
  rcases hbyte with ((hbyte | hbyte) | hbyte) | hbyte
  · rcases hminus with rfl | rfl
    · cases hbyte
    · rw [List.mem_singleton.mp hbyte]
      exact .inr (by decide)
  · exact .inl (hint.mem hbyte)
  · rcases hfrac with rfl | ⟨digits, hdigits, rfl⟩
    · cases hbyte
    · rcases List.mem_cons.mp hbyte with rfl | hmem
      · exact .inr (by decide)
      · exact .inl (hdigits.mem hmem)
  · rcases hexp with rfl | ⟨letter, sign, digits, hletter, hsign, hdigits, rfl⟩
    · cases hbyte
    · rcases List.mem_cons.mp hbyte with rfl | hrest
      · rcases hletter with rfl | rfl
        · exact .inr (by decide)
        · exact .inr (by decide)
      · rcases List.mem_append.mp hrest with hmem | hmem
        · rcases hsign with rfl | rfl | rfl
          · cases hmem
          · rw [List.mem_singleton.mp hmem]
            exact .inr (by decide)
          · rw [List.mem_singleton.mp hmem]
            exact .inr (by decide)
        · exact .inl (hdigits.mem hmem)

theorem IsNumber.neutral (h : IsNumber number) :
    ∀ byte ∈ number, byte ∉ [34, 91, 123, 93, 125] := by
  intro byte hbyte hspecial
  simp only [List.mem_cons, List.not_mem_nil, or_false] at hspecial
  rcases h.mem hbyte with hdigit | hother
  · rcases hspecial with rfl | rfl | rfl | rfl | rfl <;> revert hdigit <;> decide
  · rcases hspecial with rfl | rfl | rfl | rfl | rfl <;> revert hother <;> decide

theorem Derives.balanced {node : Node} (h : Derives plain node text) (depth : Int) :
    Scan.run ⟨depth, .outside⟩ text = ⟨depth, .outside⟩ := by
  induction h generalizing depth with
  | nullWord => rfl
  | trueWord => rfl
  | falseWord => rfl
  | number isNumber => exact Scan.run_neutral isNumber.neutral depth
  | string isBody _ => exact isBody.balanced_quoted depth
  | noItems isBlank =>
    change Scan.run ⟨depth + 1, .outside⟩ (_ ++ [93]) = _
    rw [Scan.run_append, Scan.run_blank isBlank]
    simp [Scan.step]
  | array _ ih =>
    change Scan.run ⟨depth + 1, .outside⟩ (_ ++ [93]) = _
    rw [Scan.run_append, ih]
    simp [Scan.step]
  | noMembers isBlank =>
    change Scan.run ⟨depth + 1, .outside⟩ (_ ++ [125]) = _
    rw [Scan.run_append, Scan.run_blank isBlank]
    simp [Scan.step]
  | object _ ih =>
    change Scan.run ⟨depth + 1, .outside⟩ (_ ++ [125]) = _
    rw [Scan.run_append, ih]
    simp [Scan.step]
  | lastItem _ padding ih => exact padding.balanced (ih depth)
  | item _ padding _ ihValue ihRest =>
    rw [Scan.run_append, padding.balanced (ihValue depth)]
    exact ihRest depth
  | lastMember isName _ namePadding _ padding ih =>
    rw [Scan.run_append, namePadding.balanced (isName.balanced_quoted depth)]
    exact padding.balanced (ih depth)
  | member isName _ namePadding _ padding _ ihValue ihRest =>
    rw [Scan.run_append, namePadding.balanced (isName.balanced_quoted depth)]
    change Scan.run ⟨depth, .outside⟩ (_ ++ _) = _
    rw [Scan.run_append, padding.balanced (ihValue depth)]
    exact ihRest depth

theorem IsLaxText.balanced {value : Value} (h : IsLaxText plain value text) :
    Scan.run ⟨0, .outside⟩ text = ⟨0, .outside⟩ := by
  obtain ⟨inner, hinner, hpadded⟩ := h
  exact hpadded.balanced (hinner.balanced 0)

end

/-! ## Control characters -/

/-- No control character but white space. -/
def IsPrintable (byte : UInt8) : Prop := 0x20 ≤ byte ∨ byte ∈ [9, 10, 13]

theorem Body.noControl (h : Body (0x20 ≤ ·) body text) : ∀ byte ∈ body, 0x20 ≤ byte := by
  have hunit {digits : Bytes} {unit : Nat} (hvalue : codeUnit digits = some unit) :
      ∀ byte ∈ escapedUnit digits, 0x20 ≤ byte := by
    intro byte hbyte
    simp only [escapedUnit, List.mem_cons] at hbyte
    rcases hbyte with rfl | rfl | hdigit
    · decide
    · decide
    · have hrange := hexDigit_range (hexDigit_of_codeUnit hvalue byte hdigit)
      exact UInt8.le_trans (by decide) hrange.1
  induction h with
  | nil => simp
  | plain isPlain _ _ _ ih => exact List.forall_mem_cons.mpr ⟨isPlain, ih⟩
  | @escaped letter byte _ _ escape _ ih =>
    have hletter : 0x20 ≤ letter := by
      simp only [escapes, List.mem_cons, List.not_mem_nil, or_false, Prod.mk.injEq] at escape
      rcases escape with ⟨rfl, -⟩ | ⟨rfl, -⟩ | ⟨rfl, -⟩ | ⟨rfl, -⟩ | ⟨rfl, -⟩ | ⟨rfl, -⟩ |
        ⟨rfl, -⟩ | ⟨rfl, -⟩ <;> decide
    exact List.forall_mem_cons.mpr ⟨by decide, List.forall_mem_cons.mpr ⟨hletter, ih⟩⟩
  | unit value _ _ _ ih | lone value _ _ _ ih => exact List.forall_mem_append.mpr ⟨hunit value, ih⟩
  | pair first second _ _ _ ih =>
    exact List.forall_mem_append.mpr ⟨hunit first, List.forall_mem_append.mpr ⟨hunit second, ih⟩⟩

theorem Body.printable_quoted (h : Body (0x20 ≤ ·) body text) :
    ∀ byte ∈ quoted body, IsPrintable byte := by
  refine List.forall_mem_cons.mpr ⟨.inl (by decide), List.forall_mem_append.mpr ⟨?_, ?_⟩⟩
  · exact fun byte hbyte => .inl (h.noControl byte hbyte)
  · exact List.forall_mem_singleton.mpr (.inl (by decide))

theorem IsBlank.printable {blank : Bytes} (h : IsBlank blank) :
    ∀ byte ∈ blank, IsPrintable byte := by
  intro byte hbyte
  rcases List.mem_cons.mp (h byte hbyte) with rfl | hspace
  · exact .inl (by decide)
  · exact .inr hspace

theorem Padded.printable {padded : Bytes} (h : Padded text padded)
    (htext : ∀ byte ∈ text, IsPrintable byte) : ∀ byte ∈ padded, IsPrintable byte := by
  obtain ⟨before, after, hbefore, hafter, rfl⟩ := h
  exact List.forall_mem_append.mpr ⟨hbefore.printable,
    List.forall_mem_append.mpr ⟨htext, hafter.printable⟩⟩

theorem IsNumber.printable (h : IsNumber number) : ∀ byte ∈ number, IsPrintable byte := by
  intro byte hbyte
  rcases h.mem hbyte with hdigit | hother
  · exact .inl (UInt8.le_trans (by decide) hdigit.1)
  · simp only [List.mem_cons, List.not_mem_nil, or_false] at hother
    rcases hother with rfl | rfl | rfl | rfl | rfl <;> exact .inl (by decide)

private theorem printable_enclosed {first last : UInt8} (hfirst : 0x20 ≤ first)
    (htext : ∀ byte ∈ text, IsPrintable byte) (hlast : 0x20 ≤ last) :
    ∀ byte ∈ first :: (text ++ [last]), IsPrintable byte :=
  List.forall_mem_cons.mpr ⟨.inl hfirst, List.forall_mem_append.mpr
    ⟨htext, List.forall_mem_singleton.mpr (.inl hlast)⟩⟩

theorem Derives.printable {node : Node} (h : Derives (0x20 ≤ ·) node text) :
    ∀ byte ∈ text, IsPrintable byte := by
  induction h with
  | nullWord | trueWord | falseWord => simp [IsPrintable]
  | number isNumber => exact isNumber.printable
  | string isBody _ => exact isBody.printable_quoted
  | noItems isBlank
  | noMembers isBlank => exact printable_enclosed (by decide) isBlank.printable (by decide)
  | array _ ih | object _ ih => exact printable_enclosed (by decide) ih (by decide)
  | lastItem _ padding ih => exact padding.printable ih
  | item _ padding _ ihValue ihRest =>
    exact List.forall_mem_append.mpr ⟨padding.printable ihValue,
      List.forall_mem_cons.mpr ⟨.inl (by decide), ihRest⟩⟩
  | lastMember isName _ namePadding _ padding ih =>
    exact List.forall_mem_append.mpr ⟨namePadding.printable isName.printable_quoted,
      List.forall_mem_cons.mpr ⟨.inl (by decide), padding.printable ih⟩⟩
  | member isName _ namePadding _ padding _ ihValue ihRest =>
    exact List.forall_mem_append.mpr ⟨namePadding.printable isName.printable_quoted,
      List.forall_mem_cons.mpr ⟨.inl (by decide), List.forall_mem_append.mpr
        ⟨padding.printable ihValue, List.forall_mem_cons.mpr ⟨.inl (by decide), ihRest⟩⟩⟩⟩

theorem IsText.printable {value : Value} (h : IsText value text) :
    ∀ byte ∈ text, IsPrintable byte := by
  obtain ⟨inner, hinner, hpadded⟩ := h
  exact hpadded.printable hinner.printable

/-! ## Texts without white space -/

def joined : List Bytes → Bytes
  | [] => []
  | [text] => text
  | text :: texts => text ++ 44 :: joined texts

def arrayText (items : List Bytes) : Bytes := 91 :: (joined items ++ [93])

def memberText (member : Bytes × Bytes) : Bytes := quoted member.1 ++ 58 :: member.2

def objectText (members : List (Bytes × Bytes)) : Bytes :=
  123 :: (joined (members.map memberText) ++ [125])

section

variable {plain : UInt8 → Prop}

theorem Derives.arrayOf (entries : List (Value × Bytes))
    (h : ∀ entry ∈ entries, Derives plain (.value entry.1) entry.2) :
    Derives plain (.value (.array (entries.map Prod.fst))) (arrayText (entries.map Prod.snd)) := by
  cases entries with
  | nil => exact .noItems (by simp [IsBlank, joined])
  | cons entry entries =>
    refine .array ?_
    induction entries generalizing entry with
    | nil => exact .lastItem (h entry (by simp)) (.refl _)
    | cons next entries ih =>
      refine .item (h entry (by simp)) (.refl _) (ih next fun other hother => ?_)
      exact h other (List.mem_cons_of_mem _ hother)

theorem Derives.objectOf (entries : List (Bytes × Value × Bytes))
    (hnames : ∀ entry ∈ entries, Body plain entry.1 entry.1 ∧ utf8 entry.1 = true)
    (h : ∀ entry ∈ entries, Derives plain (.value entry.2.1) entry.2.2) :
    Derives plain (.value (.object (entries.map fun entry => (entry.1, entry.2.1))))
      (objectText (entries.map fun entry => (entry.1, entry.2.2))) := by
  cases entries with
  | nil => exact .noMembers (by simp [IsBlank, joined])
  | cons entry entries =>
    refine .object ?_
    induction entries generalizing entry with
    | nil =>
      obtain ⟨hbody, htext⟩ := hnames entry (by simp)
      exact .lastMember hbody htext (.refl _) (h entry (by simp)) (.refl _)
    | cons next entries ih =>
      obtain ⟨hbody, htext⟩ := hnames entry (by simp)
      have hrest := ih next (fun other hother => hnames other (List.mem_cons_of_mem _ hother))
        fun other hother => h other (List.mem_cons_of_mem _ hother)
      have hmember := Derives.member hbody htext (.refl _) (h entry (by simp)) (.refl _) hrest
      simpa [joined, memberText] using hmember

end

end Foundation.Json
