import NebulaIM.Foundation.Json
import NebulaIM.Foundation.Text
import NebulaIM.Protocol.Identifiers

/-!
# Exported spans

The JSON that `OtlpTraceExporter` posts to the collector, against the grammar of JSON.
Two things keep it from being a JSON text: it closes a bracket and a brace too many, always,
and `jsonEscape` leaves most control characters as they are.
-/

namespace NebulaIM.Trace

open Foundation Foundation.Json
open Foundation.Wire (Bytes utf8)
open Protocol (lit decimal)

variable {byte : UInt8} {value : Value} {text name serviceName : Bytes}

/-! ## The exporter -/

inductive TraceSpanKind where
  | internal | server | client | producer | consumer
  deriving DecidableEq, Repr

/-- `attributes` is in the order of the keys of the map. -/
structure CompletedSpan where
  traceId : Bytes
  spanId : Bytes
  parentSpanId : Bytes := []
  name : Bytes
  kind : TraceSpanKind := .internal
  startTimeUnixNano : Int64 := 0
  endTimeUnixNano : Int64 := 0
  attributes : List (Bytes × Bytes) := []
  statusCode : Bytes := lit "STATUS_CODE_OK"
  statusMessage : Bytes := []

variable {span : CompletedSpan} {spans : List CompletedSpan}

def jsonEscapeByte (byte : UInt8) : Bytes :=
  if byte = 92 then [92, 92]
  else if byte = 34 then [92, 34]
  else if byte = 10 then [92, 110]
  else if byte = 13 then [92, 114]
  else if byte = 9 then [92, 116]
  else [byte]

def jsonEscape (value : Bytes) : Bytes := value.flatMap jsonEscapeByte

def spanKindValue : TraceSpanKind → Nat
  | .internal => 1
  | .server => 2
  | .client => 3
  | .producer => 4
  | .consumer => 5

/-- A signed number as a stream writes it. -/
def signedDecimal (n : Int64) : Bytes :=
  if n < 0 then 45 :: decimal n.toInt.natAbs else decimal n.toInt.natAbs

/-- A loop that writes a comma before every element but the first. -/
def writeEach {α : Type} (write : α → Bytes) : (first : Bool) → List α → Bytes
  | _, [] => []
  | first, element :: elements =>
    (if first then [] else lit ",") ++ write element ++ writeEach write false elements

def attributeJson (attr : Bytes × Bytes) : Bytes :=
  lit "\x7b\"key\":\"" ++ jsonEscape attr.1 ++
    lit "\",\"value\":\x7b\"stringValue\":\"" ++ jsonEscape attr.2 ++ lit "\"\x7d\x7d"

def spanJson (span : CompletedSpan) : Bytes :=
  lit "\x7b\"traceId\":\"" ++ jsonEscape span.traceId ++
    lit "\",\"spanId\":\"" ++ jsonEscape span.spanId ++ lit "\"" ++
    (if span.parentSpanId.isEmpty then []
      else lit ",\"parentSpanId\":\"" ++ jsonEscape span.parentSpanId ++ lit "\"") ++
    lit ",\"name\":\"" ++ jsonEscape span.name ++
    lit "\",\"kind\":" ++ decimal (spanKindValue span.kind) ++
    lit ",\"startTimeUnixNano\":\"" ++ signedDecimal span.startTimeUnixNano ++
    lit "\",\"endTimeUnixNano\":\"" ++ signedDecimal span.endTimeUnixNano ++ lit "\"" ++
    lit ",\"attributes\":[" ++ writeEach attributeJson true span.attributes ++
    lit "],\"status\":\x7b\"code\":\"" ++ jsonEscape span.statusCode ++ lit "\"" ++
    (if span.statusMessage.isEmpty then []
      else lit ",\"message\":\"" ++ jsonEscape span.statusMessage ++ lit "\"") ++
    lit "\x7d\x7d"

/-- The name that the resource gets. -/
def resourceName (serviceName : Bytes) : Bytes :=
  if serviceName.isEmpty then lit "nebulaim" else serviceName

def buildJson (spans : List CompletedSpan) (serviceName : Bytes) : Bytes :=
  lit "\x7b\"resourceSpans\":[\x7b\"resource\":\x7b\"attributes\":[\x7b\"key\":\"service.name\",\"value\":\x7b\"stringValue\":\"" ++
    jsonEscape (resourceName serviceName) ++
    lit "\"\x7d\x7d]\x7d,\"scopeSpans\":[\x7b\"scope\":\x7b\"name\":\"nebulaim\"\x7d,\"spans\":[" ++
    writeEach spanJson true spans ++ lit "]\x7d]\x7d]\x7d]\x7d"

/-! ## What is meant -/

def attributeValue (attr : Bytes × Bytes) : Value :=
  .object [(lit "key", .string attr.1),
    (lit "value", .object [(lit "stringValue", .string attr.2)])]

def statusValue (span : CompletedSpan) : Value :=
  .object ((lit "code", .string span.statusCode) ::
    if span.statusMessage.isEmpty then []
    else [(lit "message", .string span.statusMessage)])

def spanValue (span : CompletedSpan) : Value :=
  .object ([(lit "traceId", .string span.traceId), (lit "spanId", .string span.spanId)] ++
    (if span.parentSpanId.isEmpty then []
      else [(lit "parentSpanId", .string span.parentSpanId)]) ++
    [(lit "name", .string span.name), (lit "kind", .number (decimal (spanKindValue span.kind))),
      (lit "startTimeUnixNano", .string (signedDecimal span.startTimeUnixNano)),
      (lit "endTimeUnixNano", .string (signedDecimal span.endTimeUnixNano)),
      (lit "attributes", .array (span.attributes.map attributeValue)),
      (lit "status", statusValue span)])

/-- One object for each span, in order, with the strings as they are. -/
def document (spans : List CompletedSpan) (serviceName : Bytes) : Value :=
  .object [(lit "resourceSpans", .array [.object [
    (lit "resource", .object [(lit "attributes",
      .array [attributeValue (lit "service.name", resourceName serviceName)])]),
    (lit "scopeSpans", .array [.object [
      (lit "scope", .object [(lit "name", .string (lit "nebulaim"))]),
      (lit "spans", .array (spans.map spanValue))]])]])]

/-- The strings that come from the spans and the configuration. -/
def CompletedSpan.strings (span : CompletedSpan) : List Bytes :=
  [span.traceId, span.spanId, span.parentSpanId, span.name, span.statusCode,
    span.statusMessage] ++ span.attributes.flatMap fun attr => [attr.1, attr.2]

def strings (spans : List CompletedSpan) (serviceName : Bytes) : List Bytes :=
  serviceName :: spans.flatMap CompletedSpan.strings

/-! ## Escaping -/

/-- Bytes that `jsonEscape` replaces. -/
def IsEscaped (byte : UInt8) : Prop := byte ∈ [92, 34, 10, 13, 9]

theorem jsonEscapeByte_of_not (h : ¬ IsEscaped byte) : jsonEscapeByte byte = [byte] := by
  simp only [IsEscaped, List.mem_cons, List.not_mem_nil, or_false, not_or] at h
  simp [jsonEscapeByte, h]

theorem jsonEscapeByte_of (h : IsEscaped byte) :
    ∃ letter, (letter, byte) ∈ escapes ∧ jsonEscapeByte byte = [92, letter] := by
  simp only [IsEscaped, List.mem_cons, List.not_mem_nil, or_false] at h
  rcases h with rfl | rfl | rfl | rfl | rfl
  · exact ⟨92, by decide, rfl⟩
  · exact ⟨34, by decide, rfl⟩
  · exact ⟨110, by decide, rfl⟩
  · exact ⟨114, by decide, rfl⟩
  · exact ⟨116, by decide, rfl⟩

theorem jsonEscape_cons (byte : UInt8) (value : Bytes) :
    jsonEscape (byte :: value) = jsonEscapeByte byte ++ jsonEscape value := rfl

section

variable {plain : UInt8 → Prop}

theorem body_jsonEscape {value : Bytes} (h : ∀ byte ∈ value, plain byte ∨ IsEscaped byte) :
    Body plain (jsonEscape value) value := by
  induction value with
  | nil => exact .nil
  | cons byte value ih =>
    have hrest := ih fun other hother => h other (List.mem_cons_of_mem _ hother)
    rw [jsonEscape_cons]
    by_cases hescaped : IsEscaped byte
    · obtain ⟨letter, hletter, hbyte⟩ := jsonEscapeByte_of hescaped
      rw [hbyte]
      exact .escaped hletter hrest
    · rw [jsonEscapeByte_of_not hescaped]
      refine .plain ((h byte List.mem_cons_self).resolve_right hescaped) ?_ ?_ hrest
      · rintro rfl
        exact hescaped (by simp [IsEscaped])
      · rintro rfl
        exact hescaped (by simp [IsEscaped])

theorem body_self (h : ∀ byte ∈ text, plain byte ∧ byte ≠ 34 ∧ byte ≠ 92) :
    Body plain text text := by
  induction text with
  | nil => exact .nil
  | cons byte text ih =>
    obtain ⟨hplain, hquote, hescape⟩ := h byte List.mem_cons_self
    exact .plain hplain hquote hescape
      (ih fun other hother => h other (List.mem_cons_of_mem _ hother))

end

theorem utf8From_jsonEscape {pending : List (UInt8 × UInt8)}
    (hpending : ∀ range ∈ pending, 0x80 ≤ range.1 ∧ range.2 ≤ 0xBF) {value : Bytes}
    (h : Wire.utf8From pending value = true) :
    Wire.utf8From pending (jsonEscape value) = true := by
  have hascii (letter : UInt8) (hletter : letter < 0x80) (rest : Bytes) :
      Wire.utf8From [] (letter :: rest) = Wire.utf8From [] rest := by
    simp [Wire.utf8From, Wire.continuation, hletter]
  induction value generalizing pending with
  | nil => exact h
  | cons byte value ih =>
    rw [jsonEscape_cons]
    by_cases hescaped : IsEscaped byte
    · have hbyte : byte < 0x80 := by
        simp only [IsEscaped, List.mem_cons, List.not_mem_nil, or_false] at hescaped
        rcases hescaped with rfl | rfl | rfl | rfl | rfl <;> decide
      cases pending with
      | nil =>
        rw [hascii byte hbyte] at h
        obtain ⟨letter, hletter, htext⟩ := jsonEscapeByte_of hescaped
        have hsmall : letter < 0x80 := by
          simp only [escapes, List.mem_cons, List.not_mem_nil, or_false, Prod.mk.injEq] at hletter
          rcases hletter with ⟨rfl, -⟩ | ⟨rfl, -⟩ | ⟨rfl, -⟩ | ⟨rfl, -⟩ | ⟨rfl, -⟩ |
            ⟨rfl, -⟩ | ⟨rfl, -⟩ | ⟨rfl, -⟩ <;> decide
        rw [htext]
        change Wire.utf8From [] (92 :: letter :: jsonEscape value) = true
        rw [hascii 92 (by decide), hascii letter hsmall]
        exact ih hpending h
      | cons range pending =>
        -- a tail byte is not replaced
        simp only [Wire.utf8From, Bool.and_eq_true, decide_eq_true_eq] at h
        have hrange := (hpending range List.mem_cons_self).1
        exact absurd hbyte (UInt8.not_lt.mpr (UInt8.le_trans hrange h.1.1))
    · rw [jsonEscapeByte_of_not hescaped, List.singleton_append]
      cases pending with
      | nil =>
        simp only [Wire.utf8From] at h ⊢
        cases hlead : Wire.continuation byte with
        | none => simp [hlead] at h
        | some pending =>
          simp only [hlead] at h
          exact ih (Wire.tails_of_continuation hlead) h
      | cons range pending =>
        simp only [Wire.utf8From, Bool.and_eq_true] at h ⊢
        exact ⟨h.1, ih (fun other hother => hpending other (List.mem_cons_of_mem _ hother)) h.2⟩

theorem utf8_jsonEscape {value : Bytes} (h : utf8 value = true) : utf8 (jsonEscape value) = true :=
  utf8From_jsonEscape (by simp) h

/-! ## The texts of the parts -/

theorem writeEach_eq {α : Type} (write : α → Bytes) (elements : List α) :
    writeEach write true elements = joined (elements.map write) := by
  have hrest (element : α) (elements : List α) :
      writeEach write true (element :: elements) = joined ((element :: elements).map write) := by
    induction elements generalizing element with
    | nil => simp [writeEach, joined]
    | cons next elements ih =>
      have hnext := ih next
      have hcomma : lit "," = [44] := by decide
      simp only [writeEach, if_true, Bool.false_eq_true, if_false, List.nil_append, hcomma,
        List.map_cons, joined] at hnext ⊢
      rw [← hnext]
      simp
  cases elements with
  | nil => rfl
  | cons element elements => exact hrest element elements

/-- A name, a value and the text that is written for it. -/
abbrev Entry := Bytes × Value × Bytes

def stringEntry (name text : Bytes) : Entry := (name, .string text, quoted (jsonEscape text))

def attributeEntries (attr : Bytes × Bytes) : List Entry :=
  [stringEntry (lit "key") attr.1,
    (lit "value", .object [(lit "stringValue", .string attr.2)],
      objectText [(lit "stringValue", quoted (jsonEscape attr.2))])]

def statusEntries (span : CompletedSpan) : List Entry :=
  stringEntry (lit "code") span.statusCode ::
    if span.statusMessage.isEmpty then []
    else [stringEntry (lit "message") span.statusMessage]

def entryTexts (entries : List Entry) : List (Bytes × Bytes) :=
  entries.map fun entry => (entry.1, entry.2.2)

def spanEntries (span : CompletedSpan) : List Entry :=
  [stringEntry (lit "traceId") span.traceId, stringEntry (lit "spanId") span.spanId] ++
    (if span.parentSpanId.isEmpty then []
      else [stringEntry (lit "parentSpanId") span.parentSpanId]) ++
    [stringEntry (lit "name") span.name,
      (lit "kind", .number (decimal (spanKindValue span.kind)), decimal (spanKindValue span.kind)),
      (lit "startTimeUnixNano", .string (signedDecimal span.startTimeUnixNano),
        quoted (signedDecimal span.startTimeUnixNano)),
      (lit "endTimeUnixNano", .string (signedDecimal span.endTimeUnixNano),
        quoted (signedDecimal span.endTimeUnixNano)),
      (lit "attributes", .array (span.attributes.map attributeValue),
        arrayText (span.attributes.map attributeJson)),
      (lit "status", statusValue span, objectText (entryTexts (statusEntries span)))]

theorem attributeJson_eq (attr : Bytes × Bytes) :
    attributeJson attr = objectText (entryTexts (attributeEntries attr)) := by
  have hkey : lit "\x7b\"key\":\"" = 123 :: 34 :: (lit "key" ++ [34, 58, 34]) := by
    decide
  have hvalue : lit "\",\"value\":\x7b\"stringValue\":\"" = 34 :: 44 :: 34 ::
      (lit "value" ++ 34 :: 58 :: 123 :: 34 :: (lit "stringValue" ++ [34, 58, 34])) := by
    decide
  have hend : lit "\"\x7d\x7d" = [34, 125, 125] := by decide
  simp [attributeJson, hkey, hvalue, hend, objectText, entryTexts, attributeEntries, stringEntry,
    joined, memberText, quoted]

theorem statusText_eq (span : CompletedSpan) : objectText (entryTexts (statusEntries span)) =
      lit "\x7b\"code\":\"" ++ jsonEscape span.statusCode ++ lit "\"" ++
        (if span.statusMessage.isEmpty then []
          else lit ",\"message\":\"" ++ jsonEscape span.statusMessage ++ lit "\"") ++
        lit "\x7d" := by
  have hcode : lit "\x7b\"code\":\"" = 123 :: 34 :: (lit "code" ++ [34, 58, 34]) := by
    decide
  have hmessage : lit ",\"message\":\"" = 44 :: 34 :: (lit "message" ++ [34, 58, 34]) := by
    decide
  have hquote : lit "\"" = [34] := by decide
  have hend : lit "\x7d" = [125] := by decide
  cases hempty : span.statusMessage.isEmpty <;>
    simp [hcode, hmessage, hquote, hend, objectText, entryTexts, statusEntries, stringEntry,
      joined, memberText, quoted, hempty]

theorem spanJson_eq (span : CompletedSpan) :
    spanJson span = objectText (entryTexts (spanEntries span)) := by
  have htrace : lit "\x7b\"traceId\":\"" = 123 :: 34 :: (lit "traceId" ++ [34, 58, 34]) := by
    decide
  have hspan : lit "\",\"spanId\":\"" = 34 :: 44 :: 34 :: (lit "spanId" ++ [34, 58, 34]) := by
    decide
  have hparent : lit ",\"parentSpanId\":\"" =
      44 :: 34 :: (lit "parentSpanId" ++ [34, 58, 34]) := by decide
  have hname : lit ",\"name\":\"" = 44 :: 34 :: (lit "name" ++ [34, 58, 34]) := by
    decide
  have hkind : lit "\",\"kind\":" = 34 :: 44 :: 34 :: (lit "kind" ++ [34, 58]) := by
    decide
  have hstart : lit ",\"startTimeUnixNano\":\"" =
      44 :: 34 :: (lit "startTimeUnixNano" ++ [34, 58, 34]) := by decide
  have hfinish : lit "\",\"endTimeUnixNano\":\"" =
      34 :: 44 :: 34 :: (lit "endTimeUnixNano" ++ [34, 58, 34]) := by decide
  have hattributes : lit ",\"attributes\":[" =
      44 :: 34 :: (lit "attributes" ++ [34, 58, 91]) := by decide
  have hstatus : lit "],\"status\":\x7b\"code\":\"" =
      93 :: 44 :: 34 :: (lit "status" ++ 34 :: 58 :: lit "\x7b\"code\":\"") := by
    decide
  have hquote : lit "\"" = [34] := by decide
  have hend : lit "\x7d\x7d" = lit "\x7d" ++ [125] := by decide
  unfold spanEntries spanJson
  rw [statusText_eq, writeEach_eq]
  cases span.parentSpanId.isEmpty <;>
    simp only [htrace, hspan, hparent, hname, hkind, hstart, hfinish, hattributes, hstatus, hend,
      hquote, objectText, arrayText, entryTexts, stringEntry, joined, memberText, quoted,
      List.map_cons, List.map_nil, List.cons_append, List.nil_append, List.append_assoc,
      Bool.false_eq_true, if_true, if_false]

def resourceText (serviceName : Bytes) : Bytes :=
  objectText [(lit "attributes",
    arrayText [attributeJson (lit "service.name", resourceName serviceName)])]

def scopeSpansText (spans : List CompletedSpan) : Bytes :=
  objectText [(lit "scope", objectText [(lit "name", quoted (lit "nebulaim"))]),
    (lit "spans", arrayText (spans.map spanJson))]

def documentText (spans : List CompletedSpan) (serviceName : Bytes) : Bytes :=
  objectText [(lit "resourceSpans", arrayText [objectText
    [(lit "resource", resourceText serviceName),
      (lit "scopeSpans", arrayText [scopeSpansText spans])]])]

theorem buildJson_eq (spans : List CompletedSpan) (serviceName : Bytes) :
    buildJson spans serviceName = documentText spans serviceName ++ lit "]\x7d" := by
  have hservice : jsonEscape (lit "service.name") = lit "service.name" := by decide
  have hstart : lit "\x7b\"resourceSpans\":[\x7b\"resource\":\x7b\"attributes\":[\x7b\"key\":\"service.name\",\"value\":\x7b\"stringValue\":\"" =
      123 :: 34 :: (lit "resourceSpans" ++ 34 :: 58 :: 91 :: 123 :: 34 :: (lit "resource" ++
        34 :: 58 :: 123 :: 34 :: (lit "attributes" ++ 34 :: 58 :: 91 ::
          (lit "\x7b\"key\":\"" ++ (lit "service.name" ++
            lit "\",\"value\":\x7b\"stringValue\":\""))))) := by
    decide
  have hscope : lit "\"\x7d\x7d]\x7d,\"scopeSpans\":[\x7b\"scope\":\x7b\"name\":\"nebulaim\"\x7d,\"spans\":[" =
      lit "\"\x7d\x7d" ++ 93 :: 125 :: 44 :: 34 :: (lit "scopeSpans" ++ 34 :: 58 :: 91 ::
        123 :: 34 :: (lit "scope" ++ 34 :: 58 :: 123 :: 34 :: (lit "name" ++ 34 :: 58 :: 34 ::
          (lit "nebulaim" ++ 34 :: 125 :: 44 :: 34 :: (lit "spans" ++ [34, 58, 91]))))) := by
    decide
  have hend : lit "]\x7d]\x7d]\x7d]\x7d" =
      93 :: 125 :: 93 :: 125 :: 93 :: 125 :: lit "]\x7d" := by decide
  unfold buildJson documentText resourceText scopeSpansText attributeJson
  rw [writeEach_eq]
  simp only [hservice, hstart, hscope, hend, objectText, arrayText, joined, memberText, quoted,
    List.map_cons, List.map_nil, List.cons_append, List.nil_append, List.append_assoc]

/-! ## Derivations -/

section

variable {plain : UInt8 → Prop}

variable (plain) in
/-- A string whose bytes may be written as `jsonEscape` writes them. -/
structure Writable (text : Bytes) : Prop where
  wellFormed : utf8 text = true
  writable : ∀ byte ∈ text, plain byte ∨ IsEscaped byte

variable (plain) in
structure Entry.Derived (entry : Entry) : Prop where
  name : Body plain entry.1 entry.1 ∧ utf8 entry.1 = true
  value : Derives plain (.value entry.2.1) entry.2.2

theorem derives_entries (entries : List Entry) (h : ∀ entry ∈ entries, Entry.Derived plain entry) :
    Derives plain (.value (.object (entries.map fun entry => (entry.1, entry.2.1))))
      (objectText (entryTexts entries)) :=
  .objectOf entries (fun entry hentry => (h entry hentry).name)
    fun entry hentry => (h entry hentry).value

theorem derives_string (h : Writable plain text) :
    Derives plain (.value (.string text)) (quoted (jsonEscape text)) :=
  .string (body_jsonEscape h.writable) (utf8_jsonEscape h.wellFormed)

variable (hplain : ∀ byte, 0x20 ≤ byte → plain byte)

/-- Bytes that stand for themselves in a string. -/
def isLetter (byte : UInt8) : Bool := 0x20 ≤ byte ∧ byte < 0x80 ∧ byte ≠ 34 ∧ byte ≠ 92

include hplain

theorem body_letters (h : text.all isLetter = true) : Body plain text text ∧ utf8 text = true := by
  simp only [List.all_eq_true, isLetter, decide_eq_true_eq] at h
  refine ⟨body_self fun byte hbyte => ?_, Wire.utf8_of_ascii text fun byte hbyte => ?_⟩
  · obtain ⟨hlower, -, hquote, hescape⟩ := h byte hbyte
    exact ⟨hplain byte hlower, hquote, hescape⟩
  · exact (h byte hbyte).2.1

theorem derived_entry (hname : name.all isLetter = true)
    (h : Derives plain (.value value) text) : Entry.Derived plain (name, value, text) :=
  ⟨body_letters hplain hname, h⟩

theorem derived_stringEntry (hname : name.all isLetter = true)
    (h : Writable plain text) : Entry.Derived plain (stringEntry name text) :=
  derived_entry hplain hname (derives_string h)

theorem derives_object (members : List Entry)
    (h : members.Forall fun (name, value, text) =>
      name.all isLetter = true ∧ Derives plain (.value value) text) :
    Derives plain (.value (.object (members.map fun entry => (entry.1, entry.2.1))))
      (objectText (entryTexts members)) := by
  refine derives_entries members fun entry hentry => ?_
  obtain ⟨hname, hvalue⟩ := List.forall_iff_forall_mem.mp h entry hentry
  exact derived_entry hplain hname hvalue

theorem derives_letters (h : text.all isLetter = true) :
    Derives plain (.value (.string text)) (quoted text) :=
  have hbody := body_letters hplain h
  .string hbody.1 hbody.2

theorem derives_attribute {attr : Bytes × Bytes} (hkey : Writable plain attr.1)
    (hvalue : Writable plain attr.2) :
    Derives plain (.value (attributeValue attr)) (attributeJson attr) := by
  rw [attributeJson_eq]
  have hstring : Derives plain _ (objectText (entryTexts [stringEntry (lit "stringValue") attr.2])) :=
    derives_object hplain [stringEntry (lit "stringValue") attr.2]
      ⟨by decide, derives_string hvalue⟩
  exact derives_object hplain (attributeEntries attr)
    ⟨⟨by decide, derives_string hkey⟩, by decide, hstring⟩

theorem derives_status (hcode : Writable plain span.statusCode)
    (hmessage : Writable plain span.statusMessage) :
    Derives plain (.value (statusValue span)) (objectText (entryTexts (statusEntries span))) := by
  have hvalue : statusValue span =
      .object ((statusEntries span).map fun entry => (entry.1, entry.2.1)) := by
    unfold statusValue statusEntries
    cases span.statusMessage.isEmpty <;> rfl
  rw [hvalue]
  refine derives_entries _ fun entry hentry => ?_
  rcases List.mem_cons.mp hentry with rfl | hmore
  · exact derived_stringEntry hplain (by decide) hcode
  · split_ifs at hmore
    · cases hmore
    · rw [List.mem_singleton.mp hmore]
      exact derived_stringEntry hplain (by decide) hmessage

omit hplain in
theorem isNumber_kind (kind : TraceSpanKind) : IsNumber (decimal (spanKindValue kind)) := by
  refine ⟨[], decimal (spanKindValue kind), [], [], by simp, .inl rfl, ⟨⟨?_, ?_⟩, ?_⟩, .inl rfl,
    .inl rfl⟩
  · cases kind <;> decide
  · exact fun digit hdigit => Protocol.digit_of_mem_decimal hdigit
  · cases kind <;> decide

omit hplain in
theorem letters_signedDecimal (n : Int64) : (signedDecimal n).all isLetter = true := by
  have hdigits (m : Nat) : (decimal m).all isLetter = true := by
    refine List.all_eq_true.mpr fun byte hbyte => decide_eq_true ?_
    obtain ⟨hlower, hupper⟩ := Protocol.digit_of_mem_decimal hbyte
    refine ⟨UInt8.le_trans (by decide) hlower, UInt8.lt_of_le_of_lt hupper (by decide), ?_, ?_⟩
    · rintro rfl
      exact absurd hlower (by decide)
    · rintro rfl
      exact absurd hupper (by decide)
  unfold signedDecimal
  split_ifs
  · simpa [isLetter] using hdigits _
  · exact hdigits _

theorem derives_span (h : ∀ text ∈ span.strings, Writable plain text) :
    Derives plain (.value (spanValue span)) (spanJson span) := by
  have hvalue : spanValue span =
      .object ((spanEntries span).map fun entry => (entry.1, entry.2.1)) := by
    unfold spanValue spanEntries
    cases span.parentSpanId.isEmpty <;> rfl
  have hattributes : Derives plain (.value (.array (span.attributes.map attributeValue)))
      (arrayText (span.attributes.map attributeJson)) := by
    have heach : ∀ entry ∈ span.attributes.map fun attr =>
        (attributeValue attr, attributeJson attr), Derives plain (.value entry.1) entry.2 := by
      intro entry hentry
      obtain ⟨attr, hattr, rfl⟩ := List.mem_map.mp hentry
      refine derives_attribute hplain (h _ ?_) (h _ ?_)
      · exact List.mem_append_right _ (List.mem_flatMap.mpr ⟨attr, hattr, by simp⟩)
      · exact List.mem_append_right _ (List.mem_flatMap.mpr ⟨attr, hattr, by simp⟩)
    simpa [Function.comp_def] using Derives.arrayOf _ heach
  rw [hvalue, spanJson_eq]
  refine derives_entries _ fun entry hentry => ?_
  simp only [spanEntries, List.mem_append, List.mem_cons, List.not_mem_nil, or_false] at hentry
  rcases hentry with ((rfl | rfl) | hparent) | rfl | rfl | rfl | rfl | rfl | rfl
  · exact derived_stringEntry hplain (by decide) (h _ (by simp [CompletedSpan.strings]))
  · exact derived_stringEntry hplain (by decide) (h _ (by simp [CompletedSpan.strings]))
  · split_ifs at hparent
    · cases hparent
    · rw [List.mem_singleton.mp hparent]
      exact derived_stringEntry hplain (by decide) (h _ (by simp [CompletedSpan.strings]))
  · exact derived_stringEntry hplain (by decide) (h _ (by simp [CompletedSpan.strings]))
  · exact derived_entry hplain (by decide) (.number (isNumber_kind span.kind))
  · exact derived_entry hplain (by decide)
      (derives_letters hplain (letters_signedDecimal _))
  · exact derived_entry hplain (by decide)
      (derives_letters hplain (letters_signedDecimal _))
  · exact derived_entry hplain (by decide) hattributes
  · exact derived_entry hplain (by decide) (derives_status hplain
      (h _ (by simp [CompletedSpan.strings])) (h _ (by simp [CompletedSpan.strings])))

omit hplain in
theorem derives_array_one (h : Derives plain (.value value) text) :
    Derives plain (.value (.array [value])) (arrayText [text]) :=
  .arrayOf [(value, text)] (by simpa using h)

theorem derives_spans (h : ∀ span ∈ spans, ∀ text ∈ span.strings, Writable plain text) :
    Derives plain (.value (.array (spans.map spanValue))) (arrayText (spans.map spanJson)) := by
  have heach : ∀ entry ∈ spans.map fun span => (spanValue span, spanJson span),
      Derives plain (.value entry.1) entry.2 := by
    intro entry hentry
    obtain ⟨span, hspan, rfl⟩ := List.mem_map.mp hentry
    exact derives_span hplain (h span hspan)
  simpa [Function.comp_def] using Derives.arrayOf _ heach

theorem writable_letters (h : text.all isLetter = true) : Writable plain text := by
  refine ⟨(body_letters hplain h).2, fun byte hbyte => .inl (hplain byte ?_)⟩
  simp only [List.all_eq_true, isLetter, decide_eq_true_eq] at h
  exact (h byte hbyte).1

theorem derives_document (h : ∀ text ∈ strings spans serviceName, Writable plain text) :
    Derives plain (.value (document spans serviceName)) (documentText spans serviceName) := by
  have hservice : Writable plain (resourceName serviceName) := by
    unfold resourceName
    split_ifs
    · exact writable_letters hplain (by decide)
    · exact h serviceName List.mem_cons_self
  have hkey : Writable plain (lit "service.name") := writable_letters hplain (by decide)
  have hattribute : Derives plain
      (.value (attributeValue (lit "service.name", resourceName serviceName)))
      (attributeJson (lit "service.name", resourceName serviceName)) :=
    derives_attribute hplain hkey hservice
  have hname : Derives plain (.value (.string (lit "nebulaim"))) (quoted (lit "nebulaim")) :=
    derives_letters hplain (by decide)
  have hspans := derives_spans hplain fun span hspan text htext =>
    h text (List.mem_cons_of_mem _ (List.mem_flatMap.mpr ⟨span, hspan, htext⟩))
  have hresource : Derives plain _ (resourceText serviceName) :=
    derives_object hplain [(_, _, _)] ⟨by decide, derives_array_one hattribute⟩
  have hscope : Derives plain _ (scopeSpansText spans) :=
    derives_object hplain [(_, _, _), (_, _, _)]
      ⟨⟨by decide, derives_object hplain [(_, _, _)] ⟨by decide, hname⟩⟩, by decide, hspans⟩
  exact derives_object hplain [(_, _, _)] ⟨by decide, derives_array_one
    (derives_object hplain [(_, _, _), (_, _, _)]
      ⟨⟨by decide, hresource⟩, by decide, derives_array_one hscope⟩)⟩

end

/-! ## What is exported -/

/-- The reader of the text ends below all brackets, whatever stands in the strings. -/
theorem scan_buildJson (htext : ∀ text ∈ strings spans serviceName, utf8 text = true) :
    Scan.run ⟨0, .outside⟩ (buildJson spans serviceName) = ⟨-2, .outside⟩ := by
  have hlax : Derives (fun _ => True) (.value (document spans serviceName))
      (documentText spans serviceName) :=
    derives_document (fun _ _ => trivial) fun text hmem =>
      ⟨htext text hmem, fun _ _ => .inl trivial⟩
  rw [buildJson_eq, Scan.run_append, hlax.balanced]
  decide

theorem mem_joined {texts : List Bytes} (htext : text ∈ texts) (hbyte : byte ∈ text) :
    byte ∈ joined texts := by
  induction texts with
  | nil => cases htext
  | cons first texts ih =>
    cases texts with
    | nil => rwa [List.mem_singleton.mp htext] at hbyte
    | cons second texts =>
      simp only [joined, List.mem_append, List.mem_cons]
      rcases List.mem_cons.mp htext with rfl | hrest
      · exact .inl hbyte
      · exact .inr (.inr (ih hrest))

theorem mem_spanJson (htext : text ∈ span.strings) (hbyte : byte ∈ jsonEscape text) :
    byte ∈ spanJson span := by
  have hempty (value : Bytes) (hvalue : byte ∈ jsonEscape value) : value.isEmpty = false := by
    cases value with
    | nil => cases hvalue
    | cons first rest => rfl
  simp only [CompletedSpan.strings, List.mem_append, List.mem_cons, List.not_mem_nil, or_false,
    List.mem_flatMap] at htext
  unfold spanJson
  rw [writeEach_eq]
  rcases htext with (rfl | rfl | rfl | rfl | rfl | rfl) | ⟨attr, hattr, htext⟩
  · simp [hbyte]
  · simp [hbyte]
  · simp [hbyte, hempty _ hbyte]
  · simp [hbyte]
  · simp [hbyte]
  · simp [hbyte, hempty _ hbyte]
  · have hwritten : byte ∈ attributeJson attr := by
      rcases htext with rfl | rfl <;> simp [attributeJson, hbyte]
    have hjoined := mem_joined (List.mem_map_of_mem hattr) hwritten
    simp [hjoined]

theorem mem_buildJson (htext : text ∈ strings spans serviceName)
    (hbyte : byte ∈ jsonEscape text) : byte ∈ buildJson spans serviceName := by
  unfold buildJson
  rw [writeEach_eq]
  rcases List.mem_cons.mp htext with rfl | hspans
  · have hname : resourceName text = text := by
      unfold resourceName
      cases text with
      | nil => cases hbyte
      | cons first rest => rfl
    simp [hname, hbyte]
  · obtain ⟨span, hspan, hmem⟩ := List.mem_flatMap.mp hspans
    have hjoined := mem_joined (List.mem_map_of_mem hspan) (mem_spanJson hmem hbyte)
    simp [hjoined]

theorem printable_of_isEscaped (h : IsEscaped byte) : IsPrintable byte := by
  simp only [IsEscaped, List.mem_cons, List.not_mem_nil, or_false] at h
  rcases h with rfl | rfl | rfl | rfl | rfl
  · exact .inl (by decide)
  · exact .inl (by decide)
  · exact .inr (by decide)
  · exact .inr (by decide)
  · exact .inr (by decide)

/-- What is exported is never a JSON text.  Without its last bracket and brace it is one, with
an object for each span and every string as it was, exactly if no string contains a control
character other than the three that are escaped. -/
theorem buildJson_isText_iff (spans : List CompletedSpan) (serviceName : Bytes)
    (htext : ∀ text ∈ strings spans serviceName, utf8 text = true) :
    (¬ ∃ value, IsText value (buildJson spans serviceName)) ∧
      ∃ body, buildJson spans serviceName = body ++ lit "]\x7d" ∧
        (IsText (document spans serviceName) body ↔
          ∀ text ∈ strings spans serviceName, ∀ byte ∈ text, IsPrintable byte) := by
  constructor
  · rintro ⟨value, hvalue⟩
    have hbalanced := hvalue.balanced
    rw [scan_buildJson htext] at hbalanced
    cases hbalanced
  · refine ⟨documentText spans serviceName, buildJson_eq spans serviceName, ?_, ?_⟩
    · intro hdocument text hmem byte hbyte
      by_cases hescaped : IsEscaped byte
      · exact printable_of_isEscaped hescaped
      · have hwritten : byte ∈ jsonEscape text :=
          List.mem_flatMap.mpr ⟨byte, hbyte, by simp [jsonEscapeByte_of_not hescaped]⟩
        have hexported := mem_buildJson hmem hwritten
        rw [buildJson_eq, List.mem_append] at hexported
        rcases hexported with hinner | hend
        · exact hdocument.printable byte hinner
        · have hbrackets : ∀ byte ∈ lit "]\x7d", 0x20 ≤ byte := by decide +kernel
          exact .inl (hbrackets byte hend)
    · intro hprintable
      refine ⟨_, derives_document (fun _ h => h) fun text hmem => ⟨htext text hmem, ?_⟩, .refl _⟩
      intro byte hbyte
      rcases hprintable text hmem byte hbyte with hplain | hspace
      · exact .inl hplain
      · refine .inr ?_
        simp only [List.mem_cons, List.not_mem_nil, or_false] at hspace
        rcases hspace with rfl | rfl | rfl <;> simp [IsEscaped]

def loginSpan : CompletedSpan where
  traceId := lit "0123456789abcdef"
  spanId := lit "01234567"
  name := lit "gateway.login"
  attributes := [(lit "request_id", lit "r-1")]

/-- The export of the span is no JSON text, but it is one without its last two bytes. -/
theorem loginSpan_isText : (¬ ∃ value, IsText value (buildJson [loginSpan] [])) ∧
      ∃ body, buildJson [loginSpan] [] = body ++ lit "]\x7d" ∧
        IsText (document [loginSpan] []) body := by
  obtain ⟨hnone, body, hbody, hiff⟩ := buildJson_isText_iff [loginSpan] [] (by decide)
  exact ⟨hnone, body, hbody, hiff.mpr (by unfold IsPrintable; decide +kernel)⟩

/-- An export of one span is not a JSON text, and with the character U+0001 in a name it is
not one without the last bracket and brace either. -/
theorem loginSpan_not_isText : (¬ ∃ value, IsText value (buildJson [loginSpan] (lit "gateway"))) ∧
      ¬ ∃ value, IsText value
        (buildJson [{ loginSpan with name := [1] }] (lit "gateway")).dropLast.dropLast := by
  constructor
  · rintro ⟨value, hvalue⟩
    have hbalanced := hvalue.balanced
    revert hbalanced
    decide +kernel
  · rintro ⟨value, hvalue⟩
    have hcontrol := hvalue.printable 1 (by decide)
    rcases hcontrol with hplain | hspace
    · exact absurd hplain (by decide)
    · exact absurd hspace (by decide)

end NebulaIM.Trace
