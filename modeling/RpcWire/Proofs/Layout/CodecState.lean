import RpcWire.Proofs.Layout
import RpcWire.Proofs.Parts

/-! What a codec remembers between the parts of a value, and what it asks of each part. -/
namespace RpcWire

namespace Codec

/-- No truth value waits to be written or read with the head of its field. -/
def Idle : Codec → Prop
  | .binary _ => True
  | .compact codec => codec.pendingWrite = none ∧ codec.pendingRead = none

def lastField : Codec → Int16
  | .binary _ => 0
  | .compact codec => codec.lastField

def atField (id : Int16) : Codec → Codec
  | .binary codec => .binary codec
  | .compact codec => .compact { codec with lastField := id }

def inStruct : Codec → Codec
  | .binary codec => .binary codec
  | .compact codec =>
    .compact { codec with lastField := 0, outerFields := codec.lastField :: codec.outerFields }

@[simp] theorem lastField_inStruct {codec : Codec} : codec.inStruct.lastField = 0 := by
  cases codec <;> rfl

theorem Idle.atField {codec : Codec} (h : codec.Idle) (id : Int16) : (codec.atField id).Idle := by
  cases codec <;> exact h

theorem Idle.inStruct {codec : Codec} (h : codec.Idle) : codec.inStruct.Idle := by
  cases codec <;> exact h

@[simp] theorem format_atField (codec : Codec) (id : Int16) : (codec.atField id).format = codec.format := by
  cases codec <;> rfl

@[simp] theorem format_inStruct (codec : Codec) : codec.inStruct.format = codec.format := by
  cases codec <;> rfl

theorem idle_reset (codec : Codec) : codec.reset.Idle := by
  cases codec with
  | binary codec => trivial
  | compact codec => exact ⟨rfl, rfl⟩

@[simp] theorem format_reset (codec : Codec) : codec.reset.format = codec.format := by
  cases codec <;> rfl

@[simp] theorem limits_reset (codec : Codec) : codec.reset.limits = codec.limits := by
  cases codec <;> rfl

@[simp] theorem encoding_format (codec : Codec) : codec.format.encoding = codec.encoding := by
  cases codec <;> rfl

@[simp] theorem compactVersion?_format (codec : Codec) : codec.format.compactVersion? = codec.compactVersion? := by
  cases codec <;> rfl

/-- The layout of fields looks at the field before only where the codec remembers it. -/
theorem fields_atField (codec : Codec) (id : Int16) (fields : List (Int16 × Value)) :
    codec.format.fields (codec.atField id).lastField fields = codec.format.fields id fields := by
  cases codec with
  | binary codec => cases fields <;> rfl
  | compact codec => rfl

end Codec

namespace Format

/-- Whether a writer accepts the value itself, whatever its parts are. -/
def Accepts (format : Format) : Value → Prop
  | .binary bytes => bytes.length ≤ Endpoint.maxSize
  | .map key value items =>
    items.length ≤ Endpoint.maxSize ∧ (format = .binary ∨ items = [] ∨ key ≠ .void ∧ value ≠ .void)
  | .set elem items => items.length ≤ Endpoint.maxSize ∧ (format = .binary ∨ elem ≠ .void)
  | .list elem items => items.length ≤ Endpoint.maxSize ∧ (format = .binary ∨ elem ≠ .void)
  | _ => True

end Format

namespace Value

theorem tag_ne_void (value : Value) : value.tag ≠ .void := by
  cases value <;> simp [tag]

theorem tag_eq_bool {value : Value} (h : value.tag = .bool) : ∃ content, value = .bool content := by
  cases value <;> simp_all [tag]

theorem fieldHead_of_not_bool {version : CompactVersion} {value : Value} (h : value.tag ≠ .bool)
    (last id : Int16) : Format.fieldHead last id (.compact version) value =
      Format.compactFieldHead last (Format.nibble value.tag) id := by
  cases value <;> simp_all [tag, Format.fieldHead]

theorem inHead_of_not_bool (format : Format) {value : Value} (h : value.tag ≠ .bool) :
    format.inHead value = false := by
  cases format <;> cases value <;> simp_all [tag, Format.inHead]

end Value
end RpcWire
