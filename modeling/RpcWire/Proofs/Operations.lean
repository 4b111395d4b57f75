import RpcWire.Proofs.Tracking.Sessions

/-! Everything that a user of a session can do with it, one operation after the other, whether or not the ones before
succeeded. -/
namespace RpcWire.Session

/-- What an operation gives. Doubles and floats are bit patterns. -/
inductive Answer where
  | done
  | message (header : MessageHeader)
  | field (header : FieldHeader)
  | map (header : MapHeader)
  | list (header : ListHeader)
  | bool (value : Bool)
  | byte (value : Int8)
  | i16 (value : Int16)
  | i32 (value : Int32)
  | i64 (value : Int64)
  | double (bits : UInt64)
  | float (bits : UInt32)
  | text (content : String)
  | octets (content : Bytes)
  deriving DecidableEq, Repr

inductive Reading where
  | messageBegin | messageEnd | structBegin | structEnd | fieldBegin | fieldEnd
  | mapBegin | mapEnd | listBegin | listEnd | setBegin | setEnd
  | bool | byte | i16 | i32 | i64 | double | float | text | bytes
  | skip (tag : Tag)
  | raw (tag : Tag)
  deriving DecidableEq, Repr

inductive Writing where
  | messageBegin (header : MessageHeader)
  | messageEnd | structBegin | structEnd
  | fieldBegin (header : FieldHeader)
  | fieldEnd | fieldStop
  | mapBegin (header : MapHeader)
  | mapEnd
  | listBegin (header : ListHeader)
  | listEnd
  | setBegin (header : ListHeader)
  | setEnd
  | bool (value : Bool)
  | byte (value : Int8)
  | i16 (value : Int16)
  | i32 (value : Int32)
  | i64 (value : Int64)
  | double (bits : UInt64)
  | float (bits : UInt32)
  | text (content : String)
  | bytes (content : Bytes)
  | flush
  deriving DecidableEq, Repr

inductive Operation where
  | read (reading : Reading)
  | write (writing : Writing)
  | negotiateRead
  | switchTo (encoding : Encoding)
  | process (corpus : List String)
  deriving DecidableEq, Repr

/-- The end of a message, a field or a container leaves no trace on the wire. -/
def Reading.run : Reading → SessionM Answer
  | .messageBegin => return .message (← readMessageBegin)
  | .structBegin => do onWire WireM.readStructBegin; return .done
  | .structEnd => do onWire WireM.readStructEnd; return .done
  | .fieldBegin => return .field (← onWire WireM.readFieldBegin)
  | .mapBegin => return .map (← onWire WireM.readMapBegin)
  | .listBegin => return .list (← onWire WireM.readListBegin)
  | .setBegin => return .list (← onWire WireM.readSetBegin)
  | .messageEnd | .fieldEnd | .mapEnd | .listEnd | .setEnd => return .done
  | .bool => return .bool (← onWire WireM.readBool)
  | .byte => return .byte (← onWire WireM.readByte)
  | .i16 => return .i16 (← onWire WireM.readI16)
  | .i32 => return .i32 (← onWire WireM.readI32)
  | .i64 => return .i64 (← onWire WireM.readI64)
  | .double => return .double (← onWire WireM.readDouble)
  | .float => return .float (← onWire WireM.readFloat)
  | .text => return .text (← onWire WireM.readText)
  | .bytes => return .octets (← onWire WireM.readBytes)
  | .skip tag => do Session.skip tag; return .done
  | .raw tag => return .octets (← readRaw tag)

def Writing.run : Writing → SessionM Unit
  | .messageBegin header => writeMessageBegin header
  | .structBegin => onWire WireM.writeStructBegin
  | .structEnd => onWire WireM.writeStructEnd
  | .fieldBegin header => onWire (WireM.writeFieldBegin header)
  | .fieldStop => onWire WireM.writeFieldStop
  | .mapBegin header => onWire (WireM.writeMapBegin header)
  | .listBegin header => onWire (WireM.writeListBegin header)
  | .setBegin header => onWire (WireM.writeSetBegin header)
  | .messageEnd | .fieldEnd | .mapEnd | .listEnd | .setEnd => pure ()
  | .bool value => onWire (WireM.writeBool value)
  | .byte value => onWire (WireM.writeByte value)
  | .i16 value => onWire (WireM.writeI16 value)
  | .i32 value => onWire (WireM.writeI32 value)
  | .i64 value => onWire (WireM.writeI64 value)
  | .double bits => onWire (WireM.writeDouble bits)
  | .float bits => onWire (WireM.writeFloat bits)
  | .text content => onWire (WireM.writeText content)
  | .bytes content => onWire (WireM.writeBytes content)
  | .flush => Session.flush

def Operation.run : Operation → SessionM Answer
  | .read reading => reading.run
  | .write writing => do writing.run; return .done
  | .negotiateRead => do Session.negotiateRead; return .done
  | .switchTo encoding => do Session.switchTo encoding; return .done
  | .process corpus => do Search.process corpus; return .done

/-- What is seen of some actions, one after the other: the result of each and the session after it. A failure does
not end the run. -/
def trace {α ω : Type} (view : Except WireError α → Session → ω) : List (SessionM α) → Session → List ω
  | [], _ => []
  | act :: rest, session =>
    match act session with
    | .ok value after => view (.ok value) after :: trace view rest after
    | .error err after => view (.error err) after :: trace view rest after

/-- Where nothing stops a run early, actions that do the same are seen alike. -/
theorem trace_eq {α ω : Type} {view : Except WireError α → Session → ω} {acts : List (SessionM α)} {pairing : Pairing}
    {config : SessionConfig} (hacts : ∀ act ∈ acts, Alike pairing config act) (hstop : ∀ err, ¬pairing.stop err)
    (hview : ∀ result session session', Beside pairing config session session' →
      view result session = view result session') {session session' : Session}
    (h : Beside pairing config session session') : trace view acts session = trace view acts session' := by
  induction acts generalizing session session' with
  | nil => rfl
  | cons act rest ih =>
    obtain ⟨hact, hrest⟩ := List.forall_mem_cons.mp hacts
    have hcons {result : Except WireError α} {after after' : Session} (hm : Beside pairing config after after') :
        view result after :: trace view rest after = view result after' :: trace view rest after' := by
      rw [hview _ _ _ hm, ih hrest hm]
    have hresult := hact h
    rw [trace, trace]
    generalize act session = result at hresult
    generalize act session' = result' at hresult
    cases hresult with
    | ok hm => exact hcons hm
    | error hm => exact hcons hm
    | stopped h => exact absurd h (hstop _)

variable {pairing during : Pairing} {config : SessionConfig}

theorem alike_reading (hcapture : pairing.Captures during) (reading : Reading) :
    Alike pairing config reading.run := by
  cases reading with
  | messageBegin => exact alike_readMessageBegin.map _
  | structBegin => exact (Alike.onWire fun _ => WireM.follows_structBegin).seq (.pure _)
  | structEnd => exact (Alike.onWire fun _ => WireM.follows_structEnd).seq (.pure _)
  | fieldBegin => exact (Alike.onWire fun _ => WireM.follows_fieldBegin.plain).map _
  | mapBegin => exact (Alike.onWire fun _ => WireM.follows_mapBegin.plain).map _
  | listBegin => exact (Alike.onWire fun _ => WireM.follows_listBegin.plain).map _
  | setBegin => exact (Alike.onWire fun _ => WireM.follows_listBegin.plain).map _
  | bool => exact (Alike.onWire fun _ => WireM.follows_bool).map _
  | byte => exact (Alike.onWire fun _ => WireM.follows_byte).map _
  | i16 => exact (Alike.onWire fun _ => WireM.follows_i16).map _
  | i32 => exact (Alike.onWire fun _ => WireM.follows_i32).map _
  | i64 => exact (Alike.onWire fun _ => WireM.follows_i64).map _
  | double => exact (Alike.onWire fun _ => WireM.follows_double).map _
  | float => exact (Alike.onWire fun _ => WireM.follows_float).map _
  | text => exact (Alike.onWire fun _ => WireM.follows_text).map _
  | bytes => exact (Alike.onWire fun _ => WireM.follows_run).map _
  | skip tag => exact (alike_skip tag).seq (.pure _)
  | raw tag => exact (alike_readRaw hcapture tag).map _
  | messageEnd | fieldEnd | mapEnd | listEnd | setEnd => exact .pure _

variable {twoWay : TwoWay}

private theorem alike_writing (writing : Writing) : Alike twoWay.toPairing config writing.run := by
  cases writing with
  | messageBegin header => exact alike_writeMessageBegin header
  | structBegin => exact Alike.onWire fun _ => WireM.follows_writeStructBegin
  | structEnd => exact Alike.onWire fun _ => WireM.follows_writeStructEnd
  | fieldBegin header => exact Alike.onWire fun _ => WireM.follows_writeFieldBegin header
  | fieldStop => exact Alike.onWire fun _ => WireM.follows_writeFieldStop
  | mapBegin header => exact Alike.onWire fun _ => WireM.follows_writeMapBegin header
  | listBegin header => exact Alike.onWire fun _ => WireM.follows_writeListBegin header
  | setBegin header => exact Alike.onWire fun _ => WireM.follows_writeListBegin header
  | bool value => exact Alike.onWire fun _ => WireM.follows_writeBool value
  | byte value => exact Alike.onWire fun _ => WireM.follows_writeByte value
  | i16 value => exact Alike.onWire fun _ => WireM.follows_writeI16 value
  | i32 value => exact Alike.onWire fun _ => WireM.follows_writeI32 value
  | i64 value => exact Alike.onWire fun _ => WireM.follows_writeI64 value
  | double bits => exact Alike.onWire fun _ => WireM.follows_writeDouble bits
  | float bits => exact Alike.onWire fun _ => WireM.follows_writeFloat bits
  | text content => exact Alike.onWire fun _ => WireM.follows_writeText content
  | bytes content => exact Alike.onWire fun _ => WireM.follows_writeBytes content
  | flush => exact alike_flush
  | messageEnd | fieldEnd | mapEnd | listEnd | setEnd => exact .pure _

theorem alike_operation (hcapture : twoWay.toPairing.Captures during) (operation : Operation) :
    Alike twoWay.toPairing config operation.run := by
  cases operation with
  | read reading => exact alike_reading hcapture reading
  | write writing => exact (alike_writing writing).seq (.pure _)
  | negotiateRead => exact alike_negotiateRead.seq (.pure _)
  | switchTo encoding => exact (alike_switchTo encoding).seq (.pure _)
  | process corpus => exact (Search.alike_process corpus).seq (.pure _)

end RpcWire.Session
