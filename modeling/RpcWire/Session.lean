import RpcWire.Value.Fault

/-! A session: one codec at a time on one transport, chosen anew for every message read. An envelope names the
encoding of what it carries; elsewhere the first octets tell it. What is written uses the codec at work, so a
reply has the encoding of its request. -/
namespace RpcWire

/-- Settings of a session. -/
structure SessionConfig where
  transport : TransportKind := .framed
  /-- Encoding to write with at first, and to read with where nothing else tells. -/
  encoding : Encoding := .binary
  /-- Whether the first octets of a message tell its encoding. -/
  autoDetect : Bool := true
  compactVersion : CompactVersion := .littleEndian
  /-- Refuses binary messages without a version word. -/
  strictRead : Bool := false
  /-- Levels of nesting allowed in what is skipped. -/
  recursionLimit : Nat := 64
  limits : Limits := { text := 16777216 }
  maxFrameSize : UInt32 := 16777216
  deriving DecidableEq, Repr

/-- A fresh codec for an encoding, where there is one. -/
def SessionConfig.codec? (config : SessionConfig) : Encoding → Except WireError Codec
  | .binary => .ok (.binary { strict := config.strictRead, limits := config.limits })
  | .compact => .ok (.compact { version := config.compactVersion, limits := config.limits })
  | other => .error (.unsupportedEncoding other)

structure Session where
  config : SessionConfig
  endpoint : Endpoint Codec
  deriving DecidableEq

abbrev SessionM := EStateM WireError Session

namespace Session

/-- A session on a stream. -/
def ofStream? (config : SessionConfig) (stream : Stream) : Except WireError Session := do
  let codec ← config.codec? config.encoding
  let transport := Transport.ofStream config.transport stream config.maxFrameSize
  return { config, endpoint := { codec, channel := { transport } } }

/-- A session opens with a fresh codec on a fresh channel. -/
theorem eq_of_open {config : SessionConfig} {stream : Stream} {session : Session}
    (h : ofStream? config stream = .ok session) : ∃ codec, config.codec? config.encoding = .ok codec ∧
      session = { config, endpoint :=
        { codec, channel := { transport := .ofStream config.transport stream config.maxFrameSize } } } := by
  unfold ofStream? at h
  cases hcodec : config.codec? config.encoding with
  | error err =>
    rw [hcodec] at h
    cases h
  | ok codec =>
    rw [hcodec] at h
    cases h
    exact ⟨codec, rfl, rfl⟩

def transport (session : Session) : Transport := session.endpoint.channel.transport

def stream (session : Session) : Stream := session.transport.stream

def encoding (session : Session) : Encoding := session.endpoint.codec.encoding

def mapChannel (f : Channel → Channel) (session : Session) : Session :=
  { session with endpoint := { session.endpoint with channel := f session.endpoint.channel } }

def mapTransport (f : Transport → Transport) : Session → Session :=
  mapChannel fun channel => { channel with transport := f channel.transport }

def mapStream (f : Stream → Stream) : Session → Session :=
  mapTransport fun transport => transport.withStream (f transport.stream)

/-- Runs an action of the codec. -/
def onWire {α : Type} : WireM α → SessionM α :=
  onPart Session.endpoint fun session endpoint => { session with endpoint }

def onChannel {α : Type} (act : ChannelM α) : SessionM α := onWire (Endpoint.onChannel act)

def setCodec (codec : Codec) : SessionM Unit :=
  modify fun session => { session with endpoint := { session.endpoint with codec } }

/-- Changes to the codec of an encoding. A codec that already speaks it stays as it is, with the version it
has learnt. -/
def switchTo (encoding : Encoding) : SessionM Unit := do
  let session ← get
  if session.encoding = encoding then return
  match session.config.codec? encoding with
  | .error err => throw err
  | .ok codec => setCodec codec

/-- The encoding that the first two octets of a message tell. -/
def detect (first second : UInt8) : Except WireError Encoding :=
  if first = Compact.mark then
    match CompactVersion.ofByte? (second &&& Compact.versionMask) with
    | none => .error (.badVersion (.compact (second &&& Compact.versionMask)))
    | some _ => .ok .compact
  else .ok .binary

/-- Changes to the codec of the next message. -/
def negotiateRead : SessionM Unit := do
  let config := (← get).config
  match (← get).transport.kind with
  | .header =>
    let _ ← onChannel (Channel.peek 1)
    match (← get).transport.head? with
    | some head => switchTo head.encoding
    | none => switchTo config.encoding
  | _ =>
    if config.autoDetect then
      let start ← onChannel (Channel.peek 2)
      match detect (start.getD 0 0) (start.getD 1 0) with
      | .error err => throw err
      | .ok encoding => switchTo encoding
    else switchTo config.encoding

def resetCodec : SessionM Unit := do
  setCodec (← get).endpoint.codec.reset

/-- Reads the head of a message. A message that carries a fault is read whole, and fails with the fault. -/
def readMessageBegin : SessionM MessageHeader := do
  negotiateRead
  resetCodec
  let header ← onWire WireM.readMessageBegin
  if header.kind = .exception then
    throw (.fault (← onWire (Fault.read (← get).config.recursionLimit)))
  return header

/-- Writes the head of a message. An envelope names the encoding, and takes the sequence number of a request;
a reply goes out under the number that came with the request. -/
def writeMessageBegin (header : MessageHeader) : SessionM Unit := do
  resetCodec
  let encoding := (← get).encoding
  modify (mapTransport (Transport.mapHead fun head =>
    { head with
      encoding
      seqId := if header.kind.isRequest then header.seqId.toUInt32 else head.seqId }))
  onWire (WireM.writeMessageBegin header)

def skip (tag : Tag) : SessionM Unit := do
  onWire (WireM.skip (← get).config.recursionLimit tag)

/-- Skips a value and gives the octets it took. A truth value in the head of its field takes none. -/
def readRaw (tag : Tag) : SessionM Bytes := fun session =>
  match skip tag (session.mapChannel Channel.startCapture) with
  | .ok () after => .ok after.endpoint.channel.capture (after.mapChannel Channel.stopCapture)
  | .error err after => .error err (after.mapChannel Channel.stopCapture)

def flush : SessionM Unit := onWire WireM.flush

/-- Goes back to the encoding of the settings and drops what belongs to a message under way. Octets read ahead
stay. -/
def reset : SessionM Unit := do
  let config := (← get).config
  match config.codec? config.encoding with
  | .error err => throw err
  | .ok codec =>
    setCodec codec
    modify (mapChannel Channel.discardPending)
    modify (mapTransport Transport.reset)

end Session
end RpcWire
