import RpcWire.Text.Hex
import RpcWire.Wire.Fault
import RpcWire.Wire.Message

/-! Every way in which reading or writing can fail, by cause, and the one wording of each. -/
namespace RpcWire

/-- What a stream reports when it fails. Kinds that no rule tells apart are kept by name. -/
inductive IoKind where
  | unexpectedEof | brokenPipe | connectionReset | connectionAborted | notConnected
  | wouldBlock | timedOut
  | other (name : String)
  deriving DecidableEq, Repr

namespace IoKind

def name : IoKind → String
  | .unexpectedEof => "UnexpectedEof"
  | .brokenPipe => "BrokenPipe"
  | .connectionReset => "ConnectionReset"
  | .connectionAborted => "ConnectionAborted"
  | .notConnected => "NotConnected"
  | .wouldBlock => "WouldBlock"
  | .timedOut => "TimedOut"
  | .other name => name

def ofName (name : String) : IoKind :=
  ([unexpectedEof, brokenPipe, connectionReset, connectionAborted, notConnected, wouldBlock,
    timedOut].find? (·.name == name)).getD (.other name)

end IoKind

/-- A failure of a stream, with its own words. -/
structure IoError where
  kind : IoKind
  text : String
  deriving DecidableEq, Repr

/-- Why the block of headers in an envelope is refused. -/
inductive HeaderFlaw where
  | truncatedVarint | varintTooLong | truncatedText | textNotUtf8
  | shortEnvelope | headerBeyondEnvelope | headersDoNotFit
  deriving DecidableEq, Repr

def HeaderFlaw.text : HeaderFlaw → String
  | .truncatedVarint => "truncated varint"
  | .varintTooLong => "varint too long"
  | .truncatedText => "truncated header string"
  | .textNotUtf8 => "header string is not UTF-8"
  | .shortEnvelope => "envelope shorter than its fixed part"
  | .headerBeyondEnvelope => "header size exceeds envelope"
  | .headersDoNotFit => "headers do not fit the envelope"

/-- A failure of the layer that cuts a stream into frames or envelopes. -/
inductive FramingError where
  | tooLarge (size : Nat) (max : UInt32)
  | badMagic (word : UInt16)
  | unsupportedTransform (id : UInt32)
  | corruptHeader (flaw : HeaderFlaw)
  deriving DecidableEq, Repr

def FramingError.message : FramingError → String
  | .tooLarge size max => s!"frame too large: {size} bytes (max {max})"
  | .badMagic word => "invalid header magic: " ++ Hex.marked 4 word.toNat
  | .unsupportedTransform id => s!"unsupported header transform: {id}"
  | .corruptHeader flaw => "corrupt header envelope: " ++ flaw.text

/-- Why the version at the head of a message is refused. -/
inductive VersionFlaw where
  | binaryWord (word : UInt32)
  | missing
  | compactMark (expected got : UInt8)
  | compact (version : UInt8)
  | other (text : String)
  deriving DecidableEq, Repr

def VersionFlaw.text : VersionFlaw → String
  | .binaryWord word => "binary version " ++ Hex.marked 8 word.toNat
  | .missing => "missing version in binary message header"
  | .compactMark expected got =>
    "expected compact protocol id " ++ Hex.marked 2 expected.toNat ++ ", got " ++
      Hex.marked 2 got.toNat
  | .compact version => s!"compact version {version}"
  | .other text => text

/-- Why well-delimited octets, or a call of the writer, make no sense. -/
inductive DataFlaw where
  | unknownTag (byte : UInt8)
  | unknownMessageKind (byte : UInt8)
  | unknownCompactTag (nibble : UInt8)
  | voidNotCompact
  | unmatchedStructEnd
  | varintTooLong (max : Nat)
  | varintOverflow (value : Nat)
  | notI16 (value : Int32)
  | cannotSkip (tag : Tag)
  | unexpectedMessage (kind : MessageKind) (name : String)
  | other (text : String)
  deriving DecidableEq, Repr

def DataFlaw.text : DataFlaw → String
  | .unknownTag byte => s!"unknown type tag {byte}"
  | .unknownMessageKind byte => s!"unknown message type {byte}"
  | .unknownCompactTag nibble => "unknown compact type " ++ Hex.marked 1 nibble.toNat
  | .voidNotCompact => "void has no compact encoding"
  | .unmatchedStructEnd => "struct end without matching begin"
  | .varintTooLong max => s!"varint longer than {max} bytes"
  | .varintOverflow value => s!"varint {value} overflows 32 bits"
  | .notI16 value => toString value.toInt ++ " does not fit in i16"
  | .cannotSkip tag => "cannot skip value of type " ++ tag.name
  | .unexpectedMessage kind name =>
    "unexpected " ++ kind.name ++ " message '" ++ name ++ "' on server"
  | .other text => text

/-- A failure of reading or writing a message. -/
inductive WireError where
  | io (cause : IoError)
  | framing (cause : FramingError)
  | badVersion (flaw : VersionFlaw)
  | unsupportedEncoding (encoding : Encoding)
  | sizeLimit (size max : Nat)
  | negativeSize (size : Int)
  | depthLimit
  | invalidData (flaw : DataFlaw)
  | invalidUtf8
  | fault (answer : Fault)
  deriving DecidableEq, Repr

namespace WireError

def message : WireError → String
  | .io cause => "I/O error: " ++ cause.text
  | .framing cause => "transport error: " ++ cause.message
  | .badVersion flaw => "bad protocol version: " ++ flaw.text
  | .unsupportedEncoding encoding => "unsupported protocol: " ++ encoding.label
  | .sizeLimit size max => s!"size limit exceeded: {size} (max {max})"
  | .negativeSize size => s!"negative size: {size}"
  | .depthLimit => "maximum skip depth exceeded"
  | .invalidData flaw => "invalid data: " ++ flaw.text
  | .invalidUtf8 => "invalid UTF-8 in string"
  | .fault answer => "application exception: " ++ answer.text

/-- The kind of failure in a word. -/
def label : WireError → String
  | .io _ => "Io"
  | .framing _ => "Transport"
  | .badVersion _ => "BadVersion"
  | .unsupportedEncoding _ => "UnsupportedProtocol"
  | .sizeLimit _ _ => "SizeLimit"
  | .negativeSize _ => "NegativeSize"
  | .depthLimit => "DepthLimit"
  | .invalidData _ => "InvalidData"
  | .invalidUtf8 => "InvalidUtf8"
  | .fault _ => "Application"

/-- The stream ended before what was asked for. -/
def isEof : WireError → Bool
  | .io ⟨.unexpectedEof, _⟩ => true
  | _ => false

/-- The other side has gone away. -/
def isPeerClosed : WireError → Bool
  | .io cause =>
    cause.kind ∈ [IoKind.unexpectedEof, .brokenPipe, .connectionReset, .connectionAborted, .notConnected]
  | _ => false

/-- The other side stayed silent too long. -/
def isTimeout : WireError → Bool
  | .io cause => cause.kind ∈ [IoKind.wouldBlock, .timedOut]
  | _ => false

/-- More octets were asked for than the stream gives. -/
def streamClosed : WireError := .io ⟨.unexpectedEof, "stream closed by peer"⟩

/-- The stream ended inside the length of a frame. -/
def truncatedLength : WireError := .io ⟨.unexpectedEof, "truncated frame length"⟩

/-- The stream ended inside a frame. -/
def closedInFrame : WireError := .io ⟨.unexpectedEof, "stream closed inside a frame"⟩

/-- The stream ended inside an envelope. -/
def envelopeCutShort : WireError := .io ⟨.unexpectedEof, "failed to fill whole buffer"⟩

end WireError
end RpcWire
