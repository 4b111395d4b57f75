import RpcWire.Bytes.Varint
import RpcWire.Text.Utf8
import RpcWire.Transport.Headers
import RpcWire.Wire.Error

/-! The head of an envelope: a fixed part with a mark, flags, a sequence number and a size in words of four
octets, then a block of headers of that size. -/
namespace RpcWire

/-- What the last envelope read said, and what the next one written will say. -/
structure EnvelopeHead where
  /-- Encoding named by the last envelope read, or set for the next one written. -/
  encoding : Encoding := .binary
  seqId : UInt32 := 0
  flags : UInt16 := 0
  identity : Option String := none
  peerIdentity : Option String := none
  /-- Headers for the next envelope only. -/
  outgoing : Headers := ∅
  /-- Headers for every envelope. -/
  outgoingLasting : Headers := ∅
  /-- Headers of the last envelope read. -/
  incoming : Headers := ∅
  /-- Lasting headers of all envelopes read. -/
  incomingLasting : Headers := ∅
  deriving DecidableEq

namespace EnvelopeHead

/-- The mark of every envelope. -/
def magic : UInt16 := 0x0fff

/-- Octets of mark, flags, sequence number and size. -/
def fixedSize : Nat := 2 + 2 + 4 + 2

/-- The most words a block of headers can have. -/
def maxWords : Nat := 65535

def identityName : String := "identity"
def versionName : String := "id_version"
def versionText : String := "1"

/-- The number that announces headers for one envelope. -/
def infoOnce : Nat := 1

/-- The number that announces headers that last. -/
def infoLasting : Nat := 2

/-- Drops what belongs to one call. The identity and the lasting headers stay, and so does the encoding. -/
def reset (head : EnvelopeHead) : EnvelopeHead :=
  { head with seqId := 0, flags := 0, outgoing := ∅, incoming := ∅, peerIdentity := none }

/-! ## Writing -/

def encodeText (text : String) : Bytes :=
  let bytes := Utf8.encode text
  Varint.encode bytes.length ++ bytes

/-- One run of headers; an empty run is left out. -/
def encodeRun (kind : Nat) (entries : List (String × String)) : Bytes :=
  if entries = [] then [] else
    Varint.encode kind ++ Varint.encode entries.length ++
      entries.flatMap fun entry => encodeText entry.1 ++ encodeText entry.2

/-- Zeros up to a whole number of words. -/
def pad (bytes : Bytes) : Bytes :=
  bytes ++ List.replicate ((4 - bytes.length % 4) % 4) 0

/-- The headers of the next envelope: those set for it, then the identity and its version. -/
def onceEntries (head : EnvelopeHead) : List (String × String) :=
  head.outgoing.entries ++
    match head.identity with
    | none => []
    | some identity => [(identityName, identity), (versionName, versionText)]

/-- The block of headers of the next envelope. It never announces a transform. -/
def encodeBlock (head : EnvelopeHead) : Bytes :=
  pad (Varint.encode head.encoding.toWire.toNat ++ Varint.encode 0 ++
    encodeRun infoOnce head.onceEntries ++ encodeRun infoLasting head.outgoingLasting.entries)

/-- The fixed part in front of a block of so many words. -/
def encodeFixed (head : EnvelopeHead) (words : Nat) : Bytes :=
  Bytes.bigEndian 2 magic.toNat ++ Bytes.bigEndian 2 head.flags.toNat ++
    Bytes.bigEndian 4 head.seqId.toNat ++ Bytes.bigEndian 2 words

/-! ## Reading -/

/-- A block being read: what is left of it, and the head it tells about. -/
structure Scan where
  rest : Bytes
  head : EnvelopeHead

abbrev ScanM := EStateM FramingError Scan

namespace Scan

def byte : ScanM UInt8 := fun scan =>
  match scan.rest with
  | [] => .error (.corruptHeader .truncatedVarint) scan
  | first :: rest => .ok first { scan with rest }

/-- Octets up to the first that ends a number, at most so many. -/
def groups : Nat → ScanM Bytes
  | 0 => throw (.corruptHeader .varintTooLong)
  | most + 1 => do
    let first ← byte
    if Varint.continues first then
      return first :: (← groups most)
    return [first]

/-- A number of at most five octets; what exceeds 32 bits is cut off. -/
def varint : ScanM UInt32 := do
  return UInt32.ofNat (Varint.value (← groups 5))

def text : ScanM String := do
  let length := (← varint).toNat
  let scan ← get
  if scan.rest.length < length then throw (.corruptHeader .truncatedText)
  set { scan with rest := scan.rest.drop length }
  match Utf8.decode? (scan.rest.take length) with
  | none => throw (.corruptHeader .textNotUtf8)
  | some text => return text

/-- So many headers, each kept as soon as it is read. -/
def entries (keep : EnvelopeHead → String → String → EnvelopeHead) : Nat → ScanM Unit
  | 0 => return
  | count + 1 => do
    let name ← text
    let value ← text
    modify fun scan => { scan with head := keep scan.head name value }
    entries keep count

def keepOnce (head : EnvelopeHead) (name value : String) : EnvelopeHead :=
  { head with incoming := head.incoming.insert name value }

def keepLasting (head : EnvelopeHead) (name value : String) : EnvelopeHead :=
  { head with incomingLasting := head.incomingLasting.insert name value }

/-- The runs of headers. Padding ends them, and so does a run of unknown kind, whose layout nobody knows.
The bound is the size of the block, since every run takes an octet. -/
def runs : Nat → ScanM Unit
  | 0 => return
  | most + 1 => do
    if (← get).rest = [] then return
    let kind := (← varint).toNat
    if kind = infoOnce then
      entries keepOnce (← varint).toNat
      runs most
    else if kind = infoLasting then
      entries keepLasting (← varint).toNat
      runs most

/-- The whole block. -/
def block : ScanM Unit := do
  let encoding := Encoding.ofWire (← varint)
  modify fun scan => { scan with head := { scan.head with encoding } }
  let transforms ← varint
  if 0 < transforms then throw (.unsupportedTransform (← varint))
  modify fun scan => { scan with head := { scan.head with incoming := ∅ } }
  runs (← get).rest.length
  modify fun scan =>
    { scan with head := { scan.head with peerIdentity := scan.head.incoming.get? identityName } }

end Scan

/-- Takes in what a block of headers says. -/
def decodeBlock (bytes : Bytes) : EStateM FramingError EnvelopeHead Unit := fun head =>
  match Scan.block ⟨bytes, head⟩ with
  | .ok () scan => .ok () scan.head
  | .error err scan => .error err scan.head

/-- Takes in an envelope, given its octets after the length, and gives its payload. What was taken in
before a flaw is kept. -/
def accept (frame : Bytes) : EStateM FramingError EnvelopeHead Bytes := do
  let mark := UInt16.ofNat (Bytes.toNat (frame.take 2))
  if mark ≠ magic then throw (.badMagic mark)
  let flags := UInt16.ofNat (Bytes.toNat ((frame.drop 2).take 2))
  let seqId := UInt32.ofNat (Bytes.toNat ((frame.drop 4).take 4))
  modify fun head => { head with flags, seqId }
  let size := Bytes.toNat ((frame.drop 8).take 2) * 4
  let rest := frame.drop fixedSize
  if rest.length < size then throw (.corruptHeader .headerBeyondEnvelope)
  decodeBlock (rest.take size)
  return rest.drop size

end EnvelopeHead
end RpcWire
