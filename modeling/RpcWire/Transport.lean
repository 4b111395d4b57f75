import RpcWire.Transport.Enveloped
import RpcWire.Transport.Framed

/-! The layer between a channel and its stream: none, frames or envelopes. -/
namespace RpcWire

inductive TransportKind where
  | raw | framed | header
  deriving DecidableEq, Repr

def TransportKind.text : TransportKind → String
  | .raw => "raw"
  | .framed => "framed"
  | .header => "header"

/-- A stream under its layer. -/
inductive Transport where
  | raw (stream : Stream)
  | framed (layer : Framed)
  | header (layer : Enveloped)
  deriving DecidableEq

abbrev TransportM := EStateM WireError Transport

namespace Transport

def ofStream (kind : TransportKind) (stream : Stream) (maxSize : UInt32) : Transport :=
  match kind with
  | .raw => .raw stream
  | .framed => .framed { stream, maxSize }
  | .header => .header { stream, maxSize }

def kind : Transport → TransportKind
  | .raw _ => .raw
  | .framed _ => .framed
  | .header _ => .header

def stream : Transport → Stream
  | .raw stream => stream
  | .framed layer => layer.stream
  | .header layer => layer.stream

def withStream : Transport → Stream → Transport
  | .raw _, stream => .raw stream
  | .framed layer, stream => .framed { layer with stream }
  | .header layer, stream => .header { layer with stream }

/-- Runs the action of the layer that is there. -/
@[inline] def dispatch {α : Type} (raw : StreamM α) (framed : FramedM α) (header : EnvelopedM α) :
    TransportM α
  | .raw stream => onPart (fun _ => stream) (fun _ => .raw) raw (.raw stream)
  | .framed layer => onPart (fun _ => layer) (fun _ => .framed) framed (.framed layer)
  | .header layer => onPart (fun _ => layer) (fun _ => .header) header (.header layer)

/-- One read of at most `n` octets; none at a clean end. -/
def read (n : Nat) : TransportM Bytes :=
  dispatch (Stream.read n) (Framed.read n) (Enveloped.read n)

def write (bytes : Bytes) : TransportM Unit :=
  dispatch (Stream.write bytes) (Framed.write bytes) (Enveloped.write bytes)

def flush : TransportM Unit :=
  dispatch (pure ()) Framed.flush Enveloped.flush

/-- Forgets frames or envelopes under way; the stream is left alone. -/
def reset : Transport → Transport
  | .raw stream => .raw stream
  | .framed layer => .framed layer.reset
  | .header layer => .header layer.reset

/-- What envelopes say, where there are envelopes. -/
def head? : Transport → Option EnvelopeHead
  | .header layer => some layer.head
  | _ => none

/-- Changes what envelopes say, where there are envelopes. -/
def mapHead (f : EnvelopeHead → EnvelopeHead) : Transport → Transport
  | .header layer => .header { layer with head := f layer.head }
  | other => other

/-- Octets that the layer holds or the stream has not delivered. -/
def available : Transport → Nat
  | .raw stream => stream.unread.length
  | .framed layer => layer.stream.unread.length
  | .header layer => layer.payload.length + layer.stream.unread.length

end Transport
end RpcWire
