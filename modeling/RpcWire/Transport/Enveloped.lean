import RpcWire.Transport.EnvelopeHead
import RpcWire.Transport.Stream
import RpcWire.Wire.Focus

/-! Envelopes: four octets of length, a head, then the payload. Each flush makes one envelope. -/
namespace RpcWire

/-- A stream cut into envelopes. -/
structure Enveloped where
  stream : Stream
  maxSize : UInt32
  head : EnvelopeHead := {}
  /-- Octets of the last envelope that are not read yet. -/
  payload : Bytes := []
  /-- Octets for the next envelope. -/
  pending : Bytes := []
  deriving DecidableEq

abbrev EnvelopedM := EStateM WireError Enveloped

namespace Enveloped

/-- Loads the envelope whose length was just read. -/
def load (length : UInt32) : EnvelopedM Unit := fun env =>
  if env.maxSize < length then .error (.framing (.tooLarge length.toNat env.maxSize)) env
  else if length.toNat < EnvelopeHead.fixedSize then
    .error (.framing (.corruptHeader .shortEnvelope)) env
  else match Stream.readFull length.toNat env.stream with
    | .error err stream => .error err { env with stream }
    | .ok frame stream =>
      if frame.length < length.toNat then .error .envelopeCutShort { env with stream }
      else match EnvelopeHead.accept frame env.head with
        | .error err head => .error (.framing err) { env with stream, head }
        | .ok payload head => .ok () { env with stream, head, payload }

/-- Loading takes nothing but octets of the envelope. -/
theorem length_unread_load {length : UInt32} {env after : Enveloped}
    (h : load length env = .ok () after) :
    after.stream.unread.length ≤ env.stream.unread.length := by
  unfold load at h
  split at h
  · cases h
  · split at h
    · cases h
    · split at h
      · cases h
      · next frame stream hread =>
        have := Stream.length_unread_readFull hread
        split at h
        · cases h
        · split at h
          · cases h
          · cases h
            simp only
            omega

/-- Moves on to an envelope with octets left, over any number of empty ones; false at a clean end. -/
def await : EnvelopedM Bool := fun env =>
  if env.payload ≠ [] then .ok true env else
    match _short : Stream.readLength env.stream with
    | .error err stream => .error err { env with stream }
    | .ok none stream => .ok false { env with stream }
    | .ok (some length) stream =>
      match _loaded : load length { env with stream } with
      | .error err env => .error err env
      | .ok () env => await env
termination_by env => env.stream.unread.length
decreasing_by
  have := Stream.length_unread_readLength _short
  have := length_unread_load _loaded
  simp only at this
  omega

/-- One read: at most `n` octets, all of one envelope. -/
def read (n : Nat) : EnvelopedM Bytes := do
  if n = 0 then return []
  if !(← await) then return []
  let env ← get
  set { env with payload := env.payload.drop n }
  return env.payload.take n

def write (bytes : Bytes) : EnvelopedM Unit :=
  modify fun env => { env with pending := env.pending ++ bytes }

/-- Sends the next envelope, unless it has no payload. One that is refused takes its payload along; the
headers set for it stay. -/
def flush : EnvelopedM Unit := fun env =>
  if env.pending = [] then .ok () env else
    let block := env.head.encodeBlock
    let words := block.length / 4
    let size := EnvelopeHead.fixedSize + block.length + env.pending.length
    if EnvelopeHead.maxWords < words then
      .error (.framing (.corruptHeader .headersDoNotFit)) { env with pending := [] }
    else if env.maxSize.toNat < size then
      .error (.framing (.tooLarge size env.maxSize)) { env with pending := [] }
    else
      let bytes := Bytes.bigEndian 4 size ++ env.head.encodeFixed words ++ block ++ env.pending
      let env := { env with pending := [], head := { env.head with outgoing := ∅ } }
      match Stream.write bytes env.stream with
      | .error err stream => .error err { env with stream }
      | .ok () stream => .ok () { env with stream }

/-- Forgets the envelopes being read and written. -/
def reset (env : Enveloped) : Enveloped :=
  { env with head := env.head.reset, payload := [], pending := [] }

end Enveloped
end RpcWire
