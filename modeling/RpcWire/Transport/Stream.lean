import RpcWire.Bytes.Word
import RpcWire.Wire.Error

/-! A two-way stream of octets: what it will still deliver, and what was written to it. -/
namespace RpcWire

/-- How far writing still goes: so many octets more are taken, then every write fails. -/
structure WriteLimit where
  room : Nat
  failure : IoError
  deriving DecidableEq

/-- The unread input and the output so far. -/
structure Stream where
  unread : Bytes := []
  written : Bytes := []
  /-- The most octets that one read delivers; zero counts as one. -/
  chunk : Option Nat := none
  /-- What a read meets when nothing is left: the end of the stream, or a failure. -/
  ending : Option IoError := none
  /-- Where writing ends, if it does. -/
  limit : Option WriteLimit := none
  deriving DecidableEq

abbrev StreamM := EStateM WireError Stream

namespace Stream

/-- The most octets that a read of `n` delivers. -/
def readSize (stream : Stream) (n : Nat) : Nat :=
  match stream.chunk with
  | none => n
  | some most => min n (max most 1)

/-- One read: at most `n` of the next octets, none at the end of the stream. -/
def read (n : Nat) : StreamM Bytes := fun stream =>
  match stream.unread, stream.ending with
  | [], some err => .error (.io err) stream
  | unread, _ =>
    let size := stream.readSize n
    .ok (unread.take size) { stream with unread := unread.drop size }

/-- Writes all octets, or as many as are still taken and fails. -/
def write (bytes : Bytes) : StreamM Unit := fun stream =>
  match stream.limit with
  | none => .ok () { stream with written := stream.written ++ bytes }
  | some limit =>
    let after : Stream := { stream with
      written := stream.written ++ bytes.take limit.room
      limit := some { limit with room := limit.room - bytes.length } }
    if bytes.length ≤ limit.room then .ok () after else .error (.io limit.failure) after

/-- Reads again and again until `n` octets are there or the stream has ended. -/
def readFull (n : Nat) : StreamM Bytes := fun stream =>
  if n = 0 then .ok [] stream else
    match read n stream with
    | .error err stream => .error err stream
    | .ok [] stream => .ok [] stream
    | .ok (first :: more) stream =>
      match readFull (n - (first :: more).length) stream with
      | .error err stream => .error err stream
      | .ok rest stream => .ok (first :: more ++ rest) stream
termination_by n
decreasing_by simp; omega

/-- The four octets of a frame's length; none on a clean end before the first of them. -/
def readLength : StreamM (Option UInt32) := do
  let bytes ← readFull 4
  if bytes = [] then return none
  if bytes.length < 4 then throw .truncatedLength
  return some (UInt32.ofNat bytes.toNat)

/-- More input arrives. -/
def push (stream : Stream) (bytes : Bytes) : Stream :=
  { stream with unread := stream.unread ++ bytes }

/-- All that was written becomes input. -/
def loopback (stream : Stream) : Stream :=
  { stream with unread := stream.unread ++ stream.written, written := [] }

/-! ## Sockets -/

/-- What a read meets when the other side has sent nothing and has not gone away. -/
def silence : IoError := ⟨.wouldBlock, "Resource temporarily unavailable (os error 11)"⟩

/-- What a write meets when the other side takes nothing any more. -/
def brokenPipe : IoError := ⟨.brokenPipe, "Broken pipe (os error 32)"⟩

/-- A socket just connected, whose other side has not said anything. -/
def connected : Stream := { ending := some silence }

/-- Whether nothing is to be read and the other side is still there. -/
def isSilent (stream : Stream) : Bool :=
  stream.unread.isEmpty && stream.ending.any (·.kind == .wouldBlock)

/-- Nothing more can be written. -/
def shutdownWrites (stream : Stream) : Stream :=
  { stream with limit := some ⟨0, brokenPipe⟩ }

/-- Nothing more can be written, and no more input arrives. -/
def shutdown (stream : Stream) : Stream :=
  { stream.shutdownWrites with ending := none }

/-- No read adds to the input. -/
theorem length_unread_read {n : Nat} {stream after : Stream} {got : Bytes}
    (h : read n stream = .ok got after) : after.unread.length + got.length = stream.unread.length := by
  unfold read at h
  split at h
  · cases h
  · cases h
    simp only [List.length_drop, List.length_take]
    omega

theorem length_unread_readFull {n : Nat} {stream after : Stream} {got : Bytes}
    (h : readFull n stream = .ok got after) :
    after.unread.length + got.length = stream.unread.length := by
  fun_induction readFull n stream generalizing got after with
  | case1 => cases h; simp
  | case2 => cases h
  | case3 n stream hn after' hread =>
    cases h
    simpa using length_unread_read hread
  | case4 => cases h
  | case5 n stream hn first more mid hread rest last hrest ih =>
    cases h
    have := length_unread_read hread
    have := ih hrest
    simp only [List.length_append, List.length_cons] at *
    omega

/-- A length that was read took its octets from the input. -/
theorem length_unread_readLength {stream after : Stream} {length : UInt32}
    (h : readLength stream = .ok (some length) after) :
    after.unread.length < stream.unread.length := by
  simp only [readLength, bind, EStateM.bind] at h
  split at h
  · next bytes mid hread =>
    have used := length_unread_readFull hread
    split at h
    · cases h
    · split at h
      · cases h
      · cases h
        omega
  · cases h

end Stream
end RpcWire
