import RpcWire.Client.Connection

/-! A pool of connections, kept by address: a bounded number of open ones, of which some lie idle. The clock is
read by the caller. -/
namespace RpcWire

/-- The connections to one address: those that lie idle, the last released first, and how many there are in all
with those that callers hold or open. -/
structure Slots where
  idle : List Connection := []
  active : Nat := 0

/-- What a caller who asks for a connection gets. -/
inductive Grant where
  | reuse (connection : Connection)
  /-- Leave to open one; a slot is taken for it. -/
  | dial
  | refused (err : ClientError)

/-- What becomes of a connection that a caller gives up. -/
inductive Disposal where
  /-- It lies idle. -/
  | kept
  /-- It is closed, and its slot is free. -/
  | closed
  /-- It is closed, and the pool does not know its address. -/
  | unknown
  /-- It was lost; its slot is free. -/
  | lost
  deriving DecidableEq

namespace Slots

/-- Frees one slot. -/
def release (slots : Slots) : Slots := { slots with active := slots.active - 1 }

/-- Takes one slot, if one is free. -/
def acquire? (maxActive : Nat) (slots : Slots) : Option Slots :=
  if maxActive = 0 ∨ slots.active < maxActive then some { slots with active := slots.active + 1 } else none

/-- The last released of the idle connections that have not expired; those that have are closed on the way. -/
def takeIdle (settings : PoolSettings) (now : Nat) : List Connection → Nat → Option Connection × Slots
  | [], active => (none, ⟨[], active⟩)
  | connection :: rest, active =>
    if connection.isExpired settings now then takeIdle settings now rest (active - 1)
    else (some connection, ⟨rest, active⟩)

/-- Closes all idle connections. -/
def clear (slots : Slots) : Slots := ⟨[], slots.active - slots.idle.length⟩

end Slots

structure Pool where
  settings : PoolSettings
  closed : Bool := false
  /-- How many connections it has opened. -/
  made : Nat := 0
  slots : SocketAddress → Option Slots := fun _ => none

namespace Pool

def setSlots (address : SocketAddress) (slots : Slots) (pool : Pool) : Pool :=
  { pool with slots := fun other => if other = address then some slots else pool.slots other }

/-- Changes the slots of an address that the pool knows. -/
def mapSlots (address : SocketAddress) (f : Slots → Slots) (pool : Pool) : Pool :=
  match pool.slots address with
  | none => pool
  | some slots => pool.setSlots address (f slots)

/-- Gives an idle connection, or leave to open one. -/
def take (now : Nat) (address : SocketAddress) (pool : Pool) : Grant × Pool :=
  if pool.closed then (.refused .poolClosed, pool)
  else
    let slots := (pool.slots address).getD {}
    match Slots.takeIdle pool.settings now slots.idle slots.active with
    | (some connection, slots) => (.reuse connection, pool.setSlots address slots)
    | (none, slots) =>
      match slots.acquire? pool.settings.maxActive with
      | some slots => (.dial, pool.setSlots address slots)
      | none => (.refused (.tooManyConnections address), pool.setSlots address slots)

/-- Frees the slot of a connection that could not be opened, or was lost. -/
def forget (address : SocketAddress) : Pool → Pool := mapSlots address Slots.release

/-- Opens a connection for the slot taken, from what dialing gave; the slot is freed again if that fails. -/
def opened (now : Nat) (address : SocketAddress) (dialed : Except ClientError Stream) (pool : Pool) :
    Except ClientError Connection × Pool :=
  match dialed.bind (Connection.ofStream? pool.settings pool.made address now) with
  | .ok connection => (.ok connection, { pool with made := pool.made + 1 })
  | .error err => (.error err, pool.forget address)

/-- Takes a connection back: it lies idle if it is usable, the pool is open and there is room. -/
def put (now : Nat) (connection : Connection) (pool : Pool) : Disposal × Pool :=
  match pool.slots connection.address with
  | none => (.unknown, pool)
  | some slots =>
    if connection.failed || pool.closed || connection.isExpired pool.settings now ||
        pool.settings.maxIdle ≤ slots.idle.length then
      (.closed, pool.setSlots connection.address slots.release)
    else
      (.kept, pool.setSlots connection.address
        { slots with idle := connection.release now :: slots.idle })

/-- Closes the idle connections to an address, and counts them. -/
def clearIdle (address : SocketAddress) (pool : Pool) : Nat × Pool :=
  (((pool.slots address).map (·.idle.length)).getD 0, pool.mapSlots address Slots.clear)

/-- Closes all idle connections and opens no more. -/
def close (pool : Pool) : Pool :=
  { pool with closed := true, slots := fun address => (pool.slots address).map Slots.clear }

/-- How many connections to an address are open, or being opened. -/
def active (pool : Pool) (address : SocketAddress) : Nat := ((pool.slots address).getD {}).active

/-- The idle connections to an address, the last released first. -/
def idle (pool : Pool) (address : SocketAddress) : List Connection := ((pool.slots address).getD {}).idle

end Pool
end RpcWire
