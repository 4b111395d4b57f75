import RpcWire.Bytes.Word

/-! A store of buffer sets that connections take and give back. -/
namespace RpcWire

/-- A pair of buffers, one for reading and one for writing, and the room they have. -/
structure BufferSet where
  /-- Which of the sets that its pool made it is. -/
  serial : Nat
  capacity : Nat
  readAhead : Bytes := []
  pending : Bytes := []
  deriving DecidableEq

namespace BufferSet

/-- The room of a set as it is first made: two buffers of 8192 octets. -/
def freshCapacity : Nat := 16384

/-- A set as it is first made. -/
def fresh (serial : Nat) : BufferSet := { serial, capacity := freshCapacity }

/-- Drops the content and keeps the room. -/
def clear (set : BufferSet) : BufferSet := { set with readAhead := [], pending := [] }

end BufferSet

/-- Sets that nobody uses, the last one given back first. -/
structure BufferPool where
  maxPooled : Nat := 256
  maxCapacity : Nat := 1048576
  free : List BufferSet := []
  /-- How many sets it has made. -/
  made : Nat := 0
  deriving DecidableEq

namespace BufferPool

/-- A fresh set. -/
def make (pool : BufferPool) : BufferSet × BufferPool :=
  (.fresh pool.made, { pool with made := pool.made + 1 })

/-- A set to use: one from the pool, or a fresh one. -/
def get (pool : BufferPool) : BufferSet × BufferPool :=
  match pool.free with
  | [] => pool.make
  | first :: rest => (first, { pool with free := rest })

/-- Takes a set back, cleared, unless it has grown too large or the pool is full. -/
def put (pool : BufferPool) (set : BufferSet) : BufferPool :=
  if pool.maxCapacity < set.capacity then pool
  else if pool.free.length < pool.maxPooled then { pool with free := set.clear :: pool.free }
  else pool

end BufferPool
end RpcWire
