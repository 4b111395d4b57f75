/-! Signed numbers folded onto naturals, so that numbers near zero of either sign stay small. -/
namespace RpcWire.Zigzag

/-- Zero and up go to the even naturals, below zero to the odd ones. -/
def encode : Int → Nat
  | .ofNat n => 2 * n
  | .negSucc n => 2 * n + 1

def decode (n : Nat) : Int :=
  if n % 2 = 0 then .ofNat (n / 2) else .negSucc (n / 2)

theorem decode_encode (n : Int) : decode (encode n) = n := by
  cases n with
  | ofNat n => simp [encode, decode]
  | negSucc n =>
    have half : (2 * n + 1) / 2 = n := by omega
    simp [encode, decode, Nat.add_mod, half]

theorem encode_decode (n : Nat) : encode (decode n) = n := by
  unfold decode
  split <;> simp only [encode] <;> omega

/-- The 32-bit form: a signed word and the unsigned word it folds to. -/
def encode32 (n : Int32) : UInt32 :=
  UInt32.ofNat (encode n.toInt)

def decode32 (n : UInt32) : Int32 :=
  Int32.ofInt (decode n.toNat)

/-- The 64-bit form. -/
def encode64 (n : Int64) : UInt64 :=
  UInt64.ofNat (encode n.toInt)

def decode64 (n : UInt64) : Int64 :=
  Int64.ofInt (decode n.toNat)

end RpcWire.Zigzag
