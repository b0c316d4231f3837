import ClusterAccess.Hash.Sha2
/-!
# Keyed hashes

The message authentication code that hashes a message twice with a key: the key is brought to the
size of a block, and is mixed with one constant for the inner hash and with another for the outer.
-/

namespace ClusterAccess.Hash

/-- A key of the size of a block: too long a key is hashed, and zeros fill it up. -/
def HashFunction.blockKey (f : HashFunction) (key : List UInt8) : List UInt8 :=
  let key := if f.blockSize < key.length then f.hash key else key
  key ++ List.replicate (f.blockSize - key.length) 0

/-- The authentication code of a message under a key. -/
def HashFunction.hmac (f : HashFunction) (key message : List UInt8) : List UInt8 :=
  let key := f.blockKey key
  f.hash (key.map (· ^^^ 0x5C) ++ f.hash (key.map (· ^^^ 0x36) ++ message))

end ClusterAccess.Hash
