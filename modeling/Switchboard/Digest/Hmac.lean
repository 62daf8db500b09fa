import Switchboard.Digest.Sha1
/-! # Keyed digests

The digest of bytes under a key: the key, filled up to a block, goes twice before the bytes, each time
changed in its own way.
-/
namespace Switchboard.Digest

/-- A key filled up to 64 bytes; a longer key is replaced by its digest. -/
def blockKey (key : List UInt8) : List UInt8 :=
  let key := if 64 < key.length then sha1 key else key
  key ++ List.replicate (64 - key.length) 0

def hmac (key bytes : List UInt8) : List UInt8 :=
  let key := blockKey key
  sha1 (key.map (· ^^^ 0x5c) ++ sha1 (key.map (· ^^^ 0x36) ++ bytes))

end Switchboard.Digest
