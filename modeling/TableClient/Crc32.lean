import TableClient.Base64
/-!
# The cyclic checksum of 32 bits

The reflected polynomial `0xEDB88320`, started from all ones and complemented at the end.
-/

namespace TableClient.Crc32

/-- One step of the remainder: the lowest bit leaves, and takes the polynomial out if it was set. -/
def shift (remainder : UInt32) : UInt32 :=
  if remainder &&& 1 = 1 then (remainder >>> 1) ^^^ 0xEDB88320 else remainder >>> 1

/-- The remainder after one more byte. -/
def feed (remainder : UInt32) (byte : UInt8) : UInt32 :=
  Nat.repeat shift 8 (remainder ^^^ byte.toUInt32)

/-- The checksum of a sequence of bytes. -/
def checksum (bytes : Bytes) : UInt32 :=
  ~~~ bytes.foldl feed 0xFFFFFFFF

end TableClient.Crc32
