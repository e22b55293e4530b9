import Spool.Bytes.LittleEndian

namespace Spool.Checksum

-- The cyclic redundancy check of 32 bits, with its polynomial reflected.
def polynomial : UInt32 := 0xEDB88320

-- Divides out one bit.
def shift (register : UInt32) : UInt32 :=
  if register &&& 1 = 1 then (register >>> 1) ^^^ polynomial else register >>> 1

def shifts : Nat → UInt32 → UInt32
  | 0, register => register
  | n + 1, register => shifts n (shift register)

def feed (register : UInt32) (byte : UInt8) : UInt32 :=
  shifts 8 (register ^^^ byte.toUInt32)

def crc32 (bs : Bytes) : UInt32 :=
  bs.foldl feed 0xFFFFFFFF ^^^ 0xFFFFFFFF

-- The length goes first, in eight bytes, so a cut or padded payload shows as well.
def ofPayload (payload : Bytes) : UInt32 :=
  crc32 (LittleEndian.encode 8 payload.length ++ payload)

end Spool.Checksum
