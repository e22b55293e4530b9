import Spool.Bytes.LittleEndian

namespace Spool.Log

-- Where the payload of an item is, when it was appended, and its checksum. The last four of an entry's
-- thirty-two bytes are spare.
structure Entry where
  dataPage : UInt64
  offset : UInt32
  length : UInt32
  -- Nanoseconds since the start of 1970, before it if negative.
  timestamp : Int64
  checksum : UInt32
deriving DecidableEq

namespace Entry

def width : Nat := 32

-- Pages hold a power of two of entries, so every page is full of them.
def perPage : Nat := 131072

def pageSize : Nat := width * perPage

def encode (e : Entry) : Bytes :=
  LittleEndian.encode 8 e.dataPage.toNat ++
  LittleEndian.encode 4 e.offset.toNat ++
  LittleEndian.encode 4 e.length.toNat ++
  LittleEndian.encode 8 e.timestamp.toUInt64.toNat ++
  LittleEndian.encode 4 e.checksum.toNat ++
  LittleEndian.encode 4 0

-- The number in some of the bytes of a record.
def fieldAt (bs : Bytes) (position length : Nat) : Nat :=
  LittleEndian.decode ((bs.drop position).take length)

def decode (bs : Bytes) : Entry where
  dataPage := UInt64.ofNat (fieldAt bs 0 8)
  offset := UInt32.ofNat (fieldAt bs 8 4)
  length := UInt32.ofNat (fieldAt bs 12 4)
  timestamp := (UInt64.ofNat (fieldAt bs 16 8)).toInt64
  checksum := UInt32.ofNat (fieldAt bs 24 4)

-- Where the payload ends within its page.
def finish (e : Entry) : Nat :=
  e.offset.toNat + e.length.toNat

-- The page of the entry for an index.
def pageOf (index : UInt64) : UInt64 :=
  UInt64.ofNat (index.toNat / perPage)

-- Where the entry is within that page.
def positionOf (index : UInt64) : Nat :=
  index.toNat % perPage * width

theorem length_encode (e : Entry) : e.encode.length = width := by
  simp [encode, LittleEndian.length_encode, width]

theorem positionOf_add_width_le (index : UInt64) : positionOf index + width ≤ pageSize := by
  have h : index.toNat % perPage < perPage := Nat.mod_lt _ (by decide)
  simp only [positionOf, pageSize, width, perPage] at *
  omega

end Entry

end Spool.Log
