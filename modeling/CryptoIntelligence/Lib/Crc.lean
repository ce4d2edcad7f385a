/-
  Reflected 32-bit cyclic redundancy checks with all-ones start and final complement, one bit at a
  time, over any polynomial.
-/
import CryptoIntelligence.Lib.Codec

namespace CryptoIntelligence.Lib

def crc32Bit (polynomial crc : UInt32) : UInt32 :=
  (crc >>> 1) ^^^ (polynomial &&& (0 - (crc &&& 1)))

def crc32Step (polynomial crc : UInt32) (byte : UInt8) : UInt32 :=
  (crc32Bit polynomial)^[8] (crc ^^^ byte.toUInt32)

def crc32 (polynomial : UInt32) (bytes : Bytes) : UInt32 :=
  ~~~ (bytes.foldl (crc32Step polynomial) 0xffffffff)

/-- A checksum of 32 bits of which nothing is assumed: that of a library of its own. -/
class Crc32c where
  crc32c : Bytes → UInt32

namespace Castagnoli

/-- The Castagnoli polynomial, reflected. -/
scoped instance castagnoli : Crc32c := ⟨crc32 0x82f63b78⟩

end Castagnoli

/-- The IEEE 802.3 polynomial, reflected. -/
def ieeeCrc32 : Bytes → UInt32 := crc32 0xedb88320

example :
    Castagnoli.castagnoli.crc32c [0x31, 0x32, 0x33, 0x34, 0x35, 0x36, 0x37, 0x38, 0x39] =
      0xe3069283 := by
  decide +kernel

example : ieeeCrc32 [0x31, 0x32, 0x33, 0x34, 0x35, 0x36, 0x37, 0x38, 0x39] = 0xcbf43926 := by
  decide +kernel

end CryptoIntelligence.Lib
