/-!
# Checksums

The cyclic redundancy check that archives keep of each member.
-/

namespace ScriptSurvey.Archive

/-- Divide the register by the polynomial, one bit at a time. -/
def shiftOut : Nat → UInt32 → UInt32
  | 0, register => register
  | n + 1, register =>
    let half := register >>> 1
    shiftOut n (if register &&& 1 = 1 then half ^^^ 0xEDB88320 else half)

/-- The register after one more byte. -/
def checksumStep (register : UInt32) (b : UInt8) : UInt32 :=
  shiftOut 8 (register ^^^ b.toUInt32)

/-- The checksum of bytes. -/
def checksum (bytes : List UInt8) : UInt32 :=
  bytes.foldl checksumStep 0xFFFFFFFF ^^^ 0xFFFFFFFF

end ScriptSurvey.Archive
