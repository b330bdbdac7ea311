/-!
# What archives are read with

Archives are read from memory or from a file, and these go back beyond the start and to places that
are too far in different ways. Two of the ways of packing, bzip2 and LZMA, are unpacked by decoders
that come from outside, and either may be missing.
-/

namespace ScriptSurvey.Archive

/-- What was made of the packed bytes that were given so far. -/
structure Decoded where
  bytes : List UInt8
  /-- Whether the packed data has come to its end. -/
  ended : Bool

/-- A way of unpacking: what is made of the packed bytes given so far, or what is wrong with
them. -/
abbrev Decoder := List UInt8 → Except String Decoded

/-- What an archive is read with. -/
structure Reader where
  /-- What is said of a place that cannot be gone to. -/
  unreachable : Int → Option String
  /-- Whether going back beyond the start ends at the start; else it cannot be done. -/
  stopsAtStart : Bool
  bzip2 : Option Decoder := none
  lzma : Option Decoder := none

namespace Reader

/-- Archives in files. -/
def file : Reader where
  unreachable place := if place < 0 then some "[Errno 22] Invalid argument" else none
  stopsAtStart := false

/-- Archives in memory. -/
def memory : Reader where
  unreachable place := if place < 0 then some s!"negative seek value {place}" else none
  stopsAtStart := true

end Reader

end ScriptSurvey.Archive
