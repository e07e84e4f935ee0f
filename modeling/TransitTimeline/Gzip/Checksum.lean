/-! The cyclic redundancy check of gzip members, bit by bit. -/
namespace TransitTimeline.Gzip

def bitStep (crc : UInt32) : UInt32 :=
  if crc &&& 1 = 1 then (crc >>> 1) ^^^ 0xEDB88320 else crc >>> 1

def byteStep (crc : UInt32) (byte : UInt8) : UInt32 :=
  (List.range 8).foldl (fun crc _ => bitStep crc) (crc ^^^ byte.toUInt32)

def checksum (bytes : List UInt8) : UInt32 := bytes.foldl byteStep 0xFFFFFFFF ^^^ 0xFFFFFFFF

end TransitTimeline.Gzip
