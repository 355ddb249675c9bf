namespace RowProjection.Fingerprint

/-- Shifts the register by one bit. The polynomial is that of CRC-32 in its reflected form. -/
def shift (register : UInt32) : UInt32 :=
  if register &&& 1 = 1 then (register >>> 1) ^^^ 0xEDB88320 else register >>> 1

/-- Takes one byte into the register. -/
def step (register : UInt32) (byte : UInt8) : UInt32 :=
  shift (shift (shift (shift (shift (shift (shift (shift (register ^^^ byte.toUInt32))))))))

/-- The checksum CRC-32 of a byte sequence: the register is inverted at both ends. -/
def ofBytes (bytes : List UInt8) : UInt32 :=
  bytes.foldl step 0xFFFFFFFF ^^^ 0xFFFFFFFF

end RowProjection.Fingerprint
