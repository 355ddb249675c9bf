import RowProjection.Text.Hexadecimal

namespace RowProjection.Text.Bytes

/-- How a byte stands between the quotes: printable ASCII as it is, the rest escaped. -/
def escaped (byte : UInt8) : List Char :=
  if byte = 0x0A then ['\\', 'n']
  else if byte = 0x0D then ['\\', 'r']
  else if byte = 0x09 then ['\\', 't']
  else if byte = 0x00 then ['\\', '0']
  else if byte = 0x5C then ['\\', '\\']
  else if byte = 0x22 then ['\\', '"']
  else if 0x20 ≤ byte ∧ byte < 0x7F then [Char.ofNat byte.toNat]
  else '\\' :: 'x' :: Hexadecimal.ofByte byte

/-- A byte sequence in quotes, marked with `b`. -/
def quoted (bytes : List UInt8) : String :=
  String.ofList ('b' :: '"' :: (bytes.flatMap escaped ++ ['"']))

end RowProjection.Text.Bytes
