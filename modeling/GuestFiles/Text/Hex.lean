/-! # Bytes in hexadecimal

Two digits a byte, and dumps of twelve bytes a row in which every row is labelled with the offset of
its first byte. -/

namespace GuestFiles.Text

/-- A number in hexadecimal, in lower case and without leading zeros. -/
def lowerHex (n : Nat) : List Char :=
  Nat.toDigits 16 n

/-- A number in hexadecimal, in upper case and with at least two digits. -/
def upperHex (n : Nat) : List Char :=
  let digits := (lowerHex n).map Char.toUpper
  if n < 16 then '0' :: digits else digits

def hexByte (b : UInt8) : List Char :=
  upperHex b.toNat

/-- Bytes cut into rows of twelve, the last of which may be shorter, each with its offset. -/
def rowsFrom (offset : Nat) (bs : List UInt8) : List (Nat × List UInt8) :=
  if bs.isEmpty then
    []
  else
    (offset, bs.take 12) :: rowsFrom (offset + 12) (bs.drop 12)
termination_by bs.length
decreasing_by
  have : bs.length ≠ 0 := by simpa using ‹¬bs.isEmpty = true›
  rw [List.length_drop]
  omega

/-- One row of a dump: the label, then the bytes with a blank between them. -/
def hexRow (row : Nat × List UInt8) : String :=
  String.ofList
    ([' ', ' '] ++ upperHex row.1 ++ [':', ' '] ++
      ((row.2.map hexByte).intersperse [' ']).flatten)

def hexDump (bs : List UInt8) : List String :=
  (rowsFrom 0 bs).map hexRow

end GuestFiles.Text
