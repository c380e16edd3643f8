import GuestFiles.Failure

/-! # Drive letters

There are sixteen drives, A to P. Either case of a letter names its drive. -/

namespace GuestFiles

/-- A drive, counted from A. -/
abbrev Drive := Fin 16

namespace Drive

abbrev count : Nat := 16

def ofLetter? (letter : Char) : Option Drive :=
  let upper := letter.toUpper
  if h : 'A' ≤ upper ∧ upper ≤ 'P' then
    some ⟨upper.toNat - 0x41, by
      have low : 0x41 ≤ upper.toNat := h.1
      have high : upper.toNat ≤ 0x50 := h.2
      omega⟩
  else
    none

def letter (drive : Drive) : Char :=
  Char.ofNat (0x41 + drive.val)

/-- The drive of a letter, with the failure for a letter that has none. -/
def ofLetter (letter : Char) : Except Failure Drive :=
  match ofLetter? letter with
  | some drive => .ok drive
  | none => .error (.invalidDrive letter)

/-- The letter of the drive with the given number. The failure for a number past the last drive
names the character that many places after A. -/
def letterOf (index : UInt8) : Except Failure Char :=
  if h : index.toNat < 16 then
    .ok (letter ⟨index.toNat, h⟩)
  else
    .error (.invalidDrive (Char.ofNat (0x41 + index.toNat)))

/-- The letter with which a typed name asks for a drive: its first character, when a colon
follows. -/
def typedLetter? (text : String) : Option Char :=
  match text.toList with
  | letter :: ':' :: _ => some letter
  | _ => none

end Drive

end GuestFiles
