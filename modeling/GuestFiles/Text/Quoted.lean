import GuestFiles.Text.Hex
import GuestFiles.Text.ShownTable
import GuestFiles.Text.Utf8

/-! # Quoted text for diagnostics

A text between quotes in which everything that could not be told apart on a screen is spelled out:
the quote in use and the backslash behind a backslash, the usual controls by letter, other hidden or
combining characters by code point, and bytes that are no text by their value. -/

namespace GuestFiles.Text

def inRanges (ranges : List (Nat × Nat)) (code : Nat) : Bool :=
  ranges.any fun range => range.1 ≤ code && code ≤ range.2

/-- Whether a character has to be spelled by its code point. Plain ASCII is decided without the
tables. -/
def isHidden (c : Char) : Bool :=
  if c.toNat < 0x7F then c.toNat < 0x20
  else
    inRanges extendingRanges c.toNat || inRanges fillerRanges c.toNat ||
      inRanges hiddenRanges c.toNat

/-- A character as it stands between two marks `quote`. -/
def escapeChar (quote c : Char) : List Char :=
  if c = '\x00' then ['\\', '0']
  else if c = '\t' then ['\\', 't']
  else if c = '\r' then ['\\', 'r']
  else if c = '\n' then ['\\', 'n']
  else if c = '\\' ∨ c = quote then ['\\', c]
  else if isHidden c then ['\\', 'u', '\x7b'] ++ lowerHex c.toNat ++ ['\x7d']
  else [c]

def quoted (text : String) : String :=
  String.ofList ('"' :: text.toList.flatMap (escapeChar '"') ++ ['"'])

def quotedChar (c : Char) : String :=
  String.ofList ('\'' :: escapeChar '\'' c ++ ['\''])

/-- Bytes in double quotes: text where they are text, `\xNN` for each byte that is not. -/
def quotedBytes (bs : List UInt8) : String :=
  String.ofList ('"' :: (pieces bs).flatMap piece ++ ['"'])
where
  piece : Piece → List Char
    | .char c => escapeChar '"' c
    | .broken bs => bs.flatMap fun b => ['\\', 'x'] ++ hexByte b

end GuestFiles.Text
