import GuestFiles.Json.Fault

/-! # Blanks, words and strings of JSON

A reader takes the characters that are left and gives a value with the characters left after it. -/

namespace GuestFiles.Json

/-- Whether a character may stand between the parts of a JSON text. -/
def isBlank (c : Char) : Bool :=
  c = ' ' || c = '\n' || c = '\t' || c = '\r'

def skipBlanks (s : List Char) : List Char :=
  s.dropWhile isBlank

def readWord : List Char → List Char → Except Stop (List Char)
  | [], s => .ok s
  | _ :: _, [] => stopAt .endInValue []
  | c :: word, d :: rest => if d = c then readWord word rest else stopAt .badWord (d :: rest)

/-! ## Escapes -/

def hexValue? (c : Char) : Option Nat :=
  if '0' ≤ c ∧ c ≤ '9' then some (c.toNat - '0'.toNat)
  else if 'a' ≤ c ∧ c ≤ 'f' then some (c.toNat - 'a'.toNat + 10)
  else if 'A' ≤ c ∧ c ≤ 'F' then some (c.toNat - 'A'.toNat + 10)
  else none

/-- The number spelled by the four digits of an escape. Four bytes are taken even if they are no
digits. -/
def readUnit (s : List Char) : Except Stop (Nat × List Char) :=
  match s with
  | a :: b :: c :: d :: rest =>
    match hexValue? a, hexValue? b, hexValue? c, hexValue? d with
    | some a, some b, some c, some d => .ok (a * 4096 + b * 256 + c * 16 + d, rest)
    | _, _, _, _ => notFour s
  | _ => notFour s
where
  /-- The stop at four bytes that are not four digits. -/
  notFour (s : List Char) : Except Stop (Nat × List Char) :=
    if byteCount s < 4 then .error ⟨.endInString, 0⟩ else .error ⟨.badEscape, byteCount s - 4⟩

def simpleEscape? (c : Char) : Option Char :=
  if c = '"' ∨ c = '\\' ∨ c = '/' then some c
  else if c = 'b' then some '\x08'
  else if c = 'f' then some '\x0c'
  else if c = 'n' then some '\n'
  else if c = 'r' then some '\r'
  else if c = 't' then some '\t'
  else none

/-- The second half of a surrogate pair, after the first half `high`. -/
def readLowHalf (high : Nat) (s : List Char) : Except Stop (Char × List Char) :=
  match s with
  | '\\' :: 'u' :: rest => do
    let (low, rest) ← readUnit rest
    if 0xDC00 ≤ low ∧ low ≤ 0xDFFF then
      .ok (Char.ofNat ((high - 0xD800) * 0x400 + (low - 0xDC00) + 0x10000), rest)
    else
      stopBefore .loneSurrogate rest
  | '\\' :: [] => stopAt .endInString []
  | '\\' :: rest => stopAt .cutSurrogate rest
  | [] => stopAt .endInString []
  | s => stopAt .cutSurrogate s

/-- The character of an escape, after its backslash. -/
def readEscape (s : List Char) : Except Stop (Char × List Char) :=
  match s with
  | [] => stopAt .endInString []
  | 'u' :: rest => do
    let (unit, rest) ← readUnit rest
    if 0xDC00 ≤ unit ∧ unit ≤ 0xDFFF then stopBefore .loneSurrogate rest
    else if 0xD800 ≤ unit ∧ unit ≤ 0xDBFF then readLowHalf unit rest
    else .ok (Char.ofNat unit, rest)
  | c :: rest =>
    match simpleEscape? c with
    | some d => .ok (d, rest)
    | none => stopAt .badEscape (c :: rest)

/-! ## Strings -/

/-- The characters of a string up to its closing quote. `fuel` is at least the length of the
text. -/
def readStringTail : Nat → List Char → Except Stop (List Char × List Char)
  | 0, s => stopAt .endInString s
  | _, [] => stopAt .endInString []
  | fuel + 1, c :: rest =>
    if c = '"' then .ok ([], rest)
    else if c = '\\' then do
      let (d, rest) ← readEscape rest
      let (more, rest) ← readStringTail fuel rest
      .ok (d :: more, rest)
    else if c.toNat < 0x20 then stopAt .controlCharacter (c :: rest)
    else do
      let (more, rest) ← readStringTail fuel rest
      .ok (c :: more, rest)

def readString (s : List Char) : Except Stop (String × List Char) := do
  let (text, rest) ← readStringTail s.length s
  .ok (String.ofList text, rest)

/-- The text after an escape whose character is not wanted. -/
def skipEscape (s : List Char) : Except Stop (List Char) :=
  match s with
  | [] => stopAt .endInString []
  | 'u' :: rest => do
    let (_, rest) ← readUnit rest
    .ok rest
  | c :: rest => if (simpleEscape? c).isSome then .ok rest else stopAt .badEscape (c :: rest)

/-- The text after a string whose characters are not wanted. `fuel` is at least the length of the
text. -/
def skipStringTail : Nat → List Char → Except Stop (List Char)
  | 0, s => stopAt .endInString s
  | _, [] => stopAt .endInString []
  | fuel + 1, c :: rest =>
    if c = '"' then .ok rest
    else if c = '\\' then do
      let rest ← skipEscape rest
      skipStringTail fuel rest
    else if c.toNat < 0x20 then stopBefore .controlCharacter (c :: rest)
    else skipStringTail fuel rest

/-- The text after the string that follows an opening quote, whatever the string is. -/
def skipString (s : List Char) : Except Stop (List Char) :=
  skipStringTail s.length s

/-! ## Writing -/

def escapeChar (c : Char) : List Char :=
  if c = '"' ∨ c = '\\' then ['\\', c]
  else if c = '\x08' then ['\\', 'b']
  else if c = '\x0c' then ['\\', 'f']
  else if c = '\n' then ['\\', 'n']
  else if c = '\r' then ['\\', 'r']
  else if c = '\t' then ['\\', 't']
  else if c.toNat < 0x20 then
    ['\\', 'u', '0', '0', Nat.digitChar (c.toNat / 16), Nat.digitChar (c.toNat % 16)]
  else [c]

def writeString (text : String) : List Char :=
  '"' :: text.toList.flatMap escapeChar ++ ['"']

end GuestFiles.Json
