import GuestFiles.Json.Decimal
import GuestFiles.Json.Skip

/-! # Numbers of JSON

A number without point and exponent is a whole number as long as a word holds it. Any other is a
binary fraction: as many leading digits as fit in an unsigned word, rounded once, and then scaled by
a power of ten, rounded again. -/

namespace GuestFiles.Json

def maxWord : Nat := UInt64.size - 1

/-- The word that grows by decimal digits as long as it fits, and the digits that no longer do. -/
def gather : Nat → List Char → Nat × List Char
  | word, [] => (word, [])
  | word, c :: rest =>
    let next := word * 10 + (c.toNat - '0'.toNat)
    if next ≤ maxWord then gather next rest else (word, c :: rest)

/-- The greatest exponent that is read, above which no number is held. -/
def maxExponent : Nat := 0x7FFFFFFF

def clamp (n : Int) : Int :=
  if n < -0x80000000 then -0x80000000 else if 0x7FFFFFFF < n then 0x7FFFFFFF else n

/-- The number `word · 10 ^ exponent`, none when it is too large. -/
def scale : Nat → Float → Int → Option Float
  | fuel, x, exponent =>
    if exponent.natAbs ≤ 308 then
      let power := Float.ofScientific 1 false exponent.natAbs
      if 0 ≤ exponent then
        if (x * power).isInf then none else some (x * power)
      else
        some (x / power)
    else if x == 0 then some x
    else if 0 ≤ exponent then none
    else
      match fuel with
      | 0 => some 0
      | fuel + 1 => scale fuel (x / Float.ofScientific 1 false 308) (exponent + 308)

/-- The fraction `± word · 10 ^ exponent` in front of `rest`. -/
def fraction (negative : Bool) (word : Nat) (exponent : Int) (rest : List Char) :
    Except Stop (Found × List Char) :=
  match scale 4 word.toUInt64.toFloat exponent with
  | some x => .ok (.decimal (showDecimal (if negative then -x else x)), rest)
  | none => stopBefore .outOfRange rest

/-- The value of the digits of an exponent after `value`, with the text after the digit that made it
too large, if one did. -/
def gatherExponent : Nat → List Char → Nat × Option (List Char)
  | value, [] => (value, none)
  | value, c :: rest =>
    let next := value * 10 + (c.toNat - '0'.toNat)
    if next ≤ maxExponent then gatherExponent next rest else (value, some rest)

def readExponent (negative : Bool) (word : Nat) (start : Int) (s : List Char) :
    Except Stop (Found × List Char) :=
  let (down, unsigned) :=
    match s with
    | '+' :: rest => (false, rest)
    | '-' :: rest => (true, rest)
    | s => (false, s)
  if unsigned.isEmpty then stopAt .endInValue []
  else if !startsWithDigit unsigned then stopAt .badNumber unsigned
  else
    let digits := unsigned.takeWhile Char.isDigit
    let rest := unsigned.dropWhile Char.isDigit
    match gatherExponent 0 digits with
    | (exponent, none) =>
      fraction negative word (clamp (if down then start - exponent else start + exponent)) rest
    | (_, some unread) =>
      if word ≠ 0 ∧ !down then stopBefore .outOfRange (unread ++ rest)
      else .ok (.decimal (showDecimal (if negative then -0.0 else 0.0)), rest)

def readPower (negative : Bool) (word : Nat) (exponent : Int) (s : List Char) :
    Except Stop (Found × List Char) :=
  match s with
  | 'e' :: rest => readExponent negative word exponent rest
  | 'E' :: rest => readExponent negative word exponent rest
  | s => fraction negative word exponent s

def readFraction (negative : Bool) (word : Nat) (exponent : Int) (s : List Char) :
    Except Stop (Found × List Char) :=
  let digits := s.takeWhile Char.isDigit
  let rest := s.dropWhile Char.isDigit
  if digits.isEmpty then
    if rest.isEmpty then stopAt .endInValue [] else stopAt .badNumber rest
  else
    let (word, unread) := gather word digits
    readPower negative word (exponent - (digits.length - unread.length : Int)) rest

def readNumber (negative : Bool) (s : List Char) : Except Stop (Found × List Char) :=
  let digits := s.takeWhile Char.isDigit
  let rest := s.dropWhile Char.isDigit
  match digits with
  | [] => if s.isEmpty then stopAt .endInValue [] else stopAt .badNumber s
  | '0' :: d :: more => stopAt .badNumber (d :: more ++ rest)
  | digits =>
    let (word, unread) := gather 0 digits
    match rest with
    | '.' :: rest => readFraction negative word unread.length rest
    | 'e' :: rest => readExponent negative word unread.length rest
    | 'E' :: rest => readExponent negative word unread.length rest
    | rest =>
      if !unread.isEmpty then fraction negative word unread.length rest
      else if !negative then .ok (.integer word, rest)
      else if 0 < word ∧ word ≤ UInt64.size / 2 then .ok (.integer (-(word : Int)), rest)
      else .ok (.decimal (showDecimal (-word.toUInt64.toFloat)), rest)

end GuestFiles.Json
