import GuestFiles.Json.Scan

/-! # Passing over a value

A value that is not wanted only has to be well-formed. Numbers may have any size and strings may
hold half a surrogate pair. Nesting has no limit: the open lists and objects are kept on a stack. -/

namespace GuestFiles.Json

inductive Frame where
  | list
  | object
  deriving DecidableEq, Repr

def skipDigits (s : List Char) : List Char :=
  s.dropWhile Char.isDigit

def startsWithDigit (s : List Char) : Bool :=
  s.head?.any Char.isDigit

def skipExponent (s : List Char) : Except Stop (List Char) :=
  let unsigned :=
    match s with
    | '+' :: rest => rest
    | '-' :: rest => rest
    | s => s
  match unsigned with
  | [] => stopAt .badNumber []
  | c :: rest => if c.isDigit then .ok (skipDigits rest) else stopAt .badNumber (c :: rest)

/-- The text after what may follow the digits before and after the point of a number. -/
def skipPower (s : List Char) : Except Stop (List Char) :=
  match s with
  | 'e' :: rest => skipExponent rest
  | 'E' :: rest => skipExponent rest
  | s => .ok s

/-- The text after what may follow the whole part of a number. -/
def skipFraction (s : List Char) : Except Stop (List Char) :=
  match s with
  | '.' :: rest =>
    if startsWithDigit rest then skipPower (skipDigits rest) else stopAt .badNumber rest
  | s => skipPower s

def skipNumber (s : List Char) : Except Stop (List Char) :=
  match s with
  | [] => stopAt .badNumber []
  | '0' :: rest => if startsWithDigit rest then stopAt .badNumber rest else skipFraction rest
  | c :: rest =>
    if c.isDigit then skipFraction (skipDigits rest) else stopAt .badNumber (c :: rest)

def skipKey (s : List Char) : Except Stop (List Char) :=
  match skipBlanks s with
  | [] => stopAt .endInObject []
  | '"' :: rest => do
    let rest ← skipString rest
    match skipBlanks rest with
    | [] => stopAt .endInObject []
    | ':' :: rest => .ok rest
    | rest => stopAt .noColon rest
  | rest => stopAt .keyNotString rest

/-- Closes what ends after a value. No stack means that the whole value is over, otherwise the text
stands in front of the next value of the innermost open list or object. -/
def close : List Frame → List Char → Except Stop (Option (List Frame) × List Char)
  | [], s => .ok (none, s)
  | .list :: above, s =>
    match skipBlanks s with
    | [] => stopAt .endInList []
    | ',' :: rest => .ok (some (.list :: above), rest)
    | ']' :: rest => close above rest
    | rest => stopAt .noListComma rest
  | .object :: above, s =>
    match skipBlanks s with
    | [] => stopAt .endInObject []
    | ',' :: rest => do
      let rest ← skipKey rest
      .ok (some (.object :: above), rest)
    | '}' :: rest => close above rest
    | rest => stopAt .noObjectComma rest

/-- Passes over the front of a value: a whole value without parts, an empty list or object, or the
opening of one. The answer is as for `close`. -/
def skipFront (stack : List Frame) (s : List Char) :
    Except Stop (Option (List Frame) × List Char) :=
  match skipBlanks s with
  | [] => stopAt .endInValue []
  | '"' :: rest => do close stack (← skipString rest)
  | '[' :: rest =>
    match skipBlanks rest with
    | [] => stopAt .endInList []
    | ']' :: rest => close stack rest
    | rest => .ok (some (.list :: stack), rest)
  | '{' :: rest =>
    match skipBlanks rest with
    | [] => stopAt .endInObject []
    | '}' :: rest => close stack rest
    | rest => do .ok (some (.object :: stack), ← skipKey rest)
  | 'n' :: rest => do close stack (← readWord "ull".toList rest)
  | 't' :: rest => do close stack (← readWord "rue".toList rest)
  | 'f' :: rest => do close stack (← readWord "alse".toList rest)
  | '-' :: rest => do close stack (← skipNumber rest)
  | c :: rest =>
    if c.isDigit then do close stack (← skipNumber (c :: rest))
    else stopAt .noValue (c :: rest)

/-- Passes over values until the stack is closed. `fuel` is more than the length of the text. -/
def skipOpen : Nat → List Frame → List Char → Except Stop (List Char)
  | 0, _, s => stopAt .endInValue s
  | fuel + 1, stack, s => do
    match ← skipFront stack s with
    | (none, rest) => .ok rest
    | (some stack, rest) => skipOpen fuel stack rest

/-- The text after a value, whatever the value is. -/
def skipValue (s : List Char) : Except Stop (List Char) :=
  skipOpen (s.length + 1) [] s

end GuestFiles.Json
