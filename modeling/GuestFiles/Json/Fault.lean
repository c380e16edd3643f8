import GuestFiles.Text.Quoted

/-! # What is wrong with a JSON text

A reader stops at the first problem, read from left to right. The problem has a cause, and a place
given by the line and the number of bytes of that line read up to it. -/

namespace GuestFiles.Json

/-- The value that stands where another kind of value is wanted. -/
inductive Found where
  | null
  | boolean (value : Bool)
  | integer (value : Int)
  /-- A number with a fraction or an exponent, or out of the range of words, as it is shown. -/
  | decimal (shown : String)
  | text (value : String)
  | list
  | object

inductive Cause where
  | endInList
  | endInObject
  | endInString
  | endInValue
  | noColon
  /-- Neither a comma nor the end follows an element of a list. -/
  | noListComma
  /-- Neither a comma nor the end follows a member of an object. -/
  | noObjectComma
  /-- A word is none of the three that JSON knows. -/
  | badWord
  | noValue
  | badEscape
  | badNumber
  | outOfRange
  | controlCharacter
  | keyNotString
  /-- Half of a surrogate pair stands in a string. -/
  | loneSurrogate
  /-- A surrogate pair is cut off after its first half. -/
  | cutSurrogate
  | trailingComma
  | trailingText
  | wrongType (found : Found) (wanted : String)
  /-- A string does not spell what is wanted. -/
  | wrongText (text wanted : String)
  | repeated (key : String)

/-- The classes of causes: the text is not JSON, it ends too early, or it is JSON of another shape
than the wanted one. -/
inductive Category where
  | malformed
  | ended
  | misshapen
  deriving DecidableEq, Repr

def Cause.category : Cause → Category
  | .endInList | .endInObject | .endInString | .endInValue => .ended
  | .wrongType .. | .wrongText .. | .repeated _ => .misshapen
  | _ => .malformed

def Found.describe : Found → String
  | .null => "null"
  | .boolean true => "boolean `true`"
  | .boolean false => "boolean `false`"
  | .integer value => "integer `" ++ toString value ++ "`"
  | .decimal shown => "floating point `" ++ shown ++ "`"
  | .text value => "string " ++ Text.quoted value
  | .list => "sequence"
  | .object => "map"

def Cause.message : Cause → String
  | .endInList => "EOF while parsing a list"
  | .endInObject => "EOF while parsing an object"
  | .endInString => "EOF while parsing a string"
  | .endInValue => "EOF while parsing a value"
  | .noColon => "expected `:`"
  | .noListComma => "expected `,` or `]`"
  | .noObjectComma => "expected `,` or `\x7d`"
  | .badWord => "expected ident"
  | .noValue => "expected value"
  | .badEscape => "invalid escape"
  | .badNumber => "invalid number"
  | .outOfRange => "number out of range"
  | .controlCharacter => "control character (\\u0000-\\u001F) found while parsing a string"
  | .keyNotString => "key must be a string"
  | .loneSurrogate => "lone leading surrogate in hex escape"
  | .cutSurrogate => "unexpected end of hex escape"
  | .trailingComma => "trailing comma"
  | .trailingText => "trailing characters"
  | .wrongType found wanted => "invalid type: " ++ found.describe ++ ", expected " ++ wanted
  | .wrongText text wanted =>
    "invalid value: string " ++ Text.quoted text ++ ", expected " ++ wanted
  | .repeated key => "duplicate field `" ++ key ++ "`"

/-- A cause and the place where reading stopped. -/
structure Fault where
  cause : Cause
  /-- The line, counted from 1. -/
  line : Nat
  /-- How many bytes of the line were read. -/
  column : Nat

def Fault.diagnostic (fault : Fault) : String :=
  "Error(" ++ Text.quoted fault.cause.message ++ ", line: " ++ fault.line.repr ++ ", column: " ++
    fault.column.repr ++ ")"

/-! ## Places -/

def byteCount : List Char → Nat
  | [] => 0
  | c :: rest => c.utf8Size + byteCount rest

/-- A cause, and how many bytes of the text were left when reading stopped. -/
structure Stop where
  cause : Cause
  left : Nat

/-- A stop just behind the first byte of `s`, or at the end when nothing is left. -/
def stopAt {α : Type} (cause : Cause) (s : List Char) : Except Stop α :=
  .error ⟨cause, byteCount s - 1⟩

/-- A stop in front of `s`. -/
def stopBefore {α : Type} (cause : Cause) (s : List Char) : Except Stop α :=
  .error ⟨cause, byteCount s⟩

/-- The line and column after `read` bytes more, from a given line and column. -/
def place (line column : Nat) : Nat → List Char → Nat × Nat
  | _, [] => (line, column)
  | read, c :: rest =>
    if read = 0 then (line, column)
    else if c = '\n' then place (line + 1) 0 (read - 1) rest
    else if read < c.utf8Size then (line, column + read)
    else place line (column + c.utf8Size) (read - c.utf8Size) rest

def Stop.locate (stop : Stop) (text : List Char) : Fault :=
  let (line, column) := place 1 0 (byteCount text - stop.left) text
  ⟨stop.cause, line, column⟩

end GuestFiles.Json
