import GuestFiles.Json.Number

/-! # Values of a wanted shape

Readers for strings and objects that say what they want. A value of another type is read as far as
its description needs. -/

namespace GuestFiles.Json

/-- The complaint that the value in front of `s` is not of the wanted type. -/
def complain (wanted : String) (s : List Char) : Stop :=
  let described : Except Stop (Found × List Char) :=
    match s with
    | 'n' :: rest => do .ok (.null, ← readWord "ull".toList rest)
    | 't' :: rest => do .ok (.boolean true, ← readWord "rue".toList rest)
    | 'f' :: rest => do .ok (.boolean false, ← readWord "alse".toList rest)
    | '"' :: rest => do
      let (text, rest) ← readString rest
      .ok (.text text, rest)
    | '-' :: rest => readNumber true rest
    | '[' :: rest => .ok (.list, '[' :: rest)
    | '{' :: rest => .ok (.object, '{' :: rest)
    | s => if startsWithDigit s then readNumber false s else stopAt .noValue s
  match described with
  | .ok (found, rest) => ⟨.wrongType found wanted, byteCount rest⟩
  | .error stop => stop

def readText (wanted : String) (s : List Char) : Except Stop (String × List Char) :=
  match skipBlanks s with
  | [] => stopAt .endInValue []
  | '"' :: rest => readString rest
  | s => .error (complain wanted s)

def singleChar? (text : String) : Option Char :=
  match text.toList with
  | [c] => some c
  | _ => none

def readChar (s : List Char) : Except Stop (Char × List Char) := do
  let (text, rest) ← readText "a character" s
  match singleChar? text with
  | some c => .ok (c, rest)
  | none => stopBefore (.wrongText text "a character") rest

/-! ## Objects -/

/-- How the members of an object are taken in. -/
structure Members (σ : Type) where
  /-- What is wrong with a key after the members read so far. -/
  complaint? : σ → String → Option Cause
  /-- The members with one more, whose value stands in front. -/
  value : σ → String → List Char → Except Stop (σ × List Char)

def skipColon (s : List Char) : Except Stop (List Char) :=
  match skipBlanks s with
  | [] => stopAt .endInObject []
  | ':' :: rest => .ok rest
  | rest => stopAt .noColon rest

/-- The text after what may follow a refused key: blanks and the end of the object. -/
def afterRefused (s : List Char) : List Char :=
  match skipBlanks s with
  | '}' :: rest => rest
  | rest => rest

/-- The text behind the opening quote of the next key, or behind the end of the object. -/
def nextKey (first : Bool) (s : List Char) : Except Stop (Bool × List Char) :=
  match skipBlanks s with
  | [] => stopAt .endInObject []
  | '}' :: rest => .ok (false, rest)
  | '"' :: rest => if first then .ok (true, rest) else stopAt .noObjectComma ('"' :: rest)
  | ',' :: rest =>
    if first then stopAt .keyNotString (',' :: rest)
    else
      match skipBlanks rest with
      | [] => stopAt .endInValue []
      | '"' :: rest => .ok (true, rest)
      | '}' :: rest => stopAt .trailingComma ('}' :: rest)
      | rest => stopAt .keyNotString rest
  | rest => if first then stopAt .keyNotString rest else stopAt .noObjectComma rest

/-- The members of an object behind its opening brace, added to `state`. `fuel` is more than the
length of the text. -/
def readMembers {σ : Type} (members : Members σ) :
    Nat → Bool → σ → List Char → Except Stop (σ × List Char)
  | 0, _, _, s => stopAt .endInObject s
  | fuel + 1, first, state, s => do
    match ← nextKey first s with
    | (false, rest) => .ok (state, rest)
    | (true, rest) =>
      let (key, rest) ← readString rest
      match members.complaint? state key with
      | some cause => stopBefore cause (afterRefused rest)
      | none =>
        let (state, rest) ← members.value state key (← skipColon rest)
        readMembers members fuel false state rest

def readObject {σ : Type} (members : Members σ) (empty : σ) (s : List Char) :
    Except Stop (σ × List Char) :=
  readMembers members (s.length + 1) true empty s

/-! ## Lists -/

/-- Whether a list goes on with one more element, and the text in front of it or in front of the end
of the list. -/
def nextElement (first : Bool) (s : List Char) : Except Stop (Bool × List Char) :=
  match skipBlanks s with
  | [] => stopAt .endInList []
  | ']' :: rest => .ok (false, ']' :: rest)
  | ',' :: rest =>
    if first then .ok (true, ',' :: rest)
    else
      match skipBlanks rest with
      | [] => stopAt .endInValue []
      | ']' :: rest => stopAt .trailingComma (']' :: rest)
      | rest => .ok (true, rest)
  | rest => if first then .ok (true, rest) else stopAt .noListComma rest

def endList (s : List Char) : Except Stop (List Char) :=
  match skipBlanks s with
  | [] => stopAt .endInList []
  | ']' :: rest => .ok rest
  | ',' :: rest =>
    match skipBlanks rest with
    | ']' :: rest => stopAt .trailingComma (']' :: rest)
    | rest => stopAt .trailingText rest
  | rest => stopAt .trailingText rest

/-- Nothing but blanks is left. -/
def endText (s : List Char) : Except Stop Unit :=
  match skipBlanks s with
  | [] => .ok ()
  | rest => stopAt .trailingText rest

end GuestFiles.Json
