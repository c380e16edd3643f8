/-! # The command line

Three commands: to parse a name, to find files, and to set a position. Options may stand anywhere
after the command, and everything after two dashes is an operand. Arguments that do not fit are
refused. -/

namespace GuestFiles.Command

/-- Where the drives lie on the host. -/
inductive Place where
  | single (root : String)
  /-- Each drive is a directory of its own below this one. -/
  | perDrive (root : String)
  | config (path : String)
  deriving DecidableEq, Repr

inductive Position where
  | sequential (offset : UInt32)
  | random (record : UInt32)
  deriving DecidableEq, Repr

def Place.config? : Place → Option String
  | .config path => some path
  | _ => none

inductive Request where
  | parse (name : String)
  /-- List the files that fit a pattern, as JSON or as text, within a number of seconds. -/
  | find (pattern : String) (place : Place) (json : Bool) (limit? : Option Nat)
  | offset (name : String) (position : Position)
  deriving DecidableEq, Repr

/-- A request, and whether the whole log is wanted. -/
structure Invocation where
  trace : Bool
  request : Request
  deriving DecidableEq, Repr

/-! ## Forms of arguments -/

inductive Form where
  | dashes
  /-- Two dashes and a name, perhaps with a value behind an equals sign. -/
  | long (name : String) (value? : Option String)
  | short (letters : List Char)
  /-- Anything else, a single dash included. -/
  | plain (text : String)

def Form.of (argument : String) : Form :=
  match argument.toList with
  | ['-', '-'] => .dashes
  | '-' :: '-' :: rest =>
    let name := String.ofList (rest.takeWhile (· ≠ '='))
    match rest.dropWhile (· ≠ '=') with
    | [] => .long name none
    | _ :: value => .long name (some (String.ofList value))
  | '-' :: c :: rest => .short (c :: rest)
  | _ => .plain argument

/-- What a command takes: flags, and options with a value. -/
structure Grammar where
  flags : List String
  options : List String

structure Parts where
  /-- The arguments that are neither flags nor options, in order. -/
  operands : List String
  flags : List String
  options : List (String × String)

namespace Parts

def empty : Parts :=
  ⟨[], [], []⟩

/-- One more flag, unless it was given before. -/
def addFlag? (parts : Parts) (name : String) : Option Parts :=
  if name ∈ parts.flags then none else some { parts with flags := name :: parts.flags }

/-- One more option, unless it was given before. -/
def addOption? (parts : Parts) (name value : String) : Option Parts :=
  if (parts.options.lookup name).isSome then none
  else some { parts with options := (name, value) :: parts.options }

/-- The flags of a cluster of letters. The only letter is `t`. -/
def addLetters? (parts : Parts) : List Char → Option Parts
  | [] => some parts
  | 't' :: rest => do (← parts.addFlag? "trace").addLetters? rest
  | _ :: _ => none

/-- The parts of the arguments of a command. A value in an argument of its own does not start with a
dash, unless it is a single dash. -/
def scan? (grammar : Grammar) : List String → Parts → Option Parts
  | [], parts => some parts
  | argument :: rest, parts =>
    match Form.of argument with
    | .dashes => some { parts with operands := parts.operands ++ rest }
    | .plain text => scan? grammar rest { parts with operands := parts.operands ++ [text] }
    | .short letters => do scan? grammar rest (← parts.addLetters? letters)
    | .long name (some value) =>
      if name ∈ grammar.options then do scan? grammar rest (← parts.addOption? name value) else none
    | .long name none =>
      if name ∈ grammar.flags then do scan? grammar rest (← parts.addFlag? name)
      else if name ∈ grammar.options then
        match rest with
        | [] => none
        | value :: rest =>
          match Form.of value with
          | .plain value => do scan? grammar rest (← parts.addOption? name value)
          | _ => none
      else none

end Parts

/-! ## Values -/

/-- The number that digits spell, none when there is no digit or something else. -/
def digits? (cs : List Char) : Option Nat :=
  if cs.isEmpty ∨ ¬cs.all Char.isDigit then none
  else some (cs.foldl (fun n c => n * 10 + (c.toNat - '0'.toNat)) 0)

/-- A number of 32 bits. It may have a plus sign, and zero may have a minus sign. -/
def word32? (text : String) : Option UInt32 := do
  let n ←
    match text.toList with
    | '+' :: rest => digits? rest
    | '-' :: rest => (digits? rest).filter (· = 0)
    | cs => digits? cs
  if n < UInt32.size then some n.toUInt32 else none

/-- A number of 64 bits. It may have a plus sign. -/
def word64? (text : String) : Option Nat := do
  let n ←
    match text.toList with
    | '+' :: rest => digits? rest
    | cs => digits? cs
  if n < UInt64.size then some n else none

/-- A path that is not empty. -/
def path? (text : String) : Option String :=
  if text.isEmpty then none else some text

/-! ## Requests -/

/-- The only operand. -/
def Parts.operand? (parts : Parts) : Option String :=
  match parts.operands with
  | [operand] => some operand
  | _ => none

/-- The place that at most one of three options gives. Without any it is the working directory. -/
def Parts.place? (parts : Parts) : Option Place :=
  match parts.options.lookup "root", parts.options.lookup "per-drive",
    parts.options.lookup "config" with
  | none, none, none => some (.single ".")
  | some root, none, none => (path? root).map .single
  | none, some root, none => (path? root).map .perDrive
  | none, none, some path => (path? path).map .config
  | _, _, _ => none

/-- The position that exactly one of two options gives. -/
def Parts.position? (parts : Parts) : Option Position :=
  match parts.options.lookup "sequential", parts.options.lookup "random" with
  | some offset, none => (word32? offset).map .sequential
  | none, some record => (word32? record).map .random
  | _, _ => none

/-- The limit in seconds, if one is given: none when what is given is no number. -/
def Parts.limit? (parts : Parts) : Option (Option Nat) :=
  match parts.options.lookup "timeout" with
  | none => some none
  | some limit => (word64? limit).map some

def grammar? (command : String) : Option Grammar :=
  if command = "parse" then some ⟨["trace"], []⟩
  else if command = "find" then
    some ⟨["trace", "json"], ["root", "per-drive", "config", "timeout"]⟩
  else if command = "offset" then some ⟨["trace"], ["sequential", "random"]⟩
  else none

def request? (command : String) (parts : Parts) : Option Request := do
  let operand ← parts.operand?
  if command = "parse" then
    return .parse operand
  else if command = "find" then
    return .find operand (← parts.place?) (parts.flags.contains "json") (← parts.limit?)
  else
    return .offset operand (← parts.position?)

/-- The invocation that arguments spell, after flags in front of the command. -/
def invocationAfter? : Parts → List String → Option Invocation
  | _, [] => none
  | before, argument :: rest =>
    match Form.of argument with
    | .short letters => do invocationAfter? (← before.addLetters? letters) rest
    | .long "trace" none => do invocationAfter? (← before.addFlag? "trace") rest
    | .plain command => do
      let parts ← Parts.scan? (← grammar? command) rest .empty
      let request ← request? command parts
      return ⟨(before.flags ++ parts.flags).contains "trace", request⟩
    | _ => none

/-- The invocation that arguments spell, none when they are refused. -/
def invocation? (arguments : List String) : Option Invocation :=
  invocationAfter? .empty arguments

end GuestFiles.Command
