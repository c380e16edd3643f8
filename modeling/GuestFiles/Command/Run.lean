import GuestFiles.Command.Arguments
import GuestFiles.ControlBlock.Position
import GuestFiles.Drive.Config

/-! # Running a command

What a command prints, what it complains of, and how it ends. -/

namespace GuestFiles.Command

open Host

structure Outcome where
  /-- The exit code: 0 when all went well, 1 after a failure, 2 for refused arguments. -/
  code : UInt8
  output : String
  complaints : List String
  deriving DecidableEq, Repr

def printLine (line : LogLine) : String :=
  "[" ++ line.level.label ++ "] " ++ line.message

/-- The lines that are printed: all of them if the whole log is wanted, else the warnings. -/
def printLog (trace : Bool) (log : List LogLine) : List String :=
  (log.filter fun line => trace || line.level == .warn).map printLine

def unlines (lines : List String) : String :=
  String.join (lines.map (· ++ "\n"))

/-! ## Control blocks -/

/-- A control block as it is printed: its fields, its positions, and a dump of its bytes. -/
def printBlock (b : ControlBlock) : List String :=
  ["drive:  " ++ b.drive.toNat.repr,
    "name:   \"" ++ Text.lossy b.name.toList ++ "\"",
    "type:   \"" ++ Text.lossy b.extension.toList ++ "\"",
    "ex: " ++ b.ex.toNat.repr ++ "  s1: " ++ b.s1.toNat.repr ++ "  s2: 0x" ++
      String.ofList (Text.hexByte b.s2) ++ "  rc: " ++ b.rc.toNat.repr ++ "  cr: " ++
      b.cr.toNat.repr,
    "sequential offset: " ++ b.offset.toNat.repr ++ "  random record: " ++ b.random.toNat.repr] ++
  (if b.hasWildcards then ["(wildcard pattern)"] else []) ++
  ["bytes (36):"] ++ Text.hexDump b.bytes

/-- The block of a name at a position, with a warning when the position is not stored as it is
given. -/
def placeBlock (name : String) : Position → Logged ControlBlock
  | .sequential offset => do
    let b := (ControlBlock.parse name).seek offset
    if b.offset ≠ offset then
      Logged.write .warn
        ("offset " ++ offset.toNat.repr ++ " is stored as " ++ b.offset.toNat.repr)
    return b
  | .random record => do
    let b := (ControlBlock.parse name).setRandom record
    if b.random ≠ record then
      Logged.write .warn ("record " ++ record.toNat.repr ++ " truncated to 24 bits")
    return b

/-! ## Hits -/

/-- Blanks that fill a text up to a width. -/
def blanks (width : Nat) (text : String) : String :=
  String.ofList (List.replicate (width - text.length) ' ')

/-- A hit as a line: the name, the size, and the path. -/
def printHit (hit : Hit) : String :=
  let size := hit.size.toNat.repr
  hit.name ++ blanks 12 hit.name ++ " " ++ blanks 10 size ++ size ++ "  " ++ hit.host.shown

def printHits (hits : List Hit) : List String :=
  hits.map printHit ++ [hits.length.repr ++ " file(s)"]

def driveMap (host : Host) : Place → Logged (Except Failure DriveMap)
  | .single root => return .ok (.single (.ofText root))
  | .perDrive root => return .ok (.perDrive (.ofText root))
  | .config path => DriveMap.load host (.ofText path)

/-- The hits of a typed pattern at a place, in order. The map is built before the search. -/
def findHits (host : Host) (pattern : String) (place : Place) :
    Logged (Except Failure (List Hit)) := do
  match ← driveMap host place with
  | .error failure => return .error failure
  | .ok map => return (← map.findTyped host pattern).map Hit.sort

/-- The directory that a typed pattern at a place asks to search. -/
def searchedRoot (host : Host) (pattern : String) (place : Place) : Except Failure Path := do
  let map ← (driveMap host place).value
  map.root (← map.typedDrive pattern).letter

def failed (log : List String) (diagnostic : String) : Outcome :=
  ⟨1, "", log ++ ["Error: " ++ diagnostic]⟩

/-- What is said when hits are to be written as JSON and the path of one is no text. -/
def notWritable : String :=
  "Error(\"path contains invalid UTF-8 characters\", line: 0, column: 0)"

/-! ## Commands -/

def run (host : Host) (invocation : Invocation) : Outcome :=
  match invocation.request with
  | .parse name => ⟨0, unlines (printBlock (.parse name)), []⟩
  | .offset name position =>
    let placed := placeBlock name position
    ⟨0, unlines (printBlock placed.value), printLog invocation.trace placed.log⟩
  | .find pattern place json _ =>
    let found := findHits host pattern place
    let log := printLog invocation.trace found.log
    match found.value with
    | .error failure => failed log failure.diagnostic
    | .ok hits =>
      if json then
        match Hit.jsonList? hits with
        | some text => ⟨0, unlines [text], log⟩
        | none => failed log notWritable
      else
        ⟨0, unlines (printHits hits), log⟩

/-- How a search ends that is not done after a number of seconds. -/
def expired (pattern : String) (seconds : Nat) : Outcome :=
  let limit := if seconds = 0 then "0ns" else seconds.repr ++ "s"
  failed [] (Text.quoted ("search for " ++ pattern ++ ": timed out after " ++ limit))

def refused : Outcome :=
  ⟨2, "", ["error: the arguments are not understood"]⟩

/-- Runs the command that arguments spell. Refused arguments run nothing. -/
def runArguments (host : Host) (arguments : List String) : Outcome :=
  match invocation? arguments with
  | some invocation => run host invocation
  | none => refused

end GuestFiles.Command
