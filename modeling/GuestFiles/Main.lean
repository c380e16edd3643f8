import GuestFiles.Command.Run

/-! # The program

The arguments say what the program looks at: a configuration first, if there is one, and then the
directory to be searched. What stands there is read from the system, and the rest is left to
`Command.run`. -/

namespace GuestFiles.Program

open Host

/-! ## Looking at the system -/

/-- The fault of the system's error number, when it is one of those that a search can tell. Some
calls report the number negated. -/
def faultOf? (number : UInt32) : Option Fault :=
  match (min number (0 - number)).toNat with
  | 2 => some .noEntry
  | 20 => some .notDirectory
  | 21 => some .isDirectory
  | 36 => some .nameTooLong
  | 40 => some .tooManyLinks
  | _ => none

def fault? : IO.Error → Option Fault
  | .noFileOrDirectory _ number _ => faultOf? number
  | .inappropriateType _ number _ => faultOf? number
  | .invalidArgument _ number _ => faultOf? number
  | _ => none

/-- A path in the form in which the system is asked for it. -/
def file (path : String) :=
  (IO.FS.DirEntry.mk path "").root

/-- What is seen at a path, or the fault that hides it. Any other error goes on to the caller. -/
def look {α : Type} (path : Path) (see : IO α) : IO (Except Fault α) := do
  if path.bytes.contains 0 then
    return .error .zeroByte
  else if path.bytes.isEmpty then
    return .error .noEntry
  else
    try
      return .ok (← see)
    catch error =>
      match fault? error with
      | some fault => return .error fault
      | none => throw error

/-- The files and directories in a directory of the system. What has too long a path to be looked at
is taken to be a file. -/
partial def readListing (dir : Path) : IO Listing := do
  let mut listing := Listing.empty
  for entry in (← (file dir.shown).readDir).reverse do
    let name := Text.bytes entry.fileName
    let path := dir.join name
    if !path.fits then
      listing := .file name (.zeros 0) listing
    else
      let seen ← (file path.shown).symlinkMetadata
      match seen.type with
      | .dir => listing := .dir name (← readListing path) listing
      | .file => listing := .file name (.zeros seen.byteSize) listing
      | .symlink | .other => pure ()
  return listing

def readFile (path : Path) : IO (Except Fault Reached) :=
  look path do
    match (← (file path.shown).metadata).type with
    | .dir => return ⟨.dir .empty, false⟩
    | _ => return ⟨.file (.bytes (← IO.FS.readBinFile path.shown).toList), false⟩

/-- The directory or the file at a path, with the size of each file. What is neither has no
files. -/
def readRoot (path : Path) : IO (Except Fault Reached) :=
  look path do
    let place := file path.shown
    let linked := (← place.symlinkMetadata).type == .symlink
    let seen ← place.metadata
    match seen.type with
    | .dir => return ⟨.dir (← readListing path), linked⟩
    | .file => return ⟨.file (.zeros seen.byteSize), linked⟩
    | _ => return ⟨.dir .empty, linked⟩

def hostOf (seen : List (Path × Except Fault Reached)) : Host := fun path =>
  (seen.lookup path).getD (.error .noEntry)

/-- Looks at what a search of a typed pattern at a place needs. -/
def hostFor (pattern : String) (place : Command.Place) : IO Host := do
  let configured ←
    match place.config? with
    | some path => pure [(Path.ofText path, ← readFile (.ofText path))]
    | none => pure []
  match Command.searchedRoot (hostOf configured) pattern place with
  | .ok root =>
    if (configured.lookup root).isSome then
      return hostOf configured
    else
      return hostOf ((root, ← readRoot root) :: configured)
  | .error _ => return hostOf configured

/-! ## Running -/

/-- Waits for a task up to a point in time, in milliseconds. -/
partial def waitUntil {α : Type} (task : Task (Except IO.Error α)) (deadline : Nat) :
    IO (Option α) := do
  if ← IO.hasFinished task then
    return some (← IO.ofExcept (← IO.wait task))
  else if deadline ≤ (← IO.monoMsNow) then
    return none
  else
    IO.sleep 5
    waitUntil task deadline

/-- Carries out an invocation on the system. -/
def perform (invocation : Command.Invocation) : IO Command.Outcome := do
  match invocation.request with
  | .find pattern place _ none => return Command.run (← hostFor pattern place) invocation
  | .find pattern place _ (some seconds) =>
    let deadline := (← IO.monoMsNow) + seconds * 1000
    match ← waitUntil (← IO.asTask (hostFor pattern place)) deadline with
    | some host => return Command.run host invocation
    | none => return Command.expired pattern seconds
  | _ => return Command.run (hostOf []) invocation

end GuestFiles.Program

/-- Prints what the arguments ask for, and complains where it has to. -/
def main (arguments : List String) : IO UInt32 := do
  let outcome ←
    match GuestFiles.Command.invocation? arguments with
    | some invocation => GuestFiles.Program.perform invocation
    | none => pure GuestFiles.Command.refused
  IO.print outcome.output
  for complaint in outcome.complaints do
    IO.eprintln complaint
  return outcome.code.toUInt32
