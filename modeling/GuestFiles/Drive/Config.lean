import GuestFiles.Drive.Map
import GuestFiles.Json.Shape

/-! # Drive maps in JSON

A configuration names the current drive and gives roots to letters, as in
`{"default":"A","drives":{"A":"/srv/a"}}`. Both parts may be missing, and members of other names are
passed over. A list of the two parts in this order is read as well. -/

namespace GuestFiles

open Host

/-- Letters with their roots, in increasing order of the letters, each letter once. -/
structure Assignments where
  entries : List (Char × String)
  increasing : entries.Pairwise (·.1 < ·.1)
  deriving DecidableEq

namespace Assignments

def empty : Assignments :=
  ⟨[], .nil⟩

/-- Gives a letter a root in a list of increasing letters, in the place of the root it has. -/
def insertInto (letter : Char) (root : String) : List (Char × String) → List (Char × String)
  | [] => [(letter, root)]
  | (l, r) :: rest =>
    if letter < l then (letter, root) :: (l, r) :: rest
    else if letter = l then (letter, root) :: rest
    else (l, r) :: insertInto letter root rest

theorem mem_insertInto {letter : Char} {root : String} {entries : List (Char × String)}
    {entry : Char × String} (h : entry ∈ insertInto letter root entries) :
    entry = (letter, root) ∨ entry ∈ entries := by
  induction entries with
  | nil => simpa [insertInto] using h
  | cons first rest ih =>
      simp only [insertInto] at h
      split at h
      · simpa using h
      · split at h
        · rcases List.mem_cons.mp h with h | h
          · exact .inl h
          · exact .inr (List.mem_cons_of_mem _ h)
        · rcases List.mem_cons.mp h with h | h
          · exact .inr (h ▸ List.mem_cons_self)
          · exact (ih h).imp_right (List.mem_cons_of_mem _)

theorem pairwise_insertInto (letter : Char) (root : String) {entries : List (Char × String)}
    (h : entries.Pairwise (·.1 < ·.1)) : (insertInto letter root entries).Pairwise (·.1 < ·.1) := by
  induction entries with
  | nil => simp [insertInto]
  | cons first rest ih =>
      obtain ⟨hfirst, hrest⟩ := List.pairwise_cons.mp h
      simp only [insertInto]
      split
      · rename_i hlt
        refine List.pairwise_cons.mpr ⟨?_, h⟩
        intro entry hentry
        rcases List.mem_cons.mp hentry with rfl | hentry
        · exact hlt
        · exact Char.lt_trans hlt (hfirst entry hentry)
      · rename_i hnot
        split
        · rename_i heq
          refine List.pairwise_cons.mpr ⟨?_, hrest⟩
          intro entry hentry
          exact heq ▸ hfirst entry hentry
        · rename_i hne
          refine List.pairwise_cons.mpr ⟨?_, ih hrest⟩
          intro entry hentry
          rcases mem_insertInto hentry with rfl | hentry
          · exact Char.not_le.mp fun hle => hne (Char.le_antisymm hle (Char.not_lt.mp hnot))
          · exact hfirst entry hentry

/-- Gives a letter a root, in the place of the root it has. -/
def insert (drives : Assignments) (letter : Char) (root : String) : Assignments :=
  ⟨insertInto letter root drives.entries, pairwise_insertInto letter root drives.increasing⟩

end Assignments

structure Config where
  default : Char
  drives : Assignments
  deriving DecidableEq

namespace Config

/-! ## Reading -/

structure Parts where
  default? : Option Char
  drives? : Option Assignments

/-- The configuration of the given parts. A missing letter is A, missing roots are none. -/
def ofParts (parts : Parts) : Config :=
  ⟨parts.default?.getD 'A', parts.drives?.getD .empty⟩

def rootMembers : Json.Members Assignments where
  complaint? _ key :=
    if (Json.singleChar? key).isSome then none else some (.wrongText key "a character")
  value drives key s := do
    let (root, rest) ← Json.readText "path string" s
    match Json.singleChar? key with
    | some letter => .ok (drives.insert letter root, rest)
    | none => .ok (drives, rest)

def readDrives (s : List Char) : Except Json.Stop (Assignments × List Char) :=
  match Json.skipBlanks s with
  | [] => Json.stopAt .endInValue []
  | '{' :: rest => Json.readObject rootMembers .empty rest
  | s => .error (Json.complain "a map" s)

def members : Json.Members Parts where
  complaint? parts key :=
    if key = "default" ∧ parts.default?.isSome then some (.repeated key)
    else if key = "drives" ∧ parts.drives?.isSome then some (.repeated key)
    else none
  value parts key s :=
    if key = "default" then do
      let (letter, rest) ← Json.readChar s
      .ok ({ parts with default? := some letter }, rest)
    else if key = "drives" then do
      let (drives, rest) ← readDrives s
      .ok ({ parts with drives? := some drives }, rest)
    else do
      .ok (parts, ← Json.skipValue s)

/-- A configuration written as a list, behind the opening bracket. -/
def readList (s : List Char) : Except Json.Stop (Parts × List Char) := do
  match ← Json.nextElement true s with
  | (false, rest) => .ok (⟨none, none⟩, ← Json.endList rest)
  | (true, rest) =>
    let (letter, rest) ← Json.readChar rest
    match ← Json.nextElement false rest with
    | (false, rest) => .ok (⟨some letter, none⟩, ← Json.endList rest)
    | (true, rest) =>
      let (drives, rest) ← readDrives rest
      .ok (⟨some letter, some drives⟩, ← Json.endList rest)

def readParts (s : List Char) : Except Json.Stop (Parts × List Char) :=
  match Json.skipBlanks s with
  | [] => Json.stopAt .endInValue []
  | '{' :: rest => Json.readObject members ⟨none, none⟩ rest
  | '[' :: rest => readList rest
  | s => .error (Json.complain "struct DriveMapConfig" s)

/-- The configuration that is the whole of a text. -/
def readAll (s : List Char) : Except Json.Stop Config := do
  let (parts, rest) ← readParts s
  Json.endText rest
  .ok (ofParts parts)

/-- The configuration that a text spells, or the first problem in it. -/
def parse (text : String) : Except Json.Fault Config :=
  (readAll text.toList).mapError fun stop => stop.locate text.toList

/-! ## Writing -/

def writeEntry (entry : Char × String) : List Char :=
  Json.writeString (String.singleton entry.1) ++ ':' :: Json.writeString entry.2

def write (config : Config) : String :=
  String.ofList
    ('{' :: Json.writeString "default" ++
      ':' :: Json.writeString (String.singleton config.default) ++
      ',' :: Json.writeString "drives" ++ [':', '{'] ++
      ((config.drives.entries.map writeEntry).intersperse [',']).flatten ++ ['}', '}'])

end Config

/-! ## Building a map -/

namespace DriveMap

/-- Mounts letters one after the other, up to the first that names no drive. -/
def mountAll (map : DriveMap) : List (Char × String) → Except Failure Unit × DriveMap
  | [] => (.ok (), map)
  | (letter, root) :: rest =>
    match map.mount letter (.ofText root) with
    | (.ok (), next) => next.mountAll rest
    | refused => refused

/-- The map of a configuration. The current drive is set first, then letters are mounted in order.
A map that could not be finished is dropped. -/
def ofConfig (config : Config) : Except Failure DriveMap := do
  let (current, map) := empty.setCurrent config.default
  current
  let (mounted, map) := map.mountAll config.drives.entries
  mounted
  return map

/-- The map that is configured in a file of the host. -/
def load (host : Host) (path : Path) : Logged (Except Failure DriveMap) :=
  match readText host path with
  | .error fault => return .error (.unreadable fault)
  | .ok text =>
    match Config.parse text with
    | .error fault => return .error (.badConfig fault)
    | .ok config => do
      Logged.write .debug
        ("loaded " ++ config.drives.entries.length.repr ++ " drive(s) from " ++ path.shown)
      return ofConfig config

end DriveMap

end GuestFiles
