import GuestFiles.Proofs.Drive.Run
import GuestFiles.Proofs.Search.Filter
import GuestFiles.Proofs.Search.Subtree

/-! # Drives as directories of one root

Where each drive has the directory below one root that is named by its letter, a search of the drive
answers the part of a search of the whole root that lies there. -/

namespace GuestFiles

open Host

namespace Drive

variable (drive : Drive)

/-- The name of the directory that stands for a drive. -/
def directory : Name :=
  Text.bytes (String.singleton drive.letter)

theorem directory_eq : drive.directory = [0x41 + drive.val.toUInt8] := by
  revert drive
  decide

theorem length_directory_le : drive.directory.length ≤ maxName := by
  simp [directory_eq, maxName]

theorem zero_not_mem_directory : 0 ∉ drive.directory := by
  revert drive
  decide

end Drive

namespace DriveMap

variable {root : Path} {drive : Drive} {letter : Char}

theorem root_single (h : letter.toUpper = drive.letter) : (single root).root letter = .ok root := by
  have hroot : (single root).rootOf? drive = some root := by
    simp [rootOf?, single]
  rw [root_of_toUpper_eq _ h, hroot]

theorem root_perDrive (h : letter.toUpper = drive.letter) :
    (perDrive root).root letter = .ok (root.join drive.directory) := by
  have hroot : (perDrive root).rootOf? drive = some (root.join drive.directory) := by
    simp [rootOf?, perDrive, Drive.directory_eq]
  rw [root_of_toUpper_eq _ h, hroot]

theorem findOn_of_root {map : DriveMap} (h : map.root letter = .ok root) (host : Host)
    (pattern : ControlBlock) :
    (map.findOn host letter pattern).value = (search pattern root host).value := by
  simp only [findOn, h, Logged.bind_value]

/-- A search of the directory of a drive answers the hits of the whole root that are that directory
or lie below it. Where a file stands in the place of the directory and the pattern rejects it, its
path can be too long to be asked for, and then the search of the drive alone fails. -/
theorem findOn_perDrive {disk : Disk} (hwf : disk.top.WellFormed) (pattern : ControlBlock)
    (hletter : letter.toUpper = drive.letter) {entries : Listing} {linked : Bool}
    (hroot : disk.host root = .ok ⟨.dir entries, linked⟩) {node : Node}
    (hget : entries.get? drive.directory = some node) (hnode : ∀ target, node ≠ .link target)
    {hits : List Hit} (hsearch : (search pattern root disk.host).value = .ok hits) :
    ((single root).findOn disk.host letter pattern).value = .ok hits ∧
    ((root.join drive.directory).fits →
      ((perDrive root).findOn disk.host letter pattern).value =
        .ok (Hit.within (root.join drive.directory) hits)) ∧
    (¬(root.join drive.directory).fits →
      (∃ content, node = .file content) ∧
        pattern.accepts (guestName drive.directory) = false ∧
        ((perDrive root).findOn disk.host letter pattern).value =
          .error (.traversal (root.join drive.directory) (root.join drive.directory) 0
            .nameTooLong)) := by
  obtain ⟨reached, hreached⟩ : ∃ reached, node.reached? = some reached := by
    cases node with
    | file content => exact ⟨_, rfl⟩
    | link target => exact absurd rfl (hnode target)
    | dir inner => exact ⟨_, rfl⟩
  have hjoin := search_join hwf hroot hget hreached drive.length_directory_le
    drive.zero_not_mem_directory hsearch
  rw [findOn_of_root (root_single hletter), findOn_of_root (root_perDrive hletter), hjoin]
  refine ⟨hsearch, fun hfits => if_pos hfits, fun hlong => ?_⟩
  obtain ⟨hfile, hrejected⟩ := file_rejected_of_not_fits hwf hroot hget hreached hsearch hlong
  exact ⟨hfile, hrejected, if_neg hlong⟩

/-- A directory for drive A, a file in the place of the one for drive B, and a link in the place of
the one for drive C. -/
def driveEntries : Listing :=
  .dir [0x41] (.dir [0x73] (.file (Text.bytes "x.com") (.zeros 1) .empty) .empty)
    (.file [0x42] (.zeros 2) (.link [0x43] ⟨[0x41]⟩ (.file [0x44, 0x44] (.zeros 3) .empty)))

/-- The directory as `cpm` in a directory at the top, and a link `l` to it in the working directory
beside. -/
def driveTree : Disk :=
  ⟨.dir (Text.bytes "srv") (.dir (Text.bytes "cpm") driveEntries .empty)
      (.dir (Text.bytes "w") (.link (Text.bytes "l") (.ofText "/srv/cpm") .empty) .empty),
    [Text.bytes "w"], rfl⟩

/-- What stands at drive A and at drive B, from the link and from the top. -/
theorem findOn_perDrive_linked_root :
    driveTree.top.WellFormed ∧
      ((single (.ofText "l/")).findOn driveTree.host 'a' (.parse "*.*")).value =
        .ok [⟨.ofText "l/A/s/x.com", "X.COM", 1⟩, ⟨.ofText "l/B", "B", 2⟩,
          ⟨.ofText "l/DD", "DD", 3⟩] ∧
      ((perDrive (.ofText "l/")).findOn driveTree.host 'a' (.parse "*.*")).value =
        .ok [⟨.ofText "l/A/s/x.com", "X.COM", 1⟩] ∧
      ((single (.ofText "/srv/cpm")).findOn driveTree.host 'B' (.parse "b")).value =
        .ok [⟨.ofText "/srv/cpm/B", "B", 2⟩] ∧
      ((perDrive (.ofText "/srv/cpm")).findOn driveTree.host 'B' (.parse "b")).value =
        .ok [⟨.ofText "/srv/cpm/B", "B", 2⟩] := by
  have hwf : driveTree.top.WellFormed := by decide +kernel
  have hlinked : driveTree.host (.ofText "l/") = .ok ⟨.dir driveEntries, false⟩ := rfl
  have habsolute : driveTree.host (.ofText "/srv/cpm") = .ok ⟨.dir driveEntries, false⟩ := rfl
  have hall : (search (.parse "*.*") (.ofText "l/") driveTree.host).value =
      .ok [⟨.ofText "l/A/s/x.com", "X.COM", 1⟩, ⟨.ofText "l/B", "B", 2⟩,
        ⟨.ofText "l/DD", "DD", 3⟩] := rfl
  have hone : (search (.parse "b") (.ofText "/srv/cpm") driveTree.host).value =
      .ok [⟨.ofText "/srv/cpm/B", "B", 2⟩] := rfl
  have hA : 'a'.toUpper = Drive.letter 0 := by decide
  have hB : 'B'.toUpper = Drive.letter 1 := by decide
  obtain ⟨hroot, hdir, -⟩ := findOn_perDrive hwf (.parse "*.*") hA hlinked rfl (by simp) hall
  obtain ⟨hroot', hfile, -⟩ := findOn_perDrive hwf (.parse "b") hB habsolute rfl (by simp) hone
  exact ⟨hwf, hroot, hdir (by decide), hroot', hfile (by decide)⟩

theorem not_fits_join_longRoot {name : Name} (h : name ≠ []) : ¬(longRoot.join name).fits := by
  have hstem := longRoot.length_le_length_stem
  have hlength : longRoot.bytes.length = 4095 := by simp [longRoot, length_dots]
  have hname := List.length_pos_iff.mpr h
  rw [← Path.below_singleton]
  simp only [Path.fits, Path.below, List.intercalate_singleton, List.length_append,
    Path.maxLength, decide_eq_true_eq]
  omega

/-- Below a root of 4095 bytes, a search of the whole root passes over the file that stands for
drive A, and a search of the drive fails. -/
theorem findOn_perDrive_long_root :
    smallTree.top.WellFormed ∧
      smallTree.host longRoot = .ok ⟨.dir (.file [0x41] (.zeros 1) .empty), false⟩ ∧
      (Listing.file [0x41] (.zeros 1) .empty).get? (Drive.directory 0) = some (.file (.zeros 1)) ∧
      (search (.parse "B") longRoot smallTree.host).value = .ok [] ∧
      ((single longRoot).findOn smallTree.host 'A' (.parse "B")).value = .ok [] ∧
      ((perDrive longRoot).findOn smallTree.host 'A' (.parse "B")).value =
        .error (.traversal (longRoot.join [0x41]) (longRoot.join [0x41]) 0 .nameTooLong) := by
  have hwf : smallTree.top.WellFormed := by decide
  have hrejected : (ControlBlock.parse "B").accepts (guestName [0x41]) = false := by
    decide +kernel
  have hsearch : (search (.parse "B") longRoot smallTree.host).value = .ok [] := by
    rw [search_of_ok host_longRoot]
    exact examineAll_walk_rejected hrejected
  have hlong : ¬(longRoot.join [0x41]).fits := not_fits_join_longRoot (by decide)
  have hupper : 'A'.toUpper = Drive.letter 0 := by decide
  have hget : (Listing.file [0x41] (.zeros 1) .empty).get? (Drive.directory 0) =
      some (.file (.zeros 1)) := rfl
  have hjoin := search_join hwf host_longRoot hget rfl (Drive.length_directory_le 0)
    (Drive.zero_not_mem_directory 0) hsearch
  refine ⟨hwf, host_longRoot, hget, hsearch, ?_, ?_⟩
  · rw [findOn_of_root (root_single hupper), hsearch]
  · rw [findOn_of_root (root_perDrive hupper), hjoin]
    exact if_neg hlong

end DriveMap

end GuestFiles
