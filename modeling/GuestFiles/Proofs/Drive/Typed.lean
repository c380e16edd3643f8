import GuestFiles.Drive.Map
import GuestFiles.Proofs.ControlBlock.Prefix

/-! # Where typed names are searched for

A search by a typed name reads the drive off the name as it is typed, a search by its control block
off the drive byte. They search the same drive, but for the letter A: its drive byte is that of a
name without a drive, and stands for the current drive. -/

namespace GuestFiles

namespace Drive

theorem letterOf_toUInt8 (drive : Drive) : letterOf drive.val.toUInt8 = .ok drive.letter := by
  have hval : ∀ drive : Drive, drive.val.toUInt8.toNat = drive.val := by
    decide
  rw [letterOf, dif_pos (by rw [hval]; exact drive.isLt)]
  simp only [hval]

theorem typedLetter?_of_ne {text : String} (h : text.toList[1]? ≠ some ':') :
    typedLetter? text = none := by
  unfold typedLetter?
  split
  · next letter rest heq => exact absurd (by simp [heq]) h
  · rfl

theorem typedLetter?_of_eq {text : String} {letter : Char} {rest : List Char}
    (h : text.toList = letter :: ':' :: rest) : typedLetter? text = some letter := by
  simp only [typedLetter?, h]

end Drive

namespace DriveMap

variable (map : DriveMap) (host : Host)

/-! ## By the drive byte -/

theorem find_of_zero {pattern : ControlBlock} (h : pattern.drive = 0) :
    map.find host pattern = map.findOn host map.current.letter pattern := by
  simp only [find, letterFor, if_pos h]

theorem find_of_drive {pattern : ControlBlock} {drive : Drive}
    (h : pattern.drive = drive.val.toUInt8) (hdrive : drive ≠ 0) :
    map.find host pattern = map.findOn host drive.letter pattern := by
  have hzero : ∀ drive : Drive, drive ≠ 0 → drive.val.toUInt8 ≠ 0 := by
    decide
  have hletter : map.letterFor pattern = .ok drive.letter := by
    rw [letterFor, h, if_neg (hzero drive hdrive), Drive.letterOf_toUInt8]
  simp only [find, hletter]

/-! ## By the typed name -/

theorem findTyped_of_ne {text : String} (h : text.toList[1]? ≠ some ':') :
    map.findTyped host text = map.findOn host map.current.letter (.parse text) := by
  simp only [findTyped, typedDrive, Drive.typedLetter?_of_ne h]

section Typed

variable {text : String} {letter : Char} {rest : List Char}
  (htext : text.toList = letter :: ':' :: rest)

include htext

theorem findTyped_of_toUpper_eq {drive : Drive} (h : letter.toUpper = drive.letter) :
    map.findTyped host text = map.findOn host drive.letter (.parse text) := by
  simp only [findTyped, typedDrive, Drive.typedLetter?_of_eq htext,
    Drive.ofLetter_of_toUpper_eq h]

theorem findTyped_of_not_named (h : ¬Drive.Named letter) :
    map.findTyped host text = pure (.error (.invalidDrive letter)) := by
  simp only [findTyped, typedDrive, Drive.typedLetter?_of_eq htext, Drive.ofLetter_of_not_named h]

end Typed

/-- A typed name without a colon in the second place is searched for on the current drive. With a
letter from A to P in front of the colon it is searched for on that drive, whatever the current
drive is, and its control block is too, except that the block of a name on A is searched for on the
current drive. Any other character in front of the colon is refused without a search. -/
theorem findTyped_drive (text : String) :
    (text.toList[1]? ≠ some ':' →
      map.findTyped host text = map.find host (.parse text) ∧
      map.find host (.parse text) = map.findOn host map.current.letter (.parse text)) ∧
    ∀ letter rest, text.toList = letter :: ':' :: rest →
      (Drive.Named letter →
        (∀ current : Drive, findTyped { map with current } host text =
          map.findOn host letter.toUpper (.parse text)) ∧
        ((letter.toUpper = 'A' → map.current.letter = 'A') →
          map.findTyped host text = map.find host (.parse text)) ∧
        (letter.toUpper = 'A' →
          map.find host (.parse text) = map.findOn host map.current.letter (.parse text))) ∧
      (¬Drive.Named letter →
        map.findTyped host text = pure (.error (.invalidDrive letter))) := by
  refine ⟨?_, ?_⟩
  · intro hcolon
    have hfind := map.find_of_zero host (ControlBlock.drive_parse_of_ne hcolon)
    exact ⟨(map.findTyped_of_ne host hcolon).trans hfind.symm, hfind⟩
  · intro letter rest htext
    refine ⟨?_, map.findTyped_of_not_named host htext⟩
    intro hnamed
    obtain ⟨drive, hdrive⟩ := (Drive.named_iff_exists letter).mp hnamed
    have hbyte := ControlBlock.drive_parse_of_toUpper_eq htext hdrive
    have htyped := map.findTyped_of_toUpper_eq host htext hdrive
    have hA : letter.toUpper = 'A' ↔ drive = 0 := by
      rw [hdrive]
      exact Drive.letter_inj (b := 0)
    have hfind : letter.toUpper = 'A' →
        map.find host (.parse text) = map.findOn host map.current.letter (.parse text) := by
      intro hletter
      apply find_of_zero
      rw [hbyte, hA.mp hletter]
      rfl
    refine ⟨?_, ?_, hfind⟩
    · intro current
      rw [hdrive]
      exact findTyped_of_toUpper_eq _ host htext hdrive
    · intro hcurrent
      -- the drive byte of A says the same as that of a name without a drive
      by_cases hletter : letter.toUpper = 'A'
      · rw [htyped, hfind hletter, hcurrent hletter, ← hdrive, hletter]
      · rw [htyped, map.find_of_drive host hbyte (mt hA.mpr hletter)]

/-- The directories of four drives, each with a file `x` of its own size. -/
def fourDrives : Host.Disk :=
  .around (.dir (Text.bytes "r")
    (.dir (Text.bytes "A") (.file (Text.bytes "x") (.zeros 1) .empty)
      (.dir (Text.bytes "B") (.file (Text.bytes "x") (.zeros 2) .empty)
        (.dir (Text.bytes "D") (.file (Text.bytes "x") (.zeros 4) .empty)
          (.dir (Text.bytes "I") (.file (Text.bytes "x") (.zeros 9) .empty) .empty)))) .empty)

/-- While D is the current drive: a name without a drive, one on drive A, whose block is searched
for on D, one on drive B, and one behind a letter whose upper case names drive I. -/
theorem findTyped_drive_dotless :
    let atD : DriveMap := { perDrive (.ofText "r") with current := 3 }
    let host := fourDrives.host
    let onD : List Hit := [⟨.ofText "r/D/x", "X", 4⟩]
    ("x".toList[1]? ≠ some ':' ∧ (atD.findTyped host "x").value = .ok onD ∧
      (atD.find host (.parse "x")).value = .ok onD) ∧
    ("a:x".toList = ['a', ':', 'x'] ∧ Drive.Named 'a' ∧
      (atD.findTyped host "a:x").value = .ok [⟨.ofText "r/A/x", "X", 1⟩] ∧
      (atD.find host (.parse "a:x")).value = .ok onD) ∧
    ("b:x".toList = ['b', ':', 'x'] ∧ Drive.Named 'b' ∧
      (atD.findTyped host "b:x").value = .ok [⟨.ofText "r/B/x", "X", 2⟩] ∧
      atD.findTyped host "b:x" = atD.find host (.parse "b:x")) ∧
    ("ı:x".toList = ['ı', ':', 'x'] ∧ ¬Drive.Named 'ı' ∧
      atD.findTyped host "ı:x" = pure (.error (.invalidDrive 'ı'))) := by
  intro atD host onD
  obtain ⟨hnone, -⟩ := findTyped_drive atD host "x"
  obtain ⟨-, ha⟩ := findTyped_drive atD host "a:x"
  obtain ⟨-, hb⟩ := findTyped_drive atD host "b:x"
  obtain ⟨-, hdotless⟩ := findTyped_drive atD host "ı:x"
  have hx : "x".toList[1]? ≠ some ':' := by decide
  obtain ⟨hread, hcurrent⟩ := hnone hx
  obtain ⟨htyped, -, hblock⟩ := (ha 'a' ['x'] rfl).1 (by decide)
  obtain ⟨hlettered, hsame, -⟩ := (hb 'b' ['x'] rfl).1 (by decide)
  refine ⟨⟨hx, ?_, ?_⟩, ⟨rfl, by decide, ?_, ?_⟩, ⟨rfl, by decide, ?_, hsame (by decide)⟩,
    rfl, by decide, (hdotless 'ı' ['x'] rfl).2 (by decide)⟩
  · rw [hread, hcurrent]
    rfl
  · rw [hcurrent]
    rfl
  · exact congrArg Logged.value (htyped 3)
  · rw [hblock (by decide)]
    rfl
  · exact congrArg Logged.value (hlettered 3)

end DriveMap

end GuestFiles
