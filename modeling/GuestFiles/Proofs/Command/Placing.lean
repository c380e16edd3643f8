import GuestFiles.Proofs.Command.Listing
import GuestFiles.Proofs.Command.Spelled
import GuestFiles.Proofs.ControlBlock.Position

/-! # Positions on the command line

A position is stored as far as the bytes for it go. The block that is printed has the bytes of the
typed name otherwise, and there is a warning for exactly the numbers of which something is lost. -/

namespace GuestFiles.Command

open Host ControlBlock

namespace Position

/-! ## What is stored -/

/-- What is stored of a position: an offset without the remainder within a record, or a record
number, and both without the bits that are too high. -/
def stored : Position → Nat
  | .sequential offset => offset.toNat % 2 ^ 26 - offset.toNat % 128
  | .random record => record.toNat % 2 ^ 24

/-- Something of the position gets lost. -/
def Lossy : Position → Prop
  | .sequential offset => 2 ^ 26 ≤ offset.toNat ∨ ¬128 ∣ offset.toNat
  | .random record => 2 ^ 24 ≤ record.toNat

instance (position : Position) : Decidable position.Lossy :=
  match position with
  | .sequential offset => inferInstanceAs (Decidable (2 ^ 26 ≤ offset.toNat ∨ ¬128 ∣ offset.toNat))
  | .random record => inferInstanceAs (Decidable (2 ^ 24 ≤ record.toNat))

/-- What is said of a position of which something gets lost. -/
def warning (position : Position) : String :=
  match position with
  | .sequential offset =>
    "offset " ++ offset.toNat.repr ++ " is stored as " ++ position.stored.repr
  | .random record => "record " ++ record.toNat.repr ++ " truncated to 24 bits"

/-- The bytes of an image that hold a position: S2, EX and CR, or R0, R1 and R2 with the low byte
first. -/
def byte? (position : Position) (i : Nat) : Option UInt8 :=
  match position with
  | .sequential _ =>
    if i = 14 then some (position.stored / 524288).toUInt8
    else if i = 12 then some (position.stored / 16384 % 32).toUInt8
    else if i = 32 then some (position.stored / 128 % 128).toUInt8
    else none
  | .random _ =>
    if 33 ≤ i ∧ i < 36 then some (position.stored / 256 ^ (i - 33)).toUInt8 else none

/-- A block moved to a position. -/
def move (position : Position) (b : ControlBlock) : ControlBlock :=
  match position with
  | .sequential offset => b.seek offset
  | .random record => b.setRandom record

/-- Something is lost exactly when another number is stored than the one that is given. -/
theorem lossy_iff (position : Position) :
    position.Lossy ↔ position.stored ≠ position.given.toNat := by
  cases position with
  | sequential offset =>
      simp only [Lossy, stored, given]
      omega
  | random record =>
      simp only [Lossy, stored, given]
      omega

/-- The fields that hold an offset, as numbers of bytes. -/
theorem fields_move_sequential (offset : UInt32) (b : ControlBlock) :
    let moved := (sequential offset).move b
    moved.s2 = ((sequential offset).stored / 524288).toUInt8 ∧
      moved.ex = ((sequential offset).stored / 16384 % 32).toUInt8 ∧
      moved.cr = ((sequential offset).stored / 128 % 128).toUInt8 := by
  simp only [move, stored, ← UInt8.toNat_inj, toNat_s2_seek, toNat_ex_seek, toNat_cr_seek,
    Nat.toUInt8_eq, UInt8.toNat_ofNat']
  omega

theorem fields_move_random (record : UInt32) (b : ControlBlock) :
    let moved := (random record).move b
    moved.r0 = ((random record).stored / 256 ^ 0).toUInt8 ∧
      moved.r1 = ((random record).stored / 256 ^ 1).toUInt8 ∧
      moved.r2 = ((random record).stored / 256 ^ 2).toUInt8 := by
  simp only [move, stored, ← UInt8.toNat_inj, toNat_r0_setRandom, toNat_r1_setRandom,
    toNat_r2_setRandom, Nat.toUInt8_eq, UInt8.toNat_ofNat']
  omega

/-- A move writes the bytes of the position, and no others. -/
theorem getElem?_image_move (position : Position) (b : ControlBlock) (i : Nat) :
    (position.move b).image[i]? = (position.byte? i).or b.image[i]? := by
  have hbyte := (getElem?_image (position.move b) i).trans (getElem?_bytes (position.move b) i)
  cases position with
  | sequential offset =>
      obtain ⟨hs2, hex, hcr⟩ := fields_move_sequential offset b
      by_cases hi : i = 12 ∨ i = 14 ∨ i = 32
      · rcases hi with rfl | rfl | rfl
        · exact hbyte.trans (congrArg some hex)
        · exact hbyte.trans (congrArg some hs2)
        · exact hbyte.trans (congrArg some hcr)
      · simp only [not_or] at hi
        rw [byte?, if_neg hi.2.1, if_neg hi.1, if_neg hi.2.2, Option.none_or]
        exact b.getElem?_image_seek offset hi
  | random record =>
      obtain ⟨h0, h1, h2⟩ := fields_move_random record b
      by_cases hi : 33 ≤ i ∧ i < 36
      · obtain rfl | rfl | rfl : i = 33 ∨ i = 34 ∨ i = 35 := by omega
        · exact hbyte.trans (congrArg some h0)
        · exact hbyte.trans (congrArg some h1)
        · exact hbyte.trans (congrArg some h2)
      · rw [byte?, if_neg hi, Option.none_or]
        exact b.getElem?_image_setRandom record (by omega)

theorem toNat_offset_move (offset : UInt32) (b : ControlBlock) :
    ((sequential offset).move b).offset.toNat = (sequential offset).stored := by
  rw [move, toNat_offset_seek, stored]
  omega

theorem toNat_random_move (record : UInt32) (b : ControlBlock) :
    ((random record).move b).random.toNat = (random record).stored :=
  b.toNat_random_setRandom record

end Position

/-! ## Outcomes -/

theorem warn_if {α : Type} (c : Prop) [Decidable c] (message : String) (a : α) :
    (do
      if c then Logged.write .warn message
      return a) = (⟨a, if c then [⟨.warn, message⟩] else []⟩ : Logged α) := by
  by_cases h : c
  · simp only [if_pos h]
    rfl
  · simp only [if_neg h]
    rfl

/-- The warning is written for a number that does not read back as it was given. -/
theorem placeBlock_eq (name : String) (position : Position) :
    placeBlock name position =
      ⟨position.move (.parse name),
        if position.Lossy then [⟨.warn, position.warning⟩] else []⟩ := by
  cases position with
  | sequential offset =>
      have hstored := Position.toNat_offset_move offset (.parse name)
      have hlossy : ((ControlBlock.parse name).seek offset).offset ≠ offset ↔
          (Position.sequential offset).Lossy := by
        rw [Position.lossy_iff, ← hstored, ne_eq, ← UInt32.toNat_inj]
        rfl
      simp only [placeBlock, warn_if, hlossy, Position.warning, ← hstored]
      rfl
  | random record =>
      have hstored := Position.toNat_random_move record (.parse name)
      have hlossy : ((ControlBlock.parse name).setRandom record).random ≠ record ↔
          (Position.random record).Lossy := by
        rw [Position.lossy_iff, ← hstored, ne_eq, ← UInt32.toNat_inj]
        rfl
      simp only [placeBlock, warn_if, hlossy, Position.warning]
      rfl

theorem printBlock_eq_append (b : ControlBlock) :
    ∃ fields, printBlock b = fields ++ Text.hexDump b.image.toList :=
  ⟨_, rfl⟩

theorem printLog_warn (trace : Bool) (message : String) :
    printLog trace [⟨.warn, message⟩] = ["[WARN] " ++ message] := by
  cases trace <;> rfl

theorem run_offset (host : Host) (trace : Bool) (name : String) (position : Position) :
    run host ⟨trace, .offset name position⟩ =
      ⟨0, unlines (printBlock (position.move (.parse name))),
        if position.Lossy then ["[WARN] " ++ position.warning] else []⟩ := by
  simp only [run, placeBlock_eq]
  split
  · rw [printLog_warn]
  · rfl

end GuestFiles.Command
