import GuestFiles.Proofs.ControlBlock.Groups
import Mathlib.Algebra.Group.Nat.Defs
import Mathlib.Logic.Function.Iterate

/-! # Moving the two positions

S2, EX and CR are the digits of a record number, of 7, 5 and 7 bits. A block in memory may hold
larger digits, but each move writes proper ones, so that advancing record by record comes to the
same block as one move. R0, R1 and R2 are the bytes of a record number, and all bytes are proper
there. -/

namespace GuestFiles.ControlBlock

/-! ## The digits of a position -/

theorem toNat_recordSize : recordSize.toNat = 128 := rfl

theorem toNat_extentSize : extentSize.toNat = 16384 := rfl

theorem toNat_extentGroupSize : extentGroupSize.toNat = 524288 := rfl

theorem toNat_group (b : ControlBlock) : b.group.toNat = b.s2.toNat % 128 := by
  rw [group, UInt8.toNat_and]
  exact Nat.and_two_pow_sub_one_eq_mod b.s2.toNat 7

/-- The largest digits that three bytes can hold do not overflow the offset. -/
theorem toNat_offset (b : ControlBlock) :
    b.offset.toNat = b.s2.toNat % 128 * 524288 + b.ex.toNat * 16384 + b.cr.toNat * 128 := by
  have hex := b.ex.toNat_lt
  have hcr := b.cr.toNat_lt
  simp only [offset, UInt32.toNat_add, UInt32.toNat_mul, UInt8.toNat_toUInt32, toNat_group,
    toNat_recordSize, toNat_extentSize, toNat_extentGroupSize]
  omega

theorem toNat_s2_seek (b : ControlBlock) (offset : UInt32) :
    (b.seek offset).s2.toNat = offset.toNat / 524288 % 128 := by
  have hmask := Nat.and_two_pow_sub_one_eq_mod (offset / extentGroupSize).toUInt8.toNat 7
  rw [seek_eq, UInt8.toNat_and]
  refine hmask.trans ?_
  simp only [UInt32.toNat_toUInt8, UInt32.toNat_div, toNat_extentGroupSize]
  omega

theorem toNat_ex_seek (b : ControlBlock) (offset : UInt32) :
    (b.seek offset).ex.toNat = offset.toNat / 16384 % 32 := by
  simp only [seek_eq, UInt32.toNat_toUInt8, UInt32.toNat_div, UInt32.toNat_mod, toNat_extentSize,
    toNat_extentGroupSize]
  omega

theorem toNat_cr_seek (b : ControlBlock) (offset : UInt32) :
    (b.seek offset).cr.toNat = offset.toNat / 128 % 128 := by
  simp only [seek_eq, UInt32.toNat_toUInt8, UInt32.toNat_div, UInt32.toNat_mod, toNat_recordSize,
    toNat_extentSize]
  omega

/-- A move keeps the last 19 bits of the record number, and no part of a record. -/
theorem toNat_offset_seek (b : ControlBlock) (offset : UInt32) :
    (b.seek offset).offset.toNat = offset.toNat / 128 % 2 ^ 19 * 128 := by
  rw [toNat_offset, toNat_s2_seek, toNat_ex_seek, toNat_cr_seek]
  omega

/-! ## Moves -/

@[simp] theorem seek_seek (b : ControlBlock) (first second : UInt32) :
    (b.seek first).seek second = b.seek second := by
  rw [seek_eq, seek_eq, seek_eq]

theorem seek_congr (b : ControlBlock) {offset other : UInt32}
    (h : offset.toNat / 128 % 2 ^ 19 = other.toNat / 128 % 2 ^ 19) :
    b.seek offset = b.seek other := by
  have hs2 : (b.seek offset).s2 = (b.seek other).s2 := by
    rw [← UInt8.toNat_inj, toNat_s2_seek, toNat_s2_seek]
    omega
  have hex : (b.seek offset).ex = (b.seek other).ex := by
    rw [← UInt8.toNat_inj, toNat_ex_seek, toNat_ex_seek]
    omega
  have hcr : (b.seek offset).cr = (b.seek other).cr := by
    rw [← UInt8.toNat_inj, toNat_cr_seek, toNat_cr_seek]
    omega
  exact ControlBlock.ext rfl rfl rfl hex rfl hs2 rfl rfl hcr rfl rfl rfl

theorem advance_seek (b : ControlBlock) (offset : UInt32) :
    (b.seek offset).advance = b.seek (offset + recordSize) := by
  rw [advance, seek_seek]
  apply seek_congr
  simp only [UInt32.toNat_add, toNat_offset_seek, toNat_recordSize]
  omega

/-- The first step brings the digits into range; every further one moves from an offset that a move
has written. -/
theorem iterate_advance_succ (b : ControlBlock) (k : Nat) :
    advance^[k + 1] b = b.seek (UInt32.ofNat (b.offset.toNat + 128 * (k + 1))) := by
  induction k with
  | zero =>
      rw [Function.iterate_one, advance]
      apply seek_congr
      simp only [UInt32.toNat_add, UInt32.toNat_ofNat', toNat_recordSize]
  | succ k ih =>
      rw [Function.iterate_succ_apply', ih, advance_seek]
      -- 2 ^ 32 is a multiple of 2 ^ 26, so the wrap of the words does not show
      apply seek_congr
      simp only [UInt32.toNat_add, UInt32.toNat_ofNat', toNat_recordSize]
      omega

theorem seekRecord_record_add (b : ControlBlock) (k : Nat) :
    b.seekRecord (UInt32.ofNat (b.record.toNat + k)) =
      b.seek (UInt32.ofNat (b.offset.toNat + 128 * k)) := by
  have hoffset := b.toNat_offset
  apply seek_congr
  simp only [record, UInt32.toNat_mul, UInt32.toNat_div, UInt32.toNat_ofNat', toNat_recordSize]
  omega

/-- A move writes S2, EX and CR. -/
theorem getElem?_image_seek (b : ControlBlock) (offset : UInt32) {i : Nat}
    (hi : i ≠ 12 ∧ i ≠ 14 ∧ i ≠ 32) : (b.seek offset).image[i]? = b.image[i]? := by
  have hother : (Edit.seek offset).group ≠ Group.ofOffset i := by
    intro hgroup
    have hplace := (Group.ofOffset_eq_sequential_iff i).mp hgroup.symm
    omega
  exact getElem?_image_congr (part_edit_of_ne b hother)

/-- Advancing record by record is one move by that many records. -/
theorem iterate_advance (b : ControlBlock) {k : Nat} (hk : 1 ≤ k) :
    advance^[k] b = b.seekRecord (UInt32.ofNat (b.record.toNat + k)) ∧
      (advance^[k] b).offset.toNat = (b.offset.toNat + 128 * k) % 2 ^ 26 ∧
      (advance^[k] b).s2 < 128 ∧ (advance^[k] b).ex < 32 ∧ (advance^[k] b).cr < 128 ∧
      ∀ i, i ≠ 12 ∧ i ≠ 14 ∧ i ≠ 32 → (advance^[k] b).image[i]? = b.image[i]? := by
  obtain ⟨n, rfl⟩ : ∃ n, k = n + 1 := ⟨k - 1, by omega⟩
  have hoffset := b.toNat_offset
  rw [iterate_advance_succ]
  refine ⟨(b.seekRecord_record_add (n + 1)).symm, ?_, ?_, ?_, ?_, ?_⟩
  · rw [toNat_offset_seek, UInt32.toNat_ofNat']
    omega
  · rw [UInt8.lt_iff_toNat_lt, toNat_s2_seek]
    exact Nat.mod_lt _ (by decide)
  · rw [UInt8.lt_iff_toNat_lt, toNat_ex_seek]
    exact Nat.mod_lt _ (by decide)
  · rw [UInt8.lt_iff_toNat_lt, toNat_cr_seek]
    exact Nat.mod_lt _ (by decide)
  · exact fun i hi => getElem?_image_seek b _ hi

/-- Three steps from digits that are too large, past the last group. -/
theorem iterate_advance_wraps :
    1 ≤ 3 ∧ (advance^[3] (ofImage (Vector.replicate 36 0xFF))).offset.toNat = 3686656 ∧
      (advance^[3] (ofImage (Vector.replicate 36 0xFF))).image[13]? = some 0xFF := by
  obtain ⟨-, hoffset, -, -, -, hkept⟩ :=
    iterate_advance (ofImage (Vector.replicate 36 0xFF)) (show 1 ≤ 3 by decide)
  refine ⟨by decide, hoffset.trans (by decide +kernel), (hkept 13 (by decide)).trans ?_⟩
  rw [image_ofImage]
  rfl

/-! ## Storing a position -/

/-- The digits of the sequential position are in their ranges. -/
structure Normal (b : ControlBlock) : Prop where
  s2 : b.s2 < 128
  ex : b.ex < 32
  cr : b.cr < 128

/-- Every move writes digits in their ranges. -/
theorem normal_seek (b : ControlBlock) (offset : UInt32) : (b.seek offset).Normal where
  s2 := by
    rw [UInt8.lt_iff_toNat_lt, toNat_s2_seek]
    exact Nat.mod_lt _ (by decide)
  ex := by
    rw [UInt8.lt_iff_toNat_lt, toNat_ex_seek]
    exact Nat.mod_lt _ (by decide)
  cr := by
    rw [UInt8.lt_iff_toNat_lt, toNat_cr_seek]
    exact Nat.mod_lt _ (by decide)

/-- Digits in their ranges are those of the offset that they make. -/
theorem seek_offset_of_normal {b : ControlBlock} (h : b.Normal) : b.seek b.offset = b := by
  have hs2 : b.s2.toNat < 128 := UInt8.lt_iff_toNat_lt.mp h.s2
  have hex : b.ex.toNat < 32 := UInt8.lt_iff_toNat_lt.mp h.ex
  have hcr : b.cr.toNat < 128 := UInt8.lt_iff_toNat_lt.mp h.cr
  have hoffset := b.toNat_offset
  have hs2' : (b.seek b.offset).s2 = b.s2 := by
    rw [← UInt8.toNat_inj, toNat_s2_seek]
    omega
  have hex' : (b.seek b.offset).ex = b.ex := by
    rw [← UInt8.toNat_inj, toNat_ex_seek]
    omega
  have hcr' : (b.seek b.offset).cr = b.cr := by
    rw [← UInt8.toNat_inj, toNat_cr_seek]
    omega
  have hwrites : b.seek b.offset =
      { b with
        s2 := (b.seek b.offset).s2
        ex := (b.seek b.offset).ex
        cr := (b.seek b.offset).cr } := by
    rw [seek_eq]
  rw [hwrites, hs2', hex', hcr']

theorem seek_offset_eq_self_iff (b : ControlBlock) : b.seek b.offset = b ↔ b.Normal := by
  constructor
  · intro h
    rw [← h]
    exact normal_seek b b.offset
  · exact seek_offset_of_normal

theorem image_inj {b c : ControlBlock} : b.image = c.image ↔ b = c := by
  constructor
  · intro h
    rw [← ofImage_image b, h, ofImage_image]
  · exact congrArg image

theorem toNat_record_seekRecord (b : ControlBlock) (n : UInt32) :
    (b.seekRecord n).record.toNat = n.toNat % 2 ^ 19 := by
  rw [record, UInt32.toNat_div, seekRecord, toNat_offset_seek, UInt32.toNat_mul, toNat_recordSize]
  omega

/-- An offset that is stored reads as its last 26 bits without the remainder within a record, and a
record number as its last 19 bits. The offset of a block stored again leaves the block as it was
exactly when its digits are in their ranges. No sum on the way leaves 32 bits, whatever the digits,
and the offset is a whole number of records. -/
theorem seek_exact (b : ControlBlock) :
    (∀ offset : UInt32,
      (b.seek offset).offset.toNat = offset.toNat % 2 ^ 26 - offset.toNat % 128 ∧
        (b.seek offset).Normal) ∧
    (∀ n : UInt32, (b.seekRecord n).record.toNat = n.toNat % 2 ^ 19) ∧
    ((b.seek b.offset).image = b.image ↔ b.Normal) ∧
    (b.group.toNat * 524288 + b.ex.toNat * 16384 + b.cr.toNat * 128 < 2 ^ 32 ∧
      b.offset.toNat = b.group.toNat * 524288 + b.ex.toNat * 16384 + b.cr.toNat * 128) ∧
    (b.offset.toNat + 128 < 2 ^ 32 ∧ (b.offset + recordSize).toNat = b.offset.toNat + 128) ∧
    b.record.toNat * 128 = b.offset.toNat := by
  have hoffset := b.toNat_offset
  have hex := b.ex.toNat_lt
  have hcr := b.cr.toNat_lt
  refine ⟨?_, b.toNat_record_seekRecord, ?_, ⟨?_, ?_⟩, ⟨?_, ?_⟩, ?_⟩
  · intro offset
    refine ⟨?_, b.normal_seek offset⟩
    rw [toNat_offset_seek]
    omega
  · rw [image_inj, seek_offset_eq_self_iff]
  · rw [toNat_group]
    omega
  · rw [hoffset, toNat_group]
  · omega
  · rw [UInt32.toNat_add, toNat_recordSize]
    omega
  · rw [record, UInt32.toNat_div, toNat_recordSize]
    omega

/-! ## The random position -/

section Random

variable (b : ControlBlock) (n : UInt32)

/-- Three bytes do not overflow the word they are put together in. -/
theorem toNat_random : b.random.toNat = b.r0.toNat + b.r1.toNat * 256 + b.r2.toNat * 65536 := by
  have h0 := b.r0.toNat_lt
  have h1 := b.r1.toNat_lt
  have h2 := b.r2.toNat_lt
  simp only [random, UInt32.toNat_add, UInt32.toNat_mul, UInt8.toNat_toUInt32, UInt32.reduceToNat]
  omega

theorem toNat_r0_setRandom : (b.setRandom n).r0.toNat = n.toNat % 256 := by
  simp [setRandom]

theorem toNat_r1_setRandom : (b.setRandom n).r1.toNat = n.toNat / 256 % 256 := by
  simp [setRandom, Nat.shiftRight_eq_div_pow]

theorem toNat_r2_setRandom : (b.setRandom n).r2.toNat = n.toNat / 65536 % 256 := by
  simp [setRandom, Nat.shiftRight_eq_div_pow]

theorem toNat_random_setRandom : (b.setRandom n).random.toNat = n.toNat % 2 ^ 24 := by
  rw [toNat_random, toNat_r0_setRandom, toNat_r1_setRandom, toNat_r2_setRandom]
  omega

/-- Setting the random position writes R0, R1 and R2. -/
theorem getElem?_image_setRandom {i : Nat} (hi : i < 33 ∨ 36 ≤ i) :
    (b.setRandom n).image[i]? = b.image[i]? := by
  rcases hi with hi | hi
  · have hgroup : ∀ i < 33, Group.random ≠ Group.ofOffset i := by decide
    have hother : (Edit.random n).group ≠ Group.ofOffset i := hgroup i hi
    exact getElem?_image_congr (part_edit_of_ne b hother)
  · rw [Vector.getElem?_eq_none hi, Vector.getElem?_eq_none hi]

end Random

end GuestFiles.ControlBlock
