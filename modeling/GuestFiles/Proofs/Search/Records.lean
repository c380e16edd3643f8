import GuestFiles.Proofs.ControlBlock.Groups
import GuestFiles.Search.Hit
import Mathlib.Algebra.Group.Nat.Defs
import Mathlib.Order.Bounds.Basic

/-! # The records of an entry

A size is divided by the size of a record and rounded up, and the entry of a hit counts the records
up to one full extent. The words and the byte on the way are large enough for every size, and making
an entry writes nothing but the name, the extension and this count. -/

namespace GuestFiles

open ControlBlock

namespace Hit

variable (hit : Hit)

/-! ## Rounding up -/

/-- The sum stays within 64 bits, also for the largest size. -/
theorem toNat_records :
    hit.records.toNat = hit.size.toNat / 128 + if hit.size.toNat % 128 = 0 then 0 else 1 := by
  have hsize := hit.size.toNat_lt
  have hzero : hit.size % 128 = 0 ↔ hit.size.toNat % 128 = 0 := by
    rw [← UInt64.toNat_inj, UInt64.toNat_mod]
    rfl
  have hdiv : (hit.size / 128).toNat = hit.size.toNat / 128 := UInt64.toNat_div ..
  rw [records, UInt64.toNat_add, hdiv]
  split
  case isTrue h =>
    rw [if_pos (hzero.mp h), UInt64.toNat_zero]
    omega
  case isFalse h =>
    rw [if_neg fun hmod => h (hzero.mpr hmod), UInt64.toNat_one]
    omega

/-- A number of records is enough for the size exactly when it is at least that of the hit. -/
theorem size_le_iff (r : Nat) : hit.size.toNat ≤ 128 * r ↔ hit.records.toNat ≤ r := by
  rw [toNat_records]
  split <;> omega

theorem isLeast_records : IsLeast {r : Nat | hit.size.toNat ≤ 128 * r} hit.records.toNat :=
  ⟨(hit.size_le_iff _).mpr (Nat.le_refl _), fun _ hr => (hit.size_le_iff _).mp hr⟩

/-! ## The bytes of an entry -/

/-- The count is capped before it becomes a byte, so nothing of it is cut off. -/
theorem toNat_rc_entry : hit.entry.rc.toNat = min hit.records.toNat 128 := by
  have hmin : (min hit.records maxEntryRecords).toNat = min hit.records.toNat 128 :=
    UInt64.toNat_min ..
  have hrc : hit.entry.rc = (min hit.records maxEntryRecords).toUInt8 := rfl
  rw [hrc, UInt64.toNat_toUInt8, hmin]
  omega

theorem rc_entry_lt_iff : hit.entry.rc < 128 ↔ hit.size.toNat ≤ 127 * 128 := by
  rw [UInt8.lt_iff_toNat_lt, toNat_rc_entry, Nat.mul_comm, size_le_iff]
  simp only [UInt8.reduceToNat]
  omega

/-- An entry is a blank block that was given a name, an extension and a count of records. -/
theorem part_entry {g : Group} (hname : Group.name ≠ g) (hextension : Group.extension ≠ g)
    (hrc : Group.rc ≠ g) : hit.entry.part g = blank.part g := by
  obtain ⟨base, extension, hrun⟩ : ∃ base extension, hit.entry =
      blank.run [.name base, .extension extension, .rc hit.entry.rc] :=
    ⟨_, _, rfl⟩
  rw [hrun, part_run_filter _ rfl]
  simp [Edit.group, hname, hextension, hrc, run]

theorem image_entry_of_zero {i : Nat} (hi : i < 36) (hplace : i = 0 ∨ 12 ≤ i ∧ i ≠ 15) :
    hit.entry.image[i]? = some 0 := by
  have hgroup : ∀ i < 36, i = 0 ∨ 12 ≤ i ∧ i ≠ 15 →
      .name ≠ Group.ofOffset i ∧ .extension ≠ Group.ofOffset i ∧ .rc ≠ Group.ofOffset i := by
    decide
  have hblank : ∀ i < 36, i = 0 ∨ 12 ≤ i ∧ i ≠ 15 → blank.image[i]? = some 0 := by
    decide
  obtain ⟨hname, hextension, hrc⟩ := hgroup i hi hplace
  rw [getElem?_image_congr (hit.part_entry hname hextension hrc), hblank i hi hplace]

/-- The number of records of a hit is the least that its size fits into, and the sum that makes it
is exact. In the entry RC is this number up to 128, which is less than 128 exactly when the size is
at most that of 127 records. The drive is 0, and so is every other byte outside name and extension,
whatever the name. -/
theorem entry_exact :
    IsLeast {r : Nat | hit.size.toNat ≤ 128 * r} hit.records.toNat ∧
    hit.records.toNat = hit.size.toNat / 128 + (if hit.size.toNat % 128 = 0 then 0 else 1) ∧
    hit.entry.rc.toNat = min hit.records.toNat 128 ∧
    hit.entry.image[15]? = some hit.entry.rc ∧
    (∀ i < 36, i = 0 ∨ 12 ≤ i ∧ i ≠ 15 → hit.entry.image[i]? = some 0) ∧
    (hit.entry.rc < 128 ↔ hit.size.toNat ≤ 127 * 128) := by
  have hplace : hit.entry.image[15]? = some hit.entry.rc := by
    rw [getElem?_image, getElem?_bytes]
    rfl
  exact ⟨hit.isLeast_records, hit.toNat_records, hit.toNat_rc_entry, hplace,
    fun i hi hplace => hit.image_entry_of_zero hi hplace, hit.rc_entry_lt_iff⟩

/-- The largest size, under a name with a star, a long character and two dots. -/
theorem entry_exact_largest :
    let hit : Hit := ⟨.ofText "a", "*€.b.c", 0xFFFFFFFFFFFFFFFF⟩
    hit.records.toNat = 2 ^ 57 ∧ hit.entry.image[15]? = some 128 ∧
      hit.entry.image[0]? = some 0 ∧ hit.entry.image[35]? = some 0 ∧ ¬hit.entry.rc < 128 := by
  intro hit
  obtain ⟨-, hrecords, hrc, hplace, hzero, hless⟩ := hit.entry_exact
  have hexact : hit.records.toNat = 2 ^ 57 := hrecords.trans (by decide +kernel)
  have hbyte : hit.entry.rc = 128 := by
    rw [← UInt8.toNat_inj, hrc, hexact]
    decide
  refine ⟨hexact, hplace.trans (congrArg some hbyte), hzero 0 (by decide) (by decide),
    hzero 35 (by decide) (by decide), ?_⟩
  rw [hless]
  decide

end Hit

end GuestFiles
