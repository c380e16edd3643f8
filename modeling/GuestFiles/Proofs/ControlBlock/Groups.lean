import GuestFiles.ControlBlock.Name
import GuestFiles.ControlBlock.Position
import Mathlib.Tactic.SplitIfs

/-! # Groups of bytes that operations keep apart

The bytes of a block fall into eight groups, and each operation belongs to one of them. It leaves
the bytes of the others alone, and what it writes depends on its own group only, so that a run of
operations does to a group what those of the group do by themselves. -/

namespace GuestFiles.ControlBlock

/-- The parts of a block that change independently. -/
inductive Group where
  | drive
  | name
  | extension
  | s1
  | rc
  | allocation
  /-- EX, S2 and CR. -/
  | sequential
  /-- R0, R1 and R2. -/
  | random
  deriving DecidableEq

/-- The group of the byte at an offset. -/
def Group.ofOffset (i : Nat) : Group :=
  if i = 0 then .drive
  else if i < 9 then .name
  else if i < 12 then .extension
  else if i = 12 ∨ i = 14 ∨ i = 32 then .sequential
  else if i = 13 then .s1
  else if i = 15 then .rc
  else if i < 32 then .allocation
  else .random

theorem Group.ofOffset_eq_sequential_iff (i : Nat) :
    ofOffset i = .sequential ↔ i = 12 ∨ i = 14 ∨ i = 32 := by
  constructor
  · intro h
    unfold ofOffset at h
    split_ifs at h
    assumption
  · rintro (rfl | rfl | rfl) <;> rfl

/-- An operation on one group of a block, with its arguments. -/
inductive Edit where
  | drive (value : UInt8)
  | rawName (value : Vector UInt8 8)
  | name (text : String)
  | rawExtension (value : Vector UInt8 3)
  | extension (text : String)
  | s1 (value : UInt8)
  | rc (value : UInt8)
  | allocation (value : Vector UInt8 16)
  | ex (value : UInt8)
  | s2 (value : UInt8)
  | cr (value : UInt8)
  | seek (offset : UInt32)
  | seekRecord (n : UInt32)
  | advance
  | random (n : UInt32)
  deriving DecidableEq

/-- The group that an operation belongs to. -/
def Edit.group : Edit → Group
  | .drive _ => .drive
  | .rawName _ | .name _ => .name
  | .rawExtension _ | .extension _ => .extension
  | .s1 _ => .s1
  | .rc _ => .rc
  | .allocation _ => .allocation
  | .ex _ | .s2 _ | .cr _ | .seek _ | .seekRecord _ | .advance => .sequential
  | .random _ => .random

/-- The block after an operation. -/
def edit (b : ControlBlock) : Edit → ControlBlock
  | .drive value => b.setDrive value
  | .rawName value => b.setRawName value
  | .name text => b.setName text
  | .rawExtension value => b.setRawExtension value
  | .extension text => b.setExtension text
  | .s1 value => b.setS1 value
  | .rc value => b.setRc value
  | .allocation value => b.setAllocation value
  | .ex value => b.setEx value
  | .s2 value => b.setS2 value
  | .cr value => b.setCr value
  | .seek offset => b.seek offset
  | .seekRecord n => b.seekRecord n
  | .advance => b.advance
  | .random n => b.setRandom n

/-- The block after operations, first to last. -/
def run (b : ControlBlock) (edits : List Edit) : ControlBlock :=
  edits.foldl edit b

/-! ## The bytes of a group -/

/-- The bytes of a group. -/
def part (b : ControlBlock) : Group → List UInt8
  | .drive => [b.drive]
  | .name => b.name.toList
  | .extension => b.extension.toList
  | .s1 => [b.s1]
  | .rc => [b.rc]
  | .allocation => b.allocation.toList
  | .sequential => [b.ex, b.s2, b.cr]
  | .random => [b.r0, b.r1, b.r2]

/-- Each byte of a block lies in its group, at the same place in every block. -/
theorem exists_place (i : Nat) :
    ∃ j : Nat, ∀ b : ControlBlock, b.image[i]? = (b.part (Group.ofOffset i))[j]? := by
  have hbyte := fun b : ControlBlock => (getElem?_image b i).trans (getElem?_bytes b i)
  by_cases hdrive : i < 1
  · obtain rfl : i = 0 := by omega
    exact ⟨0, hbyte⟩
  have hne : i ≠ 0 := by omega
  by_cases hname : i < 9
  · refine ⟨i - 1, fun b => ?_⟩
    simp [hbyte, Group.ofOffset, part, hne, hname]
  by_cases hextension : i < 12
  · refine ⟨i - 9, fun b => ?_⟩
    simp [hbyte, Group.ofOffset, part, hne, hname, hextension]
  by_cases hmiddle : i < 16
  · obtain rfl | rfl | rfl | rfl : i = 12 ∨ i = 13 ∨ i = 14 ∨ i = 15 := by omega
    · exact ⟨0, hbyte⟩
    · exact ⟨0, hbyte⟩
    · exact ⟨1, hbyte⟩
    · exact ⟨0, hbyte⟩
  have hs1 : i ≠ 13 := by omega
  have hrc : i ≠ 15 := by omega
  by_cases hcr : i = 32
  · subst hcr
    exact ⟨2, hbyte⟩
  have hsequential : ¬(i = 12 ∨ i = 14 ∨ i = 32) := by omega
  by_cases hallocation : i < 32
  · refine ⟨i - 16, fun b => ?_⟩
    simp [hbyte, Group.ofOffset, part, hne, hname, hextension, hmiddle, hsequential, hs1, hrc,
      hallocation]
  · refine ⟨i - 33, fun b => ?_⟩
    have hplace : i - 32 = i - 33 + 1 := by omega
    simp [hbyte, Group.ofOffset, part, hne, hname, hextension, hmiddle, hsequential, hs1, hrc,
      hallocation, hplace]

theorem getElem?_image_congr {b c : ControlBlock} {i : Nat}
    (h : b.part (Group.ofOffset i) = c.part (Group.ofOffset i)) : b.image[i]? = c.image[i]? := by
  obtain ⟨j, hj⟩ := exists_place i
  rw [hj, hj, h]

theorem part_sequential_eq_iff {b c : ControlBlock} :
    b.part .sequential = c.part .sequential ↔ b.ex = c.ex ∧ b.s2 = c.s2 ∧ b.cr = c.cr := by
  simp only [part, List.cons.injEq, and_true]

theorem offset_congr {b c : ControlBlock} (h : b.part .sequential = c.part .sequential) :
    b.offset = c.offset := by
  obtain ⟨hex, hs2, hcr⟩ := part_sequential_eq_iff.mp h
  rw [offset, offset, group, group, hex, hs2, hcr]

theorem random_congr {b c : ControlBlock} (h : b.part .random = c.part .random) :
    b.random = c.random := by
  simp only [part, List.cons.injEq, and_true] at h
  obtain ⟨h0, h1, h2⟩ := h
  rw [random, random, h0, h1, h2]

/-- The block with the bytes of one group taken from another block. -/
def adopt (b : ControlBlock) (g : Group) (c : ControlBlock) : ControlBlock :=
  match g with
  | .drive => { b with drive := c.drive }
  | .name => { b with name := c.name }
  | .extension => { b with extension := c.extension }
  | .s1 => { b with s1 := c.s1 }
  | .rc => { b with rc := c.rc }
  | .allocation => { b with allocation := c.allocation }
  | .sequential => { b with ex := c.ex, s2 := c.s2, cr := c.cr }
  | .random => { b with r0 := c.r0, r1 := c.r1, r2 := c.r2 }

theorem part_adopt_of_ne (b c : ControlBlock) {g g' : Group} (h : g ≠ g') :
    (b.adopt g c).part g' = b.part g' := by
  cases g <;> cases g' <;> first | rfl | exact absurd rfl h

/-! ## One operation -/

theorem seek_eq_adopt (b : ControlBlock) (offset : UInt32) :
    b.seek offset = b.adopt .sequential (b.seek offset) := by
  rw [seek_eq, adopt]

/-- An operation changes its group at most. -/
theorem edit_eq_adopt (b : ControlBlock) (e : Edit) : b.edit e = b.adopt e.group (b.edit e) := by
  cases e with
  | seek offset => exact b.seek_eq_adopt offset
  | advance => exact b.seek_eq_adopt (b.offset + recordSize)
  | _ => rfl

theorem part_edit_of_ne (b : ControlBlock) {e : Edit} {g : Group} (h : e.group ≠ g) :
    (b.edit e).part g = b.part g := by
  rw [edit_eq_adopt, part_adopt_of_ne _ _ h]

/-- What an operation makes of its group depends on that group only. -/
theorem part_edit_congr {b c : ControlBlock} {e : Edit} (h : b.part e.group = c.part e.group) :
    (b.edit e).part e.group = (c.edit e).part e.group := by
  -- the named cases keep or read some of their group, the others overwrite it
  cases e with
  | advance =>
      change (b.seek (b.offset + recordSize)).part .sequential =
        (c.seek (c.offset + recordSize)).part .sequential
      rw [offset_congr h]
      rfl
  | ex value =>
      obtain ⟨-, hs2, hcr⟩ := part_sequential_eq_iff.mp h
      exact part_sequential_eq_iff.mpr ⟨rfl, hs2, hcr⟩
  | s2 value =>
      obtain ⟨hex, -, hcr⟩ := part_sequential_eq_iff.mp h
      exact part_sequential_eq_iff.mpr ⟨hex, rfl, hcr⟩
  | cr value =>
      obtain ⟨hex, hs2, -⟩ := part_sequential_eq_iff.mp h
      exact part_sequential_eq_iff.mpr ⟨hex, hs2, rfl⟩
  | _ => rfl

/-! ## Runs -/

/-- Two blocks that agree on a group agree on it after a run, also when one of them leaves out what
belongs to the other groups. -/
theorem part_run_filter {b c : ControlBlock} {g : Group} (edits : List Edit)
    (h : b.part g = c.part g) :
    (b.run edits).part g = (c.run (edits.filter (·.group = g))).part g := by
  induction edits generalizing b c with
  | nil => exact h
  | cons e edits ih =>
      by_cases hgroup : e.group = g
      · subst hgroup
        rw [List.filter_cons_of_pos (by simp)]
        exact ih (part_edit_congr h)
      · rw [List.filter_cons_of_neg (by simpa using hgroup)]
        exact ih ((part_edit_of_ne b hgroup).trans h)

/-- After a run from any 36 bytes, the byte at each offset is what the operations of its group alone
make of it. Without one of these it is as it was, and the two positions do not meet. -/
theorem image_run (v : Vector UInt8 36) (edits : List Edit) :
    (∀ i : Nat, ((ofImage v).run edits).image[i]? =
      ((ofImage v).run (edits.filter (·.group = Group.ofOffset i))).image[i]?) ∧
    (∀ i : Nat, (∀ e ∈ edits, e.group ≠ Group.ofOffset i) →
      ((ofImage v).run edits).image[i]? = v[i]?) ∧
    ((ofImage v).run edits).offset =
      ((ofImage v).run (edits.filter (·.group = .sequential))).offset ∧
    ((ofImage v).run edits).random =
      ((ofImage v).run (edits.filter (·.group = .random))).random := by
  have hbyte : ∀ i : Nat, ((ofImage v).run edits).image[i]? =
      ((ofImage v).run (edits.filter (·.group = Group.ofOffset i))).image[i]? :=
    fun i => getElem?_image_congr (part_run_filter edits rfl)
  refine ⟨hbyte, ?_, offset_congr (part_run_filter edits rfl),
    random_congr (part_run_filter edits rfl)⟩
  intro i hi
  have hnone : edits.filter (·.group = Group.ofOffset i) = [] := by
    simpa [List.filter_eq_nil_iff] using hi
  rw [hbyte, hnone]
  exact congrArg (·[i]?) (image_ofImage v)

/-- S1 and the allocation map of a block whose bytes count upwards, after changes of its name and of
both positions. -/
theorem image_run_counting :
    let v : Vector UInt8 36 := Vector.ofFn fun i => i.val.toUInt8
    let edits : List Edit :=
      [.name "new", .seek 300, .random 7, .rawExtension #v[1, 2, 3], .advance]
    (∀ i ∈ 13 :: List.range' 16 16, ∀ e ∈ edits, e.group ≠ Group.ofOffset i) ∧
      ∀ i ∈ 13 :: List.range' 16 16, ((ofImage v).run edits).image[i]? = v[i]? := by
  intro v edits
  have hother : ∀ i ∈ 13 :: List.range' 16 16, ∀ e ∈ edits, e.group ≠ Group.ofOffset i := by
    decide
  exact ⟨hother, fun i hi => (image_run v edits).2.1 i (hother i hi)⟩

end GuestFiles.ControlBlock
