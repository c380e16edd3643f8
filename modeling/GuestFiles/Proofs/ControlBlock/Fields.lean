import GuestFiles.ControlBlock.Pattern
import GuestFiles.Proofs.Text.Uppercase
import Mathlib.Data.List.Forall2

/-! # The fields of typed names and of names on the host

A typed segment fills its field: it is cut at the width, and a star takes the rest. A segment of a
name on the host is only padded, and a name with a longer segment has no fields. The two agree on
segments that are short enough and have no star. -/

namespace GuestFiles.ControlBlock

/-- The bytes of a text before its first dot, and those after it. -/
def segments (text : String) : List UInt8 × List UInt8 :=
  Text.splitFirst dotByte (Text.bytes text)

/-- A segment with spaces up to the width of its field. -/
def padded (width : Nat) (segment : List UInt8) : List UInt8 :=
  segment ++ List.replicate (width - segment.length) space

/-- In upper case the text has at most 8 bytes before its first dot and at most 3 after it. -/
structure Fits (text : String) : Prop where
  base : (segments (Text.upper text)).1.length ≤ 8
  extension : (segments (Text.upper text)).2.length ≤ 3

/-- Two texts have the same padded fields in upper case. -/
structure SameFields (a b : String) : Prop where
  base : padded 8 (segments (Text.upper a)).1 = padded 8 (segments (Text.upper b)).1
  extension : padded 3 (segments (Text.upper a)).2 = padded 3 (segments (Text.upper b)).2

/-! ## Segments -/

theorem isMark_dot : Text.IsMark '.' := ⟨by decide, by decide⟩

theorem isMark_star : Text.IsMark '*' := ⟨by decide, by decide⟩

theorem isMark_any : Text.IsMark '?' := ⟨by decide, by decide⟩

/-- Cutting at the dot commutes with encoding. -/
theorem segments_ofList (cs : List Char) :
    segments (String.ofList cs) =
      (Text.bytes (String.ofList (Text.splitFirst '.' cs).1),
        Text.bytes (String.ofList (Text.splitFirst '.' cs).2)) :=
  Text.splitFirst_bytes isMark_dot.ascii cs

/-- Cutting at the dot commutes with upper-casing. -/
theorem segments_upper (text : String) :
    segments (Text.upper text) =
      (Text.bytes (Text.upper (String.ofList (Text.splitFirst '.' text.toList).1)),
        Text.bytes (Text.upper (String.ofList (Text.splitFirst '.' text.toList).2))) := by
  have hparts := Text.splitFirst_upper isMark_dot text
  rw [← String.ofList_toList (s := Text.upper text), segments_ofList, hparts]
  simp only [Text.upper, String.toList_ofList]

/-- Every byte but the dot stands in one of the segments. -/
theorem mem_bytes_iff_mem_segments {b : UInt8} (h : b ≠ dotByte) (text : String) :
    b ∈ Text.bytes text ↔ b ∈ (segments text).1 ∨ b ∈ (segments text).2 :=
  Text.mem_iff_mem_splitFirst h _

theorem star_mem_iff (text : String) :
    '*' ∈ text.toList ↔ starByte ∈ (segments text).1 ∨ starByte ∈ (segments text).2 := by
  rw [← mem_bytes_iff_mem_segments (by decide), ← Text.mem_bytes_iff isMark_star.ascii]
  rfl

theorem any_mem_iff (text : String) :
    '?' ∈ text.toList ↔ anyByte ∈ (segments text).1 ∨ anyByte ∈ (segments text).2 := by
  rw [← mem_bytes_iff_mem_segments (by decide), ← Text.mem_bytes_iff isMark_any.ascii]
  rfl

/-! ## Padding -/

@[simp] theorem padded_zero (segment : List UInt8) : padded 0 segment = segment := by
  simp [padded]

@[simp] theorem padded_succ_nil (width : Nat) :
    padded (width + 1) [] = space :: padded width [] := by
  simp [padded, List.replicate_succ]

@[simp] theorem padded_succ_cons (width : Nat) (b : UInt8) (rest : List UInt8) :
    padded (width + 1) (b :: rest) = b :: padded width rest := by
  simp [padded]

theorem length_padded {width : Nat} {segment : List UInt8} (h : segment.length ≤ width) :
    (padded width segment).length = width := by
  simp [padded, h]

theorem mem_padded_of_mem {b : UInt8} {segment : List UInt8} (h : b ∈ segment) (width : Nat) :
    b ∈ padded width segment :=
  List.mem_append_left _ h

/-- Padding adds nothing but spaces. -/
theorem mem_padded {b : UInt8} {width : Nat} {segment : List UInt8} (h : b ∈ padded width segment) :
    b ∈ segment ∨ b = space := by
  rcases List.mem_append.mp h with hmem | hmem
  · exact .inl hmem
  · exact .inr (List.eq_of_mem_replicate hmem)

theorem pad?_eq_some_iff {width : Nat} {segment : List UInt8} {field : Vector UInt8 width} :
    pad? width segment = some field ↔
      segment.length ≤ width ∧ field.toList = padded width segment := by
  by_cases h : segment.length ≤ width
  · rw [pad?, dif_pos h, Option.some_inj, ← Vector.toList_inj]
    simp [padded, h, eq_comm]
  · simp [pad?, h]

/-- A name has fields exactly when it fits, and they are its padded segments. -/
theorem fieldsOf?_eq_some_iff {candidate : String} {name : Vector UInt8 8}
    {extension : Vector UInt8 3} :
    fieldsOf? candidate = some (name, extension) ↔
      Fits candidate ∧ name.toList = padded 8 (segments (Text.upper candidate)).1 ∧
        extension.toList = padded 3 (segments (Text.upper candidate)).2 := by
  have hsegments : Text.splitFirst dotByte (Text.bytes (Text.upper candidate)) =
      segments (Text.upper candidate) := rfl
  simp only [fieldsOf?, hsegments]
  cases hbase : pad? 8 (segments (Text.upper candidate)).1 with
  | none =>
      have hlong : ¬(segments (Text.upper candidate)).1.length ≤ 8 := by
        simpa [pad?] using hbase
      simp only [reduceCtorEq, false_iff]
      exact fun h => hlong h.1.base
  | some n =>
      obtain ⟨hn, hnpad⟩ := pad?_eq_some_iff.mp hbase
      cases hext : pad? 3 (segments (Text.upper candidate)).2 with
      | none =>
          have hlong : ¬(segments (Text.upper candidate)).2.length ≤ 3 := by
            simpa [pad?] using hext
          simp only [reduceCtorEq, false_iff]
          exact fun h => hlong h.1.extension
      | some e =>
          obtain ⟨he, hepad⟩ := pad?_eq_some_iff.mp hext
          simp only [Option.some_inj, Prod.mk.injEq, ← hnpad, ← hepad, Vector.toList_inj]
          constructor
          · rintro ⟨rfl, rfl⟩
            exact ⟨⟨hn, he⟩, rfl, rfl⟩
          · rintro ⟨-, rfl, rfl⟩
            exact ⟨rfl, rfl⟩

/-- A name that fits has fields. -/
theorem exists_fieldsOf?_of_fits {candidate : String} (h : Fits candidate) :
    ∃ name extension, fieldsOf? candidate = some (name, extension) ∧
      name.toList = padded 8 (segments (Text.upper candidate)).1 ∧
      extension.toList = padded 3 (segments (Text.upper candidate)).2 := by
  let name : Vector UInt8 8 :=
    ⟨(padded 8 (segments (Text.upper candidate)).1).toArray, by simpa using length_padded h.base⟩
  let extension : Vector UInt8 3 :=
    ⟨(padded 3 (segments (Text.upper candidate)).2).toArray,
      by simpa using length_padded h.extension⟩
  exact ⟨name, extension, fieldsOf?_eq_some_iff.mpr ⟨h, rfl, rfl⟩, rfl, rfl⟩

/-! ## Acceptance by position -/

/-- Whether a byte of a pattern agrees with a byte of a name. -/
def ByteAgrees (p c : UInt8) : Prop :=
  plain p = anyByte ∨ plain p = c

theorem agrees_iff {width : Nat} (pattern name : Vector UInt8 width) :
    agrees pattern name = true ↔ List.Forall₂ ByteAgrees pattern.toList name.toList := by
  rw [List.forall₂_iff_zip, agrees, List.all_eq_true]
  simp only [Vector.length_toList, true_and, Bool.or_eq_true, beq_iff_eq, Prod.forall, ByteAgrees]

/-- A block accepts the names that fit and whose padded segments agree with its fields. -/
theorem accepts_iff (pattern : ControlBlock) (candidate : String) :
    pattern.accepts candidate = true ↔
      Fits candidate ∧
        List.Forall₂ ByteAgrees pattern.name.toList
          (padded 8 (segments (Text.upper candidate)).1) ∧
        List.Forall₂ ByteAgrees pattern.extension.toList
          (padded 3 (segments (Text.upper candidate)).2) := by
  constructor
  · intro h
    unfold accepts at h
    split at h
    · next name extension heq =>
        obtain ⟨hfits, hname, hextension⟩ := fieldsOf?_eq_some_iff.mp heq
        rw [Bool.and_eq_true, agrees_iff, agrees_iff, hname, hextension] at h
        exact ⟨hfits, h⟩
    · exact absurd h (by simp)
  · rintro ⟨hfits, hagree⟩
    obtain ⟨name, extension, heq, hname, hextension⟩ := exists_fieldsOf?_of_fits hfits
    rw [← hname, ← hextension] at hagree
    rw [accepts, heq, Bool.and_eq_true, agrees_iff, agrees_iff]
    exact hagree

theorem fits_of_accepts {pattern : ControlBlock} {candidate : String}
    (h : pattern.accepts candidate = true) : Fits candidate :=
  ((accepts_iff pattern candidate).mp h).1

/-! ## Filling -/

@[simp] theorem toList_field (width : Nat) (segment : List UInt8) :
    (field width segment).toList = fill width segment := rfl

/-- Filling only pads a segment that is short enough and has no star. -/
theorem fill_eq_padded {width : Nat} {segment : List UInt8} (h : segment.length ≤ width)
    (hstar : starByte ∉ segment) : fill width segment = padded width segment := by
  induction width generalizing segment with
  | zero =>
      obtain rfl := List.length_eq_zero_iff.mp (Nat.le_zero.mp h)
      rfl
  | succ width ih =>
      cases segment with
      | nil =>
          have hrest : fill width [] = padded width [] := ih (Nat.zero_le width) hstar
          rw [padded_succ_nil, fill, hrest]
      | cons b rest =>
          obtain ⟨hb, hrest⟩ := List.ne_and_not_mem_of_not_mem_cons hstar
          rw [padded_succ_cons, fill, if_neg hb.symm, ih (Nat.le_of_succ_le_succ h) hrest]

/-- The first star of a segment that is short enough shows as a question mark once the segment fills
its field. -/
theorem exists_any_of_star_mem {width : Nat} {segment : List UInt8} (h : segment.length ≤ width)
    (hstar : starByte ∈ segment) :
    ∃ i : Nat, (fill width segment)[i]? = some anyByte ∧
      (padded width segment)[i]? = some starByte := by
  induction width generalizing segment with
  | zero =>
      obtain rfl := List.length_eq_zero_iff.mp (Nat.le_zero.mp h)
      exact absurd hstar List.not_mem_nil
  | succ width ih =>
      cases segment with
      | nil => exact absurd hstar List.not_mem_nil
      | cons b rest =>
          by_cases hb : b = starByte
          · exact ⟨0, by simp [fill, hb, List.replicate_succ], by simp [hb]⟩
          · have hrest : starByte ∈ rest := (List.mem_cons.mp hstar).resolve_left (Ne.symm hb)
            obtain ⟨i, hfill, hpad⟩ := ih (Nat.le_of_succ_le_succ h) hrest
            exact ⟨i + 1, by simpa [fill, hb] using hfill, by simpa using hpad⟩

end GuestFiles.ControlBlock
