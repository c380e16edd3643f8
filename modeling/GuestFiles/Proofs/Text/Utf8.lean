import GuestFiles.Text.Split
import GuestFiles.Text.Utf8
import Mathlib.Algebra.Group.Nat.Defs
import Mathlib.Tactic.ByContra
import Mathlib.Tactic.SplitIfs

/-! # Marks in encoded text

A character is encoded as a first byte, which tells how many bytes follow, and the last digits of
its code. An ASCII character is one byte below 0x80, and every byte of another character is at least
0x80. So a text can be searched for ASCII marks, and cut at them, byte by byte. -/

namespace GuestFiles.Text

/-! ## The bytes of one character -/

/-- How many bytes follow the first one of a code. -/
def tailLength (n : Nat) : Nat :=
  if n < 0x80 then 0 else if n < 0x800 then 1 else if n < 0x10000 then 2 else 3

/-- The first byte, with a mark above the leading digits for how many bytes follow. -/
def lead (n : Nat) : Nat :=
  if n < 0x80 then n
  else if n < 0x800 then n / 64 + 0xC0
  else if n < 0x10000 then n / 64 ^ 2 + 0xE0
  else n / 64 ^ 3 + 0xF0

/-- The last digits of a code, to the base 64. -/
def tail : Nat → Nat → List UInt8
  | 0, _ => []
  | k + 1, n => .ofNat (n / 64 ^ k % 64 + 0x80) :: tail k n

theorem toNat_lt (c : Char) : c.toNat < 0x110000 := by
  have h : c.toNat < 0xd800 ∨ 0xdfff < c.toNat ∧ c.toNat < 0x110000 := c.valid
  omega

theorem lead_lt {n : Nat} (h : n < 0x110000) : lead n < 256 := by
  unfold lead
  split_ifs <;> omega

theorem utf8EncodeChar_eq (c : Char) :
    String.utf8EncodeChar c = .ofNat (lead c.toNat) :: tail (tailLength c.toNat) c.toNat := by
  have hval : c.val.toNat = c.toNat := rfl
  have hlt := toNat_lt c
  simp only [String.utf8EncodeChar, hval, lead, tailLength]
  split_ifs <;> try omega
  · rfl
  · rw [Nat.mod_eq_of_lt (a := c.toNat / 64) (by omega)]
    simp only [tail, Nat.reducePow, Nat.div_one]
  · rw [Nat.mod_eq_of_lt (a := c.toNat / 4096) (by omega)]
    simp only [tail, Nat.reducePow, Nat.div_one]
  · rw [Nat.mod_eq_of_lt (a := c.toNat / 262144) (by omega)]
    simp only [tail, Nat.reducePow, Nat.div_one]

theorem utf8EncodeChar_of_ascii {c : Char} (h : c.toNat < 0x80) :
    String.utf8EncodeChar c = [c.toNat.toUInt8] := by
  rw [utf8EncodeChar_eq, lead, tailLength, if_pos h, if_pos h]
  rfl

theorem ofNat_le_ofNat {m n : Nat} (h : m ≤ n) (hn : n < 256) :
    UInt8.ofNat m ≤ UInt8.ofNat n := by
  rw [UInt8.le_iff_toNat_le, UInt8.toNat_ofNat', UInt8.toNat_ofNat']
  omega

theorem le_of_mem_tail {k n : Nat} {b : UInt8} (h : b ∈ tail k n) : 0x80 ≤ b := by
  induction k with
  | zero => cases h
  | succ k ih =>
      rcases List.mem_cons.mp h with rfl | h
      · exact ofNat_le_ofNat (m := 0x80) (by omega) (by omega)
      · exact ih h

/-- The first byte of a character outside ASCII is at least 0xC0, and the others are at least
0x80. -/
theorem utf8EncodeChar_of_not_ascii {c : Char} (h : ¬c.toNat < 0x80) :
    ∃ lead rest, String.utf8EncodeChar c = lead :: rest ∧ 0xC0 ≤ lead ∧ ∀ b ∈ rest, 0x80 ≤ b := by
  have hlead : 0xC0 ≤ lead c.toNat := by
    unfold lead
    split_ifs <;> omega
  exact ⟨_, _, utf8EncodeChar_eq c, ofNat_le_ofNat hlead (lead_lt (toNat_lt c)),
    fun b hb => le_of_mem_tail hb⟩

theorem le_of_mem_utf8EncodeChar {c : Char} (h : ¬c.toNat < 0x80) :
    ∀ b ∈ String.utf8EncodeChar c, 0x80 ≤ b := by
  obtain ⟨lead, rest, heq, hlead, hrest⟩ := utf8EncodeChar_of_not_ascii h
  intro b hb
  rw [heq, List.mem_cons] at hb
  rcases hb with rfl | hb
  · exact UInt8.le_trans (by decide) hlead
  · exact hrest b hb

theorem utf8EncodeChar_ne_nil (c : Char) : String.utf8EncodeChar c ≠ [] := by
  by_cases h : c.toNat < 0x80
  · simp [utf8EncodeChar_of_ascii h]
  · obtain ⟨lead, rest, heq, -⟩ := utf8EncodeChar_of_not_ascii h
    simp [heq]

/-! ## Marks -/

/-- The byte of an ASCII character stands in the encoding of that character alone. -/
theorem mem_utf8EncodeChar_iff {mark c : Char} (h : mark.toNat < 0x80) :
    mark.toNat.toUInt8 ∈ String.utf8EncodeChar c ↔ c = mark := by
  by_cases hc : c.toNat < 0x80
  · rw [utf8EncodeChar_of_ascii hc, List.mem_singleton]
    constructor
    · intro heq
      have hnat := congrArg UInt8.toNat heq
      simp only [Nat.toUInt8_eq, UInt8.toNat_ofNat'] at hnat
      apply Char.toNat_inj.mp
      omega
    · rintro rfl
      rfl
  · refine ⟨fun hmem => ?_, fun heq => absurd (heq ▸ h) hc⟩
    have hle := UInt8.le_iff_toNat_le.mp (le_of_mem_utf8EncodeChar hc _ hmem)
    simp only [Nat.toUInt8_eq, UInt8.toNat_ofNat', UInt8.reduceToNat] at hle
    omega

theorem mem_bytes_iff {mark : Char} (h : mark.toNat < 0x80) (text : String) :
    mark.toNat.toUInt8 ∈ bytes text ↔ mark ∈ text.toList := by
  simp [bytes, List.mem_flatMap, mem_utf8EncodeChar_iff h]

/-- All bytes of a text are below 0x80 exactly when all its characters are. -/
theorem forall_bytes_lt_iff (text : String) :
    (∀ b ∈ bytes text, b < 0x80) ↔ ∀ c ∈ text.toList, c.toNat < 0x80 := by
  constructor
  · intro h c hc
    by_contra hbig
    obtain ⟨lead, rest, heq, hlead, -⟩ := utf8EncodeChar_of_not_ascii hbig
    have hmem : lead ∈ bytes text := List.mem_flatMap.mpr ⟨c, hc, by simp [heq]⟩
    exact absurd (h lead hmem) (UInt8.not_lt.mpr (UInt8.le_trans (by decide) hlead))
  · intro h b hb
    obtain ⟨c, hc, hb⟩ := List.mem_flatMap.mp hb
    have hlt := h c hc
    rw [utf8EncodeChar_of_ascii hlt, List.mem_singleton] at hb
    rw [hb, UInt8.lt_iff_toNat_lt]
    simp only [Nat.toUInt8_eq, UInt8.toNat_ofNat', UInt8.reduceToNat]
    omega

/-! ## Whole texts -/

/-- Bytes below 0x80 are the bytes of the characters that they number. -/
theorem bytes_ofList_ofNat {bs : List UInt8} (h : ∀ b ∈ bs, b < 0x80) :
    bytes (String.ofList (bs.map fun b => Char.ofNat b.toNat)) = bs := by
  have hall : ∀ n < 0x80, String.utf8EncodeChar (Char.ofNat n) = [UInt8.ofNat n] := by
    decide +kernel
  rw [bytes_ofList]
  induction bs with
  | nil => rfl
  | cons b bs ih =>
      have hb := hall b.toNat (UInt8.lt_iff_toNat_lt.mp (h b List.mem_cons_self))
      rw [UInt8.ofNat_toNat] at hb
      rw [List.map_cons, List.flatMap_cons, hb, ih fun c hc => h c (List.mem_cons_of_mem b hc)]
      rfl

theorem bytes_append (a b : String) : bytes (a ++ b) = bytes a ++ bytes b := by
  simp [bytes]

theorem bytes_eq_nil_iff (text : String) : bytes text = [] ↔ text = "" := by
  constructor
  · intro h
    rw [bytes, List.flatMap_eq_nil_iff] at h
    rw [← String.toList_eq_nil_iff, List.eq_nil_iff_forall_not_mem]
    exact fun c hc => absurd (h c hc) (utf8EncodeChar_ne_nil c)
  · rintro rfl
    rfl

/-! ## Cutting at a mark -/

section Split

variable {α : Type} [DecidableEq α] {mark : α}

@[simp] theorem splitFirst_nil : splitFirst mark ([] : List α) = ([], []) := rfl

@[simp] theorem splitFirst_cons_self (l : List α) : splitFirst mark (mark :: l) = ([], l) := by
  simp [splitFirst]

theorem splitFirst_cons_of_ne {a : α} (h : a ≠ mark) (l : List α) :
    splitFirst mark (a :: l) = (a :: (splitFirst mark l).1, (splitFirst mark l).2) := by
  simp [splitFirst, h]

theorem splitFirst_of_not_mem {l : List α} (h : mark ∉ l) : splitFirst mark l = (l, []) := by
  induction l with
  | nil => rfl
  | cons a l ih =>
      obtain ⟨hne, hl⟩ := List.ne_and_not_mem_of_not_mem_cons h
      rw [splitFirst_cons_of_ne hne.symm, ih hl]

theorem splitFirst_append_cons {front : List α} (h : mark ∉ front) (rest : List α) :
    splitFirst mark (front ++ mark :: rest) = (front, rest) := by
  induction front with
  | nil => simp
  | cons a front ih =>
      obtain ⟨hne, hfront⟩ := List.ne_and_not_mem_of_not_mem_cons h
      rw [List.cons_append, splitFirst_cons_of_ne hne.symm, ih hfront]

theorem splitFirst_eq_take_drop (l : List α) :
    splitFirst mark l = (l.take (l.idxOf mark), l.drop (l.idxOf mark + 1)) := by
  induction l with
  | nil => rfl
  | cons a l ih =>
      by_cases h : a = mark
      · subst h
        simp
      · have hplace : (a :: l).idxOf mark = l.idxOf mark + 1 := by
          rw [List.idxOf_cons, beq_false_of_ne h, cond_false]
        rw [splitFirst_cons_of_ne h, ih, hplace]
        rfl

/-- Nothing but the mark gets lost when a list is cut. -/
theorem mem_iff_mem_splitFirst {a : α} (h : a ≠ mark) (l : List α) :
    a ∈ l ↔ a ∈ (splitFirst mark l).1 ∨ a ∈ (splitFirst mark l).2 := by
  by_cases hmem : mark ∈ l
  · obtain ⟨front, rest, rfl, hfront⟩ := List.eq_append_cons_of_mem hmem
    simp [splitFirst_append_cons hfront, h]
  · simp [splitFirst_of_not_mem hmem]

/-- Where `b` comes out of `a` alone, and as the whole piece of it, cutting the pieces at `b` is
cutting the list at `a`. -/
theorem splitFirst_flatMap {β : Type} [DecidableEq β] {f : α → List β} {b : β}
    (hmem : ∀ a, b ∈ f a ↔ a = mark) (hmark : f mark = [b]) (l : List α) :
    splitFirst b (l.flatMap f) =
      ((splitFirst mark l).1.flatMap f, (splitFirst mark l).2.flatMap f) := by
  have hnot : ∀ l : List α, b ∉ l.flatMap f ↔ mark ∉ l := by
    intro l
    simp [List.mem_flatMap, hmem]
  by_cases h : mark ∈ l
  · obtain ⟨front, rest, rfl, hfront⟩ := List.eq_append_cons_of_mem h
    rw [List.flatMap_append, List.flatMap_cons, hmark, splitFirst_append_cons hfront]
    exact splitFirst_append_cons ((hnot front).mpr hfront) _
  · rw [splitFirst_of_not_mem h, splitFirst_of_not_mem ((hnot l).mpr h)]
    rfl

end Split

/-- Cutting the bytes of a text at an ASCII mark is cutting its characters there. -/
theorem splitFirst_bytes {mark : Char} (h : mark.toNat < 0x80) (cs : List Char) :
    splitFirst mark.toNat.toUInt8 (bytes (String.ofList cs)) =
      (bytes (String.ofList (splitFirst mark cs).1),
        bytes (String.ofList (splitFirst mark cs).2)) := by
  simp only [bytes_ofList]
  exact splitFirst_flatMap (fun _ => mem_utf8EncodeChar_iff h) (utf8EncodeChar_of_ascii h) cs

end GuestFiles.Text
