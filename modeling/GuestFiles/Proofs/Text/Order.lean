import GuestFiles.Proofs.Text.Utf8
import Mathlib.Data.String.Basic

/-! # The order of texts

UTF-8 keeps the order of characters: the lesser of two characters has the lesser bytes, whatever
comes behind them. So texts, which compare character by character, compare as their bytes do. -/

namespace GuestFiles.Text

/-! ## Two characters -/

/-- A greater code has a greater first byte, or as many bytes and the same leading digits. -/
theorem lead_lt_or {m n : Nat} (h : m < n) :
    lead m < lead n ∨ lead m = lead n ∧ tailLength m = tailLength n ∧
      m / 64 ^ tailLength m = n / 64 ^ tailLength m := by
  unfold lead tailLength
  split_ifs <;> omega

theorem compare_ofNat_of_lt {m n : Nat} (h : m < n) (hn : n < 256) :
    compare (UInt8.ofNat m) (UInt8.ofNat n) = .lt := by
  refine compareOfLessAndEq_eq_lt.mpr (UInt8.lt_iff_toNat_lt.mpr ?_)
  rw [UInt8.toNat_ofNat', UInt8.toNat_ofNat']
  omega

/-- With equal leading digits, the last digits decide. -/
theorem compare_tail_append {k m n : Nat} (h : m < n) (hlead : m / 64 ^ k = n / 64 ^ k)
    (u v : List UInt8) : compare (tail k m ++ u) (tail k n ++ v) = .lt := by
  induction k with
  | zero => simp only [pow_zero, Nat.div_one] at hlead; omega
  | succ k ih =>
      have hdigits : m / 64 ^ k / 64 = n / 64 ^ k / 64 := by
        rw [Nat.div_div_eq_div_mul, Nat.div_div_eq_div_mul]
        exact hlead
      have hle : m / 64 ^ k ≤ n / 64 ^ k := Nat.div_le_div_right h.le
      rw [tail, tail, List.cons_append, List.cons_append, List.compare_cons_cons]
      rcases hle.lt_or_eq with hlt | heq
      · rw [compare_ofNat_of_lt (by omega) (by omega)]
        rfl
      · rw [heq, Std.ReflOrd.compare_self]
        exact ih heq

/-- The lesser of two characters has the lesser bytes, whatever comes behind them. -/
theorem compare_utf8EncodeChar_append {c d : Char} (h : c < d) (u v : List UInt8) :
    compare (String.utf8EncodeChar c ++ u) (String.utf8EncodeChar d ++ v) = .lt := by
  have hd := toNat_lt d
  rw [utf8EncodeChar_eq, utf8EncodeChar_eq, List.cons_append, List.cons_append,
    List.compare_cons_cons]
  have hnat : c.toNat < d.toNat := h
  rcases lead_lt_or hnat with hlt | ⟨hlead, hlength, hdigits⟩
  · rw [compare_ofNat_of_lt hlt (lead_lt hd)]
    rfl
  · rw [hlead, Std.ReflOrd.compare_self, ← hlength]
    exact compare_tail_append hnat hdigits u v

/-! ## Texts -/

theorem compare_append_left (front xs ys : List UInt8) :
    compare (front ++ xs) (front ++ ys) = compare xs ys := by
  induction front with
  | nil => rfl
  | cons b front ih =>
      rw [List.cons_append, List.cons_append, List.compare_cons_cons, Std.ReflOrd.compare_self, ih]
      rfl

theorem compare_flatMap_of_lt {cs ds : List Char} (h : cs < ds) :
    compare (cs.flatMap String.utf8EncodeChar) (ds.flatMap String.utf8EncodeChar) = .lt := by
  induction h with
  | @nil d ds =>
      obtain ⟨b, rest, hb⟩ := List.exists_cons_of_ne_nil (utf8EncodeChar_ne_nil d)
      rw [List.flatMap_cons, hb]
      rfl
  | rel hlt =>
      rw [List.flatMap_cons, List.flatMap_cons]
      exact compare_utf8EncodeChar_append hlt _ _
  | cons _ ih => rw [List.flatMap_cons, List.flatMap_cons, compare_append_left, ih]

/-- Texts compare as their bytes do. -/
theorem compare_eq_compare_bytes (a b : String) : compare a b = compare (bytes a) (bytes b) := by
  rcases lt_trichotomy a b with hlt | rfl | hgt
  · rw [compare_lt_iff_lt.mpr hlt]
    exact (compare_flatMap_of_lt (String.lt_iff_toList_lt.mp hlt)).symm
  · rw [Std.ReflOrd.compare_self, Std.ReflOrd.compare_self]
  · rw [compare_gt_iff_gt.mpr hgt]
    exact (Std.OrientedCmp.gt_of_lt (compare_flatMap_of_lt (String.lt_iff_toList_lt.mp hgt))).symm

end GuestFiles.Text
