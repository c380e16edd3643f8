import GuestFiles.Json.Scan
import GuestFiles.Proofs.Text.Utf8
import GuestFiles.Text.Hex

/-! # Reading dumps

A dump can be read back: every row gives its offset and its bytes, and the bytes of all rows are
those that were dumped. So different bytes have different dumps. -/

namespace GuestFiles.Text

open Json (hexValue?)

/-! ## Numbers -/

def hexDigits : List Char :=
  "0123456789ABCDEF".toList

/-- The number that digits spell, none when something else is among them. -/
def readHex? (cs : List Char) : Option Nat :=
  cs.foldlM (fun n c => (hexValue? c).map (16 * n + ·)) 0

theorem readHex?_append_singleton {cs : List Char} {c : Char} {n d : Nat}
    (hcs : readHex? cs = some n) (hc : hexValue? c = some d) :
    readHex? (cs ++ [c]) = some (16 * n + d) := by
  have hfold : cs.foldlM (fun n c => (hexValue? c).map (16 * n + ·)) 0 = some n := hcs
  simp [readHex?, List.foldlM_append, hfold, hc]

/-- A digit in upper case. -/
def upperDigit (d : Nat) : Char :=
  (Nat.digitChar d).toUpper

theorem hexValue?_upperDigit {d : Nat} (h : d < 16) : hexValue? (upperDigit d) = some d := by
  have hall : ∀ d < 16, hexValue? (upperDigit d) = some d := by decide
  exact hall d h

theorem upperDigit_mem {d : Nat} (h : d < 16) : upperDigit d ∈ hexDigits := by
  have hall : ∀ d < 16, upperDigit d ∈ hexDigits := by decide
  exact hall d h

theorem upperDigit_ne_zero {d : Nat} (hpos : 0 < d) (h : d < 16) : upperDigit d ≠ '0' := by
  have hall : ∀ d < 16, 0 < d → upperDigit d ≠ '0' := by decide
  exact hall d h hpos

/-- The digits of a number in upper case, without zeros in front. -/
def bareHex (n : Nat) : List Char :=
  (lowerHex n).map Char.toUpper

theorem bareHex_of_lt {n : Nat} (h : n < 16) : bareHex n = [upperDigit n] := by
  rw [bareHex, lowerHex, Nat.toDigits_of_lt_base h]
  rfl

theorem bareHex_of_le {n : Nat} (h : 16 ≤ n) :
    bareHex n = bareHex (n / 16) ++ [upperDigit (n % 16)] := by
  rw [bareHex, lowerHex, Nat.toDigits_of_base_le (by decide) h, List.map_append]
  rfl

theorem bareHex_ne_nil (n : Nat) : bareHex n ≠ [] := by
  simp [bareHex, lowerHex]

/-- A number has one digit, or a last digit and those of the number divided by 16. -/
theorem digit_induction {motive : Nat → Prop} (one : ∀ n < 16, motive n)
    (more : ∀ n, 16 ≤ n → motive (n / 16) → motive n) (n : Nat) : motive n := by
  induction n using Nat.strongRecOn with
  | _ n ih =>
      by_cases h : n < 16
      · exact one n h
      · exact more n (by omega) (ih (n / 16) (by omega))

theorem readHex?_bareHex (n : Nat) : readHex? (bareHex n) = some n := by
  induction n using digit_induction with
  | one n h =>
      have hdigit : readHex? ([] ++ [upperDigit n]) = some (16 * 0 + n) :=
        readHex?_append_singleton rfl (hexValue?_upperDigit h)
      rw [bareHex_of_lt h]
      simpa using hdigit
  | more n h ih =>
      have hlast := hexValue?_upperDigit (Nat.mod_lt n (show 0 < 16 by decide))
      rw [bareHex_of_le h, readHex?_append_singleton ih hlast, Nat.div_add_mod]

theorem mem_of_mem_bareHex (n : Nat) : ∀ c ∈ bareHex n, c ∈ hexDigits := by
  induction n using digit_induction with
  | one n h =>
      rw [bareHex_of_lt h]
      simpa only [List.mem_singleton, forall_eq] using upperDigit_mem h
  | more n h ih =>
      rw [bareHex_of_le h]
      intro c hc
      rcases List.mem_append.mp hc with hc | hc
      · exact ih c hc
      · exact List.mem_singleton.mp hc ▸ upperDigit_mem (Nat.mod_lt n (by decide))

theorem head?_bareHex {n : Nat} (hpos : 0 < n) : (bareHex n).head? ≠ some '0' := by
  induction n using digit_induction with
  | one n h =>
      rw [bareHex_of_lt h]
      exact fun heq => upperDigit_ne_zero hpos h (Option.some.inj heq)
  | more n h ih =>
      obtain ⟨c, cs, hfront⟩ := List.exists_cons_of_ne_nil (bareHex_ne_nil (n / 16))
      rw [hfront] at ih
      rw [bareHex_of_le h, hfront]
      exact ih (by omega)

/-- A number in hexadecimal: digits in upper case, at least two of them, and no zeros in front that
two digits do not need. -/
structure IsHex (n : Nat) (cs : List Char) : Prop where
  digits : ∀ c ∈ cs, c ∈ hexDigits
  value : readHex? cs = some n
  two_le : 2 ≤ cs.length
  shortest : cs.length = 2 ∨ cs.head? ≠ some '0'

theorem IsHex.not_mem {n : Nat} {cs : List Char} {c : Char} (h : IsHex n cs) (hc : c ∉ hexDigits) :
    c ∉ cs :=
  fun hmem => hc (h.digits c hmem)

theorem upperHex_of_lt {n : Nat} (h : n < 16) : upperHex n = ['0', upperDigit n] := by
  rw [← List.singleton_append, ← bareHex_of_lt h]
  exact if_pos h

theorem upperHex_of_le {n : Nat} (h : 16 ≤ n) : upperHex n = bareHex n :=
  if_neg (by omega)

theorem isHex_upperHex (n : Nat) : IsHex n (upperHex n) := by
  by_cases h : n < 16
  · have hbare := readHex?_bareHex n
    rw [bareHex_of_lt h] at hbare
    rw [upperHex_of_lt h]
    have hzero : '0' ∈ hexDigits := by decide
    refine ⟨?_, hbare, Nat.le_refl 2, .inl rfl⟩
    simpa using ⟨hzero, upperDigit_mem h⟩
  · have hle : 16 ≤ n := by omega
    have hlength : ¬(bareHex n).length ≤ 1 := by
      rw [bareHex, List.length_map, lowerHex, Nat.length_toDigits_le_iff (by decide) (by decide)]
      omega
    rw [upperHex_of_le hle]
    exact ⟨mem_of_mem_bareHex n, readHex?_bareHex n, by omega, .inr (head?_bareHex (by omega))⟩

/-! ## Bytes -/

/-- The two digits of a byte. -/
theorem hexByte_eq (b : UInt8) :
    hexByte b = [upperDigit (b.toNat / 16), upperDigit (b.toNat % 16)] := by
  have hlt := b.toNat_lt
  by_cases h : b.toNat < 16
  · rw [hexByte, upperHex_of_lt h, Nat.div_eq_of_lt h, Nat.mod_eq_of_lt h]
    rfl
  · rw [hexByte, upperHex_of_le (by omega), bareHex_of_le (by omega), bareHex_of_lt (by omega)]
    rfl

theorem newline_not_mem_hexDigits : '\n' ∉ hexDigits := by
  decide

theorem newline_not_mem_hexByte (b : UInt8) : '\n' ∉ hexByte b :=
  (isHex_upperHex b.toNat).not_mem newline_not_mem_hexDigits

/-- The bytes that pairs of digits spell, a blank in front of each. -/
def readGroups? : List Char → Option (List UInt8)
  | [] => some []
  | ' ' :: high :: low :: rest => do
    let high ← hexValue? high
    let low ← hexValue? low
    let bs ← readGroups? rest
    return .ofNat (16 * high + low) :: bs
  | _ => none

theorem readGroups?_flatMap (bs : List UInt8) :
    readGroups? (bs.flatMap fun b => ' ' :: hexByte b) = some bs := by
  induction bs with
  | nil => rfl
  | cons b bs ih =>
      have hlt := b.toNat_lt
      have hhigh : hexValue? (upperDigit (b.toNat / 16)) = some (b.toNat / 16) :=
        hexValue?_upperDigit (by omega)
      have hlow : hexValue? (upperDigit (b.toNat % 16)) = some (b.toNat % 16) :=
        hexValue?_upperDigit (by omega)
      rw [List.flatMap_cons, hexByte_eq, List.cons_append, List.cons_append, List.cons_append,
        List.nil_append, readGroups?, hhigh, hlow, ih]
      simp only [Option.bind_eq_bind, Option.bind_some, Nat.div_add_mod, UInt8.ofNat_toNat]
      rfl

/-! ## Rows -/

/-- The offset and the bytes of a row. -/
def readRow? (row : String) : Option (Nat × List UInt8) :=
  match row.toList with
  | ' ' :: ' ' :: cs => do
    let (label, groups) := splitFirst ':' cs
    return (← readHex? label, ← readGroups? groups)
  | _ => none

/-- A row that shows bytes at an offset: two blanks, the offset, a colon, and the bytes. -/
def IsRow (offset : Nat) (bs : List UInt8) (row : String) : Prop :=
  ∃ label, IsHex offset label ∧
    row.toList = [' ', ' '] ++ label ++ [':'] ++ bs.flatMap fun b => ' ' :: hexByte b

theorem flatten_intersperse {bs : List UInt8} (h : bs ≠ []) :
    ' ' :: ((bs.map hexByte).intersperse [' ']).flatten =
      bs.flatMap fun b => ' ' :: hexByte b := by
  induction bs with
  | nil => exact absurd rfl h
  | cons b bs ih =>
      cases bs with
      | nil => simp
      | cons next rest =>
          rw [List.flatMap_cons, ← ih (List.cons_ne_nil next rest)]
          simp

theorem isRow_hexRow (offset : Nat) {bs : List UInt8} (h : bs ≠ []) :
    IsRow offset bs (hexRow (offset, bs)) := by
  refine ⟨upperHex offset, isHex_upperHex offset, ?_⟩
  rw [← flatten_intersperse h, hexRow, String.toList_ofList]
  simp

theorem IsRow.readRow? {offset : Nat} {bs : List UInt8} {row : String}
    (h : IsRow offset bs row) : readRow? row = some (offset, bs) := by
  obtain ⟨label, hlabel, hrow⟩ := h
  have hcolon : ':' ∉ label := hlabel.not_mem (by decide)
  have hsplit := splitFirst_append_cons hcolon (bs.flatMap fun b => ' ' :: hexByte b)
  simp only [Text.readRow?, hrow, List.append_assoc, List.cons_append, List.nil_append, hsplit,
    hlabel.value, readGroups?_flatMap, Option.bind_eq_bind, Option.bind_some]
  rfl

/-! ## Dumps -/

/-- The rows of a dump, by their numbers. -/
theorem rowsFrom_eq (offset : Nat) (bs : List UInt8) :
    rowsFrom offset bs = (List.range ((bs.length + 11) / 12)).map fun r =>
      (offset + 12 * r, (bs.drop (12 * r)).take 12) := by
  induction offset, bs using rowsFrom.induct with
  | case1 offset bs hnil =>
      obtain rfl := List.isEmpty_iff.mp hnil
      rw [rowsFrom]
      rfl
  | case2 offset bs hnil ih =>
      have hpos : bs.length ≠ 0 := by simpa using hnil
      have hcount : (bs.length + 11) / 12 = ((bs.drop 12).length + 11) / 12 + 1 := by
        rw [List.length_drop]
        omega
      rw [rowsFrom, if_neg hnil, ih, hcount, List.range_succ_eq_map, List.map_cons, List.map_map]
      refine congrArg₂ List.cons rfl (List.map_congr_left fun r _ => ?_)
      simp only [Function.comp_apply, List.drop_drop, Nat.succ_eq_add_one, Nat.mul_add,
        Nat.mul_one, Nat.add_assoc, Nat.add_comm 12]

theorem flatMap_rowsFrom (offset : Nat) (bs : List UInt8) :
    (rowsFrom offset bs).flatMap (·.2) = bs := by
  induction offset, bs using rowsFrom.induct with
  | case1 offset bs hnil =>
      rw [rowsFrom, if_pos hnil]
      exact (List.isEmpty_iff.mp hnil).symm
  | case2 offset bs hnil ih =>
      rw [rowsFrom, if_neg hnil, List.flatMap_cons, ih, List.take_append_drop]

theorem ne_nil_of_mem_rowsFrom {offset : Nat} {bs : List UInt8} {row : Nat × List UInt8}
    (h : row ∈ rowsFrom offset bs) : row.2 ≠ [] := by
  rw [rowsFrom_eq, List.mem_map] at h
  obtain ⟨r, hr, rfl⟩ := h
  have hlt : r < (bs.length + 11) / 12 := List.mem_range.mp hr
  simp only [ne_eq, List.take_eq_nil_iff, List.drop_eq_nil_iff]
  omega

theorem readRow?_hexRow {offset : Nat} {bs : List UInt8} {row : Nat × List UInt8}
    (h : row ∈ rowsFrom offset bs) : readRow? (hexRow row) = some row :=
  (isRow_hexRow row.1 (ne_nil_of_mem_rowsFrom h)).readRow?

/-- The bytes of all rows, their offsets left away. -/
def readRows? (rows : List String) : Option (List UInt8) :=
  (rows.mapM readRow?).map fun rows => rows.flatMap (·.2)

theorem mapM_readRow? {rows : List (Nat × List UInt8)}
    (h : ∀ row ∈ rows, readRow? (hexRow row) = some row) :
    (rows.map hexRow).mapM readRow? = some rows := by
  induction rows with
  | nil => rfl
  | cons row rows ih =>
      obtain ⟨hrow, hrows⟩ := List.forall_mem_cons.mp h
      rw [List.map_cons, List.mapM_cons, hrow, ih hrows]
      rfl

theorem readRows?_hexDump (bs : List UInt8) : readRows? (hexDump bs) = some bs := by
  rw [readRows?, hexDump, mapM_readRow? fun row h => readRow?_hexRow h, Option.map_some,
    flatMap_rowsFrom]

/-- Rows that show bytes, twelve in each but the last, and each at its offset. -/
structure Shows (bs : List UInt8) (rows : List String) : Prop where
  length : rows.length = (bs.length + 11) / 12
  row (r : Nat) (h : r < rows.length) : IsRow (12 * r) ((bs.drop (12 * r)).take 12) rows[r]

theorem shows_hexDump (bs : List UInt8) : Shows bs (hexDump bs) := by
  have hrows := rowsFrom_eq 0 bs
  refine ⟨?_, fun r h => ?_⟩
  · rw [hexDump, hrows]
    simp
  · have hr : r < (rowsFrom 0 bs).length := by simpa [hexDump] using h
    have hget : (rowsFrom 0 bs)[r] = (12 * r, (bs.drop (12 * r)).take 12) := by
      simp [List.getElem_of_eq hrows hr]
    have hne := ne_nil_of_mem_rowsFrom (List.getElem_mem hr)
    rw [hget] at hne
    have hrow : (hexDump bs)[r] = hexRow (rowsFrom 0 bs)[r] := List.getElem_map hexRow
    rw [hrow, hget]
    exact isRow_hexRow (12 * r) hne

/-- Each byte stands at its place in the row for its offset. -/
theorem Shows.byte {bs : List UInt8} {rows : List String} (h : Shows bs rows) {i : Nat} {b : UInt8}
    (hb : bs[i]? = some b) :
    ∃ row shown, rows[i / 12]? = some row ∧ readRow? row = some (12 * (i / 12), shown) ∧
      shown[i % 12]? = some b := by
  obtain ⟨hi, -⟩ := List.getElem?_eq_some_iff.mp hb
  have hr : i / 12 < rows.length := by
    rw [h.length]
    omega
  refine ⟨rows[i / 12], _, List.getElem?_eq_getElem hr, (h.row (i / 12) hr).readRow?, ?_⟩
  rw [List.getElem?_take_of_lt (Nat.mod_lt i (by decide)), List.getElem?_drop, Nat.div_add_mod, hb]

/-! ## Dumps as texts -/

/-- A dump as one text, with line breaks between the rows. -/
def dumpText (bs : List UInt8) : String :=
  String.intercalate "\n" (hexDump bs)

/-- The bytes that a dump shows. -/
def readDump? (text : String) : Option (List UInt8) :=
  if text.isEmpty then some [] else readRows? ((text.toList.splitOn '\n').map String.ofList)

theorem IsRow.newline_not_mem {offset : Nat} {bs : List UInt8} {row : String}
    (h : IsRow offset bs row) : '\n' ∉ row.toList := by
  obtain ⟨label, hlabel, hrow⟩ := h
  simp [hrow, hlabel.not_mem newline_not_mem_hexDigits, newline_not_mem_hexByte]

theorem splitOn_dumpText {bs : List UInt8} (h : bs ≠ []) :
    (dumpText bs).toList.splitOn '\n' = (hexDump bs).map String.toList := by
  have hshows := shows_hexDump bs
  have hpos := List.length_pos_iff.mpr h
  rw [dumpText, String.toList_intercalate]
  refine List.splitOn_intercalate '\n' ?_ ?_
  · intro line hline
    obtain ⟨row, hrow, rfl⟩ := List.mem_map.mp hline
    obtain ⟨r, hr, rfl⟩ := List.getElem_of_mem hrow
    exact (hshows.row r hr).newline_not_mem
  · have hlength := hshows.length
    refine List.ne_nil_of_length_pos ?_
    rw [List.length_map]
    omega

theorem dumpText_nil : dumpText [] = "" := by
  have hnil : hexDump [] = [] := List.length_eq_zero_iff.mp (shows_hexDump []).length
  rw [dumpText, hnil, String.intercalate_nil]

theorem dumpText_ne_empty {bs : List UInt8} (h : bs ≠ []) : dumpText bs ≠ "" := by
  intro hempty
  have hsplit := splitOn_dumpText h
  rw [hempty] at hsplit
  have hnil : [] ∈ (hexDump bs).map String.toList := hsplit ▸ List.mem_singleton_self []
  obtain ⟨row, hmem, hrow⟩ := List.mem_map.mp hnil
  obtain ⟨r, hr, rfl⟩ := List.getElem_of_mem hmem
  obtain ⟨label, -, htext⟩ := (shows_hexDump bs).row r hr
  rw [hrow] at htext
  cases htext

theorem readDump?_dumpText (bs : List UInt8) : readDump? (dumpText bs) = some bs := by
  by_cases h : bs = []
  · rw [h, dumpText_nil]
    rfl
  · have hempty : (dumpText bs).isEmpty = false := by
      simpa using dumpText_ne_empty h
    have hrows : ((hexDump bs).map String.toList).map String.ofList = hexDump bs := by
      simp
    rw [readDump?, hempty, splitOn_dumpText h, hrows]
    exact readRows?_hexDump bs

/-- Different bytes have different dumps. -/
theorem dumpText_inj {bs other : List UInt8} (h : dumpText bs = dumpText other) : bs = other := by
  have hread := readDump?_dumpText bs
  rw [h, readDump?_dumpText] at hread
  exact (Option.some.inj hread).symm

end GuestFiles.Text
