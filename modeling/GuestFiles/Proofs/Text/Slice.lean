import GuestFiles.Proofs.Text.Utf8
import Mathlib.Data.List.Basic

/-! # Cutting a text at a place among its bytes

A place among the bytes of a text lies inside a character or between two of them, and the text can
be cut only between two. A byte below 0x80 is a character of its own, so the text can be cut in
front of it and behind it, whatever stands on its two sides. -/

namespace GuestFiles.Text

open String.Pos.Raw (IsValid)

/-! ## Cuts -/

/-- The text in front of a place, none where the text cannot be cut. -/
def upTo? (text : String) (place : Nat) : Option String :=
  if h : IsValid text ⟨place⟩ then some (text.sliceTo (text.pos ⟨place⟩ h)).copy else none

/-- The text behind a place, none where the text cannot be cut. -/
def from? (text : String) (place : Nat) : Option String :=
  if h : IsValid text ⟨place⟩ then some (text.sliceFrom (text.pos ⟨place⟩ h)).copy else none

/-- There is no cut through a character, and none behind the end. -/
example : upTo? "é." 1 = none ∧ upTo? "é." 2 = some "é" ∧ from? "é." 4 = none := by
  decide +kernel

theorem toByteArray_bytes (text : String) : (bytes text).toByteArray = text.toByteArray := by
  rw [bytes, ← List.utf8Encode, ← String.toByteArray_ofList, String.ofList_toList]

theorem length_bytes (text : String) : (bytes text).length = text.utf8ByteSize := by
  rw [← String.size_toByteArray, ← toByteArray_bytes, List.size_toByteArray]

theorem bytes_inj {a b : String} : bytes a = bytes b ↔ a = b := by
  constructor
  · intro h
    rw [← String.toByteArray_inj, ← toByteArray_bytes, h, toByteArray_bytes]
  · exact congrArg bytes

/-- Two texts put together can be cut where the second begins. -/
theorem cut_append (front back : String) :
    IsValid (front ++ back) ⟨(bytes front).length⟩ ∧
      upTo? (front ++ back) (bytes front).length = some front ∧
      from? (front ++ back) (bytes front).length = some back := by
  have hplace : (⟨(bytes front).length⟩ : String.Pos.Raw) = front.rawEndPos := by
    rw [length_bytes]
    rfl
  have hvalid : IsValid (front ++ back) ⟨(bytes front).length⟩ :=
    String.Pos.Raw.isValid_iff_exists_append.mpr ⟨front, back, rfl, hplace⟩
  have hsplits : ((front ++ back).pos _ hvalid).Splits front back :=
    ⟨rfl, String.offset_pos.trans hplace⟩
  refine ⟨hvalid, ?_, ?_⟩
  · rw [upTo?, dif_pos hvalid, hsplits.copy_sliceTo_eq]
  · rw [from?, dif_pos hvalid, hsplits.copy_sliceFrom_eq]

/-! ## Bytes of ASCII -/

/-- A byte below 0x80 is a character of its own. -/
theorem exists_append_of_getElem? {cs : List Char} {i : Nat} {b : UInt8} (hb : b < 0x80)
    (h : (cs.flatMap String.utf8EncodeChar)[i]? = some b) :
    ∃ front c back, cs = front ++ c :: back ∧ String.utf8EncodeChar c = [b] ∧
      (front.flatMap String.utf8EncodeChar).length = i := by
  induction cs generalizing i with
  | nil => simp at h
  | cons c cs ih =>
      rw [List.flatMap_cons] at h
      by_cases hi : i < (String.utf8EncodeChar c).length
      · rw [List.getElem?_append_left hi] at h
        have hmem : b ∈ String.utf8EncodeChar c := List.mem_of_getElem? h
        by_cases hc : c.toNat < 0x80
        · have hencoded := utf8EncodeChar_of_ascii hc
          rw [hencoded] at hi hmem
          obtain rfl := List.mem_singleton.mp hmem
          obtain rfl : i = 0 := by simpa using hi
          exact ⟨[], c, cs, rfl, hencoded, rfl⟩
        · exact absurd hb (UInt8.not_lt.mpr (le_of_mem_utf8EncodeChar hc b hmem))
      · rw [List.getElem?_append_right (Nat.le_of_not_lt hi)] at h
        obtain ⟨front, d, back, rfl, hd, hlength⟩ := ih h
        refine ⟨c :: front, d, back, rfl, hd, ?_⟩
        rw [List.flatMap_cons, List.length_append, hlength]
        omega

theorem exists_append_of_byte {text : String} {i : Nat} {b : UInt8} (hb : b < 0x80)
    (h : (bytes text)[i]? = some b) :
    ∃ front mark back, text = front ++ mark ++ back ∧ bytes mark = [b] ∧
      (bytes front).length = i := by
  obtain ⟨front, c, back, hcs, hc, hlength⟩ := exists_append_of_getElem? hb h
  refine ⟨String.ofList front, String.ofList [c], String.ofList back, ?_, ?_, ?_⟩
  · rw [← String.ofList_append, ← String.ofList_append, List.append_assoc, List.singleton_append,
      ← hcs, String.ofList_toList]
  · rw [bytes_ofList, List.flatMap_singleton, hc]
  · rw [bytes_ofList, hlength]

/-- In front of a byte below 0x80 and behind it a text can be cut, and the cuts are those of its
bytes. -/
theorem cut_of_ascii {text : String} {i : Nat} {b : UInt8} (hb : b < 0x80)
    (h : (bytes text)[i]? = some b) :
    IsValid text ⟨i⟩ ∧ IsValid text ⟨i + 1⟩ ∧
      ∃ front back, upTo? text i = some front ∧ from? text (i + 1) = some back ∧
        bytes front = (bytes text).take i ∧ bytes back = (bytes text).drop (i + 1) := by
  obtain ⟨front, mark, back, rfl, hmark, rfl⟩ := exists_append_of_byte hb h
  have hlength : (bytes (front ++ mark)).length = (bytes front).length + 1 := by
    rw [bytes_append, hmark, List.length_append, List.length_singleton]
  obtain ⟨hfront, hupTo, -⟩ := cut_append front (mark ++ back)
  obtain ⟨hback, -, hfrom⟩ := cut_append (front ++ mark) back
  rw [← String.append_assoc] at hfront hupTo
  rw [hlength] at hback hfrom
  refine ⟨hfront, hback, front, back, hupTo, hfrom, ?_, ?_⟩
  · rw [bytes_append, bytes_append, List.append_assoc, List.take_left]
  · rw [bytes_append, ← hlength, List.drop_left]

/-! ## Cutting at the first mark -/

/-- A text in front of the first byte that is `mark`, and behind it; all of the text and nothing
when there is none. None where the text cannot be cut. -/
def cutFirst? (mark : UInt8) (text : String) : Option (String × String) :=
  match (bytes text).idxOf? mark with
  | some place => do return (← upTo? text place, ← from? text (place + 1))
  | none => some (text, "")

theorem getElem?_of_idxOf? {mark : UInt8} {l : List UInt8} {place : Nat}
    (h : l.idxOf? mark = some place) : l[place]? = some mark := by
  obtain ⟨hlt, hbyte, -⟩ := List.idxOf?_eq_some_iff.mp h
  rw [List.getElem?_eq_getElem hlt, hbyte]

/-- At a byte below 0x80 a text can always be cut, and it is cut as its bytes are. -/
theorem exists_cutFirst? {mark : UInt8} (hmark : mark < 0x80) (text : String) :
    ∃ front back, cutFirst? mark text = some (front, back) ∧
      splitFirst mark (bytes text) = (bytes front, bytes back) := by
  cases hplace : (bytes text).idxOf? mark with
  | none =>
      have hmem : mark ∉ bytes text := List.idxOf?_eq_none_iff.mp hplace
      exact ⟨text, "", by rw [cutFirst?, hplace], splitFirst_of_not_mem hmem⟩
  | some place =>
      obtain ⟨-, -, front, back, hfront, hback, hbytes, hbytes'⟩ :=
        cut_of_ascii hmark (getElem?_of_idxOf? hplace)
      have hfirst : (bytes text).idxOf mark = place := by
        rw [List.idxOf_eq_getD_idxOf?, hplace, Option.getD_some]
      refine ⟨front, back, ?_, ?_⟩
      · simp only [cutFirst?, hplace, hfront, hback, Option.bind_eq_bind, Option.bind_some,
          Option.pure_def]
      · rw [splitFirst_eq_take_drop, hfirst, hbytes, hbytes']

end GuestFiles.Text
