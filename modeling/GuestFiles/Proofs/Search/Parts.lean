import GuestFiles.Proofs.ControlBlock.Wildcard
import GuestFiles.Proofs.Search.Entry

/-! # Names typed in parts

A name can be typed as a whole, or its two parts one after the other. The whole is put in upper case
before it is cut at its first dot, the parts after it; since upper-casing takes each character by
itself and leaves dots alone, both ways fill the same fields. -/

namespace GuestFiles

namespace ControlBlock

variable {a : String}

theorem segments_upper_append (h : '.' ∉ a.toList) (b : String) :
    segments (Text.upper (a ++ "." ++ b)) =
      (Text.bytes (Text.upper a), Text.bytes (Text.upper b)) := by
  have hlist : (a ++ "." ++ b).toList = a.toList ++ '.' :: b.toList := by simp
  rw [segments_upper, hlist, Text.splitFirst_append_cons h, String.ofList_toList,
    String.ofList_toList]

theorem segments_upper_of_not_mem (h : '.' ∉ a.toList) :
    segments (Text.upper a) = (Text.bytes (Text.upper a), []) := by
  have hrest : Text.bytes (Text.upper (String.ofList [])) = [] := rfl
  rw [segments_upper, Text.splitFirst_of_not_mem h, String.ofList_toList, hrest]

/-- A name with a dot is typed by its two parts. -/
theorem parse_append (h : '.' ∉ a.toList) {b : String}
    (hcolon : (Text.bytes (Text.upper (a ++ "." ++ b)))[1]? ≠ some colonByte) :
    parse (a ++ "." ++ b) = (blank.setName a).setExtension b := by
  rw [parse_of_ne hcolon, segments_upper_append h, setExtension, setName, setRawExtension,
    setRawName, setRaw, setRaw]

/-- A name without a dot is typed by setting the name alone. -/
theorem parse_of_not_mem (h : '.' ∉ a.toList)
    (hcolon : (Text.bytes (Text.upper a))[1]? ≠ some colonByte) : parse a = blank.setName a := by
  have hblank : field 3 [] = blank.extension := rfl
  rw [parse_of_ne hcolon, segments_upper_of_not_mem h, hblank, setName, setRawName, setRaw]

end ControlBlock

open ControlBlock

/-- Typing a name as a whole and in its parts fills the same fields, whether a guest types it or a
search shows it. -/
theorem parse_eq_of_parts :
    (∀ a b : String, '.' ∉ a.toList →
      ((Text.bytes (Text.upper (a ++ "." ++ b)))[1]? ≠ some colonByte →
        parse (a ++ "." ++ b) = (blank.setName a).setExtension b) ∧
      ((Text.bytes (Text.upper a))[1]? ≠ some colonByte → parse a = blank.setName a)) ∧
    ∀ hit : Hit, (Text.bytes (Text.upper hit.name))[1]? ≠ some colonByte →
      hit.entry.name = (parse hit.name).name ∧
        hit.entry.extension = (parse hit.name).extension := by
  refine ⟨fun a b h => ⟨parse_append h, parse_of_not_mem h⟩, fun hit hcolon => ?_⟩
  rw [hit.name_entry, hit.extension_entry, parse_of_ne hcolon]
  exact ⟨rfl, rfl⟩

/-- Letters that grow in upper case, on both sides of the dot. -/
theorem parse_eq_of_parts_ligature :
    '.' ∉ "ﬁle".toList ∧
      (Text.bytes (Text.upper ("ﬁle" ++ "." ++ "ß")))[1]? ≠ some colonByte ∧
      (Text.bytes (Text.upper "ﬁle"))[1]? ≠ some colonByte ∧
      parse "ﬁle.ß" = (blank.setName "ﬁle").setExtension "ß" ∧
      parse "ﬁle" = blank.setName "ﬁle" ∧
      (Hit.entry ⟨.ofText "r/ﬁle.ß", "ﬁle.ß", 1⟩).name = (parse "ﬁle.ß").name ∧
      (parse "ﬁle.ß").name.toList = Text.bytes "FILE    " := by
  have hdot : '.' ∉ "ﬁle".toList := by decide
  have hcolon : (Text.bytes (Text.upper ("ﬁle" ++ "." ++ "ß")))[1]? ≠ some colonByte := by
    decide +kernel
  have hname : (Text.bytes (Text.upper "ﬁle"))[1]? ≠ some colonByte := by decide +kernel
  obtain ⟨hparts, hhits⟩ := parse_eq_of_parts
  obtain ⟨hboth, halone⟩ := hparts "ﬁle" "ß" hdot
  have hentry := hhits ⟨.ofText "r/ﬁle.ß", "ﬁle.ß", 1⟩ hcolon
  exact ⟨hdot, hcolon, hname, hboth hcolon, halone hname, hentry.1, by decide +kernel⟩

end GuestFiles
