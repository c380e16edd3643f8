import GuestFiles.Drive.Config
import GuestFiles.Proofs.Json.Written

/-! # Configurations written and read again

What is written of a configuration reads as the configuration. The roots come in the order of their
letters, so that each of them is inserted behind those read before it. -/

namespace GuestFiles

namespace Assignments

/-- A letter behind all others is inserted at the end. -/
theorem insertInto_of_lt {letter : Char} {root : String} {entries : List (Char × String)}
    (h : ∀ entry ∈ entries, entry.1 < letter) :
    insertInto letter root entries = entries ++ [(letter, root)] := by
  induction entries with
  | nil => rfl
  | cons first rest ih =>
      have hfirst : first.1 < letter := h first List.mem_cons_self
      have hrest := ih fun entry hentry => h entry (List.mem_cons_of_mem first hentry)
      rw [insertInto, if_neg (Char.lt_asymm hfirst), if_neg (Ne.symm (Char.ne_of_lt hfirst)), hrest,
        List.cons_append]

end Assignments

namespace Config

/-- The member of an object that gives a letter its root. -/
def rootMember (entry : Char × String) : String × List Char :=
  (String.singleton entry.1, Json.writeString entry.2)

theorem rootMembers_value (drives : Assignments) (entry : Char × String) (rest : List Char) :
    rootMembers.value drives (String.singleton entry.1) (Json.writeString entry.2 ++ rest) =
      .ok (drives.insert entry.1 entry.2, rest) := by
  simp only [rootMembers, Json.readText_writeString, bind, Except.bind,
    Json.singleChar?_singleton]

/-- Roots behind those that were read before are taken in one after the other. -/
theorem takes_rootMembers {front back : List (Char × String)}
    (h : (front ++ back).Pairwise (·.1 < ·.1)) (hfront : front.Pairwise (·.1 < ·.1)) :
    rootMembers.Takes ⟨front, hfront⟩ (back.map rootMember) ⟨front ++ back, h⟩ := by
  induction back generalizing front with
  | nil =>
      simp only [List.append_nil, List.map_nil]
      exact .nil _
  | cons entry back ih =>
      have hbefore : ∀ other ∈ front, other.1 < entry.1 := fun other hother =>
        (List.pairwise_append.mp h).2.2 other hother entry List.mem_cons_self
      have hsplit : front ++ entry :: back = (front ++ [entry]) ++ back := by simp
      have hnext : (front ++ [entry]).Pairwise (·.1 < ·.1) :=
        (List.pairwise_append.mp (hsplit ▸ h)).1
      have hinsert : (Assignments.mk front hfront).insert entry.1 entry.2 =
          ⟨front ++ [entry], hnext⟩ := by
        simp only [Assignments.insert, Assignments.insertInto_of_lt hbefore]
      have hmore := ih (hsplit ▸ h) hnext
      simp only [← hsplit] at hmore
      refine .cons ?_ (fun rest => ?_) hmore
      · simp [rootMembers]
      · rw [← hinsert]
        exact rootMembers_value _ entry rest

theorem readDrives_written (drives : Assignments) (rest : List Char) :
    readDrives ('{' :: Json.objectTail true (drives.entries.map rootMember) ++ rest) =
      .ok (drives, rest) := by
  have hincreasing : (([] : List (Char × String)) ++ drives.entries).Pairwise (·.1 < ·.1) :=
    drives.increasing
  have htakes : rootMembers.Takes .empty (drives.entries.map rootMember) drives :=
    takes_rootMembers hincreasing .nil
  exact Json.readObject_of_takes htakes rest

/-- The members of a written configuration. -/
def texts (config : Config) : List (String × List Char) :=
  [("default", Json.writeString (String.singleton config.default)),
    ("drives", '{' :: Json.objectTail true (config.drives.entries.map rootMember))]

theorem toList_write (config : Config) :
    config.write.toList = '{' :: Json.objectTail true config.texts := by
  have hentries := Json.flatten_intersperse_members (config.drives.entries.map rootMember)
  have hentry : (fun text : String × List Char => Json.writeString text.1 ++ ':' :: text.2) ∘
      rootMember = writeEntry := rfl
  rw [List.map_map, hentry] at hentries
  simp [write, texts, Json.objectTail, ← hentries]

theorem takes_members (config : Config) :
    members.Takes ⟨none, none⟩ config.texts ⟨some config.default, some config.drives⟩ := by
  have hdefault : ∀ rest, members.value ⟨none, none⟩ "default"
      (Json.writeString (String.singleton config.default) ++ rest) =
        .ok (⟨some config.default, none⟩, rest) := by
    intro rest
    simp only [members, Json.readChar_writeString, bind, Except.bind, if_pos]
  have hdrives : ∀ rest, members.value ⟨some config.default, none⟩ "drives"
      ('{' :: Json.objectTail true (config.drives.entries.map rootMember) ++ rest) =
        .ok (⟨some config.default, some config.drives⟩, rest) := by
    intro rest
    have hne : "drives" ≠ "default" := by decide
    simp only [members, if_neg hne, readDrives_written, bind, Except.bind, if_pos]
  exact .cons rfl hdefault (.cons rfl hdrives (.nil _))

theorem readAll_write (config : Config) : readAll config.write.toList = .ok config := by
  have hparts : readParts config.write.toList =
      .ok (⟨some config.default, some config.drives⟩, []) := by
    have hread := Json.readObject_of_takes config.takes_members []
    rw [toList_write]
    rwa [List.append_nil] at hread
  simp only [readAll, hparts, bind, Except.bind]
  rfl

/-- A written configuration reads as the configuration. So what is written of any configuration that
was read from a text reads as the same one, and is written in the same way again. -/
theorem parse_write_stable :
    (∀ config : Config, parse config.write = .ok config) ∧
      ∀ (text : String) (config : Config), parse text = .ok config →
        ∃ again, parse config.write = .ok again ∧ again = config ∧ again.write = config.write := by
  have hparse : ∀ config : Config, parse config.write = .ok config := fun config => by
    rw [parse, readAll_write]
    rfl
  exact ⟨hparse, fun _ config _ => ⟨config, hparse config, rfl, rfl⟩⟩

/-- A list with an escape in it, and an object with a member of another name in front. -/
theorem parse_write_stable_forms :
    let ofList : Config := ⟨'b', ⟨[('A', "/a\n")], by decide⟩⟩
    let ofObject : Config := ⟨'A', ⟨[('A', "/a"), ('B', "/b")], by decide⟩⟩
    (parse "[\"b\", \x7b\"A\": \"/a\\n\"\x7d]" = .ok ofList ∧
      ∃ again, parse ofList.write = .ok again ∧ again = ofList ∧ again.write = ofList.write) ∧
    (parse "\x7b\"x\": [1], \"drives\": \x7b\"B\": \"/b\", \"A\": \"/a\"\x7d \x7d" = .ok ofObject ∧
      ∃ again, parse ofObject.write = .ok again ∧ again = ofObject ∧
        again.write = ofObject.write) := by
  intro ofList ofObject
  have hlist : parse "[\"b\", \x7b\"A\": \"/a\\n\"\x7d]" = .ok ofList := rfl
  have hobject : parse "\x7b\"x\": [1], \"drives\": \x7b\"B\": \"/b\", \"A\": \"/a\"\x7d \x7d" =
      .ok ofObject := rfl
  exact ⟨⟨hlist, parse_write_stable.2 _ ofList hlist⟩,
    ⟨hobject, parse_write_stable.2 _ ofObject hobject⟩⟩

end Config

end GuestFiles
