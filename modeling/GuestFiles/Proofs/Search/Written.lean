import GuestFiles.Proofs.Json.Records
import GuestFiles.Search.Hit

/-! # Hits written as JSON

Hits can be written as JSON when the paths of all of them are text. What is written reads as one
record for each hit, in the same order. -/

namespace GuestFiles

open Host

section MapM

variable {α β γ : Type} {f : α → Option β}

/-- What can be told of an element from its image, can be told of a list from its images. -/
theorem map_of_mapM {g : β → γ} {k : α → γ} (h : ∀ {a b}, f a = some b → g b = k a) {as : List α}
    {bs : List β} (hbs : as.mapM f = some bs) : bs.map g = as.map k := by
  induction as generalizing bs with
  | nil =>
      obtain rfl := Option.some.inj hbs
      rfl
  | cons a as ih =>
      rw [List.mapM_cons] at hbs
      obtain ⟨b, hb, hbs⟩ := Option.bind_eq_some_iff.mp hbs
      obtain ⟨more, hmore, hbs⟩ := Option.bind_eq_some_iff.mp hbs
      obtain rfl := Option.some.inj hbs
      rw [List.map_cons, List.map_cons, h hb, ih hmore]

theorem isSome_mapM_iff (as : List α) : (as.mapM f).isSome ↔ ∀ a ∈ as, (f a).isSome := by
  induction as with
  | nil => simp
  | cons a as ih =>
      rw [List.mapM_cons, List.forall_mem_cons, ← ih]
      cases f a with
      | none => simp
      | some b => cases as.mapM f <;> simp

end MapM

/-- A path that is text is shown as it is. -/
theorem Host.Path.shown_of_text? {path : Path} {text : String} (h : path.text? = some text) :
    path.shown = text := by
  obtain ⟨cs, hcs, rfl⟩ := Option.map_eq_some_iff.mp h
  have hshown : cs.map id = (Text.pieces path.bytes).map Text.Piece.shown := by
    refine map_of_mapM ?_ hcs
    intro piece c hc
    rw [Text.Piece.shown, hc]
    rfl
  rw [shown, Text.lossy, ← hshown, List.map_id]

namespace Hit

/-- The members of a hit as they are written. -/
def record (hit : Hit) : Json.Record :=
  [("host", .text hit.host.shown), ("name", .text hit.name), ("size", .number hit.size.toNat)]

theorem fits_record (hit : Hit) : hit.record.Fits := by
  have hsize : hit.size.toNat ≤ Json.maxWord := Nat.le_sub_one_of_lt hit.size.toNat_lt
  simp [Json.Record.Fits, record, Json.Scalar.Fits, hsize]

/-- Each member, each record and each end stands on a line of its own. -/
def layout : Json.Layout where
  key := ['\n', ' ', ' ', ' ', ' ']
  recordEnd := ['\n', ' ', ' ']
  record := ['\n', ' ', ' ']
  listEnd := ['\n']
  blank := by simp [Json.isBlank]

/-- A hit as it is written in a list. -/
def text (hit : Hit) : List Char :=
  hit.record.write layout.key layout.recordEnd

theorem toList_json? {hit : Hit} {item : String} (h : hit.json? = some item) :
    item.toList = ' ' :: ' ' :: hit.text := by
  obtain ⟨host, hhost, rfl⟩ := Option.map_eq_some_iff.mp h
  have hshown := Path.shown_of_text? hhost
  have hhostKey : Json.writeString "host" = "\"host\"".toList := by decide
  have hnameKey : Json.writeString "name" = "\"name\"".toList := by decide
  have hsizeKey : Json.writeString "size" = "\"size\"".toList := by decide
  simp [text, record, hshown, Json.Record.write, Json.Record.texts, Json.spacedTail,
    Json.Scalar.write, layout, hhostKey, hnameKey, hsizeKey]

/-- Written hits between brackets are a list. -/
theorem intercalate_lines {texts : List (List Char)} (h : texts ≠ []) :
    '\n' :: ([',', '\n'].intercalate (texts.map (' ' :: ' ' :: ·)) ++ ['\n', ']']) =
      Json.listTail layout.record layout.listEnd true texts := by
  cases texts with
  | nil => exact absurd rfl h
  | cons text texts =>
      clear h
      induction texts generalizing text with
      | nil => simp [Json.listTail, layout]
      | cons other texts ih =>
          rw [Json.listTail, Json.listTail_false_cons, ← ih other, List.map_cons, List.map_cons,
            List.intercalate_cons_cons]
          simp [layout]

/-- Hits can be written as JSON exactly when their paths are text. -/
theorem isSome_jsonList?_iff (hits : List Hit) :
    (jsonList? hits).isSome ↔ ∀ hit ∈ hits, hit.host.text?.isSome := by
  cases hits with
  | nil => simp [jsonList?]
  | cons hit hits =>
      have hjson : ∀ hit : Hit, hit.json?.isSome = hit.host.text?.isSome := fun hit => by
        rw [json?, Option.isSome_map]
      simp only [jsonList?, Option.isSome_map, isSome_mapM_iff, hjson]

theorem toList_jsonList? {hits : List Hit} {list : String} (h : jsonList? hits = some list)
    (hne : hits ≠ []) : list.toList = '[' :: layout.tail true (hits.map record) := by
  have hwritten : (hits.mapM json?).map
      (fun items => "[\n" ++ String.intercalate ",\n" items ++ "\n]") = some list := by
    cases hits with
    | nil => exact absurd rfl hne
    | cons hit hits => exact h
  obtain ⟨items, hitems, rfl⟩ := Option.map_eq_some_iff.mp hwritten
  have htexts : items.map String.toList = (hits.map text).map (' ' :: ' ' :: ·) := by
    rw [map_of_mapM toList_json? hitems, List.map_map]
    rfl
  have hlines : '\n' :: ([',', '\n'].intercalate (items.map String.toList) ++ ['\n', ']']) =
      Json.listTail layout.record layout.listEnd true (hits.map text) := by
    rw [htexts]
    exact intercalate_lines (by simpa using hne)
  have htail : layout.tail true (hits.map record) =
      Json.listTail layout.record layout.listEnd true (hits.map text) := by
    rw [Json.Layout.tail, List.map_map]
    rfl
  rw [htail, ← hlines]
  simp [String.toList_intercalate]

/-- A written list reads as the records of its hits. -/
theorem readRecords_jsonList? {hits : List Hit} {list : String} (h : jsonList? hits = some list) :
    Json.readRecords (list ++ "\n") = .ok (hits.map record) := by
  by_cases hne : hits = []
  · subst hne
    obtain rfl := Option.some.inj h
    rfl
  · have hfits : ∀ members ∈ hits.map record, Json.Record.Fits members := by
      simpa using fun hit _ => hit.fits_record
    have htext : (list ++ "\n").toList = '[' :: (layout.tail true (hits.map record) ++ ['\n']) := by
      rw [String.toList_append, toList_jsonList? h hne]
      rfl
    exact Json.readRecords_written layout hfits htext (by simp [Json.isBlank])

end Hit

end GuestFiles
