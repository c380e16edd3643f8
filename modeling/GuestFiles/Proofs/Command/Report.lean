import GuestFiles.Proofs.Command.Listing
import GuestFiles.Proofs.Search.Written

/-! # Lists of files as text and as JSON

A list as JSON reads as the records of the hits that the list as text shows. But a path is written
as JSON only if it is text, while the list as text shows any path. -/

namespace GuestFiles.Command

open Host

section Json

variable {host : Host} {trace : Bool} {pattern : String} {place : Place} {limit? : Option Nat}
  {hits : List Hit}

theorem run_json_of_text (h : (findHits host pattern place).value = .ok hits)
    (htext : ∀ hit ∈ hits, hit.host.text?.isSome) :
    ∃ list, Hit.jsonList? hits = some list ∧
      run host ⟨trace, .find pattern place true limit?⟩ =
        ⟨0, list ++ "\n", printLog trace (findHits host pattern place).log⟩ := by
  obtain ⟨list, hlist⟩ := Option.isSome_iff_exists.mp ((Hit.isSome_jsonList?_iff hits).mpr htext)
  have hline : unlines [list] = list ++ "\n" := by simp [unlines, String.join]
  refine ⟨list, hlist, ?_⟩
  simp only [run, h, hlist, hline]
  rfl

theorem run_json_of_not_text (h : (findHits host pattern place).value = .ok hits)
    (htext : ¬∀ hit ∈ hits, hit.host.text?.isSome) :
    run host ⟨trace, .find pattern place true limit?⟩ =
      failed (printLog trace (findHits host pattern place).log) notWritable := by
  have hlist : Hit.jsonList? hits = none := by
    rw [← Hit.isSome_jsonList?_iff] at htext
    simpa using htext
  simp only [run, h, hlist]
  rfl

end Json

/-- A list of hits as text and one as JSON agree: they end with the same code, the one prints the
hits and their number, and the other reads as one record for each hit, in the same order. -/
structure SameReport (hits : List Hit) (text json : Outcome) : Prop where
  code : json.code = text.code
  lines : text.output = unlines (hits.map printHit ++ [hits.length.repr ++ " file(s)"])
  records : Json.readRecords json.output = .ok (hits.map Hit.record)

section Same

variable {host : Host} {trace : Bool} {pattern : String} {place : Place} {limit? : Option Nat}

theorem sameReport_of_text {hits : List Hit} (h : (findHits host pattern place).value = .ok hits)
    (htext : ∀ hit ∈ hits, hit.host.text?.isSome) :
    SameReport hits (run host ⟨trace, .find pattern place false limit?⟩)
      (run host ⟨trace, .find pattern place true limit?⟩) := by
  obtain ⟨list, hlist, hjson⟩ := run_json_of_text h htext
  rw [hjson, run_find_of_ok h]
  exact ⟨rfl, rfl, Hit.readRecords_jsonList? hlist⟩

theorem sameReport_iff_of_ok {hits : List Hit}
    (h : (findHits host pattern place).value = .ok hits) :
    SameReport hits (run host ⟨trace, .find pattern place false limit?⟩)
      (run host ⟨trace, .find pattern place true limit?⟩) ↔
        ∀ hit ∈ hits, hit.host.text?.isSome := by
  refine ⟨?_, sameReport_of_text h⟩
  intro hsame
  by_cases htext : ∀ hit ∈ hits, hit.host.text?.isSome
  · exact htext
  · have hcode := hsame.code
    rw [run_json_of_not_text h htext, run_find_of_ok h] at hcode
    cases hcode

end Same

/-- Any list of files can be asked for as JSON too. Wherever the flag for it stands, the two lists
agree exactly when the paths of all hits are text. Else the list as JSON fails, and nothing of it is
printed. A failure of the search itself is the same for both. -/
theorem report_same_iff (host : Host) {args : List String} {trace : Bool} {pattern : String}
    {place : Place} {limit? : Option Nat}
    (h : invocation? args = some ⟨trace, .find pattern place false limit?⟩) :
    (∃ front back, args = front ++ back ∧ (invocation? (front ++ "--json" :: back)).isSome) ∧
    ∀ front back, args = front ++ back → (invocation? (front ++ "--json" :: back)).isSome →
      let text := runArguments host args
      let json := runArguments host (front ++ "--json" :: back)
      match (findHits host pattern place).value with
      | .error failure =>
        json = text ∧ text = failed (printLog trace (findHits host pattern place).log)
          failure.diagnostic
      | .ok hits =>
        text.code = 0 ∧ (SameReport hits text json ↔ ∀ hit ∈ hits, hit.host.text?.isSome) ∧
        ((∃ hit ∈ hits, hit.host.text? = none) → json.code = 1 ∧ json.output = "") := by
  refine ⟨?_, ?_⟩
  · obtain ⟨front, back, hargs, hjson⟩ := exists_insert_json h
    exact ⟨front, back, hargs, by rw [hjson]; rfl⟩
  · rintro front back rfl hsome text json
    obtain ⟨j, hj⟩ := Option.isSome_iff_exists.mp hsome
    obtain ⟨_, _, _, _, hi, rfl⟩ := invocation?_insert_json h hj
    cases hi
    have htext : text = run host ⟨trace, .find pattern place false limit?⟩ :=
      runArguments_of_accepted h
    have hjson : json = run host ⟨trace, .find pattern place true limit?⟩ :=
      runArguments_of_accepted hj
    cases hfound : (findHits host pattern place).value with
    | error failure =>
        rw [hjson, htext, run_find_of_error hfound, run_find_of_error hfound]
        exact ⟨rfl, rfl⟩
    | ok hits =>
        rw [hjson, htext]
        refine ⟨?_, sameReport_iff_of_ok hfound, ?_⟩
        · rw [run_find_of_ok hfound]
        · rintro ⟨hit, hhit, hnone⟩
          have hbroken : ¬∀ hit ∈ hits, hit.host.text?.isSome := by
            intro hall
            have hsome := hall hit hhit
            rw [hnone] at hsome
            cases hsome
          rw [run_json_of_not_text hfound hbroken]
          exact ⟨rfl, rfl⟩

/-- A file whose name is text, and one whose name is not. -/
def textPath : Disk :=
  .around (.dir (Text.bytes "r") (.file (Text.bytes "é.c") (.zeros 130) .empty) .empty)

def brokenPath : Disk :=
  .around (.dir (Text.bytes "r") (.file [0x61, 0xFF, 0x62] (.zeros 2) .empty) .empty)

theorem report_same_iff_one_file :
    let args := ["find", "*.*", "--root", "r"]
    let hit : Hit := ⟨.ofText "r/é.c", "É.C", 130⟩
    let broken : Hit := ⟨⟨[0x72, 0x2F, 0x61, 0xFF, 0x62]⟩, "A\uFFFDB", 2⟩
    invocation? args = some ⟨false, .find "*.*" (.single "r") false none⟩ ∧
    (invocation? (args ++ ["--json"])).isSome ∧
    SameReport [hit] (runArguments textPath.host args)
      (runArguments textPath.host (args ++ ["--json"])) ∧
    ¬SameReport [broken] (runArguments brokenPath.host args)
      (runArguments brokenPath.host (args ++ ["--json"])) := by
  intro args hit broken
  have hargs : invocation? args = some ⟨false, .find "*.*" (.single "r") false none⟩ := by
    decide +kernel
  have hjson : (invocation? (args ++ ["--json"])).isSome := by decide +kernel
  have hfound : (findHits textPath.host "*.*" (.single "r")).value = .ok [hit] :=
    findHits_of_one "*.*" rfl rfl
  have hbroken : (findHits brokenPath.host "*.*" (.single "r")).value = .ok [broken] :=
    findHits_of_one "*.*" rfl rfl
  obtain ⟨-, hsame⟩ := report_same_iff textPath.host hargs
  obtain ⟨-, hdiffer⟩ := report_same_iff brokenPath.host hargs
  have hsame := hsame args [] (List.append_nil _).symm hjson
  have hdiffer := hdiffer args [] (List.append_nil _).symm hjson
  rw [hfound] at hsame
  rw [hbroken] at hdiffer
  refine ⟨hargs, hjson, hsame.2.1.mpr ?_, fun h => ?_⟩
  · decide +kernel
  · have htext := hdiffer.2.1.mp h
    revert htext
    decide +kernel

/-- The list as text shows a path that is no text, and the list as JSON fails. -/
theorem list_json_broken_path :
    let args := ["find", "*", "--root", "r"]
    runArguments brokenPath.host args =
      ⟨0, "A\uFFFDB                   2  r/a\uFFFDb\n1 file(s)\n", []⟩ ∧
    runArguments brokenPath.host (args ++ ["--json"]) =
      ⟨1, "", ["Error: " ++ notWritable]⟩ := by
  refine ⟨?_, ?_⟩
  · decide +kernel
  · decide +kernel

end GuestFiles.Command
