import GuestFiles.Command.Run
import GuestFiles.Proofs.Command.Arguments
import GuestFiles.Proofs.Drive.Quiet
import GuestFiles.Proofs.Search.Order
import GuestFiles.Proofs.Text.Quoted

/-! # Lists of files as text

A list is printed when the drive map is built and the search succeeds, and only then. It has each
hit once, in order, and nothing of it is printed before the last thing that can go wrong. -/

namespace GuestFiles.Command

open Host

/-! ## The log -/

theorem printLog_true (log : List LogLine) : printLog true log = log.map printLine := by
  have hall : (log.filter fun line => true || line.level == .warn) = log :=
    List.filter_eq_self.mpr fun _ _ => rfl
  rw [printLog, hall]

theorem printLog_false_of_quiet {α : Type} {x : Logged α} (h : x.Quiet) :
    printLog false x.log = [] := by
  rw [printLog, List.filter_eq_nil_iff.mpr, List.map_nil]
  intro line hline
  simpa using h line hline

theorem quiet_driveMap (host : Host) (place : Place) : (driveMap host place).Quiet := by
  cases place with
  | single root => exact Logged.quiet_pure _
  | perDrive root => exact Logged.quiet_pure _
  | config path => exact DriveMap.quiet_load host _

theorem quiet_findHits (host : Host) (pattern : String) (place : Place) :
    (findHits host pattern place).Quiet := by
  refine (quiet_driveMap host place).bind fun built => ?_
  cases built with
  | error failure => exact Logged.quiet_pure _
  | ok map => exact (map.quiet_findTyped host pattern).bind fun _ => Logged.quiet_pure _

/-! ## The map and the search -/

section Hits

variable {host : Host} {place : Place} (pattern : String)

theorem findHits_of_error {failure : Failure} (h : (driveMap host place).value = .error failure) :
    (findHits host pattern place).value = .error failure ∧
      (findHits host pattern place).log = (driveMap host place).log := by
  simp only [findHits, Logged.bind_value, Logged.bind_log, h]
  exact ⟨rfl, List.append_nil _⟩

theorem findHits_of_ok {map : DriveMap} (h : (driveMap host place).value = .ok map) :
    (findHits host pattern place).value = (map.findTyped host pattern).value.map Hit.sort ∧
      (findHits host pattern place).log =
        (driveMap host place).log ++ (map.findTyped host pattern).log := by
  simp only [findHits, Logged.bind_value, Logged.bind_log, h]
  exact ⟨rfl, congrArg _ (List.append_nil _)⟩

/-- One hit alone is in order. -/
theorem findHits_of_one {map : DriveMap} {hit : Hit} (h : (driveMap host place).value = .ok map)
    (hhit : (map.findTyped host pattern).value = .ok [hit]) :
    (findHits host pattern place).value = .ok [hit] := by
  have hsort : Hit.sort [hit] = [hit] := List.mergeSort_singleton hit
  rw [(findHits_of_ok pattern h).1, hhit, Except.map, hsort]

end Hits

/-! ## Lines -/

/-- How many line breaks a text has. -/
def breaks (text : String) : Nat :=
  text.toList.count '\n'

@[simp] theorem breaks_append (a b : String) : breaks (a ++ b) = breaks a + breaks b := by
  rw [breaks, String.toList_append, List.count_append]
  rfl

theorem breaks_eq_zero_iff (text : String) : breaks text = 0 ↔ Text.OneLine text :=
  List.count_eq_zero

@[simp] theorem breaks_repr (n : Nat) : breaks n.repr = 0 :=
  (breaks_eq_zero_iff _).mpr (Text.oneLine_repr n)

@[simp] theorem breaks_blanks (width : Nat) (text : String) : breaks (blanks width text) = 0 := by
  simp [breaks, blanks, List.count_replicate]

theorem breaks_join_cons (text : String) (texts : List String) :
    breaks (String.join (text :: texts)) = breaks text + breaks (String.join texts) := by
  rw [String.join_cons, breaks_append]

/-- Each line ends with a line break of its own. -/
theorem breaks_unlines (lines : List String) :
    breaks (unlines lines) = lines.length + breaks (String.join lines) := by
  induction lines with
  | nil => rfl
  | cons line lines ih =>
      have hbreak : breaks "\n" = 1 := by decide
      have hcons : breaks (unlines (line :: lines)) = breaks line + 1 + breaks (unlines lines) := by
        rw [unlines, List.map_cons, breaks_join_cons, breaks_append, hbreak]
        rfl
      rw [hcons, ih, breaks_join_cons, List.length_cons]
      omega

theorem breaks_join_of_perm {texts others : List String} (h : texts.Perm others) :
    breaks (String.join texts) = breaks (String.join others) := by
  rw [breaks, breaks, String.toList_join, String.toList_join]
  exact (h.flatMap_right String.toList).count_eq _

/-- A hit is printed with the line breaks of its name and of its path. -/
theorem breaks_printHit (hit : Hit) :
    breaks (printHit hit) = breaks (hit.name ++ hit.host.shown) := by
  have hblank : breaks " " = 0 := by simp [breaks]
  have hblanks : breaks "  " = 0 := by simp [breaks]
  simp [printHit, hblank, hblanks]

theorem breaks_printHits (hits : List Hit) :
    breaks (unlines (printHits hits)) =
      hits.length + 1 + breaks (String.join (hits.map fun hit => hit.name ++ hit.host.shown)) := by
  have hcount : breaks (String.join [hits.length.repr ++ " file(s)"]) = 0 := by
    rw [breaks_join_cons, breaks_append, breaks_repr]
    simp [breaks]
  have hlines : breaks (String.join (printHits hits)) =
      breaks (String.join (hits.map fun hit => hit.name ++ hit.host.shown)) := by
    rw [printHits]
    generalize hits.length.repr ++ " file(s)" = last at hcount ⊢
    induction hits with
    | nil => exact hcount
    | cons hit hits ih =>
        rw [List.map_cons, List.cons_append, breaks_join_cons, ih, breaks_printHit, List.map_cons,
          breaks_join_cons]
  rw [breaks_unlines, hlines]
  simp [printHits]

/-! ## Running -/

section Run

variable {host : Host} {trace : Bool} {pattern : String} {place : Place} {limit? : Option Nat}

theorem run_find_of_error {json : Bool} {failure : Failure}
    (h : (findHits host pattern place).value = .error failure) :
    run host ⟨trace, .find pattern place json limit?⟩ =
      failed (printLog trace (findHits host pattern place).log) failure.diagnostic := by
  simp only [run, h]

theorem run_find_of_ok {hits : List Hit} (h : (findHits host pattern place).value = .ok hits) :
    run host ⟨trace, .find pattern place false limit?⟩ =
      ⟨0, unlines (printHits hits), printLog trace (findHits host pattern place).log⟩ := by
  simp only [run, h]
  rfl

theorem runArguments_of_accepted {args : List String} {i : Invocation}
    (h : invocation? args = some i) : runArguments host args = run host i := by
  rw [runArguments, h]

/-- The whole log changes nothing but what is said before a failure. -/
theorem run_find_trace (host : Host) (pattern : String) (place : Place) (limit? : Option Nat) :
    let brief := run host ⟨false, .find pattern place false limit?⟩
    run host ⟨true, .find pattern place false limit?⟩ =
      { brief with complaints :=
          (findHits host pattern place).log.map printLine ++ brief.complaints } := by
  have hquiet := printLog_false_of_quiet (quiet_findHits host pattern place)
  have htrace := printLog_true (findHits host pattern place).log
  cases hfound : (findHits host pattern place).value with
  | error failure =>
      simp only [run_find_of_error hfound, hquiet, htrace, failed, List.nil_append]
  | ok hits => simp only [run_find_of_ok hfound, hquiet, htrace, List.append_nil]

end Run

/-! ## Lists of files -/

/-- An outcome that lists hits: each of them once, in order, and then how many they are. What is
printed for a hit ends with a line break, and has those of its name and its path besides. -/
def Outcome.Lists (outcome : Outcome) (hits : List Hit) : Prop :=
  outcome.code = 0 ∧
  (∃ listed : List Hit, listed.Perm hits ∧ listed.Pairwise (fun a b => (compare a b).isLE) ∧
    outcome.output = unlines (listed.map printHit ++ [hits.length.repr ++ " file(s)"])) ∧
  breaks outcome.output =
    hits.length + 1 + breaks (String.join (hits.map fun hit => hit.name ++ hit.host.shown))

/-- An outcome that prints nothing, and complains of a failure on the last line of what it says. -/
def Outcome.Fails (outcome : Outcome) (log : List String) (failure : Failure) : Prop :=
  outcome = failed log failure.diagnostic ∧ breaks ("Error: " ++ failure.diagnostic) = 0

theorem lists_sort (hits : List Hit) (complaints : List String) :
    Outcome.Lists ⟨0, unlines (printHits (Hit.sort hits)), complaints⟩ hits := by
  have hperm := Hit.sort_perm hits
  refine ⟨rfl, ⟨Hit.sort hits, hperm, Hit.sort_pairwise hits, ?_⟩, ?_⟩
  · rw [printHits, hperm.length_eq]
  · have hbreaks := breaks_join_of_perm (hperm.map fun hit => hit.name ++ hit.host.shown)
    rw [breaks_printHits, hperm.length_eq, hbreaks]

theorem fails_failed (log : List String) (failure : Failure) :
    (failed log failure.diagnostic).Fails log failure := by
  have herror : breaks "Error: " = 0 := by simp [breaks]
  refine ⟨rfl, ?_⟩
  rw [breaks_append, herror, (breaks_eq_zero_iff _).mpr failure.oneLine_diagnostic]

section Outcomes

variable {host : Host} {trace : Bool} {pattern : String} {place : Place} {limit? : Option Nat}

theorem run_lists {map : DriveMap} {hits : List Hit}
    (hmap : (driveMap host place).value = .ok map)
    (hhits : (map.findTyped host pattern).value = .ok hits) :
    (run host ⟨trace, .find pattern place false limit?⟩).Lists hits := by
  obtain ⟨hvalue, -⟩ := findHits_of_ok pattern hmap
  rw [hhits] at hvalue
  rw [run_find_of_ok hvalue]
  exact lists_sort hits _

theorem run_fails_of_map {failure : Failure} (h : (driveMap host place).value = .error failure) :
    (run host ⟨trace, .find pattern place false limit?⟩).Fails
      (printLog trace (driveMap host place).log) failure := by
  obtain ⟨hvalue, hlog⟩ := findHits_of_error pattern h
  rw [run_find_of_error hvalue, hlog]
  exact fails_failed _ failure

theorem run_fails_of_search {map : DriveMap} {failure : Failure}
    (hmap : (driveMap host place).value = .ok map)
    (hfailure : (map.findTyped host pattern).value = .error failure) :
    (run host ⟨trace, .find pattern place false limit?⟩).Fails
      (printLog trace ((driveMap host place).log ++ (map.findTyped host pattern).log))
      failure := by
  obtain ⟨hvalue, hlog⟩ := findHits_of_ok pattern hmap
  rw [hfailure] at hvalue
  rw [run_find_of_error hvalue, hlog]
  exact fails_failed _ failure

theorem Outcome.Fails.code_ne_zero {outcome : Outcome} {log : List String} {failure : Failure}
    (h : outcome.Fails log failure) : outcome.code ≠ 0 := by
  rw [h.1]
  exact (by decide : (1 : UInt8) ≠ 0)

theorem run_code_eq_zero_iff :
    (run host ⟨trace, .find pattern place false limit?⟩).code = 0 ↔
      ∃ map hits, (driveMap host place).value = .ok map ∧
        (map.findTyped host pattern).value = .ok hits := by
  constructor
  · intro hzero
    cases hmap : (driveMap host place).value with
    | error failure => exact absurd hzero (run_fails_of_map hmap).code_ne_zero
    | ok map =>
        cases hhits : (map.findTyped host pattern).value with
        | error failure => exact absurd hzero (run_fails_of_search hmap hhits).code_ne_zero
        | ok hits => exact ⟨map, hits, rfl, hhits⟩
  · rintro ⟨map, hits, hmap, hhits⟩
    exact (run_lists hmap hhits).1

end Outcomes

/-- A list of files is printed exactly when the drive map is built and the search on it succeeds.
Else the first failure is complained of, that of the map before that of the search, and nothing is
printed. Wherever the flag for the whole log stands, it adds log lines to what is said and changes
nothing else. -/
theorem list_outcome (host : Host) {args : List String} {trace : Bool} {pattern : String}
    {place : Place} {limit? : Option Nat}
    (h : invocation? args = some ⟨trace, .find pattern place false limit?⟩) :
    let outcome := runArguments host args
    let built := driveMap host place
    let found := fun map : DriveMap => map.findTyped host pattern
    (outcome.code = 0 ↔
      ∃ map hits, built.value = .ok map ∧ (found map).value = .ok hits) ∧
    (∀ map hits, built.value = .ok map → (found map).value = .ok hits → outcome.Lists hits) ∧
    (∀ failure, built.value = .error failure →
      outcome.Fails (printLog trace built.log) failure) ∧
    (∀ map failure, built.value = .ok map → (found map).value = .error failure →
      outcome.Fails (printLog trace (built.log ++ (found map).log)) failure) ∧
    ∀ argument ∈ traceFlags,
      (trace = false → (invocation? (argument :: args)).isSome) ∧
      ∀ front back, args = front ++ back → (invocation? (front ++ argument :: back)).isSome →
        let traced := runArguments host (front ++ argument :: back)
        traced.code = outcome.code ∧ traced.output = outcome.output ∧
        (trace = true → traced.complaints = outcome.complaints) ∧
        (trace = false → traced.complaints =
          (findHits host pattern place).log.map printLine ++ outcome.complaints) := by
  intro outcome built found
  have houtcome : outcome = run host ⟨trace, .find pattern place false limit?⟩ :=
    runArguments_of_accepted h
  rw [houtcome]
  refine ⟨run_code_eq_zero_iff, fun _ _ => run_lists, fun _ => run_fails_of_map,
    fun _ _ => run_fails_of_search, ?_⟩
  intro argument hargument
  refine ⟨?_, ?_⟩
  · intro htrace
    rw [invocation?_trace_cons hargument h htrace]
    rfl
  · rintro front back rfl hsome traced
    obtain ⟨j, hj⟩ := Option.isSome_iff_exists.mp hsome
    obtain rfl := invocation?_insert_trace hargument h hj
    have htraced : traced = run host ⟨true, .find pattern place false limit?⟩ :=
      runArguments_of_accepted hj
    cases trace with
    | true => simp [htraced]
    | false => simp [htraced, run_find_trace host pattern place limit?]

/-- Two files in one directory. -/
def twoFiles : Disk :=
  .around (.dir (Text.bytes "r")
    (.file (Text.bytes "b") (.zeros 2) (.file (Text.bytes "a.txt") (.zeros 300) .empty)) .empty)

/-- A list of both files, with the whole log and without it, and a search on a drive that does not
exist. -/
theorem list_outcome_two_files :
    let args := ["find", "*.*", "--root", "r"]
    let astray := ["find", "Q:*", "--root", "r"]
    let found := (DriveMap.single (.ofText "r")).findTyped twoFiles.host
    let hits : List Hit := [⟨.ofText "r/b", "B", 2⟩, ⟨.ofText "r/a.txt", "A.TXT", 300⟩]
    (invocation? args = some ⟨false, .find "*.*" (.single "r") false none⟩ ∧
      (found "*.*").value = .ok hits ∧ (runArguments twoFiles.host args).Lists hits) ∧
    (invocation? ("-t" :: args)).isSome ∧
    (runArguments twoFiles.host ("-t" :: args)).output = (runArguments twoFiles.host args).output ∧
    invocation? astray = some ⟨false, .find "Q:*" (.single "r") false none⟩ ∧
    (found "Q:*").value = .error (.invalidDrive 'Q') ∧
    (runArguments twoFiles.host astray).Fails [] (.invalidDrive 'Q') := by
  intro args astray found hits
  have hargs : invocation? args = some ⟨false, .find "*.*" (.single "r") false none⟩ := by
    decide +kernel
  have hastray : invocation? astray = some ⟨false, .find "Q:*" (.single "r") false none⟩ := by
    decide +kernel
  have hhits : (found "*.*").value = .ok hits := rfl
  have hfailure : (found "Q:*").value = .error (.invalidDrive 'Q') := rfl
  have hlog : printLog false (found "Q:*").log = [] := by decide +kernel
  obtain ⟨-, hlists, -, -, htrace⟩ := list_outcome twoFiles.host hargs
  obtain ⟨-, -, -, hfails, -⟩ := list_outcome twoFiles.host hastray
  obtain ⟨haccepted, hsame⟩ := htrace "-t" List.mem_cons_self
  have hsome := haccepted rfl
  have hastrayFails := hfails (.single (.ofText "r")) _ rfl hfailure
  rw [← hlog]
  exact ⟨⟨hargs, hhits, hlists (.single (.ofText "r")) hits rfl hhits⟩, hsome,
    (hsame [] args rfl hsome).2.1, hastray, hfailure, hastrayFails⟩

/-- A file with a line break in its name. -/
def brokenName : Disk :=
  .around (.dir (Text.bytes "r") (.file (Text.bytes "a\nb") (.zeros 1) .empty) .empty)

/-- One hit is found, but the list has more lines than one for it and one for the number of hits. -/
theorem list_lines_broken_name :
    let args := ["find", "*", "--root", "r"]
    let outcome := runArguments brokenName.host args
    invocation? args = some ⟨false, .find "*" (.single "r") false none⟩ ∧
    ((DriveMap.single (.ofText "r")).findTyped brokenName.host "*").value =
      .ok [⟨.ofText "r/a\nb", "A\nB", 1⟩] ∧
    outcome = ⟨0, "A\nB                   1  r/a\nb\n1 file(s)\n", []⟩ ∧
    breaks outcome.output ≠ 1 + 1 := by
  refine ⟨?_, rfl, ?_, ?_⟩
  · decide +kernel
  · decide +kernel
  · decide +kernel

end GuestFiles.Command
