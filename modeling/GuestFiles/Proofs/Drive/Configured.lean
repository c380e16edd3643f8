import GuestFiles.Drive.Config
import GuestFiles.Proofs.Drive.Run
import Mathlib.Data.List.Nodup

/-! # Maps of configurations

A configuration gives a map only as a whole. Its default letter is looked at first, then the letters
of its roots from the least on, and the first that names no drive is refused. Where a drive is given
under both cases of its letter, the root under the greater letter is kept, which is the one in lower
case. -/

namespace GuestFiles

open Host

namespace Config

/-! ## What a configuration asks for -/

/-- The letters that have a root. -/
def letters (config : Config) : List Char :=
  config.drives.entries.map (·.1)

/-- The last entry, in the order of the letters, that names the drive of `letter` in either case. -/
structure Last (config : Config) (letter : Char) (entry : Char × String) : Prop where
  mem : entry ∈ config.drives.entries
  same : entry.1.toUpper = letter.toUpper
  greatest : ∀ other ∈ config.drives.entries, other.1.toUpper = letter.toUpper → other.1 ≤ entry.1

/-- A map that is made as a configuration says: every letter with a root names a drive, and each
drive has the root that is given for it last. -/
structure Describes (config : Config) (map : DriveMap) : Prop where
  default : Drive.Named config.default
  letters : ∀ letter ∈ config.letters, Drive.Named letter
  current : map.current.letter = config.default.toUpper
  given : ∀ letter entry, config.Last letter entry → map.root letter = .ok (.ofText entry.2)
  notGiven : ∀ letter, Drive.Named letter →
    (∀ other ∈ config.letters, other.toUpper ≠ letter.toUpper) →
      map.root letter = .error (.notMounted letter.toUpper)

/-- What comes of a configuration: the refusal of its default letter, or else of the least letter
that names no drive, or else the map that it asks for. -/
inductive Gives (config : Config) : Except Failure DriveMap → Prop where
  | noDefault (hdefault : ¬Drive.Named config.default) :
    Gives config (.error (.invalidDrive config.default))
  | noDrive {letter : Char} (hdefault : Drive.Named config.default)
    (hmem : letter ∈ config.letters) (hletter : ¬Drive.Named letter)
    (hleast : ∀ other ∈ config.letters, ¬Drive.Named other → letter ≤ other) :
    Gives config (.error (.invalidDrive letter))
  | map {map : DriveMap} (h : config.Describes map) : Gives config (.ok map)

variable {config : Config}

theorem mem_letters_of_mem {entry : Char × String} (h : entry ∈ config.drives.entries) :
    entry.1 ∈ config.letters :=
  List.mem_map_of_mem h

theorem exists_of_mem_letters {letter : Char} (h : letter ∈ config.letters) :
    ∃ root, (letter, root) ∈ config.drives.entries := by
  obtain ⟨⟨_, root⟩, hmem, rfl⟩ := List.mem_map.mp h
  exact ⟨root, hmem⟩

/-- Behind the last entry of a drive, no letter names the drive. -/
theorem Last.exists_split {letter : Char} {entry : Char × String} (h : config.Last letter entry) :
    ∃ front back, config.drives.entries = front ++ entry :: back ∧
      ∀ other ∈ back, other.1.toUpper ≠ letter.toUpper := by
  obtain ⟨front, back, hsplit⟩ := List.append_of_mem h.mem
  have hincreasing := config.drives.increasing
  rw [hsplit, List.pairwise_append, List.pairwise_cons] at hincreasing
  refine ⟨front, back, hsplit, fun other hother hsame => ?_⟩
  have hgreater : entry.1 < other.1 := hincreasing.2.1.1 other hother
  have hle : other.1 ≤ entry.1 := h.greatest other (by simp [hsplit, hother]) hsame
  exact Char.not_lt.mpr hle hgreater

/-- In a list in order, of the elements with a property there is one in front of the others. -/
theorem exists_first {α : Type} {r : α → α → Prop} {p : α → Prop} {l : List α} (hl : l.Pairwise r)
    (h : ∃ a ∈ l, p a) : ∃ a ∈ l, p a ∧ ∀ b ∈ l, p b → a = b ∨ r a b := by
  induction l with
  | nil => simp at h
  | cons first rest ih =>
      obtain ⟨hbefore, hrest⟩ := List.pairwise_cons.mp hl
      by_cases hfirst : p first
      · refine ⟨first, List.mem_cons_self, hfirst, fun b hb _ => ?_⟩
        exact (List.mem_cons.mp hb).imp Eq.symm (hbefore b)
      · have hothers : ∃ a ∈ rest, p a := by
          simpa [hfirst] using h
        obtain ⟨a, ha, hpa, hfront⟩ := ih hrest hothers
        refine ⟨a, List.mem_cons_of_mem first ha, hpa, fun b hb hpb => ?_⟩
        rcases List.mem_cons.mp hb with rfl | hb
        · exact absurd hpb hfirst
        · exact hfront b hb hpb

theorem le_of_eq_or_lt {a b : Char} (h : a = b ∨ a < b) : a ≤ b := by
  rcases h with rfl | h
  · exact Char.le_refl a
  · exact Char.not_lt.mp (Char.lt_asymm h)

/-- A drive that is given at all is given last. -/
theorem exists_last (letter : Char)
    (h : ∃ other ∈ config.letters, other.toUpper = letter.toUpper) :
    ∃ entry, config.Last letter entry := by
  have hentries : ∃ entry ∈ config.drives.entries.reverse, entry.1.toUpper = letter.toUpper := by
    simpa [letters] using h
  obtain ⟨entry, hmem, hsame, hgreatest⟩ :=
    exists_first (List.pairwise_reverse.mpr config.drives.increasing) hentries
  refine ⟨entry, List.mem_reverse.mp hmem, hsame, fun other hother hotherSame => ?_⟩
  have horder := hgreatest other (List.mem_reverse.mpr hother) hotherSame
  exact le_of_eq_or_lt (horder.imp_left fun heq => congrArg Prod.fst heq.symm)

/-- Of the letters that name no drive there is a least one. -/
theorem exists_least (h : ∃ letter ∈ config.letters, ¬Drive.Named letter) :
    ∃ letter ∈ config.letters, ¬Drive.Named letter ∧
      ∀ other ∈ config.letters, ¬Drive.Named other → letter ≤ other := by
  have hletters : config.letters.Pairwise (· < ·) :=
    List.pairwise_map.mpr config.drives.increasing
  obtain ⟨letter, hmem, hnot, hleast⟩ := exists_first hletters h
  exact ⟨letter, hmem, hnot, fun other hother hotherNot =>
    le_of_eq_or_lt (hleast other hother hotherNot)⟩

theorem Describes.unique {map other : DriveMap} (h : config.Describes map)
    (h' : config.Describes other) : map = other := by
  apply DriveMap.eq_of_root_eq (h.current.trans h'.current.symm)
  intro letter hletter
  by_cases hgiven : ∃ other ∈ config.letters, other.toUpper = letter.toUpper
  · obtain ⟨entry, hlast⟩ := exists_last _ hgiven
    rw [h.given _ _ hlast, h'.given _ _ hlast]
  · have hnone : ∀ other ∈ config.letters, other.toUpper ≠ letter.toUpper :=
      fun other hother hsame => hgiven ⟨other, hother, hsame⟩
    rw [h.notGiven _ hletter hnone, h'.notGiven _ hletter hnone]

/-- A configuration gives one outcome. -/
theorem Gives.unique {a b : Except Failure DriveMap} (ha : config.Gives a) (hb : config.Gives b) :
    a = b := by
  cases ha with
  | noDefault hdefault =>
      cases hb with
      | noDefault => rfl
      | noDrive hnamed => exact absurd hnamed hdefault
      | map h => exact absurd h.default hdefault
  | noDrive hnamed hmem hletter hleast =>
      cases hb with
      | noDefault hdefault => exact absurd hnamed hdefault
      | noDrive _ hmem' hletter' hleast' =>
          rw [Char.le_antisymm (hleast _ hmem' hletter') (hleast' _ hmem hletter)]
      | map h => exact absurd (h.letters _ hmem) hletter
  | map h =>
      cases hb with
      | noDefault hdefault => exact absurd h.default hdefault
      | noDrive _ hmem hletter => exact absurd (h.letters _ hmem) hletter
      | map h' => rw [h.unique h']

end Config

namespace DriveMap

/-! ## Mounting one after the other -/

/-- The change that mounts an entry. -/
def mounting (entry : Char × String) : Change :=
  .mount entry.1 (.ofText entry.2)

theorem mountAll_of_named (map : DriveMap) {entries : List (Char × String)}
    (h : ∀ entry ∈ entries, Drive.Named entry.1) :
    map.mountAll entries = (.ok (), map.run (entries.map mounting)) := by
  induction entries generalizing map with
  | nil => rfl
  | cons entry entries ih =>
      obtain ⟨hentry, hentries⟩ := List.forall_mem_cons.mp h
      obtain ⟨drive, hdrive⟩ := (Drive.named_iff_exists _).mp hentry
      have hperform : map.perform (mounting entry) = (.ok (), map.write drive (mounting entry)) :=
        perform_of_toUpper_eq (c := mounting entry) map hdrive
      have hmount : map.mount entry.1 (.ofText entry.2) = _ := hperform
      simp [mountAll, hmount, run, hperform, ih _ hentries]

/-- Letters in front of the first that names no drive make no difference to its refusal. -/
theorem mountAll_of_not_named (map : DriveMap) {front : List (Char × String)} {letter : Char}
    (hfront : ∀ entry ∈ front, Drive.Named entry.1) (h : ¬Drive.Named letter) (root : String)
    (back : List (Char × String)) :
    (map.mountAll (front ++ (letter, root) :: back)).1 = .error (.invalidDrive letter) := by
  induction front generalizing map with
  | nil => simp [mountAll, mount, Drive.ofLetter_of_not_named h]
  | cons entry front ih =>
      obtain ⟨hentry, hrest⟩ := List.forall_mem_cons.mp hfront
      obtain ⟨drive, hdrive⟩ := (Drive.named_iff_exists _).mp hentry
      simp [mountAll, mount, Drive.ofLetter_of_toUpper_eq hdrive, ih _ hrest]

/-- The changes that a configuration asks for, in their order. -/
def changes (config : Config) : List Change :=
  .setCurrent config.default :: config.drives.entries.map mounting

section Built

variable {config : Config}

theorem ofConfig_of_default (h : ¬Drive.Named config.default) :
    ofConfig config = .error (.invalidDrive config.default) := by
  simp [ofConfig, setCurrent, Drive.ofLetter_of_not_named h, bind, Except.bind]

theorem setCurrent_of_named (h : Drive.Named config.default) :
    empty.setCurrent config.default =
      (.ok (), (empty.perform (.setCurrent config.default)).2) := by
  obtain ⟨drive, hdrive⟩ := (Drive.named_iff_exists _).mp h
  rw [perform, setCurrent, Drive.ofLetter_of_toUpper_eq hdrive]

theorem ofConfig_of_least {letter : Char} (hdefault : Drive.Named config.default)
    (hmem : letter ∈ config.letters) (hletter : ¬Drive.Named letter)
    (hleast : ∀ other ∈ config.letters, ¬Drive.Named other → letter ≤ other) :
    ofConfig config = .error (.invalidDrive letter) := by
  obtain ⟨root, hentry⟩ := Config.exists_of_mem_letters hmem
  obtain ⟨front, back, hsplit⟩ := List.append_of_mem hentry
  have hincreasing := config.drives.increasing
  rw [hsplit, List.pairwise_append] at hincreasing
  have hfront : ∀ entry ∈ front, Drive.Named entry.1 := by
    intro entry hbefore
    by_contra hnot
    have hlt : entry.1 < letter := hincreasing.2.2 entry hbefore _ List.mem_cons_self
    have hle : letter ≤ entry.1 :=
      hleast _ (Config.mem_letters_of_mem (by simp [hsplit, hbefore])) hnot
    exact Char.not_lt.mpr hle hlt
  simp [ofConfig, setCurrent_of_named hdefault, bind, Except.bind, hsplit,
    mountAll_of_not_named _ hfront hletter]

theorem ofConfig_of_named (hdefault : Drive.Named config.default)
    (hletters : ∀ letter ∈ config.letters, Drive.Named letter) :
    ofConfig config = .ok (empty.run (changes config)) := by
  have hentries : ∀ entry ∈ config.drives.entries, Drive.Named entry.1 := fun entry hentry =>
    hletters entry.1 (Config.mem_letters_of_mem hentry)
  simp [ofConfig, setCurrent_of_named hdefault, bind, Except.bind, pure, Except.pure,
    mountAll_of_named _ hentries, changes, run]

/-! ## What the map holds -/

theorem lastOf?_of_split {α : Type} {f : Change → Option α} (front : List Change) {c : Change}
    {back : List Change} {a : α} (hc : f c = some a) (hback : ∀ other ∈ back, f other = none) :
    lastOf? f (front ++ c :: back) = some a := by
  have hnone : back.reverse.findSome? f = none := by
    simpa [List.findSome?_eq_none_iff] using hback
  simp [lastOf?, hnone, hc]

theorem lastOf?_root_of_last {letter : Char} {entry : Char × String}
    (h : config.Last letter entry) :
    lastOf? (Change.root? letter) (changes config) = some (some (.ofText entry.2)) := by
  obtain ⟨front, back, hsplit, hback⟩ := h.exists_split
  have hchanges : changes config =
      (.setCurrent config.default :: front.map mounting) ++
        mounting entry :: back.map mounting := by
    simp [changes, hsplit]
  rw [hchanges]
  apply lastOf?_of_split
  · simp [mounting, Change.root?, h.same]
  · intro other hother
    obtain ⟨otherEntry, hmem, rfl⟩ := List.mem_map.mp hother
    simp [mounting, Change.root?, hback otherEntry hmem]

theorem lastOf?_root_of_not_mem {letter : Char}
    (h : ∀ other ∈ config.letters, other.toUpper ≠ letter.toUpper) :
    lastOf? (Change.root? letter) (changes config) = none := by
  have hnone : ∀ c ∈ changes config, Change.root? letter c = none := by
    intro c hc
    rcases List.mem_cons.mp hc with rfl | hc
    · rfl
    · obtain ⟨entry, hentry, rfl⟩ := List.mem_map.mp hc
      simp [mounting, Change.root?, h entry.1 (Config.mem_letters_of_mem hentry)]
  simpa [lastOf?, List.findSome?_eq_none_iff] using hnone

theorem current_run_changes (h : Drive.Named config.default) :
    (empty.run (changes config)).current.letter = config.default.toUpper := by
  have hlast : lastOf? Change.current? (changes config) = some config.default.toUpper := by
    apply lastOf?_of_split [] (if_pos h)
    intro other hother
    obtain ⟨entry, -, rfl⟩ := List.mem_map.mp hother
    rfl
  rw [view_run (·.current.letter) current_perform, hlast]
  rfl

theorem root_run_changes {letter : Char} (h : Drive.Named letter) :
    (empty.run (changes config)).root letter =
      match (lastOf? (Change.root? letter) (changes config)).getD none with
      | some root => .ok root
      | none => .error (.notMounted letter.toUpper) := by
  obtain ⟨drive, hdrive⟩ := (Drive.named_iff_exists letter).mp h
  have hsame : Change.root? letter = Change.root? drive.letter :=
    Change.root?_congr (by rw [hdrive, Drive.toUpper_letter])
  have hempty : empty.rootOf? drive = none := by
    simp [rootOf?, empty]
  have hroot := root_of_toUpper_eq (empty.run (changes config)) hdrive
  rw [view_run (·.rootOf? drive) (fun map c => rootOf?_perform map c drive), ← hsame, hempty]
    at hroot
  exact hroot

theorem gives_ofConfig (config : Config) : config.Gives (ofConfig config) := by
  by_cases hdefault : Drive.Named config.default
  · by_cases hletters : ∀ letter ∈ config.letters, Drive.Named letter
    · rw [ofConfig_of_named hdefault hletters]
      refine .map ⟨hdefault, hletters, current_run_changes hdefault, ?_, ?_⟩
      · intro letter entry hlast
        have hnamed := hletters entry.1 (Config.mem_letters_of_mem hlast.mem)
        rw [Drive.named_iff_toUpper, hlast.same, ← Drive.named_iff_toUpper] at hnamed
        rw [root_run_changes hnamed, lastOf?_root_of_last hlast]
        rfl
      · intro letter hnamed hnone
        rw [root_run_changes hnamed, lastOf?_root_of_not_mem hnone]
        rfl
    · have hrefused : ∃ letter ∈ config.letters, ¬Drive.Named letter := by
        simpa using hletters
      obtain ⟨letter, hmem, hletter, hleast⟩ := Config.exists_least hrefused
      rw [ofConfig_of_least hdefault hmem hletter hleast]
      exact .noDrive hdefault hmem hletter hleast
  · rw [ofConfig_of_default hdefault]
    exact .noDefault hdefault

theorem describes_of_ofConfig {map : DriveMap} (h : ofConfig config = .ok map) :
    config.Describes map := by
  have hgives := gives_ofConfig config
  rw [h] at hgives
  cases hgives with
  | map hmap => exact hmap

end Built

/-- What comes of a file: the fault that keeps it from being read, or the fault in what its text
spells, or else what its configuration gives. -/
inductive Loaded (host : Host) (path : Path) : Except Failure DriveMap → Prop where
  | unreadable {fault : Fault} (h : readText host path = .error fault) :
    Loaded host path (.error (.unreadable fault))
  | badConfig {text : String} {fault : Json.Fault} (hread : readText host path = .ok text)
    (h : Config.parse text = .error fault) : Loaded host path (.error (.badConfig fault))
  | given {text : String} {config : Config} {outcome : Except Failure DriveMap}
    (hread : readText host path = .ok text) (hparse : Config.parse text = .ok config)
    (h : config.Gives outcome) : Loaded host path outcome

theorem loaded_load (host : Host) (path : Path) : Loaded host path (load host path).value := by
  cases hread : readText host path with
  | error fault =>
      simp only [load, hread]
      exact .unreadable hread
  | ok text =>
      cases hparse : Config.parse text with
      | error fault =>
          simp only [load, hread, hparse]
          exact .badConfig hread hparse
      | ok config =>
          simp only [load, hread, hparse]
          exact .given hread hparse (gives_ofConfig config)

theorem Loaded.value_load {host : Host} {path : Path} {outcome : Except Failure DriveMap}
    (h : Loaded host path outcome) : (load host path).value = outcome := by
  cases h with
  | unreadable h =>
      simp only [load, h]
      rfl
  | badConfig hread h =>
      simp only [load, hread, h]
      rfl
  | @given text config outcome hread hparse h =>
      simp only [load, hread, hparse]
      exact (gives_ofConfig config).unique h

/-- A configuration gives what it asks for and nothing else: a whole map, or a failure and no map. A
file gives what its configuration does, once it is read. Neither takes in a map that is there
before, so such a map stays as it is. -/
theorem ofConfig_eq_iff :
    (∀ config outcome, ofConfig config = outcome ↔ config.Gives outcome) ∧
    ∀ host path outcome, (load host path).value = outcome ↔ Loaded host path outcome := by
  refine ⟨fun config outcome => ⟨?_, ?_⟩, fun host path outcome => ⟨?_, ?_⟩⟩
  · rintro rfl
    exact gives_ofConfig config
  · exact (gives_ofConfig config).unique
  · rintro rfl
    exact loaded_load host path
  · exact Loaded.value_load

/-- Of two letters that name no drive the least is refused, and a letter in lower case is mounted
over the one in upper case. A file with the same letters is refused too. -/
theorem ofConfig_eq_iff_mixed :
    let refused : Config := ⟨'b', ⟨[('A', "x"), ('Q', "y"), ('é', "z")], by decide⟩⟩
    let given : Config := ⟨'b', ⟨[('A', "x"), ('C', "y"), ('a', "z")], by decide⟩⟩
    let text := "\x7b\"default\":\"b\",\"drives\":\x7b\"é\":\"z\",\"Q\":\"y\",\"A\":\"x\"\x7d\x7d"
    let host : Host := fun path =>
      if path = .ofText "drives" then .ok ⟨.file (.bytes (Text.bytes text)), false⟩
      else .error .noEntry
    ofConfig refused = .error (.invalidDrive 'Q') ∧
      (∃ map, ofConfig given = .ok map ∧ map.current.letter = 'B' ∧
        map.root 'A' = .ok (.ofText "z") ∧ map.root 'c' = .ok (.ofText "y") ∧
        map.root 'd' = .error (.notMounted 'D')) ∧
      (load host (.ofText "drives")).value = .error (.invalidDrive 'Q') ∧
      (load host (.ofText "none")).value = .error (.unreadable .noEntry) := by
  intro refused given text host
  obtain ⟨hconfig, hload⟩ := ofConfig_eq_iff
  have hrefused : refused.Gives (.error (.invalidDrive 'Q')) :=
    .noDrive (by decide) (by decide) (by decide) (by simp [refused, Config.letters, Drive.Named])
  have hread : readText host (.ofText "drives") = .ok text := by decide
  have hparse : Config.parse text = .ok refused := by
    dsimp only [text, refused]
    rfl
  obtain ⟨map, hgiven⟩ : ∃ map, ofConfig given = .ok map :=
    ⟨_, ofConfig_of_named (by decide) (by simp [given, Config.letters, Drive.Named])⟩
  refine ⟨(hconfig _ _).mpr hrefused, ⟨map, hgiven, ?_⟩,
    (hload _ _ _).mpr (.given hread hparse hrefused), (hload _ _ _).mpr (.unreadable (by decide))⟩
  cases (hconfig _ _).mp hgiven with
  | map hmap =>
      refine ⟨hmap.current.trans (by decide), hmap.given 'A' ('a', "z") ?_,
        hmap.given 'c' ('C', "y") ?_, hmap.notGiven 'd' (by decide) ?_⟩
      · exact ⟨by decide, by decide, by decide⟩
      · exact ⟨by decide, by decide, by decide⟩
      · simp [given, Config.letters]

/-! ## Letters of one drive -/

/-- The drives that have a root. -/
def mounted (map : DriveMap) : List Drive :=
  (List.finRange 16).filter fun drive => (map.rootOf? drive).isSome

section Letters

variable {config : Config} {map : DriveMap}

/-- A letter that is not also given in lower case is the last of its drive. -/
theorem last_of_toLower (h : config.Describes map) {entry : Char × String}
    (hmem : entry ∈ config.drives.entries)
    (hlower : entry.1.toLower = entry.1 ∨ entry.1.toLower ∉ config.letters) :
    config.Last entry.1 entry := by
  refine ⟨hmem, rfl, fun other hother hsame => ?_⟩
  have hnamed := h.letters _ (Config.mem_letters_of_mem hmem)
  have hother := Config.mem_letters_of_mem hother
  obtain ⟨hupper, hentryLower, -⟩ := Drive.cases_of_named hnamed
  obtain ⟨-, hotherLower, heq | heq⟩ := Drive.cases_of_named (h.letters _ hother)
  · rwa [heq, hsame]
  · rw [hotherLower, hsame, ← hentryLower] at heq
    rcases hlower with hlower | hnot
    · exact heq.trans hlower ▸ Char.le_refl _
    · exact absurd (heq ▸ hother) hnot

theorem mem_mounted_iff (h : config.Describes map) (drive : Drive) :
    drive ∈ map.mounted ↔ ∃ letter ∈ config.letters, letter.toUpper = drive.letter := by
  have hmem : drive ∈ map.mounted ↔ ∃ root, map.root drive.letter = .ok root := by
    rw [root_of_toUpper_eq _ (Drive.toUpper_letter drive)]
    cases hroot : map.rootOf? drive <;> simp [mounted, hroot]
  have hnamed : Drive.Named drive.letter :=
    (Drive.named_iff_exists _).mpr ⟨drive, Drive.toUpper_letter drive⟩
  rw [hmem]
  constructor
  · rintro ⟨root, hroot⟩
    by_contra hnone
    have hnotGiven := h.notGiven drive.letter hnamed fun other hother hsame =>
      hnone ⟨other, hother, hsame.trans (Drive.toUpper_letter drive)⟩
    rw [hroot] at hnotGiven
    cases hnotGiven
  · rintro ⟨letter, hmem, hletter⟩
    obtain ⟨entry, hlast⟩ := Config.exists_last drive.letter
      ⟨letter, hmem, hletter.trans (Drive.toUpper_letter drive).symm⟩
    exact ⟨_, h.given _ _ hlast⟩

/-- Where no two letters name one drive, as many drives are mounted as there are letters. -/
theorem length_mounted (h : config.Describes map)
    (hdistinct : config.letters.Pairwise (·.toUpper ≠ ·.toUpper)) :
    map.mounted.length = config.drives.entries.length := by
  have hmounted : (map.mounted.map Drive.letter).Nodup :=
    List.Nodup.map (fun _ _ => Drive.letter_inj.mp) ((List.nodup_finRange 16).filter _)
  have hletters : (config.letters.map Char.toUpper).Nodup := List.pairwise_map.mpr hdistinct
  have hperm : (map.mounted.map Drive.letter).Perm (config.letters.map Char.toUpper) := by
    rw [List.perm_ext_iff_of_nodup hmounted hletters]
    intro upper
    simp only [List.mem_map, mem_mounted_iff h]
    constructor
    · rintro ⟨drive, hgiven, rfl⟩
      exact hgiven
    · rintro ⟨letter, hmem, rfl⟩
      obtain ⟨drive, hdrive⟩ := (Drive.named_iff_exists letter).mp (h.letters letter hmem)
      exact ⟨drive, ⟨letter, hmem, hdrive⟩, hdrive.symm⟩
  simpa [Config.letters] using hperm.length_eq

/-- A file that gives a map spells the configuration of the map, and one line is written of it. -/
theorem load_eq_ok {host : Host} {path : Path} (h : (load host path).value = .ok map) :
    ∃ text config, readText host path = .ok text ∧ Config.parse text = .ok config ∧
      ofConfig config = .ok map ∧ (load host path).log =
        [⟨.debug, "loaded " ++ config.drives.entries.length.repr ++ " drive(s) from " ++
          path.shown⟩] := by
  cases hread : readText host path with
  | error fault => simp [load, hread] at h
  | ok text =>
      cases hparse : Config.parse text with
      | error fault => simp [load, hread, hparse] at h
      | ok config =>
          refine ⟨text, config, rfl, hparse, ?_, ?_⟩
          · simpa [load, hread, hparse] using h
          · simp [load, hread, hparse]

end Letters

/-- Of a configuration that gives a map, each letter has the root of the last letter of its drive,
which is its own unless it is in upper case and the same letter in lower case is given too. Where a
file gives a map and no two letters in it name one drive, the log tells how many drives are
mounted. -/
theorem root_ofConfig :
    (∀ config map, ofConfig config = .ok map → ∀ entry ∈ config.drives.entries,
      (∃ last, config.Last entry.1 last ∧ map.root entry.1 = .ok (.ofText last.2)) ∧
      (entry.1.toLower = entry.1 ∨ entry.1.toLower ∉ config.letters →
        map.root entry.1 = .ok (.ofText entry.2))) ∧
    (∀ host path map, (load host path).value = .ok map →
      ∃ text config, readText host path = .ok text ∧ Config.parse text = .ok config ∧
        ofConfig config = .ok map ∧
        (config.letters.Pairwise (·.toUpper ≠ ·.toUpper) → (load host path).log =
          [⟨.debug, "loaded " ++ map.mounted.length.repr ++ " drive(s) from " ++
            path.shown⟩])) := by
  constructor
  · intro config map hmap entry hentry
    have hbuilt := describes_of_ofConfig hmap
    constructor
    · obtain ⟨last, hlast⟩ := Config.exists_last entry.1
        ⟨_, Config.mem_letters_of_mem hentry, rfl⟩
      exact ⟨last, hlast, hbuilt.given _ _ hlast⟩
    · intro hlower
      exact hbuilt.given _ _ (last_of_toLower hbuilt hentry hlower)
  · intro host path map hload
    obtain ⟨text, config, hread, hparse, hmap, hlog⟩ := load_eq_ok hload
    refine ⟨text, config, hread, hparse, hmap, fun hdistinct => ?_⟩
    rw [hlog, length_mounted (describes_of_ofConfig hmap) hdistinct]

/-- A file with two letters of different drives. -/
theorem root_ofConfig_two :
    let text := "\x7b\"drives\":\x7b\"B\":\"x\",\"c\":\"y\"\x7d\x7d"
    let host : Host := fun _ => .ok ⟨.file (.bytes (Text.bytes text)), false⟩
    let path : Path := .ofText "drives"
    ∃ map, (load host path).value = .ok map ∧ map.root 'B' = .ok (.ofText "x") ∧
      map.root 'c' = .ok (.ofText "y") ∧ (load host path).log =
        [⟨.debug, "loaded " ++ map.mounted.length.repr ++ " drive(s) from " ++ path.shown⟩] := by
  intro text host path
  let config : Config := ⟨'A', ⟨[('B', "x"), ('c', "y")], by decide⟩⟩
  obtain ⟨hroot, hload⟩ := root_ofConfig
  have hread : readText host path = .ok text := by decide
  have hparse : Config.parse text = .ok config := by
    dsimp only [text, config]
    rfl
  obtain ⟨map, hmap⟩ : ∃ map, ofConfig config = .ok map :=
    ⟨_, ofConfig_of_named (by decide) (by simp [config, Config.letters, Drive.Named])⟩
  have hvalue : (load host path).value = .ok map := by
    simp [load, hread, hparse, hmap]
  obtain ⟨text', config', hread', hparse', -, hlog⟩ := hload _ _ _ hvalue
  obtain rfl : text = text' := Except.ok.inj (hread.symm.trans hread')
  obtain rfl : config = config' := Except.ok.inj (hparse.symm.trans hparse')
  exact ⟨map, hvalue, (hroot config map hmap ('B', "x") (by decide)).2 (by decide),
    (hroot config map hmap ('c', "y") (by decide)).2 (by decide), hlog (by decide)⟩

/-- Of two letters of one drive, the one in upper case is mounted over, and the log counts it. -/
theorem load_both_cases :
    let text := "\x7b\"drives\":\x7b\"A\":\"x\",\"a\":\"y\"\x7d\x7d"
    let config : Config := ⟨'A', ⟨[('A', "x"), ('a', "y")], by decide⟩⟩
    let host : Host := fun _ => .ok ⟨.file (.bytes (Text.bytes text)), false⟩
    let path : Path := .ofText "drives"
    Config.parse text = .ok config ∧ ('A', "x") ∈ config.drives.entries ∧
      ∃ map, ofConfig config = .ok map ∧ (load host path).value = .ok map ∧
        map.root 'A' = .ok (.ofText "y") ∧ map.root 'A' ≠ .ok (.ofText "x") ∧
        (load host path).log = [⟨.debug, "loaded 2 drive(s) from " ++ path.shown⟩] ∧
        map.mounted.length = 1 := by
  intro text config host path
  have hread : readText host path = .ok text := by decide
  have hparse : Config.parse text = .ok config := by
    dsimp only [text, config]
    rfl
  have hmap : ofConfig config = .ok (empty.run (changes config)) :=
    ofConfig_of_named (by decide) (by simp [config, Config.letters, Drive.Named])
  have hroot : (empty.run (changes config)).root 'A' = .ok (.ofText "y") :=
    (describes_of_ofConfig hmap).given 'A' ('a', "y") ⟨by decide, by decide, by decide⟩
  refine ⟨hparse, by decide, _, hmap, ?_, hroot, ?_, ?_, ?_⟩
  · simp [load, hread, hparse, hmap]
  · rw [hroot]
    simp only [ne_eq, Except.ok.injEq]
    decide
  · have htwo : "loaded " ++ Nat.repr 2 ++ " drive(s) from " = "loaded 2 drive(s) from " := by
      decide
    simp [load, hread, hparse, config, htwo]
  · decide +kernel

end DriveMap

end GuestFiles
