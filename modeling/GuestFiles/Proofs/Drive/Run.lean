import GuestFiles.Drive.Map
import GuestFiles.Proofs.Drive.Letter
import Mathlib.Data.List.Induction

/-! # Drive maps under any run of changes

A map answers for a drive what the last change of that drive said, under either case of its letter.
A change that names no drive is refused, and the map stays as it is. -/

namespace GuestFiles.DriveMap

open Host

/-- A change of a map, with its arguments. -/
inductive Change where
  | mount (letter : Char) (root : Path)
  | unmount (letter : Char)
  | setCurrent (letter : Char)

/-- The letter that a change is about. -/
def Change.letter : Change → Char
  | .mount letter _ | .unmount letter | .setCurrent letter => letter

/-- The outcome of a change, and the map afterwards. -/
def perform (map : DriveMap) : Change → Except Failure Unit × DriveMap
  | .mount letter root => map.mount letter root
  | .unmount letter => map.unmount letter
  | .setCurrent letter => map.setCurrent letter

/-- The map after changes, first to last, whether they are refused or not. -/
def run (map : DriveMap) (changes : List Change) : DriveMap :=
  changes.foldl (fun map c => (map.perform c).2) map

/-- The ways to make a map from nothing. -/
inductive Start where
  | empty
  | single (root : Path)
  | perDrive (root : Path)

/-- The map that is made in a way. -/
def Start.map : Start → DriveMap
  | .empty => .empty
  | .single root => .single root
  | .perDrive root => .perDrive root

/-! ## What is under a letter -/

/-- The root under a letter at the start. -/
def Start.root? : Start → Char → Option Path
  | .empty, _ => none
  | .single root, _ => some root
  | .perDrive root, letter => some (root.join [letter.toUpper.toNat.toUInt8])

/-- The root that a change leaves under a letter, if it is about the drive of the letter. -/
def Change.root? (letter : Char) : Change → Option (Option Path)
  | .mount changed root => if changed.toUpper = letter.toUpper then some (some root) else none
  | .unmount changed => if changed.toUpper = letter.toUpper then some none else none
  | .setCurrent _ => none

/-- The letter that a change makes current. -/
def Change.current? : Change → Option Char
  | .setCurrent letter => if Drive.Named letter then some letter.toUpper else none
  | .mount _ _ | .unmount _ => none

/-- What `f` reads off the last change that it reads anything off. -/
def lastOf? {α : Type} (f : Change → Option α) (changes : List Change) : Option α :=
  changes.reverse.findSome? f

/-! ## One change -/

/-- The root of a drive, if it is mounted. -/
def rootOf? (map : DriveMap) : Drive → Option Path
  | ⟨i, _⟩ => map.roots[i]

/-- The map after a change of the given drive. -/
def write (map : DriveMap) : Drive → Change → DriveMap
  | ⟨i, _⟩, .mount _ root => { map with roots := map.roots.set i (some root) }
  | ⟨i, _⟩, .unmount _ => { map with roots := map.roots.set i none }
  | drive, .setCurrent _ => { map with current := drive }

section Step

variable (map : DriveMap)

/-- A change looks its letter up before it writes. -/
theorem perform_eq (c : Change) :
    map.perform c =
      match Drive.ofLetter c.letter with
      | .error failure => (.error failure, map)
      | .ok drive => (.ok (), map.write drive c) := by
  cases c <;> rfl

variable {c : Change}

theorem perform_of_toUpper_eq {drive : Drive} (h : c.letter.toUpper = drive.letter) :
    map.perform c = (.ok (), map.write drive c) := by
  rw [perform_eq, Drive.ofLetter_of_toUpper_eq h]

theorem perform_of_not_named (h : ¬Drive.Named c.letter) :
    map.perform c = (.error (.invalidDrive c.letter), map) := by
  rw [perform_eq, Drive.ofLetter_of_not_named h]

theorem rootOf?_write {changed : Drive} (drive : Drive)
    (h : c.letter.toUpper = changed.letter) :
    (map.write changed c).rootOf? drive = (c.root? drive.letter).getD (map.rootOf? drive) := by
  have hdrive : changed.val = drive.val ↔ c.letter.toUpper = drive.letter.toUpper := by
    rw [h, Drive.toUpper_letter, Drive.letter_inj, Fin.ext_iff]
  cases c with
  | mount letter root =>
      simp only [rootOf?, write, Vector.getElem_set, hdrive, Change.letter, Change.root?]
      split <;> rfl
  | unmount letter =>
      simp only [rootOf?, write, Vector.getElem_set, hdrive, Change.letter, Change.root?]
      split <;> rfl
  | setCurrent letter => rfl

theorem rootOf?_perform (c : Change) (drive : Drive) :
    (map.perform c).2.rootOf? drive = (c.root? drive.letter).getD (map.rootOf? drive) := by
  by_cases hnamed : Drive.Named c.letter
  · obtain ⟨changed, hchanged⟩ := (Drive.named_iff_exists _).mp hnamed
    rw [perform_of_toUpper_eq map hchanged]
    exact rootOf?_write map drive hchanged
  · have hother : ¬c.letter.toUpper = drive.letter.toUpper := by
      rw [Drive.toUpper_letter]
      exact fun h => hnamed ((Drive.named_iff_exists _).mpr ⟨drive, h⟩)
    have hnone : c.root? drive.letter = none := by
      cases c with
      | mount letter root => exact if_neg hother
      | unmount letter => exact if_neg hother
      | setCurrent letter => rfl
    rw [perform_of_not_named map hnamed, hnone]
    rfl

theorem current_perform (c : Change) :
    (map.perform c).2.current.letter = c.current?.getD map.current.letter := by
  by_cases hnamed : Drive.Named c.letter
  · obtain ⟨changed, hchanged⟩ := (Drive.named_iff_exists _).mp hnamed
    rw [perform_of_toUpper_eq map hchanged]
    cases c with
    | mount letter root => rfl
    | unmount letter => rfl
    | setCurrent letter =>
        have hcurrent : (Change.setCurrent letter).current? = some letter.toUpper := if_pos hnamed
        rw [hcurrent]
        exact hchanged.symm
  · rw [perform_of_not_named map hnamed]
    cases c with
    | mount letter root => rfl
    | unmount letter => rfl
    | setCurrent letter =>
        have hcurrent : (Change.setCurrent letter).current? = none := if_neg hnamed
        rw [hcurrent]
        rfl

end Step

/-! ## Runs -/

theorem lastOf?_concat {α : Type} (f : Change → Option α) (changes : List Change) (c : Change) :
    lastOf? f (changes ++ [c]) = (f c).or (lastOf? f changes) := by
  rw [lastOf?, List.reverse_concat, List.findSome?_cons]
  cases f c <;> rfl

/-- What each change sets or leaves alone, a run leaves as the last change has set it. -/
theorem view_run {α : Type} (view : DriveMap → α) {f : Change → Option α}
    (hstep : ∀ map c, view (map.perform c).2 = (f c).getD (view map)) (map : DriveMap)
    (changes : List Change) :
    view (map.run changes) = (lastOf? f changes).getD (view map) := by
  -- from the end, since the last change is the one that counts
  induction changes using List.reverseRecOn with
  | nil => rfl
  | append_singleton changes c ih =>
      have hrun : map.run (changes ++ [c]) = ((map.run changes).perform c).2 := by
        simp [run]
      rw [hrun, hstep, ih, lastOf?_concat]
      cases f c <;> rfl

theorem root_of_toUpper_eq (map : DriveMap) {letter : Char} {drive : Drive}
    (h : letter.toUpper = drive.letter) :
    map.root letter =
      match map.rootOf? drive with
      | some root => .ok root
      | none => .error (.notMounted letter.toUpper) := by
  rw [root, Drive.ofLetter_of_toUpper_eq h, h]
  rfl

theorem root_of_not_named (map : DriveMap) {letter : Char} (h : ¬Drive.Named letter) :
    map.root letter = .error (.invalidDrive letter) := by
  rw [root, Drive.ofLetter_of_not_named h]
  rfl

/-- Maps of one current letter that answer alike for every letter of a drive are the same. -/
theorem eq_of_root_eq {map other : DriveMap} (hcurrent : map.current.letter = other.current.letter)
    (hroot : ∀ letter, Drive.Named letter → map.root letter = other.root letter) :
    map = other := by
  have hroots : map.roots = other.roots := by
    ext i hi : 1
    have hdrive := hroot (Drive.letter ⟨i, hi⟩)
      ((Drive.named_iff_exists _).mpr ⟨⟨i, hi⟩, Drive.toUpper_letter _⟩)
    rw [root_of_toUpper_eq _ (Drive.toUpper_letter _),
      root_of_toUpper_eq _ (Drive.toUpper_letter _)] at hdrive
    change map.rootOf? ⟨i, hi⟩ = other.rootOf? ⟨i, hi⟩
    cases h : map.rootOf? ⟨i, hi⟩ <;> cases h' : other.rootOf? ⟨i, hi⟩ <;> simp_all
  cases map
  cases other
  congr
  exact Drive.letter_inj.mp hcurrent

theorem Change.root?_congr {a b : Char} (h : a.toUpper = b.toUpper) : root? a = root? b := by
  funext c
  cases c with
  | mount letter root => simp only [root?, h]
  | unmount letter => simp only [root?, h]
  | setCurrent letter => rfl

theorem Start.rootOf?_map (start : Start) {letter : Char} {drive : Drive}
    (h : letter.toUpper = drive.letter) : start.map.rootOf? drive = start.root? letter := by
  cases start with
  | empty => simp [rootOf?, Start.map, DriveMap.empty, Start.root?]
  | single root => simp [rootOf?, Start.map, DriveMap.single, Start.root?]
  | perDrive root =>
      have hbyte : ∀ drive : Drive, 0x41 + drive.val.toUInt8 = drive.letter.toNat.toUInt8 := by
        decide
      simp [rootOf?, Start.map, DriveMap.perDrive, Start.root?, h, hbyte]

/-- After any run from any start, the current drive is the one that was made current last, and A at
first. A letter from A to P has the root that the last change of its drive left there, and at first
that of the start. Any other character is refused wherever it stands for a drive. -/
theorem run_spec (start : Start) (changes : List Change) (letter : Char) :
    (start.map.run changes).current.letter = (lastOf? Change.current? changes).getD 'A' ∧
    ('A' ≤ (start.map.run changes).current.letter ∧
      (start.map.run changes).current.letter ≤ 'P') ∧
    (Drive.Named letter →
      (start.map.run changes).root letter =
        match (lastOf? (Change.root? letter) changes).getD (start.root? letter) with
        | some root => .ok root
        | none => .error (.notMounted letter.toUpper)) ∧
    (Drive.Named letter → ∀ c : Change, c.letter = letter →
      ((start.map.run changes).perform c).1 = .ok ()) ∧
    (¬Drive.Named letter → (start.map.run changes).root letter = .error (.invalidDrive letter) ∧
      ∀ c : Change, c.letter = letter →
        (start.map.run changes).perform c =
          (.error (.invalidDrive letter), start.map.run changes)) := by
  refine ⟨?_, Drive.letter_range _, ?_, ?_, ?_⟩
  · have hstart : start.map.current.letter = 'A' := by
      cases start <;> rfl
    rw [← hstart]
    exact view_run (·.current.letter) current_perform start.map changes
  · intro hnamed
    obtain ⟨drive, hdrive⟩ := (Drive.named_iff_exists _).mp hnamed
    have hroot : (start.map.run changes).rootOf? drive =
        (lastOf? (Change.root? drive.letter) changes).getD (start.map.rootOf? drive) :=
      view_run (·.rootOf? drive) (fun map c => rootOf?_perform map c drive) start.map changes
    have hsame : Change.root? letter = Change.root? drive.letter :=
      Change.root?_congr (by rw [hdrive, Drive.toUpper_letter])
    rw [root_of_toUpper_eq _ hdrive, hroot, start.rootOf?_map hdrive, hsame]
  · rintro hnamed c rfl
    obtain ⟨drive, hdrive⟩ := (Drive.named_iff_exists _).mp hnamed
    rw [perform_of_toUpper_eq _ hdrive]
  · intro hnamed
    refine ⟨root_of_not_named _ hnamed, ?_⟩
    rintro c rfl
    exact perform_of_not_named _ hnamed

/-- A drive mounted again, one unmounted under its other case, and changes of characters that name
no drive. -/
theorem run_spec_mixed :
    let map := DriveMap.run (Start.single ⟨[0x72]⟩).map
      [.mount 'd' ⟨[0x31]⟩, .setCurrent 'c', .mount 'B' ⟨[0x32]⟩, .unmount 'b', .setCurrent 'q',
        .mount 'é' ⟨[0x33]⟩, .mount 'D' ⟨[0x34]⟩]
    map.current.letter = 'C' ∧ map.root 'a' = .ok ⟨[0x72]⟩ ∧
      map.root 'b' = .error (.notMounted 'B') ∧ map.root 'd' = .ok ⟨[0x34]⟩ ∧
      map.perform (.unmount 'é') = (.error (.invalidDrive 'é'), map) := by
  intro map
  obtain ⟨hcurrent, -, ha, -, -⟩ := run_spec (.single ⟨[0x72]⟩) _ 'a'
  obtain ⟨-, -, hb, -, -⟩ := run_spec (.single ⟨[0x72]⟩) _ 'b'
  obtain ⟨-, -, hd, -, -⟩ := run_spec (.single ⟨[0x72]⟩) _ 'd'
  obtain ⟨-, -, -, -, he⟩ := run_spec (.single ⟨[0x72]⟩) _ 'é'
  exact ⟨hcurrent, ha (by decide), hb (by decide), hd (by decide), (he (by decide)).2 _ rfl⟩

end GuestFiles.DriveMap
