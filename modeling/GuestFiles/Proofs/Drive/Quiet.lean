import GuestFiles.Drive.Config

/-! # Searches do not warn

What goes wrong in a search or with a configuration is a failure. The log tells only what was looked
at on the way. -/

namespace GuestFiles

open Host

/-- No line of the log is a warning. -/
def Logged.Quiet {α : Type} (x : Logged α) : Prop :=
  ∀ line ∈ x.log, line.level ≠ .warn

namespace Logged

theorem quiet_pure {α : Type} (a : α) : (pure a : Logged α).Quiet :=
  List.forall_mem_nil _

theorem quiet_write {level : Level} (h : level ≠ .warn) (message : String) :
    (write level message).Quiet := by
  rintro line hline
  obtain rfl := List.mem_singleton.mp hline
  exact h

theorem Quiet.bind {α β : Type} {x : Logged α} {f : α → Logged β} (hx : x.Quiet)
    (hf : ∀ a, (f a).Quiet) : (x >>= f).Quiet := by
  intro line hline
  rcases List.mem_append.mp hline with hline | hline
  · exact hx line hline
  · exact hf x.value line hline

end Logged

variable (pattern : ControlBlock) (root : Path)

theorem ControlBlock.quiet_examine (candidate : String) : (pattern.examine candidate).Quiet := by
  unfold examine
  dsimp only
  split
  · exact Logged.Quiet.bind (Logged.quiet_write (by decide) _) fun _ => Logged.quiet_pure _
  · exact Logged.quiet_pure _

theorem quiet_examineFile (file : Listing.FoundFile) :
    (examineFile pattern root file).Quiet := by
  unfold examineFile
  refine (pattern.quiet_examine _).bind fun accepted => ?_
  split
  · exact Logged.Quiet.bind (Logged.quiet_write (by decide) _) fun _ => Logged.quiet_pure _
  split
  · exact Logged.quiet_pure _
  · exact Logged.Quiet.bind (Logged.quiet_write (by decide) _) fun _ => Logged.quiet_pure _

theorem quiet_examineAll (met : List Listing.Met) : (examineAll pattern root met).Quiet := by
  induction met with
  | nil => exact Logged.quiet_pure _
  | cons first rest ih =>
      cases first with
      | link path depth => exact ih
      | dir path depth => exact ih
      | closed path depth => exact Logged.quiet_pure _
      | file file =>
          refine (quiet_examineFile pattern root file).bind fun examined => ?_
          cases examined with
          | error failure => exact Logged.quiet_pure _
          | ok hit? => exact ih.bind fun _ => Logged.quiet_pure _

theorem quiet_search (host : Host) : (search pattern root host).Quiet := by
  unfold search
  split
  · exact Logged.quiet_pure _
  · exact quiet_examineAll pattern root _

namespace DriveMap

theorem quiet_findOn (map : DriveMap) (host : Host) (letter : Char) :
    (map.findOn host letter pattern).Quiet := by
  unfold findOn
  split
  · exact Logged.quiet_pure _
  · exact Logged.Quiet.bind (Logged.quiet_write (by decide) _) fun _ => quiet_search pattern _ host

theorem quiet_findTyped (map : DriveMap) (host : Host) (text : String) :
    (map.findTyped host text).Quiet := by
  unfold findTyped
  split
  · exact Logged.quiet_pure _
  · exact quiet_findOn _ map host _

theorem quiet_load (host : Host) (path : Path) : (load host path).Quiet := by
  unfold load
  split
  · exact Logged.quiet_pure _
  split
  · exact Logged.quiet_pure _
  · exact Logged.Quiet.bind (Logged.quiet_write (by decide) _) fun _ => Logged.quiet_pure _

end DriveMap

end GuestFiles
