import GuestFiles.ControlBlock.Shown
import GuestFiles.Main
import GuestFiles.Proofs.Command.Dump
import GuestFiles.Proofs.Command.Listing
import GuestFiles.Proofs.Command.Placing
import GuestFiles.Proofs.Command.Report
import GuestFiles.Proofs.ControlBlock.Ambiguity
import GuestFiles.Proofs.ControlBlock.Groups
import GuestFiles.Proofs.ControlBlock.Position
import GuestFiles.Proofs.ControlBlock.Typed
import GuestFiles.Proofs.ControlBlock.Window
import GuestFiles.Proofs.Drive.Agree
import GuestFiles.Proofs.Drive.Config
import GuestFiles.Proofs.Drive.Configured
import GuestFiles.Proofs.Drive.Directories
import GuestFiles.Proofs.Drive.Quiet
import GuestFiles.Proofs.Host.Change
import GuestFiles.Proofs.Host.Spelling
import GuestFiles.Proofs.Json.Records
import GuestFiles.Proofs.Search.Attributes
import GuestFiles.Proofs.Search.Case
import GuestFiles.Proofs.Search.Cuts
import GuestFiles.Proofs.Search.Filter
import GuestFiles.Proofs.Search.Log
import GuestFiles.Proofs.Search.Parts
import GuestFiles.Proofs.Search.Records
import GuestFiles.Proofs.Search.Reopen
import GuestFiles.Proofs.Search.Sorted
import GuestFiles.Proofs.Search.Stable
import GuestFiles.Proofs.Search.Written
import GuestFiles.Proofs.Text.Hex
import GuestFiles.Proofs.Text.Order
import GuestFiles.Proofs.Text.Quoted
