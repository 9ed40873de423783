import ScopedSettings.Cache.Removal
import ScopedSettings.Main
import ScopedSettings.Proofs.Json.Records
import ScopedSettings.Proofs.Program.Related
import ScopedSettings.Proofs.Cache.Contents
import ScopedSettings.Scenario.Run
import ScopedSettings.Service.Runs
import ScopedSettings.Proofs.Json.Numerals
import ScopedSettings.Proofs.Json.Texts
import ScopedSettings.Proofs.Settings.RoundTrip
import ScopedSettings.Proofs.Files.Contents
import ScopedSettings.Proofs.Store.Persistence
import ScopedSettings.Proofs.Store.FileRecord
import ScopedSettings.Proofs.Store.KeptRecord
import ScopedSettings.Proofs.Service.Accounts
import ScopedSettings.Proofs.Service.WriteHistory
import ScopedSettings.Proofs.Service.ReadYourWrites
import ScopedSettings.Proofs.Store.OrdinaryFile
import ScopedSettings.Proofs.Service.InStep
import ScopedSettings.Proofs.Service.FileAndMemory
import ScopedSettings.Proofs.Files.Shape
import ScopedSettings.Proofs.Store.FailedCommits
import ScopedSettings.Proofs.Service.Isolation
import ScopedSettings.Service.Concourse
import ScopedSettings.Proofs.Service.Turns
import ScopedSettings.Proofs.Service.SideBySide
import ScopedSettings.Proofs.Service.Committing
import ScopedSettings.Proofs.Service.Overtaking
import ScopedSettings.Proofs.Http.Stages
import ScopedSettings.Proofs.Http.Traffic
import ScopedSettings.Proofs.Http.Changes
import ScopedSettings.Proofs.Http.Linearized
import ScopedSettings.Proofs.Service.LeftOut
import ScopedSettings.Proofs.Service.UnseenReads
import ScopedSettings.Proofs.Http.FailurePolicy
import ScopedSettings.Proofs.Http.EntriesGone
import ScopedSettings.Proofs.Service.FailedWrites
import ScopedSettings.Proofs.Service.Timeouts
import ScopedSettings.Proofs.Strand.Agree
import ScopedSettings.Proofs.Program.Fits
import ScopedSettings.Proofs.Program.Lexical
import ScopedSettings.Proofs.Service.Upholding
import ScopedSettings.Proofs.Settings.Validity
import ScopedSettings.Proofs.Service.Validity
import ScopedSettings.Proofs.Scenario.Validity
import ScopedSettings.Proofs.Scenario.CurrentWorker
import ScopedSettings.Proofs.Files.Sibling
import ScopedSettings.Store.Contention
import ScopedSettings.Proofs.Store.Replacing
import ScopedSettings.Proofs.Store.FileStages
import ScopedSettings.Proofs.Store.Alongside
import ScopedSettings.Proofs.Store.WholeRecords
import ScopedSettings.Proofs.Store.Serialized
import ScopedSettings.Proofs.CommandLine.Launches
import ScopedSettings.Proofs.CommandLine.Starting
import ScopedSettings.Proofs.Http.CacheAccounts
import ScopedSettings.Proofs.Settings.UpdateFormat
import ScopedSettings.Proofs.Settings.Presentation
import ScopedSettings.Proofs.Store.CommitFrame
import ScopedSettings.Proofs.Service.ExactlyOnce
import ScopedSettings.Proofs.Cache.History
import ScopedSettings.Proofs.Settings.Listing
