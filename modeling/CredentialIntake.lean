import CredentialIntake.Authentication
import CredentialIntake.Bytes
import CredentialIntake.Bytes.Base64
import CredentialIntake.Bytes.Checksum
import CredentialIntake.Bytes.Deflate
import CredentialIntake.Bytes.Gzip
import CredentialIntake.Bytes.Hex
import CredentialIntake.ClassAd
import CredentialIntake.Contract.AuthMethod
import CredentialIntake.Contract.Rules
import CredentialIntake.Contract.Verdict
import CredentialIntake.Credential.Basic
import CredentialIntake.Credential.Collection
import CredentialIntake.Credential.Fields
import CredentialIntake.Credential.Kind
import CredentialIntake.Credential.Submission
import CredentialIntake.Error
import CredentialIntake.Event
import CredentialIntake.FileTree.Basic
import CredentialIntake.FileTree.Fault
import CredentialIntake.FileTree.Layout
import CredentialIntake.FileTree.Program
import CredentialIntake.Generator.Basic
import CredentialIntake.Generator.Generation
import CredentialIntake.Generator.Registry
import CredentialIntake.Intake.Batch
import CredentialIntake.Intake.Plan
import CredentialIntake.Intake.Processing
import CredentialIntake.Json.Reader
import CredentialIntake.Json.Record
import CredentialIntake.Json.Token
import CredentialIntake.Json.Value
import CredentialIntake.Keys
import CredentialIntake.Path
import CredentialIntake.Policy
import CredentialIntake.Proofs.CredentialNames
import CredentialIntake.Proofs.Deposits
import CredentialIntake.Proofs.EscapedIds
import CredentialIntake.Proofs.FileSteps
import CredentialIntake.Proofs.TextForms
import CredentialIntake.Proofs.PathForms
import CredentialIntake.Proofs.Resolution
import CredentialIntake.Proofs.TreeFrames
import CredentialIntake.Proofs.Trust
import CredentialIntake.Proofs.WriteEffect
import CredentialIntake.Proofs.WriteRuns
import CredentialIntake.Settings.Document
import CredentialIntake.Settings.EntryDescriptor
import CredentialIntake.Settings.Error
import CredentialIntake.Settings.FactoryConfig
import CredentialIntake.Settings.FrontendDescriptor
import CredentialIntake.Settings.UnknownMethods
import CredentialIntake.Store.AtomicWrite
import CredentialIntake.Store.Basic
import CredentialIntake.Store.Compressed
import CredentialIntake.Store.FileNames
import CredentialIntake.Store.LockTable
import CredentialIntake.Store.Writers
import CredentialIntake.Text.Blank
import CredentialIntake.Text.Decimal
import CredentialIntake.Text.Invisible
import CredentialIntake.Text.Quoted
import CredentialIntake.Text.Split
import CredentialIntake.Proofs.Requests
import CredentialIntake.Proofs.Planning
import CredentialIntake.Proofs.FirstFaults
import CredentialIntake.Proofs.Containment
import CredentialIntake.Proofs.KeptDeposits
import CredentialIntake.Proofs.Results
import CredentialIntake.Proofs.SharedFiles
import CredentialIntake.Proofs.Refusals
import CredentialIntake.Proofs.ContractAnswers
import CredentialIntake.Proofs.Holdings
import CredentialIntake.Proofs.Obstacles
import CredentialIntake.Proofs.AllOrNothing
import CredentialIntake.Proofs.AlikeTrees
import CredentialIntake.Proofs.UserDirectories
import CredentialIntake.Proofs.CommutingWrites
import CredentialIntake.Proofs.PoolSteps
import CredentialIntake.Proofs.PoolProgress
import CredentialIntake.Proofs.PoolTotals
import CredentialIntake.Proofs.PoolResults
import CredentialIntake.Proofs.BatchRuns
import CredentialIntake.Proofs.Interruptions
import CredentialIntake.Proofs.WriteStages
import CredentialIntake.Proofs.TornWrites
import CredentialIntake.Proofs.Recovery
import CredentialIntake.Proofs.Reprocessing
import CredentialIntake.Proofs.WriteHistory
import CredentialIntake.Proofs.LockShares
import CredentialIntake.Proofs.LockBalance
import CredentialIntake.Proofs.MutualExclusion
import CredentialIntake.Proofs.OwnerOnly
import CredentialIntake.Proofs.Renewals
import CredentialIntake.Proofs.FreshFiles
import CredentialIntake.Proofs.SealedPlans
import CredentialIntake.Proofs.Secrecy
import CredentialIntake.Proofs.EscapedForms
import CredentialIntake.Proofs.WriteEndings
import CredentialIntake.Proofs.LeftLocks
import CredentialIntake.Proofs.Base64Forms
import CredentialIntake.Proofs.StoredBlocks
import CredentialIntake.Proofs.CompressedLines
import CredentialIntake.Proofs.LiveFiles
import CredentialIntake.Proofs.AlikeDemands
import CredentialIntake.Proofs.DecimalNumbers
import CredentialIntake.Proofs.FieldForms
import CredentialIntake.Proofs.FieldReading
import CredentialIntake.Proofs.CredentialFields
import CredentialIntake.Proofs.Warnings
import CredentialIntake.Proofs.EventTrace
import CredentialIntake.Proofs.EffectiveSettings
import CredentialIntake.Proofs.LocalTokens
import CredentialIntake.Proofs.GeneratorSearch
import CredentialIntake.Proofs.GeneratorBindings
import CredentialIntake.Proofs.SubmissionRuns
import CredentialIntake.Proofs.ByteOrder
import CredentialIntake.Proofs.EmbeddedCredentials
