import AgentLoop.Text.Blank
import AgentLoop.Number.Layout
import AgentLoop.Json.Basic
import AgentLoop.Json.Fault
import AgentLoop.Json.Token
import AgentLoop.Json.Tree
import AgentLoop.Json.Printer
import AgentLoop.Answer
import AgentLoop.Arguments
import AgentLoop.Time.Calendar
import AgentLoop.Time.Rfc3339
import AgentLoop.Collection.Keyed
import AgentLoop.Collection.NameSet
import AgentLoop.Json.Reading
import AgentLoop.Conversation.Message
import AgentLoop.Conversation.Transcript
import AgentLoop.Governance.Audit
import AgentLoop.Governance.Context
import AgentLoop.Governance.Policy
import AgentLoop.Model
import AgentLoop.Budget.Basic
import AgentLoop.Budget.Enforcer
import AgentLoop.Observation.Basic
import AgentLoop.Observation.Bus
import AgentLoop.Trace.Basic
import AgentLoop.Trace.Recorder
import AgentLoop.Run.CallIds
import AgentLoop.Run.LoopConfig
import AgentLoop.Run.Pending
import AgentLoop.Run.State
import AgentLoop.Run.Termination
import AgentLoop.Tool.Registry
import AgentLoop.Run.Collaborators
import AgentLoop.Run.Controller
import AgentLoop.Run.Dispatch
import AgentLoop.Run.Run
import AgentLoop.Wire.Budget
import AgentLoop.Wire.Conversation
import AgentLoop.Wire.Governance
import AgentLoop.Wire.Model
import AgentLoop.Wire.Observation
import AgentLoop.Wire.Run
import AgentLoop.Wire.Trace
import AgentLoop.Config.Basic
import AgentLoop.Wire.Config
import AgentLoop.Failure
import AgentLoop.Text.Reader
import AgentLoop.Toml.Basic
import AgentLoop.Toml.Quoted
import AgentLoop.Toml.Table
import AgentLoop.Toml.Document
import AgentLoop.Config.File
import AgentLoop.Governance.Description
import AgentLoop.Script.Replay
import AgentLoop.Wire.Session
import AgentLoop.Command.Configuration
import AgentLoop.Command.Line
import AgentLoop.Command.Replay
import AgentLoop.Command.Run
import AgentLoop.Command.Disk
import AgentLoop.Command.Help
import AgentLoop.Main
import AgentLoop.Proofs.CallIds
import AgentLoop.Proofs.Conversation
import AgentLoop.Proofs.Histories
import AgentLoop.Proofs.Course
import AgentLoop.Proofs.Readings
import AgentLoop.Proofs.Discipline
import AgentLoop.Proofs.Handback
import AgentLoop.Proofs.AuditTrail
import AgentLoop.Proofs.Policy
import AgentLoop.Proofs.LeastPrivilege
import AgentLoop.Proofs.RateLimit
import AgentLoop.Proofs.Tracing
import AgentLoop.Proofs.Strides
import AgentLoop.Proofs.Endings
import AgentLoop.Proofs.Turns
import AgentLoop.Proofs.FailureStreak
import AgentLoop.Proofs.Confirmation
import AgentLoop.Proofs.Steps
import AgentLoop.Proofs.Replay
import AgentLoop.Proofs.Places
import AgentLoop.Proofs.Spending
import AgentLoop.Proofs.SharedBudget
import AgentLoop.Proofs.AuditStory
import AgentLoop.Proofs.ToldTurns
import AgentLoop.Proofs.Recording
import AgentLoop.Proofs.Undisturbed
import AgentLoop.Proofs.MessageIds
import AgentLoop.Proofs.Ledgers
import AgentLoop.Proofs.Cancellation
import AgentLoop.Proofs.Refusals
import AgentLoop.Proofs.Truncation
import AgentLoop.Proofs.Dialogue
import AgentLoop.Proofs.Nesting
import AgentLoop.Proofs.Editing
import AgentLoop.Proofs.RateIndependence
import AgentLoop.Proofs.Metering
import AgentLoop.Proofs.Isolation
import AgentLoop.Proofs.Retention
import AgentLoop.Proofs.Totals
import AgentLoop.Proofs.Unmetered
import AgentLoop.Proofs.CallDurations
import AgentLoop.Proofs.Timekeeping
import AgentLoop.Proofs.Counters
import AgentLoop.Proofs.Lexemes
import AgentLoop.Proofs.Trees
import AgentLoop.Proofs.Timestamps
import AgentLoop.Proofs.Records
import AgentLoop.Proofs.RoundTrip
import AgentLoop.Proofs.Trimming
import AgentLoop.Proofs.Rejections
import AgentLoop.Proofs.FencedAnswers
import AgentLoop.Proofs.Permissions
import AgentLoop.Proofs.Adoption
import AgentLoop.Proofs.WrittenArguments
import AgentLoop.Proofs.Recital
import AgentLoop.Proofs.Deliveries
import AgentLoop.Proofs.ScriptedArguments
import AgentLoop.Proofs.Visits
import AgentLoop.Proofs.Batches
import AgentLoop.Proofs.Narrowing
import AgentLoop.Proofs.Registration
import AgentLoop.Proofs.Exhaustion
import AgentLoop.Proofs.Loading
import AgentLoop.Proofs.Readers
import AgentLoop.Proofs.Rounding
import AgentLoop.Proofs.ShortestDecimals
import AgentLoop.Proofs.QuotedTexts
import AgentLoop.Proofs.Numerals
import AgentLoop.Proofs.WrittenValues
import AgentLoop.Proofs.WrittenDocuments
import AgentLoop.Proofs.Sections
import AgentLoop.Proofs.TomlRecords
import AgentLoop.Proofs.ConfigurationFile
