import AgentRun.Agent
import AgentRun.Budget
import AgentRun.Calendar.Date
import AgentRun.Calendar.Timestamp
import AgentRun.Channel
import AgentRun.CommandLine.Arguments
import AgentRun.CommandLine.DemoTools
import AgentRun.CommandLine.Files
import AgentRun.CommandLine.Session
import AgentRun.Config
import AgentRun.Decimal.Binary
import AgentRun.Decimal.Reading
import AgentRun.Decimal.Shortest
import AgentRun.Duration
import AgentRun.Error
import AgentRun.Event
import AgentRun.Identifier
import AgentRun.Json.Basic
import AgentRun.Json.Document
import AgentRun.Json.Outline
import AgentRun.Json.Printer
import AgentRun.Json.Reader
import AgentRun.Json.Record
import AgentRun.LogFilter
import AgentRun.Main
import AgentRun.Message
import AgentRun.Model.Chunk
import AgentRun.Model.Client
import AgentRun.Model.Request
import AgentRun.Plan.Basic
import AgentRun.Plan.Tools
import AgentRun.Rendezvous
import AgentRun.Retry
import AgentRun.Run.Delivery
import AgentRun.Run.Dispatch
import AgentRun.Run.Engine
import AgentRun.Run.ModelCall
import AgentRun.Run.Stages
import AgentRun.Run.State
import AgentRun.Run.Waiting
import AgentRun.Script.Behaviour
import AgentRun.Script.Document
import AgentRun.Script.Reply
import AgentRun.Skill
import AgentRun.Template
import AgentRun.Text.Ascii
import AgentRun.Text.Blank
import AgentRun.Text.Lower
import AgentRun.Text.Numeral
import AgentRun.Text.Quoted
import AgentRun.Text.Ranges
import AgentRun.Text.Visible
import AgentRun.Text.Word
import AgentRun.Tool.Basic
import AgentRun.Tool.Body
import AgentRun.Tool.Registry
import AgentRun.Tool.Workers
import AgentRun.Turn
import AgentRun.Collector
import AgentRun.Proofs.Parts
import AgentRun.Proofs.Journal
import AgentRun.Proofs.Waiting
import AgentRun.Proofs.Assembly
import AgentRun.Proofs.Delivery
import AgentRun.Proofs.ModelCall
import AgentRun.Proofs.Dispatch
import AgentRun.Proofs.Course
import AgentRun.Proofs.WholeRun
import AgentRun.Proofs.Ending
import AgentRun.Proofs.Results
import AgentRun.Proofs.Conversation
import AgentRun.Proofs.PlanGrowth
import AgentRun.Proofs.PlanHistory
import AgentRun.Proofs.Registry
import AgentRun.Proofs.Handover
import AgentRun.Proofs.Decoding
import AgentRun.Proofs.Keeping
import AgentRun.Proofs.ToolBudget
import AgentRun.Proofs.WaitCourse
import AgentRun.Proofs.WaitTrace
import AgentRun.Proofs.Awaiting
import AgentRun.Proofs.ClientWaits
import AgentRun.Proofs.StageMachine
import AgentRun.Proofs.Moves
import AgentRun.Proofs.Accounting
import AgentRun.Proofs.TaskLoop
import AgentRun.Proofs.Effort
import AgentRun.Proofs.Exhaustion
import AgentRun.Proofs.Clock
import AgentRun.Proofs.Deadline
import AgentRun.Proofs.Faults
import AgentRun.Proofs.Names
import AgentRun.Proofs.Sources
import AgentRun.Proofs.Offering
import AgentRun.Proofs.Warrants
import AgentRun.Proofs.Records
import AgentRun.Proofs.Documents
import AgentRun.Proofs.StageOrder
import AgentRun.Proofs.Timing
import AgentRun.Proofs.FirstAnswer
import AgentRun.Proofs.Blocks
import AgentRun.Proofs.BlockOrder
import AgentRun.Proofs.Attribution
import AgentRun.Proofs.TemplateText
import AgentRun.Proofs.Resolution
import AgentRun.Proofs.CallViews
import AgentRun.Proofs.PlanRecords
import AgentRun.Proofs.TaskReasons
import AgentRun.Proofs.TaskWork
import AgentRun.Proofs.DayNumbers
import AgentRun.Proofs.DateTexts
import AgentRun.Proofs.TimestampTexts
import AgentRun.Proofs.DayShifts
import AgentRun.Proofs.PlanCalls
import AgentRun.Proofs.PlanUse
import AgentRun.Proofs.BlockSpans
import AgentRun.Proofs.ScriptedAnswers
import AgentRun.Proofs.Attempts
import AgentRun.Proofs.ModuleLevels
import AgentRun.Proofs.Overrides
import AgentRun.Proofs.Sending
import AgentRun.Proofs.SendingLaws
