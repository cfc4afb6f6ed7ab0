import TapeMachine.ByteLiteral
import TapeMachine.ByteStream
import TapeMachine.Cell
import TapeMachine.Code
import TapeMachine.CommandLine.Options
import TapeMachine.CommandLine.Report
import TapeMachine.CommandLine.Scan
import TapeMachine.Console.Command
import TapeMachine.Console.Loop
import TapeMachine.Console.Session
import TapeMachine.Console.State
import TapeMachine.Generator.Layout
import TapeMachine.Generator.Lines
import TapeMachine.Generator.Loop
import TapeMachine.Instruction
import TapeMachine.Live.Gate
import TapeMachine.Live.Session
import TapeMachine.Live.System
import TapeMachine.Live.Transition
import TapeMachine.Log
import TapeMachine.Machine
import TapeMachine.Machine.Run
import TapeMachine.Machine.Session
import TapeMachine.Main
import TapeMachine.Number.Fraction
import TapeMachine.Number.Numeral
import TapeMachine.Number.Shortest
import TapeMachine.Pairing
import TapeMachine.Program
import TapeMachine.SelfCheck
import TapeMachine.SharedCell
import TapeMachine.Proofs.Balance
import TapeMachine.Proofs.Block
import TapeMachine.Proofs.BlockRun
import TapeMachine.Proofs.BracketMatching
import TapeMachine.Proofs.BracketTable
import TapeMachine.Proofs.Generator.Filling
import TapeMachine.Proofs.Generator.Printing
import TapeMachine.Proofs.Live.Agreement
import TapeMachine.Proofs.Live.Genuine
import TapeMachine.Proofs.Live.Inversion
import TapeMachine.Proofs.Live.Isolation
import TapeMachine.Proofs.Live.Moves
import TapeMachine.Proofs.Live.Order
import TapeMachine.Proofs.Live.Restart
import TapeMachine.Proofs.Live.Schedule
import TapeMachine.Proofs.Live.Serving
import TapeMachine.Proofs.Live.Solo
import TapeMachine.Proofs.Path
import TapeMachine.Proofs.StructuredCode
import TapeMachine.Proofs.TapeView
import TapeMachine.Source
import TapeMachine.Status
import TapeMachine.Tape
import TapeMachine.Text.Blank
import TapeMachine.Text.Digit
import TapeMachine.Text.Printable
import TapeMachine.Text.Quoted
import TapeMachine.Text.Ranges
import TapeMachine.Text.Utf8
import TapeMachine.Text.Words
import TapeMachine.Proofs.Step
import TapeMachine.Proofs.StrayBracket
import TapeMachine.Proofs.Live.Lasting
import TapeMachine.Proofs.Unfinished
import TapeMachine.Proofs.Concatenation
import TapeMachine.Proofs.Generator.Linewise
import TapeMachine.Proofs.Live.Tenure
import TapeMachine.Proofs.Live.Intact
import TapeMachine.Proofs.Live.Resting
import TapeMachine.Proofs.Live.Progress
import TapeMachine.Proofs.Live.NothingLost
import TapeMachine.Proofs.Live.Traces
import TapeMachine.Proofs.Live.Account
import TapeMachine.Proofs.Live.Statuses
import TapeMachine.Proofs.Live.Attendance
import TapeMachine.Proofs.Live.NoDeadlock
import TapeMachine.Proofs.Live.Answers
import TapeMachine.Proofs.Live.Halting
import TapeMachine.Proofs.Live.NoStopLost
import TapeMachine.Proofs.Text.Encoding
import TapeMachine.Proofs.Text.Lossy
import TapeMachine.Proofs.Console.Watch
import TapeMachine.Proofs.Console.Sessions
import TapeMachine.Proofs.Console.Printing
import TapeMachine.Proofs.Console.Loading
import TapeMachine.Proofs.Console.OutputOnce
import TapeMachine.Proofs.EndlessTape
import TapeMachine.Proofs.InputSupply
import TapeMachine.Proofs.Live.Failing
import TapeMachine.Proofs.Live.Fatal
import TapeMachine.Proofs.Live.Calm
import TapeMachine.Proofs.Live.Poisoned
import TapeMachine.Proofs.Live.InForce
import TapeMachine.Proofs.Live.DoneAtEnd
import TapeMachine.Proofs.Live.Stages
import TapeMachine.Proofs.Live.LockHolder
import TapeMachine.Proofs.Live.Erasure
import TapeMachine.Proofs.Live.Stuck
import TapeMachine.Proofs.Live.FailingRestart
import TapeMachine.Proofs.Console.Meaning
import TapeMachine.Proofs.Console.Oversized
import TapeMachine.Proofs.Console.LineHandling
import TapeMachine.Proofs.Console.Sitting
import TapeMachine.Proofs.Console.ExitStatus
import TapeMachine.Proofs.Console.LoopSessions
import TapeMachine.Proofs.FailingStep
import TapeMachine.Proofs.Generator.LoopContract
import TapeMachine.Proofs.Console.Settings
import TapeMachine.Proofs.Console.Attending
import TapeMachine.Proofs.Shared.Access
import TapeMachine.Proofs.Shared.Lock
import TapeMachine.Proofs.Number.ByteLiterals
import TapeMachine.Proofs.Console.Pages
import TapeMachine.Proofs.Live.Comments
import TapeMachine.Proofs.Console.Notices
import TapeMachine.Proofs.Console.Quitting
