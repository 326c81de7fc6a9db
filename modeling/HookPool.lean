import HookPool.Binary64
import HookPool.CommandLine.Check
import HookPool.CommandLine.Crowd
import HookPool.CommandLine.Help
import HookPool.CommandLine.Options
import HookPool.CommandLine.Parser
import HookPool.CommandLine.Run
import HookPool.CommandLine.Stress
import HookPool.Config.Basic
import HookPool.Config.Environment
import HookPool.Config.File
import HookPool.Config.Reader
import HookPool.Decimal.Rounded
import HookPool.Decimal.Shortest
import HookPool.Dispatcher
import HookPool.Duration
import HookPool.Error
import HookPool.FileTree
import HookPool.Files
import HookPool.Hook
import HookPool.Identity
import HookPool.IoError
import HookPool.Json.Number
import HookPool.Json.Problem
import HookPool.Json.Text
import HookPool.Json.Value
import HookPool.Lending.Context
import HookPool.Lending.Event
import HookPool.Lending.Factory
import HookPool.Lending.Manager
import HookPool.Lending.Place
import HookPool.Lending.Schedule
import HookPool.Lending.State
import HookPool.Lending.Step
import HookPool.Lending.Stock
import HookPool.Main
import HookPool.Proofs.CommandLine.Argument
import HookPool.Proofs.CommandLine.Check
import HookPool.Proofs.CommandLine.Crowd
import HookPool.Proofs.CommandLine.Environment
import HookPool.Proofs.CommandLine.Layers
import HookPool.Proofs.CommandLine.Stress
import HookPool.Proofs.Config.Environment
import HookPool.Proofs.Config.Fields
import HookPool.Proofs.Config.File
import HookPool.Proofs.Config.Members
import HookPool.Proofs.Json.Grammar
import HookPool.Proofs.Json.Number
import HookPool.Proofs.Json.String
import HookPool.Proofs.Json.Value
import HookPool.Proofs.Lending.Accounting
import HookPool.Proofs.Lending.Alone
import HookPool.Proofs.Lending.Apart
import HookPool.Proofs.Lending.Aside
import HookPool.Proofs.Lending.Books
import HookPool.Proofs.Lending.Caller
import HookPool.Proofs.Lending.Calls
import HookPool.Proofs.Lending.Capacity
import HookPool.Proofs.Lending.Conservation
import HookPool.Proofs.Lending.Count
import HookPool.Proofs.Lending.Course
import HookPool.Proofs.Lending.Deadline
import HookPool.Proofs.Lending.Detour
import HookPool.Proofs.Lending.Factories
import HookPool.Proofs.Lending.Fifo
import HookPool.Proofs.Lending.FirstCall
import HookPool.Proofs.Lending.ForeignClose
import HookPool.Proofs.Lending.Founding
import HookPool.Proofs.Lending.Frozen
import HookPool.Proofs.Lending.InTurn
import HookPool.Proofs.Lending.InVain
import HookPool.Proofs.Lending.Indifference
import HookPool.Proofs.Lending.Ledger
import HookPool.Proofs.Lending.Mirror
import HookPool.Proofs.Lending.Moves
import HookPool.Proofs.Lending.Muted
import HookPool.Proofs.Lending.MutedMoves
import HookPool.Proofs.Lending.OneClose
import HookPool.Proofs.Lending.Opener
import HookPool.Proofs.Lending.Ownership
import HookPool.Proofs.Lending.PoolOfOne
import HookPool.Proofs.Lending.PoolsAlike
import HookPool.Proofs.Lending.Quiet
import HookPool.Proofs.Lending.Refusal
import HookPool.Proofs.Lending.Registry
import HookPool.Proofs.Lending.Retired
import HookPool.Proofs.Lending.Reuse
import HookPool.Proofs.Lending.Rota
import HookPool.Proofs.Lending.Run
import HookPool.Proofs.Lending.Semaphore
import HookPool.Proofs.Lending.Serial
import HookPool.Proofs.Lending.Settled
import HookPool.Proofs.Lending.Shutdown
import HookPool.Proofs.Lending.Spared
import HookPool.Proofs.Lending.Tally
import HookPool.Proofs.Lending.Tame
import HookPool.Proofs.Lending.Turn
import HookPool.Proofs.Lending.UnderWay
import HookPool.Proofs.Lending.Views
import HookPool.Proofs.Lending.Wakeup
import HookPool.Proofs.Lending.Ways
import HookPool.Proofs.Lending.Woken
import HookPool.Proofs.Results
import HookPool.Proofs.Script.Entries
import HookPool.Proofs.Script.Lookup
import HookPool.Proofs.Script.NumericReply
import HookPool.Proofs.Text.Numeral
import HookPool.Script.Action
import HookPool.Script.Arithmetic
import HookPool.Script.Chunk
import HookPool.Script.Directive
import HookPool.Script.Evaluate
import HookPool.Script.Grammar
import HookPool.Script.Interpreter
import HookPool.Script.Invocation
import HookPool.Script.Library
import HookPool.Script.Library.Arguments
import HookPool.Script.Library.Arithmetic
import HookPool.Script.Library.Basic
import HookPool.Script.Library.Sequence
import HookPool.Script.Library.Text
import HookPool.Script.Machine
import HookPool.Script.Number
import HookPool.Script.Operation
import HookPool.Script.Pattern
import HookPool.Script.Source
import HookPool.Script.State
import HookPool.Script.Syntax
import HookPool.Script.Table
import HookPool.Script.Token
import HookPool.Script.Value
import HookPool.Session.Basic
import HookPool.Session.Run
import HookPool.Text.Blank
import HookPool.Text.Numeral
import HookPool.Text.Printable
import HookPool.Text.Quoted
import HookPool.Text.Utf8
