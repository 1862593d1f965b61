import TapeMachine.CommandLine.Debug
import TapeMachine.CommandLine.Run
import TapeMachine.CommandLine.Serve
import TapeMachine.Json.Printer
import TapeMachine.Main
import TapeMachine.Proofs.BudgetCut
import TapeMachine.Proofs.Comments
import TapeMachine.Proofs.Cursor
import TapeMachine.Proofs.FrontEnds
import TapeMachine.Proofs.Isolation
import TapeMachine.Proofs.LeastRecentlyUsed
import TapeMachine.Proofs.LoneBrackets
import TapeMachine.Proofs.Resuming
import TapeMachine.Proofs.Sharing
import TapeMachine.Web.App
import TapeMachine.Proofs.Lockstep
import TapeMachine.Proofs.Dumps
import TapeMachine.Proofs.Input
import TapeMachine.Proofs.Restart
import TapeMachine.Proofs.Consistency
import TapeMachine.Proofs.Views
import TapeMachine.Proofs.TapeLength
import TapeMachine.Proofs.Rejection
import TapeMachine.Proofs.Retention
import TapeMachine.Proofs.Shell
import TapeMachine.Proofs.Additivity
import TapeMachine.Proofs.ShownCells
import TapeMachine.Proofs.Reuse
import TapeMachine.Proofs.Repetition
import TapeMachine.Proofs.Display
import TapeMachine.Proofs.Returning
import TapeMachine.Proofs.Repair
import TapeMachine.Proofs.DeadLoops
import TapeMachine.Proofs.Wrapping
import TapeMachine.Proofs.Utf8
import TapeMachine.Proofs.Arising
import TapeMachine.Proofs.SourceLines
import TapeMachine.Proofs.BreakpointLines
import TapeMachine.Proofs.DumpReading
import TapeMachine.Proofs.ForeignText
import TapeMachine.Proofs.CountedLoops
import TapeMachine.Proofs.Listing
import TapeMachine.Proofs.Arguments
import TapeMachine.Proofs.LineMap
