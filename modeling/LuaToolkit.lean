import LuaToolkit.Lib.Transition
import LuaToolkit.Lib.Recorded
import LuaToolkit.Lib.Effort
import LuaToolkit.Lib.Projection
import LuaToolkit.Lib.Family
import LuaToolkit.Lib.FirstInfix
import LuaToolkit.Lib.Framing
import LuaToolkit.Lib.LastWrite
import LuaToolkit.Lib.Tickets
import LuaToolkit.Lib.PeakStack
import LuaToolkit.InplaceScheduler
import LuaToolkit.InplaceSchedulerProof
import LuaToolkit.InplaceSchedulerHistory
import LuaToolkit.InplaceSchedulerRest
import LuaToolkit.HttpStream
import LuaToolkit.HttpStreamProof
import LuaToolkit.HttpRoundTrip
import LuaToolkit.HttpStreamDrain
import LuaToolkit.HttpStreamMoves
import LuaToolkit.RemoteController
import LuaToolkit.Dap
import LuaToolkit.DebugSession
import LuaToolkit.DebugSessionProof
import LuaToolkit.DebugSessionExit
import LuaToolkit.DebugSessionInspection
import LuaToolkit.DebugSessionPairing
import LuaToolkit.DebugSessionOrder
import LuaToolkit.DebugSessionNumbers
import LuaToolkit.DebugSessionDialogue
import LuaToolkit.DebugSessionRest
import LuaToolkit.DebugSessionAnswers
import LuaToolkit.Connection
import LuaToolkit.ConnectionProof
import LuaToolkit.ConnectionDialogue
import LuaToolkit.ConnectionRest
import LuaToolkit.LuaApi
import LuaToolkit.LuaDebugSessionController
import LuaToolkit.BreakpointStore
import LuaToolkit.BreakpointHook
import LuaToolkit.Stepping
import LuaToolkit.BreakpointAnswers
import LuaToolkit.HookRecord
import LuaToolkit.StepTraces
import LuaToolkit.HookedLua
import LuaToolkit.Coroutines
import LuaToolkit.SessionLifetime
import LuaToolkit.SessionBreakpoints
import LuaToolkit.SessionSteps
import LuaToolkit.LuaValues
import LuaToolkit.LuaStackTraceProvider
import LuaToolkit.StackTrace
import LuaToolkit.VariablePaths
import LuaToolkit.VariableTree
import LuaToolkit.Variables
import LuaToolkit.VariableShape
import LuaToolkit.VariableRequests
import LuaToolkit.VariableDialogue
import LuaToolkit.Locals
import LuaToolkit.Paging
import LuaToolkit.ValueStack
import LuaToolkit.ValueStackProof
import LuaToolkit.Debugger
import LuaToolkit.ClientRequests
import LuaToolkit.DebuggerAnswers
import LuaToolkit.DebuggerRest
import LuaToolkit.RemoteDebugger
import LuaToolkit.RemoteDebuggerRest
import LuaToolkit.RemoteBreakpoints
import LuaToolkit.Server
import LuaToolkit.ServerBreakpoints
