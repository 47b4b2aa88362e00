import EnsembleTransport.Link.Fault
import EnsembleTransport.MessageFault

/-!
# What a run comes to

The counters of a receiver live on from run to run. A run that ends in order gives a summary of
them; any other run gives the fault that ended it.
-/

namespace EnsembleTransport

structure Counters where
  messagesReceived : Nat := 0
  messagesWritten : Nat := 0
  messagesDropped : Nat := 0
  framesWritten : Nat := 0
  diagnosticErrors : Nat := 0
  syncErrors : Nat := 0
  interruptions : Nat := 0
deriving DecidableEq, Repr

inductive StopReason where
  | sourceClosed
  | shutdown
deriving DecidableEq, Repr

namespace StopReason

def text : StopReason → String
  | sourceClosed => "SourceClosed"
  | shutdown => "Shutdown"

end StopReason

structure RunSummary where
  counters : Counters
  payloadBytes : Nat
  stopReason : StopReason
deriving DecidableEq, Repr

namespace RunSummary

def text (summary : RunSummary) : String :=
  let c := summary.counters
  s!"{c.messagesReceived} messages received, {c.messagesWritten} written, "
    ++ s!"{c.messagesDropped} dropped; {c.framesWritten} frames "
    ++ s!"({summary.payloadBytes} payload bytes); {c.diagnosticErrors} diagnostic errors, "
    ++ s!"{c.syncErrors} sync errors, {c.interruptions} interruptions"

end RunSummary

inductive RunFailure where
  | link (fault : LinkFault)
  /-- The message of this number, counted from one, broke a strict policy. -/
  | message (index : Nat) (fault : MessageFault)
deriving DecidableEq, Repr

namespace RunFailure

def text : RunFailure → String
  | link fault => s!"transport failure: {fault.message}"
  | message index fault => s!"message {index}: {fault.message}"

/-- The text of the fault behind the failure. -/
def cause : RunFailure → String
  | link fault => fault.message
  | message _ fault => fault.message

end RunFailure

end EnsembleTransport
