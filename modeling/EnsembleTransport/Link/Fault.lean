/-!
# Faults of the link

A fault of the link comes from the source of messages or from the sink of frames. Only an
interruption is worth another attempt, and only `closed` is an orderly end.
-/

namespace EnsembleTransport

/-- A failed operation of the operating system. -/
structure IoFault where
  /-- The operation was cut off before it did anything. -/
  interrupted : Bool
  text : String
deriving DecidableEq, Repr

inductive LinkFault where
  | connection (endpoint message : String) (cause : Option String)
  | receive (message : String) (cause : Option String)
  | interrupted
  | closed
  | io (message cause : String)
deriving DecidableEq, Repr

namespace LinkFault

def ofIo (fault : IoFault) : LinkFault :=
  if fault.interrupted then interrupted else io fault.text fault.text

def message : LinkFault → String
  | connection endpoint message _ => s!"Connection error: {message} (endpoint: {endpoint})"
  | receive message _ => s!"Receive error: {message}"
  | interrupted => "Receive interrupted"
  | closed => "Transport closed"
  | io message _ => s!"I/O error: {message}"

def cause? : LinkFault → Option String
  | connection _ _ cause | receive _ cause => cause
  | interrupted | closed => none
  | io _ cause => some cause

def isRetryable : LinkFault → Bool
  | interrupted => true
  | connection .. | receive .. | closed | io .. => false

/-- Whether the source ended in an orderly way. -/
def isClosed : LinkFault → Bool
  | closed => true
  | connection .. | receive .. | interrupted | io .. => false

end LinkFault

end EnsembleTransport
