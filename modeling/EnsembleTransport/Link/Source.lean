import EnsembleTransport.Envelope
import EnsembleTransport.Event
import EnsembleTransport.Link.Fault

/-!
# Sources of messages

A source hands out its pending entries in order and is closed behind the last one. Only messages
are counted, not faults. A subscription hands out at most so many octets of each message.
-/

namespace EnsembleTransport

structure Subscription where
  endpoint : String
  maxMessageSize : Nat := Layout.defaultMaxMessageSize
deriving DecidableEq, Repr

namespace Subscription

def endpointOf (host : String) (port : Nat) : String := s!"tcp://{host}:{port}"

def ofAddress (host : String) (port : Nat) : Subscription := { endpoint := endpointOf host port }

/-- Asks a publisher for messages of every topic. -/
def requestFrame : Octets := [1]

/-- What is handed out of a message. -/
def limit (subscription : Subscription) (message : Octets) : Logged Octets :=
  let size := subscription.maxMessageSize
  if size < message.length then
    ⟨message.take size, [⟨.warn, .subscriber, "Message exceeds maximum size, truncating",
      [("received", .number message.length), ("max", .number size)]⟩]⟩
  else ⟨message, []⟩

theorem limit_value (subscription : Subscription) (message : Octets) :
    (subscription.limit message).value = message.take subscription.maxMessageSize := by
  unfold limit
  dsimp only
  split
  · rfl
  · rw [List.take_of_length_le (by omega)]

end Subscription

namespace Multipart

def join (parts : List Octets) : Octets := parts.foldl (· ++ ·) []

/-- A message in one piece; a message that came in one part is this part. -/
def flatten : List Octets → Octets
  | [part] => part
  | parts => join parts

/-- In how many parts a message came makes no difference. -/
theorem flatten_eq (parts : List Octets) : flatten parts = parts.flatten := by
  have hjoin : parts.foldl (fun joined part => joined ++ id part) [] =
      [] ++ (parts.map id).flatten := List.foldl_append_eq_append
  rw [List.map_id, List.nil_append] at hjoin
  unfold flatten
  split
  · exact (List.append_nil _).symm
  · exact hjoin

end Multipart

abbrev Arrival := Except LinkFault Octets

structure MessageSource where
  pending : List Arrival := []
  subscription : Option Subscription := none
  messagesReceived : Nat := 0
  bytesReceived : Nat := 0
deriving Repr

namespace MessageSource

def ofArrivals (pending : List Arrival) : MessageSource := { pending }

/-- A subscriber to which a publisher sends messages, each in one part or more. -/
def ofParts (subscription : Subscription) (messages : List (List Octets)) : MessageSource :=
  { pending := messages.map fun parts => .ok (Multipart.flatten parts)
    subscription := some subscription }

def push (source : MessageSource) (arrival : Arrival) : MessageSource :=
  { source with pending := source.pending ++ [arrival] }

def handOut (source : MessageSource) (message : Octets) : Logged Octets :=
  match source.subscription with
  | some subscription => subscription.limit message
  | none => ⟨message, []⟩

def count (source : MessageSource) (pending : List Arrival) (message : Octets) : MessageSource :=
  { source with
    pending
    messagesReceived := source.messagesReceived + 1
    bytesReceived := source.bytesReceived + message.length }

def deliver (source : MessageSource) (arrival : Arrival) (pending : List Arrival) :
    Logged Arrival × MessageSource :=
  match arrival with
  | .error fault => (⟨.error fault, []⟩, { source with pending })
  | .ok message =>
    let handed := source.handOut message
    (⟨.ok handed.value, handed.events⟩, source.count pending handed.value)

def receive (source : MessageSource) : Logged Arrival × MessageSource :=
  match source.pending with
  | [] => (⟨.error .closed, []⟩, source)
  | arrival :: pending => source.deliver arrival pending

@[simp] theorem pending_deliver (source : MessageSource) (arrival : Arrival)
    (pending : List Arrival) : (source.deliver arrival pending).2.pending = pending := by
  cases arrival <;> rfl

def endpoint? (source : MessageSource) : Option String :=
  source.subscription.map Subscription.endpoint

end MessageSource

end EnsembleTransport
