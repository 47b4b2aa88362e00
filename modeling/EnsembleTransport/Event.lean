import EnsembleTransport.Binary64.Decimal

/-!
# Log events

An event has a level, the part of the receiver it comes from, a text and named values. Parts carry
the names that log filters select by.
-/

namespace EnsembleTransport

inductive Level where
  | error
  | warn
  | info
deriving DecidableEq, Repr

namespace Level

def name : Level → String
  | error => "ERROR"
  | warn => "WARN"
  | info => "INFO"

end Level

inductive Component where
  | metadata
  | timestamp
  | processor
  | receiver
  | subscriber
  | commandLine
deriving DecidableEq, Repr

namespace Component

/-- The name a log filter selects the part by. -/
def target : Component → String
  | metadata => "eti_codec::metadata"
  | timestamp => "eti_codec::timestamp"
  | processor => "eti_receiver::processor"
  | receiver => "eti_receiver::receiver"
  | subscriber => "eti_network::transports::zmq"
  | commandLine => "zmq_eti_receiver"

end Component

inductive FieldValue where
  | word (text : String)
  | number (n : Int)
  | real (x : Binary64)
deriving DecidableEq, Repr

namespace FieldValue

/-- A real number always shows a point. -/
def realText (x : Binary64) : String :=
  let digits := x.shortest
  if digits.all fun c => c.isDigit || c == '-' then digits ++ ".0" else digits

def text : FieldValue → String
  | word text => text
  | number n => toString n
  | real x => realText x

end FieldValue

structure Event where
  level : Level
  component : Component
  text : String
  fields : List (String × FieldValue)
deriving DecidableEq, Repr

namespace Event

/-- A value under the name `message` stands in a log line without its name. -/
def fieldText (field : String × FieldValue) : String :=
  if field.1 = "message" then field.2.text else field.1 ++ "=" ++ field.2.text

def line (event : Event) : String :=
  " ".intercalate (event.level.name :: event.text :: event.fields.map fieldText)

end Event

/-- A result together with the events reported on the way to it, oldest first. -/
structure Logged (α : Type) where
  value : α
  events : List Event

end EnsembleTransport
