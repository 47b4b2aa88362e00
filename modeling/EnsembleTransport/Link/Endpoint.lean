import EnsembleTransport.Digits
import EnsembleTransport.Link.Source

/-!
# Endpoints of publishers

An endpoint names a transport and an address. An address of the `tcp` transport is a host and a
port, parted by the last colon. Connecting to anything else fails at once.
-/

namespace EnsembleTransport

inductive Endpoint where
  | tcp (host : String) (port : Nat)
  | ipc (path : String)
deriving DecidableEq, Repr

namespace Endpoint

def portLimit : Nat := 65536

def parsePort? (digits : List Char) : Option Nat :=
  (Digits.natural? digits).filter (· < portLimit)

/-- What stands before the last colon, and what behind it. -/
def splitLastColon? (address : List Char) : Option (List Char × List Char) :=
  let behind := (address.reverse.takeWhile (· != ':')).reverse
  match address.reverse.dropWhile (· != ':') with
  | [] => none
  | _ :: before => some (before.reverse, behind)

def parseTcp? (address : List Char) : Option Endpoint := do
  let (host, digits) ← splitLastColon? address
  let port ← parsePort? digits
  if host.isEmpty then none else some (tcp (String.ofList host) port)

def parse? (text : String) : Option Endpoint :=
  let transport := text.toList.takeWhile fun c => 'a' ≤ c && c ≤ 'z'
  match text.toList.drop transport.length with
  | ':' :: '/' :: '/' :: address =>
    if address.isEmpty ∨ address.contains '\n' then none
    else if transport = "tcp".toList then parseTcp? address
    else if transport = "ipc".toList then some (ipc (String.ofList address))
    else none
  | _ => none

end Endpoint

namespace Subscription

def connecting (subscription : Subscription) : Event :=
  ⟨.info, .subscriber, s!"Connecting to {subscription.endpoint}", []⟩

def subscribed (subscription : Subscription) : Event :=
  ⟨.info, .subscriber, s!"Subscribed to all topics on {subscription.endpoint}", []⟩

def connectFailed (subscription : Subscription) (cause : String) : LinkFault :=
  .connection subscription.endpoint "connect failed" (some cause)

/-- Connects to a publisher, who may be out of reach. -/
def connect (subscription : Subscription) (reachable : Bool) : Logged (Except LinkFault Unit) :=
  if (Endpoint.parse? subscription.endpoint).isNone then
    ⟨.error (subscription.connectFailed "malformed endpoint"), [subscription.connecting]⟩
  else if reachable then ⟨.ok (), [subscription.connecting, subscription.subscribed]⟩
  else ⟨.error (subscription.connectFailed "no publisher"), [subscription.connecting]⟩

end Subscription

end EnsembleTransport
