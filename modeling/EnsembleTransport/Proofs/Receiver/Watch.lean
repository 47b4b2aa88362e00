import EnsembleTransport.Proofs.Receiver.Carried
import EnsembleTransport.Proofs.Receiver.Turn

/-!
# Watched sinks

A watched sink passes every request on to the sink inside it and keeps a note of the request and of
the sink it was made to. A run over a watched sink is the run over the sink itself, so the notes say
what the run asks of its sink, in which order and with which answers.
-/

namespace EnsembleTransport

inductive SinkRequest where
  | append (batch : Octets)
  | flush
deriving DecidableEq, Repr

structure SinkCall (κ : Type) where
  request : SinkRequest
  before : κ

namespace SinkCall

variable {κ : Type}

def batch? (call : SinkCall κ) : Option Octets :=
  match call.request with
  | .append batch => some batch
  | .flush => none

variable [FrameSink κ]

def perform (call : SinkCall κ) : Except LinkFault Unit × κ :=
  match call.request with
  | .append batch => FrameSink.append call.before batch
  | .flush => FrameSink.flush call.before

def answer (call : SinkCall κ) : Except LinkFault Unit := call.perform.1

def after (call : SinkCall κ) : κ := call.perform.2

/-- Whether a batch is handed over and taken. -/
def appended (call : SinkCall κ) : Bool := call.batch?.isSome && call.answer.isOk

def refusal? (call : SinkCall κ) : Option LinkFault :=
  match call.request, call.answer with
  | .append _, .error fault => some fault
  | _, _ => none

theorem appended_of_batch?_none {call : SinkCall κ} (h : call.batch? = none) :
    call.appended = false := by
  rw [appended, h]
  rfl

theorem refusal?_of_batch?_none {call : SinkCall κ} (h : call.batch? = none) :
    call.refusal? = none := by
  rcases call with ⟨batch | _, before⟩
  · cases h
  · rfl

theorem refusal?_of_appended {call : SinkCall κ} (h : call.appended = true) :
    call.refusal? = none := by
  unfold refusal?
  split
  · rename_i hanswer
    rw [appended, hanswer, Bool.and_eq_true] at h
    cases h.2
  · rfl

/-- Calls one after the other, each made to the sink that the one before it leaves. -/
def Chain : κ → List (SinkCall κ) → κ → Prop
  | first, [], last => last = first
  | first, call :: calls, last => call.before = first ∧ Chain call.after calls last

theorem chain_append {first last : κ} {calls later : List (SinkCall κ)} :
    Chain first (calls ++ later) last ↔
      ∃ middle, Chain first calls middle ∧ Chain middle later last := by
  induction calls generalizing first with
  | nil => simp [Chain]
  | cons call calls ih => simp only [List.cons_append, Chain, ih, and_assoc, exists_and_left]

end SinkCall

/-- A sink with a note of every call since it was in its first state. -/
structure Watched {κ : Type} [FrameSink κ] (first : κ) where
  sink : κ
  calls : List (SinkCall κ)
  chain : SinkCall.Chain first calls sink

namespace Watched

variable {κ : Type} [FrameSink κ] {first : κ}

def start (first : κ) : Watched first := ⟨first, [], rfl⟩

def make (watched : Watched first) (request : SinkRequest) :
    Except LinkFault Unit × Watched first :=
  let call : SinkCall κ := ⟨request, watched.sink⟩
  (call.answer, {
    sink := call.after
    calls := watched.calls ++ [call]
    chain := SinkCall.chain_append.mpr ⟨watched.sink, watched.chain, rfl, rfl⟩ })

instance : FrameSink (Watched first) where
  append watched batch := watched.make (.append batch)
  flush watched := watched.make .flush

theorem sink_follows : FrameSink.Follows (sink : Watched first → κ) :=
  ⟨fun _ _ => rfl, fun _ => rfl⟩

theorem calls_of_taken {watched after : Watched first} {batch : Octets}
    (h : FrameSink.append watched batch = (.ok (), after)) :
    ∃ call : SinkCall κ, after.calls = watched.calls ++ [call] ∧
      call.batch? = some batch ∧ call.appended = true := by
  obtain ⟨hanswer, rfl⟩ := Prod.mk.inj h
  refine ⟨⟨.append batch, watched.sink⟩, rfl, rfl, ?_⟩
  rw [SinkCall.appended, hanswer]
  rfl

theorem calls_of_refused {watched after : Watched first} {batch : Octets} {fault : LinkFault}
    (h : FrameSink.append watched batch = (.error fault, after)) :
    ∃ call : SinkCall κ, after.calls = watched.calls ++ [call] ∧
      call.batch? = some batch ∧ call.appended = false ∧ call.refusal? = some fault := by
  obtain ⟨hanswer, rfl⟩ := Prod.mk.inj h
  refine ⟨⟨.append batch, watched.sink⟩, rfl, rfl, ?_, ?_⟩
  · rw [SinkCall.appended, hanswer]
    rfl
  · rw [SinkCall.refusal?, hanswer]

theorem calls_flush (watched : Watched first) :
    ∃ call : SinkCall κ, (FrameSink.flush watched).2.calls = watched.calls ++ [call] ∧
      call.batch? = none :=
  ⟨⟨.flush, watched.sink⟩, rfl, rfl⟩

end Watched

namespace Ledger

variable {κ : Type} [FrameSink κ] {first : κ} {l after : Ledger (Watched first)}

/-- A message that leaves the run going leaves every call an append that went through. -/
theorem appended_of_accepts {message : Octets}
    (hl : ∀ call ∈ l.sink.calls, call.appended = true)
    (hturn : Accepts l message (.ok ()) after) :
    ∀ call ∈ after.sink.calls, call.appended = true := by
  cases hturn with
  | dropped => exact hl
  | written _ _ _ happend =>
    obtain ⟨call, hcalls, -, happended⟩ := Watched.calls_of_taken happend
    simp only [credited, offered, note, counted, hcalls, List.forall_mem_append,
      List.forall_mem_singleton]
    exact ⟨hl, happended⟩

theorem appended_of_takes {arrival : Arrival} {pending : List Arrival}
    {answer : Except RunFailure (Option StopReason)}
    (hl : ∀ call ∈ l.sink.calls, call.appended = true)
    (hturn : Takes l pending arrival answer after) (hanswer : answer.isOk = true) :
    ∀ call ∈ after.sink.calls, call.appended = true := by
  cases hturn with
  | interrupted => exact hl
  | closed => exact hl
  | failed => cases hanswer
  | @accepted message answer _ hmessage =>
    cases answer with
    | error failure => cases hanswer
    | ok => exact appended_of_accepts (l := l.handed pending message) hl hmessage

end Ledger

namespace Receiver

variable {κ : Type} [FrameSink κ]

def watched (r : Receiver κ) : Receiver (Watched r.sink) where
  source := r.source
  sink := .start r.sink
  processor := r.processor
  policy := r.policy
  meter := r.meter
  counters := r.counters

def sinkCalls (r : Receiver κ) (clock : Clock) (shutdownAfter : Option Nat) :
    List (SinkCall κ) := (r.watched.runUntil clock shutdownAfter).2.sink.calls

theorem sinkCalls_eq (r : Receiver κ) (clock : Clock) (shutdownAfter : Option Nat) :
    r.sinkCalls clock shutdownAfter =
      (r.watched.ledger.runUntil shutdownAfter).2.sink.calls :=
  congrArg (·.2.sink.calls) (r.watched.view_runUntil clock shutdownAfter)

/-- Watching its sink makes no difference to a run. -/
theorem view_watched (r : Receiver κ) (clock : Clock) (shutdownAfter : Option Nat) :
    view (r.runUntil clock shutdownAfter) =
      ((r.watched.ledger.runUntil shutdownAfter).1,
        (r.watched.ledger.runUntil shutdownAfter).2.mapSink Watched.sink) :=
  (r.view_runUntil clock shutdownAfter).trans
    (Ledger.drain_mapSink Watched.sink_follows r.watched.ledger shutdownAfter r.source.pending)

theorem chain_sinkCalls (r : Receiver κ) (clock : Clock) (shutdownAfter : Option Nat) :
    SinkCall.Chain r.sink (r.sinkCalls clock shutdownAfter)
      (r.runUntil clock shutdownAfter).2.sink := by
  have hsink := congrArg (·.2.sink) (r.view_watched clock shutdownAfter)
  change (r.runUntil clock shutdownAfter).2.sink = _ at hsink
  rw [hsink, sinkCalls_eq]
  exact (r.watched.ledger.runUntil shutdownAfter).2.sink.chain

end Receiver

/-- When a receiver is to run, and after how many receives it is to be stopped, if at all. -/
structure RunOrder where
  clock : Clock
  shutdownAfter : Option Nat := none

structure RunRecord (κ : Type) where
  answer : Except RunFailure RunSummary
  sinkCalls : List (SinkCall κ)

/-- Whether a run that failed after these calls ended at a message: the policy objected to it, or the
sink refused its frames. -/
def RunFailure.atMessage {κ : Type} [FrameSink κ] (failure : RunFailure)
    (calls : List (SinkCall κ)) : Bool :=
  match failure with
  | .message _ _ => true
  | .link fault => calls.getLast?.any (·.refusal? = some fault)

def endsAtMessage {κ α : Type} [FrameSink κ] (answer : Except RunFailure α)
    (calls : List (SinkCall κ)) : Bool :=
  match answer with
  | .ok _ => false
  | .error failure => failure.atMessage calls

def RunRecord.endedAtMessage {κ : Type} [FrameSink κ] (record : RunRecord κ) : Bool :=
  endsAtMessage record.answer record.sinkCalls

namespace Receiver

variable {κ : Type} [FrameSink κ]

def record (r : Receiver κ) (order : RunOrder) : RunRecord κ :=
  ⟨(r.runUntil order.clock order.shutdownAfter).1.value,
    r.sinkCalls order.clock order.shutdownAfter⟩

def runAll (r : Receiver κ) : List RunOrder → List (RunRecord κ) × Receiver κ
  | [] => ([], r)
  | order :: orders =>
    let (later, last) := (r.runUntil order.clock order.shutdownAfter).2.runAll orders
    (r.record order :: later, last)

/-- The calls of all runs lead from the sink before them to the sink behind them. -/
theorem chain_runAll (r : Receiver κ) (orders : List RunOrder) :
    SinkCall.Chain r.sink ((r.runAll orders).1.flatMap RunRecord.sinkCalls)
      (r.runAll orders).2.sink := by
  induction orders generalizing r with
  | nil => rfl
  | cons order orders ih =>
    rw [runAll, List.flatMap_cons, SinkCall.chain_append]
    exact ⟨_, r.chain_sinkCalls order.clock order.shutdownAfter, ih _⟩

end Receiver

end EnsembleTransport
