import EnsembleTransport.Proofs.Receiver.Accounts
import Mathlib.Data.List.DropRight

/-!
# Batches without a flush

A run flushes its sink when it is told to stop, and only then. Whatever it has appended by then is
flushed. A run that a fault of the source or of a message ends makes no such call, and every batch that
it appended stays without a flush, although the messages count as written.
-/

namespace EnsembleTransport

namespace SinkCall

variable {κ : Type}

def unflushed (calls : List (SinkCall κ)) : List (SinkCall κ) := calls.rtakeWhile (·.batch?.isSome)

theorem unflushed_concat {call : SinkCall κ} (h : call.batch? = none) (calls : List (SinkCall κ)) :
    unflushed (calls ++ [call]) = [] := by
  apply List.rtakeWhile_concat_neg
  simp [h]

theorem unflushed_of_appended [FrameSink κ] {calls : List (SinkCall κ)}
    (h : ∀ call ∈ calls, call.appended = true) : unflushed calls = calls := by
  apply List.rtakeWhile_eq_self_iff.mpr
  intro call hcall
  have happended := h call hcall
  rw [appended, Bool.and_eq_true] at happended
  exact happended.1

theorem answer_of_refusal [FrameSink κ] {call : SinkCall κ} {fault : LinkFault}
    (h : call.refusal? = some fault) : call.answer = .error fault := by
  unfold refusal? at h
  split at h
  · rename_i hanswer
    cases h
    exact hanswer
  · cases h

end SinkCall

namespace Ledger

variable {κ : Type} [FrameSink κ] {first : κ} {options : DiagnosticOptions} {policy : ErrorPolicy}

/-- How a run that gives an answer leaves its sink: with a flush, without one, or with an append that
is refused. -/
inductive FlushEnd {α : Type} (answer : Except RunFailure α) : List (SinkCall κ) → Prop
  | flushed {written : List (SinkCall κ)} {call : SinkCall κ}
      (happended : ∀ call ∈ written, call.appended = true) (hcall : call.batch? = none)
      (hanswer : answer.isOk = call.answer.isOk) : FlushEnd answer (written ++ [call])
  | unflushed {written : List (SinkCall κ)}
      (happended : ∀ call ∈ written, call.appended = true) (hanswer : answer.isOk = false) :
      FlushEnd answer written
  | refused {written : List (SinkCall κ)} {call : SinkCall κ} (hcall : call.answer.isOk = false)
      (hanswer : answer.isOk = false) : FlushEnd answer (written ++ [call])

namespace FlushEnd

variable {α : Type} {answer : Except RunFailure α} {calls : List (SinkCall κ)}

theorem unflushed_of_isOk (h : FlushEnd answer calls) (hanswer : answer.isOk = true) :
    SinkCall.unflushed calls = [] := by
  cases h with
  | flushed _ hcall => exact SinkCall.unflushed_concat hcall _
  | unflushed _ hfails => cases hfails.symm.trans hanswer
  | refused _ hfails => cases hfails.symm.trans hanswer

/-- With a sink that answers every call, a run without a good answer has made appends and nothing
else. -/
theorem appended_of_not_isOk (h : FlushEnd answer calls)
    (hcalls : ∀ call ∈ calls, call.answer.isOk = true) (hanswer : answer.isOk = false) :
    ∀ call ∈ calls, call.appended = true := by
  cases h with
  | @flushed written call _ _ hflush =>
    have hcall := hcalls call (List.mem_append_right _ List.mem_cons_self)
    cases (hflush.trans hcall).symm.trans hanswer
  | unflushed happended _ => exact happended
  | @refused written call hrefused _ =>
    have hcall := hcalls call (List.mem_append_right _ List.mem_cons_self)
    cases hrefused.symm.trans hcall

end FlushEnd

theorem flushEnd_finish {l : Ledger (Watched first)}
    (hcalls : ∀ call ∈ l.sink.calls, call.appended = true) (stopReason : StopReason) :
    FlushEnd (l.finish stopReason).1 (l.finish stopReason).2.sink.calls := by
  have hmade : FrameSink.flush l.sink = l.sink.make .flush := rfl
  rw [snd_finish, finish, hmade]
  apply FlushEnd.flushed hcalls (rfl : SinkCall.batch? ⟨.flush, l.sink.sink⟩ = none)
  change _ = (l.sink.make .flush).1.isOk
  rcases l.sink.make .flush with ⟨fault | _, sink⟩ <;> rfl

/-- A turn that fails makes no call, or a last one that is refused. -/
theorem flushEnd_of_fault {l after : Ledger (Watched first)} {arrival : Arrival}
    {pending : List Arrival} {answer : Except RunFailure (Option StopReason)} {failure : RunFailure}
    (hcalls : ∀ call ∈ l.sink.calls, call.appended = true)
    (hturn : Takes l pending arrival answer after) (hanswer : answer = .error failure) :
    FlushEnd (.error failure : Except RunFailure RunSummary) after.sink.calls := by
  cases hturn with
  | interrupted => cases hanswer
  | closed => cases hanswer
  | failed => exact .unflushed hcalls rfl
  | accepted hmessage =>
    cases hmessage with
    | dropped => cases hanswer
    | rejected => exact .unflushed hcalls rfl
    | objected => exact .unflushed hcalls rfl
    | written => cases hanswer
    | @refused _ _ _ sink _ _ _ happend =>
      obtain ⟨call, hmade, -, -, hrefusal⟩ := Watched.calls_of_refused happend
      change FlushEnd _ sink.calls
      rw [hmade]
      refine .refused ?_ rfl
      rw [SinkCall.answer_of_refusal hrefusal]
      rfl

theorem drain_flushEnd {l : Ledger (Watched first)} {pending : List Arrival}
    (h : l.Over options policy pending) (hcalls : ∀ call ∈ l.sink.calls, call.appended = true)
    (shutdownAfter : Option Nat) :
    FlushEnd (l.drain shutdownAfter pending).1 (l.drain shutdownAfter pending).2.sink.calls := by
  refine drain_rule
    (fun (l : Ledger (Watched first)) pending =>
      l.Over options policy pending ∧ ∀ call ∈ l.sink.calls, call.appended = true)
    (fun answer (after : Ledger (Watched first)) => FlushEnd answer after.sink.calls)
    (fun h => h.1) ?_ ?_ ?_ ?_ ⟨h, hcalls⟩
  · rintro l arrival pending after ⟨h, hcalls⟩ hturn
    exact ⟨hturn.over h, appended_of_takes hcalls hturn rfl⟩
  · rintro l arrival pending failure after ⟨-, hcalls⟩ hturn
    exact flushEnd_of_fault hcalls hturn rfl
  · rintro l arrival pending stopReason after ⟨-, hcalls⟩ hturn
    exact flushEnd_finish (appended_of_takes hcalls hturn rfl) stopReason
  · rintro l pending stopReason ⟨-, hcalls⟩ -
    exact flushEnd_finish hcalls stopReason

end Ledger

namespace Receiver

variable {κ : Type} [FrameSink κ] (sink : κ) (script : List Arrival) (options : DiagnosticOptions)
  (policy : ErrorPolicy)

theorem flushEnd_record {r : Receiver κ} (h : r.ledger.Over options policy r.source.pending)
    (order : RunOrder) :
    Ledger.FlushEnd (r.record order).answer (r.record order).sinkCalls := by
  have hover : r.watched.ledger.Over options policy r.source.pending := ⟨h.1, h.2, h.3, h.4⟩
  have hend := Ledger.drain_flushEnd hover (List.forall_mem_nil _) order.shutdownAfter
  have hanswer := congrArg Prod.fst (r.view_watched order.clock order.shutdownAfter)
  change (r.record order).answer = _ at hanswer
  rw [hanswer, record, sinkCalls_eq]
  exact hend

/-- A run with a summary has flushed whatever it appended. Where the sink answers every call, a run
without a summary has flushed nothing: all its calls are appends, and as many messages count as written
by it. This holds of any run of a receiver, the first or a later one. -/
theorem unflushed_of_run (orders : List RunOrder) (order : RunOrder) :
    let r := fresh (.ofArrivals script) sink options policy
    let last := (r.runAll orders).2
    let record := last.record order
    let after := (last.runUntil order.clock order.shutdownAfter).2
    (∀ summary, record.answer = .ok summary → SinkCall.unflushed record.sinkCalls = []) ∧
    ((∀ call ∈ record.sinkCalls, call.answer.isOk = true) →
      SinkCall.unflushed record.sinkCalls =
        (if record.answer.isOk then [] else record.sinkCalls) ∧
      ∀ failure, record.answer = .error failure →
        (∀ call ∈ record.sinkCalls, call.appended = true) ∧
        after.counters.messagesWritten =
          last.counters.messagesWritten + (SinkCall.unflushed record.sinkCalls).length) := by
  intro r last record after
  have hbefore := along_runAll (along_fresh sink script options policy) orders
  have hend : Ledger.FlushEnd record.answer record.sinkCalls :=
    flushEnd_record options policy hbefore.isOver order
  obtain ⟨_, _, hbooks⟩ := hbefore.books
  obtain ⟨_, _, hbooksAfter⟩ := (along_runUntil hbefore order).books
  have hwritten : after.counters.messagesWritten =
      last.counters.messagesWritten + record.sinkCalls.countP SinkCall.appended := by
    have hcount := hbooksAfter.balance.messagesWritten_eq
    rw [List.countP_append] at hcount
    exact hcount.trans (congrArg (· + _) hbooks.balance.messagesWritten_eq.symm)
  refine ⟨fun summary hsummary => hend.unflushed_of_isOk (by rw [hsummary]; rfl), fun hcalls => ?_⟩
  cases hanswer : record.answer with
  | ok summary =>
    refine ⟨hend.unflushed_of_isOk (by rw [hanswer]; rfl), ?_⟩
    intro failure hfailure
    cases hfailure
  | error failure =>
    have happended := hend.appended_of_not_isOk hcalls (by rw [hanswer]; rfl)
    have hunflushed := SinkCall.unflushed_of_appended happended
    refine ⟨hunflushed, fun _ _ => ⟨happended, ?_⟩⟩
    rw [hwritten, hunflushed, List.countP_eq_length.mpr happended]

/-- A message is followed by a fault of the source. The run fails with the fault, the message counts
as written, and the sink is never flushed. -/
theorem unflushed_before_fault {message : Octets} {parts : SplitMessage}
    (hsplit : SplitMessage.ofMessage message = .ok parts) {fault : LinkFault}
    (hretry : fault.isRetryable = false) (hclosed : fault.isClosed = false) (clock : Clock) :
    let ended := (fresh (.ofArrivals [.ok message, .error fault]) ({} : MemorySink) {} .skip).run clock
    ended.1.value = .error (.link fault) ∧ ended.2.counters.messagesWritten = 1 ∧
      ended.2.sink.appends = 1 ∧ ended.2.sink.flushes = 0 := by
  intro ended
  let r := fresh (.ofArrivals [.ok message, .error fault]) ({} : MemorySink) {} .skip
  let one := ((r.ledger.handed [.error fault] message).counted.offered
    (({} : MemorySink).append (FrameSet.batch parts.payloads)) parts).credited
  have hone : r.ledger.drain none [.ok message, .error fault] = one.drain none [.error fault] := by
    rw [Ledger.drain_message _ rfl, Ledger.accept_unchecked rfl rfl hsplit]
    rfl
  have htake : one.take (.error fault) [] = (.error (.link fault), one.advanced []) := by
    simp only [Ledger.take, MessageSource.deliver, Ledger.handle, hretry, hclosed,
      Bool.false_eq_true, if_false]
    rfl
  have hview : view ended = (.error (.link fault), one.advanced []) := by
    rw [show view ended = r.ledger.drain none _ from view_runUntil r clock none]
    exact hone.trans (by rw [Ledger.drain_cons _ (by simp), htake])
  obtain ⟨hanswer, hledger⟩ := Prod.mk.inj hview
  have hcounters := congrArg (·.counters.messagesWritten) hledger
  have hsink := congrArg (·.sink) hledger
  change ended.2.counters.messagesWritten = _ at hcounters
  change ended.2.sink = _ at hsink
  rw [hsink]
  exact ⟨hanswer, hcounters, rfl, rfl⟩

/-- The frames of a good message are appended before the connection is lost, and are not flushed. -/
theorem unflushed_before_lost_connection :
    let payload : Octets := [0xFF, 0x07, 0x3A, 0xB6, 123, 0x80, 0]
    let message := Envelope.encode [payload, payload, payload, payload] []
    let r := fresh (.ofArrivals [.ok message, .error (.receive "connection lost" none)])
      ({} : MemorySink) {} .skip
    let ended := r.run fun _ => ⟨0⟩
    ended.1.value = .error (.link (.receive "connection lost" none)) ∧
      ended.2.counters.messagesWritten = 1 ∧ ended.2.sink.appends = 1 ∧
      ended.2.sink.flushes = 0 := by
  intro payload message
  have hsplit : SplitMessage.ofMessage message = .ok ⟨⟨1, [7, 7, 7, 7]⟩,
      [payload, payload, payload, payload], []⟩ := SplitMessage.ofMessage_encode _ rfl (by decide)
  exact unflushed_before_fault hsplit rfl rfl _

end Receiver

end EnsembleTransport
