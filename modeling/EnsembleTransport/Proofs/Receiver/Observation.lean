import EnsembleTransport.Proofs.Diagnosis.Observation
import EnsembleTransport.Proofs.Receiver.Script

/-!
# Runs that look at nothing

A lenient receiver delivers the same frames with any checks and at any time. Both of two runs that
differ in their checks come to what a run comes to that looks at nothing: its ledger is that of either
run with the counts of what the checks found struck out.
-/

namespace EnsembleTransport

def Counters.blind (counters : Counters) : Counters :=
  { counters with diagnosticErrors := 0, syncErrors := 0 }

def RunSummary.blind (summary : RunSummary) : RunSummary :=
  { summary with counters := summary.counters.blind }

def Verdict.blind (found : Verdict) : Verdict := { found with faults := [], syncErrors := 0 }

/-- Without any check a message has its frames and nothing else is found in it. -/
theorem Processor.verdict_blind (options : DiagnosticOptions) (message : Octets) :
    verdict {} message = (verdict options message).map Verdict.blind := by
  cases hsplit : SplitMessage.ofMessage message with
  | error fault => rw [verdict_of_fault _ hsplit, verdict_of_fault _ hsplit, Except.map]
  | ok parts =>
    obtain ⟨frames, hframes, hblind⟩ := ({} : Processor).process_of_parts ⟨0⟩ hsplit
    obtain ⟨others, hothers, hlooking⟩ := ({ options } : Processor).process_of_parts ⟨0⟩ hsplit
    have hfaults := (Diagnosis.unclocked_ofFrames {} ⟨0⟩ frames parts.metadata rfl).2
    have hsync := (Diagnosis.unchecked_ofFrames {} ⟨0⟩ frames parts.metadata rfl).2
    rw [verdict, verdict, hlooking, ← hframes.unique hothers]
    change (({} : Processor).process ⟨0⟩ message).1.value.map Diagnosis.verdict = _
    rw [hblind]
    simp only [Except.map, Diagnosis.verdict, hfaults, hsync]
    rfl

namespace Ledger

variable {κ : Type}

def blind (l : Ledger κ) : Ledger κ := { l with options := {}, counters := l.counters.blind }

variable [FrameSink κ]

theorem write_blind (l : Ledger κ) (frames : FrameSet) :
    l.blind.write frames = ((l.write frames).1, (l.write frames).2.blind) := by
  have hsink : l.blind.sink = l.sink := rfl
  unfold write
  rw [hsink]
  rcases FrameSink.append l.sink frames.bytes with ⟨fault | _, sink⟩ <;> rfl

theorem settle_blind {l : Ledger κ} (h : l.policy = .skip)
    (verdict : Except MessageFault Verdict) :
    l.blind.settle (verdict.map Verdict.blind) =
      ((l.settle verdict).1, (l.settle verdict).2.blind) := by
  have hpolicy : l.blind.policy = .skip := h
  cases verdict with
  | error fault =>
    simp only [Except.map, settle, reject, h, hpolicy]
    rfl
  | ok found =>
    simp only [Except.map, settle, pursue_of_pass (.inl h), pursue_of_pass (.inl hpolicy)]
    exact (l.note found).write_blind found.frames

theorem accept_blind {l : Ledger κ} (h : l.policy = .skip) (message : Octets) :
    l.blind.accept message = ((l.accept message).1, (l.accept message).2.blind) := by
  rw [accept, accept, ← settle_blind (l := l.counted) h, ← Processor.verdict_blind]
  rfl

theorem handle_blind {l : Ledger κ} (h : l.policy = .skip) (arrival : Arrival) :
    l.blind.handle arrival = ((l.handle arrival).1, (l.handle arrival).2.blind) := by
  cases arrival with
  | ok message => rw [handle, handle, accept_blind h]
  | error fault => cases fault <;> rfl

theorem finish_blind (l : Ledger κ) (stopReason : StopReason) :
    l.blind.finish stopReason =
      ((l.finish stopReason).1.map RunSummary.blind, (l.finish stopReason).2.blind) := by
  have hsink : l.blind.sink = l.sink := rfl
  unfold finish
  rw [hsink]
  rcases FrameSink.flush l.sink with ⟨fault | _, sink⟩ <;> rfl

theorem policy_accept (l : Ledger κ) (message : Octets) :
    (l.accept message).2.policy = l.policy := (l.accept_follows message).policy

theorem policy_handle (l : Ledger κ) (arrival : Arrival) :
    (l.handle arrival).2.policy = l.policy := by
  cases arrival with
  | ok message => exact l.policy_accept message
  | error fault => cases fault <;> rfl

theorem take_blind {l : Ledger κ} (h : l.policy = .skip) (arrival : Arrival)
    (pending : List Arrival) :
    l.blind.take arrival pending =
        ((l.take arrival pending).1, (l.take arrival pending).2.blind) ∧
      (l.take arrival pending).2.policy = .skip := by
  let located := { l with source := (l.source.deliver arrival pending).2 }
  have hlocated : located.policy = .skip := h
  exact ⟨handle_blind hlocated _, (located.policy_handle _).trans h⟩

/-- From any lenient ledger on, a run comes to what a run comes to that looks at nothing. -/
theorem drain_blind {l : Ledger κ} (h : l.policy = .skip) (shutdownAfter : Option Nat)
    (pending : List Arrival) :
    l.blind.drain shutdownAfter pending =
      ((l.drain shutdownAfter pending).1.map RunSummary.blind,
        (l.drain shutdownAfter pending).2.blind) :=
  drain_carries (fun _ arrival pending hl => take_blind hl arrival pending)
    (fun l stopReason _ => l.finish_blind stopReason) h shutdownAfter pending

end Ledger

/-- What two runs have in common that differ in their checks. -/
structure Receiver.SameDelivery {κ : Type}
    (one other : Logged (Except RunFailure RunSummary) × Receiver κ) : Prop where
  answer_eq : one.1.value.map RunSummary.blind = other.1.value.map RunSummary.blind
  sink_eq : one.2.sink = other.2.sink
  messagesReceived_eq : one.2.counters.messagesReceived = other.2.counters.messagesReceived
  messagesWritten_eq : one.2.counters.messagesWritten = other.2.counters.messagesWritten
  messagesDropped_eq : one.2.counters.messagesDropped = other.2.counters.messagesDropped
  framesWritten_eq : one.2.counters.framesWritten = other.2.counters.framesWritten
  payloadBytes_eq : one.2.meter.totalBytes = other.2.meter.totalBytes

namespace Receiver

variable {κ : Type}

theorem sameDelivery_of_blind {one other : Logged (Except RunFailure RunSummary) × Receiver κ}
    (hanswer : one.1.value.map RunSummary.blind = other.1.value.map RunSummary.blind)
    (hledger : one.2.ledger.blind = other.2.ledger.blind) : SameDelivery one other where
  answer_eq := hanswer
  sink_eq := congrArg Ledger.sink hledger
  messagesReceived_eq := congrArg (·.counters.messagesReceived) hledger
  messagesWritten_eq := congrArg (·.counters.messagesWritten) hledger
  messagesDropped_eq := congrArg (·.counters.messagesDropped) hledger
  framesWritten_eq := congrArg (·.counters.framesWritten) hledger
  payloadBytes_eq := congrArg Ledger.payloadBytes hledger

variable [FrameSink κ]

theorem runUntil_blind (source : MessageSource) (sink : κ) (options : DiagnosticOptions)
    (clock : Clock) (shutdownAfter : Option Nat) :
    let ended := (fresh source sink options .skip).runUntil clock shutdownAfter
    (ended.1.value.map RunSummary.blind, ended.2.ledger.blind) =
      (fresh source sink {} .skip).ledger.runUntil shutdownAfter := by
  intro ended
  let l := (fresh source sink options .skip).ledger
  have hview : view ended = l.drain shutdownAfter source.pending :=
    view_runUntil (fresh source sink options .skip) clock shutdownAfter
  have hblind : l.blind.drain shutdownAfter source.pending =
      ((view ended).1.map RunSummary.blind, (view ended).2.blind) := by
    rw [hview]
    exact Ledger.drain_blind rfl shutdownAfter source.pending
  exact hblind.symm

/-- The checks observe and do nothing else. Two processors refuse a message for one reason or take it
apart into the same frames, and each part of a diagnosis depends on the message and on the switch of
its check alone, but for the distance to the clock. So two lenient runs over one source deliver the
same, whatever either of them checks and whenever it runs. -/
theorem diagnostics_observe_only :
    (∀ (p q : Processor) (now later : Instant) (message : Octets),
      (∃ fault, (p.process now message).1.value = .error fault ∧
        (q.process later message).1.value = .error fault) ∨
      (∃ one other, (p.process now message).1.value = .ok one ∧
        (q.process later message).1.value = .ok other ∧
        one.AgreesWith other p.options q.options now later)) ∧
    (∀ (source : MessageSource) (sink : κ) (options others : DiagnosticOptions)
      (clock otherClock : Clock) (shutdownAfter : Option Nat),
      SameDelivery ((fresh source sink options .skip).runUntil clock shutdownAfter)
        ((fresh source sink others .skip).runUntil otherClock shutdownAfter)) := by
  refine ⟨Processor.process_agrees, ?_⟩
  intro source sink options others clock otherClock shutdownAfter
  have hone := runUntil_blind source sink options clock shutdownAfter
  have hother := runUntil_blind source sink others otherClock shutdownAfter
  obtain ⟨hanswer, hledger⟩ := Prod.mk.inj (hone.trans hother.symm)
  exact sameDelivery_of_blind hanswer hledger

end Receiver

end EnsembleTransport
