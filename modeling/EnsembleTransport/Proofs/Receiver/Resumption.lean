import EnsembleTransport.Proofs.Message.RoundTrip
import EnsembleTransport.Proofs.Receiver.Carried
import EnsembleTransport.Proofs.Receiver.Policies
import EnsembleTransport.Proofs.Receiver.Turn

/-!
# Stopping and going on

A receiver can be stopped between any two entries of its source. What it has taken up to then has
been handled and the rest is still pending, so a run from there on ends as one run over everything would
have ended. The stop shows in one more flush of the sink and nowhere else.
-/

namespace EnsembleTransport

/-- The entry ends no run: it is an interruption, or a message that a strict policy, if there is
one, has nothing to say against. -/
def LeavesRunning (options : DiagnosticOptions) (policy : ErrorPolicy) : Arrival → Prop
  | .error fault => fault.isRetryable = true
  | .ok message => policy = .abort → Passes options message

theorem Fate.ofMessage_ne_stop {options : DiagnosticOptions} {policy : ErrorPolicy}
    {message : Octets} (h : LeavesRunning options policy (.ok message)) (fault : MessageFault) :
    ofMessage options policy message ≠ .stop fault := by
  cases policy with
  | skip =>
    unfold ofMessage
    cases SplitMessage.ofMessage message <;> simp
  | abort =>
    rcases cases_abort options message with ⟨_, _, hobjects⟩ | ⟨payloads, hwrite, _⟩
    · exact absurd (h rfl) hobjects.not_passes
    · rw [hwrite]
      exact Fate.noConfusion

namespace Ledger

variable {options : DiagnosticOptions} {policy : ErrorPolicy}

theorem take_of_leavesRunning {l : Ledger MemorySink} {arrival : Arrival} {pending : List Arrival}
    (hl : l.Over options policy (arrival :: pending))
    (h : LeavesRunning options policy arrival) :
    ∃ after, l.take arrival pending = (.ok none, after) ∧ after.Over options policy pending := by
  obtain ⟨rfl, rfl, hsource, -⟩ := hl
  cases arrival with
  | error fault =>
    cases fault with
    | interrupted => exact ⟨l.interrupted pending, rfl, rfl, rfl, hsource, rfl⟩
    | _ => cases h
  | ok message =>
    obtain ⟨answer, after, haccept, hfollows, hfate⟩ := (l.handed pending message).accept_spec message
    have hanswer : answer = .ok () := by
      change (answer, after.sink) = (Fate.ofMessage l.options l.policy message).carryOut _ l.sink
        at hfate
      cases hofMessage : Fate.ofMessage l.options l.policy message with
      | stop fault => exact absurd hofMessage (Fate.ofMessage_ne_stop h fault)
      | drop =>
        rw [hofMessage] at hfate
        exact (Prod.mk.inj hfate).1
      | write payloads =>
        rw [hofMessage] at hfate
        exact (Prod.mk.inj hfate).1
    refine ⟨after, ?_, hfollows.options, hfollows.policy, ?_, ?_⟩
    · rw [take_message l hsource, haccept, hanswer]
      rfl
    · rw [hfollows.source]
      exact hsource
    · rw [hfollows.source]
      rfl

/-- A run over a script that begins with entries that end no run comes to a run over the rest. -/
theorem drain_append {l : Ledger MemorySink} {first rest : List Arrival}
    (hl : l.Over options policy (first ++ rest))
    (hfirst : ∀ arrival ∈ first, LeavesRunning options policy arrival) :
    ∃ after : Ledger MemorySink, after.Over options policy rest ∧ ∀ shutdownAfter : Option Nat,
      l.drain (shutdownAfter.map (first.length + ·)) (first ++ rest) =
        after.drain shutdownAfter rest := by
  induction first generalizing l with
  | nil =>
    refine ⟨l, hl, fun shutdownAfter => ?_⟩
    cases shutdownAfter <;> simp
  | cons arrival first ih =>
    rw [List.cons_append] at hl
    rw [List.forall_mem_cons] at hfirst
    obtain ⟨next, htake, hnext⟩ := take_of_leavesRunning hl hfirst.1
    obtain ⟨after, hafter, hdrain⟩ := ih hnext hfirst.2
    refine ⟨after, hafter, fun shutdownAfter => ?_⟩
    have hlimit : shutdownAfter.map ((arrival :: first).length + ·) ≠ some 0 := by
      cases shutdownAfter <;> simp
    have hlooks : (shutdownAfter.map ((arrival :: first).length + ·)).map (· - 1) =
        shutdownAfter.map (first.length + ·) := by
      rw [Option.map_map]
      congr 1
      funext n
      simp only [Function.comp_apply, List.length_cons]
      omega
    rw [List.cons_append, drain_cons l hlimit, htake, hlooks]
    exact hdrain shutdownAfter

def flushed (l : Ledger MemorySink) : Ledger MemorySink := { l with sink := l.sink.flush }

theorem flush_follows : FrameSink.Follows MemorySink.flush := ⟨fun _ _ => rfl, fun _ => rfl⟩

/-- A flush before a run is a flush behind it. -/
theorem drain_flushed (l : Ledger MemorySink) (shutdownAfter : Option Nat)
    (pending : List Arrival) : l.flushed.drain shutdownAfter pending =
      ((l.drain shutdownAfter pending).1, (l.drain shutdownAfter pending).2.flushed) :=
  drain_mapSink flush_follows l shutdownAfter pending

end Ledger

namespace Receiver

/-- How a run that was stopped, the run that goes on from there and a run without the stop stand to
each other. -/
structure Resumes (stopped resumed whole : Logged (Except RunFailure RunSummary) × Receiver MemorySink)
    (pending : List Arrival) : Prop where
  stopReason_eq : stopped.1.value.map RunSummary.stopReason = .ok .shutdown
  pending_eq : stopped.2.source.pending = pending
  answer_eq : resumed.1.value = whole.1.value
  data_eq : resumed.2.sink.data = whole.2.sink.data
  appends_eq : resumed.2.sink.appends = whole.2.sink.appends
  flushes_eq : resumed.2.sink.flushes = whole.2.sink.flushes + 1
  counters_eq : resumed.2.counters = whole.2.counters
  source_eq : resumed.2.source = whole.2.source

/-- A receiver is stopped before it takes entry `k + 1` of a script, no earlier entry of which ends a
run, and runs again. The stop leaves exactly the entries from there on, and the second run ends as a run
over the whole script without a stop, after one flush more. -/
theorem resume_loses_nothing {script : List Arrival} {options : DiagnosticOptions}
    {policy : ErrorPolicy} {k : Nat} (hk : k ≤ script.length)
    (hfirst : ∀ arrival ∈ script.take k, LeavesRunning options policy arrival)
    (clock laterClock otherClock : Clock) :
    let r := fresh (.ofArrivals script) ({} : MemorySink) options policy
    let stopped := r.runUntil clock (some k)
    Resumes stopped (stopped.2.run laterClock) (r.run otherClock) (script.drop k) := by
  intro r stopped
  have hover : r.ledger.Over options policy (script.take k ++ script.drop k) :=
    ⟨rfl, rfl, rfl, (List.take_append_drop k script).symm⟩
  obtain ⟨after, hafter, hdrain⟩ := Ledger.drain_append hover hfirst
  rw [List.length_take, Nat.min_eq_left hk, List.take_append_drop] at hdrain
  have hstopped : view stopped = (.ok (after.summary .shutdown), after.flushed) :=
    (view_runUntil r clock (some k)).trans ((hdrain (some 0)).trans (after.drain_zero _))
  obtain ⟨hanswer, hledger⟩ := Prod.mk.inj hstopped
  have hwhole : view (r.run otherClock) = after.drain none (script.drop k) :=
    (view_runUntil r otherClock none).trans (hdrain none)
  have hresumed : view (stopped.2.run laterClock) =
      ((view (r.run otherClock)).1, (view (r.run otherClock)).2.flushed) := by
    have hrun : view (stopped.2.run laterClock) = stopped.2.ledger.runUntil none :=
      view_runUntil stopped.2 laterClock none
    rw [hwhole, ← after.drain_flushed, hrun, hledger, Ledger.runUntil]
    exact congrArg _ hafter.pending_eq
  obtain ⟨hsame, hend⟩ := Prod.mk.inj hresumed
  exact {
    stopReason_eq := by rw [hanswer]; rfl
    pending_eq := (congrArg (·.source.pending) hledger).trans hafter.pending_eq
    answer_eq := hsame
    data_eq := congrArg (·.sink.data) hend
    appends_eq := congrArg (·.sink.appends) hend
    flushes_eq := congrArg (·.sink.flushes) hend
    counters_eq := congrArg Ledger.counters hend
    source_eq := congrArg Ledger.source hend }

/-- A strict receiver that is stopped behind an interruption and a message without any fault, in front
of a message of one octet. -/
theorem resume_before_short_message :
    let payload : Octets := [0xFF, 0x07, 0x3A, 0xB6, 123, 0x80, 0]
    let group := Metadata.encodeGroup ⟨37, 800000000, 4623⟩
    let message := Envelope.encode [payload, payload, payload, payload]
      (group ++ group ++ group ++ group)
    let r := fresh (.ofArrivals [.error .interrupted, .ok message, .ok [1]]) ({} : MemorySink)
      ⟨true, true⟩ .abort
    let stopped := r.runUntil (fun _ => ⟨0⟩) (some 2)
    Resumes stopped (stopped.2.run fun _ => ⟨0⟩) (r.run fun _ => ⟨0⟩) [.ok [1]] := by
  intro payload group message r stopped
  have hpasses : Passes ⟨true, true⟩ message := by
    have hparts : SplitMessage.ofMessage message =
        .ok ⟨⟨1, [7, 7, 7, 7]⟩, [payload, payload, payload, payload],
          group ++ group ++ group ++ group⟩ := SplitMessage.ofMessage_encode _ rfl (by decide)
    have hfaults : Processor.faults ⟨true, true⟩ message = [] := by
      rw [Processor.faults_of_parts _ hparts]
      decide +kernel
    obtain ⟨found, hfound, -⟩ := Processor.verdict_of_parts ⟨true, true⟩ hparts
    rw [Processor.faults, hfound] at hfaults
    exact passes_of_verdict hfound hfaults
  have hk : 2 ≤ [.error .interrupted, .ok message, (.ok [1] : Arrival)].length := by decide
  have hfirst : ∀ arrival ∈ [.error .interrupted, .ok message, (.ok [1] : Arrival)].take 2,
      LeavesRunning ⟨true, true⟩ .abort arrival := by
    rintro arrival (_ | ⟨_, _ | ⟨_, h⟩⟩)
    · rfl
    · exact fun _ => hpasses
    · cases h
  exact resume_loses_nothing hk hfirst (fun _ => ⟨0⟩) (fun _ => ⟨0⟩) (fun _ => ⟨0⟩)

end Receiver

end EnsembleTransport
