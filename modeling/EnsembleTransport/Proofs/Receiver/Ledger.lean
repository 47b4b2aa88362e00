import EnsembleTransport.Proofs.Receiver.Verdict
import EnsembleTransport.Receiver.Run

/-!
# The ledger of a receiver

Clock readings, the frame buffer and the log have no part in where a run goes. What is left of a
receiver without them is its ledger. Every operation of a receiver is an operation of its ledger,
so that the answer of a run and the ledger at its end are told from the ledger at its start.
-/

namespace EnsembleTransport

/-- The part of a receiver that its runs depend on. -/
structure Ledger (κ : Type) where
  source : MessageSource
  sink : κ
  options : DiagnosticOptions
  policy : ErrorPolicy
  counters : Counters
  /-- Payload octets of the messages handed to the sink. -/
  payloadBytes : Nat

namespace Ledger

variable {κ : Type}

def counted (l : Ledger κ) : Ledger κ :=
  { l with counters.messagesReceived := l.counters.messagesReceived + 1 }

def note (l : Ledger κ) (found : Verdict) : Ledger κ :=
  { l with
    counters.syncErrors := l.counters.syncErrors + found.syncErrors
    counters.diagnosticErrors := l.counters.diagnosticErrors + found.faults.length }

def consider (l : Ledger κ) (found : Verdict) : Except RunFailure Unit × Ledger κ :=
  match found.faults, l.policy with
  | fault :: _, .abort => (.error (.message l.counters.messagesReceived fault), l.note found)
  | _, _ => (.ok (), l.note found)

def reject (l : Ledger κ) (fault : MessageFault) : Except RunFailure Unit × Ledger κ :=
  match l.policy with
  | .skip => (.ok (), { l with counters.messagesDropped := l.counters.messagesDropped + 1 })
  | .abort => (.error (.message l.counters.messagesReceived fault), l)

def summary (l : Ledger κ) (stopReason : StopReason) : RunSummary :=
  ⟨l.counters, l.payloadBytes, stopReason⟩

variable [FrameSink κ]

def write (l : Ledger κ) (frames : FrameSet) : Except RunFailure Unit × Ledger κ :=
  let (result, sink) := FrameSink.append l.sink frames.bytes
  let l := { l with sink, payloadBytes := l.payloadBytes + frames.totalPayload }
  match result with
  | .error fault => (.error (.link fault), l)
  | .ok () =>
    (.ok (), { l with
      counters.framesWritten := l.counters.framesWritten + Layout.framesPerMessage
      counters.messagesWritten := l.counters.messagesWritten + 1 })

def pursue (l : Ledger κ) (found : Verdict) : Except RunFailure Unit × Ledger κ :=
  match l.consider found with
  | (.error failure, l) => (.error failure, l)
  | (.ok (), l) => l.write found.frames

theorem pursue_of_fault {l : Ledger κ} {found : Verdict} {fault : MessageFault}
    {faults : List MessageFault} (hpolicy : l.policy = .abort)
    (hfaults : found.faults = fault :: faults) :
    l.pursue found = (.error (.message l.counters.messagesReceived fault), l.note found) := by
  simp only [pursue, consider, hfaults, hpolicy]

theorem pursue_of_pass {l : Ledger κ} {found : Verdict}
    (h : l.policy = .skip ∨ found.faults = []) :
    l.pursue found = (l.note found).write found.frames := by
  rcases h with hpolicy | hfaults
  · rw [pursue, consider, hpolicy]
    cases found.faults <;> rfl
  · simp only [pursue, consider, hfaults]

/-- Settles what becomes of a message that has been counted. -/
def settle (l : Ledger κ) : Except MessageFault Verdict → Except RunFailure Unit × Ledger κ
  | .error fault => l.reject fault
  | .ok found => l.pursue found

def accept (l : Ledger κ) (message : Octets) : Except RunFailure Unit × Ledger κ :=
  l.counted.settle (Processor.verdict l.options message)

def finish (l : Ledger κ) (stopReason : StopReason) : Except RunFailure RunSummary × Ledger κ :=
  let (result, sink) := FrameSink.flush l.sink
  let l := { l with sink }
  match result with
  | .error fault => (.error (.link fault), l)
  | .ok () => (.ok (l.summary stopReason), l)

def handle (l : Ledger κ) : Arrival → Except RunFailure (Option StopReason) × Ledger κ
  | .ok message =>
    let (accepted, l) := l.accept message
    (accepted.map fun _ => none, l)
  | .error fault =>
    if fault.isRetryable then
      (.ok none, { l with counters.interruptions := l.counters.interruptions + 1 })
    else if fault.isClosed then (.ok (some .sourceClosed), l)
    else (.error (.link fault), l)

def take (l : Ledger κ) (arrival : Arrival) (pending : List Arrival) :
    Except RunFailure (Option StopReason) × Ledger κ :=
  let (delivered, source) := l.source.deliver arrival pending
  { l with source }.handle delivered.value

def drain (l : Ledger κ) : (shutdownAfter : Option Nat) → (pending : List Arrival) →
    Except RunFailure RunSummary × Ledger κ
  | some 0, _ => l.finish .shutdown
  | _, [] => l.finish .sourceClosed
  | shutdownAfter, arrival :: pending =>
    match l.take arrival pending with
    | (.error failure, l) => (.error failure, l)
    | (.ok (some stopReason), l) => l.finish stopReason
    | (.ok none, l) => drain l (shutdownAfter.map (· - 1)) pending

theorem drain_zero (l : Ledger κ) (pending : List Arrival) :
    l.drain (some 0) pending = l.finish .shutdown := by
  rw [drain]

theorem drain_nil (l : Ledger κ) {shutdownAfter : Option Nat} (h : shutdownAfter ≠ some 0) :
    l.drain shutdownAfter [] = l.finish .sourceClosed := by
  rw [drain]
  exact h

theorem drain_cons (l : Ledger κ) {shutdownAfter : Option Nat} (h : shutdownAfter ≠ some 0)
    (arrival : Arrival) (pending : List Arrival) :
    l.drain shutdownAfter (arrival :: pending) =
      match l.take arrival pending with
      | (.error failure, l) => (.error failure, l)
      | (.ok (some stopReason), l) => l.finish stopReason
      | (.ok none, l) => drain l (shutdownAfter.map (· - 1)) pending := by
  rw [drain]
  exact h

/-- A change of the ledger that every step of a run carries along, and every end of a run, is
carried along by the run. What is told at the end may change with it. -/
theorem drain_carries {ι : Type} [FrameSink ι] {carry : Ledger κ → Ledger ι}
    {told : RunSummary → RunSummary} {Kept : Ledger κ → Prop}
    (htake : ∀ l arrival pending, Kept l → (carry l).take arrival pending =
      ((l.take arrival pending).1, carry (l.take arrival pending).2) ∧
      Kept (l.take arrival pending).2)
    (hfinish : ∀ l stopReason, Kept l → (carry l).finish stopReason =
      ((l.finish stopReason).1.map told, carry (l.finish stopReason).2))
    {l : Ledger κ} (hl : Kept l) (shutdownAfter : Option Nat) (pending : List Arrival) :
    (carry l).drain shutdownAfter pending =
      ((l.drain shutdownAfter pending).1.map told, carry (l.drain shutdownAfter pending).2) := by
  fun_induction drain l shutdownAfter pending with
  | case1 pending l =>
    rw [drain_zero]
    exact hfinish l .shutdown hl
  | case2 l shutdownAfter hlimit =>
    rw [drain_nil _ hlimit]
    exact hfinish l .sourceClosed hl
  | case3 l shutdownAfter arrival pending hlimit failure after hanswer =>
    obtain ⟨hcarried, _⟩ := htake l arrival pending hl
    rw [hanswer] at hcarried
    rw [drain_cons _ hlimit, hcarried]
    rfl
  | case4 l shutdownAfter arrival pending hlimit stopReason after hanswer =>
    obtain ⟨hcarried, hafter⟩ := htake l arrival pending hl
    rw [hanswer] at hcarried hafter
    rw [drain_cons _ hlimit, hcarried]
    exact hfinish after stopReason hafter
  | case5 l shutdownAfter arrival pending hlimit after hanswer ih =>
    obtain ⟨hcarried, hafter⟩ := htake l arrival pending hl
    rw [hanswer] at hcarried hafter
    rw [drain_cons _ hlimit, hcarried]
    exact ih hafter

theorem summary_of_finish {l : Ledger κ} {stopReason : StopReason} {summary : RunSummary}
    (h : (l.finish stopReason).1 = .ok summary) :
    summary = (l.finish stopReason).2.summary stopReason := by
  unfold finish at h ⊢
  rcases hflush : FrameSink.flush l.sink with ⟨fault | _, sink⟩
  · rw [hflush] at h
    cases h
  · rw [hflush] at h
    cases h
    rfl

theorem summary_of_drain {l : Ledger κ} {shutdownAfter : Option Nat} {pending : List Arrival}
    {summary : RunSummary} (h : (l.drain shutdownAfter pending).1 = .ok summary) :
    ∃ stopReason, summary = (l.drain shutdownAfter pending).2.summary stopReason := by
  fun_induction drain l shutdownAfter pending with
  | case1 => exact ⟨_, summary_of_finish h⟩
  | case2 => exact ⟨_, summary_of_finish h⟩
  | case3 => cases h
  | case4 => exact ⟨_, summary_of_finish h⟩
  | case5 _ _ _ _ _ _ _ ih => exact ih h

def runUntil (l : Ledger κ) (shutdownAfter : Option Nat) :
    Except RunFailure RunSummary × Ledger κ :=
  l.drain shutdownAfter l.source.pending

end Ledger

namespace Receiver

variable {κ : Type}

def ledger (r : Receiver κ) : Ledger κ :=
  ⟨r.source, r.sink, r.processor.options, r.policy, r.counters, r.meter.totalBytes⟩

/-- An answer without its events, and the ledger it leaves. -/
def view {α : Type} (answered : Logged α × Receiver κ) : α × Ledger κ :=
  (answered.1.value, answered.2.ledger)

def counted (r : Receiver κ) (processor : Processor) : Receiver κ :=
  { r with processor, counters.messagesReceived := r.counters.messagesReceived + 1 }

theorem totalBytes_measure (meter : ThroughputMeter) (now : Instant) (lengths : List Nat) :
    (measure meter now lengths).value.totalBytes = meter.totalBytes + lengths.sum := by
  induction lengths generalizing meter with
  | nil => rfl
  | cons length lengths ih =>
    rw [List.sum_cons, ← Nat.add_assoc]
    exact ih (meter.record now.nanoseconds length).2

theorem view_reject (r : Receiver κ) (fault : MessageFault) :
    view (r.reject fault) = r.ledger.reject fault := by
  cases hpolicy : r.policy <;> simp only [reject, Ledger.reject, ledger, view, hpolicy]

theorem view_consider (r : Receiver κ) (diagnosis : Diagnosis) :
    view (r.consider diagnosis) = r.ledger.consider diagnosis.verdict := by
  unfold consider Ledger.consider
  cases hfaults : diagnosis.faults <;> cases hpolicy : r.policy <;>
    simp only [view, ledger, Diagnosis.verdict, Ledger.note, hfaults, hpolicy,
      List.head?_nil, List.head?_cons]

variable [FrameSink κ]

theorem view_write (r : Receiver κ) (now : Instant) (frames : FrameSet) :
    view (r.write now frames) = r.ledger.write frames := by
  have hbytes := totalBytes_measure r.meter now
    (frames.frameList.mapIdx fun index _ => frames.payloadLength index)
  rw [frames.mapIdx_payloadLength] at hbytes
  unfold write Ledger.write
  rw [frames.mapIdx_payloadLength]
  rcases hsink : FrameSink.append r.sink frames.bytes with ⟨fault | _, sink⟩
  · simp only [view, ledger, hsink, hbytes, FrameSet.totalPayload]
  · simp only [view, ledger, hsink, hbytes, FrameSet.totalPayload, frames.frameCount_eq]

theorem view_pursue (r : Receiver κ) (now : Instant) (diagnosis : Diagnosis) :
    view (r.pursue now diagnosis) = r.ledger.pursue diagnosis.verdict := by
  rw [pursue, Ledger.pursue, ← view_consider]
  rcases r.consider diagnosis with ⟨⟨failure | _, events⟩, considered⟩
  · rfl
  · exact considered.view_write now diagnosis.frames

theorem ledger_accept (r : Receiver κ) (now : Instant) (message : Octets) :
    r.ledger.accept message = (r.counted (r.processor.process now message).2).ledger.settle
      ((r.processor.process now message).1.value.map Diagnosis.verdict) := by
  rw [r.processor.verdict_process now message]
  simp only [Ledger.accept, Ledger.counted, ledger, counted, Processor.options_process]

theorem view_accept (r : Receiver κ) (clock : Clock) (message : Octets) :
    view (r.accept clock message) = r.ledger.accept message := by
  rw [ledger_accept r (clock (r.counters.messagesReceived + 1)), accept]
  rcases r.processor.process (clock (r.counters.messagesReceived + 1)) message with
    ⟨⟨fault | diagnosis, events⟩, processor⟩
  · exact (r.counted processor).view_reject fault
  · exact (r.counted processor).view_pursue _ diagnosis

theorem view_finish (r : Receiver κ) (clock : Clock) (stopReason : StopReason) :
    view (r.finish clock stopReason) = r.ledger.finish stopReason := by
  unfold finish Ledger.finish
  rcases hsink : FrameSink.flush r.sink with ⟨fault | _, sink⟩
  · simp only [view, ledger, hsink]
  · simp only [view, ledger, hsink, summary, Ledger.summary]

theorem view_handle (r : Receiver κ) (clock : Clock) (arrival : Arrival) :
    view (r.handle clock arrival) = r.ledger.handle arrival := by
  cases arrival with
  | ok message =>
    simp only [handle, Ledger.handle, ← view_accept r clock]
    rfl
  | error fault => cases fault <;> rfl

theorem view_take (r : Receiver κ) (clock : Clock) (arrival : Arrival) (pending : List Arrival) :
    view (r.take clock arrival pending) = r.ledger.take arrival pending := by
  have hledger : r.ledger.source = r.source := rfl
  rw [take, Ledger.take, hledger]
  rcases r.source.deliver arrival pending with ⟨delivered, source⟩
  exact view_handle { r with source } clock delivered.value

/-- A run and the run of the ledger come to the same answer and the same ledger. -/
theorem view_drain (clock : Clock) (r : Receiver κ) (shutdownAfter : Option Nat)
    (pending : List Arrival) :
    view (drain clock r shutdownAfter pending) = r.ledger.drain shutdownAfter pending := by
  induction pending generalizing r shutdownAfter with
  | nil =>
    rcases shutdownAfter with _ | _ | n
    · exact r.view_finish clock .sourceClosed
    · exact r.view_finish clock .shutdown
    · exact r.view_finish clock .sourceClosed
  | cons arrival pending ih =>
    by_cases h : shutdownAfter = some 0
    · rw [h]
      exact r.view_finish clock .shutdown
    · rw [drain, Ledger.drain_cons _ h, ← r.view_take clock]
      · rcases r.take clock arrival pending with ⟨⟨failure | _ | stopReason, events⟩, taken⟩
        · rfl
        · exact ih taken _
        · exact taken.view_finish clock stopReason
      · exact h

theorem view_runUntil (r : Receiver κ) (clock : Clock) (shutdownAfter : Option Nat) :
    view (r.runUntil clock shutdownAfter) = r.ledger.runUntil shutdownAfter :=
  view_drain clock r shutdownAfter r.source.pending

/-- The summary of a run gives the account of the ledger that the run leaves. -/
theorem summary_of_runUntil {r : Receiver κ} {clock : Clock} {shutdownAfter : Option Nat}
    {summary : RunSummary} (h : (r.runUntil clock shutdownAfter).1.value = .ok summary) :
    ∃ stopReason, summary = (r.runUntil clock shutdownAfter).2.ledger.summary stopReason := by
  have hview := r.view_runUntil clock shutdownAfter
  have hanswer : (r.ledger.runUntil shutdownAfter).1 = .ok summary := by
    rw [← hview]
    exact h
  obtain ⟨stopReason, hsummary⟩ := Ledger.summary_of_drain hanswer
  change summary = (r.ledger.runUntil shutdownAfter).2.summary stopReason at hsummary
  rw [← hview] at hsummary
  exact ⟨stopReason, hsummary⟩

end Receiver

end EnsembleTransport
