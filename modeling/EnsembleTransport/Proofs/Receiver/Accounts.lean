import EnsembleTransport.Proofs.Message.RoundTrip
import EnsembleTransport.Proofs.Receiver.Books

/-!
# The accounts over a receiver's whole life

A receiver may run any number of times, and any run may end at a fault. Its counters always balance:
every message that came in was written, was dropped or ended a run. The payload of a message is counted
when its frames are offered to the sink and the frames when they are taken, so that a batch that the sink
refuses shows in the one figure and not in the other.
-/

namespace EnsembleTransport

theorem Diagnosis.syncErrors_le (options : DiagnosticOptions) (now : Instant) (frames : FrameSet)
    (block : Octets) : (ofFrames options now frames block).value.syncErrors ≤ 4 := by
  have hcount : (SyncCheck.findings options.frameSync frames).length = 4 := by
    rw [SyncCheck.findings, List.length_mapIdx, FrameSet.length_frameList]
    rfl
  exact Nat.le_trans List.countP_le_length (Nat.le_of_eq hcount)

namespace Processor

variable {options : DiagnosticOptions} {message : Octets}

theorem counts_le_of_verdict {found : Verdict} (h : verdict options message = .ok found) :
    found.syncErrors ≤ 4 ∧ found.faults.length ≤ 4 := by
  cases hsplit : SplitMessage.ofMessage message with
  | error fault => cases (verdict_of_fault options hsplit).symm.trans h
  | ok parts =>
    obtain ⟨frames, -, hp⟩ := ({ options } : Processor).process_of_parts ⟨0⟩ hsplit
    rw [verdict, hp] at h
    cases h
    exact ⟨Diagnosis.syncErrors_le options ⟨0⟩ frames parts.metadata,
      Diagnosis.length_faults_le options ⟨0⟩ frames parts.metadata⟩

theorem sum_accepted_le {count : Verdict → Nat}
    (hcount : ∀ {message found}, verdict options message = .ok found → count found ≤ 4)
    (messages : List Octets) : ((accepted options messages).map count).sum ≤ 4 * messages.length := by
  induction messages with
  | nil => exact Nat.le_refl 0
  | cons message messages ih =>
    rw [List.length_cons]
    cases hverdict : verdict options message with
    | error fault =>
      have hnone : accepted options (message :: messages) = accepted options messages :=
        List.filterMap_cons_none (by rw [hverdict]; rfl)
      rw [hnone]
      omega
    | ok found =>
      have hsome : accepted options (message :: messages) = found :: accepted options messages :=
        List.filterMap_cons_some (by rw [hverdict]; rfl)
      have hfound := hcount hverdict
      rw [hsome, List.map_cons, List.sum_cons]
      omega

end Processor

namespace Receiver

variable {κ : Type} [FrameSink κ] (sink : κ) (script : List Arrival) (options : DiagnosticOptions)
  (policy : ErrorPolicy)

theorem along_fresh : (fresh (.ofArrivals script) sink options policy).ledger.Along options policy
    script ([] : List (SinkCall κ)) 0 script where
  isOver := ⟨rfl, rfl, rfl, rfl⟩
  books := ⟨[], rfl, {
    balance := ⟨rfl, rfl, rfl, rfl, fun _ => rfl, rfl⟩
    source_eq := rfl
    syncErrors_eq := rfl
    diagnosticErrors_eq := rfl
    batches_eq := rfl
    payloadBytes_eq := rfl }⟩

theorem books_runAll (orders : List RunOrder) :
    let r := fresh (.ofArrivals script) sink options policy
    let records := (r.runAll orders).1
    let last := (r.runAll orders).2
    ∃ taken, script = taken ++ last.source.pending ∧
      last.ledger.Books options policy taken (records.flatMap RunRecord.sinkCalls)
        (records.countP RunRecord.endedAtMessage) := by
  intro r records last
  have h : last.ledger.Along options policy script ([] ++ records.flatMap RunRecord.sinkCalls)
      (0 + records.countP RunRecord.endedAtMessage) last.source.pending :=
    along_runAll (along_fresh sink script options policy) orders
  rw [List.nil_append, Nat.zero_add] at h
  exact h.books

/-- However often a receiver has run over a script, and however its sink has answered: every message
that it took was written, was dropped under a lenient policy, or ended one of the runs, and the other
counters tell what was found in the messages and how often a receive was interrupted. -/
theorem accounts_balance (orders : List RunOrder) :
    let r := fresh (.ofArrivals script) sink options policy
    let records := (r.runAll orders).1
    let last := (r.runAll orders).2
    let calls := records.flatMap RunRecord.sinkCalls
    let counters := last.counters
    SinkCall.Chain sink calls last.sink ∧
    ∃ taken, script = taken ++ last.source.pending ∧
      let accepted := Processor.accepted options (messagesOf taken)
      counters.messagesReceived = counters.messagesWritten + counters.messagesDropped +
        records.countP RunRecord.endedAtMessage ∧
      counters.messagesReceived = last.source.messagesReceived ∧
      counters.messagesReceived = (messagesOf taken).length ∧
      counters.framesWritten = 4 * counters.messagesWritten ∧
      counters.messagesWritten = calls.countP SinkCall.appended ∧
      (policy = .abort → counters.messagesDropped = 0) ∧
      counters.interruptions = taken.countP isInterruption ∧
      counters.syncErrors = (accepted.map Verdict.syncErrors).sum ∧
      counters.diagnosticErrors = (accepted.map (·.faults.length)).sum ∧
      counters.syncErrors ≤ 4 * counters.messagesReceived ∧
      counters.diagnosticErrors ≤ 4 * counters.messagesReceived := by
  intro r records last calls counters
  obtain ⟨taken, hscript, hbooks⟩ := books_runAll sink script options policy orders
  have hreceived := hbooks.balance.messagesReceived_eq
  refine ⟨r.chain_runAll orders, taken, hscript, hbooks.balance.balance, hbooks.source_eq.symm,
    hreceived, hbooks.balance.framesWritten_eq, hbooks.balance.messagesWritten_eq,
    hbooks.balance.messagesDropped_eq, hbooks.balance.interruptions_eq, hbooks.syncErrors_eq,
    hbooks.diagnosticErrors_eq, ?_, ?_⟩
  · exact (hbooks.syncErrors_eq.trans_le
      (Processor.sum_accepted_le (fun h => (Processor.counts_le_of_verdict h).1) _)).trans_eq
      (congrArg (4 * ·) hreceived.symm)
  · exact (hbooks.diagnosticErrors_eq.trans_le
      (Processor.sum_accepted_le (fun h => (Processor.counts_le_of_verdict h).2) _)).trans_eq
      (congrArg (4 * ·) hreceived.symm)

end Receiver

namespace SinkCall

variable {κ : Type}

def appends (calls : List (SinkCall κ)) : List (SinkCall κ) := calls.filter (·.batch?.isSome)

theorem filterMap_batch?_appends (calls : List (SinkCall κ)) :
    (appends calls).filterMap batch? = calls.filterMap batch? := by
  rw [appends, List.filterMap_filter]
  refine congrArg (List.filterMap · calls) (funext fun call => ?_)
  cases call.batch? <;> rfl

theorem length_appends (calls : List (SinkCall κ)) :
    (appends calls).length = (calls.filterMap batch?).length := by
  rw [appends, List.length_filterMap_eq_countP, List.countP_eq_length_filter]

theorem countP_appended_appends [FrameSink κ] (calls : List (SinkCall κ)) :
    (appends calls).countP appended = calls.countP appended := by
  rw [appends, List.countP_filter]
  refine congrArg (List.countP · calls) (funext fun call => ?_)
  rw [appended]
  cases call.batch?.isSome <;> simp

/-- The payload of the messages whose frames were handed over in a call of some kind. The messages
and the calls stand side by side. -/
def payloadOf (kind : SinkCall κ → Bool) (offered : List SplitMessage)
    (appends : List (SinkCall κ)) : Nat :=
  (((offered.zip appends).filter (kind ·.2)).map (·.1.envelope.payloadLength)).sum

theorem payloadOf_add_not {offered : List SplitMessage} {appends : List (SinkCall κ)}
    (h : offered.length = appends.length) (kind : SinkCall κ → Bool) :
    payloadOf kind offered appends + payloadOf (fun call => !kind call) offered appends =
      (offered.map (·.envelope.payloadLength)).sum := by
  induction offered generalizing appends with
  | nil => rfl
  | cons parts offered ih =>
    cases appends with
    | nil => cases h
    | cons call appends =>
      have hrest := ih (Nat.succ.inj h)
      rw [payloadOf, payloadOf] at hrest ⊢
      cases hkind : kind call <;>
        simp only [List.zip_cons_cons, List.filter_cons, hkind, Bool.not_false, Bool.not_true,
          Bool.false_eq_true, if_true, if_false, List.map_cons, List.sum_cons] <;> omega

end SinkCall

namespace Ledger

/-- A lenient ledger that looks at nothing offers every message that can be taken apart to its sink. -/
theorem accept_unchecked {κ : Type} [FrameSink κ] {l : Ledger κ} (hoptions : l.options = {})
    (hpolicy : l.policy = .skip) {message : Octets} {parts : SplitMessage}
    (hsplit : SplitMessage.ofMessage message = .ok parts) :
    l.accept message = match FrameSink.append l.sink (FrameSet.batch parts.payloads) with
      | (.error fault, sink) => (.error (.link fault), l.counted.offered sink parts)
      | (.ok (), sink) => (.ok (), (l.counted.offered sink parts).credited) := by
  obtain ⟨frames, hframes, hp⟩ := ({} : Processor).process_of_parts ⟨0⟩ hsplit
  have hfaults := (Diagnosis.unclocked_ofFrames {} ⟨0⟩ frames parts.metadata rfl).2
  have hsync := (Diagnosis.unchecked_ofFrames {} ⟨0⟩ frames parts.metadata rfl).2
  have hnote : l.counted.note (Diagnosis.ofFrames {} ⟨0⟩ frames parts.metadata).value.verdict =
      l.counted := by
    simp only [note, Diagnosis.verdict, hfaults, hsync]
    rfl
  rw [accept, hoptions, Processor.verdict, hp, Except.map, settle,
    pursue_of_pass (l := l.counted) (.inl hpolicy), hnote]
  exact l.counted.write_of_parts hsplit hframes

end Ledger

namespace Receiver

variable {κ : Type} [FrameSink κ] (sink : κ) (script : List Arrival) (options : DiagnosticOptions)
  (policy : ErrorPolicy)

/-- The frames in a summary are those of the messages that the sink took. The payload is that of all
messages that the sink was offered, the ones it refused in this run or an earlier one among them. -/
theorem payload_of_summary (orders : List RunOrder) (order : RunOrder) :
    let r := fresh (.ofArrivals script) sink options policy
    let records := (r.runAll orders).1
    let last := (r.runAll orders).2
    let record := last.record order
    let after := (last.runUntil order.clock order.shutdownAfter).2
    let appends := SinkCall.appends (records.flatMap RunRecord.sinkCalls ++ record.sinkCalls)
    ∃ taken, script = taken ++ after.source.pending ∧
      let offered := Fate.offered options policy (messagesOf taken)
      appends.filterMap SinkCall.batch? = offered.map (FrameSet.batch ·.payloads) ∧
      offered.length = appends.length ∧
      ∀ summary, record.answer = .ok summary →
        summary.counters.framesWritten = 4 * summary.counters.messagesWritten ∧
        summary.counters.messagesWritten = appends.countP SinkCall.appended ∧
        summary.payloadBytes = SinkCall.payloadOf SinkCall.appended offered appends +
          SinkCall.payloadOf (fun call => !call.appended) offered appends := by
  intro r records last record after appends
  obtain ⟨taken, hscript, hbooks⟩ :=
    (along_runUntil (along_runAll (along_fresh sink script options policy) orders) order).books
  rw [List.nil_append] at hbooks
  have hbatches : appends.filterMap SinkCall.batch? =
      (Fate.offered options policy (messagesOf taken)).map (FrameSet.batch ·.payloads) :=
    (SinkCall.filterMap_batch?_appends _).trans hbooks.batches_eq
  have hlength : (Fate.offered options policy (messagesOf taken)).length = appends.length := by
    rw [SinkCall.length_appends, ← List.length_map (FrameSet.batch ·.payloads)]
    exact congrArg List.length hbooks.batches_eq.symm
  refine ⟨taken, hscript, hbatches, hlength, fun summary hsummary => ?_⟩
  obtain ⟨stopReason, rfl⟩ := summary_of_runUntil hsummary
  refine ⟨hbooks.balance.framesWritten_eq, ?_, ?_⟩
  · rw [SinkCall.countP_appended_appends]
    exact hbooks.balance.messagesWritten_eq
  · rw [SinkCall.payloadOf_add_not hlength]
    exact hbooks.payloadBytes_eq

/-- A message comes twice to a sink that takes one batch. The run that the sink ends gives no summary, and
the summary of the next run tells of four frames and of the payload of eight. -/
theorem payload_of_twice {message : Octets} {parts : SplitMessage}
    (hsplit : SplitMessage.ofMessage message = .ok parts) (clock laterClock : Clock) :
    let r := fresh (.ofArrivals [.ok message, .ok message])
      ({ appendLimit := some 1 } : FailingSink) {} .skip
    let failed := r.run clock
    let again := failed.2.run laterClock
    failed.1.value = .error (.link (.writeFailed "append refused")) ∧
      again.1.value = .ok ⟨{ messagesReceived := 2, messagesWritten := 1, framesWritten := 4 },
        2 * parts.envelope.payloadLength, .sourceClosed⟩ := by
  intro r failed again
  let sink : FailingSink :=
    { r.sink with memory := r.sink.memory.append (FrameSet.batch parts.payloads) }
  let one := ((r.ledger.handed [.ok message] message).counted.offered sink parts).credited
  let two := (one.handed [] message).counted.offered sink parts
  have hone : r.ledger.drain none [.ok message, .ok message] = one.drain none [.ok message] := by
    rw [Ledger.drain_message _ rfl, Ledger.accept_unchecked rfl rfl hsplit]
    rfl
  have htwo : one.drain none [.ok message] =
      (.error (.link (.writeFailed "append refused")), two) := by
    rw [Ledger.drain_message _ rfl, Ledger.accept_unchecked rfl rfl hsplit]
    rfl
  have hfailed : view failed = (.error (.link (.writeFailed "append refused")), two) :=
    (view_runUntil r clock none).trans (hone.trans htwo)
  have hagain : view again = two.finish .sourceClosed := by
    have hrun : view again = failed.2.ledger.runUntil none :=
      view_runUntil failed.2 laterClock none
    rw [hrun, (Prod.mk.inj hfailed).2]
    exact two.drain_nil (by simp)
  have hpayload : two.payloadBytes = 2 * parts.envelope.payloadLength := by
    change 0 + _ + _ = _
    omega
  have hsummary : (view again).1 = .ok (two.summary .sourceClosed) := by rw [hagain]; rfl
  refine ⟨(Prod.mk.inj hfailed).1, hsummary.trans ?_⟩
  rw [Ledger.summary, hpayload]
  rfl

/-- One message with 28 octets of payload was written, and the summary tells of 56. -/
theorem payload_of_refused_append :
    let payload : Octets := [0xFF, 0x07, 0x3A, 0xB6, 123, 0x80, 0]
    let message := Envelope.encode [payload, payload, payload, payload] []
    let r := fresh (.ofArrivals [.ok message, .ok message]) ({ appendLimit := some 1 } : FailingSink)
      {} .skip
    let again := (r.run fun _ => ⟨0⟩).2.run fun _ => ⟨0⟩
    (SplitMessage.ofMessage message).map (·.envelope.payloadLength) = .ok 28 ∧
      again.1.value = .ok ⟨{ messagesReceived := 2, messagesWritten := 1, framesWritten := 4 },
        56, .sourceClosed⟩ := by
  intro payload message
  have hsplit : SplitMessage.ofMessage message = .ok ⟨⟨1, [7, 7, 7, 7]⟩,
      [payload, payload, payload, payload], []⟩ := SplitMessage.ofMessage_encode _ rfl (by decide)
  have htwice : 2 * Envelope.payloadLength ⟨1, [7, 7, 7, 7]⟩ = 56 := by decide
  generalize message = message at hsplit ⊢
  rw [← htwice]
  exact ⟨by rw [hsplit]; rfl, (payload_of_twice hsplit (fun _ => ⟨0⟩) (fun _ => ⟨0⟩)).2⟩

end Receiver

end EnsembleTransport
