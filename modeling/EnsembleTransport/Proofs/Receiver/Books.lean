import EnsembleTransport.Proofs.Diagnosis.FaultClasses
import EnsembleTransport.Proofs.Receiver.Turn
import EnsembleTransport.Proofs.Receiver.Watch

/-!
# The books of a receiver

The counters of a receiver are the books of its whole life: they go on from run to run, whatever
ended the runs. They are kept against two lists that are not the receiver's own, the entries taken
from the source and the calls made to the sink.
-/

namespace EnsembleTransport

def messagesOf (script : List Arrival) : List Octets := script.filterMap Except.toOption

def Processor.accepted (options : DiagnosticOptions) (messages : List Octets) : List Verdict :=
  messages.filterMap fun message => (verdict options message).toOption

def Fate.offered (options : DiagnosticOptions) (policy : ErrorPolicy) (messages : List Octets) :
    List SplitMessage := messages.filterMap (parts? options policy)

section Snoc

variable (taken : List Arrival) (options : DiagnosticOptions) (policy : ErrorPolicy)
  (message : Octets) (fault : LinkFault)

theorem messagesOf_snoc_ok :
    messagesOf (taken ++ [.ok message]) = messagesOf taken ++ [message] := by
  simp [messagesOf, Except.toOption]

theorem messagesOf_snoc_error : messagesOf (taken ++ [.error fault]) = messagesOf taken := by
  simp [messagesOf, Except.toOption]

theorem Processor.accepted_snoc (messages : List Octets) :
    accepted options (messages ++ [message]) =
      accepted options messages ++ (verdict options message).toOption.toList := by
  cases hverdict : (verdict options message).toOption <;> simp [accepted, hverdict]

theorem Fate.offered_snoc (messages : List Octets) :
    offered options policy (messages ++ [message]) =
      offered options policy messages ++ (parts? options policy message).toList := by
  cases hparts : parts? options policy message <;> simp [offered, hparts]

end Snoc

/-- The counts of messages of a policy against what was taken, written and stopped at. -/
structure Counters.Balance (counters : Counters) (policy : ErrorPolicy)
    (received written interruptions ended : Nat) : Prop where
  balance : counters.messagesReceived =
    counters.messagesWritten + counters.messagesDropped + ended
  messagesReceived_eq : counters.messagesReceived = received
  messagesWritten_eq : counters.messagesWritten = written
  framesWritten_eq : counters.framesWritten = 4 * counters.messagesWritten
  messagesDropped_eq : policy = .abort → counters.messagesDropped = 0
  interruptions_eq : counters.interruptions = interruptions

namespace Ledger

variable {κ ι : Type} [FrameSink κ]

/-- The accounts of a ledger against the entries taken from the source, the calls made to the sink
and the number of runs that ended at a message. -/
structure Books (l : Ledger ι) (options : DiagnosticOptions) (policy : ErrorPolicy)
    (taken : List Arrival) (calls : List (SinkCall κ)) (ended : Nat) : Prop where
  balance : l.counters.Balance policy (messagesOf taken).length (calls.countP SinkCall.appended)
    (taken.countP isInterruption) ended
  source_eq : l.source.messagesReceived = l.counters.messagesReceived
  syncErrors_eq : l.counters.syncErrors =
    ((Processor.accepted options (messagesOf taken)).map Verdict.syncErrors).sum
  diagnosticErrors_eq : l.counters.diagnosticErrors =
    ((Processor.accepted options (messagesOf taken)).map (·.faults.length)).sum
  batches_eq : calls.filterMap SinkCall.batch? =
    (Fate.offered options policy (messagesOf taken)).map (FrameSet.batch ·.payloads)
  payloadBytes_eq : l.payloadBytes =
    ((Fate.offered options policy (messagesOf taken)).map (·.envelope.payloadLength)).sum

section Message

variable {first : κ} {l after : Ledger (Watched first)} {message : Octets}
  {answer : Except RunFailure Unit}

theorem balance_of_accepts {received written interruptions ended : Nat}
    (h : l.counters.Balance l.policy received
      (written + l.sink.calls.countP SinkCall.appended) interruptions ended)
    (hturn : Accepts l message answer after) :
    after.counters.Balance l.policy (received + 1)
      (written + after.sink.calls.countP SinkCall.appended) interruptions
      (ended + if answer.isOk then 0 else 1) := by
  obtain ⟨hbalance, hreceived, hwritten, hframes, hdropped, hinterruptions⟩ := h
  have hstopped : l.counters.messagesReceived + 1 =
    l.counters.messagesWritten + l.counters.messagesDropped + (ended + 1) := congrArg (· + 1) hbalance
  have hcounted : l.counters.messagesReceived + 1 = received + 1 := congrArg (· + 1) hreceived
  cases hturn with
  | dropped hskip =>
    refine ⟨?_, hcounted, hwritten, hframes, fun habort => ?_, hinterruptions⟩
    · simp only [dropped, counted, Except.isOk, Except.toBool, if_true]
      omega
    · cases hskip.symm.trans habort
  | rejected => exact ⟨hstopped, hcounted, hwritten, hframes, hdropped, hinterruptions⟩
  | objected => exact ⟨hstopped, hcounted, hwritten, hframes, hdropped, hinterruptions⟩
  | written _ _ _ happend =>
    obtain ⟨call, hcalls, -, happended⟩ := Watched.calls_of_taken happend
    refine ⟨?_, hcounted, ?_, congrArg (· + 4) hframes, hdropped, hinterruptions⟩
    · simp only [credited, offered, note, counted, Except.isOk, Except.toBool, if_true]
      omega
    · simp only [credited, offered, note, counted, hcalls, List.countP_append,
        List.countP_singleton, happended, if_true]
      omega
  | refused _ _ _ happend =>
    obtain ⟨call, hcalls, -, happended, -⟩ := Watched.calls_of_refused happend
    refine ⟨hstopped, hcounted, ?_, hframes, hdropped, hinterruptions⟩
    simp only [offered, note, counted, hcalls, List.countP_append, List.countP_singleton,
      happended]
    exact hwritten

/-- The findings in a message are counted if it can be taken apart, whatever becomes of it. -/
theorem findings_of_accepts (hturn : Accepts l message answer after) :
    let found := (Processor.verdict l.options message).toOption.toList
    after.counters.syncErrors = l.counters.syncErrors + (found.map Verdict.syncErrors).sum ∧
      after.counters.diagnosticErrors =
        l.counters.diagnosticErrors + (found.map (·.faults.length)).sum := by
  cases hturn <;> simp_all [Except.toOption, dropped, counted, note, offered, credited]

theorem offer_of_accepts (hturn : Accepts l message answer after) :
    let parts := (Fate.parts? l.options l.policy message).toList
    after.sink.calls.filterMap SinkCall.batch? =
        l.sink.calls.filterMap SinkCall.batch? ++ parts.map (FrameSet.batch ·.payloads) ∧
      after.payloadBytes = l.payloadBytes + (parts.map (·.envelope.payloadLength)).sum := by
  cases hturn with
  | dropped _ _ hfate => simp [Fate.parts?, hfate, dropped, counted]
  | rejected _ hfate => simp [Fate.parts?, hfate, counted]
  | objected _ hfate => simp [Fate.parts?, hfate, counted, note]
  | written _ hsplit hfate happend =>
    obtain ⟨call, hcalls, hbatch, -⟩ := Watched.calls_of_taken happend
    simp [Fate.parts?_of_write hsplit hfate, credited, offered, note, counted, hcalls, hbatch]
  | refused _ hsplit hfate happend =>
    obtain ⟨call, hcalls, hbatch, -⟩ := Watched.calls_of_refused happend
    simp [Fate.parts?_of_write hsplit hfate, offered, note, counted, hcalls, hbatch]

/-- A message that ends the run was objected to, or its frames were the last that the sink was offered
and were refused. -/
theorem atMessage_of_accepts {failure : RunFailure}
    (hturn : Accepts l message (.error failure) after) :
    failure.atMessage after.sink.calls = true := by
  cases hturn with
  | rejected => rfl
  | objected => rfl
  | refused _ _ _ happend =>
    obtain ⟨call, hcalls, -, -, hrefusal⟩ := Watched.calls_of_refused happend
    simp only [RunFailure.atMessage, offered, hcalls, List.getLast?_append, List.getLast?_singleton,
      Option.some_or, Option.any_some, hrefusal, decide_true]

end Message

section Run

variable {first : κ} {options : DiagnosticOptions} {policy : ErrorPolicy} {taken : List Arrival}
  {earlier : List (SinkCall κ)} {ended : Nat}

theorem Books.message {l after : Ledger (Watched first)} {message : Octets}
    {pending : List Arrival} {answer : Except RunFailure Unit}
    (hl : l.Over options policy (.ok message :: pending))
    (h : l.Books options policy taken (earlier ++ l.sink.calls) ended)
    (hturn : Accepts (l.handed pending message) message answer after) :
    after.Books options policy (taken ++ [.ok message]) (earlier ++ after.sink.calls)
      (ended + if answer.isOk then 0 else 1) := by
  obtain ⟨rfl, rfl, -, -⟩ := hl
  obtain ⟨hbalance, hsource, hsync, hdiagnostic, hbatches, hpayload⟩ := h
  have hmessages :
      (messagesOf (taken ++ [.ok message])).length = (messagesOf taken).length + 1 := by
    rw [messagesOf_snoc_ok, List.length_append, List.length_singleton]
  have hinterruptions : List.countP isInterruption (taken ++ [.ok message]) =
      taken.countP isInterruption := by
    rw [List.countP_append, List.countP_singleton]
    rfl
  obtain ⟨hsyncAfter, hdiagnosticAfter⟩ := findings_of_accepts hturn
  obtain ⟨hbatchesAfter, hpayloadAfter⟩ := offer_of_accepts hturn
  rw [List.countP_append] at hbalance
  have hafter := balance_of_accepts (l := l.handed pending message) hbalance hturn
  exact {
    balance := by
      rw [hmessages, hinterruptions, List.countP_append]
      exact hafter
    source_eq := by
      rw [hafter.messagesReceived_eq, ← hbalance.messagesReceived_eq, ← hsource]
      cases hturn <;> rfl
    syncErrors_eq := by
      rw [hsyncAfter, messagesOf_snoc_ok, Processor.accepted_snoc, List.map_append,
        List.sum_append, ← hsync]
      rfl
    diagnosticErrors_eq := by
      rw [hdiagnosticAfter, messagesOf_snoc_ok, Processor.accepted_snoc, List.map_append,
        List.sum_append, ← hdiagnostic]
      rfl
    batches_eq := by
      rw [messagesOf_snoc_ok, Fate.offered_snoc, List.map_append, ← hbatches, List.filterMap_append,
        List.filterMap_append, hbatchesAfter, List.append_assoc]
      rfl
    payloadBytes_eq := by
      rw [hpayloadAfter, messagesOf_snoc_ok, Fate.offered_snoc, List.map_append, List.sum_append,
        ← hpayload]
      rfl }

theorem Books.fault {l after : Ledger ι} {calls : List (SinkCall κ)} {fault : LinkFault}
    (h : l.Books options policy taken calls ended)
    (hcounters : after.counters = { l.counters with
      interruptions := l.counters.interruptions + if fault.isRetryable then 1 else 0 })
    (hsource : after.source.messagesReceived = l.source.messagesReceived)
    (hpayload : after.payloadBytes = l.payloadBytes) :
    after.Books options policy (taken ++ [.error fault]) calls ended where
  balance := by
    have hinterruptions : List.countP isInterruption (taken ++ [.error fault]) =
        taken.countP isInterruption + if fault.isRetryable then 1 else 0 := by
      rw [List.countP_append, List.countP_singleton, isInterruption_error]
    rw [messagesOf_snoc_error, hinterruptions, hcounters]
    exact { h.balance with interruptions_eq := congrArg (· + _) h.balance.interruptions_eq }
  source_eq := by rw [hsource, hcounters, h.source_eq]
  syncErrors_eq := by rw [messagesOf_snoc_error, hcounters, h.syncErrors_eq]
  diagnosticErrors_eq := by rw [messagesOf_snoc_error, hcounters, h.diagnosticErrors_eq]
  batches_eq := by rw [messagesOf_snoc_error, h.batches_eq]
  payloadBytes_eq := by rw [messagesOf_snoc_error, hpayload, h.payloadBytes_eq]

/-- As long as no append is refused, a fault of the source ends no run at a message. -/
theorem endsAtMessage_of_appended {α : Type} {calls : List (SinkCall κ)}
    (h : ∀ call ∈ calls, call.appended = true) (fault : LinkFault) :
    endsAtMessage (.error (.link fault) : Except RunFailure α) calls = false := by
  rw [endsAtMessage, RunFailure.atMessage]
  cases hlast : calls.getLast? with
  | none => rfl
  | some call =>
    have hnone := SinkCall.refusal?_of_appended (h call (List.mem_of_getLast? hlast))
    rw [Option.any_some, hnone]
    rfl

theorem Books.turn {l after : Ledger (Watched first)} {arrival : Arrival} {pending : List Arrival}
    {answer : Except RunFailure (Option StopReason)}
    (hl : l.Over options policy (arrival :: pending))
    (hcalls : ∀ call ∈ l.sink.calls, call.appended = true)
    (h : l.Books options policy taken (earlier ++ l.sink.calls) ended)
    (hturn : Takes l pending arrival answer after) :
    after.Books options policy (taken ++ [arrival]) (earlier ++ after.sink.calls)
      (ended + if endsAtMessage answer after.sink.calls then 1 else 0) := by
  cases hturn with
  | interrupted => exact h.fault rfl rfl rfl
  | closed => exact h.fault rfl rfl rfl
  | @failed fault hretry =>
    have hend : endsAtMessage (.error (.link fault) : Except RunFailure (Option StopReason))
        l.sink.calls = false := endsAtMessage_of_appended hcalls fault
    simp only [advanced, hend]
    exact h.fault (by rw [hretry]; rfl) rfl rfl
  | @accepted message answer after hmessage =>
    have hbooks := h.message hl hmessage
    cases answer with
    | ok => exact hbooks
    | error failure =>
      have hend : endsAtMessage (.error failure : Except RunFailure (Option StopReason))
          after.sink.calls = true := atMessage_of_accepts hmessage
      simp only [Except.map, hend, if_true]
      exact hbooks

theorem books_mapSink {υ : Type} {f : ι → υ} {l : Ledger ι} {calls : List (SinkCall κ)} :
    (l.mapSink f).Books options policy taken calls ended ↔
      l.Books options policy taken calls ended := by
  constructor <;> rintro ⟨hbalance, hsource, hsync, hdiagnostic, hbatches, hpayload⟩ <;>
    exact ⟨hbalance, hsource, hsync, hdiagnostic, hbatches, hpayload⟩

theorem Books.call {l : Ledger ι} {calls : List (SinkCall κ)} {call : SinkCall κ}
    (h : l.Books options policy taken calls ended) (hcall : call.batch? = none) :
    l.Books options policy taken (calls ++ [call]) ended where
  balance := by
    rw [List.countP_append, List.countP_singleton, SinkCall.appended_of_batch?_none hcall]
    exact h.balance
  source_eq := h.source_eq
  syncErrors_eq := h.syncErrors_eq
  diagnosticErrors_eq := h.diagnosticErrors_eq
  batches_eq := by simpa [hcall] using h.batches_eq
  payloadBytes_eq := h.payloadBytes_eq

theorem Books.finish {l : Ledger (Watched first)}
    (h : l.Books options policy taken (earlier ++ l.sink.calls) ended) (stopReason : StopReason) :
    (l.finish stopReason).2.Books options policy taken
      (earlier ++ (l.finish stopReason).2.sink.calls) ended := by
  obtain ⟨call, hcalls, hbatch⟩ := Watched.calls_flush l.sink
  simp only [snd_finish, hcalls, ← List.append_assoc]
  exact (books_mapSink (f := fun _ => (FrameSink.flush l.sink).2)).mpr (h.call hbatch)

/-- A run that is told to stop does not end at a message, even if the sink refuses to be flushed. -/
theorem endsAtMessage_finish (l : Ledger (Watched first)) (stopReason : StopReason) :
    endsAtMessage (l.finish stopReason).1 (l.finish stopReason).2.sink.calls = false := by
  obtain ⟨call, hcalls, hbatch⟩ := Watched.calls_flush l.sink
  have hlast : (FrameSink.flush l.sink).2.calls.getLast? = some call := by
    rw [hcalls, List.getLast?_concat]
  rw [finish]
  rcases hflush : FrameSink.flush l.sink with ⟨fault | _, sink⟩
  · rw [hflush] at hlast
    rw [endsAtMessage, RunFailure.atMessage, hlast, Option.any_some,
      SinkCall.refusal?_of_batch?_none hbatch]
    rfl
  · rfl

/-- A ledger on its way through a script, with these entries left and books over the others. -/
structure Along (l : Ledger ι) (options : DiagnosticOptions) (policy : ErrorPolicy)
    (script : List Arrival) (calls : List (SinkCall κ)) (ended : Nat)
    (pending : List Arrival) : Prop where
  isOver : l.Over options policy pending
  books : ∃ taken, script = taken ++ pending ∧ l.Books options policy taken calls ended

variable {script : List Arrival}

theorem along_mapSink {υ : Type} {f : ι → υ} {l : Ledger ι} {calls : List (SinkCall κ)}
    {pending : List Arrival} :
    (l.mapSink f).Along options policy script calls ended pending ↔
      l.Along options policy script calls ended pending := by
  constructor
  · rintro ⟨⟨hoptions, hpolicy, hsubscription, hpending⟩, taken, hscript, hbooks⟩
    exact ⟨⟨hoptions, hpolicy, hsubscription, hpending⟩, taken, hscript, books_mapSink.mp hbooks⟩
  · rintro ⟨⟨hoptions, hpolicy, hsubscription, hpending⟩, taken, hscript, hbooks⟩
    exact ⟨⟨hoptions, hpolicy, hsubscription, hpending⟩, taken, hscript, books_mapSink.mpr hbooks⟩

theorem Along.turn {l after : Ledger (Watched first)} {arrival : Arrival} {pending : List Arrival}
    {answer : Except RunFailure (Option StopReason)}
    (h : l.Along options policy script (earlier ++ l.sink.calls) ended (arrival :: pending))
    (hcalls : ∀ call ∈ l.sink.calls, call.appended = true)
    (hturn : Takes l pending arrival answer after) :
    after.Along options policy script (earlier ++ after.sink.calls)
      (ended + if endsAtMessage answer after.sink.calls then 1 else 0) pending := by
  obtain ⟨hover, taken, rfl, hbooks⟩ := h
  exact ⟨hturn.over hover, taken ++ [arrival], by simp, hbooks.turn hover hcalls hturn⟩

theorem Along.finish {l : Ledger (Watched first)} {pending : List Arrival}
    (h : l.Along options policy script (earlier ++ l.sink.calls) ended pending)
    (stopReason : StopReason) :
    let ending := l.finish stopReason
    ending.2.Along options policy script (earlier ++ ending.2.sink.calls)
      (ended + if endsAtMessage ending.1 ending.2.sink.calls then 1 else 0)
      ending.2.source.pending := by
  obtain ⟨hover, taken, rfl, hbooks⟩ := h
  have hsource : (l.finish stopReason).2.source.pending = pending := by
    rw [snd_finish]
    exact hover.pending_eq
  intro ending
  rw [endsAtMessage_finish, hsource]
  refine ⟨?_, taken, rfl, hbooks.finish stopReason⟩
  rw [snd_finish]
  exact ⟨hover.options_eq, hover.policy_eq, hover.subscription_eq, hover.pending_eq⟩

theorem Along.drain {l : Ledger (Watched first)} {pending : List Arrival}
    (h : l.Along options policy script (earlier ++ l.sink.calls) ended pending)
    (hcalls : ∀ call ∈ l.sink.calls, call.appended = true) (shutdownAfter : Option Nat) :
    let ending := l.drain shutdownAfter pending
    ending.2.Along options policy script (earlier ++ ending.2.sink.calls)
      (ended + if endsAtMessage ending.1 ending.2.sink.calls then 1 else 0)
      ending.2.source.pending := by
  refine drain_rule
    (fun (l : Ledger (Watched first)) pending =>
      l.Along options policy script (earlier ++ l.sink.calls) ended pending ∧
        ∀ call ∈ l.sink.calls, call.appended = true)
    (fun answer (after : Ledger (Watched first)) =>
      after.Along options policy script (earlier ++ after.sink.calls)
        (ended + if endsAtMessage answer after.sink.calls then 1 else 0) after.source.pending)
    (fun h => h.1.isOver) ?_ ?_ ?_ ?_ ⟨h, hcalls⟩
  · rintro l arrival pending after ⟨h, hcalls⟩ hturn
    exact ⟨h.turn hcalls hturn, appended_of_takes hcalls hturn rfl⟩
  · rintro l arrival pending failure after ⟨h, hcalls⟩ hturn
    have hafter := h.turn hcalls hturn
    rwa [hafter.isOver.pending_eq]
  · rintro l arrival pending stopReason after ⟨h, hcalls⟩ hturn
    exact (h.turn hcalls hturn).finish stopReason
  · rintro l pending stopReason ⟨h, -⟩ -
    exact h.finish stopReason

end Run

end Ledger

namespace Receiver

variable {κ : Type} [FrameSink κ] {options : DiagnosticOptions} {policy : ErrorPolicy}
  {script : List Arrival} {calls : List (SinkCall κ)} {ended : Nat} {r : Receiver κ}

/-- A run goes on with the script and the books where the runs before it left them. -/
theorem along_runUntil
    (h : r.ledger.Along options policy script calls ended r.source.pending) (order : RunOrder) :
    let after := (r.runUntil order.clock order.shutdownAfter).2
    after.ledger.Along options policy script (calls ++ (r.record order).sinkCalls)
      (ended + if (r.record order).endedAtMessage then 1 else 0) after.source.pending := by
  have hstart : r.watched.ledger.Along options policy script (calls ++ r.watched.ledger.sink.calls)
      ended r.source.pending := by
    rw [show r.watched.ledger.sink.calls = [] from rfl, List.append_nil]
    exact (Ledger.along_mapSink (f := Watched.sink) (l := r.watched.ledger)).mp h
  have hdrain := hstart.drain (by intro call hcall; cases hcall) order.shutdownAfter
  obtain ⟨hanswer, hledger⟩ := Prod.mk.inj (r.view_watched order.clock order.shutdownAfter)
  have hpending := congrArg (·.source.pending) hledger
  change (r.runUntil order.clock order.shutdownAfter).2.source.pending = _ at hpending
  simp only [RunRecord.endedAtMessage, record, r.sinkCalls_eq, hanswer, hledger, hpending]
  exact Ledger.along_mapSink.mpr hdrain

theorem along_runAll
    (h : r.ledger.Along options policy script calls ended r.source.pending)
    (orders : List RunOrder) :
    let records := (r.runAll orders).1
    let last := (r.runAll orders).2
    last.ledger.Along options policy script (calls ++ records.flatMap RunRecord.sinkCalls)
      (ended + records.countP RunRecord.endedAtMessage) last.source.pending := by
  induction orders generalizing r calls ended with
  | nil =>
    simpa only [runAll, List.flatMap_nil, List.append_nil, List.countP_nil, Nat.add_zero] using h
  | cons order orders ih =>
    have hlater := ih (along_runUntil h order)
    simp only [runAll, List.flatMap_cons, List.countP_cons, ← List.append_assoc]
    rw [Nat.add_comm (List.countP _ _), ← Nat.add_assoc]
    exact hlater

end Receiver

end EnsembleTransport
