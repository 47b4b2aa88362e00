import EnsembleTransport.Proofs.Receiver.Ledger

/-!
# Runs over a script

A script is all that a source is ever going to hand out. The reference walk tells from a script
how a run over it ends, which batches it writes and which entries it leaves in the source. Under a
strict policy a rejected message or a diagnostic fault ends the run before anything of the message
is written; under a lenient one a rejected message is left out.
-/

namespace EnsembleTransport

inductive Fate where
  /-- The run ends, and nothing of the message is written. -/
  | stop (fault : MessageFault)
  | drop
  | write (payloads : List Octets)
deriving DecidableEq, Repr

/-- The frames of some payloads, one behind the other. -/
def FrameSet.batch (payloads : List Octets) : Octets := (payloads.map pad).flatten

namespace Fate

def ofMessage (options : DiagnosticOptions) (policy : ErrorPolicy) (message : Octets) : Fate :=
  match SplitMessage.ofMessage message, Processor.faults options message, policy with
  | .error _, _, .skip => drop
  | .error fault, _, .abort => stop fault
  | .ok _, fault :: _, .abort => stop fault
  | .ok parts, _, _ => write parts.payloads

theorem parts_of_write {options : DiagnosticOptions} {policy : ErrorPolicy} {message : Octets}
    {payloads : List Octets} (h : ofMessage options policy message = write payloads) :
    ∃ parts, SplitMessage.ofMessage message = .ok parts ∧ parts.payloads = payloads := by
  unfold ofMessage at h
  split at h
  · cases h
  · cases h
  · cases h
  · rename_i parts hsplit _
    exact ⟨parts, hsplit, write.inj h⟩

theorem length_batch {options : DiagnosticOptions} {policy : ErrorPolicy} {message : Octets}
    {payloads : List Octets} (h : ofMessage options policy message = write payloads) :
    (FrameSet.batch payloads).length = 24576 := by
  obtain ⟨parts, hsplit, rfl⟩ := parts_of_write h
  obtain ⟨found, _, hholds⟩ := Processor.verdict_of_parts options hsplit
  rw [FrameSet.batch, ← hholds.bytes_eq]
  exact found.frames.length_bytes

/-- What a fate does to a sink after so many messages. -/
def carryOut {κ : Type} [FrameSink κ] (received : Nat) (sink : κ) :
    Fate → Except RunFailure Unit × κ
  | stop fault => (.error (.message (received + 1) fault), sink)
  | drop => (.ok (), sink)
  | write payloads =>
    let (result, sink) := FrameSink.append sink (FrameSet.batch payloads)
    (result.mapError .link, sink)

end Fate

structure Outcome where
  ending : Except RunFailure StopReason
  batches : List Octets
  /-- The entries that are left in the source. -/
  pending : List Arrival

namespace Outcome

/-- A memory sink after a run with this outcome. A run that ends in order flushes it once. -/
def leave (outcome : Outcome) (sink : MemorySink) : MemorySink where
  data := sink.data ++ outcome.batches.flatten
  appends := sink.appends + outcome.batches.length
  flushes := sink.flushes + if outcome.ending.isOk then 1 else 0

theorem leave_of_error {outcome : Outcome} {failure : RunFailure} (sink : MemorySink)
    (hending : outcome.ending = .error failure) (hbatches : outcome.batches = []) :
    outcome.leave sink = sink := by
  simp [leave, hending, hbatches, Except.isOk, Except.toBool]

theorem leave_of_ok {outcome : Outcome} {stopReason : StopReason} (sink : MemorySink)
    (hending : outcome.ending = .ok stopReason) (hbatches : outcome.batches = []) :
    outcome.leave sink = sink.flush := by
  simp [leave, hending, hbatches, Except.isOk, Except.toBool, MemorySink.flush]

theorem leave_append (outcome : Outcome) (batch : Octets) (sink : MemorySink) :
    outcome.leave (sink.append batch) =
      { outcome with batches := batch :: outcome.batches }.leave sink := by
  simp only [leave, MemorySink.append, List.flatten_cons, List.append_assoc, List.length_cons]
  rw [Nat.add_assoc, Nat.add_comm 1]

/-- The reference walk over a script after so many messages. -/
def walk (fate : Octets → Fate) : (received : Nat) → (script : List Arrival) → Outcome
  | _, [] => ⟨.ok .sourceClosed, [], []⟩
  | received, .error .interrupted :: script => walk fate received script
  | _, .error .closed :: script => ⟨.ok .sourceClosed, [], script⟩
  | _, .error fault :: script => ⟨.error (.link fault), [], script⟩
  | received, .ok message :: script =>
    match fate message with
    | .stop fault => ⟨.error (.message (received + 1) fault), [], script⟩
    | .drop => walk fate (received + 1) script
    | .write payloads =>
      let rest := walk fate (received + 1) script
      { rest with batches := FrameSet.batch payloads :: rest.batches }

end Outcome

namespace Ledger

variable {κ : Type}

structure Follows (after before : Ledger κ) : Prop where
  source : after.source = before.source
  options : after.options = before.options
  policy : after.policy = before.policy
  messagesReceived : after.counters.messagesReceived = before.counters.messagesReceived + 1

theorem counted_follows (l : Ledger κ) : l.counted.Follows l := ⟨rfl, rfl, rfl, rfl⟩

namespace Follows

variable {l before : Ledger κ}

theorem note (h : l.Follows before) (found : Verdict) : (l.note found).Follows before :=
  ⟨h.source, h.options, h.policy, h.messagesReceived⟩

theorem reject (h : l.Follows before) (fault : MessageFault) :
    (l.reject fault).2.Follows before := by
  unfold Ledger.reject
  split
  · exact ⟨h.source, h.options, h.policy, h.messagesReceived⟩
  · exact h

variable [FrameSink κ]

theorem write (h : l.Follows before) (frames : FrameSet) : (l.write frames).2.Follows before := by
  unfold Ledger.write
  rcases FrameSink.append l.sink frames.bytes with ⟨fault | _, sink⟩ <;>
    exact ⟨h.source, h.options, h.policy, h.messagesReceived⟩

theorem pursue (h : l.Follows before) (found : Verdict) : (l.pursue found).2.Follows before := by
  rcases hfaults : found.faults with _ | ⟨fault, faults⟩
  · rw [pursue_of_pass (.inr hfaults)]
    exact (h.note found).write found.frames
  · cases hpolicy : l.policy with
    | skip =>
      rw [pursue_of_pass (.inl hpolicy)]
      exact (h.note found).write found.frames
    | abort =>
      rw [pursue_of_fault hpolicy hfaults]
      exact h.note found

end Follows

variable [FrameSink κ]

theorem accept_follows (l : Ledger κ) (message : Octets) : (l.accept message).2.Follows l := by
  unfold accept
  cases Processor.verdict l.options message with
  | error fault => exact l.counted_follows.reject fault
  | ok found => exact l.counted_follows.pursue found

theorem write_of_holds (l : Ledger κ) {frames : FrameSet} {payloads : List Octets}
    (h : frames.Holds payloads) : ((l.write frames).1, (l.write frames).2.sink) =
      (Fate.write payloads).carryOut l.counters.messagesReceived l.sink := by
  rw [write, Fate.carryOut, FrameSet.batch, h.bytes_eq]
  rcases FrameSink.append l.sink (payloads.map FrameSet.pad).flatten with ⟨fault | _, sink⟩ <;> rfl

/-- A message answers and reaches the sink as its fate says. -/
theorem accept_fate (l : Ledger κ) (message : Octets) :
    ((l.accept message).1, (l.accept message).2.sink) =
      (Fate.ofMessage l.options l.policy message).carryOut l.counters.messagesReceived l.sink := by
  unfold accept
  cases hsplit : SplitMessage.ofMessage message with
  | error fault =>
    rw [Processor.verdict_of_fault _ hsplit, settle, reject]
    cases hpolicy : l.policy with
    | skip => simp only [Fate.ofMessage, hsplit, counted, hpolicy, Fate.carryOut]
    | abort => simp only [Fate.ofMessage, hsplit, counted, hpolicy, Fate.carryOut]
  | ok parts =>
    obtain ⟨found, hfound, hholds⟩ := Processor.verdict_of_parts l.options hsplit
    rw [hfound, settle]
    rcases hfaults : found.faults with _ | ⟨fault, faults⟩
    · rw [pursue_of_pass (.inr hfaults), write_of_holds _ hholds]
      simp only [Fate.ofMessage, Processor.faults, hsplit, hfound, hfaults]
      rfl
    · cases hpolicy : l.policy with
      | skip =>
        rw [pursue_of_pass (l := l.counted) (.inl hpolicy), write_of_holds _ hholds]
        simp only [Fate.ofMessage, Processor.faults, hsplit, hfound, hfaults]
        rfl
      | abort =>
        rw [pursue_of_fault (l := l.counted) hpolicy hfaults]
        simp only [Fate.ofMessage, Processor.faults, hsplit, hfound, hfaults]
        rfl

theorem accept_spec (l : Ledger κ) (message : Octets) : ∃ answer after,
    l.accept message = (answer, after) ∧ after.Follows l ∧ (answer, after.sink) =
      (Fate.ofMessage l.options l.policy message).carryOut l.counters.messagesReceived l.sink :=
  ⟨_, _, rfl, l.accept_follows message, l.accept_fate message⟩

def interrupted (l : Ledger κ) (pending : List Arrival) : Ledger κ :=
  { l with
    source := { l.source with pending }
    counters.interruptions := l.counters.interruptions + 1 }

def handed (l : Ledger κ) (pending : List Arrival) (message : Octets) : Ledger κ :=
  { l with source := l.source.count pending message }

theorem take_message (l : Ledger κ) (h : l.source.subscription = none) (message : Octets)
    (pending : List Arrival) :
    l.take (.ok message) pending =
      (((l.handed pending message).accept message).1.map fun _ => none,
        ((l.handed pending message).accept message).2) := by
  have hdeliver : l.source.deliver (.ok message) pending =
      (⟨.ok message, []⟩, l.source.count pending message) := by
    simp only [MessageSource.deliver, MessageSource.handOut, h]
  rw [take, hdeliver]
  rfl

theorem drain_message (l : Ledger κ) (h : l.source.subscription = none) (message : Octets)
    (pending : List Arrival) :
    l.drain none (.ok message :: pending) =
      match (l.handed pending message).accept message with
      | (.error failure, l) => (.error failure, l)
      | (.ok (), l) => l.drain none pending := by
  rw [drain_cons l (by simp), take_message l h]
  rcases (l.handed pending message).accept message with ⟨failure | _, after⟩ <;> rfl

/-- A run that went as an outcome says. -/
structure Realises (ended : Except RunFailure RunSummary × Ledger MemorySink) (sink : MemorySink)
    (outcome : Outcome) : Prop where
  ending : ended.1.map RunSummary.stopReason = outcome.ending
  sink : ended.2.sink = outcome.leave sink
  pending : ended.2.source.pending = outcome.pending

theorem Realises.data {ended : Except RunFailure RunSummary × Ledger MemorySink}
    {outcome : Outcome} (h : Realises ended {} outcome) :
    ended.2.sink.data = outcome.batches.flatten := by
  rw [h.sink]
  exact List.nil_append _

theorem drain_realises (l : Ledger MemorySink) {script : List Arrival}
    (hsource : l.source.subscription = none) (hpending : l.source.pending = script) :
    Realises (l.drain none script) l.sink
      (.walk (Fate.ofMessage l.options l.policy) l.counters.messagesReceived script) := by
  induction script generalizing l with
  | nil => exact ⟨rfl, (Outcome.leave_of_ok l.sink rfl rfl).symm, hpending⟩
  | cons arrival script ih =>
    cases arrival with
    | error fault =>
      cases fault with
      | interrupted => exact ih (l.interrupted script) hsource rfl
      | closed => exact ⟨rfl, (Outcome.leave_of_ok l.sink rfl rfl).symm, rfl⟩
      | _ => exact ⟨rfl, (Outcome.leave_of_error l.sink rfl rfl).symm, rfl⟩
    | ok message =>
      obtain ⟨answer, after, haccept, hfollows, hfate⟩ :=
        (l.handed script message).accept_spec message
      have hwalk := ih after (by rw [hfollows.source]; exact hsource)
        (by rw [hfollows.source]; rfl)
      rw [hfollows.options, hfollows.policy, hfollows.messagesReceived] at hwalk
      rw [drain_message l hsource, haccept, Outcome.walk]
      change (answer, after.sink) = (Fate.ofMessage l.options l.policy message).carryOut _ l.sink
        at hfate
      cases hofMessage : Fate.ofMessage l.options l.policy message with
      | stop fault =>
        rw [hofMessage] at hfate
        obtain ⟨rfl, hsink⟩ := Prod.mk.inj hfate
        exact ⟨rfl, hsink.trans (Outcome.leave_of_error l.sink rfl rfl).symm,
          congrArg MessageSource.pending hfollows.source⟩
      | drop =>
        rw [hofMessage] at hfate
        obtain ⟨rfl, hsink⟩ := Prod.mk.inj hfate
        rw [hsink] at hwalk
        exact hwalk
      | write payloads =>
        rw [hofMessage] at hfate
        obtain ⟨rfl, hsink⟩ := Prod.mk.inj hfate
        rw [hsink] at hwalk
        exact ⟨hwalk.ending, hwalk.sink.trans (Outcome.leave_append _ _ _), hwalk.pending⟩

end Ledger

namespace Receiver

variable (script : List Arrival) (options : DiagnosticOptions) (policy : ErrorPolicy)

theorem run_realises (clock : Clock) :
    Ledger.Realises (view ((fresh (.ofArrivals script) ({} : MemorySink) options policy).run clock))
      {} (.walk (Fate.ofMessage options policy) 0 script) := by
  rw [run, view_runUntil]
  exact Ledger.drain_realises _ rfl rfl

/-- A run of a fresh receiver over a script ends as the reference walk does. It hands the sink the
batches of the walk in order, each at once, flushes the sink if it ends in order, and leaves the
entries behind the last one it took in the source. -/
theorem run_follows_script (clock : Clock) :
    let outcome := Outcome.walk (Fate.ofMessage options policy) 0 script
    let ended := (fresh (.ofArrivals script) ({} : MemorySink) options policy).run clock
    ended.1.value.map RunSummary.stopReason = outcome.ending ∧
    ended.2.sink.data = outcome.batches.flatten ∧
    ended.2.sink.appends = outcome.batches.length ∧
    ended.2.sink.flushes = (if outcome.ending.isOk then 1 else 0) ∧
    ended.2.source.pending = outcome.pending := by
  intro outcome ended
  have h := run_realises script options policy clock
  have hsink : ended.2.sink = outcome.leave {} := h.sink
  rw [hsink]
  exact ⟨h.ending, List.nil_append _, Nat.zero_add _, Nat.zero_add _, h.pending⟩

end Receiver

end EnsembleTransport
