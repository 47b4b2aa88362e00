import EnsembleTransport.Proofs.Receiver.Script

/-!
# The turns of a run

Whatever the sink is, a message comes to one of five ends and an entry of a script to one of four.
Each end is told with all that it does to the ledger. What a run keeps is then a matter of its turns:
it is enough that every turn keeps it.
-/

namespace EnsembleTransport

def isInterruption : Arrival → Bool
  | .error .interrupted => true
  | _ => false

theorem isInterruption_error (fault : LinkFault) :
    isInterruption (.error fault) = fault.isRetryable := by cases fault <;> rfl

namespace Fate

def parts? (options : DiagnosticOptions) (policy : ErrorPolicy) (message : Octets) :
    Option SplitMessage :=
  match ofMessage options policy message with
  | write _ => (SplitMessage.ofMessage message).toOption
  | _ => none

theorem parts?_of_write {options : DiagnosticOptions} {policy : ErrorPolicy} {message : Octets}
    {parts : SplitMessage} (hsplit : SplitMessage.ofMessage message = .ok parts)
    (hfate : ofMessage options policy message = write parts.payloads) :
    parts? options policy message = some parts := by
  simp only [parts?, hfate, hsplit, Except.toOption]

end Fate

namespace Ledger

variable {κ : Type}

def dropped (l : Ledger κ) : Ledger κ :=
  { l with counters.messagesDropped := l.counters.messagesDropped + 1 }

def offered (l : Ledger κ) (sink : κ) (parts : SplitMessage) : Ledger κ :=
  { l with sink, payloadBytes := l.payloadBytes + parts.envelope.payloadLength }

def credited (l : Ledger κ) : Ledger κ :=
  { l with
    counters.framesWritten := l.counters.framesWritten + Layout.framesPerMessage
    counters.messagesWritten := l.counters.messagesWritten + 1 }

def advanced (l : Ledger κ) (pending : List Arrival) : Ledger κ :=
  { l with source := { l.source with pending } }

/-- A ledger with nothing but these entries left in its source, which hands out messages whole. -/
structure Over (l : Ledger κ) (options : DiagnosticOptions) (policy : ErrorPolicy)
    (pending : List Arrival) : Prop where
  options_eq : l.options = options
  policy_eq : l.policy = policy
  subscription_eq : l.source.subscription = none
  pending_eq : l.source.pending = pending

theorem reject_of_skip {l : Ledger κ} (h : l.policy = .skip) (fault : MessageFault) :
    l.reject fault = (.ok (), l.dropped) := by
  unfold reject
  split
  · rfl
  · rename_i hpolicy
    cases h.symm.trans hpolicy

theorem reject_of_abort {l : Ledger κ} (h : l.policy = .abort) (fault : MessageFault) :
    l.reject fault = (.error (.message l.counters.messagesReceived fault), l) := by
  unfold reject
  split
  · rename_i hpolicy
    cases h.symm.trans hpolicy
  · rfl

variable [FrameSink κ]

/-- A run that is told to stop flushes the sink and does nothing else. -/
theorem snd_finish (l : Ledger κ) (stopReason : StopReason) :
    (l.finish stopReason).2 = { l with sink := (FrameSink.flush l.sink).2 } := by
  rw [finish]
  rcases FrameSink.flush l.sink with ⟨fault | _, sink⟩ <;> rfl

/-- The ends that a message can come to. -/
inductive Accepts (l : Ledger κ) (message : Octets) : Except RunFailure Unit → Ledger κ → Prop
  | dropped {fault : MessageFault} (hpolicy : l.policy = .skip)
      (hverdict : Processor.verdict l.options message = .error fault)
      (hfate : Fate.ofMessage l.options l.policy message = .drop) :
      Accepts l message (.ok ()) l.counted.dropped
  | rejected {fault : MessageFault}
      (hverdict : Processor.verdict l.options message = .error fault)
      (hfate : Fate.ofMessage l.options l.policy message = .stop fault) :
      Accepts l message (.error (.message (l.counters.messagesReceived + 1) fault)) l.counted
  | objected {found : Verdict} {fault : MessageFault}
      (hverdict : Processor.verdict l.options message = .ok found)
      (hfate : Fate.ofMessage l.options l.policy message = .stop fault) :
      Accepts l message (.error (.message (l.counters.messagesReceived + 1) fault))
        (l.counted.note found)
  | written {found : Verdict} {parts : SplitMessage} {sink : κ}
      (hverdict : Processor.verdict l.options message = .ok found)
      (hsplit : SplitMessage.ofMessage message = .ok parts)
      (hfate : Fate.ofMessage l.options l.policy message = .write parts.payloads)
      (happend : FrameSink.append l.sink (FrameSet.batch parts.payloads) = (.ok (), sink)) :
      Accepts l message (.ok ()) ((l.counted.note found).offered sink parts).credited
  | refused {found : Verdict} {parts : SplitMessage} {fault : LinkFault} {sink : κ}
      (hverdict : Processor.verdict l.options message = .ok found)
      (hsplit : SplitMessage.ofMessage message = .ok parts)
      (hfate : Fate.ofMessage l.options l.policy message = .write parts.payloads)
      (happend : FrameSink.append l.sink (FrameSet.batch parts.payloads) = (.error fault, sink)) :
      Accepts l message (.error (.link fault)) ((l.counted.note found).offered sink parts)

theorem write_of_parts (l : Ledger κ) {frames : FrameSet} {parts : SplitMessage}
    {message : Octets} (hsplit : SplitMessage.ofMessage message = .ok parts)
    (hholds : frames.Holds parts.payloads) :
    l.write frames = match FrameSink.append l.sink (FrameSet.batch parts.payloads) with
      | (.error fault, sink) => (.error (.link fault), l.offered sink parts)
      | (.ok (), sink) => (.ok (), (l.offered sink parts).credited) := by
  have htotal : frames.totalPayload = parts.envelope.payloadLength := by
    rw [FrameSet.totalPayload, hholds.payloadLengths_eq,
      (SplitMessage.parts_of_ofMessage hsplit).map_length_payloads]
    rfl
  rw [write, FrameSet.batch, ← hholds.bytes_eq, htotal]
  rcases FrameSink.append l.sink frames.bytes with ⟨fault | _, sink⟩ <;> rfl

theorem accepts_pursue {l : Ledger κ} {message : Octets} {parts : SplitMessage} {found : Verdict}
    (hsplit : SplitMessage.ofMessage message = .ok parts)
    (hverdict : Processor.verdict l.options message = .ok found)
    (hholds : found.frames.Holds parts.payloads) (hpass : l.policy = .skip ∨ found.faults = [])
    (hfate : Fate.ofMessage l.options l.policy message = .write parts.payloads) :
    Accepts l message (l.counted.pursue found).1 (l.counted.pursue found).2 := by
  rw [pursue_of_pass (l := l.counted) hpass, write_of_parts _ hsplit hholds]
  rcases happend : FrameSink.append l.sink (FrameSet.batch parts.payloads) with
    ⟨fault | _, sink⟩
  · simp only [note, counted, happend]
    exact .refused hverdict hsplit hfate happend
  · simp only [note, counted, happend]
    exact .written hverdict hsplit hfate happend

theorem accepts_accept (l : Ledger κ) (message : Octets) :
    Accepts l message (l.accept message).1 (l.accept message).2 := by
  rw [accept]
  cases hsplit : SplitMessage.ofMessage message with
  | error fault =>
    have hverdict := Processor.verdict_of_fault l.options hsplit
    rw [hverdict, settle]
    cases hpolicy : l.policy with
    | skip =>
      rw [reject_of_skip (l := l.counted) hpolicy]
      exact .dropped hpolicy hverdict (by simp only [Fate.ofMessage, hsplit, hpolicy])
    | abort =>
      rw [reject_of_abort (l := l.counted) hpolicy]
      exact .rejected hverdict (by simp only [Fate.ofMessage, hsplit, hpolicy])
  | ok parts =>
    obtain ⟨found, hverdict, hholds⟩ := Processor.verdict_of_parts l.options hsplit
    rw [hverdict, settle]
    rcases hfaults : found.faults with _ | ⟨fault, faults⟩
    · refine accepts_pursue hsplit hverdict hholds (.inr hfaults) ?_
      simp only [Fate.ofMessage, Processor.faults, hsplit, hverdict, hfaults]
    · cases hpolicy : l.policy with
      | skip =>
        refine accepts_pursue hsplit hverdict hholds (.inl hpolicy) ?_
        simp only [Fate.ofMessage, Processor.faults, hsplit, hverdict, hfaults, hpolicy]
      | abort =>
        rw [pursue_of_fault (l := l.counted) hpolicy hfaults]
        refine .objected hverdict ?_
        simp only [Fate.ofMessage, Processor.faults, hsplit, hverdict, hfaults, hpolicy]

/-- The ends that an entry of a script can come to. -/
inductive Takes (l : Ledger κ) (pending : List Arrival) :
    Arrival → Except RunFailure (Option StopReason) → Ledger κ → Prop
  | interrupted : Takes l pending (.error .interrupted) (.ok none) (l.interrupted pending)
  | closed : Takes l pending (.error .closed) (.ok (some .sourceClosed)) (l.advanced pending)
  | failed {fault : LinkFault} (hretry : fault.isRetryable = false) :
      Takes l pending (.error fault) (.error (.link fault)) (l.advanced pending)
  | accepted {message : Octets} {answer : Except RunFailure Unit} {after : Ledger κ}
      (h : Accepts (l.handed pending message) message answer after) :
      Takes l pending (.ok message) (answer.map fun _ => none) after

theorem takes_take (l : Ledger κ) (hsource : l.source.subscription = none) (arrival : Arrival)
    (pending : List Arrival) :
    Takes l pending arrival (l.take arrival pending).1 (l.take arrival pending).2 := by
  cases arrival with
  | error fault =>
    cases fault with
    | interrupted => exact .interrupted
    | closed => exact .closed
    | _ => exact .failed rfl
  | ok message =>
    rw [take_message l hsource]
    exact .accepted ((l.handed pending message).accepts_accept message)

variable {options : DiagnosticOptions} {policy : ErrorPolicy}

/-- The sink is all that a turn may change besides the accounts. -/
theorem Accepts.over {l after : Ledger κ} {message : Octets} {answer : Except RunFailure Unit}
    {pending : List Arrival} (hl : l.Over options policy pending)
    (h : Accepts l message answer after) : after.Over options policy pending := by
  cases h <;> exact ⟨hl.options_eq, hl.policy_eq, hl.subscription_eq, hl.pending_eq⟩

theorem Takes.over {l after : Ledger κ} {arrival : Arrival} {pending : List Arrival}
    {answer : Except RunFailure (Option StopReason)}
    (hl : l.Over options policy (arrival :: pending)) (h : Takes l pending arrival answer after) :
    after.Over options policy pending := by
  cases h with
  | interrupted => exact ⟨hl.options_eq, hl.policy_eq, hl.subscription_eq, rfl⟩
  | closed => exact ⟨hl.options_eq, hl.policy_eq, hl.subscription_eq, rfl⟩
  | failed => exact ⟨hl.options_eq, hl.policy_eq, hl.subscription_eq, rfl⟩
  | @accepted message _ _ h =>
    have hhanded : (l.handed pending message).Over options policy pending :=
      ⟨hl.options_eq, hl.policy_eq, hl.subscription_eq, rfl⟩
    exact h.over hhanded

/-- What every turn keeps until the one that ends the run holds where the run is told to stop, and
what the last turn brings about holds at the end. -/
theorem drain_rule (Running : Ledger κ → List Arrival → Prop)
    (Ended : Except RunFailure RunSummary → Ledger κ → Prop)
    (hover : ∀ {l pending}, Running l pending → l.Over options policy pending)
    (hgo : ∀ {l arrival pending after}, Running l (arrival :: pending) →
      Takes l pending arrival (.ok none) after → Running after pending)
    (hfail : ∀ {l arrival pending failure after}, Running l (arrival :: pending) →
      Takes l pending arrival (.error failure) after → Ended (.error failure) after)
    (hclose : ∀ {l arrival pending stopReason after}, Running l (arrival :: pending) →
      Takes l pending arrival (.ok (some stopReason)) after →
      Ended (after.finish stopReason).1 (after.finish stopReason).2)
    (hstop : ∀ {l pending stopReason}, Running l pending →
      stopReason = .shutdown ∨ pending = [] →
      Ended (l.finish stopReason).1 (l.finish stopReason).2)
    {l : Ledger κ} {shutdownAfter : Option Nat} {pending : List Arrival}
    (h : Running l pending) :
    Ended (l.drain shutdownAfter pending).1 (l.drain shutdownAfter pending).2 := by
  fun_induction drain l shutdownAfter pending with
  | case1 => exact hstop h (.inl rfl)
  | case2 => exact hstop h (.inr rfl)
  | case3 l shutdownAfter arrival pending _ failure after hanswer =>
    have hturn := l.takes_take (hover h).subscription_eq arrival pending
    rw [hanswer] at hturn
    exact hfail h hturn
  | case4 l shutdownAfter arrival pending _ stopReason after hanswer =>
    have hturn := l.takes_take (hover h).subscription_eq arrival pending
    rw [hanswer] at hturn
    exact hclose h hturn
  | case5 l shutdownAfter arrival pending _ after hanswer ih =>
    have hturn := l.takes_take (hover h).subscription_eq arrival pending
    rw [hanswer] at hturn
    exact ih (hgo h hturn)

end Ledger

end EnsembleTransport
