import EnsembleTransport.Proofs.Receiver.Turn
import EnsembleTransport.Proofs.Receiver.Watch

/-!
# What a run hands to its sink

Whatever the sink is, a run hands it the batches of the reference walk one after the other. An append
that is refused is the last call, and the run fails with the refusal.
-/

namespace EnsembleTransport

namespace Outcome

section Walk

variable {fate : Octets → Fate} {message : Octets} (received : Nat) (script : List Arrival)

theorem walk_of_drop (h : fate message = .drop) :
    walk fate received (.ok message :: script) = walk fate (received + 1) script := by
  rw [walk, h]

theorem batches_of_write {payloads : List Octets} (h : fate message = .write payloads) :
    (walk fate received (.ok message :: script)).batches =
      FrameSet.batch payloads :: (walk fate (received + 1) script).batches := by
  rw [walk, h]

end Walk

theorem length_of_mem_batches {options : DiagnosticOptions} {policy : ErrorPolicy} {received : Nat}
    {script : List Arrival} :
    ∀ batch ∈ (walk (Fate.ofMessage options policy) received script).batches,
      batch.length = 24576 := by
  induction script generalizing received with
  | nil => exact List.forall_mem_nil _
  | cons arrival script ih =>
    cases arrival with
    | error fault =>
      cases fault with
      | interrupted => exact ih
      | _ => exact List.forall_mem_nil _
    | ok message =>
      rw [walk]
      cases hfate : Fate.ofMessage options policy message with
      | stop fault => exact List.forall_mem_nil _
      | drop => exact ih
      | write payloads => exact List.forall_mem_cons.mpr ⟨Fate.length_batch hfate, ih⟩

end Outcome

namespace Ledger

variable {κ : Type} [FrameSink κ] {first : κ} {options : DiagnosticOptions} {policy : ErrorPolicy}
  {script : List Arrival}

/-- The calls of a run so far have handed over the first batches of the walk over the script, and the
rest of the script has the others. -/
structure Writing (l : Ledger (Watched first)) (options : DiagnosticOptions) (policy : ErrorPolicy)
    (script pending : List Arrival) : Prop where
  isOver : l.Over options policy pending
  script_eq : ∃ before, script = before ++ pending
  appended : ∀ call ∈ l.sink.calls, call.appended = true
  batches_eq : (Outcome.walk (Fate.ofMessage options policy) 0 script).batches =
    l.sink.calls.filterMap SinkCall.batch? ++
      (Outcome.walk (Fate.ofMessage options policy) l.counters.messagesReceived pending).batches

/-- How the calls of a run end: with the last append, with a flush, or with an append that is refused.
The refusal is what the run fails with, and the message is the last that it takes. -/
inductive WriteEnd (options : DiagnosticOptions) (policy : ErrorPolicy) (script : List Arrival)
    (answer : Except RunFailure RunSummary) (pending : List Arrival) : List (SinkCall κ) → Prop
  | through {written : List (SinkCall κ)} (happended : ∀ call ∈ written, call.appended = true) :
      WriteEnd options policy script answer pending written
  | flushed {written : List (SinkCall κ)} {call : SinkCall κ}
      (happended : ∀ call ∈ written, call.appended = true) (hcall : call.batch? = none) :
      WriteEnd options policy script answer pending (written ++ [call])
  | refused {written : List (SinkCall κ)} {call : SinkCall κ} {before : List Arrival}
      {message : Octets} {payloads : List Octets} {fault : LinkFault}
      (happended : ∀ call ∈ written, call.appended = true)
      (hbatch : call.batch? = some (FrameSet.batch payloads))
      (hrefusal : call.refusal? = some fault)
      (hfate : Fate.ofMessage options policy message = .write payloads)
      (hscript : script = before ++ .ok message :: pending)
      (hanswer : answer = .error (.link fault)) :
      WriteEnd options policy script answer pending (written ++ [call])

namespace WriteEnd

variable {answer : Except RunFailure RunSummary} {pending : List Arrival}
  {calls made later : List (SinkCall κ)} {call : SinkCall κ}

theorem appended_of_mem_dropLast (h : WriteEnd options policy script answer pending calls) :
    ∀ call ∈ calls.dropLast, call.appended = true := by
  cases h with
  | through happended => exact fun call hcall => happended call (List.dropLast_subset _ hcall)
  | flushed happended => rwa [List.dropLast_concat]
  | refused happended => rwa [List.dropLast_concat]

theorem appended_of_mem_before
    (h : WriteEnd options policy script answer pending (made ++ call :: later)) :
    ∀ earlier ∈ made, earlier.appended = true := by
  intro earlier hearlier
  refine h.appended_of_mem_dropLast earlier ?_
  rw [List.dropLast_append_cons]
  exact List.mem_append_left _ hearlier

/-- A refusal ends the run, which fails with it and takes no entry behind the message. -/
theorem of_refusal {fault : LinkFault}
    (h : WriteEnd options policy script answer pending (made ++ call :: later))
    (hrefusal : call.refusal? = some fault) :
    later = [] ∧ answer = .error (.link fault) ∧
      ∃ before message payloads, script = before ++ .ok message :: pending ∧
        Fate.ofMessage options policy message = .write payloads ∧
        call.batch? = some (FrameSet.batch payloads) := by
  have hnot : call.appended = true → False := by
    intro happended
    cases hrefusal.symm.trans (SinkCall.refusal?_of_appended happended)
  obtain rfl : later = [] := by
    cases later with
    | nil => rfl
    | cons next later =>
      refine (hnot (h.appended_of_mem_dropLast call ?_)).elim
      rw [List.dropLast_append_cons, List.dropLast_cons_cons]
      exact List.mem_append_right _ List.mem_cons_self
  refine ⟨rfl, ?_⟩
  generalize hcalls : made ++ [call] = calls at h
  cases h with
  | through happended =>
    exact (hnot (happended call (hcalls ▸ List.mem_append_right _ List.mem_cons_self))).elim
  | flushed _ hbatch =>
    obtain rfl := List.cons.inj (List.append_inj' hcalls rfl).2 |>.1
    cases hrefusal.symm.trans (SinkCall.refusal?_of_batch?_none hbatch)
  | @refused _ _ before message payloads _ _ hbatch hfault hfate hscript hanswer =>
    obtain rfl := List.cons.inj (List.append_inj' hcalls rfl).2 |>.1
    cases hrefusal.symm.trans hfault
    exact ⟨hanswer, before, message, payloads, hscript, hfate, hbatch⟩

end WriteEnd

/-- What the calls of a whole run have handed over. -/
structure Wrote (answer : Except RunFailure RunSummary) (after : Ledger (Watched first))
    (options : DiagnosticOptions) (policy : ErrorPolicy) (script : List Arrival) : Prop where
  front_batches : after.sink.calls.filterMap SinkCall.batch? <+:
    (Outcome.walk (Fate.ofMessage options policy) 0 script).batches
  ending : WriteEnd options policy script answer after.source.pending after.sink.calls

theorem Writing.front_batches {l : Ledger (Watched first)} {pending : List Arrival}
    (h : l.Writing options policy script pending) : l.sink.calls.filterMap SinkCall.batch? <+:
      (Outcome.walk (Fate.ofMessage options policy) 0 script).batches :=
  ⟨_, h.batches_eq.symm⟩

theorem Writing.offer {l : Ledger (Watched first)} {message : Octets} {pending : List Arrival}
    {payloads : List Octets} {sink : Watched first} {call : SinkCall κ}
    (h : l.Writing options policy script (.ok message :: pending))
    (hfate : Fate.ofMessage options policy message = .write payloads)
    (hcalls : sink.calls = l.sink.calls ++ [call])
    (hbatch : call.batch? = some (FrameSet.batch payloads)) :
    (Outcome.walk (Fate.ofMessage options policy) 0 script).batches =
      sink.calls.filterMap SinkCall.batch? ++ (Outcome.walk (Fate.ofMessage options policy)
        (l.counters.messagesReceived + 1) pending).batches := by
  have hsink : sink.calls.filterMap SinkCall.batch? =
      l.sink.calls.filterMap SinkCall.batch? ++ [FrameSet.batch payloads] := by
    simp [hcalls, hbatch]
  rw [h.batches_eq, Outcome.batches_of_write _ _ hfate, List.append_cons, hsink]

theorem Writing.turn {l after : Ledger (Watched first)} {arrival : Arrival} {pending : List Arrival}
    {answer : Except RunFailure (Option StopReason)}
    (h : l.Writing options policy script (arrival :: pending))
    (hturn : Takes l pending arrival answer after) (hanswer : answer = .ok none) :
    after.Writing options policy script pending := by
  have hover := hturn.over h.isOver
  have happended := appended_of_takes h.appended hturn (by rw [hanswer]; rfl)
  have hwriting := h
  obtain ⟨⟨rfl, rfl, -, -⟩, ⟨before, rfl⟩, -, hbatches⟩ := h
  refine ⟨hover, ⟨before ++ [arrival], by simp⟩, happended, ?_⟩
  cases hturn with
  | interrupted => exact hbatches
  | closed => cases hanswer
  | failed => cases hanswer
  | accepted hmessage =>
    cases hmessage with
    | dropped _ _ hfate =>
      exact hbatches.trans (congrArg (_ ++ ·.batches) (Outcome.walk_of_drop _ _ hfate))
    | rejected => cases hanswer
    | objected => cases hanswer
    | written _ _ hfate happend =>
      obtain ⟨call, hcalls, hbatch, -⟩ := Watched.calls_of_taken happend
      exact hwriting.offer hfate hcalls hbatch
    | refused => cases hanswer

theorem wrote_finish {l : Ledger (Watched first)}
    (happended : ∀ call ∈ l.sink.calls, call.appended = true)
    (hfront : l.sink.calls.filterMap SinkCall.batch? <+:
      (Outcome.walk (Fate.ofMessage options policy) 0 script).batches)
    (stopReason : StopReason) :
    Wrote (l.finish stopReason).1 (l.finish stopReason).2 options policy script := by
  obtain ⟨call, hcalls, hbatch⟩ := Watched.calls_flush l.sink
  refine ⟨?_, ?_⟩
  · rw [snd_finish]
    simpa [hcalls, hbatch] using hfront
  · simp only [snd_finish, hcalls]
    exact .flushed happended hbatch

theorem Writing.closed {l after : Ledger (Watched first)} {arrival : Arrival} {pending : List Arrival}
    {answer : Except RunFailure (Option StopReason)} {stopReason : StopReason}
    (h : l.Writing options policy script (arrival :: pending))
    (hturn : Takes l pending arrival answer after) (hanswer : answer = .ok (some stopReason)) :
    Wrote (after.finish stopReason).1 (after.finish stopReason).2 options policy script := by
  cases hturn with
  | interrupted => cases hanswer
  | closed =>
    exact wrote_finish (l := l.advanced pending) h.appended h.front_batches stopReason
  | failed => cases hanswer
  | @accepted _ accepted => cases accepted <;> cases hanswer

theorem Writing.failed {l after : Ledger (Watched first)} {arrival : Arrival}
    {pending : List Arrival} {answer : Except RunFailure (Option StopReason)} {failure : RunFailure}
    (h : l.Writing options policy script (arrival :: pending))
    (hturn : Takes l pending arrival answer after) (hanswer : answer = .error failure) :
    Wrote (.error failure) after options policy script := by
  have hwriting := h
  obtain ⟨⟨rfl, rfl, -, -⟩, ⟨before, rfl⟩, happended, -⟩ := h
  cases hturn with
  | interrupted => cases hanswer
  | closed => cases hanswer
  | failed => exact ⟨hwriting.front_batches, .through happended⟩
  | accepted hmessage =>
    cases hmessage with
    | dropped => cases hanswer
    | rejected => exact ⟨hwriting.front_batches, .through happended⟩
    | objected => exact ⟨hwriting.front_batches, .through happended⟩
    | written => cases hanswer
    | @refused _ _ _ sink _ _ hfate happend =>
      cases hanswer
      obtain ⟨call, hcalls, hbatch, -, hrefusal⟩ := Watched.calls_of_refused happend
      refine ⟨⟨_, (hwriting.offer hfate hcalls hbatch).symm⟩, ?_⟩
      change WriteEnd _ _ _ _ pending sink.calls
      rw [hcalls]
      exact .refused happended hbatch hrefusal hfate rfl rfl

/-- A run writes what the reference walk writes until an append is refused, and that is its end. -/
theorem drain_wrote {l : Ledger (Watched first)} {pending : List Arrival}
    (h : l.Writing options policy script pending) (shutdownAfter : Option Nat) :
    Wrote (l.drain shutdownAfter pending).1 (l.drain shutdownAfter pending).2 options policy
      script := by
  refine drain_rule
    (fun (l : Ledger (Watched first)) pending => l.Writing options policy script pending)
    (fun answer (after : Ledger (Watched first)) => Wrote answer after options policy script)
    (fun h => h.isOver) ?_ ?_ ?_ ?_ h
  · intro l arrival pending after h hturn
    exact h.turn hturn rfl
  · intro l arrival pending failure after h hturn
    exact h.failed hturn rfl
  · intro l arrival pending stopReason after h hturn
    exact h.closed hturn rfl
  · intro l pending stopReason h _
    exact wrote_finish h.appended h.front_batches stopReason

end Ledger

namespace Receiver

variable {κ : Type} [FrameSink κ]

theorem watched_writing (sink : κ) (script : List Arrival) (options : DiagnosticOptions)
    (policy : ErrorPolicy) : (fresh (.ofArrivals script) sink options policy).watched.ledger.Writing
      options policy script script where
  isOver := ⟨rfl, rfl, rfl, rfl⟩
  script_eq := ⟨[], rfl⟩
  appended := List.forall_mem_nil _
  batches_eq := rfl

theorem sinkCalls_writes (sink : κ) (script : List Arrival) (options : DiagnosticOptions)
    (policy : ErrorPolicy) (order : RunOrder) :
    let r := fresh (.ofArrivals script) sink options policy
    let record := r.record order
    let after := (r.runUntil order.clock order.shutdownAfter).2
    record.sinkCalls.filterMap SinkCall.batch? <+:
      (Outcome.walk (Fate.ofMessage options policy) 0 script).batches ∧
    Ledger.WriteEnd options policy script record.answer after.source.pending record.sinkCalls := by
  intro r record after
  obtain ⟨hfront, hending⟩ :=
    Ledger.drain_wrote (watched_writing sink script options policy) order.shutdownAfter
  obtain ⟨hanswer, hledger⟩ := Prod.mk.inj (r.view_watched order.clock order.shutdownAfter)
  have hpending := congrArg (·.source.pending) hledger
  have hcalls := r.sinkCalls_eq order.clock order.shutdownAfter
  change after.source.pending = _ at hpending
  simp only [record, Receiver.record, hcalls, hanswer, hpending]
  exact ⟨hfront, hending⟩

end Receiver

end EnsembleTransport
