import EnsembleTransport.Proofs.Receiver.Script

/-!
# The two policies side by side

As long as no message is objected to, a strict receiver and a lenient one go through the same
ledgers. At the first message that is objected to, the strict run ends with everything before it
written, and the lenient run goes on from there.
-/

namespace EnsembleTransport

namespace Ledger

variable {κ : Type}

def lenient (l : Ledger κ) : Ledger κ := { l with policy := .skip }

def relaxed {α : Type} (answered : α × Ledger κ) : α × Ledger κ :=
  (answered.1, answered.2.lenient)

/-- A strict ledger with nothing held against any message. -/
structure Strict (l : Ledger κ) : Prop where
  policy : l.policy = .abort
  messagesDropped : l.counters.messagesDropped = 0
  diagnosticErrors : l.counters.diagnosticErrors = 0

def Unopposed {α : Type} (answer : Except RunFailure α) : Prop :=
  ∀ index fault, answer ≠ .error (.message index fault)

theorem unopposed_ok {α : Type} (a : α) : Unopposed (.ok a : Except RunFailure α) := by
  intro index fault h
  cases h

/-- The lenient ledger gives the same answer, and the strict one stays as it should be. -/
structure Agrees {α : Type} (strict lenient : Except RunFailure α × Ledger κ) : Prop where
  lenient_eq : lenient = relaxed strict
  strict : strict.2.Strict

variable [FrameSink κ]

theorem agrees_write {l : Ledger κ} (h : l.Strict) (frames : FrameSet) :
    Agrees (l.write frames) (l.lenient.write frames) := by
  have hsink : l.lenient.sink = l.sink := rfl
  unfold write
  rw [hsink]
  rcases FrameSink.append l.sink frames.bytes with ⟨fault | _, sink⟩ <;>
    exact ⟨rfl, h.policy, h.messagesDropped, h.diagnosticErrors⟩

theorem agrees_finish {l : Ledger κ} (h : l.Strict) (stopReason : StopReason) :
    Agrees (l.finish stopReason) (l.lenient.finish stopReason) := by
  have hsink : l.lenient.sink = l.sink := rfl
  unfold finish
  rw [hsink]
  rcases FrameSink.flush l.sink with ⟨fault | _, sink⟩ <;>
    exact ⟨rfl, h.policy, h.messagesDropped, h.diagnosticErrors⟩

theorem agrees_settle {l : Ledger κ} (h : l.Strict) {verdict : Except MessageFault Verdict}
    (hanswer : Unopposed (l.settle verdict).1) :
    Agrees (l.settle verdict) (l.lenient.settle verdict) := by
  cases verdict with
  | error fault =>
    refine absurd ?_ (hanswer l.counters.messagesReceived fault)
    simp only [settle, reject, h.policy]
  | ok found =>
    rw [settle] at hanswer
    rw [settle, settle]
    rcases hfaults : found.faults with _ | ⟨fault, faults⟩
    · rw [pursue_of_pass (.inr hfaults), pursue_of_pass (.inr hfaults)]
      have hnote : (l.note found).Strict :=
        ⟨h.policy, h.messagesDropped, by simp [note, hfaults, h.diagnosticErrors]⟩
      exact agrees_write hnote found.frames
    · rw [pursue_of_fault h.policy hfaults] at hanswer
      exact absurd rfl (hanswer l.counters.messagesReceived fault)

theorem agrees_accept {l : Ledger κ} (h : l.Strict) {message : Octets}
    (hanswer : Unopposed (l.accept message).1) :
    Agrees (l.accept message) (l.lenient.accept message) := by
  have hcounted : l.counted.Strict := ⟨h.policy, h.messagesDropped, h.diagnosticErrors⟩
  exact agrees_settle hcounted hanswer

theorem agrees_handle {l : Ledger κ} (h : l.Strict) {arrival : Arrival}
    (hanswer : Unopposed (l.handle arrival).1) :
    Agrees (l.handle arrival) (l.lenient.handle arrival) := by
  cases arrival with
  | error fault =>
    cases fault <;> exact ⟨rfl, h.policy, h.messagesDropped, h.diagnosticErrors⟩
  | ok message =>
    have haccept : Unopposed (l.accept message).1 := by
      intro index fault hfault
      apply hanswer index fault
      simp only [handle, hfault, Except.map]
    have hagrees := agrees_accept h haccept
    rw [handle, handle, hagrees.lenient_eq]
    exact ⟨rfl, hagrees.strict⟩

theorem agrees_take {l after : Ledger κ} (h : l.Strict) {arrival : Arrival}
    {pending : List Arrival} {answer : Except RunFailure (Option StopReason)}
    (htake : l.take arrival pending = (answer, after)) (hanswer : Unopposed answer) :
    l.lenient.take arrival pending = (answer, after.lenient) ∧ after.Strict := by
  have hdelivered : Strict { l with source := (l.source.deliver arrival pending).2 } :=
    ⟨h.policy, h.messagesDropped, h.diagnosticErrors⟩
  have hagrees : Agrees (l.take arrival pending) (l.lenient.take arrival pending) := by
    apply agrees_handle hdelivered
    change Unopposed (l.take arrival pending).1
    rw [htake]
    exact hanswer
  rw [htake] at hagrees
  exact ⟨hagrees.lenient_eq, hagrees.strict⟩

/-- A strict run that ends without an objection goes as the lenient one does. -/
theorem agrees_drain {l : Ledger κ} (h : l.Strict) {shutdownAfter : Option Nat}
    {pending : List Arrival} (hanswer : Unopposed (l.drain shutdownAfter pending).1) :
    Agrees (l.drain shutdownAfter pending) (l.lenient.drain shutdownAfter pending) := by
  fun_induction drain l shutdownAfter pending with
  | case1 l pending =>
    rw [drain_zero]
    exact agrees_finish h .shutdown
  | case2 l shutdownAfter hlimit =>
    rw [drain_nil _ hlimit]
    exact agrees_finish h .sourceClosed
  | case3 l shutdownAfter arrival pending hlimit failure after htake =>
    have hfailure : Unopposed (.error failure : Except RunFailure (Option StopReason)) := by
      intro index fault hfault
      cases hfault
      exact hanswer index fault rfl
    obtain ⟨hlenient, hstrict⟩ := agrees_take h htake hfailure
    rw [drain_cons _ hlimit, hlenient]
    exact ⟨rfl, hstrict⟩
  | case4 l shutdownAfter arrival pending hlimit stopReason after htake =>
    obtain ⟨hlenient, hstrict⟩ := agrees_take h htake (unopposed_ok _)
    rw [drain_cons _ hlimit, hlenient]
    exact agrees_finish hstrict stopReason
  | case5 l shutdownAfter arrival pending hlimit after htake ih =>
    obtain ⟨hlenient, hstrict⟩ := agrees_take h htake (unopposed_ok _)
    rw [drain_cons _ hlimit, hlenient]
    exact ih hstrict hanswer

end Ledger

/-- Processing objects to a message with this fault first, at any time and after any messages. -/
def Objects (options : DiagnosticOptions) (message : Octets) (fault : MessageFault) : Prop :=
  ∀ (p : Processor) (now : Instant), p.options = options →
    (p.process now message).1.value = .error fault ∨
    ∃ diagnosis faults, (p.process now message).1.value = .ok diagnosis ∧
      diagnosis.faults = fault :: faults

/-- Processing has nothing to say against a message, at any time and after any messages. -/
def Passes (options : DiagnosticOptions) (message : Octets) : Prop :=
  ∀ (p : Processor) (now : Instant), p.options = options →
    ∃ diagnosis, (p.process now message).1.value = .ok diagnosis ∧ diagnosis.faults = []

theorem passes_of_verdict {options : DiagnosticOptions} {message : Octets} {found : Verdict}
    (h : Processor.verdict options message = .ok found) (hfaults : found.faults = []) :
    Passes options message := by
  intro p now hp
  obtain ⟨diagnosis, hvalue, hverdict⟩ := p.diagnosis_of_verdict now (hp ▸ h)
  exact ⟨diagnosis, hvalue, (congrArg Verdict.faults hverdict).trans hfaults⟩

theorem Objects.not_passes {options : DiagnosticOptions} {message : Octets} {fault : MessageFault}
    (h : Objects options message fault) : ¬ Passes options message := by
  intro hpasses
  obtain ⟨diagnosis, hok, hnone⟩ := hpasses { options } ⟨0⟩ rfl
  rcases h { options } ⟨0⟩ rfl with herror | ⟨other, faults, hother, hsome⟩
  · cases hok.symm.trans herror
  · cases hok.symm.trans hother
    cases hnone.symm.trans hsome

/-- The message of this number, counted from one, is the first that is objected to. -/
def FirstObjection (options : DiagnosticOptions) (messages : List Octets) (index : Nat)
    (fault : MessageFault) : Prop :=
  ∃ before message after, messages = before ++ message :: after ∧ index = before.length + 1 ∧
    (∀ earlier ∈ before, Passes options earlier) ∧ Objects options message fault

namespace Fate

/-- A strict policy stops at what processing objects to, and writes what a lenient one writes. -/
theorem cases_abort (options : DiagnosticOptions) (message : Octets) :
    (∃ fault, ofMessage options .abort message = .stop fault ∧ Objects options message fault) ∨
    (∃ payloads, ofMessage options .abort message = .write payloads ∧
      ofMessage options .skip message = .write payloads ∧ Passes options message) := by
  unfold ofMessage Processor.faults
  cases hsplit : SplitMessage.ofMessage message with
  | error fault =>
    exact .inl ⟨fault, rfl, fun p now _ => .inl (p.process_of_fault now hsplit)⟩
  | ok parts =>
    obtain ⟨found, hfound, _⟩ := Processor.verdict_of_parts options hsplit
    rw [hfound]
    rcases hfaults : found.faults with _ | ⟨fault, faults⟩
    · exact .inr ⟨parts.payloads, by simp only [hfaults], by simp only [hfaults],
        passes_of_verdict hfound hfaults⟩
    · refine .inl ⟨fault, by simp only [hfaults], ?_⟩
      intro p now hp
      obtain ⟨diagnosis, hvalue, hverdict⟩ := p.diagnosis_of_verdict now (hp ▸ hfound)
      exact .inr ⟨diagnosis, faults, hvalue, (congrArg Verdict.faults hverdict).trans hfaults⟩

theorem ofMessage_frameSync (options : DiagnosticOptions) (enabled : Bool) (policy : ErrorPolicy) :
    ofMessage { options with frameSync := enabled } policy = ofMessage options policy := by
  funext message
  simp only [ofMessage, Processor.faults_frameSync]

end Fate

namespace Outcome

variable {options : DiagnosticOptions}

theorem batches_prefix (options : DiagnosticOptions) (received : Nat) (script : List Arrival) :
    (walk (Fate.ofMessage options .abort) received script).batches <+:
      (walk (Fate.ofMessage options .skip) received script).batches := by
  induction script generalizing received with
  | nil => exact List.prefix_rfl
  | cons arrival script ih =>
    cases arrival with
    | error fault =>
      cases fault with
      | interrupted => exact ih received
      | _ => exact List.prefix_rfl
    | ok message =>
      rw [walk, walk]
      rcases Fate.cases_abort options message with ⟨fault, hstop, _⟩ | ⟨payloads, hwrite, hskip, _⟩
      · rw [hstop]
        exact List.nil_prefix
      · rw [hwrite, hskip]
        exact (List.prefix_cons_inj _).mpr (ih (received + 1))

theorem length_flatten_batches (policy : ErrorPolicy) (received : Nat) (script : List Arrival) :
    (walk (Fate.ofMessage options policy) received script).batches.flatten.length =
      24576 * (walk (Fate.ofMessage options policy) received script).batches.length := by
  induction script generalizing received with
  | nil => rfl
  | cons arrival script ih =>
    cases arrival with
    | error fault =>
      cases fault with
      | interrupted => exact ih received
      | _ => rfl
    | ok message =>
      rw [walk]
      cases hfate : Fate.ofMessage options policy message with
      | stop fault => rfl
      | drop => exact ih (received + 1)
      | write payloads =>
        simp only [List.flatten_cons, List.length_append, List.length_cons, ih,
          Fate.length_batch hfate]
        omega

theorem objection_of_walk {received index : Nat} {script : List Arrival} {fault : MessageFault}
    (h : (walk (Fate.ofMessage options .abort) received script).ending =
      .error (.message index fault)) :
    ∃ before message after, script.filterMap Except.toOption = before ++ message :: after ∧
      index = received + before.length + 1 ∧
      (∀ earlier ∈ before, Passes options earlier) ∧ Objects options message fault ∧
      (walk (Fate.ofMessage options .abort) received script).batches.length = before.length := by
  induction script generalizing received with
  | nil => cases h
  | cons arrival script ih =>
    cases arrival with
    | error fault =>
      cases fault with
      | interrupted => exact ih h
      | _ => cases h
    | ok message =>
      rw [walk] at h ⊢
      rcases Fate.cases_abort options message with
        ⟨objection, hstop, hobjects⟩ | ⟨payloads, hwrite, _, hpasses⟩
      · rw [hstop] at h ⊢
        cases h
        exact ⟨[], message, script.filterMap Except.toOption, rfl, rfl, by simp, hobjects, rfl⟩
      · rw [hwrite] at h ⊢
        obtain ⟨before, objected, after, hmessages, hindex, hearlier, hobjects, hcount⟩ := ih h
        refine ⟨message :: before, objected, after, ?_, ?_, ?_, hobjects, congrArg Nat.succ hcount⟩
        · simp only [List.filterMap_cons, Except.toOption, hmessages, List.cons_append]
        · rw [hindex, List.length_cons]
          omega
        · simpa [hpasses] using hearlier

end Outcome

namespace Receiver

variable (script : List Arrival) (options : DiagnosticOptions)

def strictRun (clock : Clock) : Logged (Except RunFailure RunSummary) × Receiver MemorySink :=
  (fresh (.ofArrivals script) {} options .abort).run clock

def lenientRun (clock : Clock) : Logged (Except RunFailure RunSummary) × Receiver MemorySink :=
  (fresh (.ofArrivals script) {} options .skip).run clock

theorem strictRun_agrees (strictClock lenientClock : Clock)
    (h : Ledger.Unopposed (strictRun script options strictClock).1.value) :
    Ledger.Agrees (view (strictRun script options strictClock))
      (view (lenientRun script options lenientClock)) := by
  have hanswer : Ledger.Unopposed (view (strictRun script options strictClock)).1 := h
  rw [strictRun, run, view_runUntil] at hanswer ⊢
  rw [lenientRun, run, view_runUntil]
  exact Ledger.agrees_drain ⟨rfl, rfl, rfl⟩ hanswer

/-- A strict and a lenient run over one script, with any clocks. Without an objection they end alike,
with the same sink. At the first objection the strict run has written the messages before it, with
which the lenient run begins as well. The synchronisation check ends no strict run. -/
theorem strict_against_lenient (strictClock lenientClock : Clock) :
    let strict := strictRun script options strictClock
    let lenient := lenientRun script options lenientClock
    (∀ summary, strict.1.value = .ok summary →
      lenient.1.value = .ok summary ∧ lenient.2.sink = strict.2.sink ∧
      summary.counters.messagesDropped = 0 ∧ summary.counters.diagnosticErrors = 0) ∧
    (∀ fault, strict.1.value = .error (.link fault) →
      lenient.1.value = .error (.link fault) ∧ lenient.2.sink = strict.2.sink) ∧
    (∀ index fault, strict.1.value = .error (.message index fault) →
      FirstObjection options (script.filterMap Except.toOption) index fault ∧
      strict.2.sink.data.length = 24576 * (index - 1) ∧
      strict.2.sink.data <+: lenient.2.sink.data) ∧
    (∀ enabled clock,
      let other := strictRun script { options with frameSync := enabled } clock
      other.1.value.map RunSummary.stopReason = strict.1.value.map RunSummary.stopReason ∧
      other.2.sink = strict.2.sink) := by
  intro strict lenient
  have hstrict : Ledger.Realises (view strict) {} _ :=
    run_realises script options .abort strictClock
  have hlenient : Ledger.Realises (view lenient) {} _ :=
    run_realises script options .skip lenientClock
  refine ⟨?_, ?_, ?_, ?_⟩
  · intro summary h
    have hunopposed : Ledger.Unopposed strict.1.value := h ▸ Ledger.unopposed_ok summary
    have hagrees := strictRun_agrees script options strictClock lenientClock hunopposed
    obtain ⟨stopReason, hsummary⟩ := summary_of_runUntil h
    refine ⟨(congrArg Prod.fst hagrees.lenient_eq).trans h,
      congrArg (·.2.sink) hagrees.lenient_eq, ?_, ?_⟩
    · rw [hsummary]
      exact hagrees.strict.messagesDropped
    · rw [hsummary]
      exact hagrees.strict.diagnosticErrors
  · intro fault h
    have hunopposed : Ledger.Unopposed strict.1.value := by
      intro index objection hobjection
      cases h.symm.trans hobjection
    have hagrees := strictRun_agrees script options strictClock lenientClock hunopposed
    exact ⟨(congrArg Prod.fst hagrees.lenient_eq).trans h,
      congrArg (·.2.sink) hagrees.lenient_eq⟩
  · intro index fault h
    have hending := hstrict.ending
    rw [view, h] at hending
    obtain ⟨before, message, after, hmessages, hindex, hearlier, hobjects, hcount⟩ :=
      Outcome.objection_of_walk hending.symm
    have hdata : strict.2.sink.data = _ := hstrict.data
    have hlenientData : lenient.2.sink.data = _ := hlenient.data
    rw [hdata, hlenientData]
    refine ⟨⟨before, message, after, hmessages, ?_, hearlier, hobjects⟩, ?_, ?_⟩
    · rw [hindex, Nat.zero_add]
    · rw [Outcome.length_flatten_batches, hcount, hindex, Nat.zero_add, Nat.add_sub_cancel]
    · obtain ⟨others, hothers⟩ := Outcome.batches_prefix options 0 script
      rw [← hothers, List.flatten_append]
      exact List.prefix_append _ _
  · intro enabled clock
    have hother := run_realises script { options with frameSync := enabled } .abort clock
    rw [Fate.ofMessage_frameSync] at hother
    exact ⟨hother.ending.trans hstrict.ending.symm, hother.sink.trans hstrict.sink.symm⟩

end Receiver

end EnsembleTransport
