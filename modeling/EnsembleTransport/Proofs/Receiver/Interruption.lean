import EnsembleTransport.Proofs.Receiver.Carried
import EnsembleTransport.Proofs.Receiver.Turn

/-!
# Interrupted receives

An interrupted receive is tried again and leaves nothing behind but one more interruption in the
counters. Any two runs whose scripts differ in interruptions only come to the run over the entries that
are none, and so to each other.
-/

namespace EnsembleTransport

def uninterrupted (script : List Arrival) : List Arrival := script.filter (!isInterruption ·)

/-- A script with `gaps i` more interruptions in front of entry `i`, and behind the last entry. -/
def interspersed (gaps : Nat → Nat) : List Arrival → List Arrival
  | [] => List.replicate (gaps 0) (.error .interrupted)
  | arrival :: script =>
    List.replicate (gaps 0) (.error .interrupted) ++
      arrival :: interspersed (fun i => gaps (i + 1)) script

theorem uninterrupted_cons {arrival : Arrival} (h : isInterruption arrival = false)
    (script : List Arrival) : uninterrupted (arrival :: script) = arrival :: uninterrupted script :=
  List.filter_cons_of_pos (by simp [h])

theorem uninterrupted_gap (count : Nat) (script : List Arrival) :
    uninterrupted (List.replicate count (.error .interrupted) ++ script) = uninterrupted script := by
  induction count with
  | zero => rfl
  | succ count ih => exact ih

theorem eq_interrupted_of_isInterruption {arrival : Arrival} (h : isInterruption arrival = true) :
    arrival = .error .interrupted := by
  unfold isInterruption at h
  split at h
  · rfl
  · cases h

theorem uninterrupted_interspersed (gaps : Nat → Nat) (script : List Arrival) :
    uninterrupted (interspersed gaps script) = uninterrupted script := by
  induction script generalizing gaps with
  | nil => simpa [interspersed] using uninterrupted_gap (gaps 0) []
  | cons arrival script ih =>
    rw [interspersed, uninterrupted_gap]
    cases h : isInterruption arrival with
    | true =>
      obtain rfl := eq_interrupted_of_isInterruption h
      exact ih _
    | false => rw [uninterrupted_cons h, uninterrupted_cons h, ih]

def Counters.calm (counters : Counters) : Counters := { counters with interruptions := 0 }

def RunSummary.calm (summary : RunSummary) : RunSummary :=
  { summary with counters := summary.counters.calm }

namespace Ledger

variable {κ : Type}

/-- The ledger of a receiver that has met no interruption and will meet none. -/
def calm (l : Ledger κ) : Ledger κ :=
  { l with
    source := { l.source with pending := uninterrupted l.source.pending }
    counters := l.counters.calm }

theorem calm_interrupted {l : Ledger κ} {pending : List Arrival}
    (h : l.source.pending = .error .interrupted :: pending) :
    (l.interrupted pending).calm = l.calm := by
  rw [calm, calm, h]
  rfl

variable [FrameSink κ]

theorem carries_calm : Carries (calm (κ := κ)) where
  options_eq _ := rfl
  policy_eq _ := rfl
  messagesReceived_eq _ := rfl
  counted_eq _ := rfl
  note_eq _ _ := rfl
  reject_eq l fault := by cases hpolicy : l.policy <;> simp only [reject, calm, hpolicy] <;> rfl
  write_eq l frames := by
    have hsink : l.calm.sink = l.sink := rfl
    rw [write, write, hsink]
    rcases FrameSink.append l.sink frames.bytes with ⟨fault | _, sink⟩ <;> rfl

/-- An entry that is no interruption does alike in a script without interruptions. -/
theorem take_calm (l : Ledger κ) (hsource : l.source.subscription = none) {arrival : Arrival}
    (h : isInterruption arrival = false) (pending : List Arrival) :
    l.calm.take arrival (uninterrupted pending) =
      ((l.take arrival pending).1, (l.take arrival pending).2.calm) := by
  cases arrival with
  | error fault =>
    cases fault with
    | interrupted => cases h
    | _ => rfl
  | ok message =>
    rw [take_message l hsource, take_message l.calm hsource]
    have haccept := carries_calm.accept_eq (l.handed pending message) message
    rw [show l.calm.handed (uninterrupted pending) message = (l.handed pending message).calm from rfl,
      haccept]

theorem finish_calm (l : Ledger κ) (stopReason : StopReason) :
    l.calm.finish stopReason =
      ((l.finish stopReason).1.map RunSummary.calm, (l.finish stopReason).2.calm) := by
  have hsink : l.calm.sink = l.sink := rfl
  rw [finish, finish, hsink]
  rcases FrameSink.flush l.sink with ⟨fault | _, sink⟩ <;> rfl

variable {options : DiagnosticOptions} {policy : ErrorPolicy}

theorem drain_calm {l : Ledger κ} {pending : List Arrival} (hl : l.Over options policy pending) :
    l.calm.drain none (uninterrupted pending) =
      ((l.drain none pending).1.map RunSummary.calm, (l.drain none pending).2.calm) := by
  induction pending generalizing l with
  | nil => exact l.finish_calm .sourceClosed
  | cons arrival pending ih =>
    have hturn := l.takes_take hl.subscription_eq arrival pending
    have hafter := hturn.over hl
    cases hinterruption : isInterruption arrival with
    | true =>
      obtain rfl := eq_interrupted_of_isInterruption hinterruption
      have hnext : (l.interrupted pending).Over options policy pending := Takes.interrupted.over hl
      have hrest := ih hnext
      rw [calm_interrupted hl.pending_eq] at hrest
      exact hrest
    | false =>
      have htake := l.take_calm hl.subscription_eq hinterruption pending
      rw [uninterrupted_cons hinterruption, drain_cons _ (by simp), drain_cons _ (by simp), htake]
      rcases htaken : l.take arrival pending with ⟨failure | _ | stopReason, after⟩
      · rfl
      · rw [htaken] at hafter
        exact ih hafter
      · exact after.finish_calm stopReason

theorem Takes.interruptions_eq {l after : Ledger κ} {arrival : Arrival} {pending : List Arrival}
    {answer : Except RunFailure (Option StopReason)} (h : Takes l pending arrival answer after) :
    after.counters.interruptions =
      l.counters.interruptions + if isInterruption arrival then 1 else 0 := by
  cases h with
  | interrupted => rfl
  | closed => rfl
  | failed hretry =>
    rw [isInterruption_error, hretry]
    rfl
  | accepted h => cases h <;> rfl

theorem Takes.isInterruption_eq_false {l after : Ledger κ} {arrival : Arrival}
    {pending : List Arrival} {answer : Except RunFailure (Option StopReason)}
    (h : Takes l pending arrival answer after) (hend : answer ≠ .ok none) :
    isInterruption arrival = false := by
  cases h with
  | interrupted => exact absurd rfl hend
  | closed => rfl
  | failed hretry => rw [isInterruption_error, hretry]
  | accepted => rfl

/-- How a run ends that is not told to stop: it takes some entries and then the one that ends it, if
there is one. -/
structure EndsAt (l after : Ledger κ) (pending before : List Arrival) (last : Option Arrival) :
    Prop where
  pending_eq : pending = before ++ last.toList ++ after.source.pending
  drained : last = none → after.source.pending = []
  last_eq : ∀ arrival ∈ last, isInterruption arrival = false
  interruptions_eq : after.counters.interruptions =
    l.counters.interruptions + before.countP isInterruption

theorem Takes.endsAt {l after : Ledger κ} {arrival : Arrival} {pending : List Arrival}
    {answer : Except RunFailure (Option StopReason)}
    (hl : l.Over options policy (arrival :: pending)) (h : Takes l pending arrival answer after)
    (hend : answer ≠ .ok none) : EndsAt l after (arrival :: pending) [] (some arrival) := by
  have hcalm := h.isInterruption_eq_false hend
  refine ⟨?_, ?_, ?_, ?_⟩
  · rw [(h.over hl).pending_eq]
    rfl
  · intro hnone
    cases hnone
  · rintro _ ⟨⟩
    exact hcalm
  · rw [h.interruptions_eq, hcalm]
    rfl

theorem EndsAt.finish {l after : Ledger κ} {pending before : List Arrival} {last : Option Arrival}
    (h : EndsAt l after pending before last) (stopReason : StopReason) :
    EndsAt l (after.finish stopReason).2 pending before last := by
  rw [snd_finish]
  exact ⟨h.pending_eq, h.drained, h.last_eq, h.interruptions_eq⟩

theorem drain_endsAt {l : Ledger κ} {pending : List Arrival} (hl : l.Over options policy pending) :
    ∃ before last, EndsAt l (l.drain none pending).2 pending before last := by
  induction pending generalizing l with
  | nil =>
    have hstay : EndsAt l l [] [] none :=
      ⟨hl.pending_eq.symm, fun _ => hl.pending_eq, by simp, rfl⟩
    rw [drain_nil _ (by simp)]
    exact ⟨[], none, hstay.finish .sourceClosed⟩
  | cons arrival pending ih =>
    have hturn := l.takes_take hl.subscription_eq arrival pending
    rw [drain_cons _ (by simp)]
    rcases htaken : l.take arrival pending with ⟨failure | _ | stopReason, after⟩
    all_goals rw [htaken] at hturn
    · exact ⟨[], some arrival, hturn.endsAt hl (by simp)⟩
    · obtain ⟨before, last, h⟩ := ih (hturn.over hl)
      refine ⟨arrival :: before, last, ?_, h.drained, h.last_eq, ?_⟩
      · exact congrArg (arrival :: ·) h.pending_eq
      · refine h.interruptions_eq.trans ?_
        rw [hturn.interruptions_eq, List.countP_cons]
        omega
    · exact ⟨[], some arrival, (hturn.endsAt hl (by simp)).finish stopReason⟩

end Ledger

namespace Receiver

variable {κ : Type} [FrameSink κ] (sink : κ) (script : List Arrival) (options : DiagnosticOptions)
  (policy : ErrorPolicy)

/-- A run over a script comes to the run over the entries that are no interruptions. -/
theorem run_calm (clock : Clock) :
    let ended := view ((fresh (.ofArrivals script) sink options policy).run clock)
    (ended.1.map RunSummary.calm, ended.2.calm) =
      (fresh (.ofArrivals (uninterrupted script)) sink options policy).ledger.runUntil none := by
  intro ended
  have hended : ended = (fresh (.ofArrivals script) sink options policy).ledger.drain none script :=
    view_runUntil _ clock none
  rw [hended]
  exact (Ledger.drain_calm ⟨rfl, rfl, rfl, rfl⟩).symm

theorem run_endsAt (clock : Clock) :
    let r := fresh (.ofArrivals script) sink options policy
    ∃ before last, Ledger.EndsAt r.ledger (r.run clock).2.ledger script before last := by
  intro r
  have hview : (r.run clock).2.ledger = (r.ledger.drain none script).2 :=
    congrArg Prod.snd (view_runUntil r clock none)
  have hover : r.ledger.Over options policy script := ⟨rfl, rfl, rfl, rfl⟩
  rw [hview]
  exact Ledger.drain_endsAt hover

/-- Any number of interruptions anywhere in a script make no difference to a run besides their count:
the run ends at the same entry, for the same reason or with the same failure, with the same sink and the
same counters. The count is that of the interruptions before the entry that ends the run, those of the
script and those put in, and before the end of the script if no entry ends the run. -/
theorem interruptions_invisible (gaps : Nat → Nat) (clock plainClock : Clock) :
    let noisy := (fresh (.ofArrivals (interspersed gaps script)) sink options policy).run clock
    let plain := (fresh (.ofArrivals script) sink options policy).run plainClock
    noisy.1.value.map RunSummary.calm = plain.1.value.map RunSummary.calm ∧
    noisy.2.sink = plain.2.sink ∧
    noisy.2.counters.calm = plain.2.counters.calm ∧
    noisy.2.meter.totalBytes = plain.2.meter.totalBytes ∧
    uninterrupted noisy.2.source.pending = uninterrupted plain.2.source.pending ∧
    (∃ before last,
      interspersed gaps script = before ++ last.toList ++ noisy.2.source.pending ∧
      (last = none → noisy.2.source.pending = []) ∧
      (∀ arrival ∈ last, isInterruption arrival = false) ∧
      noisy.2.counters.interruptions = before.countP isInterruption) ∧
    (∀ summary, noisy.1.value = .ok summary →
      summary.counters.interruptions = noisy.2.counters.interruptions) := by
  intro noisy plain
  have hnoisy := run_calm sink (interspersed gaps script) options policy clock
  have hplain := run_calm sink script options policy plainClock
  rw [uninterrupted_interspersed] at hnoisy
  obtain ⟨hanswer, hledger⟩ := Prod.mk.inj (hnoisy.trans hplain.symm)
  refine ⟨hanswer, congrArg Ledger.sink hledger, congrArg Ledger.counters hledger,
    congrArg Ledger.payloadBytes hledger, congrArg (·.source.pending) hledger, ?_, ?_⟩
  · obtain ⟨before, last, h⟩ := run_endsAt sink (interspersed gaps script) options policy clock
    exact ⟨before, last, h.pending_eq, h.drained, h.last_eq,
      h.interruptions_eq.trans (Nat.zero_add _)⟩
  · intro summary hsummary
    obtain ⟨stopReason, rfl⟩ := summary_of_runUntil hsummary
    rfl

end Receiver

end EnsembleTransport
