import EnsembleTransport.Proofs.Receiver.Ledger

/-!
# Changes of a ledger that runs carry along

Some changes of a ledger do not touch anything that the handling of a message looks at, so that it
makes no difference whether they come before the message or behind it. The change of a sink into its
image under a map is one of them, where the map answers every request as the sink does; whole runs
carry it along.
-/

namespace EnsembleTransport

variable {κ ι : Type}

namespace Ledger

variable [FrameSink κ] [FrameSink ι]

/-- A change that the operations on a message carry along. -/
structure Carries (carry : Ledger κ → Ledger ι) : Prop where
  options_eq : ∀ l, (carry l).options = l.options
  policy_eq : ∀ l, (carry l).policy = l.policy
  messagesReceived_eq : ∀ l,
    (carry l).counters.messagesReceived = l.counters.messagesReceived
  counted_eq : ∀ l, (carry l).counted = carry l.counted
  note_eq : ∀ l found, (carry l).note found = carry (l.note found)
  reject_eq : ∀ l fault, (carry l).reject fault = ((l.reject fault).1, carry (l.reject fault).2)
  write_eq : ∀ l frames, (carry l).write frames = ((l.write frames).1, carry (l.write frames).2)

namespace Carries

variable {carry : Ledger κ → Ledger ι}

theorem pursue_eq (h : Carries carry) (l : Ledger κ) (found : Verdict) :
    (carry l).pursue found = ((l.pursue found).1, carry (l.pursue found).2) := by
  have hpass (hl : l.policy = .skip ∨ found.faults = []) :
      (carry l).pursue found = ((l.pursue found).1, carry (l.pursue found).2) := by
    have hcarried : (carry l).policy = .skip ∨ found.faults = [] := by
      rw [h.policy_eq]
      exact hl
    rw [pursue_of_pass hl, pursue_of_pass hcarried, h.note_eq, h.write_eq]
  rcases hfaults : found.faults with _ | ⟨fault, faults⟩
  · exact hpass (.inr hfaults)
  · cases hpolicy : l.policy with
    | skip => exact hpass (.inl hpolicy)
    | abort =>
      have hcarried : (carry l).policy = .abort := (h.policy_eq l).trans hpolicy
      rw [pursue_of_fault hpolicy hfaults, pursue_of_fault hcarried hfaults,
        h.messagesReceived_eq, h.note_eq]

theorem accept_eq (h : Carries carry) (l : Ledger κ) (message : Octets) :
    (carry l).accept message = ((l.accept message).1, carry (l.accept message).2) := by
  rw [accept, accept, h.options_eq, h.counted_eq]
  cases Processor.verdict l.options message with
  | error fault => exact h.reject_eq l.counted fault
  | ok found => exact h.pursue_eq l.counted found

end Carries

end Ledger

/-- A map of sinks under which every request is answered alike and changes the image as it changes
the sink. -/
structure FrameSink.Follows [FrameSink κ] [FrameSink ι] (f : κ → ι) : Prop where
  append_eq : ∀ sink batch, append (f sink) batch = ((append sink batch).1, f (append sink batch).2)
  flush_eq : ∀ sink, flush (f sink) = ((flush sink).1, f (flush sink).2)

namespace Ledger

def mapSink (f : κ → ι) (l : Ledger κ) : Ledger ι :=
  ⟨l.source, f l.sink, l.options, l.policy, l.counters, l.payloadBytes⟩

variable [FrameSink κ] [FrameSink ι] {f : κ → ι}

theorem carries_mapSink (hf : FrameSink.Follows f) : Carries (mapSink f) where
  options_eq _ := rfl
  policy_eq _ := rfl
  messagesReceived_eq _ := rfl
  counted_eq _ := rfl
  note_eq _ _ := rfl
  reject_eq l fault := by cases hpolicy : l.policy <;> simp only [reject, mapSink, hpolicy]
  write_eq l frames := by
    have happend := hf.append_eq l.sink frames.bytes
    rw [write, write, mapSink, happend]
    rcases FrameSink.append l.sink frames.bytes with ⟨fault | _, sink⟩ <;> rfl

theorem handle_mapSink (hf : FrameSink.Follows f) (l : Ledger κ) (arrival : Arrival) :
    (l.mapSink f).handle arrival = ((l.handle arrival).1, (l.handle arrival).2.mapSink f) := by
  cases arrival with
  | ok message => rw [handle, handle, (carries_mapSink hf).accept_eq]
  | error fault => cases fault <;> rfl

theorem finish_mapSink (hf : FrameSink.Follows f) (l : Ledger κ) (stopReason : StopReason) :
    (l.mapSink f).finish stopReason =
      ((l.finish stopReason).1, (l.finish stopReason).2.mapSink f) := by
  have hflush := hf.flush_eq l.sink
  rw [finish, finish, mapSink, hflush]
  rcases FrameSink.flush l.sink with ⟨fault | _, sink⟩ <;> rfl

/-- A run over the image of a sink is the image of the run over the sink. -/
theorem drain_mapSink (hf : FrameSink.Follows f) (l : Ledger κ) (shutdownAfter : Option Nat)
    (pending : List Arrival) : (l.mapSink f).drain shutdownAfter pending =
      ((l.drain shutdownAfter pending).1, (l.drain shutdownAfter pending).2.mapSink f) := by
  have htake (l : Ledger κ) (arrival : Arrival) (pending : List Arrival) (_ : True) :
      (l.mapSink f).take arrival pending =
        ((l.take arrival pending).1, (l.take arrival pending).2.mapSink f) ∧ True :=
    ⟨handle_mapSink hf { l with source := (l.source.deliver arrival pending).2 } _, trivial⟩
  have hfinish (l : Ledger κ) (stopReason : StopReason) (_ : True) :
      (l.mapSink f).finish stopReason =
        ((l.finish stopReason).1.map id, (l.finish stopReason).2.mapSink f) := by
    rw [finish_mapSink hf, Except.map_id]
    rfl
  rw [drain_carries htake hfinish trivial, Except.map_id]
  rfl

end Ledger

end EnsembleTransport
