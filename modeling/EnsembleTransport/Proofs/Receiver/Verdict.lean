import EnsembleTransport.Proofs.Diagnosis.Entries

/-!
# What a message comes to

A run goes on by the frames of a message, its diagnostic faults and the number of its frames out
of synchronisation. None of these depends on earlier messages or on the time of day.
-/

namespace EnsembleTransport

/-- What a run looks at in a message that has been taken apart. -/
structure Verdict where
  frames : FrameSet
  faults : List MessageFault
  syncErrors : Nat
deriving DecidableEq, Repr

def Diagnosis.verdict (diagnosis : Diagnosis) : Verdict :=
  ⟨diagnosis.frames, diagnosis.faults, diagnosis.syncErrors⟩

namespace Diagnosis

theorem verdict_ofFrames (options : DiagnosticOptions) (now other : Instant) (frames : FrameSet)
    (block : Octets) : (ofFrames options now frames block).value.verdict =
      (ofFrames options other frames block).value.verdict := by
  rw [verdict, verdict, faults_ofFrames, faults_ofFrames]
  rfl

end Diagnosis

namespace Processor

variable {message : Octets}

@[simp] theorem options_process (p : Processor) (now : Instant) (message : Octets) :
    (p.process now message).2.options = p.options := by
  unfold process
  rcases p.reassembler.reassemble message with ⟨fault | parts, reassembler⟩ <;> rfl

/-- What a processor that has not seen any message finds in one. -/
def verdict (options : DiagnosticOptions) (message : Octets) : Except MessageFault Verdict :=
  (({ options } : Processor).process ⟨0⟩ message).1.value.map Diagnosis.verdict

theorem verdict_process (p : Processor) (now : Instant) (message : Octets) :
    (p.process now message).1.value.map Diagnosis.verdict = verdict p.options message := by
  unfold verdict
  cases hsplit : SplitMessage.ofMessage message with
  | error fault => rw [process_of_fault _ _ hsplit, process_of_fault _ _ hsplit]
  | ok parts =>
    obtain ⟨frames, hframes, hp⟩ := p.process_of_parts now hsplit
    obtain ⟨others, hothers, hfirst⟩ :=
      ({ options := p.options } : Processor).process_of_parts ⟨0⟩ hsplit
    rw [hp, hfirst, hframes.unique hothers]
    exact congrArg Except.ok (Diagnosis.verdict_ofFrames p.options now ⟨0⟩ others parts.metadata)

theorem verdict_of_fault (options : DiagnosticOptions) {fault : MessageFault}
    (h : SplitMessage.ofMessage message = .error fault) :
    verdict options message = .error fault := by
  rw [verdict, process_of_fault _ _ h]
  rfl

theorem verdict_of_parts (options : DiagnosticOptions) {parts : SplitMessage}
    (h : SplitMessage.ofMessage message = .ok parts) :
    ∃ found, verdict options message = .ok found ∧ found.frames.Holds parts.payloads := by
  obtain ⟨frames, hframes, hp⟩ := ({ options } : Processor).process_of_parts ⟨0⟩ h
  rw [verdict, hp]
  exact ⟨_, rfl, hframes⟩

theorem diagnosis_of_verdict (p : Processor) (now : Instant) {found : Verdict}
    (h : verdict p.options message = .ok found) :
    ∃ diagnosis, (p.process now message).1.value = .ok diagnosis ∧ diagnosis.verdict = found := by
  rw [← p.verdict_process now] at h
  cases hvalue : (p.process now message).1.value with
  | error fault =>
    rw [hvalue] at h
    cases h
  | ok diagnosis =>
    rw [hvalue] at h
    cases h
    exact ⟨diagnosis, rfl, rfl⟩

def faults (options : DiagnosticOptions) (message : Octets) : List MessageFault :=
  match verdict options message with
  | .ok found => found.faults
  | .error _ => []

theorem faults_of_parts (options : DiagnosticOptions) {parts : SplitMessage}
    (h : SplitMessage.ofMessage message = .ok parts) :
    faults options message =
      let read := Clocking.groups options.timestamps parts.metadata Layout.framesPerMessage
      ((parts.payloads.map FrameSet.pad).zip read.1).filterMap
        (fun pair => Timestamp.fault? pair.1 pair.2.dlfc) ++ read.2.toList := by
  obtain ⟨frames, hframes, hp⟩ := ({ options } : Processor).process_of_parts ⟨0⟩ h
  rw [faults, verdict, hp]
  exact Diagnosis.faults_of_holds hframes options ⟨0⟩ parts.metadata

/-- The synchronisation check never adds a diagnostic fault. -/
theorem faults_frameSync (options : DiagnosticOptions) (enabled : Bool) (message : Octets) :
    faults { options with frameSync := enabled } message = faults options message := by
  unfold faults verdict
  cases hsplit : SplitMessage.ofMessage message with
  | error fault => rw [process_of_fault _ _ hsplit, process_of_fault _ _ hsplit]
  | ok parts =>
    obtain ⟨frames, hframes, hchanged⟩ :=
      ({ options := { options with frameSync := enabled } } : Processor).process_of_parts ⟨0⟩ hsplit
    obtain ⟨others, hothers, hgiven⟩ := ({ options } : Processor).process_of_parts ⟨0⟩ hsplit
    rw [hchanged, hgiven, hframes.unique hothers]
    rfl

end Processor

end EnsembleTransport
