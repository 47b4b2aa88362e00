import EnsembleTransport.Proofs.Walk.Diagnosis

/-!
# Classes of faults

A message is refused for its layout and for nothing else, and what is found in an accepted message
concerns its timing and nothing else. Neither class has a fault of the other.
-/

namespace EnsembleTransport

open Layout

namespace MessageFault

/-- The faults that a message is refused for. -/
inductive OfLayout : MessageFault → Prop where
  | shortMessage (need got : Nat) : OfLayout (.shortMessage need got)
  | unsupportedVersion (version supported : Nat) : OfLayout (.unsupportedVersion version supported)
  | invalidSubframeLength (index : Nat) (length : Int) (capacity : Nat) :
    OfLayout (.invalidSubframeLength index length capacity)
  | payloadOverrun (index offset length messageSize : Nat) :
    OfLayout (.payloadOverrun index offset length messageSize)

/-- The faults that are found in a message whose frames are valid. -/
inductive OfTiming : MessageFault → Prop where
  | truncatedMetadata (tag : Option Nat) (offset need remaining : Nat) :
    OfTiming (.truncatedMetadata tag offset need remaining)
  | incompleteMetadata (missing : List String) (offset : Nat) :
    OfTiming (.incompleteMetadata missing offset)
  | missingFic (fct : Nat) : OfTiming (.missingFic fct)
  | timestamp (offset need bufferSize : Nat) :
    OfTiming (.fieldOutOfBounds "TIST" offset need bufferSize)

variable {fault : MessageFault}

theorem OfLayout.isDiagnostic_eq (h : fault.OfLayout) : fault.isDiagnostic = false := by
  cases h <;> rfl

theorem OfTiming.isDiagnostic_eq (h : fault.OfTiming) : fault.isDiagnostic = true := by
  cases h <;> rfl

end MessageFault

namespace Fallible

variable {ε α β : Type} {kind : ε → Prop}

def FailsWith (x : Except ε α) (kind : ε → Prop) : Prop := ∀ e, x = .error e → kind e

theorem failsWith_ok (a : α) : FailsWith (.ok a : Except ε α) kind := fun _ he => nomatch he

theorem failsWith_error {e : ε} (h : kind e) : FailsWith (.error e : Except ε α) kind := by
  intro _ he
  cases he
  exact h

theorem FailsWith.bind {x : Except ε α} {f : α → Except ε β} (hx : FailsWith x kind)
    (hf : ∀ a, FailsWith (f a) kind) : FailsWith (x >>= f) kind := by
  cases x with
  | error e => exact failsWith_error (hx e rfl)
  | ok a => exact hf a

theorem FailsWith.mapM {f : α → Except ε β} (members : List α)
    (hf : ∀ member, FailsWith (f member) kind) : FailsWith (members.mapM f) kind := by
  induction members with
  | nil => exact failsWith_ok []
  | cons member members ih =>
    rw [List.mapM_cons]
    exact (hf member).bind fun _ => ih.bind fun _ => failsWith_ok _

end Fallible

open Fallible

namespace Envelope

theorem parse_failsWith (message : Octets) : FailsWith (parse message) MessageFault.OfLayout := by
  unfold parse
  split
  · exact failsWith_error (.shortMessage _ _)
  · split
    · exact failsWith_error (.unsupportedVersion _ _)
    · refine (FailsWith.mapM _ fun index => ?_).bind fun _ => failsWith_ok _
      simp only [checkLength]
      split
      · exact failsWith_ok _
      · exact failsWith_error (.invalidSubframeLength _ _ _)

end Envelope

namespace SplitMessage

theorem cut_failsWith (message : Octets) (index offset : Nat) (lengths : List Nat) :
    FailsWith (cut message index offset lengths) MessageFault.OfLayout := by
  induction lengths generalizing index offset with
  | nil => exact failsWith_ok _
  | cons length lengths ih =>
    rw [cut]
    split
    · exact (ih (index + 1) (offset + length)).bind fun _ => failsWith_ok _
    · exact failsWith_error (.payloadOverrun _ _ _ _)

theorem ofMessage_failsWith (message : Octets) :
    FailsWith (ofMessage message) MessageFault.OfLayout :=
  (Envelope.parse_failsWith message).bind fun envelope =>
    (cut_failsWith message 0 headerSize envelope.lengths).bind fun _ => failsWith_ok _

end SplitMessage

theorem Metadata.decodeGroup_failsWith (block : Octets) (start : Nat) :
    FailsWith (decodeGroup block start).value MessageFault.OfTiming := by
  simp only [decodeGroup]
  cases (scan (block.drop start)).2 with
  | marker declared rest =>
    simp only [conclude]
    split
    · exact failsWith_ok _
    · exact failsWith_error (.incompleteMetadata _ _)
  | cut shortage =>
    cases shortage with
    | header left => exact failsWith_error (.truncatedMetadata _ _ _ _)
    | value tag declared left => exact failsWith_error (.truncatedMetadata _ _ _ _)

theorem Timestamp.ofFrame_failsWith {frame : Octets} (h : frameSize ≤ frame.length)
    (dlfc : UInt16) : FailsWith (ofFrame frame dlfc) MessageFault.OfTiming := by
  intro fault hfault
  obtain ⟨fct, rfl⟩ | ⟨refusal, rfl⟩ := fault_of_long h hfault
  · exact .missingFic fct
  · exact .timestamp _ _ _

namespace GroupReader

theorem next_failsWith (reader : GroupReader) :
    FailsWith reader.next.1.value MessageFault.OfTiming := by
  have hgroup := Metadata.decodeGroup_failsWith reader.block reader.consumed
  cases hvalue : (Metadata.decodeGroup reader.block reader.consumed).value with
  | ok pair =>
    simp only [next, hvalue]
    exact failsWith_ok _
  | error fault =>
    simp only [next, hvalue]
    exact failsWith_error (hgroup fault hvalue)

theorem ofTiming_of_leading (reader : GroupReader) (count : Nat) :
    ∀ fault ∈ (reader.leading count).2, fault.OfTiming := by
  induction count generalizing reader with
  | zero => exact fun fault hfault => nomatch hfault
  | succ count ih =>
    have hfirst := reader.next_failsWith
    rw [leading]
    rcases hnext : reader.next with ⟨⟨found | metadata, events⟩, next⟩
    · rw [hnext] at hfirst
      intro fault hfault
      cases hfault
      exact hfirst found rfl
    · exact ih next

/-- Where a read fails, one group is missing at least. -/
theorem length_leading_add_le (reader : GroupReader) (count : Nat) :
    (reader.leading count).1.length + (reader.leading count).2.toList.length ≤ count := by
  have hall := reader.length_leading_le count
  have hsome := reader.isSome_leading_iff count
  cases hfault : (reader.leading count).2 with
  | none => exact hall
  | some fault =>
    rw [hfault] at hsome
    exact hsome.mp rfl

end GroupReader

namespace Clocking

theorem ofTiming_of_groups (enabled : Bool) (block : Octets) (count : Nat) :
    ∀ fault ∈ (groups enabled block count).2, fault.OfTiming := by
  cases enabled with
  | false => exact fun fault hfault => nomatch hfault
  | true => exact ({ block } : GroupReader).ofTiming_of_leading count

theorem length_groups_add_le (enabled : Bool) (block : Octets) (count : Nat) :
    (groups enabled block count).1.length + (groups enabled block count).2.toList.length ≤
      count := by
  cases enabled with
  | false => exact Nat.zero_le count
  | true => exact ({ block } : GroupReader).length_leading_add_le count

end Clocking

namespace Diagnosis

variable (options : DiagnosticOptions) (now : Instant) (frames : FrameSet) (block : Octets)

/-- Every frame has one fault at the most: its timestamp is at fault, or its group is and no other
frame is gone to. -/
theorem length_faults_le : (ofFrames options now frames block).value.faults.length ≤ 4 := by
  have hcount := Clocking.length_groups_add_le options.timestamps block frames.frameList.length
  rw [faults_ofFrames, List.length_append]
  refine Nat.le_trans (Nat.add_le_add_right ?_ _)
    (Nat.le_trans hcount (Nat.le_of_eq (FrameSet.length_frameList frames)))
  refine Nat.le_trans (List.length_filterMap_le _ _) ?_
  rw [List.length_zip]
  exact Nat.min_le_right _ _

theorem ofTiming_of_mem_faults :
    ∀ fault ∈ (ofFrames options now frames block).value.faults, fault.OfTiming := by
  intro fault hfault
  rw [faults_ofFrames, List.mem_append, List.mem_filterMap] at hfault
  obtain ⟨⟨frame, metadata⟩, hpair, hfault⟩ | hfault := hfault
  · have hframe := FrameSet.length_of_mem_frameList (List.of_mem_zip hpair).1
    cases htimestamp : Timestamp.ofFrame frame metadata.dlfc with
    | ok timestamp => simp [Timestamp.fault?, htimestamp] at hfault
    | error found =>
      simp only [Timestamp.fault?, htimestamp, Option.some.injEq] at hfault
      rw [← hfault]
      exact Timestamp.ofFrame_failsWith (Nat.le_of_eq hframe.symm) _ found htimestamp
  · exact Clocking.ofTiming_of_groups _ _ _ fault (Option.mem_toList.mp hfault)

end Diagnosis

namespace Processor

/-- A message is refused for a fault of its layout, which is no diagnostic one. An accepted message
has four faults at the most, all of its timing and all diagnostic ones. It comes to the same whatever
is answered to the reads of fields in front of a timestamp, to a look at a synchronisation
that fails and to payloads or groups that begin out of bounds: none of these answers is ever
given. -/
theorem fault_classes (p : Processor) (now : Instant) (message : Octets) :
    (∀ fault, (p.process now message).1.value = .error fault →
      fault.OfLayout ∧ fault.isDiagnostic = false) ∧
    (∀ diagnosis, (p.process now message).1.value = .ok diagnosis →
      diagnosis.faults.length ≤ 4 ∧
        ∀ fault ∈ diagnosis.faults, fault.OfTiming ∧ fault.isDiagnostic = true) ∧
    ∀ fb : Fallbacks, p.walk fb now message = (p.process now message).1.value := by
  refine ⟨?_, ?_, fun fb => p.walk_eq fb now message⟩
  · intro fault hprocess
    cases hsplit : SplitMessage.ofMessage message with
    | error found =>
      cases (p.process_of_fault now hsplit).symm.trans hprocess
      have hlayout := SplitMessage.ofMessage_failsWith message fault hsplit
      exact ⟨hlayout, hlayout.isDiagnostic_eq⟩
    | ok parts =>
      obtain ⟨_, _, hok⟩ := p.process_of_parts now hsplit
      cases hok.symm.trans hprocess
  · intro diagnosis hprocess
    cases hsplit : SplitMessage.ofMessage message with
    | error found => cases (p.process_of_fault now hsplit).symm.trans hprocess
    | ok parts =>
      obtain ⟨frames, -, hok⟩ := p.process_of_parts now hsplit
      cases hok.symm.trans hprocess
      refine ⟨Diagnosis.length_faults_le .., fun fault hfault => ?_⟩
      have htiming := Diagnosis.ofTiming_of_mem_faults _ _ _ _ fault hfault
      exact ⟨htiming, htiming.isDiagnostic_eq⟩

end Processor

end EnsembleTransport
