import EnsembleTransport.Proofs.Receiver.Writes

/-!
# What a failing writer holds

A device may take its octets in pieces and fill up at any of them, and what a full device took of a
batch stays on it. A run makes no call behind a refused append, so at every moment the device holds the
front of what the reference walk writes.
-/

namespace EnsembleTransport

namespace Device

/-- What is on a device of this capacity while a batch is put on it: the content before the batch, and the
content behind every piece. -/
def stages (capacity : Nat → Nat) (content batch : Octets) : List Octets :=
  let piece := min (capacity content.length) batch.length
  if piece = 0 then [content]
  else content :: stages capacity (content ++ batch.take piece) (batch.drop piece)
termination_by batch.length
decreasing_by
  rw [List.length_drop]
  omega

theorem prefix_of_mem_stages (capacity : Nat → Nat) (content batch : Octets) :
    ∀ stage ∈ stages capacity content batch, stage <+: content ++ batch := by
  fun_induction stages capacity content batch with
  | case1 content batch => simp
  | case2 content batch piece _ ih =>
    rw [List.forall_mem_cons]
    refine ⟨List.prefix_append content batch, fun stage hstage => ?_⟩
    have hstage := ih stage hstage
    rwa [List.append_assoc, List.take_append_drop] at hstage

theorem getLast?_stages (capacity : Nat → Nat) (content batch : Octets) :
    (stages capacity content batch).getLast? =
      some (content ++ batch.take (fit capacity content.length batch.length)) := by
  fun_induction stages capacity content batch with
  | case1 content batch piece hpiece =>
    rw [fit]
    simp [piece, hpiece]
  | case2 content batch piece hpiece ih =>
    have hlength : (batch.take piece).length = piece :=
      List.length_take_of_le (Nat.min_le_right _ _)
    have hfit : fit capacity content.length batch.length =
        piece + fit capacity (content.length + piece) (batch.length - piece) := by
      rw [fit]
      exact if_neg hpiece
    rw [List.getLast?_cons, ih, hfit, List.take_add, List.length_append, hlength, List.length_drop,
      List.append_assoc, Option.getD_some]

end Device

namespace WriterSink

/-- A writer on which the first `whole` batches are and a part of the next one. -/
structure Filled (sink : WriterSink) (batches : List Octets) (whole : Nat) (part : Octets) :
    Prop where
  whole_le : whole ≤ batches.length
  bytesWritten_eq : sink.bytesWritten = 24576 * whole
  content_eq : sink.device.content = (batches.take whole).flatten ++ part
  part_eq : part = [] ∨ ∃ batch, batches[whole]? = some batch ∧ part <+: batch ∧ part ≠ batch

def took (sink : WriterSink) (batch : Octets) (count : Nat) : WriterSink :=
  { sink with device.content := sink.device.content ++ batch.take count }

theorem append_eq (sink : WriterSink) (batch : Octets) :
    let count := Device.fit sink.device.capacity sink.device.content.length batch.length
    FrameSink.append sink batch =
      if count = batch.length then
        (.ok (), { sink.took batch count with bytesWritten := sink.bytesWritten + batch.length })
      else (.error (.writeFailed "device full"), sink.took batch count) := rfl

theorem append_taken {sink : WriterSink} {batch : Octets}
    (h : (FrameSink.append sink batch).1.isOk = true) :
    (FrameSink.append sink batch).2.device.content = sink.device.content ++ batch ∧
      (FrameSink.append sink batch).2.bytesWritten = sink.bytesWritten + batch.length := by
  rw [append_eq] at h ⊢
  split at h
  · rename_i hcount
    rw [if_pos hcount, hcount]
    exact ⟨congrArg (_ ++ ·) List.take_length, rfl⟩
  · cases h

/-- A full device holds a part of the batch, and the part is not counted. -/
theorem append_refused {sink : WriterSink} {batch : Octets} {fault : LinkFault}
    (h : (FrameSink.append sink batch).1 = .error fault) :
    fault = .writeFailed "device full" ∧
      (FrameSink.append sink batch).2.bytesWritten = sink.bytesWritten ∧
      ∃ part, (FrameSink.append sink batch).2.device.content = sink.device.content ++ part ∧
        part <+: batch ∧ part ≠ batch := by
  rw [append_eq] at h ⊢
  split at h
  · cases h
  · rename_i hcount
    cases h
    rw [if_neg hcount]
    refine ⟨rfl, rfl, _, rfl, List.take_prefix _ _, fun hwhole => hcount ?_⟩
    have hle := Device.fit_le sink.device.capacity sink.device.content.length batch.length
    have hlength := congrArg List.length hwhole
    rwa [List.length_take, Nat.min_eq_left hle] at hlength

theorem flush_eq (sink : WriterSink) : (FrameSink.flush sink).2 = sink := by
  change (flush sink).2 = sink
  unfold flush
  split <;> rfl

variable {batches : List Octets} {whole : Nat}

theorem Filled.taken {sink : WriterSink} {batch : Octets} (h : sink.Filled batches whole [])
    (hnext : batches[whole]? = some batch) (hlength : batch.length = 24576)
    (htaken : (FrameSink.append sink batch).1.isOk = true) :
    (FrameSink.append sink batch).2.Filled batches (whole + 1) [] := by
  obtain ⟨hcontent, hbytes⟩ := append_taken htaken
  refine ⟨?_, ?_, ?_, .inl rfl⟩
  · exact (List.getElem?_eq_some_iff.mp hnext).1
  · rw [hbytes, h.bytesWritten_eq, hlength, Nat.mul_add]
  · rw [hcontent, h.content_eq, List.take_add_one, hnext]
    simp

theorem Filled.refused {sink : WriterSink} {batch : Octets} {fault : LinkFault}
    (h : sink.Filled batches whole []) (hnext : batches[whole]? = some batch)
    (hrefused : (FrameSink.append sink batch).1 = .error fault) :
    ∃ part, (FrameSink.append sink batch).2.Filled batches whole part := by
  obtain ⟨-, hbytes, part, hcontent, hpart, hstrict⟩ := append_refused hrefused
  refine ⟨part, h.whole_le, hbytes.trans h.bytesWritten_eq, ?_, .inr ⟨batch, hnext, hpart, hstrict⟩⟩
  rw [hcontent, h.content_eq, List.append_nil]

end WriterSink

namespace SinkCall

def contents (call : SinkCall WriterSink) : List Octets :=
  match call.request with
  | .append batch =>
    Device.stages call.before.device.capacity call.before.device.content batch
  | .flush => [call.before.device.content]

theorem getLast?_contents (call : SinkCall WriterSink) :
    call.contents.getLast? = some call.after.device.content := by
  rcases call with ⟨batch | _, sink⟩
  · rw [contents, Device.getLast?_stages]
    simp only [after, perform, WriterSink.append_eq]
    split <;> rfl
  · simp only [contents, after, perform, WriterSink.flush_eq]
    rfl

theorem fault_of_refusal {call : SinkCall WriterSink} {fault : LinkFault}
    (h : call.refusal? = some fault) : fault = .writeFailed "device full" := by
  unfold refusal? at h
  split at h
  · rename_i batch found hrequest hanswer
    cases h
    rw [answer, perform, hrequest] at hanswer
    exact (WriterSink.append_refused hanswer).1
  · cases h

variable {batches : List Octets} {whole : Nat}

theorem prefix_of_mem_contents {call : SinkCall WriterSink}
    (hbefore : call.before.Filled batches whole [])
    (hnext : ∀ batch, call.batch? = some batch → batches[whole]? = some batch) :
    ∀ content ∈ call.contents, content <+: batches.flatten := by
  have hcontent := hbefore.content_eq
  rw [List.append_nil] at hcontent
  have hfront (count : Nat) : (batches.take count).flatten <+: batches.flatten := by
    refine ⟨(batches.drop count).flatten, ?_⟩
    rw [← List.flatten_append, List.take_append_drop]
  rcases call with ⟨batch | _, sink⟩
  · intro content hstage
    have hnext := hnext batch rfl
    have hstage := Device.prefix_of_mem_stages _ _ _ content hstage
    rw [hcontent] at hstage
    refine hstage.trans ?_
    have htake : (batches.take whole).flatten ++ batch = (batches.take (whole + 1)).flatten := by
      rw [List.take_add_one, hnext]
      simp
    rw [htake]
    exact hfront _
  · rintro content (_ | ⟨_, ⟨⟩⟩)
    rw [hcontent]
    exact hfront _

theorem filled_after {call : SinkCall WriterSink} (hbefore : call.before.Filled batches whole [])
    (hnext : ∀ batch, call.batch? = some batch → batches[whole]? = some batch)
    (hlength : ∀ batch ∈ batches, batch.length = 24576) :
    ∃ part, call.after.Filled batches (whole + if call.appended then 1 else 0) part := by
  rcases call with ⟨batch | _, sink⟩
  · have hnext := hnext batch rfl
    have happended : appended ⟨.append batch, sink⟩ = (FrameSink.append sink batch).1.isOk := rfl
    rw [happended]
    cases hanswer : (FrameSink.append sink batch).1 with
    | ok =>
      have htaken : (FrameSink.append sink batch).1.isOk = true := by rw [hanswer]; rfl
      exact ⟨[], hbefore.taken hnext (hlength batch (List.mem_of_getElem? hnext)) htaken⟩
    | error fault => exact hbefore.refused hnext hanswer
  · refine ⟨[], ?_⟩
    rw [after, perform, WriterSink.flush_eq]
    exact hbefore

theorem next_batch {batch : Octets} {later : List Octets}
    (h : batch :: later <+: batches.drop whole) :
    batches[whole]? = some batch ∧ later <+: batches.drop (whole + 1) := by
  obtain ⟨rest, hrest, hlater⟩ := List.cons_prefix_iff.mp h
  refine ⟨?_, ?_⟩
  · rw [← List.head?_drop, hrest]
    rfl
  · rw [← List.tail_drop, hrest]
    exact hlater

/-- Appends that go through fill the writer with their batches. -/
theorem filled_of_chain {first last : WriterSink} {calls : List (SinkCall WriterSink)}
    (hfirst : first.Filled batches whole []) (hchain : Chain first calls last)
    (happended : ∀ call ∈ calls, call.appended = true)
    (hfront : calls.filterMap batch? <+: batches.drop whole)
    (hlength : ∀ batch ∈ batches, batch.length = 24576) :
    last.Filled batches (whole + calls.length) [] := by
  induction calls generalizing first whole with
  | nil =>
    cases hchain
    exact hfirst
  | cons call calls ih =>
    obtain ⟨rfl, hchain⟩ := hchain
    rw [List.forall_mem_cons] at happended
    rcases call with ⟨batch | _, sink⟩
    · obtain ⟨hnext, hlater⟩ := next_batch hfront
      have hfilled := hfirst.taken hnext (hlength batch (List.mem_of_getElem? hnext)) happended.1
      have hlast := ih hfilled hchain happended.2 hlater
      rwa [Nat.add_assoc, Nat.add_comm 1] at hlast
    · cases happended.1

theorem length_filterMap_batch? {κ : Type} [FrameSink κ] {calls : List (SinkCall κ)}
    (h : ∀ call ∈ calls, call.appended = true) :
    (calls.filterMap batch?).length = calls.length := by
  rw [List.length_filterMap_eq_countP, List.countP_eq_length]
  intro call hcall
  have happended := h call hcall
  rw [appended, Bool.and_eq_true] at happended
  exact happended.1

end SinkCall

namespace Receiver

variable (script : List Arrival) (options : DiagnosticOptions) (policy : ErrorPolicy)

/-- Every call of a run is made to a writer that holds the batches of the calls before, and hands over the
batch that comes next. -/
theorem filled_of_call (device : Device) (hempty : device.content = []) (order : RunOrder)
    {made later : List (SinkCall WriterSink)} {call : SinkCall WriterSink}
    (hcalls : ((fresh (.ofArrivals script) ({ device } : WriterSink) options policy).record
      order).sinkCalls = made ++ call :: later) :
    let batches := (Outcome.walk (Fate.ofMessage options policy) 0 script).batches
    call.before.Filled batches made.length [] ∧
      (∀ batch, call.batch? = some batch → batches[made.length]? = some batch) ∧
      ∀ earlier ∈ made, earlier.appended = true := by
  intro batches
  let r := fresh (.ofArrivals script) ({ device } : WriterSink) options policy
  obtain ⟨hfront, hending⟩ :=
    sinkCalls_writes ({ device } : WriterSink) script options policy order
  have hchain := r.chain_sinkCalls order.clock order.shutdownAfter
  change SinkCall.Chain _ (r.record order).sinkCalls _ at hchain
  rw [hcalls] at hfront hending hchain
  have happended := hending.appended_of_mem_before
  have hlength := SinkCall.length_filterMap_batch? happended
  obtain ⟨middle, hmade, rfl, -⟩ := SinkCall.chain_append.mp hchain
  rw [List.filterMap_append] at hfront
  refine ⟨?_, fun batch hbatch => ?_, happended⟩
  · have hfirst : r.sink.Filled batches 0 [] := ⟨Nat.zero_le _, rfl, hempty, .inl rfl⟩
    have hfilled := SinkCall.filled_of_chain hfirst hmade happended
      ((List.prefix_append _ _).trans hfront) Outcome.length_of_mem_batches
    rwa [Nat.zero_add] at hfilled
  · have hrest : (call :: later).filterMap SinkCall.batch? <+: batches.drop made.length := by
      obtain ⟨tail, htail⟩ : _ <+: batches := hfront
      rw [← hlength, ← htail, List.append_assoc, List.drop_left]
      exact List.prefix_append _ _
    rw [List.filterMap_cons_some hbatch] at hrest
    exact (SinkCall.next_batch hrest).1

theorem filled_between (device : Device) (hempty : device.content = []) (order : RunOrder)
    {made later : List (SinkCall WriterSink)} :
    let r := fresh (.ofArrivals script) ({ device } : WriterSink) options policy
    (r.record order).sinkCalls = made ++ later → ∃ sink part,
      SinkCall.Chain r.sink made sink ∧
      SinkCall.Chain sink later (r.runUntil order.clock order.shutdownAfter).2.sink ∧
      sink.Filled (Outcome.walk (Fate.ofMessage options policy) 0 script).batches
        (made.countP SinkCall.appended) part := by
  intro r hcalls
  have hchain := r.chain_sinkCalls order.clock order.shutdownAfter
  change SinkCall.Chain r.sink (r.record order).sinkCalls _ at hchain
  rw [hcalls] at hchain
  obtain ⟨sink, hmade, hlater⟩ := SinkCall.chain_append.mp hchain
  rcases List.eq_nil_or_concat made with rfl | ⟨earlier, call, rfl⟩
  · obtain rfl := hmade
    exact ⟨r.sink, [], rfl, hlater, ⟨Nat.zero_le _, rfl, hempty, .inl rfl⟩⟩
  · simp only [List.concat_eq_append, List.append_assoc, List.singleton_append] at hcalls hmade ⊢
    obtain ⟨hbefore, hnext, happended⟩ :=
      filled_of_call script options policy device hempty order hcalls
    obtain ⟨part, hfilled⟩ := SinkCall.filled_after hbefore hnext Outcome.length_of_mem_batches
    obtain ⟨middle, -, -, hsink⟩ := SinkCall.chain_append.mp hmade
    refine ⟨sink, part, hmade, hlater, ?_⟩
    rw [List.countP_append, List.countP_eq_length.mpr happended, List.countP_singleton, hsink]
    exact hfilled

/-- A run over a writer that takes its octets in pieces and fails for good once it is full. At every moment
of every call the writer holds the front of what the reference run writes, in batches of 24576 octets.
Between the calls it holds the batches that were appended, which are counted, and of at most one more
batch a part, which is not. The first append that fails is the last call of the run: the run fails with
it under either policy, and no entry is taken behind the message. -/
theorem writer_holds_front (capacity : Nat → Nat) (flushFails : Bool) (order : RunOrder) :
    let batches := (Outcome.walk (Fate.ofMessage options policy) 0 script).batches
    let r := fresh (.ofArrivals script) ({ device := { capacity, flushFails } } : WriterSink) options
      policy
    let record := r.record order
    let after := (r.runUntil order.clock order.shutdownAfter).2
    (∀ batch ∈ batches, batch.length = 24576) ∧
    (∀ call ∈ record.sinkCalls,
      call.contents.getLast? = some call.after.device.content ∧
      ∀ content ∈ call.contents, content <+: batches.flatten) ∧
    (∀ made later, record.sinkCalls = made ++ later → ∃ sink part,
      SinkCall.Chain r.sink made sink ∧ SinkCall.Chain sink later after.sink ∧
      sink.Filled batches (made.countP SinkCall.appended) part) ∧
    (∀ made call later fault, record.sinkCalls = made ++ call :: later →
      call.refusal? = some fault →
      later = [] ∧ fault = .writeFailed "device full" ∧ record.answer = .error (.link fault) ∧
      ∃ before message payloads, script = before ++ .ok message :: after.source.pending ∧
        Fate.ofMessage options policy message = .write payloads ∧
        call.batch? = some (FrameSet.batch payloads)) := by
  intro batches r record after
  refine ⟨Outcome.length_of_mem_batches, ?_, ?_, ?_⟩
  · intro call hcall
    obtain ⟨made, later, hcalls⟩ := List.append_of_mem hcall
    obtain ⟨hbefore, hnext, -⟩ :=
      filled_of_call script options policy { capacity, flushFails } rfl order hcalls
    exact ⟨call.getLast?_contents, SinkCall.prefix_of_mem_contents hbefore hnext⟩
  · intro made later hcalls
    exact filled_between script options policy { capacity, flushFails } rfl order hcalls
  · intro made call later fault hcalls hrefusal
    have hending := (sinkCalls_writes ({ device := { capacity, flushFails } } : WriterSink) script
      options policy order).2
    change Ledger.WriteEnd _ _ _ record.answer _ record.sinkCalls at hending
    rw [hcalls] at hending
    obtain ⟨hlater, hanswer, hmessage⟩ := hending.of_refusal hrefusal
    exact ⟨hlater, SinkCall.fault_of_refusal hrefusal, hanswer, hmessage⟩

end Receiver

end EnsembleTransport
