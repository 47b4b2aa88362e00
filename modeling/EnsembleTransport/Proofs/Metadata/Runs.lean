import EnsembleTransport.Proofs.Walk.Group

/-!
# Runs of complete records

In front of its marker a group is a run of complete records, and a group that cannot be decoded
begins with such a run too, though it may be an empty one. A scan goes over the longest run there is
and stops for one of three reasons: too few octets for a header, a marker, or a value that is cut
off. Both facts together say all that a scan does.
-/

namespace EnsembleTransport.Metadata

/-- The octets are the records one behind the other, each complete and none a marker. -/
inductive SpellsRun : List Record → Octets → Prop where
  | nil : SpellsRun [] []
  | record {records : List Record} {rest : Octets} (tag high low : UInt8) (value : Octets) :
    tag ≠ 0 → value.length = wireSize tag (256 * high.toNat + low.toNat) → SpellsRun records rest →
    SpellsRun (⟨tag, .ofNat (256 * high.toNat + low.toNat), value⟩ :: records)
      (tag :: high :: low :: (value ++ rest))

/-- What stands where a run cannot go on, and how a scan reports it. -/
inductive Stops : Octets → Ending → Prop where
  | header {rest : Octets} : rest.length < 3 → Stops rest (.cut (.header rest.length))
  | marker (high low : UInt8) (body : Octets) :
    Stops (0 :: high :: low :: body) (.marker (.ofNat (256 * high.toNat + low.toNat)) body)
  | value (tag high low : UInt8) (body : Octets) : tag ≠ 0 →
    body.length < wireSize tag (256 * high.toNat + low.toNat) →
    Stops (tag :: high :: low :: body)
      (.cut (.value tag (.ofNat (256 * high.toNat + low.toNat)) (3 + body.length)))

/-- A value that is cut off is reported with the octets that its whole record takes. -/
theorem conclude_value (start : Nat) (records : List Record) (tag high low : UInt8) (left : Nat) :
    conclude start records (.cut (.value tag (.ofNat (256 * high.toNat + low.toNat)) left)) =
      .error (.truncatedMetadata (some tag.toNat) (start + totalSize records)
        (3 + wireSize tag (256 * high.toNat + low.toNat)) left) := by
  rw [conclude, Shortage.fault, toNat_ofNat_pair, valueSize_eq_wireSize, recordHeaderSize]

section Run

variable {records more : List Record} {run : Octets}

theorem length_of_spellsRun (h : SpellsRun records run) : run.length = totalSize records := by
  induction h with
  | nil => rfl
  | record tag high low value _ _ _ ih =>
    simp only [List.length_cons, List.length_append, ih, totalSize, List.map_cons, List.sum_cons,
      Record.size, recordHeaderSize]
    omega

theorem exists_of_spellsRun_append (h : SpellsRun (records ++ more) run) :
    ∃ front rest, run = front ++ rest ∧ SpellsRun records front ∧ SpellsRun more rest := by
  induction records generalizing run with
  | nil => exact ⟨[], run, rfl, .nil, h⟩
  | cons r records ih =>
    cases h with
    | record tag high low value htag hsize hrun =>
      obtain ⟨front, rest, rfl, hfront, hrest⟩ := ih hrun
      refine ⟨_, rest, ?_, .record tag high low value htag hsize hfront, hrest⟩
      simp only [List.cons_append, List.append_assoc]

end Run

section Scan

variable {bytes rest run : Octets} {records : List Record} {ending : Ending}

theorem scan_of_spellsRun (h : SpellsRun records run) (rest : Octets) :
    scan (run ++ rest) = (records ++ (scan rest).1, (scan rest).2) := by
  induction h with
  | nil => rfl
  | @record records run tag high low value htag hsize _ ih =>
    have hscan := scan_of_record (readRecord_eq tag high low value (run ++ rest) hsize) htag
    rw [ih] at hscan
    rw [List.cons_append, List.cons_append, List.cons_append, List.append_assoc]
    exact hscan

theorem readRecord_of_cut {tag high low : UInt8} {body : Octets}
    (h : body.length < wireSize tag (256 * high.toNat + low.toNat)) :
    readRecord (tag :: high :: low :: body) =
      .error (.value tag (.ofNat (256 * high.toNat + low.toNat)) (3 + body.length)) := by
  rw [readRecord_of_header]
  dsimp only
  rw [valueSize_eq_wireSize, if_neg (Nat.not_le.mpr h), recordHeaderSize]

theorem scan_of_stops (h : Stops rest ending) : scan rest = ([], ending) := by
  cases h with
  | header hshort => exact scan_of_shortage (readRecord_of_short hshort)
  | marker high low body => exact scan_of_marker (readRecord_eq 0 high low [] body rfl) rfl
  | value tag high low body _ hcut => exact scan_of_shortage (readRecord_of_cut hcut)

theorem stops_of_shortage {shortage : Shortage} (h : readRecord bytes = .error shortage) :
    Stops bytes (.cut shortage) := by
  by_cases hshort : bytes.length < 3
  · cases (readRecord_of_short hshort).symm.trans h
    exact .header hshort
  · obtain ⟨tag, high, low, body, hbytes⟩ := @exists_header ⟨bytes, 0⟩ (Nat.le_of_not_lt hshort)
    change bytes = tag :: high :: low :: body at hbytes
    subst hbytes
    by_cases hfits : wireSize tag (256 * high.toNat + low.toNat) ≤ body.length
    · rw [readRecord_of_header] at h
      dsimp only at h
      rw [valueSize_eq_wireSize, if_pos hfits] at h
      cases h
    · have hcut := Nat.lt_of_not_le hfits
      cases (readRecord_of_cut hcut).symm.trans h
      refine .value tag high low body ?_ hcut
      rintro rfl
      exact absurd hcut (Nat.not_lt_zero _)

/-- A scan goes over complete records to where they cannot go on, and this is all that it does. -/
theorem scan_eq_iff : scan bytes = (records, ending) ↔
    ∃ run rest, bytes = run ++ rest ∧ SpellsRun records run ∧ Stops rest ending := by
  constructor
  · intro h
    fun_induction scan bytes generalizing records ending with
    | case1 bytes shortage hread =>
      cases h
      exact ⟨[], bytes, rfl, .nil, stops_of_shortage hread⟩
    | case2 bytes r body hread hmarker =>
      cases h
      obtain ⟨high, low, rfl, hdeclared, hsize⟩ := eq_of_readRecord hread
      rw [(isMarker_iff r).mp hmarker] at hsize
      refine ⟨[], _, rfl, .nil, ?_⟩
      rw [hdeclared, (isMarker_iff r).mp hmarker, List.length_eq_zero_iff.mp hsize]
      exact .marker high low body
    | case3 bytes r body hread hmarker records ending hscan ih =>
      cases h
      obtain ⟨run, rest, rfl, hrun, hstops⟩ := ih hscan
      obtain ⟨high, low, rfl, hdeclared, hsize⟩ := eq_of_readRecord hread
      obtain ⟨tag, _, value⟩ := r
      subst hdeclared
      refine ⟨_, rest, ?_, .record tag high low value ?_ hsize hrun, hstops⟩
      · simp only [List.cons_append, List.append_assoc]
      · exact fun htag => hmarker ((isMarker_iff _).mpr htag)
  · rintro ⟨run, rest, rfl, hrun, hstops⟩
    rw [scan_of_spellsRun hrun, scan_of_stops hstops, List.append_nil]

end Scan

/-- Complete records, none of them a marker, fill the block from one offset to another. -/
structure RunsTo (block : Octets) (start place : Nat) (records : List Record) : Prop where
  start_le : start ≤ place
  place_le : place ≤ block.length
  spells : SpellsRun records (Octets.window block start (place - start))

/-- The records reach further than any other run of complete records from the same offset. -/
structure RunsFurthest (block : Octets) (start place : Nat) (records : List Record) : Prop
    extends RunsTo block start place records where
  furthest : ∀ place' records', RunsTo block start place' records' → place' ≤ place

section Block

variable {block : Octets} {start place : Nat} {records : List Record}

theorem runsTo_iff : RunsTo block start place records ↔ start ≤ block.length ∧
    ∃ run rest, SpellsRun records run ∧ block.drop start = run ++ rest ∧
      place = start + run.length := by
  constructor
  · rintro ⟨hle, hplace, hrun⟩
    refine ⟨by omega, _, (block.drop start).drop (place - start), hrun,
      (List.take_append_drop _ _).symm, ?_⟩
    rw [Octets.length_window_of_le (by omega)]
    omega
  · rintro ⟨hstart, run, rest, hrun, hdrop, rfl⟩
    have hlength := congrArg List.length hdrop
    simp only [List.length_drop, List.length_append] at hlength
    refine ⟨by omega, by omega, ?_⟩
    rwa [Octets.window, hdrop, Nat.add_sub_cancel_left, List.take_left]

theorem runsTo_iff_front : RunsTo block start place records ↔ start ≤ block.length ∧
    records <+: (scan (block.drop start)).1 ∧ place = start + totalSize records := by
  rw [runsTo_iff]
  constructor
  · rintro ⟨hstart, run, rest, hrun, hdrop, rfl⟩
    rw [hdrop, scan_of_spellsRun hrun, length_of_spellsRun hrun]
    exact ⟨hstart, List.prefix_append _ _, rfl⟩
  · rintro ⟨hstart, ⟨more, hmore⟩, rfl⟩
    obtain ⟨run, rest, hdrop, hrun, -⟩ := scan_eq_iff.mp (Prod.eta (scan (block.drop start))).symm
    rw [← hmore] at hrun
    obtain ⟨front, back, rfl, hfront, -⟩ := exists_of_spellsRun_append hrun
    refine ⟨hstart, front, back ++ rest, hfront, ?_, by rw [length_of_spellsRun hfront]⟩
    rw [hdrop, List.append_assoc]

theorem eq_nil_of_totalSize (h : totalSize records = 0) : records = [] := by
  cases records with
  | nil => rfl
  | cons r records =>
    simp only [totalSize, List.map_cons, List.sum_cons, Record.size, recordHeaderSize] at h
    omega

def declaredAt (block : Octets) (place : Nat) : Nat :=
  Octets.big (Octets.window block (place + 1) 2)

theorem header_of_drop {tag high low : UInt8} {body : Octets}
    (h : block.drop place = tag :: high :: low :: body) :
    Octets.octet block place = tag ∧ declaredAt block place = 256 * high.toNat + low.toNat := by
  constructor
  · have hfirst := congrArg (·[0]?) h
    rw [Octets.octet, List.getD_eq_getElem?_getD]
    simp only [List.getElem?_drop, Nat.add_zero, List.getElem?_cons_zero] at hfirst
    rw [hfirst, Option.getD_some]
  · rw [declaredAt, Octets.window, ← List.drop_drop, h]
    exact big_pair high low

theorem room_of_drop {tag high low : UInt8} {body : Octets}
    (h : block.drop place = tag :: high :: low :: body) : place + 3 ≤ block.length := by
  have hlength := congrArg List.length h
  simp only [List.length_drop, List.length_cons] at hlength
  omega

theorem exists_header_of_room (h : 3 ≤ block.length - place) :
    ∃ tag high low body, block.drop place = tag :: high :: low :: body :=
  @exists_header ⟨block, place⟩ h

/-- The furthest run is the one that a scan goes over. -/
theorem runsFurthest_iff : RunsFurthest block start place records ↔ start ≤ block.length ∧
    records = (scan (block.drop start)).1 ∧ place = start + totalSize records := by
  constructor
  · rintro ⟨hruns, hfurthest⟩
    obtain ⟨hstart, ⟨more, hmore⟩, rfl⟩ := runsTo_iff_front.mp hruns
    have hwhole := hfurthest _ _ (runsTo_iff_front.mpr ⟨hstart, List.prefix_rfl, rfl⟩)
    rw [← hmore, totalSize_append] at hwhole
    rw [eq_nil_of_totalSize (by omega : totalSize more = 0), List.append_nil] at hmore
    exact ⟨hstart, hmore, rfl⟩
  · rintro ⟨hstart, rfl, rfl⟩
    refine ⟨runsTo_iff_front.mpr ⟨hstart, List.prefix_rfl, rfl⟩, fun place' records' h => ?_⟩
    obtain ⟨-, ⟨more, hmore⟩, rfl⟩ := runsTo_iff_front.mp h
    rw [← hmore, totalSize_append]
    omega

theorem exists_stops (h : RunsFurthest block start place records) :
    ∃ ending, scan (block.drop start) = (records, ending) ∧ Stops (block.drop place) ending := by
  obtain ⟨-, rfl, hplace⟩ := runsFurthest_iff.mp h
  obtain ⟨run, rest, hdrop, hrun, hstops⟩ :=
    scan_eq_iff.mp (Prod.eta (scan (block.drop start))).symm
  have hrest : block.drop place = rest := calc
    block.drop place = (block.drop start).drop run.length := by
      rw [hplace, ← length_of_spellsRun hrun, List.drop_drop]
    _ = rest := by rw [hdrop, List.drop_left]
  exact ⟨_, rfl, hrest ▸ hstops⟩

end Block

end EnsembleTransport.Metadata
