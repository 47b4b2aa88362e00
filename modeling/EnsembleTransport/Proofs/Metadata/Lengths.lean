import EnsembleTransport.Proofs.Metadata.Runs

/-!
# Declared lengths of known tags

A record with a known tag is as long as its tag says, and what it declares is compared with that and
otherwise ignored. The declared length of a header that decoding comes to can be changed without any
effect on the answer. It shows in the log alone, where every such header with another length than
its tag's has one warning, in the order of the headers.
-/

namespace EnsembleTransport.Metadata

/-- Decoding a group comes to a whole header at an offset, over complete records. -/
structure Reaches (block : Octets) (start place : Nat) : Prop where
  run : ∃ records, RunsTo block start place records
  room : place + 3 ≤ block.length

def tagName (tag : UInt8) : String :=
  if tag = 0 then "separation_marker"
  else if tag = 1 then "utc_offset"
  else if tag = 2 then "edi_time"
  else "dlfc"

/-- The warning for the header at an offset, of a known tag and with another length than it has. -/
def warning? (block : Octets) (place : Nat) : Option Event :=
  let tag := Octets.octet block place
  let declared := declaredAt block place
  let size := wireSize tag declared
  if tag.toNat < 4 ∧ declared ≠ size then
    some ⟨.warn, .metadata,
      s!"Invalid length {declared} for metadata: {tagName tag} (expected {size})", []⟩
  else none

section Answer

def Record.content (r : Record) : UInt8 × Octets := (r.tag, r.value)

variable {records records' : List Record}

theorem lastValue?_eq_content (records : List Record) (tag : Tag) : lastValue? records tag =
    (((records.map Record.content).filter (·.1 == tag.toOctet)).getLast?).map Prod.snd := by
  rw [lastValue?, List.filter_map, List.getLast?_map, Option.map_map]
  rfl

theorem totalSize_eq_content (records : List Record) : totalSize records =
    ((records.map Record.content).map fun content => recordHeaderSize + content.2.length).sum := by
  rw [totalSize, List.map_map]
  rfl

/-- The answer does not look at the lengths that complete records declare. -/
theorem conclude_congr (h : records.map Record.content = records'.map Record.content) (start : Nat)
    (ending : Ending) : conclude start records ending = conclude start records' ending := by
  have hvalue : lastValue? records = lastValue? records' := by
    funext tag
    rw [lastValue?_eq_content, lastValue?_eq_content, h]
  have hattributes : attributes? records = attributes? records' := by
    rw [attributes?, attributes?, hvalue]
  have hmissing : missing records = missing records' := by
    rw [missing, missing, hvalue]
  have hsize : totalSize records = totalSize records' := by
    rw [totalSize_eq_content, totalSize_eq_content, h]
  cases ending with
  | marker declared rest => simp only [conclude, hattributes, hmissing, hsize]
  | cut shortage => simp only [conclude, hsize]

theorem wireSize_of_known {tag : UInt8} (h : tag.toNat < 4) (declared other : Nat) :
    wireSize tag declared = wireSize tag other := by
  rw [← valueSize_eq_wireSize, ← valueSize_eq_wireSize, valueSize, valueSize]
  cases hknown : Tag.ofOctet? tag with
  | none => exact absurd h (Nat.not_lt.mpr (Tag.ofOctet?_eq_none_iff.mp hknown))
  | some known => rfl

theorem conclude_header {tag : UInt8} (h : tag.toNat < 4) (start : Nat) (records : List Record)
    (high low high' low' : UInt8) (body : Octets) :
    let found := scan (tag :: high :: low :: body)
    let other := scan (tag :: high' :: low' :: body)
    conclude start (records ++ found.1) found.2 = conclude start (records ++ other.1) other.2 := by
  have hsize := wireSize_of_known h (256 * high.toNat + low.toNat) (256 * high'.toNat + low'.toNat)
  by_cases htag : tag = 0
  · subst htag
    rw [scan_of_stops (.marker high low body), scan_of_stops (.marker high' low' body)]
    rfl
  · by_cases hcut : body.length < wireSize tag (256 * high.toNat + low.toNat)
    · rw [scan_of_stops (.value tag high low body htag hcut),
        scan_of_stops (.value tag high' low' body htag (hsize ▸ hcut))]
      simp only [conclude_value, hsize]
    · obtain ⟨value, rest, rfl, hvalue⟩ : ∃ value rest, body = value ++ rest ∧
          value.length = wireSize tag (256 * high.toNat + low.toNat) :=
        ⟨_, _, (List.take_append_drop _ body).symm, List.length_take_of_le (Nat.le_of_not_lt hcut)⟩
      rw [scan_of_record (readRecord_eq tag high low value rest hvalue) htag,
        scan_of_record (readRecord_eq tag high' low' value rest (hsize ▸ hvalue)) htag]
      exact conclude_congr (by simp [Record.content]) start _

/-- Changing the length that a header of a known tag declares leaves the answer. -/
theorem value_decodeGroup_set {block : Octets} {start place : Nat} (h : Reaches block start place)
    (hknown : (Octets.octet block place).toNat < 4) (high low : UInt8) :
    (decodeGroup ((block.set (place + 1) high).set (place + 2) low) start).value =
      (decodeGroup block start).value := by
  obtain ⟨⟨records, hruns⟩, hroom⟩ := h
  obtain ⟨tag, high₀, low₀, body, hheader⟩ :=
    exists_header_of_room (Nat.le_sub_of_add_le' hroom)
  rw [(header_of_drop hheader).1] at hknown
  obtain ⟨front, hlength, hblock, hrun⟩ : ∃ front : Octets, front.length = place ∧
      block = front ++ tag :: high₀ :: low₀ :: body ∧ SpellsRun records (front.drop start) := by
    refine ⟨block.take place, ?_, ?_, ?_⟩
    · rw [List.length_take]
      omega
    · rw [← hheader, List.take_append_drop]
    · rw [List.drop_take]
      exact hruns.spells
  have hset : (block.set (place + 1) high).set (place + 2) low =
      front ++ tag :: high :: low :: body := by
    rw [hblock, ← hlength, List.set_append_right _ _ (Nat.le_add_right _ 1),
      List.set_append_right _ _ (Nat.le_add_right _ 2), Nat.add_sub_cancel_left,
      Nat.add_sub_cancel_left]
    rfl
  have hstart : start ≤ front.length := hlength ▸ hruns.start_le
  rw [hset, hblock]
  simp only [decodeGroup, List.drop_append_of_le_length hstart, scan_of_spellsRun hrun]
  exact conclude_header hknown start records high low high₀ low₀ body

end Answer

section Log

variable {block : Octets} {start place : Nat} {records : List Record}

/-- The offsets of records one behind the other, and the offset behind the last of them. -/
def places (start : Nat) : List Record → List Nat
  | [] => [start]
  | r :: records => start :: places (start + r.size) records

theorem mem_places : place ∈ places start records ↔
    ∃ front, front <+: records ∧ place = start + totalSize front := by
  induction records generalizing start with
  | nil => simp [places, totalSize]
  | cons r records ih =>
    rw [places, List.mem_cons, ih]
    constructor
    · rintro (rfl | ⟨front, hfront, rfl⟩)
      · exact ⟨[], List.nil_prefix, rfl⟩
      · refine ⟨r :: front, (List.prefix_cons_inj r).mpr hfront, ?_⟩
        simp only [totalSize, List.map_cons, List.sum_cons, Nat.add_assoc]
    · rintro ⟨front, hfront, rfl⟩
      obtain rfl | ⟨others, rfl, hothers⟩ := List.prefix_cons_iff.mp hfront
      · exact .inl rfl
      · refine .inr ⟨others, hothers, ?_⟩
        simp only [totalSize, List.map_cons, List.sum_cons, Nat.add_assoc]

theorem pairwise_places (start : Nat) (records : List Record) :
    (places start records).Pairwise (· < ·) := by
  induction records generalizing start with
  | nil => exact List.pairwise_singleton _ _
  | cons r records ih =>
    refine List.pairwise_cons.mpr ⟨fun place hplace => ?_, ih (start + r.size)⟩
    obtain ⟨front, -, rfl⟩ := mem_places.mp hplace
    rw [Record.size, recordHeaderSize]
    omega

theorem reaches_iff : Reaches block start place ↔
    place ∈ places start (scan (block.drop start)).1 ∧ place + 3 ≤ block.length := by
  constructor
  · rintro ⟨⟨records, hruns⟩, hroom⟩
    obtain ⟨-, hfront, hplace⟩ := runsTo_iff_front.mp hruns
    exact ⟨mem_places.mpr ⟨records, hfront, hplace⟩, hroom⟩
  · rintro ⟨hplace, hroom⟩
    obtain ⟨front, hfront, rfl⟩ := mem_places.mp hplace
    exact ⟨⟨front, runsTo_iff_front.mpr ⟨by omega, hfront, rfl⟩⟩, hroom⟩

theorem warning?_of_drop {tag high low : UInt8} {body : Octets}
    (h : block.drop place = tag :: high :: low :: body) : warning? block place =
      (mismatch? tag (256 * high.toNat + low.toNat)).map LengthMismatch.event := by
  obtain ⟨htag, hdeclared⟩ := header_of_drop h
  rw [warning?, htag, hdeclared]
  generalize 256 * high.toNat + low.toNat = declared
  cases hknown : Tag.ofOctet? tag with
  | none =>
    have hlarge := Nat.not_lt.mpr (Tag.ofOctet?_eq_none_iff.mp hknown)
    simp [mismatch?, hknown, hlarge]
  | some known =>
    have hsize : wireSize tag declared = known.valueSize := by
      rw [← valueSize_eq_wireSize, valueSize, hknown]
    have hname : tagName tag = known.name := by
      rw [← Tag.toOctet_of_ofOctet? hknown]
      cases known <;> rfl
    have hsmall : tag.toNat < 4 := by
      rw [← Tag.toOctet_of_ofOctet? hknown]
      cases known <;> decide
    by_cases heq : known.valueSize = declared
    · simp [mismatch?, hknown, hsize, heq]
    · simp [mismatch?, hknown, hsize, heq, hname, hsmall, Ne.symm heq, LengthMismatch.event]

theorem mismatches_cons (r : Record) (records : List Record) (ending : Ending) :
    mismatches (r :: records) ending =
      (mismatch? r.tag r.declared.toNat).toList ++ mismatches records ending := by
  simp only [mismatches, List.filterMap_cons]
  cases mismatch? r.tag r.declared.toNat <;> rfl

theorem filterMap_cons_of_drop {tag high low : UInt8} {body : Octets} (others : List Nat)
    (h : block.drop place = tag :: high :: low :: body) :
    ((place :: others).filter (· + 3 ≤ block.length)).filterMap (warning? block) =
      (mismatch? tag (256 * high.toNat + low.toNat)).toList.map LengthMismatch.event ++
        (others.filter (· + 3 ≤ block.length)).filterMap (warning? block) := by
  rw [List.filter_cons_of_pos (by simpa using room_of_drop h), List.filterMap_cons,
    warning?_of_drop h]
  cases mismatch? tag (256 * high.toNat + low.toNat) <;> rfl

/-- The wrong lengths that a scan meets are those of the headers it comes to. Along the run every
header is all there, and what is behind the run decides on the last offset. -/
theorem events_of_run {run rest : Octets} {ending : Ending} (hrun : SpellsRun records run)
    (hdrop : block.drop start = run ++ rest) (hstops : Stops rest ending) :
    (mismatches records ending).map LengthMismatch.event =
      ((places start records).filter (· + 3 ≤ block.length)).filterMap (warning? block) := by
  induction hrun generalizing start with
  | nil =>
    cases hstops with
    | header hshort =>
      have hlength := congrArg List.length hdrop
      rw [List.length_drop, List.nil_append] at hlength
      have hroom : ¬ start + 3 ≤ block.length := by omega
      simp [mismatches, places, hroom]
    | marker high low body =>
      rw [places, filterMap_cons_of_drop [] hdrop, ← toNat_ofNat_pair]
      simp [mismatches, Tag.toOctet]
    | value tag high low body hne hcut =>
      rw [places, filterMap_cons_of_drop [] hdrop, ← toNat_ofNat_pair]
      simp [mismatches]
  | @record records run tag high low value htag hsize hrun ih =>
    have hnext : block.drop (start + (3 + value.length)) = run ++ rest := by
      rw [← List.drop_drop, hdrop]
      simp [← List.drop_drop]
    have hheader : block.drop start = tag :: high :: low :: (value ++ run ++ rest) := hdrop
    rw [mismatches_cons, List.map_append, toNat_ofNat_pair, ih hnext, places,
      filterMap_cons_of_drop _ hheader]
    rfl

end Log

/-- The length that a header of a known tag declares can be any other without a change in the
answer, and the log has one warning for each header of a known tag that decoding comes to and that
declares another length than its tag has, in the order of the headers, and no others. -/
theorem declared_length_only_logged (block : Octets) (start : Nat) :
    (∀ place high low, Reaches block start place → (Octets.octet block place).toNat < 4 →
      (decodeGroup ((block.set (place + 1) high).set (place + 2) low) start).value =
        (decodeGroup block start).value) ∧
    ∃ offsets : List Nat, offsets.Pairwise (· < ·) ∧
      (∀ place, place ∈ offsets ↔ Reaches block start place) ∧
      (decodeGroup block start).events = offsets.filterMap (warning? block) := by
  refine ⟨fun place high low h hknown => value_decodeGroup_set h hknown high low,
    (places start (scan (block.drop start)).1).filter (· + 3 ≤ block.length), ?_, ?_, ?_⟩
  · exact (pairwise_places start _).filter _
  · intro place
    rw [reaches_iff, List.mem_filter, decide_eq_true_iff]
  · obtain ⟨run, rest, hdrop, hrun, hstops⟩ :=
      scan_eq_iff.mp (Prod.eta (scan (block.drop start))).symm
    exact events_of_run hrun hdrop hstops

/-- No warning for the unknown record, and one for the value that is cut off. -/
example : (decodeGroup [9, 0, 1, 0, 1, 0, 7, 0, 37, 2, 1, 0, 8] 0).events.map (·.text) =
    ["Invalid length 7 for metadata: utc_offset (expected 2)",
      "Invalid length 256 for metadata: edi_time (expected 4)"] := by cbv

end EnsembleTransport.Metadata
