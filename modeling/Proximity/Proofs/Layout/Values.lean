import Proximity.Proofs.Layout.RoundTrip

/-! The values that a beacon is advertised with, each at its place. If no value is cut, the beacon
that is read is the one that was sent exactly where every value is found again. -/

namespace Proximity

theorem map_eq_map_iff_of_zip {α β γ : Type} {f : α → γ} {g : β → γ} {as : List α} {bs : List β}
    (length : as.length = bs.length) :
    bs.map g = as.map f ↔ ∀ a b, (a, b) ∈ as.zip bs → g b = f a := by
  constructor
  · intro same a b paired
    exact eq_of_mem_zip same paired
  · intro same
    refine List.ext_getElem (by simpa using length.symm) fun k inside both => ?_
    rw [List.getElem_map, List.getElem_map]
    refine same _ _ (List.mem_iff_getElem.mpr ⟨k, ?_, List.getElem_zip⟩)
    simpa [length] using inside

namespace Layout

/-- A beacon is advertised with a value for a place. -/
inductive Writes (layout : Layout) (sent : Beacon) : Place → Bytes → Prop
  | matcher : Writes layout sent ⟨layout.matcher.span, .big⟩ layout.matcher.expected
  | power : Writes layout sent ⟨layout.power, .big⟩ [sent.txPower.toUInt8]
  | identifier {place : Place} {id : Identifier}
      (paired : (place, id) ∈ layout.identifiers.zip sent.ids) : Writes layout sent place id.bytes
  | data {place : Place} {n : UInt64} (paired : (place, n) ∈ layout.dataFields.zip sent.data) :
      Writes layout sent place (Bytes.ofNat 8 n.toNat)

theorem WellFormed.mem_patches_iff {layout : Layout} (wf : layout.WellFormed) {sent : Beacon}
    {patch : Patch} : patch ∈ layout.patches sent ↔
      ∃ place value, layout.Writes sent place value ∧ patch = place.patch value := by
  rw [mem_patches]
  constructor
  · rintro (⟨pattern, among, rfl⟩ | ⟨span, among, rfl⟩ | ⟨place, id, paired, rfl⟩ |
      ⟨place, n, paired, rfl⟩)
    · exact ⟨_, _, wf.eq_matcher among ▸ .matcher, rfl⟩
    · exact ⟨_, _, wf.eq_power among ▸ .power, rfl⟩
    · exact ⟨_, _, .identifier paired, rfl⟩
    · exact ⟨_, _, .data paired, rfl⟩
  · rintro ⟨_, _, writes, rfl⟩
    cases writes with
    | matcher => exact .inl ⟨_, wf.matcher_mem, rfl⟩
    | power => exact .inr (.inl ⟨_, wf.power_mem, rfl⟩)
    | identifier paired => exact .inr (.inr (.inl ⟨_, _, paired, rfl⟩))
    | data paired => exact .inr (.inr (.inr ⟨_, _, paired, rfl⟩))

/-- Each identifier has the width of its field, and no number is too great for its field. -/
structure Fills (layout : Layout) (sent : Beacon) : Prop where
  ids : sent.ids.map (·.bytes.length) = layout.identifiers.map (·.span.width)
  data : ∀ place n, (place, n) ∈ layout.dataFields.zip sent.data → n.toNat < 256 ^ place.span.width

/-- Each value is found where its place lies in bytes that are aligned at `align`. -/
def Restores (layout : Layout) (sent : Beacon) (bytes : Bytes) (align : Nat) : Prop :=
  ∀ place value, layout.Writes sent place value →
    Bytes.fit value.length (place.read bytes align) = value

/-- The beacon that was received is the one that was sent. -/
structure Returns (layout : Layout) (sent received : Beacon) : Prop where
  ids : received.ids = sent.ids
  data : received.data = sent.data
  txPower : received.txPower = sent.txPower
  serviceUuid : received.serviceUuid = layout.serviceUuid

theorem Writes.value_lt {layout : Layout} {sent : Beacon} {place : Place} {value : Bytes}
    (writes : layout.Writes sent place value) (wf : layout.WellFormed) (fills : layout.Fills sent) :
    Bytes.value value < 256 ^ place.span.width := by
  cases writes with
  | matcher =>
    rw [← wf.matcher_length]
    exact Bytes.value_lt _
  | power =>
    have single := Bytes.value_lt [sent.txPower.toUInt8]
    exact Nat.lt_of_lt_of_le single (Nat.pow_le_pow_right (by decide) (Span.width_pos _))
  | identifier paired =>
    rw [← eq_of_mem_zip fills.ids paired]
    exact Bytes.value_lt _
  | data paired =>
    rw [Bytes.value_ofNat]
    exact Nat.lt_of_le_of_lt (Nat.mod_le _ _) (fills.data _ _ paired)

section Restored

variable {layout : Layout} {sent : Beacon} {bytes : Bytes} {reception : Reception} {align : Nat}
  {received : Beacon}

theorem restored_matcher_iff (wf : layout.WellFormed)
    (inside : align + layout.lastOffset < bytes.length) :
    Bytes.fit layout.matcher.expected.length
        (Place.read ⟨layout.matcher.span, .big⟩ bytes align) = layout.matcher.expected ↔
      layout.matcher.expected <+: bytes.drop (align + layout.matcher.span.first) := by
  have last : layout.matcher.span.last ≤ layout.lastOffset := le_lastOffset wf.matcher_mem
  have width : (Place.read ⟨layout.matcher.span, .big⟩ bytes align).length =
      layout.matcher.expected.length :=
    (Place.length_read (Nat.lt_of_le_of_lt (Nat.add_le_add_left last align) inside)).trans
      wf.matcher_length.symm
  rw [← width, Bytes.fit_length, List.prefix_iff_eq_take, eq_comm, wf.matcher_length]
  rfl

theorem restored_power_iff (reads : layout.ReadsAt bytes reception align received) :
    Bytes.fit 1 (Place.read ⟨layout.power, .big⟩ bytes align) = [sent.txPower.toUInt8] ↔
      received.txPower = sent.txPower := by
  rw [Bytes.fit_one, reads.txPower, List.singleton_inj]
  constructor
  · intro same
    rw [same, Int8.toInt8_toUInt8]
  · intro same
    rw [← same, UInt8.toUInt8_toInt8]

theorem restored_ids_iff (fills : layout.Fills sent) (encodable : layout.Encodable sent)
    (inside : align + layout.lastOffset < bytes.length)
    (reads : layout.ReadsAt bytes reception align received) :
    (∀ place id, (place, id) ∈ layout.identifiers.zip sent.ids →
      Bytes.fit id.bytes.length (place.read bytes align) = id.bytes) ↔ received.ids = sent.ids := by
  rw [← List.map_inj_right fun _ _ => Identifier.bytes_inj, reads.ids, eq_comm,
    map_eq_map_iff_of_zip encodable.ids.symm]
  refine forall₃_congr fun place id paired => ?_
  have last := last_le_of_mem_identifiers (List.of_mem_zip paired).1
  have width : (place.read bytes align).length = id.bytes.length :=
    (Place.length_read (by omega)).trans (eq_of_mem_zip fills.ids paired).symm
  rw [← width, Bytes.fit_length, eq_comm]

theorem restored_data_iff (encodable : layout.Encodable sent)
    (reads : layout.ReadsAt bytes reception align received) :
    (∀ place n, (place, n) ∈ layout.dataFields.zip sent.data →
      Bytes.fit 8 (place.read bytes align) = Bytes.ofNat 8 n.toNat) ↔
      received.data = sent.data := by
  have values := map_eq_map_iff_of_zip (f := fun place => Bytes.word (place.read bytes align))
    (g := id) encodable.data.symm
  rw [List.map_id] at values
  rw [reads.data, eq_comm, values]
  refine forall₃_congr fun place n _ => ?_
  rw [Bytes.fit_eight, Bytes.ofNat_eight_inj, eq_comm, id]

/-- The layout is recognised and the beacon that is read is the one that was sent if and only if
every value is found at its place. -/
theorem restores_iff (wf : layout.WellFormed) (fills : layout.Fills sent)
    (encodable : layout.Encodable sent) (inside : align + layout.lastOffset < bytes.length)
    (reads : layout.ReadsAt bytes reception align received) :
    layout.Restores sent bytes align ↔
      layout.matcher.expected <+: bytes.drop (align + layout.matcher.span.first) ∧
        layout.Returns sent received := by
  have matcher := restored_matcher_iff wf inside
  have power : _ ↔ received.txPower = sent.txPower := restored_power_iff reads
  have ids := restored_ids_iff fills encodable inside reads
  have data := restored_data_iff encodable reads
  constructor
  · intro restores
    exact ⟨matcher.mp (restores _ _ .matcher),
      ids.mp fun _ _ paired => restores _ _ (.identifier paired),
      data.mp fun _ _ paired => by simpa using restores _ _ (.data paired),
      power.mp (restores _ _ .power), reads.serviceUuid⟩
  · rintro ⟨found, returns⟩ place value writes
    cases writes with
    | matcher => exact matcher.mpr found
    | power => exact power.mpr returns.txPower
    | identifier paired => exact ids.mpr returns.ids _ _ paired
    | data paired => simpa using data.mpr returns.data _ _ paired

end Restored

end Layout

end Proximity
