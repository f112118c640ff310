import Proximity.Proofs.Guarded.Codec
import Proximity.Proofs.Guarded.Scan

/-! Nothing faults. On a machine that counts at least `2 ^ 16` offsets, and of whose buffers none
takes more than half of them, every function on bytes computes with guarded operations what it
computes without. -/

namespace Proximity

/-- Each identifier that is decoded has as many bytes as its field, which is at least one. -/
theorem Layout.WellFormed.map_size_of_decode {layout : Layout} (wf : layout.WellFormed)
    {data : Bytes} {reception : Reception} {beacon : Beacon}
    (decodes : layout.decode data reception = some beacon) :
    beacon.ids.map Identifier.size = layout.identifiers.map (·.span.width) := by
  obtain ⟨align, -, inside, reads⟩ := wf.decode_eq_some decodes
  have sizes := congrArg (List.map List.length) reads.ids
  rw [List.map_map, List.map_map] at sizes
  refine sizes.trans (List.map_congr_left fun place member => ?_)
  have last := last_le_of_mem_identifiers member
  exact Place.length_read (by omega)

namespace Guarded

/-- Compiling, decoding, encoding and framing never fault, and neither does the walk over AD
structures, which goes forward with every structure. -/
theorem never_faults {size : Nat} (large : 2 ^ 16 ≤ size) :
    (∀ source, compile size source = .ok (Layout.compile source)) ∧
    (∀ source layout, Layout.compile source = .ok layout →
      (∀ field ∈ layout.fields, width size field.place.span = .ok field.place.span.width) ∧
      (∀ data reception, 2 * data.length ≤ size →
        decode size layout data reception = .ok (layout.decode data reception)) ∧
      (∀ beacon, encode size layout beacon = .ok (layout.encode beacon)) ∧
      ∀ data reception beacon, layout.decode data reception = some beacon →
        beacon.ids.map Identifier.size = layout.identifiers.map (·.span.width) ∧
          ∀ id ∈ beacon.ids, 0 < id.size) ∧
    (∀ s, toBytes size s = .ok s.toBytes) ∧
    (∀ buffer start stop order,
      ofRange buffer start stop order = .ok (Identifier.ofRange buffer start stop order)) ∧
    ∀ data, 2 * data.length ≤ size →
      scan size data 0 {} = .ok (Found.ofSummary (Summary.ofBytes data)) ∧
      ∀ pos found next later, step size data pos found = .ok (some (next, later)) →
        pos < next ∧ next ≤ data.length := by
  have offsets : maxOffset + 1 < size := by
    unfold maxOffset
    omega
  refine ⟨compile_eq_ok offsets, fun source layout compiled => ⟨?_, ?_, ?_, ?_⟩,
    toBytes_eq_ok (by omega), ofRange_eq_ok, fun data half => ⟨?_, fun _ _ _ _ => lt_of_step⟩⟩
  · intro field member
    have last := ((Layout.wellFormed_of_compile compiled).fields field member).last_le
    exact width_eq_ok (by omega)
  · exact fun data reception half => decode_eq_ok (by omega) compiled reception
  · exact encode_eq_ok offsets compiled
  · intro data reception beacon decodes
    exact ⟨(Layout.wellFormed_of_compile compiled).map_size_of_decode decodes,
      fun id _ => List.length_pos_iff.mpr id.bytes_ne_nil⟩
  · exact scan_eq_ok (by omega) 0 {}

/-- A layout with fields that lie in the header, that overlap and that end at the last offset. -/
def sprawling : Layout where
  source := "s:0-1=feaa,m:2-3=beac,i:3-255l,p:255-255,d:2-255"
  fields := [.service ⟨.behind 0 1, [0xfe, 0xaa]⟩, .matcher ⟨.behind 2 1, [0xbe, 0xac]⟩,
    .identifier ⟨.behind 3 252, .little⟩, .power (.behind 255 0),
    .data ⟨.behind 2 253, .big⟩]
  matcher := ⟨.behind 2 1, [0xbe, 0xac]⟩
  power := .behind 255 0
  service := some ⟨.behind 0 1, [0xfe, 0xaa]⟩

set_option maxRecDepth 2000 in
/-- With the fewest offsets, the fields are read up to the last byte of the data and written up to
the last byte of the payload, and a walk ends at a structure that lacks a byte. -/
theorem never_faults_sprawling : ∃ beacon payload,
    Layout.compile sprawling.source = .ok sprawling ∧
    decode (2 ^ 16) sprawling ([0, 0, 0xaa, 0xfe, 0xbe, 0xac] ++ List.replicate 252 7)
      { rssi := -50 } = .ok (some beacon) ∧
    beacon.ids.map Identifier.size = [253] ∧
    encode (2 ^ 16) sprawling beacon = .ok (.ok payload) ∧ payload.length = 254 ∧
    scan (2 ^ 16) [2, 1, 6, 3, 0xff, 0x18] 0 {} = .ok { flags := some 6 } := by
  obtain ⟨-, layouts, -, -, walk⟩ := never_faults (Nat.le_refl (2 ^ 16))
  have compiled : Layout.compile sprawling.source = .ok sprawling := by rfl
  obtain ⟨-, decodes, encodes, sizes⟩ := layouts _ _ compiled
  obtain ⟨beacon, payload, read, written⟩ : ∃ beacon payload, sprawling.decode
      ([0, 0, 0xaa, 0xfe, 0xbe, 0xac] ++ List.replicate 252 7) { rssi := -50 } = some beacon ∧
      sprawling.encode beacon = .ok payload := ⟨_, _, by rfl, by rfl⟩
  refine ⟨beacon, payload, compiled, ?_, (sizes _ _ _ read).1, ?_, ?_, ?_⟩
  · rw [decodes _ _ (by decide), read]
  · rw [encodes, written]
  · exact Layout.length_of_encode written
  · rw [(walk _ (by decide)).1]
    cbv

end Guarded

end Proximity
