import Proximity.Monitor
import Proximity.Proofs.Advertisement

/-! What a monitor makes of an advertisement with its own layout. It reads the beacon in the
structure that holds the payload, unless the layout is found in the whole data first: where the data
of a service is behind a list of UUIDs, bytes of the framing may be taken for a matcher. -/

namespace Proximity

namespace Layout

/-- The identifiers, numbers and power of the beacon are those that the data is decoded to, however
it was received. -/
def Yields (layout : Layout) (data : Bytes) (beacon : Beacon) : Prop :=
  ∀ reception, ∃ reading, layout.decode data reception = some reading ∧
    beacon.ids = reading.ids ∧ beacon.data = reading.data ∧ beacon.txPower = reading.txPower

/-- What is decoded does not depend on how it was received. -/
theorem WellFormed.yields_of_decode {layout : Layout} (wf : layout.WellFormed) {data : Bytes}
    {reception : Reception} {beacon : Beacon} (h : layout.decode data reception = some beacon) :
    layout.Yields data beacon := by
  intro other
  obtain ⟨align, aligned, inside, reads⟩ := wf.decode_eq_some h
  obtain ⟨reading, decodes, same⟩ := wf.exists_decode other aligned inside
  refine ⟨reading, decodes, ?_, ?_, ?_⟩
  · have ids := reads.ids.trans same.ids.symm
    exact (List.map_inj_right fun _ _ => Identifier.bytes_inj).mp ids
  · rw [reads.data, same.data]
  · rw [reads.txPower, same.txPower]

theorem WellFormed.foundIn_of_decode {layout : Layout} (wf : layout.WellFormed) {data : Bytes}
    {reception : Reception} {beacon : Beacon} (h : layout.decode data reception = some beacon) :
    layout.FoundIn data := by
  obtain ⟨align, aligned, -⟩ := wf.decode_eq_some h
  exact ⟨align, (wf.alignment?_eq_some_iff.mp aligned).1⟩

section Advertised

variable {layout : Layout} {sent : Beacon} {advertisement : Advertisement}
  {structures : List AdStructure} {last : AdStructure} (wf : layout.WellFormed)
  (service : ∀ pattern ∈ layout.service, pattern.span.first = 0 ∧ pattern.span.last = 1)
  (advertised : layout.advertise sent = .ok advertisement)
  (frames : advertisement.structures = .ok structures) (isLast : structures.getLast? = some last)

include advertised frames isLast

/-- Without a service the structure that holds the payload is all there is. -/
theorem toBytes_last_eq (absent : layout.service = none) :
    structures.flatMap AdStructure.toBytes = last.toBytes := by
  obtain ⟨payload, -, -, -, rfl⟩ := advertise_eq_ok advertised
  rw [serviceUuid, absent] at frames
  obtain ⟨s, rfl, -⟩ := Advertisement.structures_manufacturer frames
  cases isLast
  simp

include wf service

theorem exists_decode_last (reception : Reception)
    (disjoint : layout.payloadFields.Pairwise fun a b => a.place.span.Disjoint b.place.span) :
    ∃ beacon, layout.decode last.toBytes reception = some beacon := by
  obtain ⟨payload, _, encodes, -, framed⟩ := advertise_eq_ok advertised
  have agree := (encode_eq_ok_iff.mp encodes).1.agree disjoint
  obtain ⟨carried, short, reversed, -⟩ := wf.header_spells service framed
  obtain ⟨other, same, body⟩ := Advertisement.exists_last frames
  obtain rfl : last = other := Option.some.inj (isLast.symm.trans same)
  obtain ⟨front, two, bytes⟩ := last.exists_front
  rw [body, carried, ← List.append_nil payload] at bytes
  have found : layout.FoundAt last.toBytes 2 := by
    rw [bytes, ← two]
    exact wf.foundAt_framed encodes agree short
      fun pattern member => ⟨(service pattern member).1, reversed pattern member⟩
  have inside : 2 + layout.lastOffset < last.toBytes.length := by
    rw [bytes]
    simp only [List.length_append, two, short, length_of_encode encodes, payloadLength,
      headerLength, List.length_nil]
    omega
  obtain ⟨beacon, decodes, -⟩ :=
    wf.exists_decode reception (wf.alignment?_of_foundAt_two found) inside
  exact ⟨beacon, decodes⟩

omit isLast

/-- The data of a service is behind four bytes that list it, so that no place that is tried is too
late for all fields to lie in the whole data. -/
theorem le_length_of_service {pattern : Pattern} (present : layout.service = some pattern) :
    layout.lastOffset + 7 ≤ (structures.flatMap AdStructure.toBytes).length := by
  obtain ⟨payload, -, encodes, -, framed⟩ := advertise_eq_ok advertised
  obtain ⟨-, short, -⟩ := wf.header_spells service framed
  rw [serviceUuid, present, Option.map_some] at framed
  dsimp only at framed
  subst framed
  obtain ⟨listed, s, rfl, -, listBody, -, body⟩ := Advertisement.structures_service frames
  simp only [Advertisement.header, headerLength] at short
  simp only [List.flatMap_cons, List.flatMap_nil, List.length_append, AdStructure.toBytes,
    List.length_cons, List.length_nil, listBody, body, short, length_of_encode encodes,
    payloadLength, headerLength]
  omega

/-- The data of a service as a whole is decoded where the layout is found in it. -/
theorem exists_decode_whole (reception : Reception) (present : layout.service ≠ none)
    (found : layout.FoundIn (structures.flatMap AdStructure.toBytes)) :
    ∃ beacon, layout.decode (structures.flatMap AdStructure.toBytes) reception = some beacon := by
  obtain ⟨pattern, present⟩ := Option.ne_none_iff_exists'.mp present
  have long := le_length_of_service wf service advertised frames present
  cases aligned : layout.alignment? (structures.flatMap AdStructure.toBytes) with
  | none => exact absurd found (wf.alignment?_eq_none_iff.mp aligned)
  | some align =>
    have early := (wf.alignment?_eq_some_iff.mp aligned).1.1.2
    obtain ⟨beacon, decodes, -⟩ := wf.exists_decode reception aligned (by omega)
    exact ⟨beacon, decodes⟩

end Advertised

end Layout

namespace Monitor

variable {monitor : Monitor} {received : Received}

/-- What is decoded of what is admitted is reported, with its mean signal strength. -/
theorem process_eq_some {beacon : Beacon} (now : Nanoseconds)
    (decodes : monitor.decode received = some beacon)
    (admits : monitor.config.admits received.rssi = true) :
    ∃ averageRssi, (monitor.process now received).2 = some { beacon with averageRssi } := by
  rw [process, admits, decodes]
  exact ⟨_, rfl⟩

theorem decode_structures {layout : Layout} {advertisement : Advertisement}
    {structures : List AdStructure} {last : AdStructure} (mac : MacAddress) (rssi : Int16)
    (name : Option String) (only : monitor.layouts = [layout])
    (frames : advertisement.structures = .ok structures)
    (isLast : structures.getLast? = some last) :
    monitor.decode ⟨mac, structures.flatMap AdStructure.toBytes, rssi, name⟩ =
      (layout.decode (structures.flatMap AdStructure.toBytes) ⟨rssi, some mac.text, name⟩).or
        (layout.decode last.toBytes ⟨rssi, some mac.text, name⟩) := by
  obtain ⟨other, same, nameless, parts⟩ := Advertisement.summary_structures frames
  obtain rfl : last = other := Option.some.inj (isLast.symm.trans same)
  have unnamed : (name <|> (none : Option String)) = name := by cases name <;> rfl
  rw [decode]
  simp only [only, nameless, unnamed, parts, List.findSome?_singleton, List.map_cons, List.map_nil]
  rw [List.findSome?_cons, List.findSome?_singleton]
  cases layout.decode (structures.flatMap AdStructure.toBytes) ⟨rssi, some mac.text, name⟩ <;> rfl

/-- A monitor whose only layout an advertisement was made with recognises it. The beacon is the one
in the structure that holds the payload, unless the layout has a service UUID and is found in the
whole data: then it is the one that is found there. -/
theorem process_advertised {source : String} {layout : Layout} {sent : Beacon}
    {advertisement : Advertisement} (monitor : Monitor) (now : Nanoseconds) (mac : MacAddress)
    {rssi : Int16} (name : Option String) (compiled : Layout.compile source = .ok layout)
    (disjoint : layout.payloadFields.Pairwise fun a b => a.place.span.Disjoint b.place.span)
    (service : ∀ pattern ∈ layout.service, pattern.span.first = 0 ∧ pattern.span.last = 1)
    (advertised : layout.advertise sent = .ok advertisement) (only : monitor.layouts = [layout])
    (scanning : monitor.config.scanning = true) (strong : monitor.config.minRssi ≤ rssi) :
    ∃ data structures last beacon, advertisement.toBytes = .ok data ∧
      advertisement.structures = .ok structures ∧ structures.getLast? = some last ∧
      (monitor.process now ⟨mac, data, rssi, name⟩).2 = some beacon ∧
      (layout.service = none ∨ ¬ layout.FoundIn data → layout.Yields last.toBytes beacon) ∧
      (layout.service ≠ none ∧ layout.FoundIn data → layout.Yields data beacon) := by
  have wf := Layout.wellFormed_of_compile compiled
  obtain ⟨-, structures, -, frames, -⟩ := Layout.advertise_eq_ok advertised
  obtain ⟨last, isLast, -⟩ := Advertisement.exists_last frames
  have transmitted : advertisement.toBytes = .ok (structures.flatMap AdStructure.toBytes) := by
    rw [Advertisement.toBytes, frames]
    rfl
  have admits : monitor.config.admits rssi = true := by
    rw [Config.admits, scanning, Bool.true_and, decide_eq_true strong]
  have decodes := decode_structures mac rssi name only frames isLast
  refine ⟨structures.flatMap AdStructure.toBytes, structures, last, ?_⟩
  -- The whole data is tried first. Without a service it is the structure that holds the payload.
  cases whole : layout.decode (structures.flatMap AdStructure.toBytes)
    ⟨rssi, some mac.text, name⟩ with
  | some beacon =>
    rw [whole, Option.some_or] at decodes
    obtain ⟨averageRssi, reports⟩ := process_eq_some now decodes admits
    have yields := wf.yields_of_decode whole
    refine ⟨_, transmitted, frames, isLast, reports, ?_, fun _ => yields⟩
    rintro (absent | missing)
    · rw [Layout.toBytes_last_eq advertised frames isLast absent] at yields
      exact yields
    · exact absurd (wf.foundIn_of_decode whole) missing
  | none =>
    obtain ⟨beacon, part⟩ := Layout.exists_decode_last wf service advertised frames isLast
      ⟨rssi, some mac.text, name⟩ disjoint
    rw [whole, Option.none_or, part] at decodes
    obtain ⟨averageRssi, reports⟩ := process_eq_some now decodes admits
    have yields := wf.yields_of_decode part
    refine ⟨_, transmitted, frames, isLast, reports, fun _ => yields, ?_⟩
    rintro ⟨present, found⟩
    obtain ⟨other, same⟩ := Layout.exists_decode_whole wf service advertised frames
      ⟨rssi, some mac.text, name⟩ present found
    rw [whole] at same
    cases same

/-- The list of the service UUID is followed by a length and a type, neither of which is the type of
the layout. -/
theorem process_advertised_mixed : ∃ sent advertisement,
    Layout.compile Layout.mixed.source = .ok Layout.mixed ∧
    (Layout.mixed.payloadFields.Pairwise fun a b => a.place.span.Disjoint b.place.span) ∧
    (∀ pattern ∈ Layout.mixed.service, pattern.span.first = 0 ∧ pattern.span.last = 1) ∧
    Layout.mixed.advertise sent = .ok advertisement ∧
    ∃ data structures last beacon, advertisement.toBytes = .ok data ∧
      advertisement.structures = .ok structures ∧ structures.getLast? = some last ∧
      ((ofLayouts [Layout.mixed] [] {}).process 0 ⟨⟨#v[0, 0, 0, 0, 0, 1]⟩, data, -50, none⟩).2 =
        some beacon ∧ Layout.mixed.Yields last.toBytes beacon := by
  have compiled : Layout.compile Layout.mixed.source = .ok Layout.mixed := by rfl
  have disjoint : Layout.mixed.payloadFields.Pairwise fun a b =>
      a.place.span.Disjoint b.place.span := by
    decide
  have service : ∀ pattern ∈ Layout.mixed.service,
      pattern.span.first = 0 ∧ pattern.span.last = 1 := by
    rintro _ ⟨⟩
    exact ⟨rfl, rfl⟩
  let sent : Beacon :=
    { ids := [⟨[1, 2, 3], by decide⟩], ids_ne_nil := by decide, txPower := -59, rssi := 0
      data := [0x2345] }
  have advertised : Layout.mixed.advertise sent =
      .ok (.service 0xfeaa [1, 3, 2, 1, 0, 0xc5, 0x45, 0x23]) := by rfl
  obtain ⟨data, structures, last, beacon, transmitted, frames, isLast, reports, part, -⟩ :=
    process_advertised (ofLayouts [Layout.mixed] [] {}) 0 ⟨#v[0, 0, 0, 0, 0, 1]⟩ none compiled
      disjoint service advertised rfl rfl (by decide : (-100 : Int16) ≤ -50)
  have missing : ¬ Layout.mixed.FoundIn data := by
    cases transmitted
    exact (Layout.wellFormed_of_compile compiled).alignment?_eq_none_iff.mp (by decide)
  exact ⟨sent, _, compiled, disjoint, service, advertised, data, structures, last, beacon,
    transmitted, frames, isLast, reports, part (.inr missing)⟩

/-- A layout whose type is also the length byte of the data of the service. -/
def ambiguous : Layout where
  source := "s:0-1=feaa,m:2-2=06,i:3-3,p:4-4"
  fields := [.service ⟨.behind 0 1, [0xfe, 0xaa]⟩, .matcher ⟨.behind 2 0, [6]⟩,
    .identifier ⟨.behind 3 0, .big⟩, .power (.behind 4 0)]
  matcher := ⟨.behind 2 0, [6]⟩
  power := .behind 4 0
  service := some ⟨.behind 0 1, [0xfe, 0xaa]⟩

/-- The length byte is taken for the type, and what follows it for an identifier and a power that
were not sent. -/
theorem process_ne_decode_last :
    let sent : Beacon :=
      { ids := [⟨[7], by decide⟩], ids_ne_nil := by decide, txPower := -59, rssi := 0 }
    Layout.compile ambiguous.source = .ok ambiguous ∧
      (ambiguous.payloadFields.Pairwise fun a b => a.place.span.Disjoint b.place.span) ∧
      ambiguous.service = some ⟨.behind 0 1, [0xfe, 0xaa]⟩ ∧
      ∃ advertisement data structures last, ambiguous.advertise sent = .ok advertisement ∧
        advertisement.toBytes = .ok data ∧ advertisement.structures = .ok structures ∧
        structures.getLast? = some last ∧
        ((ambiguous.decode last.toBytes { rssi := -50 }).map fun beacon =>
          (beacon.ids.map (·.bytes), beacon.txPower)) = some ([[7]], -59) ∧
        (((ofLayouts [ambiguous] [] {}).process 0
            ⟨⟨#v[0, 0, 0, 0, 0, 1]⟩, data, -50, none⟩).2.map fun beacon =>
          (beacon.ids.map (·.bytes), beacon.txPower)) = some ([[0x16]], -86) := by
  refine ⟨by rfl, by decide, rfl, .service 0xfeaa [6, 7, 0xc5], _, _, _, by rfl, rfl, rfl, rfl, ?_,
    ?_⟩
  · decide +kernel
  · decide +kernel

end Monitor

end Proximity
