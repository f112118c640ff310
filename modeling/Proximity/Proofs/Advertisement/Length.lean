import Proximity.Proofs.Advertisement.Framing

/-! How long an advertisement gets. The longest body decides whether it can be framed, and what was
framed is sent behind length bytes that lose nothing. -/

namespace Proximity

namespace AdStructure

/-- The byte that counts the type and the body. -/
def lengthByte (s : AdStructure) : UInt8 := UInt8.ofNat (s.body.length + 1)

theorem toBytes_eq_cons (s : AdStructure) : s.toBytes = s.lengthByte :: s.kind :: s.body := rfl

theorem toNat_lengthByte (s : AdStructure) : s.lengthByte.toNat = s.body.length + 1 := by
  have short := s.body_length_le
  unfold maxBodyLength at short
  rw [lengthByte, UInt8.toNat_ofNat']
  omega

theorem length_flatMap_toBytes (structures : List AdStructure) :
    (structures.flatMap toBytes).length =
      (structures.map (·.lengthByte.toNat)).sum + structures.length := by
  induction structures with
  | nil => rfl
  | cons s structures ih =>
    rw [List.flatMap_cons, List.length_append, ih, toBytes_eq_cons, List.map_cons, List.sum_cons,
      toNat_lengthByte, List.length_cons, List.length_cons, List.length_cons]
    omega

theorem ofBody_of_length_le {kind : UInt8} {body : Bytes} (short : body.length ≤ maxBodyLength) :
    ofBody kind body = .ok ⟨kind, body, short⟩ := dif_pos short

theorem ofBody_of_lt_length {kind : UInt8} {body : Bytes} (long : maxBodyLength < body.length) :
    ofBody kind body = .error (.bodyTooLong body.length) := dif_neg (by omega)

end AdStructure

namespace Advertisement

/-- What is sent, each structure behind a byte that counts its type and its body. -/
structure Sends (advertisement : Advertisement) (structures : List AdStructure) (bytes : Bytes) :
    Prop where
  framed : advertisement.structures = .ok structures
  sent : advertisement.toBytes = .ok bytes
  counted : ∀ s ∈ structures, s.toBytes.head? = some s.lengthByte ∧
    s.lengthByte.toNat = s.body.length + 1
  length : bytes.length = (structures.map (·.lengthByte.toNat)).sum + structures.length

theorem exists_sends {advertisement : Advertisement} {structures : List AdStructure}
    (h : advertisement.structures = .ok structures) :
    ∃ bytes, advertisement.Sends structures bytes := by
  refine ⟨structures.flatMap AdStructure.toBytes, h, ?_, ?_, ?_⟩
  · rw [toBytes, h]
    rfl
  · exact fun s _ => ⟨rfl, s.toNat_lengthByte⟩
  · exact AdStructure.length_flatMap_toBytes structures

theorem length_uuidBytes (uuid : UInt32) :
    (uuidBytes uuid).length = if uuid.toNat < UInt16.size then 2 else 4 := by
  rw [uuidBytes, ByteOrder.length_arrange, Bytes.length_ofNat]

theorem length_uuidBytes_le (uuid : UInt32) : (uuidBytes uuid).length ≤ maxBodyLength := by
  rw [length_uuidBytes]
  split <;> decide

/-- Only the structure that holds the payload can be too long. -/
theorem structures_eq_map (advertisement : Advertisement) : ∃ kind front,
    advertisement.structures =
      (AdStructure.ofBody kind (advertisement.header ++ advertisement.payload)).map
        fun s => front ++ [s] := by
  cases advertisement with
  | manufacturer company payload =>
    exact ⟨AdStructure.manufacturerKind, [], bind_pure_eq_map _ _⟩
  | service uuid payload =>
    refine ⟨if uuid.toNat < UInt16.size then AdStructure.serviceData16Kind
        else AdStructure.serviceData32Kind,
      [⟨if uuid.toNat < UInt16.size then AdStructure.allUuids16Kind
        else AdStructure.allUuids32Kind, uuidBytes uuid, length_uuidBytes_le uuid⟩], ?_⟩
    simp only [structures, header, Advertisement.payload]
    rw [AdStructure.ofBody_of_length_le (length_uuidBytes_le uuid)]
    exact bind_pure_eq_map _ _

end Advertisement

namespace Layout

/-- The length of the longest body that is framed: that of the payload behind the company code or
the service UUID. -/
def bodyLength (layout : Layout) : Nat :=
  layout.lastOffset - 1 + if layout.serviceUuid.any (0xFFFF < ·.toNat) then 4 else 2

/-- How the encoded payload is framed. -/
def frame (layout : Layout) (beacon : Beacon) (payload : Bytes) : Advertisement :=
  match layout.serviceUuid with
  | some uuid => .service uuid payload
  | none => .manufacturer beacon.manufacturer payload

theorem length_frame {layout : Layout} {beacon : Beacon} {payload : Bytes}
    (encodes : layout.encode beacon = .ok payload) :
    ((layout.frame beacon payload).header ++ (layout.frame beacon payload).payload).length =
      layout.bodyLength := by
  have length : payload.length = layout.lastOffset - 1 := length_of_encode encodes
  rw [List.length_append, Nat.add_comm, frame, bodyLength]
  cases layout.serviceUuid with
  | none =>
    simp [Advertisement.header, Advertisement.payload, length]
  | some uuid =>
    simp only [Advertisement.header, Advertisement.payload, length,
      Advertisement.length_uuidBytes, Option.any_some, decide_eq_true_eq, UInt16.size]
    split <;> split <;> omega

theorem advertise_of_encode {layout : Layout} {beacon : Beacon} {payload : Bytes}
    (encodes : layout.encode beacon = .ok payload) :
    layout.advertise beacon =
      (layout.frame beacon payload).structures.map fun _ => layout.frame beacon payload := by
  rw [advertise, encodes]
  exact bind_pure_eq_map _ _

/-- What is encoded is advertised unless its longest body has more than 254 bytes. -/
theorem advertise_eq_ite {layout : Layout} {beacon : Beacon} {payload : Bytes}
    (encodes : layout.encode beacon = .ok payload) :
    layout.advertise beacon = if layout.bodyLength ≤ 254 then .ok (layout.frame beacon payload)
      else .error (.bodyTooLong layout.bodyLength) := by
  have length := length_frame encodes
  obtain ⟨kind, front, structures⟩ := (layout.frame beacon payload).structures_eq_map
  rw [advertise_of_encode encodes, structures, ← length]
  split
  · rename_i short
    rw [AdStructure.ofBody_of_length_le short]
    rfl
  · rename_i long
    rw [AdStructure.ofBody_of_lt_length (Nat.lt_of_not_le long)]
    rfl

/-- Advertising fails as encoding does, or else exactly where the longest body has more than 254
bytes. What it gives can be sent. -/
theorem advertise_outcome (layout : Layout) (beacon : Beacon) :
    (∀ e, layout.encode beacon = .error e → layout.advertise beacon = .error e) ∧
    (∀ payload, layout.encode beacon = .ok payload →
      (∀ n, layout.advertise beacon = .error (.bodyTooLong n) ↔
        n = layout.bodyLength ∧ 254 < layout.bodyLength) ∧
      ((∃ advertisement, layout.advertise beacon = .ok advertisement) ↔
        layout.bodyLength ≤ 254)) ∧
    ∀ advertisement, layout.advertise beacon = .ok advertisement →
      ∃ structures bytes, advertisement.Sends structures bytes := by
  refine ⟨fun e fails => ?_, fun payload encodes => ?_, fun advertisement advertised => ?_⟩
  · rw [advertise, fails]
    rfl
  · rw [advertise_eq_ite encodes]
    split
    · rename_i short
      simp [short]
    · rename_i long
      simp [eq_comm, long, Nat.lt_of_not_le long]
  · obtain ⟨_, structures, _, frames, _⟩ := advertise_eq_ok advertised
    exact ⟨structures, Advertisement.exists_sends frames⟩

/-- A layout with a service UUID of four bytes and a number at the far end. -/
def reaching (source : String) (far : Span) : Layout where
  source := source
  fields := [.service ⟨.behind 0 3, [0, 1, 0, 0]⟩, .matcher ⟨.behind 2 0, [1]⟩,
    .identifier ⟨.behind 3 0, .big⟩, .power (.behind 4 0), .data ⟨far, .big⟩]
  matcher := ⟨.behind 2 0, [1]⟩
  power := .behind 4 0
  service := some ⟨.behind 0 3, [0, 1, 0, 0]⟩

/-- One byte more is one too many. -/
theorem advertise_reaching : ∃ (fits exceeds : Layout) (beacon bare : Beacon),
    compile "s:0-3=10000,m:2-2=1,i:3-3,p:4-4,d:250-251" = .ok fits ∧
    compile "s:0-3=10000,m:2-2=1,i:3-3,p:4-4,d:250-252" = .ok exceeds ∧
    (∃ advertisement structures bytes, fits.advertise beacon = .ok advertisement ∧
      advertisement.Sends structures bytes) ∧
    exceeds.advertise beacon = .error (.bodyTooLong 255) ∧
    fits.advertise bare = .error (.dataCount 1 0) := by
  let fits := reaching "s:0-3=10000,m:2-2=1,i:3-3,p:4-4,d:250-251" (.behind 250 1)
  let exceeds := reaching "s:0-3=10000,m:2-2=1,i:3-3,p:4-4,d:250-252" (.behind 250 2)
  let bare : Beacon :=
    { ids := [⟨[1], by decide⟩], ids_ne_nil := by decide, txPower := -59, rssi := 0 }
  let beacon : Beacon := { bare with data := [7] }
  obtain ⟨short, encodesShort⟩ : ∃ payload, fits.encode beacon = .ok payload :=
    ⟨_, encode_eq_ok_iff.mpr ⟨⟨rfl, rfl, by decide⟩, rfl⟩⟩
  obtain ⟨long, encodesLong⟩ : ∃ payload, exceeds.encode beacon = .ok payload :=
    ⟨_, encode_eq_ok_iff.mpr ⟨⟨rfl, rfl, by decide⟩, rfl⟩⟩
  have outcome := advertise_outcome fits beacon
  obtain ⟨advertisement, advertised⟩ :=
    (outcome.2.1 short encodesShort).2.mpr (show fits.bodyLength ≤ 254 by decide)
  obtain ⟨structures, bytes, sends⟩ := outcome.2.2 advertisement advertised
  exact ⟨fits, exceeds, beacon, bare, by rfl, by rfl,
    ⟨advertisement, structures, bytes, advertised, sends⟩,
    (((advertise_outcome exceeds beacon).2.1 long encodesLong).1 255).mpr
      ⟨rfl, show 254 < exceeds.bodyLength by decide⟩,
    (advertise_outcome fits bare).1 _ rfl⟩

end Layout

end Proximity
