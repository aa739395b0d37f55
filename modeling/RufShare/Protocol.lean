import RufShare.Types

/-!
# The packets of the protocol

`protocol.h`: four packets, packed into network byte order to be sent and converted back when received, and the bytes each
of them takes in memory. The structures have no padding: their fields fall on their natural alignment. The host is
little-endian, so `htons` and `htonl` swap bytes and a field lies in memory with its low byte first.
-/

namespace RufShare

/-! ## Byte order -/

/-- The bytes of a 16-bit field in memory. -/
def bytes16 (x : UInt16) : Bytes := [x.toUInt8, UInt8.ofNat (x.toNat / 256)]

/-- The bytes of a 32-bit field in memory. -/
def bytes32 (x : UInt32) : Bytes :=
  [x.toUInt8, UInt8.ofNat (x.toNat / 256), UInt8.ofNat (x.toNat / 65536), UInt8.ofNat (x.toNat / 16777216)]

/-- The 16-bit field that lies in memory as these bytes. -/
def field16 (a b : UInt8) : UInt16 := UInt16.ofNat (a.toNat + 256 * b.toNat)

/-- The 32-bit field that lies in memory as these bytes. -/
def field32 (a b c d : UInt8) : UInt32 :=
  UInt32.ofNat (a.toNat + 256 * b.toNat + 65536 * c.toNat + 16777216 * d.toNat)

def htons (x : UInt16) : UInt16 := field16 (UInt8.ofNat (x.toNat / 256)) x.toUInt8

def htonl (x : UInt32) : UInt32 :=
  field32 (UInt8.ofNat (x.toNat / 16777216)) (UInt8.ofNat (x.toNat / 65536)) (UInt8.ofNat (x.toNat / 256))
    x.toUInt8

/-- `ntohs` is the swap `htons` is. -/
def ntohs (x : UInt16) : UInt16 := htons x

/-- `ntohl` is the swap `htonl` is. -/
def ntohl (x : UInt32) : UInt32 := htonl x

theorem toNat_field16 (a b : UInt8) : (field16 a b).toNat = a.toNat + 256 * b.toNat := by
  have ha := a.toNat_lt
  have hb := b.toNat_lt
  rw [field16, UInt16.toNat_ofNat', Nat.mod_eq_of_lt (by omega)]

theorem toNat_field32 (a b c d : UInt8) :
    (field32 a b c d).toNat = a.toNat + 256 * b.toNat + 65536 * c.toNat + 16777216 * d.toNat := by
  have ha := a.toNat_lt
  have hb := b.toNat_lt
  have hc := c.toNat_lt
  have hd := d.toNat_lt
  rw [field32, UInt32.toNat_ofNat', Nat.mod_eq_of_lt (by omega)]

/-- A byte is what remains of a number modulo 256. -/
theorem ofNat_eq_of_mod {n : Nat} {a : UInt8} (h : n % 256 = a.toNat) : UInt8.ofNat n = a := by
  apply UInt8.toNat_inj.1
  rw [UInt8.toNat_ofNat']
  exact h

theorem toUInt8_field16 (a b : UInt8) : (field16 a b).toUInt8 = a := by
  have ha := a.toNat_lt
  apply UInt8.toNat_inj.1
  rw [UInt16.toNat_toUInt8, toNat_field16]
  omega

theorem toUInt8_field32 (a b c d : UInt8) : (field32 a b c d).toUInt8 = a := by
  have ha := a.toNat_lt
  apply UInt8.toNat_inj.1
  rw [UInt32.toNat_toUInt8, toNat_field32]
  omega

/-- The bytes a 16-bit field was made of. -/
theorem bytes16_field16 (a b : UInt8) : bytes16 (field16 a b) = [a, b] := by
  have ha := a.toNat_lt
  have hb := b.toNat_lt
  rw [bytes16, toUInt8_field16, toNat_field16, ofNat_eq_of_mod (a := b) (by omega)]

/-- The bytes a 32-bit field was made of. -/
theorem bytes32_field32 (a b c d : UInt8) : bytes32 (field32 a b c d) = [a, b, c, d] := by
  have ha := a.toNat_lt
  have hb := b.toNat_lt
  have hc := c.toNat_lt
  have hd := d.toNat_lt
  rw [bytes32, toUInt8_field32, toNat_field32, ofNat_eq_of_mod (a := b) (by omega),
    ofNat_eq_of_mod (a := c) (by omega), ofNat_eq_of_mod (a := d) (by omega)]

@[simp] theorem field16_bytes16 (x : UInt16) : field16 x.toUInt8 (UInt8.ofNat (x.toNat / 256)) = x := by
  have hx := x.toNat_lt
  apply UInt16.toNat_inj.1
  simp only [toNat_field16, UInt8.toNat_ofNat', UInt16.toNat_toUInt8]
  omega

@[simp] theorem field32_bytes32 (x : UInt32) :
    field32 x.toUInt8 (UInt8.ofNat (x.toNat / 256)) (UInt8.ofNat (x.toNat / 65536))
      (UInt8.ofNat (x.toNat / 16777216)) = x := by
  have hx := x.toNat_lt
  apply UInt32.toNat_inj.1
  simp only [toNat_field32, UInt8.toNat_ofNat', UInt32.toNat_toUInt8]
  omega

/-- Swapping the bytes twice gives the field back. -/
@[simp] theorem ntohs_htons (x : UInt16) : ntohs (htons x) = x := by
  have h := bytes16_field16 (UInt8.ofNat (x.toNat / 256)) x.toUInt8
  simp only [bytes16, List.cons.injEq, and_true] at h
  rw [ntohs, htons, htons, h.1, h.2, field16_bytes16]

@[simp] theorem ntohl_htonl (x : UInt32) : ntohl (htonl x) = x := by
  have h := bytes32_field32 (UInt8.ofNat (x.toNat / 16777216)) (UInt8.ofNat (x.toNat / 65536))
    (UInt8.ofNat (x.toNat / 256)) x.toUInt8
  simp only [bytes32, List.cons.injEq, and_true] at h
  rw [ntohl, htonl, htonl, h.1, h.2.1, h.2.2.1, h.2.2.2, field32_bytes32]

/-! ## The packets -/

/-- The four types of packet. -/
inductive PacketType where
  | cast | flow | send | recv
  deriving DecidableEq, Repr

/-- `CAST`, `FLOW`, `SEND` and `RECV`: the first byte of a packet. -/
def PacketType.code : PacketType → UInt8
  | .cast => 0x11
  | .flow => 0x22
  | .send => 0x33
  | .recv => 0x44

/-- The packet types have distinct codes. -/
theorem PacketType.code_inj {a b : PacketType} (h : a.code = b.code) : a = b := by
  cases a <;> cases b <;> first | rfl | exact absurd h (by decide)

structure CastPacket where
  type : UInt8
  pad0 : UInt8
  crc : UInt16
  deriving DecidableEq, Repr

structure FlowPacket where
  type : UInt8
  pad0 : UInt8
  chunkSize : UInt16
  sequence : UInt32
  crc : UInt32
  deriving DecidableEq, Repr

structure SendPacket where
  type : UInt8
  pad0 : UInt8
  chunkSize : UInt16
  chunkCount : UInt32
  partialChunkSize : UInt16
  crc : UInt16
  deriving DecidableEq, Repr

structure RecvPacket where
  type : UInt8
  ack : UInt8
  crc : UInt16
  sequence : UInt32
  deriving DecidableEq, Repr

/-- `pack_RUFShare_CastPacket`. -/
def packCastPacket (crc : UInt16) : CastPacket := { type := PacketType.code .cast, pad0 := 0, crc := htons crc }

/-- `pack_RUFShare_FlowPacket`. -/
def packFlowPacket (chunkSize : UInt16) (sequence crc : UInt32) : FlowPacket :=
  { type := PacketType.code .flow, pad0 := 0, chunkSize := htons chunkSize, sequence := htonl sequence, crc := htonl crc }

/-- `pack_RUFShare_SendPacket`. -/
def packSendPacket (chunkSize : UInt16) (chunkCount : UInt32) (partialChunkSize crc : UInt16) : SendPacket :=
  { type := PacketType.code .send, pad0 := 0, chunkSize := htons chunkSize, chunkCount := htonl chunkCount,
    partialChunkSize := htons partialChunkSize, crc := htons crc }

/-- `pack_RUFShare_RecvPacket`. -/
def packRecvPacket (ack : UInt8) (crc : UInt16) (sequence : UInt32) : RecvPacket :=
  { type := PacketType.code .recv, ack := ack, crc := htons crc, sequence := htonl sequence }

/-- `convert_CastPacket_byteorder`. -/
def convertCastPacket (p : CastPacket) : CastPacket := { type := p.type, pad0 := 0, crc := ntohs p.crc }

/-- `convert_FlowPacket_byteorder`. -/
def convertFlowPacket (p : FlowPacket) : FlowPacket :=
  { type := p.type, pad0 := 0, chunkSize := ntohs p.chunkSize, sequence := ntohl p.sequence, crc := ntohl p.crc }

/-- `convert_SendPacket_byteorder`. -/
def convertSendPacket (p : SendPacket) : SendPacket :=
  { type := p.type, pad0 := 0, chunkSize := ntohs p.chunkSize, chunkCount := ntohl p.chunkCount,
    partialChunkSize := ntohs p.partialChunkSize, crc := ntohs p.crc }

/-- `convert_RecvPacket_byteorder`. -/
def convertRecvPacket (p : RecvPacket) : RecvPacket :=
  { type := p.type, ack := p.ack, crc := ntohs p.crc, sequence := ntohl p.sequence }

/-! ## The packets in memory -/

/-- `sizeof` of each packet. -/
def PacketType.size : PacketType → Nat
  | .cast => 4
  | .flow => 12
  | .send => 12
  | .recv => 8

/-- The bytes of a `CastPacket` in memory. -/
def CastPacket.bytes (p : CastPacket) : Bytes := [p.type, p.pad0] ++ bytes16 p.crc

/-- The bytes of a `FlowPacket` in memory. -/
def FlowPacket.bytes (p : FlowPacket) : Bytes :=
  [p.type, p.pad0] ++ bytes16 p.chunkSize ++ bytes32 p.sequence ++ bytes32 p.crc

/-- The bytes of a `SendPacket` in memory. -/
def SendPacket.bytes (p : SendPacket) : Bytes :=
  [p.type, p.pad0] ++ bytes16 p.chunkSize ++ bytes32 p.chunkCount ++ bytes16 p.partialChunkSize ++ bytes16 p.crc

/-- The bytes of a `RecvPacket` in memory. -/
def RecvPacket.bytes (p : RecvPacket) : Bytes := [p.type, p.ack] ++ bytes16 p.crc ++ bytes32 p.sequence

/-- The byte of a buffer at an index; a buffer is read only where it was filled. -/
def byteAt (b : Bytes) (i : Nat) : UInt8 := b.getD i 0

/-- The `CastPacket` these bytes of memory hold. -/
def CastPacket.ofBytes (b : Bytes) : CastPacket :=
  { type := byteAt b 0, pad0 := byteAt b 1, crc := field16 (byteAt b 2) (byteAt b 3) }

/-- The `FlowPacket` these bytes of memory hold. -/
def FlowPacket.ofBytes (b : Bytes) : FlowPacket :=
  { type := byteAt b 0, pad0 := byteAt b 1, chunkSize := field16 (byteAt b 2) (byteAt b 3),
    sequence := field32 (byteAt b 4) (byteAt b 5) (byteAt b 6) (byteAt b 7),
    crc := field32 (byteAt b 8) (byteAt b 9) (byteAt b 10) (byteAt b 11) }

/-- The `SendPacket` these bytes of memory hold. -/
def SendPacket.ofBytes (b : Bytes) : SendPacket :=
  { type := byteAt b 0, pad0 := byteAt b 1, chunkSize := field16 (byteAt b 2) (byteAt b 3),
    chunkCount := field32 (byteAt b 4) (byteAt b 5) (byteAt b 6) (byteAt b 7),
    partialChunkSize := field16 (byteAt b 8) (byteAt b 9), crc := field16 (byteAt b 10) (byteAt b 11) }

/-- The `RecvPacket` these bytes of memory hold. -/
def RecvPacket.ofBytes (b : Bytes) : RecvPacket :=
  { type := byteAt b 0, ack := byteAt b 1, crc := field16 (byteAt b 2) (byteAt b 3),
    sequence := field32 (byteAt b 4) (byteAt b 5) (byteAt b 6) (byteAt b 7) }

@[simp] theorem CastPacket.length_bytes (p : CastPacket) : p.bytes.length = PacketType.size .cast := rfl

@[simp] theorem FlowPacket.length_bytes (p : FlowPacket) : p.bytes.length = PacketType.size .flow := rfl

@[simp] theorem SendPacket.length_bytes (p : SendPacket) : p.bytes.length = PacketType.size .send := rfl

@[simp] theorem RecvPacket.length_bytes (p : RecvPacket) : p.bytes.length = PacketType.size .recv := rfl

/-- What a `CastPacket` left in memory is read back as. -/
@[simp] theorem CastPacket.ofBytes_bytes (p : CastPacket) : CastPacket.ofBytes p.bytes = p := by
  simp [CastPacket.ofBytes, CastPacket.bytes, bytes16, byteAt]

/-- What a `FlowPacket` left in memory is read back as. -/
@[simp] theorem FlowPacket.ofBytes_bytes (p : FlowPacket) : FlowPacket.ofBytes p.bytes = p := by
  simp [FlowPacket.ofBytes, FlowPacket.bytes, bytes16, bytes32, byteAt]

/-- What a `SendPacket` left in memory is read back as. -/
@[simp] theorem SendPacket.ofBytes_bytes (p : SendPacket) : SendPacket.ofBytes p.bytes = p := by
  simp [SendPacket.ofBytes, SendPacket.bytes, bytes16, bytes32, byteAt]

/-- What a `RecvPacket` left in memory is read back as. -/
@[simp] theorem RecvPacket.ofBytes_bytes (p : RecvPacket) : RecvPacket.ofBytes p.bytes = p := by
  simp [RecvPacket.ofBytes, RecvPacket.bytes, bytes16, bytes32, byteAt]

end RufShare
