import Mathlib.Data.List.TakeWhile
import LiveReceptor.Worker.BiliJson
import LiveReceptor.Worker.BiliPacket

namespace LiveReceptor.Worker

open SimpleWorkerProto

def hostToNetworkShort (n : Nat) : Bytes := [.ofNat (n / 256), .ofNat n]

abbrev jsonProtocol : Nat := 0
abbrev joinRoom : UInt32 := 7

-- A bilibili_packet_header as it lies in memory. Its constructor sets the header
-- length and the sequence id.
def packetHeader (length : UInt32) (protocolVersion : Nat) (opCode : UInt32) : Bytes :=
  hostToNetworkLong length ++ hostToNetworkShort packetHeaderSize ++ hostToNetworkShort protocolVersion ++
    hostToNetworkLong opCode ++ hostToNetworkLong 1

inductive FormatArgument
  | int (value : Int32)
  | string (value : Bytes)
  deriving DecidableEq, Repr

def decimalInt (value : Int32) : Bytes :=
  if value < 0 then ascii "-" ++ decimal value.toInt.natAbs else decimal value.toInt.natAbs

-- A format with the conversions %d and %s.
def expand : Bytes → List FormatArgument → Bytes
  | 37 :: 100 :: format, .int value :: arguments => decimalInt value ++ expand format arguments
  | 37 :: 115 :: format, .string value :: arguments => value ++ expand format arguments
  | c :: format, arguments => c :: expand format arguments
  | [], _ => []

-- snprintf returns the length of the whole text, if that is an int, and leaves
-- what fits in front of the final NUL.
def snprintf (size : Nat) (text : Bytes) : Int × Bytes :=
  (if text.length ≤ 2147483647 then text.length else -1, text.take (size - 1))

def joinRoomJsonFmt : Bytes :=
  ascii "\x7b\"clientver\":\"1.11.0\",\"platform\":\"web\",\"protover\":%d,\"roomid\":%d," ++
    ascii "\"uid\":0,\"type\":2,\"key\":\"%s\"\x7d"

abbrev joinRoomJsonMaxLength : Nat := 256

-- The token is read up to its first NUL, and so is the payload.
def generateJoinRoomPacket (roomId protoVer : Int32) (token : Bytes) : Bytes :=
  let (written, payload) := snprintf joinRoomJsonMaxLength
    (expand joinRoomJsonFmt [.int protoVer, .int roomId, .string (cString token)])
  let payloadSize := (written % 18446744073709551616).toNat
  packetHeader (.ofNat (packetHeaderSize + payloadSize)) jsonProtocol joinRoom ++ cString payload

-- The length of the template without its conversions.
def joinRoomJsonFixed : Nat := joinRoomJsonFmt.length - 6

-- The packet is what its header says, and its body the whole template.
structure JoinConsistent (roomId protoVer : Int32) (token : Bytes) : Prop where
  total : (generateJoinRoomPacket roomId protoVer token).length =
    (headerAt (generateJoinRoomPacket roomId protoVer token) 0).length
  headerLength : (headerAt (generateJoinRoomPacket roomId protoVer token) 0).headerLength = packetHeaderSize
  body : (generateJoinRoomPacket roomId protoVer token).drop packetHeaderSize =
    expand joinRoomJsonFmt [.int protoVer, .int roomId, .string token]
  framed : ∀ bufferSize zlib, (generateJoinRoomPacket roomId protoVer token).length ≤ bufferSize →
    turn { read := generateJoinRoomPacket roomId protoVer token, zlib }
        ⟨.read, bufferSize, 0, (generateJoinRoomPacket roomId protoVer token).length⟩ =
      .packet ⟨.read, 0, (generateJoinRoomPacket roomId protoVer token).length⟩

-- The token is a string of its own, and the whole template fits.
def TokenFits (roomId protoVer : Int32) (token : Bytes) : Prop :=
  0 ∉ token ∧ joinRoomJsonFixed + (decimalInt protoVer).length + (decimalInt roomId).length + token.length <
    joinRoomJsonMaxLength

variable {roomId protoVer : Int32} {token text : Bytes}

theorem expand_literal (h : 37 ∉ text) (format : Bytes) (arguments : List FormatArgument) :
    expand (text ++ format) arguments = text ++ expand format arguments := by
  induction text with
  | nil => rfl
  | cons c text ih =>
      obtain ⟨hc, htext⟩ := not_or.mp (mt List.mem_cons.mpr h)
      rw [List.cons_append, List.cons_append, ← ih htext]
      apply expand.eq_3 <;> exact fun _ _ _ _ hsame _ => hc hsame.symm

-- The pieces of the template around its conversions.
def beforeProtover : Bytes := ascii "\x7b\"clientver\":\"1.11.0\",\"platform\":\"web\",\"protover\":"
def beforeRoomid : Bytes := ascii ",\"roomid\":"
def beforeKey : Bytes := ascii ",\"uid\":0,\"type\":2,\"key\":\""
def behindKey : Bytes := ascii "\"\x7d"

theorem joinRoomJsonFmt_eq : joinRoomJsonFmt =
    beforeProtover ++ 37 :: 100 :: (beforeRoomid ++ 37 :: 100 :: (beforeKey ++ 37 :: 115 :: (behindKey ++ []))) := by
  decide

theorem expand_joinRoomJsonFmt (roomId protoVer : Int32) (token : Bytes) :
    expand joinRoomJsonFmt [.int protoVer, .int roomId, .string token] =
      beforeProtover ++ (decimalInt protoVer ++ (beforeRoomid ++ (decimalInt roomId ++
        (beforeKey ++ (token ++ behindKey))))) := by
  rw [joinRoomJsonFmt_eq, expand_literal (by decide), expand.eq_1, expand_literal (by decide), expand.eq_1,
    expand_literal (by decide), expand.eq_2, expand_literal (by decide)]
  rw [expand, List.append_nil]

theorem length_expand : (expand joinRoomJsonFmt [.int protoVer, .int roomId, .string token]).length =
    joinRoomJsonFixed + (decimalInt protoVer).length + (decimalInt roomId).length + token.length := by
  have hfixed : joinRoomJsonFixed =
      beforeProtover.length + (beforeRoomid.length + (beforeKey.length + behindKey.length)) := by decide
  rw [expand_joinRoomJsonFmt, hfixed]
  simp only [List.length_append]
  omega

theorem zero_notMem_decimal (n : Nat) : (0 : UInt8) ∉ decimal n :=
  fun h => absurd (digits_decimal n 0 h).1 (by decide)

theorem zero_notMem_decimalInt (value : Int32) : (0 : UInt8) ∉ decimalInt value := by
  have hdecimal := zero_notMem_decimal value.toInt.natAbs
  have hsign : (0 : UInt8) ∉ ascii "-" := by decide
  unfold decimalInt
  split
  · simp [hdecimal, hsign]
  · exact hdecimal

-- The template adds no NUL to those of the token.
theorem zero_mem_expand :
    0 ∈ expand joinRoomJsonFmt [.int protoVer, .int roomId, .string token] ↔ 0 ∈ token := by
  have hfixed : (0 : UInt8) ∉ beforeProtover ∧ (0 : UInt8) ∉ beforeRoomid ∧ (0 : UInt8) ∉ beforeKey ∧
      (0 : UInt8) ∉ behindKey := by decide
  rw [expand_joinRoomJsonFmt]
  simp [hfixed, zero_notMem_decimalInt]

theorem zero_notMem_cString (text : Bytes) : 0 ∉ cString text := by
  intro h
  have hkept := List.mem_takeWhile_imp h
  simp at hkept

theorem cString_of_notMem (h : 0 ∉ text) : cString text = text := by
  rw [cString, List.takeWhile_eq_self_iff]
  intro c hc
  exact decide_eq_true fun hzero => h (hzero ▸ hc)

theorem networkToHostShort_hostToNetworkShort {n : Nat} (h : n < 65536) (rest : Bytes) :
    networkToHostShort (hostToNetworkShort n ++ rest) = n := by
  simp only [hostToNetworkShort, List.cons_append, networkToHostShort, UInt8.toNat_ofNat']
  omega

-- What a receiver reads from the header.
theorem headerAt_packetHeader (length opCode : UInt32) {protocolVersion : Nat} (h : protocolVersion < 65536)
    (body : Bytes) : headerAt (packetHeader length protocolVersion opCode ++ body) 0 =
      ⟨length.toNat, packetHeaderSize, protocolVersion, opCode.toNat⟩ := by
  have hlength := networkToHostLong_hostToNetworkLong length
  have hheader := @networkToHostShort_hostToNetworkShort packetHeaderSize (by decide)
  have hversion := networkToHostShort_hostToNetworkShort h
  have hopCode := networkToHostLong_hostToNetworkLong opCode
  rw [headerAt, BilibiliPacketHeader.mk.injEq]
  exact ⟨congrArg UInt32.toNat (hlength _), hheader _, hversion _, congrArg UInt32.toNat (hopCode _)⟩

theorem length_packetHeader (length opCode : UInt32) (protocolVersion : Nat) :
    (packetHeader length protocolVersion opCode).length = packetHeaderSize := rfl

theorem drop_generateJoinRoomPacket :
    (generateJoinRoomPacket roomId protoVer token).drop packetHeaderSize =
      (expand joinRoomJsonFmt [.int protoVer, .int roomId, .string (cString token)]).take
        (joinRoomJsonMaxLength - 1) := by
  have hstring : (0 : UInt8) ∉ (expand joinRoomJsonFmt [.int protoVer, .int roomId,
      .string (cString token)]).take (joinRoomJsonMaxLength - 1) := fun h =>
    zero_notMem_cString token (zero_mem_expand.mp (List.mem_of_mem_take h))
  rw [generateJoinRoomPacket, snprintf]
  dsimp only
  rw [List.drop_left' (length_packetHeader _ _ _), cString_of_notMem hstring]

-- A template that fits is written as a whole, behind a header that counts it.
theorem generateJoinRoomPacket_of_fits (h : TokenFits roomId protoVer token) :
    generateJoinRoomPacket roomId protoVer token =
      packetHeader (.ofNat (packetHeaderSize +
          (expand joinRoomJsonFmt [.int protoVer, .int roomId, .string token]).length)) jsonProtocol joinRoom ++
        expand joinRoomJsonFmt [.int protoVer, .int roomId, .string token] := by
  obtain ⟨htoken, hlength⟩ := h
  rw [← length_expand] at hlength
  have hwhole : (expand joinRoomJsonFmt [.int protoVer, .int roomId, .string token]).take
      (joinRoomJsonMaxLength - 1) = expand joinRoomJsonFmt [.int protoVer, .int roomId, .string token] :=
    List.take_of_length_le (Nat.le_pred_of_lt hlength)
  have hstring := cString_of_notMem (mt (@zero_mem_expand roomId protoVer token).mp htoken)
  rw [generateJoinRoomPacket, cString_of_notMem htoken, snprintf, hwhole]
  dsimp only
  rw [joinRoomJsonMaxLength] at hlength
  have hcounted : (((expand joinRoomJsonFmt [.int protoVer, .int roomId, .string token]).length : Int) %
      18446744073709551616).toNat =
      (expand joinRoomJsonFmt [.int protoVer, .int roomId, .string token]).length := by omega
  rw [hstring, if_pos (by omega), hcounted]

-- A string whose header counts it is one packet, with nothing behind it.
theorem framed_of_header {packet : Bytes} (htotal : packet.length = (headerAt packet 0).length)
    (hheader : (headerAt packet 0).headerLength = packetHeaderSize) (hsize : 16 ≤ packet.length)
    {bufferSize : Nat} (hfits : packet.length ≤ bufferSize) (zlib : Bytes) :
    turn { read := packet, zlib } ⟨.read, bufferSize, 0, packet.length⟩ = .packet ⟨.read, 0, packet.length⟩ := by
  unfold turn
  dsimp only [Buffers.buf, packetHeaderSize] at hheader ⊢
  rw [if_neg (by omega), if_neg (by omega), if_neg (not_not.mpr hheader), if_neg (by omega), if_neg (by omega),
    ← htotal]

-- The packet is consistent exactly when the template fits.
theorem joinConsistent_iff (roomId protoVer : Int32) (token : Bytes) :
    JoinConsistent roomId protoVer token ↔ TokenFits roomId protoVer token := by
  constructor
  · intro h
    have hbody := h.body
    rw [drop_generateJoinRoomPacket] at hbody
    constructor
    · intro hzero
      have hmem := (@zero_mem_expand roomId protoVer _).mpr hzero
      rw [← hbody] at hmem
      exact zero_notMem_cString token (zero_mem_expand.mp (List.mem_of_mem_take hmem))
    · rw [← length_expand, ← hbody, List.length_take]
      exact Nat.lt_of_le_of_lt (Nat.min_le_left _ _) (by decide)
  · intro h
    have hlength := h.2
    rw [← length_expand, joinRoomJsonMaxLength] at hlength
    have hpacket := generateJoinRoomPacket_of_fits h
    have hheader := headerAt_packetHeader (.ofNat (packetHeaderSize +
      (expand joinRoomJsonFmt [.int protoVer, .int roomId, .string token]).length)) joinRoom
      (by decide : jsonProtocol < 65536) (expand joinRoomJsonFmt [.int protoVer, .int roomId, .string token])
    have hsize : (generateJoinRoomPacket roomId protoVer token).length =
        packetHeaderSize + (expand joinRoomJsonFmt [.int protoVer, .int roomId, .string token]).length := by
      rw [hpacket, List.length_append, length_packetHeader]
    have hcounted : packetHeaderSize +
        (expand joinRoomJsonFmt [.int protoVer, .int roomId, .string token]).length < 4294967296 := by
      rw [packetHeaderSize]
      omega
    rw [← hpacket, UInt32.toNat_ofNat_of_lt' hcounted] at hheader
    have htotal : (generateJoinRoomPacket roomId protoVer token).length =
        (headerAt (generateJoinRoomPacket roomId protoVer token) 0).length := by rw [hsize, hheader]
    refine ⟨htotal, congrArg BilibiliPacketHeader.headerLength hheader, ?_, ?_⟩
    · rw [hpacket]
      exact List.drop_left' (length_packetHeader _ _ _)
    · intro bufferSize zlib hfits
      apply framed_of_header htotal (congrArg BilibiliPacketHeader.headerLength hheader) _ hfits
      rw [hsize]
      exact Nat.le_add_right 16 _

-- A token of 180 characters: the header counts 269 characters of text, of which
-- 255 are there.
theorem joinConsistent_refuted : ¬∀ roomId protoVer token, JoinConsistent roomId protoVer token := by
  intro h
  have htotal := (h 1 2 (List.replicate 180 65)).total
  revert htotal
  decide +kernel

end LiveReceptor.Worker
