import InodeVpn.Proofs.FrameStream
import InodeVpn.Proofs.FrameParser

namespace InodeVpn.Proofs.ParserAgreement
open Lib Wire Fork FrameStream FrameParser

/-- `h3c_parse_frames` after a chunk has been put behind what the buffer holds. -/
def feed (pkt : RecvBuf) (chunk : Bytes) : Option (RecvBuf × List Taken × Int) :=
  if pkt.partialRecSize + chunk.length ≤ pkt.data.length then
    some (parseFrames (fun _ => true) (pkt.write chunk))
  else none

/-- The buffer after chunk upon chunk. -/
def feedAll (pkt : RecvBuf) : List Bytes → Option RecvBuf
  | [] => some pkt
  | chunk :: chunks =>
    match feed pkt chunk with
    | none => none
    | some (pkt, _, _) => feedAll pkt chunks

def payload? : H3cFrame → Option Bytes
  | .ipv4 payload => some payload
  | _ => none

/-- What the Rust parser reports where the C parser takes a branch. -/
def reported : Taken → Option H3cFrame
  | .keepaliveResponse => some .keepaliveResponse
  | .packet payload => some (.ipv4 payload)
  | .unknown .. => none

theorem keepaliveResponse_iff {raw : Bytes} (h : h3c.Whole raw) :
    raw = KEEPALIVE_RESPONSE ↔ raw.getD 0 0 = 0x02 ∧ raw.getD 1 0 = 0x02 ∧ lenField raw = 0 := by
  constructor
  · rintro rfl
    decide
  · rintro ⟨h0, h1, hl⟩
    have hlen := h3c.whole_length h
    rw [hl] at hlen
    obtain ⟨a, b, c, d, rfl⟩ := List.length_eq_four.mp hlen
    simp only [List.getD_cons_zero, List.getD_cons_succ] at h0 h1
    have hcd := congrArg UInt16.toNat hl
    simp only [lenField, List.getD_cons_zero, List.getD_cons_succ, fromBeBytes_toNat,
      UInt16.toNat_zero] at hcd
    have hc : c = 0 := UInt8.toNat_inj.mp (by rw [UInt8.toNat_zero]; omega)
    have hd : d = 0 := UInt8.toNat_inj.mp (by rw [UInt8.toNat_zero]; omega)
    rw [h0, h1, hc, hd, KEEPALIVE_RESPONSE]

/-- Both parsers make the same of a frame. -/
theorem frameOf_eq {raw : Bytes} (h : h3c.Whole raw) : frameOf raw = reported (takenOf raw) := by
  rw [frameOf, takenOf]
  by_cases hkeep : raw = KEEPALIVE_RESPONSE
  · rw [if_pos hkeep, if_pos ((keepaliveResponse_iff h).mp hkeep)]
    rfl
  · rw [if_neg hkeep, if_neg fun hk => hkeep ((keepaliveResponse_iff h).mpr hk)]
    by_cases htype : fromLeBytes (raw.getD 0 0) (raw.getD 1 0) = TYPE_IPV4
    · rw [if_pos htype, if_pos (show _ = H3C_FRAME_IPV4 from htype)]
      rfl
    · rw [if_neg htype, if_neg (show ¬_ = H3C_FRAME_IPV4 from htype)]
      rfl

theorem filterMap_frameOf_eq (s : Bytes) :
    (h3c.cut s).frames.filterMap frameOf =
      ((h3c.cut s).frames.map takenOf).filterMap reported := by
  rw [List.filterMap_map]
  exact List.filterMap_congr fun raw hraw => frameOf_eq (Framing.whole_of_cut s raw hraw)

theorem payloads_reported (taken : List Taken) :
    (taken.filterMap reported).filterMap payload? = taken.filterMap Taken.payload? := by
  rw [List.filterMap_filterMap]
  congr 1
  funext t
  cases t <;> rfl

theorem keepalives_reported (taken : List Taken) :
    (taken.filterMap reported).count .keepaliveResponse = taken.count .keepaliveResponse := by
  induction taken with
  | nil => rfl
  | cons t taken ih => cases t <;> simp [List.filterMap_cons, reported, ih]

/-- The Rust stream and the C buffer hold the same bytes. -/
def Agree (s : H3cFrameStream) (pkt : RecvBuf) : Prop := s.buffer = pkt.bytes

section Step
variable {s : H3cFrameStream} {pkt : RecvBuf} (chunk : Bytes) (h : Agree s pkt)
  (hroom : pkt.bytes.length + chunk.length ≤ pkt.data.length)
include h hroom

/-- One chunk, pushed and fed. -/
theorem agree_step : ∃ after taken ret, feed pkt chunk = some (after, taken, ret) ∧
    after.data.length = pkt.data.length ∧ after.bytes.length ≤ pkt.bytes.length + chunk.length ∧
    Agree (s.push chunk).2 after ∧
    ((∃ len, (s.push chunk).1 = .error (.tooLarge len)) ↔ ret = -EINVAL) ∧
    ∀ frames, (s.push chunk).1 = .ok frames → frames = taken.filterMap reported := by
  rw [RecvBuf.bytes_length] at hroom
  have hret := parseFrames_alloc (fun _ => true) (pkt.write chunk) fun _ => rfl
  have hbytes : (pkt.write chunk).bytes = s.buffer ++ chunk := by rw [RecvBuf.bytes_write, h]
  have hlength := parseFrames_length (fun _ => true) (pkt.write chunk)
  have htaken := parseFrames_taken hret
  have hrest := parseFrames_bytes hret
  have hcode := parseFrames_ret hret
  rw [hbytes] at htaken hrest hcode
  rw [RecvBuf.length_write hroom] at hlength
  have hfeed : feed pkt chunk = some (parseFrames (fun _ => true) (pkt.write chunk)) :=
    if_pos hroom
  generalize parseFrames (fun _ => true) (pkt.write chunk) = p at *
  obtain ⟨after, taken, ret⟩ := p
  simp only at hlength htaken hrest hcode
  refine ⟨after, taken, ret, hfeed, hlength, ?_, ?_, ?_, ?_⟩
  · rw [hrest, ← h, ← List.length_append]
    exact Framing.rest_length_le _
  · rw [Agree, push_eq, hrest]
  · rw [push_eq, hcode, answer]
    cases (h3c.cut (s.buffer ++ chunk)).error with
    | some len => simp
    | none =>
      simp only [Option.isSome_none]
      split <;> simp [EINVAL]
  · intro frames hok
    rw [push_eq, answer] at hok
    rw [htaken, ← filterMap_frameOf_eq]
    split at hok
    · cases hok
    · split at hok
      · cases hok
        rfl
      · cases hok

end Step

/-- Chunk upon chunk, both hold the same bytes, and there is room for the rest. -/
theorem agree_all {s : H3cFrameStream} {pkt : RecvBuf} (h : Agree s pkt) (chunks : List Bytes)
    {n : Nat} (hroom : pkt.bytes.length + chunks.flatten.length + n ≤ pkt.data.length) :
    ∃ before, feedAll pkt chunks = some before ∧ Agree (s.pushAll chunks).2 before ∧
      before.bytes.length + n ≤ before.data.length := by
  induction chunks generalizing s pkt with
  | nil => exact ⟨pkt, rfl, h, by simpa using hroom⟩
  | cons chunk chunks ih =>
    simp only [List.flatten_cons, List.length_append] at hroom
    obtain ⟨after, taken, ret, hfeed, hlen, hle, hagree, -⟩ :=
      agree_step chunk h (by omega)
    obtain ⟨before, hall, hagree', hroom'⟩ := ih hagree (by rw [hlen]; omega)
    exact ⟨before, by simpa only [feedAll, hfeed] using hall, hagree', hroom'⟩

/-- After every chunk the two parsers hold the same residue, reject the same
streams, and make the same of what they accept. -/
theorem parsers_agree (pkt : RecvBuf) (chunks : List Bytes) (chunk : Bytes)
    (hempty : pkt.partialRecSize = 0)
    (hroom : chunks.flatten.length + chunk.length ≤ pkt.data.length) :
    ∃ before after taken ret,
      feedAll pkt chunks = some before ∧ feed before chunk = some (after, taken, ret) ∧
      (((H3cFrameStream.pushAll {} chunks).2.push chunk).2.buffer = after.bytes) ∧
      ((∃ len, ((H3cFrameStream.pushAll {} chunks).2.push chunk).1 = .error (.tooLarge len)) ↔
        ret = -EINVAL) ∧
      ∀ frames, ((H3cFrameStream.pushAll {} chunks).2.push chunk).1 = .ok frames →
        frames.filterMap payload? = taken.filterMap Taken.payload? ∧
        frames.count .keepaliveResponse = taken.count .keepaliveResponse := by
  have hnil : pkt.bytes = [] := List.eq_nil_of_length_eq_zero (by rw [pkt.bytes_length, hempty])
  have hstart : Agree {} pkt := hnil.symm
  obtain ⟨before, hall, hagree, hleft⟩ := agree_all hstart chunks
    (n := chunk.length) (by rw [hnil, List.length_nil]; omega)
  obtain ⟨after, taken, ret, hfeed, -, -, hres, herr, hok⟩ := agree_step chunk hagree hleft
  refine ⟨before, after, taken, ret, hall, hfeed, hres, herr, ?_⟩
  intro frames hframes
  rw [hok frames hframes]
  exact ⟨payloads_reported taken, keepalives_reported taken⟩

/-- A frame in two chunks, then an oversized header. -/
theorem parsers_agree_sample : ∃ before after taken ret,
    feedAll (.alloc 64) [[1, 0, 0, 2, 0x45], [0x00]] = some before ∧
      feed before [2, 2, 0, 0, 1, 0, 0xff, 0xff] = some (after, taken, ret) ∧
      (((H3cFrameStream.pushAll {} [[1, 0, 0, 2, 0x45], [0x00]]).2.push
        [2, 2, 0, 0, 1, 0, 0xff, 0xff]).2.buffer = after.bytes) ∧
      ((∃ len, ((H3cFrameStream.pushAll {} [[1, 0, 0, 2, 0x45], [0x00]]).2.push
        [2, 2, 0, 0, 1, 0, 0xff, 0xff]).1 = .error (.tooLarge len)) ↔ ret = -EINVAL) ∧
      ∀ frames, ((H3cFrameStream.pushAll {} [[1, 0, 0, 2, 0x45], [0x00]]).2.push
          [2, 2, 0, 0, 1, 0, 0xff, 0xff]).1 = .ok frames →
        frames.filterMap payload? = taken.filterMap Taken.payload? ∧
        frames.count .keepaliveResponse = taken.count .keepaliveResponse :=
  parsers_agree (.alloc 64) [[1, 0, 0, 2, 0x45], [0x00]] [2, 2, 0, 0, 1, 0, 0xff, 0xff]
    rfl (by simp [RecvBuf.alloc])

end InodeVpn.Proofs.ParserAgreement
