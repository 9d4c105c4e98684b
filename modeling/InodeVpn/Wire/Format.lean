import InodeVpn.Wire.Frames
import InodeVpn.Lib.Framing

namespace InodeVpn.Wire
open Lib

/-- The length field of the frame at the start of a stream. -/
def lenField (s : Bytes) : UInt16 := fromBeBytes (s.getD 2 0) (s.getD 3 0)

theorem lenField_append {s : Bytes} (t : Bytes) (h : 4 ≤ s.length) :
    lenField (s ++ t) = lenField s := by
  simp only [lenField, List.getD_eq_getElem?_getD]
  rw [List.getElem?_append_left (by omega), List.getElem?_append_left (by omega)]

theorem lenField_take {s : Bytes} {n : Nat} (h : 4 ≤ s.length) (hn : 4 ≤ n) :
    lenField (s.take n) = lenField s := by
  have happ := lenField_append (s.drop n) (s := s.take n) (by rw [List.length_take]; omega)
  rw [List.take_append_drop] at happ
  exact happ.symm

theorem le_max_frame_len_iff (len : UInt16) : len > H3C_MAX_FRAME_LEN ↔ len.toNat > 16384 :=
  UInt16.lt_iff_toNat_lt

/-- The frame format, apart from who parses it: a frame is a header of four
bytes and as many bytes as its length field says. -/
def h3c : Framing UInt8 UInt16 where
  size s :=
    if s.length < 4 then .ok none
    else if lenField s > H3C_MAX_FRAME_LEN then .error (lenField s)
    else .ok (some (4 + (lenField s).toNat))
  nil := rfl
  pos s n h := by
    split at h
    · cases h
    · split at h
      · cases h
      · cases h
        omega
  stable s t h := by
    by_cases hs : s.length < 4
    · simp [hs] at h
    · have hst : ¬(s ++ t).length < 4 := by
        rw [List.length_append]
        omega
      simp only [hs, hst, if_false, lenField_append t (Nat.not_lt.mp hs)]
  within s n h := by
    split at h
    · cases h
    · split at h
      · cases h
      · rename_i hs hl
        cases h
        have hfield := lenField_take (Nat.not_lt.mp hs) (n := 4 + (lenField s).toNat) (by omega)
        have hshort : ¬(s.take (4 + (lenField s).toNat)).length < 4 := by
          rw [List.length_take]
          omega
        simp only [hshort, if_false, hfield, hl]

namespace h3c
variable {s : Bytes}

theorem size_eq (s : Bytes) : h3c.size s =
    if s.length < 4 then .ok none
    else if lenField s > H3C_MAX_FRAME_LEN then .error (lenField s)
    else .ok (some (4 + (lenField s).toNat)) := rfl

theorem next_short (h : s.length < 4) : h3c.next s = .wait := by
  simp [Framing.next, size_eq, h]

theorem next_tooLarge (h : ¬s.length < 4) (hl : lenField s > H3C_MAX_FRAME_LEN) :
    h3c.next s = .bad (lenField s) :=
  Framing.next_bad (by simp [size_eq, h, hl])

theorem next_part (h : ¬s.length < 4) (hl : ¬lenField s > H3C_MAX_FRAME_LEN)
    (hp : s.length < 4 + (lenField s).toNat) : h3c.next s = .wait := by
  simp [Framing.next, size_eq, h, hl, hp]

theorem next_whole (h : ¬s.length < 4) (hl : ¬lenField s > H3C_MAX_FRAME_LEN)
    (hp : ¬s.length < 4 + (lenField s).toNat) :
    h3c.next s = .frame (s.take (4 + (lenField s).toNat)) (s.drop (4 + (lenField s).toNat)) :=
  Framing.next_frame (by simp [size_eq, h, hl]) (Nat.not_lt.mp hp)

/-- A frame is as long as its header says. -/
theorem whole_length (h : h3c.Whole s) : s.length = 4 + (lenField s).toNat := by
  rw [Framing.Whole, size_eq] at h
  split at h
  · cases h
  · split at h
    · cases h
    · simpa using h.symm

end h3c

/-- A frame of any type. -/
def encode (type₀ type₁ : UInt8) (payload : Bytes) : Bytes :=
  [type₀, type₁] ++ toBeBytes (UInt16.ofNat payload.length) ++ payload

section Encode
variable (type₀ type₁ : UInt8) (payload : Bytes)

@[simp] theorem encode_length : (encode type₀ type₁ payload).length = 4 + payload.length := by
  simp only [encode, List.length_append, List.length_cons, List.length_nil, toBeBytes_length]

@[simp] theorem encode_drop : (encode type₀ type₁ payload).drop 4 = payload := rfl

theorem lenField_encode : lenField (encode type₀ type₁ payload) = UInt16.ofNat payload.length :=
  fromBeBytes_toBeBytes _

variable {payload}

/-- What the length check admits is read back as one frame. -/
theorem whole_encode (h : payload.length ≤ 16384) : h3c.Whole (encode type₀ type₁ payload) := by
  have hlen : (UInt16.ofNat payload.length).toNat = payload.length := by
    rw [UInt16.toNat_ofNat']
    omega
  have hs : ¬(encode type₀ type₁ payload).length < 4 := by
    rw [encode_length]
    omega
  have hl : ¬lenField (encode type₀ type₁ payload) > H3C_MAX_FRAME_LEN := by
    rw [lenField_encode, le_max_frame_len_iff, hlen]
    omega
  rw [Framing.Whole, h3c.size_eq, if_neg hs, if_neg hl, lenField_encode, hlen, encode_length]

end Encode

/-- What the Rust parser reports of a frame; frames of other types are dropped. -/
def frameOf (raw : Bytes) : Option H3cFrame :=
  if raw = KEEPALIVE_RESPONSE then some .keepaliveResponse
  else if fromLeBytes (raw.getD 0 0) (raw.getD 1 0) = TYPE_IPV4 then some (.ipv4 (raw.drop 4))
  else none

theorem toWire_ipv4 (payload : Bytes) : (H3cFrame.ipv4 payload).toWire = encode 1 0 payload := rfl

theorem frameOf_ipv4 (hi lo : UInt8) (payload : Bytes) :
    frameOf ([1, 0, hi, lo] ++ payload) = some (.ipv4 payload) := by
  have hne : [1, 0, hi, lo] ++ payload ≠ KEEPALIVE_RESPONSE := by
    simp [KEEPALIVE_RESPONSE]
  have htype : fromLeBytes 1 0 = TYPE_IPV4 := by decide
  rw [frameOf, if_neg hne]
  exact if_pos htype

theorem frameOf_toWire {f : H3cFrame} (h : f ≠ .keepaliveRequest) : frameOf f.toWire = some f := by
  cases f with
  | ipv4 payload => exact frameOf_ipv4 _ _ payload
  | keepaliveRequest => exact absurd rfl h
  | keepaliveResponse => rfl

end InodeVpn.Wire
