import Mathlib.Data.List.Basic

namespace InodeVpn.Wire

abbrev Bytes := List UInt8

/-- `u16::from_be_bytes`. -/
def fromBeBytes (hi lo : UInt8) : UInt16 := UInt16.ofNat (hi.toNat * 256 + lo.toNat)

/-- `u16::from_le_bytes`. -/
def fromLeBytes (lo hi : UInt8) : UInt16 := fromBeBytes hi lo

/-- `u16::to_be_bytes`. -/
def toBeBytes (n : UInt16) : Bytes := [UInt8.ofNat (n.toNat / 256), UInt8.ofNat (n.toNat % 256)]

/-- `u16::to_le_bytes`. -/
def toLeBytes (n : UInt16) : Bytes := (toBeBytes n).reverse

@[simp] theorem fromBeBytes_toNat (hi lo : UInt8) :
    (fromBeBytes hi lo).toNat = hi.toNat * 256 + lo.toNat := by
  have := hi.toNat_lt
  have := lo.toNat_lt
  simp only [fromBeBytes, UInt16.toNat_ofNat']
  omega

@[simp] theorem toBeBytes_length (n : UInt16) : (toBeBytes n).length = 2 := rfl

@[simp] theorem toLeBytes_length (n : UInt16) : (toLeBytes n).length = 2 := rfl

/-- What `to_be_bytes` writes, `from_be_bytes` reads back. -/
theorem fromBeBytes_toBeBytes (n : UInt16) :
    fromBeBytes ((toBeBytes n).getD 0 0) ((toBeBytes n).getD 1 0) = n := by
  have := n.toNat_lt
  apply UInt16.toNat_inj.mp
  simp only [toBeBytes, List.getD_cons_zero, List.getD_cons_succ, fromBeBytes_toNat,
    UInt8.toNat_ofNat']
  omega

/-- Reading two bytes and writing them gives them back. -/
theorem toBeBytes_fromBeBytes (hi lo : UInt8) : toBeBytes (fromBeBytes hi lo) = [hi, lo] := by
  have := hi.toNat_lt
  have := lo.toNat_lt
  simp only [toBeBytes, fromBeBytes_toNat, List.cons.injEq, and_true, ← UInt8.toNat_inj,
    UInt8.toNat_ofNat']
  omega

/-- Maximum accepted frame payload length. -/
def H3C_MAX_FRAME_LEN : UInt16 := 16384

/-- IPv4 payload frame. -/
def TYPE_IPV4 : UInt16 := 1

/-- Keepalive response. -/
def KEEPALIVE_RESPONSE : Bytes := [0x02, 0x02, 0x00, 0x00]

inductive H3cFrame
  | ipv4 (payload : Bytes)
  | keepaliveRequest
  | keepaliveResponse
  deriving DecidableEq, Repr

def H3cFrame.newIpv4 (payload : Bytes) : H3cFrame := .ipv4 payload

/-- `type` little-endian, `len` big-endian. -/
def H3cFrame.toWire : H3cFrame → Bytes
  | .ipv4 payload => toLeBytes TYPE_IPV4 ++ toBeBytes (UInt16.ofNat payload.length) ++ payload
  | .keepaliveRequest => [0x02, 0x00, 0x00, 0x00]
  | .keepaliveResponse => KEEPALIVE_RESPONSE

inductive FrameError
  | incomplete
  | incompletePayload («have» need : Nat)
  | tooLarge (len : UInt16)
  deriving DecidableEq, Repr

/-- Streaming parser: leftover partial frames stay buffered. -/
structure H3cFrameStream where
  buffer : Bytes := []
  deriving DecidableEq, Repr

namespace H3cFrameStream

/-- The loop of `push`, with the frames it has found so far. -/
def pushLoop (frames : List H3cFrame) (buffer : Bytes) :
    Except FrameError (List H3cFrame) × H3cFrameStream :=
  if buffer.length < 4 then (.ok frames, ⟨buffer⟩)
  else
    let len := (fromBeBytes (buffer.getD 2 0) (buffer.getD 3 0)).toNat
    if UInt16.ofNat len > H3C_MAX_FRAME_LEN then
      (.error (.tooLarge (UInt16.ofNat len)), ⟨buffer⟩)
    else
      let total := 4 + len
      if buffer.length < total then
        (.error (.incompletePayload (buffer.length - 4) len), ⟨buffer⟩)
      else
        let frame := buffer.take total
        let frames :=
          if frame = KEEPALIVE_RESPONSE then frames ++ [.keepaliveResponse]
          else if fromLeBytes (frame.getD 0 0) (frame.getD 1 0) = TYPE_IPV4 then
            frames ++ [.ipv4 (frame.drop 4)]
          else frames
        pushLoop frames (buffer.drop total)
termination_by buffer.length
decreasing_by rw [List.length_drop]; omega

def push (s : H3cFrameStream) (data : Bytes) :
    Except FrameError (List H3cFrame) × H3cFrameStream :=
  pushLoop [] (s.buffer ++ data)

/-- Pushes chunks in order: what each push returns, and the stream at the end. -/
def pushAll (s : H3cFrameStream) : List Bytes →
    List (Except FrameError (List H3cFrame)) × H3cFrameStream
  | [] => ([], s)
  | data :: chunks =>
    let r := (s.push data).2.pushAll chunks
    ((s.push data).1 :: r.1, r.2)

end H3cFrameStream

end InodeVpn.Wire
