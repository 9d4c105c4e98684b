import InodeVpn.Wire.Frames

namespace InodeVpn.Fork
open Wire (Bytes fromBeBytes fromLeBytes toBeBytes toLeBytes)

def EINVAL : Int := 22

def ENOMEM : Int := 12

def H3C_FRAME_IPV4 : UInt16 := 1

def H3C_MAX_FRAME_LEN : Nat := 16384

def loadBe16 (buf : Bytes) (i : Nat) : UInt16 := fromBeBytes (buf.getD i 0) (buf.getD (i + 1) 0)

def loadLe16 (buf : Bytes) (i : Nat) : UInt16 := fromLeBytes (buf.getD i 0) (buf.getD (i + 1) 0)

/-- `struct pkt`: `type` and `len` are its `h3c` header, `len` apart from the
length of the data. -/
structure Pkt where
  type : UInt16 := 0
  len : UInt16 := 0
  data : Bytes
  deriving DecidableEq, Repr

/-- The bytes from `h3c.type` on. -/
def Pkt.image (pkt : Pkt) : Bytes := toLeBytes pkt.type ++ toBeBytes pkt.len ++ pkt.data

@[simp] theorem Pkt.image_length (pkt : Pkt) : pkt.image.length = pkt.data.length + 4 := by
  simp only [Pkt.image, List.length_append, Wire.toLeBytes_length, Wire.toBeBytes_length]
  omega

/-- `cstp_pkt`, of which `partial_rec_size` bytes are filled. -/
structure RecvBuf where
  data : Bytes
  partialRecSize : Nat
  fits : partialRecSize ≤ data.length

namespace RecvBuf

/-- `alloc_pkt` for `cstp_pkt`. -/
def alloc (size : Nat) : RecvBuf := ⟨List.replicate size 0, 0, Nat.zero_le _⟩

/-- The filled part. -/
def bytes (b : RecvBuf) : Bytes := b.data.take b.partialRecSize

/-- `ssl_nonblock_read` puts bytes behind the filled part. -/
def write (b : RecvBuf) (s : Bytes) : RecvBuf where
  data := b.data.take b.partialRecSize ++ s ++ b.data.drop (b.partialRecSize + s.length)
  partialRecSize := b.partialRecSize + s.length
  fits := by
    have := b.fits
    simp only [List.length_append, List.length_take, List.length_drop]
    omega

/-- `memmove` of the bytes from `off` on to the front. -/
def discard (b : RecvBuf) (off : Nat) : RecvBuf where
  data := (b.data.drop off).take (b.partialRecSize - off) ++ b.data.drop (b.partialRecSize - off)
  partialRecSize := b.partialRecSize - off
  fits := by
    have := b.fits
    simp only [List.length_append, List.length_take, List.length_drop]
    omega

@[simp] theorem bytes_length (b : RecvBuf) : b.bytes.length = b.partialRecSize := by
  rw [bytes, List.length_take, Nat.min_eq_left b.fits]

@[simp] theorem bytes_alloc (size : Nat) : (alloc size).bytes = [] := rfl

@[simp] theorem bytes_write (b : RecvBuf) (s : Bytes) : (b.write s).bytes = b.bytes ++ s := by
  have hlen : b.partialRecSize + s.length = (b.data.take b.partialRecSize ++ s).length := by
    rw [List.length_append, List.length_take, Nat.min_eq_left b.fits]
  simp only [bytes, write]
  rw [hlen, List.take_left]

@[simp] theorem bytes_discard (b : RecvBuf) (off : Nat) :
    (b.discard off).bytes = b.bytes.drop off := by
  have hfits := b.fits
  simp only [bytes, discard, List.drop_take]
  rw [List.take_append_of_le_length]
  · rw [List.take_take, Nat.min_self]
  · rw [List.length_take, List.length_drop]
    omega

theorem length_write {b : RecvBuf} {s : Bytes} (h : b.partialRecSize + s.length ≤ b.data.length) :
    (b.write s).data.length = b.data.length := by
  simp only [write, List.length_append, List.length_take, List.length_drop]
  omega

@[simp] theorem length_discard (b : RecvBuf) (off : Nat) :
    (b.discard off).data.length = b.data.length := by
  have := b.fits
  simp only [discard, List.length_append, List.length_take, List.length_drop]
  omega

end RecvBuf

/-- One turn of the parse loop, by the branch it takes. -/
inductive Taken
  | keepaliveResponse
  | packet (payload : Bytes)
  | unknown (type₀ type₁ : UInt8) (plen : UInt16)
  deriving DecidableEq, Repr

namespace Taken

def payload? : Taken → Option Bytes
  | .packet payload => some payload
  | _ => none

/-- The branches that count as work. -/
def isWork : Taken → Bool
  | .unknown .. => false
  | _ => true

end Taken

/-- Where the parse loop leaves `off`, what it has taken, and `ret`. -/
structure Parsed (len : Nat) where
  off : Nat
  taken : List Taken
  ret : Int
  bounded : off ≤ len

/-- The loop of `h3c_parse_frames`. `alloc` answers the `alloc_pkt` at an offset. -/
def parseLoop (alloc : Nat → Bool) (buf : Bytes) (len off : Nat) (taken : List Taken)
    (bounded : off ≤ len) : Parsed len :=
  if more : 4 ≤ len - off then
    let plen := loadBe16 buf (off + 2)
    if plen.toNat > H3C_MAX_FRAME_LEN then ⟨off, taken, -EINVAL, bounded⟩
    else if part : len - off < 4 + plen.toNat then ⟨off, taken, 0, bounded⟩
    else if buf.getD off 0 = 0x02 ∧ buf.getD (off + 1) 0 = 0x02 ∧ plen = 0 then
      parseLoop alloc buf len (off + 4) (taken ++ [.keepaliveResponse]) (by omega)
    else if loadLe16 buf off = H3C_FRAME_IPV4 then
      if alloc off then
        parseLoop alloc buf len (off + (4 + plen.toNat))
          (taken ++ [.packet ((buf.drop (off + 4)).take plen.toNat)]) (by omega)
      else ⟨off, taken, -ENOMEM, bounded⟩
    else
      parseLoop alloc buf len (off + (4 + plen.toNat))
        (taken ++ [.unknown (buf.getD off 0) (buf.getD (off + 1) 0) plen]) (by omega)
  else ⟨off, taken, 0, bounded⟩
termination_by len - off

/-- `h3c_parse_frames`: the buffer it leaves, what it took, and `ret`. -/
def parseFrames (alloc : Nat → Bool) (pkt : RecvBuf) : RecvBuf × List Taken × Int :=
  let p := parseLoop alloc pkt.data pkt.partialRecSize 0 [] (Nat.zero_le _)
  (if p.off ≠ 0 then pkt.discard p.off else pkt, p.taken, p.ret)

end InodeVpn.Fork
