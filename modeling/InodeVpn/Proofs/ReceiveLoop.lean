import InodeVpn.Fork.Mainloop
import InodeVpn.Proofs.FrameParser

namespace InodeVpn.Proofs.ReceiveLoop
open Lib Fork FrameParser
open Wire hiding H3C_MAX_FRAME_LEN

/-- A frame of any type, as a gateway may send it. -/
structure RawFrame where
  type₀ : UInt8
  type₁ : UInt8
  payload : Bytes
  deriving DecidableEq, Repr

namespace RawFrame

def encode (f : RawFrame) : Bytes := Wire.encode f.type₀ f.type₁ f.payload

def packet? (f : RawFrame) : Option Bytes :=
  if f.type₀ = 1 ∧ f.type₁ = 0 then some f.payload else none

theorem encode_length (f : RawFrame) : f.encode.length = 4 + f.payload.length :=
  Wire.encode_length ..

/-- The parse loop queues the payload of an IPv4 frame, and nothing of another. -/
theorem payload?_takenOf (f : RawFrame) : (takenOf f.encode).payload? = f.packet? := by
  have h0 : f.encode.getD 0 0 = f.type₀ := rfl
  have h1 : f.encode.getD 1 0 = f.type₁ := rfl
  have hdrop : f.encode.drop 4 = f.payload := Wire.encode_drop ..
  rw [takenOf, packet?, h0, h1, hdrop]
  split
  · rename_i hkeep
    rw [hkeep.1]
    rfl
  · simp only [fromLeBytes_eq_ipv4]
    split <;> rfl

end RawFrame

/-- A read that finds at least one byte, and memory for every packet. -/
def Delivers : Read → Prop
  | .upTo _ _ alloc => ∀ off, alloc off = true
  | _ => False

/-- The read loop, call after call. -/
def receive : List (List Read) → Turn → Flow
  | [], t => .on t
  | reads :: calls, t => (readLoop true reads t).andThen (receive calls)

section Invariant
variable {frames : List RawFrame} {queue : List Pkt}

/-- The frames of which all but `part` of the next one has been received. -/
structure Receiving (frames : List RawFrame) (queue : List Pkt) (done todo : List RawFrame)
    (p part : Bytes) (t : Turn) : Prop where
  mtu : t.vpn.receiveMtu = 16384
  stands : h3c.At RawFrame.encode frames p done todo part
  stream : p ++ t.vpn.ssl.inbox = frames.flatMap RawFrame.encode
  buffer : ∃ pkt, t.vpn.receiveBuffer true = some pkt ∧ pkt.bytes = part
  queued : t.vpn.incomingQueue =
    queue ++ (done.filterMap RawFrame.packet?).map fun s => ({ data := s } : Pkt)
  fit : ∀ f ∈ done, f.encode.length ≤ 16384

variable {done todo : List RawFrame} {p part : Bytes} {t : Turn}

/-- A buffer that is full before the frame in it is there in full. -/
theorem Receiving.overflow (h : Receiving frames queue done todo p part t)
    (hfull : 16384 ≤ part.length) : ∃ f ∈ frames, 16384 < f.encode.length := by
  cases htodo : todo with
  | nil =>
    rw [h.stands.ended htodo] at hfull
    simp at hfull
  | cons f todo' =>
    have := h.stands.proper f (by rw [htodo]; rfl)
    exact ⟨f, by rw [h.stands.split, htodo]; simp, by omega⟩

theorem Receiving.withBuffer (h : Receiving frames queue done todo p part t) {pkt : RecvBuf}
    (hpkt : pkt.bytes = part) : Receiving frames queue done todo p part (t.withBuffer pkt) :=
  ⟨h.mtu, h.stands, h.stream, ⟨pkt, rfl, hpkt⟩, h.queued, h.fit⟩

section Step
variable {pkt : RecvBuf} (hbuf : t.vpn.receiveBuffer true = some pkt)
  (hmtu : t.vpn.receiveMtu = 16384)
include hbuf hmtu

theorem readStep_full (r : Read) (hfull : 16384 ≤ pkt.partialRecSize) :
    readStep true r t = .leave (.reconnect .overflow (t.withBuffer pkt)) := by
  simp only [readStep, hbuf, Turn.receiveMtu_withBuffer, hmtu]
  rw [if_pos (by omega)]

variable (hroom : pkt.partialRecSize < 16384)
include hroom

theorem readStep_again : readStep true .again t = .leave (.on (t.withBuffer pkt)) := by
  simp only [readStep, hbuf, Turn.receiveMtu_withBuffer, hmtu]
  rw [if_neg (by omega)]

theorem readStep_upTo (n : Nat) (now : Int) (alloc : Nat → Bool) :
    readStep true (.upTo n now alloc) t =
      let r := t.vpn.ssl.nonblockRead n (16384 - pkt.partialRecSize)
      let q := ((t.withBuffer pkt).received r.1 r.2 now).parse alloc (pkt.write r.1)
      if r.1 = [] then .leave (.on (t.withBuffer pkt))
      else if q.2 ≠ 0 then .leave (.reconnect (.parseError q.2) q.1)
      else .again q.1 := by
  have hspace : ((16384 : Int) - pkt.partialRecSize).toNat = 16384 - pkt.partialRecSize := by omega
  simp only [readStep, hbuf, Turn.receiveMtu_withBuffer, hmtu, Turn.ssl_withBuffer, hspace]
  rw [if_neg (by omega)]

end Step

/-- What a turn of the loop leaves when it has not gone to `do_reconnect`. -/
def Receives (frames : List RawFrame) (queue : List Pkt) (t : Turn) : Prop :=
  ∃ done todo p part, Receiving frames queue done todo p part t

/-- A buffer that cannot hold a frame that is on its way. -/
def TooLong (frames : List RawFrame) : Prop := ∃ f ∈ frames, 16384 < f.encode.length

/-- Reading on and parsing keeps count of the frames. -/
theorem Receiving.parse (h : Receiving frames queue done todo p part t)
    (hwhole : ∀ f ∈ frames, h3c.Whole f.encode) {alloc : Nat → Bool}
    (halloc : ∀ off, alloc off = true) {pkt : RecvBuf} (hpkt : pkt.bytes = part)
    (bytes : Bytes) (ssl : Ssl) (now : Int) (hin : bytes ++ ssl.inbox = t.vpn.ssl.inbox)
    (hfits : part.length + bytes.length ≤ 16384) :
    ((t.received bytes ssl now).parse alloc (pkt.write bytes)).2 = 0 ∧
      Receives frames queue ((t.received bytes ssl now).parse alloc (pkt.write bytes)).1 := by
  have hstream : (p ++ bytes) ++ ssl.inbox = frames.flatMap RawFrame.encode := by
    rw [List.append_assoc, hin, h.stream]
  obtain ⟨new, todo', part', rfl, hat, hcut⟩ := h.stands.append hwhole ⟨_, hstream⟩
  have hret := parseFrames_alloc alloc (pkt.write bytes) halloc
  have hbytes : (pkt.write bytes).bytes = part ++ bytes := by rw [RecvBuf.bytes_write, hpkt]
  have hzero := parseFrames_ret hret
  have htaken := parseFrames_taken hret
  have hrest := parseFrames_bytes hret
  rw [hbytes, hcut] at hzero htaken hrest
  refine ⟨hzero, done ++ new, todo', p ++ bytes, part', ?_⟩
  constructor
  · exact h.mtu
  · exact hat
  · exact hstream
  · exact ⟨_, rfl, hrest⟩
  · have hpackets : ((parseFrames alloc (pkt.write bytes)).2.1.filterMap Taken.payload?) =
        new.filterMap RawFrame.packet? := by
      rw [htaken, List.map_map, List.filterMap_map]
      exact List.filterMap_congr fun f _ => f.payload?_takenOf
    simp only [Turn.parse, Turn.received, hpackets, h.queued, List.filterMap_append,
      List.map_append, List.append_assoc]
  · intro f hf
    rcases List.mem_append.mp hf with hf | hf
    · exact h.fit f hf
    · -- a frame that has just been completed lay in the buffer as a whole
      have hflat := h3c.cut_flatten (part ++ bytes)
      rw [hcut] at hflat
      have hsub := List.sublist_flatten_of_mem (List.mem_map_of_mem (f := RawFrame.encode) hf)
      have hle := hsub.length_le
      have hlen := congrArg List.length hflat
      simp only [List.length_append] at hlen
      omega

section Run
variable (hwhole : ∀ f ∈ frames, h3c.Whole f.encode)
include hwhole

/-- A turn of the read loop finds the buffer full, finds nothing to read, or reads on. -/
theorem Receiving.step (h : Receiving frames queue done todo p part t) {r : Read}
    (hr : Delivers r) :
    (∃ t', readStep true r t = .leave (.reconnect .overflow t') ∧ TooLong frames) ∨
    (∃ t', readStep true r t = .leave (.on t') ∧ t'.vpn.ssl.inbox = [] ∧
      Receives frames queue t') ∨
    ∃ t', readStep true r t = .again t' ∧ t'.vpn.ssl.inbox.length < t.vpn.ssl.inbox.length ∧
      Receives frames queue t' := by
  obtain ⟨pkt, hbuf, hpkt⟩ := h.buffer
  have hlen : part.length = pkt.partialRecSize := by rw [← hpkt, RecvBuf.bytes_length]
  rcases Nat.lt_or_ge pkt.partialRecSize 16384 with hroom | hfull
  · cases r with
    | upTo n now alloc =>
      rw [readStep_upTo hbuf h.mtu hroom]
      have hin := Ssl.nonblockRead_append t.vpn.ssl n (16384 - pkt.partialRecSize)
      have hle := Ssl.nonblockRead_length_le t.vpn.ssl n (16384 - pkt.partialRecSize)
      have hnil := Ssl.nonblockRead_eq_nil t.vpn.ssl n _ (Nat.sub_pos_of_lt hroom)
      generalize t.vpn.ssl.nonblockRead n (16384 - pkt.partialRecSize) = read at *
      obtain ⟨bytes, ssl⟩ := read
      simp only at hin hle hnil ⊢
      by_cases hbytes : bytes = []
      · exact Or.inr (Or.inl ⟨t.withBuffer pkt, by simp [hbytes], hnil.mp hbytes,
          done, todo, p, part, h.withBuffer hpkt⟩)
      · obtain ⟨hret, hreceives⟩ := (h.withBuffer hpkt).parse hwhole hr hpkt bytes ssl now
          hin (by omega)
        refine Or.inr (Or.inr ⟨_, by simp [hbytes, hret], ?_, hreceives⟩)
        have hpos := List.length_pos_iff.mpr hbytes
        have hsplit := congrArg List.length hin
        rw [List.length_append] at hsplit
        show ssl.inbox.length < t.vpn.ssl.inbox.length
        omega
    | again => exact hr.elim
    | error => exact hr.elim
  · exact Or.inl ⟨_, readStep_full hbuf h.mtu r hfull, h.overflow (by omega)⟩

/-- Every read of a call takes at least a byte, as long as there is one. -/
theorem Receives.readLoop {reads : List Read} (hreads : ∀ r ∈ reads, Delivers r)
    (h : Receives frames queue t) :
    (∃ t', readLoop true reads t = .reconnect .overflow t' ∧ TooLong frames) ∨
    ∃ t', readLoop true reads t = .on t' ∧ Receives frames queue t' ∧
      t'.vpn.ssl.inbox.length ≤ t.vpn.ssl.inbox.length - reads.length := by
  induction reads generalizing t with
  | nil =>
    obtain ⟨done, todo, p, part, h⟩ := h
    obtain ⟨pkt, hbuf, hpkt⟩ := h.buffer
    have hlen : part.length = pkt.partialRecSize := by rw [← hpkt, RecvBuf.bytes_length]
    rcases Nat.lt_or_ge pkt.partialRecSize 16384 with hroom | hfull
    · exact Or.inr ⟨t.withBuffer pkt, by rw [Fork.readLoop, readStep_again hbuf h.mtu hroom],
        ⟨done, todo, p, part, h.withBuffer hpkt⟩, Nat.le_refl _⟩
    · exact Or.inl ⟨_, by rw [Fork.readLoop, readStep_full hbuf h.mtu _ hfull],
        h.overflow (by omega)⟩
  | cons r reads ih =>
    obtain ⟨done, todo, p, part, h⟩ := h
    simp only [Fork.readLoop]
    rcases h.step hwhole (hreads r (by simp)) with
      ⟨t', hstep, hlong⟩ | ⟨t', hstep, hnil, hreceives⟩ | ⟨t', hstep, hlt, hreceives⟩
    · rw [hstep]
      exact Or.inl ⟨t', rfl, hlong⟩
    · rw [hstep]
      exact Or.inr ⟨t', rfl, hreceives, by simp [hnil]⟩
    · rw [hstep]
      rcases ih (fun r hr => hreads r (by simp [hr])) hreceives with
        hover | ⟨t'', hloop, hreceives', hle⟩
      · exact Or.inl hover
      · exact Or.inr ⟨t'', hloop, hreceives', by rw [List.length_cons]; omega⟩

/-- The same over all calls. -/
theorem Receives.receive {calls : List (List Read)}
    (hreads : ∀ reads ∈ calls, ∀ r ∈ reads, Delivers r) (h : Receives frames queue t) :
    (∃ t', receive calls t = .reconnect .overflow t' ∧ TooLong frames) ∨
    ∃ t', receive calls t = .on t' ∧ Receives frames queue t' ∧
      t'.vpn.ssl.inbox.length ≤ t.vpn.ssl.inbox.length - calls.flatten.length := by
  induction calls generalizing t with
  | nil => exact Or.inr ⟨t, rfl, h, Nat.le_refl _⟩
  | cons reads calls ih =>
    simp only [ReceiveLoop.receive]
    rcases h.readLoop hwhole (hreads reads (by simp)) with
      ⟨t', hloop, hlong⟩ | ⟨t', hloop, hreceives, hle⟩
    · rw [hloop]
      exact Or.inl ⟨t', rfl, hlong⟩
    · rw [hloop]
      rcases ih (fun rs hrs => hreads rs (by simp [hrs])) hreceives with
        hover | ⟨t'', hcalls, hreceives', hle'⟩
      · exact Or.inl hover
      · exact Or.inr ⟨t'', hcalls, hreceives', by rw [List.flatten_cons, List.length_append]; omega⟩

end Run

/-- When everything has been read, every packet is queued, and every frame fitted. -/
theorem Receives.all (h : Receives frames queue t) (hinbox : t.vpn.ssl.inbox = []) :
    t.vpn.incomingQueue =
        queue ++ (frames.filterMap RawFrame.packet?).map (fun s => ({ data := s } : Pkt)) ∧
      ∀ f ∈ frames, f.encode.length ≤ 16384 := by
  obtain ⟨done, todo, p, part, h⟩ := h
  have hp : p = frames.flatMap RawFrame.encode := by simpa [hinbox] using h.stream
  subst hp
  obtain ⟨rfl, -⟩ := h.stands.all
  have hdone : frames = done := by simpa using h.stands.split
  rw [hdone]
  exact ⟨h.queued, h.fit⟩

end Invariant

/-- A connection on which nothing has been read yet, and whose gateway sends `frames`. -/
structure Fresh (frames : List RawFrame) (t : Turn) : Prop where
  mtu : t.vpn.mtu ≤ H3C_MAX_FRAME_LEN
  deflate : t.vpn.deflatePktSize = 0
  pkt : t.vpn.cstpPkt = none
  inbox : t.vpn.ssl.inbox = frames.flatMap RawFrame.encode

/-- The reads of the calls bring every byte the gateway sends. -/
structure Brings (frames : List RawFrame) (calls : List (List Read)) : Prop where
  delivers : ∀ reads ∈ calls, ∀ r ∈ reads, Delivers r
  enough : (frames.flatMap RawFrame.encode).length ≤ calls.flatten.length

section Fresh
variable {frames : List RawFrame} {t : Turn} {calls : List (List Read)}

theorem whole_frames (hlen : ∀ f ∈ frames, f.payload.length ≤ H3C_MAX_FRAME_LEN) :
    ∀ f ∈ frames, h3c.Whole f.encode :=
  fun f hf => whole_encode f.type₀ f.type₁ (hlen f hf)

theorem Fresh.receives (h : Fresh frames t)
    (hlen : ∀ f ∈ frames, f.payload.length ≤ H3C_MAX_FRAME_LEN) :
    Receives frames t.vpn.incomingQueue t := by
  refine ⟨[], frames, [], [], ?_⟩
  constructor
  · have := h.mtu
    simp only [VpnInfo.receiveMtu, h.deflate]
    simp only [H3C_MAX_FRAME_LEN] at this ⊢
    omega
  · exact Framing.at_start (whole_frames hlen)
  · exact h.inbox
  · exact ⟨.alloc t.vpn.receiveMtu.toNat, by simp [VpnInfo.receiveBuffer, h.pkt], rfl⟩
  · simp
  · simp

/-- The calls overflow the buffer, or queue every packet. -/
theorem Fresh.outcome (h : Fresh frames t) (hcalls : Brings frames calls)
    (hlen : ∀ f ∈ frames, f.payload.length ≤ H3C_MAX_FRAME_LEN) :
    (∃ t', receive calls t = .reconnect .overflow t' ∧ TooLong frames) ∨
    ∃ t', receive calls t = .on t' ∧
      t'.vpn.incomingQueue = t.vpn.incomingQueue ++
        (frames.filterMap RawFrame.packet?).map (fun s => ({ data := s } : Pkt)) ∧
      ∀ f ∈ frames, f.encode.length ≤ 16384 := by
  rcases (h.receives hlen).receive (whole_frames hlen) hcalls.delivers with
    hover | ⟨t', hon, hreceives, hle⟩
  · exact Or.inl hover
  · have henough := hcalls.enough
    rw [h.inbox] at hle
    exact Or.inr ⟨t', hon, hreceives.all (List.eq_nil_of_length_eq_zero (by omega))⟩

end Fresh

/-- The read loop queues exactly the IPv4 payloads, and never reconnects, just when
every frame fits the receive buffer together with its header. -/
theorem frames_received (frames : List RawFrame) (t : Turn) (calls : List (List Read))
    (hlen : ∀ f ∈ frames, f.payload.length ≤ H3C_MAX_FRAME_LEN) (hfresh : Fresh frames t)
    (hcalls : Brings frames calls) :
    (∃ t', receive calls t = .on t' ∧ t'.vpn.incomingQueue = t.vpn.incomingQueue ++
      (frames.filterMap RawFrame.packet?).map (fun s => ({ data := s } : Pkt))) ↔
    ∀ f ∈ frames, f.payload.length + 4 ≤ H3C_MAX_FRAME_LEN := by
  have houtcome := hfresh.outcome hcalls hlen
  constructor
  · rintro ⟨t', hon, -⟩ f hf
    rcases houtcome with ⟨t'', hover, -⟩ | ⟨-, -, -, hfit⟩
    · rw [hon] at hover
      cases hover
    · have := hfit f hf
      rw [f.encode_length] at this
      simp only [H3C_MAX_FRAME_LEN]
      omega
  · intro hfit
    rcases houtcome with ⟨-, -, f, hf, hlong⟩ | ⟨t', hon, hqueue, -⟩
    · have := hfit f hf
      rw [f.encode_length] at hlong
      simp only [H3C_MAX_FRAME_LEN] at this
      omega
    · exact ⟨t', hon, hqueue⟩

def freshTurn (frames : List RawFrame) : Turn where
  vpn := { sslOpen := true, mtu := 1400, ssl := { inbox := frames.flatMap RawFrame.encode } }
  timeout := 0

theorem freshTurn_fresh (frames : List RawFrame) : Fresh frames (freshTurn frames) :=
  ⟨show (1400 : Int) ≤ 16384 by decide, rfl, rfl, rfl⟩

def readOne : Read := .upTo 1 0 fun _ => true

theorem brings_readOne {frames : List RawFrame} {n m : Nat}
    (h : (frames.flatMap RawFrame.encode).length ≤ n + m) :
    Brings frames [List.replicate n readOne, List.replicate m readOne] where
  delivers reads hreads r hr := by
    simp only [List.mem_cons, List.not_mem_nil, or_false] at hreads
    rcases hreads with rfl | rfl <;> (rw [List.eq_of_mem_replicate hr]; exact fun _ => rfl)
  enough := by
    simpa only [List.flatten_cons, List.flatten_nil, List.length_append, List.length_replicate,
      List.length_nil, Nat.add_zero] using h

/-- A packet and an unknown frame, read byte by byte in two calls. -/
theorem frames_received_sample :
    (∃ t', receive [List.replicate 5 readOne, List.replicate 4 readOne]
        (freshTurn [⟨1, 0, [0x45]⟩, ⟨6, 0, []⟩]) = .on t' ∧
      t'.vpn.incomingQueue = (freshTurn [⟨1, 0, [0x45]⟩, ⟨6, 0, []⟩]).vpn.incomingQueue ++
        ([⟨1, 0, [0x45]⟩, ⟨6, 0, []⟩].filterMap RawFrame.packet?).map
          (fun s => ({ data := s } : Pkt))) ↔
    ∀ f ∈ [(⟨1, 0, [0x45]⟩ : RawFrame), ⟨6, 0, []⟩], f.payload.length + 4 ≤ H3C_MAX_FRAME_LEN :=
  frames_received _ _ _ (by decide) (freshTurn_fresh _) (brings_readOne (by decide))

/-- The shortest frame that passes the length check and cannot be received. -/
def longFrame : RawFrame := ⟨1, 0, List.replicate 16381 0⟩

theorem longFrame_length : longFrame.payload.length = 16381 := List.length_replicate

/-- The gateway sends that frame. -/
theorem frame_overflows : ∃ frames t calls,
    (∀ f ∈ frames, f.payload.length ≤ H3C_MAX_FRAME_LEN) ∧ Fresh frames t ∧
      Brings frames calls ∧
      ¬∃ t', receive calls t = .on t' ∧ t'.vpn.incomingQueue = t.vpn.incomingQueue ++
        (frames.filterMap RawFrame.packet?).map (fun s => ({ data := s } : Pkt)) := by
  have hencode : longFrame.encode.length = 16385 := by
    rw [RawFrame.encode_length, longFrame_length]
  have hlen : ∀ f ∈ [longFrame], f.payload.length ≤ H3C_MAX_FRAME_LEN := by
    intro f hf
    rw [List.mem_singleton.mp hf, longFrame_length]
    decide
  have henough : ([longFrame].flatMap RawFrame.encode).length = 16385 := by
    rw [List.flatMap_singleton, hencode]
  have hcalls : Brings [longFrame] [List.replicate 16385 readOne, List.replicate 0 readOne] :=
    brings_readOne (Nat.le_of_eq henough)
  refine ⟨_, _, _, hlen, freshTurn_fresh _, hcalls, ?_⟩
  rintro ⟨t', hon, -⟩
  rcases (freshTurn_fresh _).outcome hcalls hlen with ⟨t'', hover, -⟩ | ⟨-, -, -, hfit⟩
  · rw [hon] at hover
    cases hover
  · have := hfit longFrame (List.mem_singleton_self _)
    omega

end InodeVpn.Proofs.ReceiveLoop
