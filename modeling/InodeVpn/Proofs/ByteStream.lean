import InodeVpn.Fork.Link
import InodeVpn.Proofs.FrameParser
import InodeVpn.Proofs.OutgoingFrames

namespace InodeVpn.Proofs.ByteStream
open Lib Fork FrameParser
open Wire hiding H3C_MAX_FRAME_LEN
open OutgoingFrames (fresh fresh_start kaCheckDeadline)
open Writers (others handleOutgoing_others keepalive_others)

/-- The packet in a frame, if it is one that carries a packet. -/
def packetOf (raw : Bytes) : Option Pkt :=
  if raw.getD 0 0 = 1 ∧ raw.getD 1 0 = 0 then some { data := raw.drop 4 } else none

/-- A decoder of the frame format that is given the stream in one piece. -/
def decode (stream : Bytes) : List Pkt := (h3c.cut stream).frames.filterMap packetOf

/-- What has happened on a connection since `h3c_connect`: the bytes that were read, those that
`h3c_parse_frames` has stepped over, where it stopped in how many bytes each time, the packets
that were on the incoming queue at the start, and those that have left it. -/
structure Past where
  received : Bytes := []
  consumed : Bytes := []
  parses : List (Nat × Nat) := []
  waiting : List Pkt
  delivered : List Pkt := []

/-- The connection is new. -/
def Past.begin (v : VpnInfo) : Past := { waiting := v.incomingQueue }

/-- A read has brought bytes, and they are parsed behind those in the buffer. -/
def Past.read (alloc : Nat → Bool) (pkt : RecvBuf) (bytes : Bytes) (past : Past) : Past :=
  let b := pkt.write bytes
  let off := (parseLoop alloc b.data b.partialRecSize 0 [] (Nat.zero_le _)).off
  { past with
    received := past.received ++ bytes
    consumed := past.consumed ++ b.bytes.take off
    parses := past.parses ++ [(off, b.partialRecSize)] }

/-- A round of the read loop, beside `readStep`. -/
def Past.round (bufferAlloc : Bool) (r : Read) (t : Turn) (past : Past) : Past :=
  match t.vpn.receiveBuffer bufferAlloc with
  | none => past
  | some pkt =>
    let t := t.withBuffer pkt
    match r with
    | .upTo n _ alloc =>
      let bytes :=
        (t.vpn.ssl.nonblockRead n (t.vpn.receiveMtu - pkt.partialRecSize).toNat).1
      if (pkt.partialRecSize : Int) ≥ t.vpn.receiveMtu then past
      else if bytes = [] then past else past.read alloc pkt bytes
    | _ => past

/-- The states after each round of the read loop, beside `readLoop`. -/
def rounds (bufferAlloc : Bool) : List Read → Past → Turn → List (Past × Flow)
  | [], past, t =>
    match readStep bufferAlloc .again t with
    | .again t' => [(past.round bufferAlloc .again t, .on t')]
    | .leave f => [(past.round bufferAlloc .again t, f)]
  | r :: reads, past, t =>
    match readStep bufferAlloc r t with
    | .again t' =>
      (past.round bufferAlloc r t, .on t') ::
        rounds bufferAlloc reads (past.round bufferAlloc r t) t'
    | .leave f => [(past.round bufferAlloc r t, f)]

/-- A whole call, beside `mainloop`: where its last round is at. -/
def Past.call (o : Outside) (v : VpnInfo) (past : Past) : Past :=
  if v.sslOpen ∧ o.readable then
    (rounds o.bufferAlloc o.reads past { vpn := v, timeout := o.timeout }).getLast?.elim past
      Prod.fst
  else past

/-- What an action adds. A reconnect that succeeds is a new connection. -/
def Past.watch (l : Link) (a : Action) (e : Option Returned) (past : Past) : Past :=
  match a, e with
  | .deliver, _ => { past with delivered := past.delivered ++ l.vpn.incomingQueue.head?.toList }
  | .call o, some r =>
    if r.cause.isSome && o.reconnect.ret = 0 then .begin r.vpn else past.call o l.vpn
  | _, _ => past

/-- The runs of `h3c_mainloop`, with the record of the connection beside them. -/
def streamed (kaCheckDeadline : Int → Int → Int → Int) : System (Past × Link) Action Returned where
  init s := s.1 = .begin s.2.vpn ∧ s.2.Start
  step s a := (s.2.step kaCheckDeadline a).map fun r => ((s.1.watch s.2 a r.2, r.1), r.2)

/-- The bytes in the receive buffer. -/
def residue (v : VpnInfo) : Bytes := v.cstpPkt.elim [] RecvBuf.bytes

/-- What holds up to the moment of a reconnect: the buffer keeps its size, no offset passes the
end of the data, no byte is lost or doubled, and the packets queued are those in the bytes
consumed. -/
structure Kept (past : Past) (v : VpnInfo) : Prop where
  size : ∀ pkt ∈ v.cstpPkt, (pkt.data.length : Int) = v.receiveMtu ∧
    (pkt.partialRecSize : Int) ≤ v.receiveMtu
  bounded : ∀ parse ∈ past.parses, parse.1 ≤ parse.2
  stream : past.consumed ++ residue v = past.received
  frames : ∃ frames : List Bytes, (∀ raw ∈ frames, h3c.Whole raw) ∧ past.consumed = frames.flatten ∧
    past.delivered ++ v.incomingQueue = past.waiting ++ frames.filterMap packetOf

/-- And while nothing is amiss the buffer holds no whole frame. -/
structure Steady (past : Past) (v : VpnInfo) : Prop extends Kept past v where
  settled : h3c.next (residue v) = .wait

/-- What has been queued is what a decoder finds in all that was received. -/
def Decodes (past : Past) (v : VpnInfo) : Prop :=
  past.delivered ++ v.incomingQueue = past.waiting ++ decode past.received

/-- The part of the state that reading works on. -/
def receiver (v : VpnInfo) : Option RecvBuf × Int × List Pkt :=
  (v.cstpPkt, v.receiveMtu, v.incomingQueue)

section Decode
variable {past : Past} {v v' : VpnInfo}

theorem receiveMtu_ge (v : VpnInfo) : 16384 ≤ v.receiveMtu := Int.le_max_left ..

theorem packetOf_taken (raw : Bytes) :
    ((takenOf raw).payload?.map fun s => ({ data := s } : Pkt)) = packetOf raw := by
  rw [takenOf, packetOf]
  simp only [fromLeBytes_eq_ipv4]
  split
  · rename_i hkeep
    rw [hkeep.1]
    rfl
  · split <;> rfl

theorem Kept.decodes (h : Kept past v) (hcut : (h3c.cut (residue v)).frames = []) :
    Decodes past v := by
  obtain ⟨frames, hwhole, hconsumed, hqueue⟩ := h.frames
  have hframes : (h3c.cut (frames.flatten ++ residue v)).frames = frames := by
    rw [Framing.cut_whole_append hwhole, hcut, List.append_nil]
  rw [← hconsumed, h.stream] at hframes
  rw [Decodes, decode, hframes]
  exact hqueue

theorem Steady.decodes (h : Steady past v) : Decodes past v := by
  apply h.toKept.decodes
  rw [Framing.cut_wait h.settled]

theorem Kept.congr (h : Kept past v) (hv : receiver v' = receiver v) : Kept past v' := by
  simp only [receiver, Prod.mk.injEq] at hv
  obtain ⟨hpkt, hmtu, hqueue⟩ := hv
  refine ⟨?_, h.bounded, ?_, ?_⟩
  · rw [hpkt, hmtu]
    exact h.size
  · rw [residue, hpkt]
    exact h.stream
  · rw [hqueue]
    exact h.frames

theorem Steady.congr (h : Steady past v) (hv : receiver v' = receiver v) : Steady past v' := by
  refine ⟨h.toKept.congr hv, ?_⟩
  rw [residue, (Prod.mk.inj hv).1]
  exact h.settled

/-- A new connection has lost nothing. -/
theorem begin_steady (hpkt : v.cstpPkt = none) : Steady (.begin v) v := by
  have hresidue : residue v = [] := by rw [residue, hpkt]; rfl
  refine ⟨⟨?_, ?_, ?_, [], ?_, rfl, ?_⟩, ?_⟩
  · rw [hpkt]
    exact fun pkt h => by cases h
  · exact fun parse h => absurd h List.not_mem_nil
  · exact hresidue
  · exact fun raw h => absurd h List.not_mem_nil
  · simp [Past.begin]
  · rw [hresidue]
    exact h3c.next_short (Nat.succ_pos 3)

end Decode

section Rounds
variable {past : Past} {t t' : Turn} {pkt : RecvBuf} {alloc : Nat → Bool} {bytes : Bytes}

/-- The buffer that a round reads into. -/
theorem Steady.withBuffer {bufferAlloc : Bool} (h : Steady past t.vpn)
    (hbuf : t.vpn.receiveBuffer bufferAlloc = some pkt) : Steady past (t.withBuffer pkt).vpn := by
  unfold VpnInfo.receiveBuffer at hbuf
  split at hbuf
  · rename_i pkt' hpkt
    cases hbuf
    refine h.congr ?_
    rw [receiver, receiver, hpkt]
    rfl
  · rename_i hnone
    split at hbuf
    · cases hbuf
      have hempty : residue t.vpn = [] := by rw [residue, hnone]; rfl
      refine ⟨⟨?_, h.bounded, ?_, h.frames⟩, ?_⟩
      · rintro pkt ⟨⟩
        have hroom := receiveMtu_ge t.vpn
        simp only [RecvBuf.alloc, List.length_replicate, Turn.receiveMtu_withBuffer]
        omega
      · have hstream := h.stream
        rw [hempty] at hstream
        exact hstream
      · have hsettled := h.settled
        rw [hempty] at hsettled
        exact hsettled
    · cases hbuf

variable (pkt alloc bytes) in
/-- A parse steps over whole frames, those of the packets that it queues among them. -/
theorem read_frames : ∃ new : List Bytes, (∀ raw ∈ new, h3c.Whole raw) ∧
    (pkt.write bytes).bytes.take (parseLoop alloc (pkt.write bytes).data
      (pkt.write bytes).partialRecSize 0 [] (Nat.zero_le _)).off = new.flatten ∧
    ((parseFrames alloc (pkt.write bytes)).2.1.filterMap Taken.payload?).map
      (fun s => ({ data := s } : Pkt)) = new.filterMap packetOf := by
  obtain ⟨new, hnew, htaken, hbytes, -⟩ := parseFrames_takes alloc (pkt.write bytes)
  refine ⟨new, hnew, ?_, ?_⟩
  · apply List.append_cancel_right
    rw [← hbytes, parseFrames_drop, List.take_append_drop]
  · rw [htaken, List.filterMap_map, List.map_filterMap]
    exact List.filterMap_congr fun raw _ => packetOf_taken raw

/-- What a read and its parse leave, whether or not the parse fails. -/
theorem Steady.read_kept (h : Steady past t.vpn) (hpkt : t.vpn.cstpPkt = some pkt)
    (hfits : (pkt.partialRecSize + bytes.length : Int) ≤ t.vpn.receiveMtu)
    (hbuffer : t'.vpn.cstpPkt = some (parseFrames alloc (pkt.write bytes)).1)
    (hmtu : t'.vpn.receiveMtu = t.vpn.receiveMtu)
    (hin : t'.vpn.incomingQueue = t.vpn.incomingQueue ++
      ((parseFrames alloc (pkt.write bytes)).2.1.filterMap Taken.payload?).map
        fun s => { data := s }) :
    Kept (past.read alloc pkt bytes) t'.vpn := by
  obtain ⟨hsize, -⟩ := h.size pkt hpkt
  obtain ⟨frames, hwhole, hconsumed, hqueue⟩ := h.frames
  obtain ⟨new, hnew, htake, hpackets⟩ := read_frames pkt alloc bytes
  have hresidue : residue t.vpn = pkt.bytes := by rw [residue, hpkt]; rfl
  have hresidue' : residue t'.vpn = (parseFrames alloc (pkt.write bytes)).1.bytes := by
    rw [residue, hbuffer]
    rfl
  refine ⟨?_, ?_, ?_, frames ++ new, ?_, ?_, ?_⟩
  · intro pkt' hpkt'
    rw [hbuffer] at hpkt'
    cases hpkt'
    have hfits' := (parseFrames alloc (pkt.write bytes)).1.fits
    have hlength : (parseFrames alloc (pkt.write bytes)).1.data.length = pkt.data.length := by
      rw [parseFrames_length, RecvBuf.length_write (by omega)]
    rw [hmtu]
    omega
  · intro parse hparse
    rcases List.mem_append.mp hparse with hold | hlast
    · exact h.bounded parse hold
    · rw [List.mem_singleton.mp hlast]
      exact (parseLoop ..).bounded
  · calc (past.consumed ++ (pkt.write bytes).bytes.take _) ++ residue t'.vpn
        = past.consumed ++ (pkt.write bytes).bytes := by
          rw [hresidue', parseFrames_drop, List.append_assoc, List.take_append_drop]
      _ = (past.consumed ++ residue t.vpn) ++ bytes := by
          rw [RecvBuf.bytes_write, hresidue, List.append_assoc]
      _ = past.received ++ bytes := by rw [h.stream]
  · intro raw hraw
    exact (List.mem_append.mp hraw).elim (hwhole raw) (hnew raw)
  · rw [List.flatten_append, ← hconsumed, ← htake]
    rfl
  · change past.delivered ++ t'.vpn.incomingQueue = past.waiting ++ _
    rw [List.filterMap_append, ← List.append_assoc, ← hqueue, ← hpackets, hin,
      ← List.append_assoc]

/-- Unless memory runs out a parse leaves no whole frame in the buffer, and where it ends well
the buffer holds no bad header either. -/
theorem parse_settles (alloc : Nat → Bool) (pkt : RecvBuf) :
    ((parseFrames alloc pkt).2.2 ≠ -ENOMEM →
      (h3c.cut (parseFrames alloc pkt).1.bytes).frames = []) ∧
    ((parseFrames alloc pkt).2.2 = 0 → h3c.next (parseFrames alloc pkt).1.bytes = .wait) := by
  obtain ⟨-, -, -, -, hstops⟩ := parseFrames_takes alloc pkt
  refine ⟨fun hret => (hstops hret).1, fun hret => ?_⟩
  obtain ⟨hnone, hvalue⟩ := hstops (by rw [hret]; decide)
  apply Framing.next_of_cut hnone
  by_contra herror
  rw [hret, if_pos (Option.isSome_iff_ne_none.mpr herror)] at hvalue
  cases hvalue

theorem Steady.read (h : Steady past t.vpn) (hpkt : t.vpn.cstpPkt = some pkt) (ssl : Ssl)
    (now : Int) (hfits : (pkt.partialRecSize + bytes.length : Int) ≤ t.vpn.receiveMtu) :
    let parsed := (t.received bytes ssl now).parse alloc (pkt.write bytes)
    Kept (past.read alloc pkt bytes) parsed.1.vpn ∧
      (parsed.2 = 0 → Steady (past.read alloc pkt bytes) parsed.1.vpn) ∧
      (parsed.2 ≠ -ENOMEM → Decodes (past.read alloc pkt bytes) parsed.1.vpn) := by
  intro parsed
  have hkept : Kept (past.read alloc pkt bytes) parsed.1.vpn := h.read_kept hpkt hfits rfl rfl rfl
  obtain ⟨hempty, hwait⟩ := parse_settles alloc (pkt.write bytes)
  exact ⟨hkept, fun hret => ⟨hkept, hwait hret⟩, fun hret => hkept.decodes (hempty hret)⟩

/-- How a round leaves things, whether the call goes on or not. -/
structure Fares (past : Past) (f : Flow) : Prop where
  kept : Kept past f.turn.vpn
  steady : ∀ t, f = .on t → Steady past t.vpn
  decodes : (∀ t, f ≠ .reconnect (.parseError (-ENOMEM)) t) → Decodes past f.turn.vpn

theorem Steady.fares (h : Steady past t.vpn) : Fares past (.on t) := by
  refine ⟨h.toKept, ?_, fun _ => h.decodes⟩
  rintro t' ⟨⟩
  exact h

theorem Steady.fares_reconnect {cause : Cause} (h : Steady past t.vpn) :
    Fares past (.reconnect cause t) :=
  ⟨h.toKept, fun t' hon => (by cases hon), fun _ => h.decodes⟩

/-- And the same of a round of the read loop. -/
def Goes (past : Past) : ReadStep → Prop
  | .again t => Steady past t.vpn
  | .leave f => Fares past f

/-- One round of the read loop. -/
theorem Steady.round (bufferAlloc : Bool) (r : Read) (h : Steady past t.vpn) :
    Goes (past.round bufferAlloc r t) (readStep bufferAlloc r t) := by
  unfold readStep Past.round
  cases hbuf : t.vpn.receiveBuffer bufferAlloc with
  | none => exact h.fares
  | some pkt =>
    have hpkt := h.withBuffer hbuf
    cases r with
    | again =>
      simp only
      split
      · exact hpkt.fares_reconnect
      · exact hpkt.fares
    | error =>
      simp only
      split <;> exact hpkt.fares_reconnect
    | upTo n now alloc =>
      simp only
      have hle := Ssl.nonblockRead_length_le (t.withBuffer pkt).vpn.ssl n
        ((t.withBuffer pkt).vpn.receiveMtu - pkt.partialRecSize).toNat
      by_cases hfull : (pkt.partialRecSize : Int) ≥ (t.withBuffer pkt).vpn.receiveMtu
      · rw [if_pos hfull, if_pos hfull]
        exact hpkt.fares_reconnect
      · by_cases hbytes : ((t.withBuffer pkt).vpn.ssl.nonblockRead n
            ((t.withBuffer pkt).vpn.receiveMtu - pkt.partialRecSize).toNat).1 = []
        · rw [if_neg hfull, if_neg hfull, if_pos hbytes, if_pos hbytes]
          exact hpkt.fares
        · rw [if_neg hfull, if_neg hfull, if_neg hbytes, if_neg hbytes]
          have hfits : (pkt.partialRecSize + ((t.withBuffer pkt).vpn.ssl.nonblockRead n
              ((t.withBuffer pkt).vpn.receiveMtu - pkt.partialRecSize).toNat).1.length : Int) ≤
              (t.withBuffer pkt).vpn.receiveMtu := by omega
          obtain ⟨hkept, hsteady, hdecodes⟩ := hpkt.read rfl _ now hfits
          split
          · refine ⟨hkept, fun t' hon => (by cases hon), fun hne => hdecodes fun hret => ?_⟩
            exact hne _ (congrArg (fun ret => Flow.reconnect (.parseError ret) _) hret)
          · rename_i hret
            exact hsteady (Decidable.not_not.mp hret)

theorem rounds_fare (bufferAlloc : Bool) (reads : List Read) (h : Steady past t.vpn) :
    ∀ stage ∈ rounds bufferAlloc reads past t, Fares stage.1 stage.2 := by
  induction reads generalizing past t with
  | nil =>
    have hround := h.round bufferAlloc .again
    unfold rounds
    split
    all_goals
      rename_i hstep
      rw [hstep] at hround
      intro stage hstage
      rw [List.mem_singleton.mp hstage]
    · exact hround.fares
    · exact hround
  | cons r reads ih =>
    have hround := h.round bufferAlloc r
    unfold rounds
    split
    · rename_i hstep
      rw [hstep] at hround
      exact List.forall_mem_cons.mpr ⟨hround.fares, ih hround⟩
    · rename_i hstep
      rw [hstep] at hround
      intro stage hstage
      rw [List.mem_singleton.mp hstage]
      exact hround

/-- The last round leaves what the loop leaves. -/
theorem rounds_last (bufferAlloc : Bool) (reads : List Read) (past : Past) (t : Turn) :
    ∃ past', (rounds bufferAlloc reads past t).getLast? =
      some (past', readLoop bufferAlloc reads t) := by
  induction reads generalizing past t with
  | nil =>
    rw [rounds, readLoop]
    cases readStep bufferAlloc .again t with
    | again t' => exact ⟨_, rfl⟩
    | leave f => exact ⟨_, rfl⟩
  | cons r reads ih =>
    rw [rounds, readLoop]
    cases readStep bufferAlloc r t with
    | again t' =>
      obtain ⟨past', hlast⟩ := ih (past.round bufferAlloc r t) t'
      refine ⟨past', ?_⟩
      simp only
      rw [List.getLast?_cons, hlast]
      rfl
    | leave f => exact ⟨_, rfl⟩

end Rounds

section Calls
variable {past : Past} {v v' : VpnInfo} {t : Turn} {o : Outside}

theorem receiver_of_others (h : others v' = others v) : receiver v' = receiver v := by
  have hothers : receiver (others v') = receiver (others v) := congrArg receiver h
  exact hothers

/-- What follows the reading does not touch the receiver. -/
theorem Fares.andThen {f : Flow} {next : Turn → Flow} (h : Fares past f)
    (hnext : ∀ t, receiver (next t).turn.vpn = receiver t.vpn) : Fares past (f.andThen next) := by
  cases f with
  | reconnect cause t => exact h
  | on t =>
    have hsteady := (h.steady t rfl).congr (hnext t)
    refine ⟨hsteady.toKept, fun t' hon => ?_, fun _ => hsteady.decodes⟩
    rwa [show next t = .on t' from hon] at hsteady

/-- A call, up to where it returns or reconnects. -/
theorem Steady.loopBody (kaCheckDeadline : Int → Int → Int → Int) (o : Outside)
    (h : Steady past v) : Fares (past.call o v) (loopBody kaCheckDeadline o v) := by
  unfold Past.call Fork.loopBody
  by_cases hopen : v.sslOpen = true
  · simp only [hopen, true_and, if_true]
    apply Fares.andThen _ fun t => receiver_of_others (keepalive_others kaCheckDeadline o t)
    apply Fares.andThen _ fun t =>
      receiver_of_others (handleOutgoing_others o.dataWrite o.dataSentAt t)
    split
    · have hbegin : Steady past ({ vpn := v, timeout := o.timeout } : Turn).vpn := h
      obtain ⟨past', hlast⟩ := rounds_last o.bufferAlloc o.reads past
        { vpn := v, timeout := o.timeout }
      rw [hlast]
      exact rounds_fare o.bufferAlloc o.reads hbegin _ (List.mem_of_getLast? hlast)
    · exact h.fares
  · rw [if_neg hopen, if_neg fun hread => hopen hread.1]
    exact h.fares_reconnect

/-- `do_reconnect` gets a new connection, or none. -/
theorem Kept.doReconnect (cause : Cause) (h : Kept past t.vpn) :
    (o.reconnect.ret = 0 ∧ (doReconnect o cause t).vpn.cstpPkt = none) ∨
      (o.reconnect.ret ≠ 0 ∧ (doReconnect o cause t).vpn.quitReason ≠ none ∧
        Kept past (doReconnect o cause t).vpn) := by
  by_cases hret : o.reconnect.ret = 0
  · refine Or.inl ⟨hret, ?_⟩
    simp [Fork.doReconnect, sslReconnect, hret, VpnInfo.connected]
  · refine Or.inr ⟨hret, ?_, h.congr ?_⟩
    · simp [Fork.doReconnect, hret]
    · simp only [Fork.doReconnect, sslReconnect, if_neg hret, if_pos hret, VpnInfo.readHeaders]
      split <;> rfl

end Calls

/-- While the client has not given up, the connection is steady. -/
structure Streams (past : Past) (v : VpnInfo) : Prop extends Kept past v where
  steady : v.quitReason = none → Steady past v

section Run
variable {past : Past} {v : VpnInfo} {kaCheckDeadline : Int → Int → Int → Int}

theorem Steady.streams (h : Steady past v) : Streams past v := ⟨h.toKept, fun _ => h⟩

theorem Steady.mainloop (kaCheckDeadline : Int → Int → Int → Int) (o : Outside)
    (h : Steady past v) :
    Streams
      (if (mainloop kaCheckDeadline o v).cause.isSome && o.reconnect.ret = 0 then
        .begin (mainloop kaCheckDeadline o v).vpn
      else past.call o v)
      (mainloop kaCheckDeadline o v).vpn := by
  have hbody := h.loopBody kaCheckDeadline o
  unfold Fork.mainloop
  cases hflow : Fork.loopBody kaCheckDeadline o v with
  | on t =>
    rw [hflow] at hbody
    exact (hbody.steady t rfl).streams
  | reconnect cause t =>
    rw [hflow] at hbody
    simp only [OutgoingFrames.doReconnect_cause, Option.isSome_some, Bool.true_and]
    rcases hbody.kept.doReconnect (o := o) cause with ⟨hret, hpkt⟩ | ⟨hret, hquit, hkept⟩
    · rw [if_pos (decide_eq_true hret)]
      exact (begin_steady hpkt).streams
    · rw [if_neg (by simpa using hret)]
      exact ⟨hkept, fun hnone => absurd hnone hquit⟩

theorem Kept.deliver (h : Kept past v) :
    Kept { past with delivered := past.delivered ++ v.incomingQueue.head?.toList }
      { v with incomingQueue := v.incomingQueue.tail } := by
  obtain ⟨frames, hwhole, hconsumed, hqueue⟩ := h.frames
  refine ⟨h.size, h.bounded, h.stream, frames, hwhole, hconsumed, ?_⟩
  cases hincoming : v.incomingQueue with
  | nil => simpa [hincoming] using hqueue
  | cons pkt queue => simpa [hincoming] using hqueue

theorem Streams.congr {v' : VpnInfo} (h : Streams past v) (hv : receiver v' = receiver v)
    (hquit : v'.quitReason = v.quitReason) : Streams past v' :=
  ⟨h.toKept.congr hv, fun hnone => (h.steady (hquit ▸ hnone)).congr hv⟩

/-- One action, and what the record has of it. -/
theorem Streams.step {l l' : Link} {a : Action} {e : Option Returned} (h : Streams past l.vpn)
    (hs : l.step kaCheckDeadline a = some (l', e)) : Streams (past.watch l a e) l'.vpn := by
  cases a with
  | queue pkt =>
    cases hs
    exact h.congr rfl rfl
  | deliver =>
    cases hs
    exact ⟨h.toKept.deliver, fun hnone =>
      ⟨(h.steady hnone).toKept.deliver, (h.steady hnone).settled⟩⟩
  | arrive bytes =>
    simp only [Link.step] at hs
    split at hs
    · cases hs
      exact h.congr rfl rfl
    · cases hs
  | hangUp =>
    cases hs
    exact h.congr rfl rfl
  | call o =>
    simp only [Link.step] at hs
    split at hs
    · cases hs
    · rename_i hquit
      cases hs
      have hnone : l.vpn.quitReason = none := by simpa using hquit
      exact (h.steady hnone).mainloop kaCheckDeadline o

theorem reach_streams {t : List Returned} {s : Past × Link}
    (h : System.Reachable (streamed kaCheckDeadline) t s) : Streams s.1 s.2.vpn := by
  apply h.invariant (I := fun _ s => Streams s.1 s.2.vpn)
  · rintro ⟨past, l⟩ ⟨hbegin, v, now, hvpn, -⟩
    simp only at hbegin hvpn ⊢
    have hpkt : l.vpn.cstpPkt = none := by rw [hvpn]; rfl
    exact hbegin ▸ (begin_steady hpkt).streams
  · intro t s a s' e _ hx _ hs
    obtain ⟨⟨l', e'⟩, hstep, heq⟩ := Option.map_eq_some_iff.mp hs
    cases heq
    exact hx.step hstep

end Run

/-- Since the last `h3c_connect` no byte is lost, doubled or out of order: in every state and after
every round of reading the buffer holds what is received and not consumed, and what has been
queued is what a decoder finds in all of it. -/
theorem stream_conserved (kaCheckDeadline : Int → Int → Int → Int) (t : List Returned)
    (s : Past × Link) (h : System.Reachable (streamed kaCheckDeadline) t s) :
    Kept s.1 s.2.vpn ∧
    (s.2.vpn.quitReason = none →
      Steady s.1 s.2.vpn ∧ Decodes s.1 s.2.vpn ∧
      ∀ o : Outside, ∀ stage ∈ rounds o.bufferAlloc o.reads s.1
        { vpn := s.2.vpn, timeout := o.timeout }, Fares stage.1 stage.2) := by
  have hstreams := reach_streams h
  refine ⟨hstreams.toKept, fun hquit => ?_⟩
  have hsteady := hstreams.steady hquit
  refine ⟨hsteady, hsteady.decodes, fun o => ?_⟩
  have hbegin : Steady s.1 ({ vpn := s.2.vpn, timeout := o.timeout } : Turn).vpn := hsteady
  exact rounds_fare o.bufferAlloc o.reads hbegin

/-- A packet has arrived, and half of the next header. -/
def arrived : VpnInfo := { fresh.vpn with ssl := { inbox := [1, 0, 0, 1, 0x45, 6, 0] } }

theorem stream_conserved_sample :
    Kept (.begin arrived) arrived ∧ Steady (.begin arrived) arrived ∧
      Decodes (.begin arrived) arrived ∧
      (rounds true [.upTo 3 0 fun _ => true, .upTo 9 0 fun _ => true] (.begin arrived)
        { vpn := arrived, timeout := 0 }).Forall fun stage => Fares stage.1 stage.2 := by
  have hstart : System.Reachable (streamed kaCheckDeadline) [] (.begin fresh.vpn, fresh) :=
    .init ⟨rfl, fresh_start⟩
  have harrive := hstart.step (a := .arrive [1, 0, 0, 1, 0x45, 6, 0]) rfl rfl
  obtain ⟨hkept, hgoes⟩ := stream_conserved kaCheckDeadline _ _ harrive
  obtain ⟨hsteady, hdecodes, hfares⟩ := hgoes rfl
  refine ⟨hkept, hsteady, hdecodes, List.forall_iff_forall_mem.mpr ?_⟩
  exact hfares { reads := [.upTo 3 0 fun _ => true, .upTo 9 0 fun _ => true] }

end InodeVpn.Proofs.ByteStream
