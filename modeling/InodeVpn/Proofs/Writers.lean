import InodeVpn.Fork.Mainloop

namespace InodeVpn.Proofs.Writers
open Wire Fork

/-- A frame as the client sends it. -/
inductive OutFrame
  | packet (data : Bytes)
  | keepalive
  deriving DecidableEq, Repr

def OutFrame.bytes : OutFrame → Bytes
  | .packet data => [0x01, 0x00] ++ toBeBytes (UInt16.ofNat data.length) ++ data
  | .keepalive => [0x02, 0x00, 0x00, 0x00]

def OutFrame.data? : OutFrame → Option Bytes
  | .packet data => some data
  | .keepalive => none

/-- What has been sent is the beginning of whole frames, and their packets are
the queued ones, in order, up to those that are still waiting. -/
def WholeFrames (sent : Bytes) (waiting queued : List Pkt) : Prop :=
  ∃ frames : List OutFrame, sent <+: frames.flatMap OutFrame.bytes ∧
    frames.filterMap OutFrame.data? ++ waiting.map Pkt.data = queued.map Pkt.data

/-- The part of the state that the two writers work on. -/
structure Sender where
  sent : Bytes
  current : Option Pkt
  waiting : List Pkt
  txOffset : Nat
  hbBuf : Bytes
  hbOffset : Nat
  hbPending : Bool
  lastTx : Int
  keepaliveTime : Int

def sender (v : VpnInfo) : Sender where
  sent := v.ssl.sent
  current := v.currentSslPkt
  waiting := v.outgoingQueue
  txOffset := v.txOffset
  hbBuf := v.hbBuf
  hbOffset := v.hbOffset
  hbPending := v.hbPending
  lastTx := v.lastTx
  keepaliveTime := v.keepaliveTime

/-- What is out of the data frame and of the keepalive under way. -/
def Sender.begun (s : Sender) : Bytes :=
  (s.current.elim [] fun pkt => pkt.image.take s.txOffset) ++ s.hbBuf.take s.hbOffset

/-- The frames `done` are out in full, and at most one other has been begun. -/
structure Sending (queued : List Pkt) (done : List OutFrame) (s : Sender) : Prop where
  sent : s.sent = done.flatMap OutFrame.bytes ++ s.begun
  order : done.filterMap OutFrame.data? ++ s.current.toList.map Pkt.data ++
    s.waiting.map Pkt.data = queued.map Pkt.data
  stamped : ∀ pkt ∈ s.current, pkt.image = (OutFrame.packet pkt.data).bytes
  partly : ∀ pkt ∈ s.current, s.txOffset < pkt.data.length + 4
  idle : s.current = none → s.txOffset = 0
  pending : s.hbPending = true → s.hbBuf = OutFrame.keepalive.bytes ∧ s.hbOffset < 4
  quiet : s.hbPending = false → s.hbOffset = 0
  apart : s.txOffset = 0 ∨ s.hbOffset = 0

theorem stamp_image (pkt : Pkt) : pkt.stamp.image = (OutFrame.packet pkt.data).bytes := by
  have htype : toLeBytes H3C_FRAME_IPV4 = [0x01, 0x00] := by decide
  rw [Pkt.image, Pkt.stamp, htype]
  rfl

theorem current_data (current : Option Pkt) :
    (current.toList.map fun pkt => OutFrame.packet pkt.data).filterMap OutFrame.data? =
      current.toList.map Pkt.data := by
  cases current <;> rfl

section Sending
variable {queued : List Pkt} {done : List OutFrame} {s : Sender}

theorem Sending.begun_packet (h : Sending queued done s) (hhb : s.hbOffset = 0) :
    s.begun <+: (s.current.toList.map fun pkt => OutFrame.packet pkt.data).flatMap
      OutFrame.bytes := by
  rw [Sender.begun, hhb, List.take_zero, List.append_nil]
  cases hcur : s.current with
  | none => simp
  | some pkt =>
    simp only [Option.elim_some, h.stamped pkt hcur, Option.toList_some, List.map_cons,
      List.map_nil, List.flatMap_cons, List.flatMap_nil, List.append_nil]
    exact List.take_prefix _ _

theorem Sending.begun_keepalive (h : Sending queued done s) (hhb : s.hbOffset ≠ 0) :
    s.begun <+: OutFrame.keepalive.bytes := by
  have htx : s.txOffset = 0 := h.apart.resolve_right hhb
  have hpending : s.hbPending = true := by
    by_contra hq
    exact hhb (h.quiet (by simpa using hq))
  rw [Sender.begun, htx, (h.pending hpending).1]
  cases s.current <;> simpa using List.take_prefix _ _

/-- With the frame under way, what has been sent is the beginning of whole frames. -/
theorem Sending.whole (h : Sending queued done s) : WholeFrames s.sent s.waiting queued := by
  by_cases hhb : s.hbOffset = 0
  · refine ⟨done ++ s.current.toList.map fun pkt => .packet pkt.data, ?_, ?_⟩
    · rw [h.sent, List.flatMap_append]
      exact (List.prefix_append_right_inj _).mpr (h.begun_packet hhb)
    · rw [← h.order, List.filterMap_append, current_data]
  · refine ⟨done ++ .keepalive :: s.current.toList.map fun pkt => .packet pkt.data, ?_, ?_⟩
    · rw [h.sent, List.flatMap_append, List.flatMap_cons]
      exact (List.prefix_append_right_inj _).mpr
        ((h.begun_keepalive hhb).trans (List.prefix_append _ _))
    · rw [← h.order, List.filterMap_append, List.filterMap_cons_none rfl, current_data]

theorem Sending.wait (h : Sending queued done s) (pkt : Pkt) :
    Sending (queued ++ [pkt]) done { s with waiting := s.waiting ++ [pkt] } where
  sent := h.sent
  order := by
    rw [List.map_append, List.map_append, ← h.order, List.append_assoc _ _ ([pkt].map _)]
  stamped := h.stamped
  partly := h.partly
  idle := h.idle
  pending := h.pending
  quiet := h.quiet
  apart := h.apart

/-- The next packet is taken from the queue. -/
theorem Sending.dequeue (h : Sending queued done s) {pkt : Pkt} {waiting : List Pkt}
    (hcur : s.current = none) (hwaiting : s.waiting = pkt :: waiting) :
    Sending queued done { s with current := some pkt.stamp, waiting, txOffset := 0 } where
  sent := by
    rw [h.sent, Sender.begun, Sender.begun, hcur]
    simp
  order := by
    rw [← h.order, hcur, hwaiting]
    simp [Pkt.stamp]
  stamped p hp := by
    cases hp
    exact stamp_image pkt
  partly p hp := Nat.succ_pos _
  idle hnone := by cases hnone
  pending := h.pending
  quiet := h.quiet
  apart := Or.inl rfl

/-- More of the data frame is accepted. -/
theorem Sending.data_part (h : Sending queued done s) {pkt : Pkt} (hcur : s.current = some pkt)
    (hhb : s.hbOffset = 0) {n : Nat} (hn : s.txOffset + n < pkt.data.length + 4) :
    Sending queued done { s with
      sent := s.sent ++ (pkt.image.drop s.txOffset).take n, txOffset := s.txOffset + n } where
  sent := by
    rw [h.sent, Sender.begun, Sender.begun, hcur, hhb]
    simp [List.take_add]
  order := h.order
  stamped := h.stamped
  partly p hp := by
    obtain rfl : p = pkt := Option.some.inj (hp.symm.trans hcur)
    exact hn
  idle hnone := by
    rw [show s.current = none from hnone] at hcur
    cases hcur
  pending := h.pending
  quiet := h.quiet
  apart := Or.inr hhb

/-- The data frame is accepted to its end. -/
theorem Sending.data_done (h : Sending queued done s) {pkt : Pkt} (hcur : s.current = some pkt)
    (hhb : s.hbOffset = 0) (lastTx : Int) :
    Sending queued (done ++ [.packet pkt.data]) { s with
      sent := s.sent ++ pkt.image.drop s.txOffset
      current := none
      txOffset := 0
      lastTx } where
  sent := by
    rw [h.sent, Sender.begun, Sender.begun, hcur, hhb]
    simp [h.stamped pkt hcur]
  order := by
    rw [← h.order, hcur]
    simp [OutFrame.data?]
  stamped p hp := by cases hp
  partly p hp := by cases hp
  idle _ := rfl
  pending := h.pending
  quiet := h.quiet
  apart := Or.inl rfl

/-- A keepalive falls due. -/
theorem Sending.startKeepalive (h : Sending queued done s) (hq : s.hbPending = false) :
    Sending queued done { s with
      hbBuf := OutFrame.keepalive.bytes, hbOffset := 0, hbPending := true } where
  sent := by
    rw [h.sent, Sender.begun, Sender.begun, h.quiet hq]
    simp
  order := h.order
  stamped := h.stamped
  partly := h.partly
  idle := h.idle
  pending _ := ⟨rfl, by simp⟩
  quiet hfalse := by cases hfalse
  apart := Or.inr rfl

/-- More of the keepalive is accepted. -/
theorem Sending.keepalive_part (h : Sending queued done s) (hp : s.hbPending = true)
    (htx : s.txOffset = 0) {n : Nat} (hn : s.hbOffset + n < 4) :
    Sending queued done { s with
      sent := s.sent ++ (s.hbBuf.drop s.hbOffset).take n, hbOffset := s.hbOffset + n } where
  sent := by
    rw [h.sent, Sender.begun, Sender.begun, htx]
    cases s.current <;> simp [List.take_add]
  order := h.order
  stamped := h.stamped
  partly := h.partly
  idle := h.idle
  pending _ := ⟨(h.pending hp).1, hn⟩
  quiet hq := by
    rw [show s.hbPending = false from hq] at hp
    cases hp
  apart := Or.inl htx

/-- The keepalive is accepted to its end. -/
theorem Sending.keepalive_done (h : Sending queued done s) (hp : s.hbPending = true)
    (htx : s.txOffset = 0) (lastTx : Int) :
    Sending queued (done ++ [.keepalive]) { s with
      sent := s.sent ++ s.hbBuf.drop s.hbOffset
      hbOffset := 0
      hbPending := false
      lastTx } where
  sent := by
    rw [h.sent, Sender.begun, Sender.begun, htx, (h.pending hp).1]
    cases s.current <;> simp
  order := by
    rw [← h.order, List.filterMap_append, List.filterMap_cons_none rfl]
    simp
  stamped := h.stamped
  partly := h.partly
  idle := h.idle
  pending hp := by cases hp
  quiet _ := rfl
  apart := Or.inl htx

end Sending

/-- A write that sends nothing. -/
def silent : Write → Bool
  | .accepts n => n = 0
  | .error => true

section Writers
variable {queued : List Pkt} {done : List OutFrame} {t : Turn} {w : Write} {now : Int}

theorem writeDataFrame_part {pkt : Pkt} {n : Nat}
    (hn : t.vpn.txOffset + n < pkt.data.length + 4) :
    writeDataFrame (.accepts n) now pkt t = .on { t with vpn := { t.vpn with
      ssl := { t.vpn.ssl with
        sent := t.vpn.ssl.sent ++ (pkt.image.drop t.vpn.txOffset).take n }
      txOffset := t.vpn.txOffset + n } } := by
  have hmin : min n (pkt.image.drop t.vpn.txOffset).length = n := by
    rw [List.length_drop, Pkt.image_length]
    omega
  simp only [writeDataFrame, Ssl.nonblockWrite, hmin]
  rw [if_neg (by omega)]

theorem writeDataFrame_done {pkt : Pkt} {n : Nat} (hle : t.vpn.txOffset ≤ pkt.data.length + 4)
    (hn : pkt.data.length + 4 ≤ t.vpn.txOffset + n) :
    writeDataFrame (.accepts n) now pkt t = .on { t with
      vpn := { t.vpn with
        ssl := { t.vpn.ssl with sent := t.vpn.ssl.sent ++ pkt.image.drop t.vpn.txOffset }
        lastTx := now
        currentSslPkt := none
        txOffset := 0 }
      workDone := t.workDone + 1
      events := t.events ++ [.packetSent] } := by
  have hlen : (pkt.image.drop t.vpn.txOffset).length = pkt.data.length + 4 - t.vpn.txOffset := by
    rw [List.length_drop, Pkt.image_length]
  simp only [writeDataFrame, Ssl.nonblockWrite]
  rw [if_pos (by omega), List.take_of_length_le (by omega)]

theorem writeKeepalive_part {n : Nat} (hbuf : t.vpn.hbBuf = OutFrame.keepalive.bytes)
    (hn : t.vpn.hbOffset + n < 4) :
    writeKeepalive (.accepts n) now t = .on { t with vpn := { t.vpn with
      ssl := { t.vpn.ssl with
        sent := t.vpn.ssl.sent ++ (t.vpn.hbBuf.drop t.vpn.hbOffset).take n }
      hbOffset := t.vpn.hbOffset + n } } := by
  have hmin : min n (t.vpn.hbBuf.drop t.vpn.hbOffset).length = n := by
    rw [List.length_drop, hbuf]
    simp only [OutFrame.bytes, List.length_cons, List.length_nil]
    omega
  simp only [writeKeepalive, Ssl.nonblockWrite, hmin]
  rw [if_neg (by omega)]

theorem writeKeepalive_done {n : Nat} (hbuf : t.vpn.hbBuf = OutFrame.keepalive.bytes)
    (hlt : t.vpn.hbOffset < 4) (hn : 4 ≤ t.vpn.hbOffset + n) :
    writeKeepalive (.accepts n) now t = .on { t with
      vpn := { t.vpn with
        ssl := { t.vpn.ssl with sent := t.vpn.ssl.sent ++ t.vpn.hbBuf.drop t.vpn.hbOffset }
        hbOffset := 0
        hbPending := false
        lastTx := now }
      workDone := t.workDone + 1
      events := t.events ++ [.keepaliveSent] } := by
  have hlen : (t.vpn.hbBuf.drop t.vpn.hbOffset).length = 4 - t.vpn.hbOffset := by
    rw [List.length_drop, hbuf]
    rfl
  simp only [writeKeepalive, Ssl.nonblockWrite]
  rw [if_pos (by omega), List.take_of_length_le (by omega)]

/-- A data write keeps to whole frames when no keepalive is half out, or it sends nothing. -/
theorem writeDataFrame_sending (h : Sending queued done (sender t.vpn)) {pkt : Pkt}
    (hcur : t.vpn.currentSslPkt = some pkt) (hq : t.vpn.hbOffset = 0 ∨ silent w = true) :
    ∃ done', Sending queued done' (sender (writeDataFrame w now pkt t).turn.vpn) := by
  have hlt : t.vpn.txOffset < pkt.data.length + 4 := h.partly pkt hcur
  cases w with
  | error => exact ⟨done, h⟩
  | accepts n =>
    rcases Nat.lt_or_ge (t.vpn.txOffset + n) (pkt.data.length + 4) with hn | hn
    · rw [writeDataFrame_part hn]
      rcases hq with hhb | hsilent
      · exact ⟨done, h.data_part hcur hhb hn⟩
      · obtain rfl : n = 0 := by simpa [silent] using hsilent
        exact ⟨done, by simpa [sender, Flow.turn] using h⟩
    · rw [writeDataFrame_done (Nat.le_of_lt hlt) hn]
      rcases hq with hhb | hsilent
      · exact ⟨_, h.data_done hcur hhb now⟩
      · obtain rfl : n = 0 := by simpa [silent] using hsilent
        omega

theorem writeKeepalive_sending (h : Sending queued done (sender t.vpn))
    (hpending : t.vpn.hbPending = true) (hq : t.vpn.txOffset = 0 ∨ silent w = true) :
    ∃ done', Sending queued done' (sender (writeKeepalive w now t).turn.vpn) := by
  obtain ⟨hbuf, hlt⟩ : t.vpn.hbBuf = OutFrame.keepalive.bytes ∧ t.vpn.hbOffset < 4 :=
    h.pending hpending
  cases w with
  | error => exact ⟨done, h⟩
  | accepts n =>
    rcases Nat.lt_or_ge (t.vpn.hbOffset + n) 4 with hn | hn
    · rw [writeKeepalive_part hbuf hn]
      rcases hq with htx | hsilent
      · exact ⟨done, h.keepalive_part hpending htx hn⟩
      · obtain rfl : n = 0 := by simpa [silent] using hsilent
        exact ⟨done, by simpa [sender, Flow.turn] using h⟩
    · rw [writeKeepalive_done hbuf hlt hn]
      rcases hq with htx | hsilent
      · exact ⟨_, h.keepalive_done hpending htx now⟩
      · obtain rfl : n = 0 := by simpa [silent] using hsilent
        omega

/-- The packet that `h3c_handle_outgoing` writes from. -/
def packetToSend (v : VpnInfo) : Option Pkt :=
  match v.currentSslPkt with
  | some pkt => some pkt
  | none => v.outgoingQueue.head?

/-- How much of a data frame is out once the data write has accepted so much. -/
def dataOffset (v : VpnInfo) (w : Write) : Nat :=
  match packetToSend v, w with
  | some pkt, .accepts n =>
    if v.txOffset + n < pkt.data.length + 4 then v.txOffset + n else 0
  | _, _ => 0

/-- A keepalive is to be written. -/
def keepaliveDue (v : VpnInfo) (now : Int) : Bool :=
  v.keepaliveTime > 0 && (v.hbPending || now ≥ v.nextHb)

/-- What the keepalive write finds behind the data write. -/
structure AfterData (v : VpnInfo) (w : Write) (v' : VpnInfo) : Prop where
  offset : v'.txOffset = dataOffset v w
  due : dataOffset v w ≠ 0 → ∀ now, keepaliveDue v' now = keepaliveDue v now

theorem writeDataFrame_after (h : Sending queued done (sender t.vpn)) {pkt : Pkt} {t' : Turn}
    (hcur : t.vpn.currentSslPkt = some pkt) (ht : writeDataFrame w now pkt t = .on t') :
    AfterData t.vpn w t'.vpn := by
  have hlt : t.vpn.txOffset < pkt.data.length + 4 := h.partly pkt hcur
  cases w with
  | error => cases ht
  | accepts n =>
    rcases Nat.lt_or_ge (t.vpn.txOffset + n) (pkt.data.length + 4) with hn | hn
    · rw [writeDataFrame_part hn] at ht
      cases ht
      exact ⟨by simp [dataOffset, packetToSend, hcur, hn], fun _ _ => rfl⟩
    · rw [writeDataFrame_done (Nat.le_of_lt hlt) hn] at ht
      cases ht
      have hzero : dataOffset t.vpn (.accepts n) = 0 := by
        simp [dataOffset, packetToSend, hcur, Nat.not_lt.mpr hn]
      exact ⟨hzero.symm, fun hne => absurd hzero hne⟩

/-- With a packet to send, `h3c_handle_outgoing` writes from it. -/
theorem handleOutgoing_sending (now : Int) (h : Sending queued done (sender t.vpn))
    (hq : t.vpn.hbOffset = 0 ∨ silent w = true ∨ packetToSend t.vpn = none) :
    (∃ done', Sending queued done' (sender (handleOutgoing w now t).turn.vpn)) ∧
      ∀ t', handleOutgoing w now t = .on t' → AfterData t.vpn w t'.vpn := by
  cases hcur : t.vpn.currentSslPkt with
  | some pkt =>
    have hhandle : handleOutgoing w now t = writeDataFrame w now pkt t := by
      simp [handleOutgoing, hcur]
    have hq' : t.vpn.hbOffset = 0 ∨ silent w = true := by simpa [packetToSend, hcur] using hq
    rw [hhandle]
    exact ⟨writeDataFrame_sending h hcur hq', fun t' => writeDataFrame_after h hcur⟩
  | none =>
    cases hqueue : t.vpn.outgoingQueue with
    | nil =>
      have hhandle : handleOutgoing w now t = .on t := by simp [handleOutgoing, hcur, hqueue]
      have hzero : dataOffset t.vpn w = 0 := by simp [dataOffset, packetToSend, hcur, hqueue]
      have htx : t.vpn.txOffset = 0 := h.idle hcur
      rw [hhandle]
      refine ⟨⟨done, h⟩, fun t' ht => ?_⟩
      cases ht
      exact ⟨by rw [htx, hzero], fun hne => absurd hzero hne⟩
    | cons pkt waiting =>
      have hhandle : handleOutgoing w now t =
          writeDataFrame w now pkt.stamp { t with vpn := t.vpn.startPacket pkt waiting } := by
        simp [handleOutgoing, hcur, hqueue]
      have hq' : t.vpn.hbOffset = 0 ∨ silent w = true := by
        simpa [packetToSend, hcur, hqueue] using hq
      rw [hhandle]
      refine ⟨writeDataFrame_sending (h.dequeue hcur hqueue) rfl hq', fun t' ht => ?_⟩
      have hafter := writeDataFrame_after (h.dequeue hcur hqueue) rfl ht
      have htx : t.vpn.txOffset = 0 := h.idle hcur
      have hoffset : dataOffset (t.vpn.startPacket pkt waiting) w = dataOffset t.vpn w := by
        simp only [dataOffset, packetToSend, VpnInfo.startPacket, hcur, hqueue, htx,
          List.head?_cons]
        cases w <;> rfl
      exact ⟨hoffset ▸ hafter.offset, hoffset ▸ hafter.due⟩

theorem sendKeepalive_sending {o : Outside} (h : Sending queued done (sender t.vpn))
    (hq : t.vpn.txOffset = 0 ∨ (t.vpn.hbPending || decide (o.now ≥ t.vpn.nextHb)) = false ∨
      silent o.keepaliveWrite = true) :
    ∃ done', Sending queued done' (sender (sendKeepalive o t).turn.vpn) := by
  unfold sendKeepalive
  by_cases hpending : t.vpn.hbPending = true
  · rw [if_pos hpending]
    exact writeKeepalive_sending h hpending (by simpa [hpending] using hq)
  · have hnot : t.vpn.hbPending = false := by simpa using hpending
    rw [if_neg hpending]
    by_cases hdue : o.now ≥ t.vpn.nextHb
    · have hq' : t.vpn.txOffset = 0 ∨ silent o.keepaliveWrite = true := by simpa [hdue] using hq
      rw [if_pos hdue]
      exact writeKeepalive_sending (h.startKeepalive hnot) rfl hq'
    · rw [if_neg hdue]
      exact ⟨done, h⟩

variable {kaCheckDeadline : Int → Int → Int → Int}

/-- The keepalive write keeps to whole frames when no data frame is half out, or no
keepalive is due, or it sends nothing. -/
theorem keepalive_sending {o : Outside} (h : Sending queued done (sender t.vpn))
    (hq : t.vpn.txOffset = 0 ∨ keepaliveDue t.vpn o.now = false ∨
      silent o.keepaliveWrite = true) :
    ∃ done', Sending queued done' (sender (keepalive kaCheckDeadline o t).turn.vpn) := by
  unfold keepalive
  by_cases htime : t.vpn.keepaliveTime > 0
  · obtain ⟨done', hsend⟩ :=
      sendKeepalive_sending (o := o) h (by simpa [keepaliveDue, htime] using hq)
    rw [if_pos htime]
    cases hflow : sendKeepalive o t with
    | reconnect cause t' =>
      rw [hflow] at hsend
      exact ⟨done', hsend⟩
    | on t' =>
      rw [hflow] at hsend
      simp only [Flow.andThen]
      split
      · exact ⟨done', hsend⟩
      · exact ⟨done', hsend⟩
  · rw [if_neg htime]
    exact ⟨done, h⟩

end Writers

/-- What the writers leave alone. -/
def others (v : VpnInfo) : VpnInfo :=
  { v with
    ssl := { inbox := v.ssl.inbox }
    currentSslPkt := none
    outgoingQueue := []
    txOffset := 0
    hbBuf := []
    hbOffset := 0
    hbPending := false
    lastTx := 0 }

section Others

theorem writeDataFrame_others (w : Write) (now : Int) (pkt : Pkt) (t : Turn) :
    others (writeDataFrame w now pkt t).turn.vpn = others t.vpn := by
  cases w with
  | error => rfl
  | accepts n =>
    simp only [writeDataFrame, Ssl.nonblockWrite]
    split <;> rfl

theorem handleOutgoing_others (w : Write) (now : Int) (t : Turn) :
    others (handleOutgoing w now t).turn.vpn = others t.vpn := by
  unfold handleOutgoing
  split
  · exact writeDataFrame_others w now _ t
  · split
    · rfl
    · exact writeDataFrame_others w now _ _

theorem writeKeepalive_others (w : Write) (now : Int) (t : Turn) :
    others (writeKeepalive w now t).turn.vpn = others t.vpn := by
  cases w with
  | error => rfl
  | accepts n =>
    simp only [writeKeepalive, Ssl.nonblockWrite]
    split <;> rfl

theorem sendKeepalive_others (o : Outside) (t : Turn) :
    others (sendKeepalive o t).turn.vpn = others t.vpn := by
  unfold sendKeepalive
  split
  · exact writeKeepalive_others _ _ t
  · split
    · exact writeKeepalive_others _ _ _
    · rfl

theorem keepalive_others (kaCheckDeadline : Int → Int → Int → Int) (o : Outside) (t : Turn) :
    others (keepalive kaCheckDeadline o t).turn.vpn = others t.vpn := by
  unfold keepalive
  split
  · have hsend := sendKeepalive_others o t
    simp only
    cases hflow : sendKeepalive o t with
    | reconnect cause t' =>
      rw [hflow] at hsend
      exact hsend
    | on t' =>
      rw [hflow] at hsend
      simp only [Flow.andThen]
      split <;> exact hsend
  · rfl

end Others

end InodeVpn.Proofs.Writers
