import InodeVpn.Fork.Link
import InodeVpn.Proofs.Writers

namespace InodeVpn.Proofs.OutgoingFrames
open Lib Wire Fork Writers

def stepTurn : ReadStep → Turn
  | .again t => t
  | .leave f => f.turn

/-- Reading and parsing leave the sender alone. -/
theorem readStep_sender (alloc : Bool) (r : Read) (t : Turn) :
    sender (stepTurn (readStep alloc r t)).vpn = sender t.vpn := by
  unfold readStep
  cases t.vpn.receiveBuffer alloc with
  | none => rfl
  | some pkt =>
    simp only
    split
    · rfl
    · cases r with
      | again => rfl
      | error => rfl
      | upTo n now alloc =>
        simp only
        split
        · rfl
        · split <;> rfl

theorem readLoop_sender (alloc : Bool) (reads : List Read) (t : Turn) :
    sender (readLoop alloc reads t).turn.vpn = sender t.vpn := by
  induction reads generalizing t with
  | nil =>
    have hstep := readStep_sender alloc .again t
    simp only [readLoop]
    split <;> rename_i heq <;> rw [heq] at hstep <;> exact hstep
  | cons r reads ih =>
    have hstep := readStep_sender alloc r t
    simp only [readLoop]
    split
    · rename_i heq
      rw [heq] at hstep
      exact (ih _).trans hstep
    · rename_i heq
      rw [heq] at hstep
      exact hstep

/-- The two writers stay out of each other's frame in a call: while a keepalive is
half out nothing of a data frame is accepted, and where the data write leaves a
frame half out nothing of a keepalive that is due. -/
def apart (o : Outside) (v : VpnInfo) : Bool :=
  (v.hbOffset = 0 || silent o.dataWrite || (packetToSend v).isNone) &&
    (dataOffset v o.dataWrite = 0 || !keepaliveDue v o.now || silent o.keepaliveWrite)

/-- The condition on a step: a call on an open connection keeps the writers apart. -/
def keepsFramesApart (l : Link) : Action → Bool
  | .call o => !l.vpn.sslOpen || apart o l.vpn
  | _ => true

section Run
variable (kaCheckDeadline : Int → Int → Int → Int) {queued : List Pkt} {v : VpnInfo} {o : Outside}

/-- What follows the read loop in a call. -/
theorem writers_sending {done : List OutFrame} {t : Turn} (h : Sending queued done (sender t.vpn))
    (hapart : apart o t.vpn = true) :
    ∃ done', Sending queued done' (sender ((handleOutgoing o.dataWrite o.dataSentAt t).andThen
      (keepalive kaCheckDeadline o)).turn.vpn) := by
  simp only [apart, Bool.and_eq_true, Bool.or_eq_true, decide_eq_true_eq, Option.isNone_iff_eq_none,
    Bool.not_eq_true', or_assoc] at hapart
  obtain ⟨hdata, hkeep⟩ := hapart
  obtain ⟨⟨done', hsending⟩, hafter⟩ := handleOutgoing_sending o.dataSentAt h hdata
  cases hflow : handleOutgoing o.dataWrite o.dataSentAt t with
  | reconnect cause t' =>
    rw [hflow] at hsending
    exact ⟨done', hsending⟩
  | on t' =>
    rw [hflow] at hsending
    obtain ⟨hoffset, hdue⟩ := hafter t' hflow
    refine keepalive_sending hsending ?_
    by_cases hzero : dataOffset t.vpn o.dataWrite = 0
    · exact Or.inl (hoffset.trans hzero)
    · rw [hdue hzero]
      exact Or.inr (hkeep.resolve_left hzero)

/-- The condition looks at the sender only. -/
theorem apart_congr {v' : VpnInfo} (h : sender v' = sender v) : apart o v' = apart o v := by
  simp only [sender, Sender.mk.injEq] at h
  obtain ⟨-, hcur, hqueue, htx, -, hhb, hpending, hlast, htime⟩ := h
  have hpacket : packetToSend v' = packetToSend v := by
    rw [packetToSend, packetToSend, hcur, hqueue]
  have hdata : dataOffset v' o.dataWrite = dataOffset v o.dataWrite := by
    unfold dataOffset
    rw [hpacket, htx]
  have hdue : keepaliveDue v' o.now = keepaliveDue v o.now := by
    rw [keepaliveDue, keepaliveDue, VpnInfo.nextHb, VpnInfo.nextHb, hpending, hlast, htime]
  rw [apart, apart, hpacket, hdata, hdue, hhb]

/-- A call, as far as it comes before it returns or goes to `do_reconnect`. -/
theorem loopBody_sending {done : List OutFrame} (h : Sending queued done (sender v))
    (hapart : apart o v = true) :
    ∃ done', Sending queued done' (sender (loopBody kaCheckDeadline o v).turn.vpn) := by
  unfold loopBody
  by_cases hopen : v.sslOpen = true
  · rw [if_pos hopen]
    have hread : sender (if o.readable then
        readLoop o.bufferAlloc o.reads { vpn := v, timeout := o.timeout }
        else .on { vpn := v, timeout := o.timeout }).turn.vpn = sender v := by
      split
      · exact readLoop_sender o.bufferAlloc o.reads _
      · rfl
    generalize (if o.readable then readLoop o.bufferAlloc o.reads { vpn := v, timeout := o.timeout }
      else .on { vpn := v, timeout := o.timeout }) = flow at hread
    cases flow with
    | reconnect cause t => exact ⟨done, hread ▸ h⟩
    | on t => exact writers_sending kaCheckDeadline (hread ▸ h) ((apart_congr hread).trans hapart)
  · rw [if_neg hopen]
    exact ⟨done, h⟩

/-- What a connection carries: frames under way while it is open. -/
structure Carries (l : Link) : Prop where
  sending : l.vpn.sslOpen = true → ∃ done, Sending l.queued done (sender l.vpn)
  whole : WholeFrames l.vpn.ssl.sent l.vpn.outgoingQueue l.queued

theorem Carries.ofSending {l : Link} {done : List OutFrame}
    (h : Sending l.queued done (sender l.vpn)) : Carries l :=
  ⟨fun _ => ⟨done, h⟩, h.whole⟩

/-- Nothing has been sent on a new connection. -/
theorem connected_sending {now : Int} (hcur : v.currentSslPkt = none) :
    Sending v.outgoingQueue [] (sender (v.connected now)) where
  sent := by simp [sender, VpnInfo.connected, Sender.begun, hcur]
  order := by simp [sender, VpnInfo.connected, hcur]
  stamped pkt hpkt := by simp [sender, VpnInfo.connected, hcur] at hpkt
  partly pkt hpkt := by simp [sender, VpnInfo.connected, hcur] at hpkt
  idle _ := rfl
  pending hp := by cases hp
  quiet _ := rfl
  apart := Or.inl rfl

theorem readHeaders_fields (r : Reconnect) (v : VpnInfo) :
    (v.readHeaders r).currentSslPkt = v.currentSslPkt ∧
      (v.readHeaders r).outgoingQueue = v.outgoingQueue ∧ (v.readHeaders r).ssl = v.ssl := by
  unfold VpnInfo.readHeaders
  split <;> exact ⟨rfl, rfl, rfl⟩

/-- A reconnect starts over, or leaves no connection. -/
theorem doReconnect_carries (cause : Cause) {t : Turn}
    (h : WholeFrames t.vpn.ssl.sent t.vpn.outgoingQueue queued) :
    Carries ⟨(doReconnect o cause t).vpn,
      if o.reconnect.ret = 0 then (doReconnect o cause t).vpn.outgoingQueue else queued⟩ := by
  have hfields := readHeaders_fields o.reconnect
    { t.vpn with currentSslPkt := none, txOffset := 0, hbPending := false, hbOffset := 0 }
  by_cases hret : o.reconnect.ret = 0
  · simp only [doReconnect, sslReconnect, hret, ne_eq, not_true_eq_false, if_false, if_true]
    exact .ofSending (connected_sending hfields.1)
  · simp only [doReconnect, sslReconnect, hret, ne_eq, not_false_eq_true, if_false, if_true]
    refine ⟨fun hopen => (by cases hopen), ?_⟩
    rw [hfields.2.1, hfields.2.2]
    exact h

theorem doReconnect_cause (cause : Cause) (t : Turn) :
    (doReconnect o cause t).cause = some cause := by
  unfold doReconnect
  split <;> rfl

/-- A call ends with frames under way, or gets to `do_reconnect` with what was under way. -/
theorem loopBody_carries {l : Link} (h : Carries l) (hok : keepsFramesApart l (.call o) = true) :
    match loopBody kaCheckDeadline o l.vpn with
    | .on t => ∃ done, Sending l.queued done (sender t.vpn)
    | .reconnect _ t => WholeFrames t.vpn.ssl.sent t.vpn.outgoingQueue l.queued := by
  by_cases hopen : l.vpn.sslOpen = true
  · have hapart : apart o l.vpn = true := by simpa [keepsFramesApart, hopen] using hok
    obtain ⟨done, hsending⟩ := h.sending hopen
    obtain ⟨done', hsending'⟩ := loopBody_sending kaCheckDeadline hsending hapart
    split <;> rename_i hflow <;> rw [hflow] at hsending'
    · exact ⟨done', hsending'⟩
    · exact hsending'.whole
  · simp only [loopBody, hopen]
    exact h.whole

theorem call_carries {l : Link} (h : Carries l) (hok : keepsFramesApart l (.call o) = true) :
    Carries ⟨(mainloop kaCheckDeadline o l.vpn).vpn,
      if (mainloop kaCheckDeadline o l.vpn).cause.isSome && o.reconnect.ret = 0 then
        (mainloop kaCheckDeadline o l.vpn).vpn.outgoingQueue
      else l.queued⟩ := by
  have hbody := loopBody_carries kaCheckDeadline h hok
  unfold mainloop
  cases hflow : loopBody kaCheckDeadline o l.vpn with
  | on t =>
    rw [hflow] at hbody
    obtain ⟨done, hsending⟩ := hbody
    exact .ofSending hsending
  | reconnect cause t =>
    rw [hflow] at hbody
    simpa only [doReconnect_cause, Option.isSome_some, Bool.true_and, decide_eq_true_eq] using
      doReconnect_carries cause hbody

theorem carries_step {l l' : Link} {a : Action} {e : Option Returned} (h : Carries l)
    (hok : keepsFramesApart l a = true) (hs : l.step kaCheckDeadline a = some (l', e)) :
    Carries l' := by
  cases a with
  | queue pkt =>
    cases hs
    obtain ⟨hsending, frames, hsent, horder⟩ := h
    refine ⟨?_, frames, hsent, ?_⟩
    · intro hopen
      obtain ⟨done, hdone⟩ := hsending hopen
      exact ⟨done, hdone.wait pkt⟩
    · rw [List.map_append, List.map_append, ← horder, List.append_assoc]
  | deliver =>
    cases hs
    exact ⟨h.sending, h.whole⟩
  | arrive s =>
    simp only [Link.step] at hs
    split at hs
    · cases hs
      exact ⟨h.sending, h.whole⟩
    · cases hs
  | hangUp =>
    cases hs
    exact ⟨fun hopen => (by cases hopen), h.whole⟩
  | call o =>
    simp only [Link.step] at hs
    split at hs
    · cases hs
    · cases hs
      exact call_carries kaCheckDeadline h hok

theorem start_carries {l : Link} (h : l.Start) : Carries l := by
  obtain ⟨v, now, hvpn, hcur, -, hqueued⟩ := h
  obtain ⟨vpn, queued⟩ := l
  cases hvpn
  cases hqueued
  exact .ofSending (connected_sending hcur)

end Run

/-- In every run that keeps the two writers apart, what has been sent since the last
`h3c_connect` is the beginning of whole frames: the queued packets' frames, each once
and in order, and keepalive requests between them. -/
theorem outgoing_whole (kaCheckDeadline : Int → Int → Int → Int) (t : List Returned) (l : Link)
    (h : System.Reach (link kaCheckDeadline) keepsFramesApart t l) :
    WholeFrames l.vpn.ssl.sent l.vpn.outgoingQueue l.queued := by
  have hcarries : Carries l := by
    apply h.invariant (I := fun _ l => Carries l)
    · intro l hl
      exact start_carries hl
    · intro t l a l' e _ hcarries hok hs
      exact carries_step kaCheckDeadline hcarries hok hs
  exact hcarries.whole

/-- A deadline that lies ahead shortens the timeout. -/
def kaCheckDeadline (timeout now due : Int) : Int :=
  if now ≥ due then timeout else min timeout ((due - now) * 1000)

/-- Right after `h3c_connect` at time 0, with nothing queued. -/
def fresh : Link := ⟨VpnInfo.connected 0 {}, []⟩

theorem fresh_start : fresh.Start := ⟨{}, 0, rfl, rfl, rfl, rfl⟩

/-- A packet goes out in two writes, the second one before a keepalive is due. -/
theorem outgoing_whole_sample : ∃ t l,
    System.Reach (link kaCheckDeadline) keepsFramesApart t l ∧
      l.vpn.ssl.sent = [0x01, 0x00, 0x00, 0x02, 0x45, 0x00, 0x02, 0x00, 0x00, 0x00] ∧
      WholeFrames l.vpn.ssl.sent l.vpn.outgoingQueue l.queued := by
  obtain ⟨t, l, hr, hp⟩ := System.exists_reach (M := link kaCheckDeadline) keepsFramesApart
    [.queue { data := [0x45, 0x00] }, .call { now := 1, dataWrite := .accepts 3 },
      .call { now := 2, dataWrite := .accepts 9, dataSentAt := 2 },
      .call { now := 40, keepaliveWrite := .accepts 4 }]
    (fun _ l => l.vpn.ssl.sent = [0x01, 0x00, 0x00, 0x02, 0x45, 0x00, 0x02, 0x00, 0x00, 0x00])
    fresh_start (by decide)
  exact ⟨t, l, hr, by simpa using hp, outgoing_whole kaCheckDeadline t l hr⟩

/-- Two bytes of a data frame are accepted, then the keepalive that falls due. -/
theorem keepalive_inside_frame : ¬∀ kaCheckDeadline t l,
    System.Reachable (link kaCheckDeadline) t l →
      WholeFrames l.vpn.ssl.sent l.vpn.outgoingQueue l.queued := by
  intro h
  obtain ⟨t, l, hr, hp⟩ := System.exists_reach (M := link kaCheckDeadline) (fun _ _ => true)
    [.queue { data := [0x45, 0x00] },
      .call { now := 30, dataWrite := .accepts 2, keepaliveWrite := .accepts 4 }]
    (fun _ l => l.vpn.ssl.sent = [0x01, 0x00, 0x02, 0x00, 0x00, 0x00] &&
      l.queued.map Pkt.data = [[0x45, 0x00]])
    fresh_start (by decide)
  simp only [Bool.and_eq_true, decide_eq_true_eq] at hp
  obtain ⟨frames, hsent, horder⟩ := h kaCheckDeadline t l hr
  rw [hp.1] at hsent
  rw [hp.2] at horder
  cases frames with
  | nil => simp at hsent
  | cons f frames =>
    cases f with
    | keepalive => simp [OutFrame.bytes] at hsent
    | packet data =>
      -- the only packet: its third byte is the length's high byte, not 02
      have hdata : data = [0x45, 0x00] := (List.cons.inj horder).1
      simp [hdata, OutFrame.bytes, toBeBytes] at hsent

end InodeVpn.Proofs.OutgoingFrames
