import InodeVpn.Proofs.OutgoingFrames

namespace InodeVpn.Proofs.DeadPeer
open Lib Wire Fork Writers OutgoingFrames

/-- Whether a whole keepalive has gone out since the last byte came in. -/
def track (probed : Bool) : Event → Bool
  | .received _ => false
  | .keepaliveSent => true
  | _ => probed

/-- A call that reconnects leaves a connection without a past. -/
def probedAfter (probed : Bool) (r : Returned) : Bool :=
  if r.cause.isSome then false else r.events.foldl track probed

/-- After these calls a probe is out on the connection, and nothing has come in since. -/
def probed (t : List Returned) : Bool := t.foldl probedAfter false

/-- Dead Peer Detection fires on an unanswered probe only. -/
def ProbedFirst (before : List Returned) (r : Returned) : Prop :=
  r.cause = some .deadPeer → r.events.foldl track (probed before) = true

def Read.time? : Read → Option Int
  | .upTo _ now _ => some now
  | _ => none

/-- The clock readings of a call, in order. -/
def clock (o : Outside) : List Int :=
  o.reads.filterMap Read.time? ++ [o.dataSentAt, o.now, o.keepaliveSentAt, o.reconnect.now]

/-- The write accepts all of so many bytes. -/
def takes (size : Nat) : Write → Bool
  | .accepts n => size ≤ n
  | .error => false

/-- The setting: keepalives are on, the clock does not run backwards, and every
write accepts all that is offered. -/
def ordinary (o : Outside) (v : VpnInfo) : Bool :=
  0 < v.keepaliveTime && decide ((v.lastTx :: clock o).Pairwise (· ≤ ·)) &&
    (packetToSend v).all (fun pkt => takes (pkt.data.length + 4) o.dataWrite) &&
    takes 4 o.keepaliveWrite

/-- A call after its read loop. -/
def afterReads (o : Outside) (v : VpnInfo) : Flow :=
  if o.readable then readLoop o.bufferAlloc o.reads { vpn := v, timeout := o.timeout }
  else .on { vpn := v, timeout := o.timeout }

/-- The defect: a data frame puts the next keepalive off, but not the detector. Here
none goes out so late that the keepalive is put off past the detector, unless a
probe is out already. -/
def sendsEarly (o : Outside) (v : VpnInfo) (probed : Bool) : Bool :=
  match afterReads o v with
  | .on t =>
    (packetToSend v).isNone || t.events.foldl track probed ||
      o.dataSentAt + v.keepaliveTime ≤ t.vpn.dpdDue
  | .reconnect _ _ => true

/-- The condition on a call; the first part of it is the setting, and the deadline of
the detector must fit an `int`. -/
def probesInTime (s : List Returned × Link) : Action → Bool
  | .call o =>
    !s.2.vpn.sslOpen || (ordinary o s.2.vpn &&
      s.2.vpn.keepaliveTime * H3C_KEEPALIVE_MISS_LIMIT < 2147483648 &&
      sendsEarly o s.2.vpn (probed s.1))
  | _ => true

/-- The state of the two timers between calls. -/
structure Timed (probed : Bool) (v : VpnInfo) : Prop where
  whole : v.currentSslPkt = none
  quiet : v.hbPending = false
  early : probed = false →
    v.lastTx + v.keepaliveTime ≤ v.lastRx + v.keepaliveTime * H3C_KEEPALIVE_MISS_LIMIT

theorem toInt32_eq {n : Int} (hpos : 0 ≤ n) (hlt : n < 2147483648) : toInt32 n = n := by
  exact BitVec.toInt_ofInt_eq_self (by decide) (by omega) (by omega)

section Reads
variable {probed : Bool} {alloc : Bool} {t : Turn}

/-- What reading does to the detector: nothing, or it starts anew. -/
def ReadOn (times : List Int) (probed : Bool) (t t' : Turn) : Prop :=
  (t'.vpn.lastRx = t.vpn.lastRx ∧
    t'.events.foldl track probed = t.events.foldl track probed) ∨
  (t'.vpn.lastRx ∈ times ∧ t'.events.foldl track probed = false)

theorem readStep_on (probed alloc : Bool) (t : Turn) (r : Read) :
    ReadOn (Read.time? r).toList probed t (stepTurn (readStep alloc r t)) := by
  unfold readStep
  cases t.vpn.receiveBuffer alloc with
  | none => exact Or.inl ⟨rfl, rfl⟩
  | some pkt =>
    simp only
    split
    · exact Or.inl ⟨rfl, rfl⟩
    · cases r with
      | again => exact Or.inl ⟨rfl, rfl⟩
      | error => exact Or.inl ⟨rfl, rfl⟩
      | upTo n now alloc =>
        have hafter : ∀ t' : Turn, t'.vpn.lastRx = now →
            t'.events.foldl track probed = false → ReadOn [now] probed t t' :=
          fun t' hrx htrack => Or.inr ⟨by rw [hrx]; exact List.mem_singleton.mpr rfl, htrack⟩
        simp only
        split
        · exact Or.inl ⟨rfl, rfl⟩
        · split <;>
            exact hafter _ rfl (by simp [Turn.parse, Turn.received, track, stepTurn, Flow.turn])

theorem ReadOn.trans {times times' : List Int} {t t' t'' : Turn} (h : ReadOn times probed t t')
    (h' : ReadOn times' probed t' t'') : ReadOn (times ++ times') probed t t'' := by
  rcases h' with ⟨hrx', htrack'⟩ | ⟨hrx', htrack'⟩
  · rcases h with ⟨hrx, htrack⟩ | ⟨hrx, htrack⟩
    · exact Or.inl ⟨hrx'.trans hrx, htrack'.trans htrack⟩
    · exact Or.inr ⟨by rw [hrx']; exact List.mem_append_left _ hrx, htrack'.trans htrack⟩
  · exact Or.inr ⟨List.mem_append_right _ hrx', htrack'⟩

theorem readLoop_on (reads : List Read) (t : Turn) :
    ReadOn (reads.filterMap Read.time?) probed t (readLoop alloc reads t).turn := by
  induction reads generalizing t with
  | nil =>
    have hstep := readStep_on probed alloc t .again
    simp only [readLoop]
    split <;> rename_i heq <;> rw [heq] at hstep <;> exact hstep
  | cons r reads ih =>
    have hstep := readStep_on probed alloc t r
    have htimes : (r :: reads).filterMap Read.time? =
        (Read.time? r).toList ++ reads.filterMap Read.time? := by
      cases hr : Read.time? r <;> simp [hr]
    rw [htimes]
    simp only [readLoop]
    split <;> rename_i heq <;> rw [heq] at hstep
    · exact hstep.trans (ih _)
    · have hnone (t' : Turn) : ReadOn (reads.filterMap Read.time?) probed t' t' :=
        Or.inl ⟨rfl, rfl⟩
      exact hstep.trans (hnone _)

/-- Reading leaves a call for its own reasons. -/
theorem readStep_cause {r : Read} {cause : Cause} {t' : Turn}
    (h : readStep alloc r t = .leave (.reconnect cause t')) : cause ≠ .deadPeer := by
  unfold readStep at h
  cases hbuffer : t.vpn.receiveBuffer alloc with
  | none =>
    rw [hbuffer] at h
    cases h
  | some pkt =>
    rw [hbuffer] at h
    simp only at h
    split at h
    · cases h
      simp
    · cases r with
      | again => cases h
      | error =>
        cases h
        simp
      | upTo n now alloc =>
        simp only at h
        split at h
        · cases h
        · split at h
          · cases h
            simp
          · cases h

theorem readLoop_cause {reads : List Read} {cause : Cause} {t' : Turn}
    (h : readLoop alloc reads t = .reconnect cause t') : cause ≠ .deadPeer := by
  induction reads generalizing t with
  | nil =>
    simp only [readLoop] at h
    split at h
    · cases h
    · rename_i heq
      rw [h] at heq
      exact readStep_cause heq
  | cons r reads ih =>
    simp only [readLoop] at h
    split at h
    · exact ih h
    · rename_i heq
      rw [h] at heq
      exact readStep_cause heq

end Reads

section Writes
variable {probed : Bool} {t : Turn} {o : Outside} {kaCheckDeadline : Int → Int → Int → Int}

/-- With no frame under way and a write that takes everything, a packet goes out whole. -/
theorem handleOutgoing_takes (probed : Bool) (now : Int) {w : Write}
    (hwhole : t.vpn.currentSslPkt = none)
    (htakes : (packetToSend t.vpn).all (fun pkt => takes (pkt.data.length + 4) w) = true) :
    ∃ t', handleOutgoing w now t = .on t' ∧ t'.vpn.currentSslPkt = none ∧
      t'.vpn.hbPending = t.vpn.hbPending ∧ t'.vpn.keepaliveTime = t.vpn.keepaliveTime ∧
      t'.vpn.lastRx = t.vpn.lastRx ∧
      t'.events.foldl track probed = t.events.foldl track probed ∧
      t'.vpn.lastTx = if (packetToSend t.vpn).isSome then now else t.vpn.lastTx := by
  cases hqueue : t.vpn.outgoingQueue with
  | nil =>
    have hnone : packetToSend t.vpn = none := by simp [packetToSend, hwhole, hqueue]
    have hhandle : handleOutgoing w now t = .on t := by simp [handleOutgoing, hwhole, hqueue]
    exact ⟨t, hhandle, hwhole, rfl, rfl, rfl, rfl, by simp [hnone]⟩
  | cons pkt waiting =>
    have hsome : packetToSend t.vpn = some pkt := by simp [packetToSend, hwhole, hqueue]
    have hhandle : handleOutgoing w now t =
        writeDataFrame w now pkt.stamp { t with vpn := t.vpn.startPacket pkt waiting } := by
      simp [handleOutgoing, hwhole, hqueue]
    rw [hsome] at htakes
    cases w with
    | error => cases htakes
    | accepts n =>
      have hn : pkt.stamp.data.length + 4 ≤ 0 + n := by
        simpa [takes, Pkt.stamp] using htakes
      rw [hhandle, writeDataFrame_done (Nat.zero_le _) hn, hsome]
      exact ⟨_, rfl, rfl, rfl, rfl, rfl, by simp [track], rfl⟩

/-- The detector and the keepalive, when no keepalive is pending and the write takes
it all: a keepalive that is due goes out before the detector is asked. -/
theorem keepalive_takes (kaCheckDeadline : Int → Int → Int → Int)
    (hpos : 0 < t.vpn.keepaliveTime) (hquiet : t.vpn.hbPending = false)
    (htakes : takes 4 o.keepaliveWrite = true)
    (hearly : t.events.foldl track probed = false → t.vpn.nextHb ≤ t.vpn.dpdDue) :
    (∃ t', keepalive kaCheckDeadline o t = .reconnect .deadPeer t' ∧
      t'.events.foldl track probed = true) ∨
    ∃ t', keepalive kaCheckDeadline o t = .on t' ∧
      t'.vpn.currentSslPkt = t.vpn.currentSslPkt ∧ t'.vpn.hbPending = false ∧
      t'.vpn.keepaliveTime = t.vpn.keepaliveTime ∧ t'.vpn.lastRx = t.vpn.lastRx ∧
      (t'.events.foldl track probed = false →
        t.events.foldl track probed = false ∧ t'.vpn.lastTx = t.vpn.lastTx) := by
  simp only [keepalive, if_pos hpos, sendKeepalive, hquiet, Bool.false_eq_true, if_false]
  by_cases hdue : o.now ≥ t.vpn.nextHb
  · rw [if_pos hdue]
    cases hw : o.keepaliveWrite with
    | error => simp [hw, takes] at htakes
    | accepts n =>
      have hn : 4 ≤ 0 + n := by simpa [hw, takes] using htakes
      rw [writeKeepalive_done (t := { t with vpn := t.vpn.startKeepalive }) rfl (Nat.succ_pos 3) hn]
      simp only [Flow.andThen]
      split
      · exact Or.inl ⟨_, rfl, by simp [track]⟩
      · refine Or.inr ⟨_, rfl, rfl, rfl, rfl, rfl, fun htrack => ?_⟩
        simp [track] at htrack
  · rw [if_neg hdue]
    simp only [Flow.andThen]
    split
    · rename_i hdead
      refine Or.inl ⟨_, rfl, ?_⟩
      -- no keepalive is due, so the detector cannot be either without a probe
      by_contra htrack
      have := hearly (by simpa using htrack)
      omega
    · exact Or.inr ⟨_, rfl, rfl, hquiet, rfl, rfl, fun htrack => ⟨htrack, rfl⟩⟩

end Writes

section Call
variable {b : Bool} {v : VpnInfo} {o : Outside} {kaCheckDeadline : Int → Int → Int → Int}

theorem afterReads_on : ReadOn (o.reads.filterMap Read.time?) b { vpn := v, timeout := o.timeout }
    (afterReads o v).turn ∧ sender (afterReads o v).turn.vpn = sender v := by
  unfold afterReads
  split
  · exact ⟨readLoop_on o.reads _, readLoop_sender o.bufferAlloc o.reads _⟩
  · exact ⟨Or.inl ⟨rfl, rfl⟩, rfl⟩

theorem afterReads_cause {cause : Cause} {t : Turn} (h : afterReads o v = .reconnect cause t) :
    cause ≠ .deadPeer := by
  unfold afterReads at h
  split at h
  · exact readLoop_cause h
  · cases h

theorem loopBody_open (hopen : v.sslOpen = true) : loopBody kaCheckDeadline o v =
    ((afterReads o v).andThen (handleOutgoing o.dataWrite o.dataSentAt)).andThen
      (keepalive kaCheckDeadline o) := by
  simp only [loopBody, if_pos hopen, afterReads]

/-- The read loop leaves the timers in order. -/
theorem afterReads_early {t : Turn} (hflow : afterReads o v = .on t) (hx : Timed b v)
    (hpos : 0 < v.keepaliveTime) (hclock : (v.lastTx :: clock o).Pairwise (· ≤ ·))
    (htrack : t.events.foldl track b = false) :
    t.vpn.lastTx + v.keepaliveTime ≤ t.vpn.lastRx + v.keepaliveTime * 3 := by
  obtain ⟨hread, hsender⟩ := afterReads_on (b := b) (v := v) (o := o)
  rw [hflow] at hread hsender
  have hlastTx : t.vpn.lastTx = v.lastTx := congrArg Sender.lastTx hsender
  rw [hlastTx]
  rcases hread with ⟨hrx, hsame⟩ | ⟨hrx, -⟩
  · have := hx.early (hsame.symm.trans htrack)
    simp only [Flow.turn] at hrx
    simp only [H3C_KEEPALIVE_MISS_LIMIT] at this
    omega
  · have := (List.pairwise_cons.mp hclock).1 _ (List.mem_append_left _ hrx)
    simp only [Flow.turn] at this
    omega

/-- A data frame that goes out in time leaves the next keepalive before the detector. -/
theorem handleOutgoing_early {t t₁ : Turn} (hflow : afterReads o v = .on t)
    (hpacket : packetToSend t.vpn = packetToSend v) (htime : t.vpn.keepaliveTime = v.keepaliveTime)
    (hdue : t.vpn.dpdDue = t.vpn.lastRx + v.keepaliveTime * 3)
    (hread : t.vpn.lastTx + v.keepaliveTime ≤ t.vpn.lastRx + v.keepaliveTime * 3)
    (hearly : sendsEarly o v b = true) (htrack : t.events.foldl track b = false)
    (htime₁ : t₁.vpn.keepaliveTime = t.vpn.keepaliveTime) (hrx₁ : t₁.vpn.lastRx = t.vpn.lastRx)
    (htx₁ : t₁.vpn.lastTx = if (packetToSend t.vpn).isSome then o.dataSentAt else t.vpn.lastTx) :
    t₁.vpn.nextHb ≤ t₁.vpn.dpdDue := by
  have hdue₁ : t₁.vpn.dpdDue = t.vpn.dpdDue := by
    rw [VpnInfo.dpdDue, VpnInfo.dpdDue, htime₁, hrx₁]
  rw [hdue₁, VpnInfo.nextHb, htime₁, htime, htx₁]
  split
  · rename_i hsome
    simpa [sendsEarly, hflow, hpacket ▸ Option.isSome_iff_ne_none.mp hsome, htrack] using hearly
  · rw [hdue]
    exact hread

/-- What a call does to the timers, up to where it returns or goes to `do_reconnect`. -/
theorem loopBody_timed (kaCheckDeadline : Int → Int → Int → Int) (hx : Timed b v)
    (hopen : v.sslOpen = true) (hset : ordinary o v = true)
    (hfits : v.keepaliveTime * H3C_KEEPALIVE_MISS_LIMIT < 2147483648)
    (hearly : sendsEarly o v b = true) :
    (∃ cause t, loopBody kaCheckDeadline o v = .reconnect cause t ∧
      (cause = .deadPeer → t.events.foldl track b = true)) ∨
    ∃ t, loopBody kaCheckDeadline o v = .on t ∧ Timed (t.events.foldl track b) t.vpn := by
  simp only [ordinary, Bool.and_eq_true, decide_eq_true_eq] at hset
  obtain ⟨⟨⟨hpos, hclock⟩, htakes⟩, hktakes⟩ := hset
  rw [loopBody_open hopen]
  have hsender := (afterReads_on (b := b) (v := v) (o := o)).2
  cases hflow : afterReads o v with
  | reconnect cause t =>
    exact Or.inl ⟨cause, t, rfl, fun hc => absurd hc (afterReads_cause hflow)⟩
  | on t =>
    rw [hflow] at hsender
    simp only [sender, Flow.turn, Sender.mk.injEq] at hsender
    obtain ⟨-, hcur, hqueue, -, -, -, hpending, -, htime⟩ := hsender
    have hpacket : packetToSend t.vpn = packetToSend v := by
      rw [packetToSend, packetToSend, hcur, hqueue]
    have hdue : t.vpn.dpdDue = t.vpn.lastRx + v.keepaliveTime * 3 := by
      rw [VpnInfo.dpdDue, htime, toInt32_eq (by simp [H3C_KEEPALIVE_MISS_LIMIT]; omega) hfits]
      rfl
    obtain ⟨t₁, ht₁, hwhole, hpending₁, htime₁, hrx₁, htrack₁, htx₁⟩ :=
      handleOutgoing_takes b o.dataSentAt (hcur.trans hx.whole) (hpacket ▸ htakes)
    simp only [Flow.andThen, ht₁]
    have hearly₁ : t₁.events.foldl track b = false → t₁.vpn.nextHb ≤ t₁.vpn.dpdDue := by
      intro htrack
      rw [htrack₁] at htrack
      exact handleOutgoing_early hflow hpacket htime hdue
        (afterReads_early hflow hx hpos hclock htrack) hearly htrack htime₁ hrx₁ htx₁
    rcases keepalive_takes kaCheckDeadline (by rw [htime₁, htime]; exact hpos)
      (hpending₁.trans (hpending.trans hx.quiet)) hktakes hearly₁ with
      ⟨t₂, ht₂, htrack₂⟩ | ⟨t₂, ht₂, hwhole₂, hpending₂, htime₂, hrx₂, htrack₂⟩
    · exact Or.inl ⟨.deadPeer, t₂, ht₂, fun _ => htrack₂⟩
    · refine Or.inr ⟨t₂, ht₂, hwhole₂.trans hwhole, hpending₂, fun htrack => ?_⟩
      obtain ⟨hold, htx₂⟩ := htrack₂ htrack
      have hdue₁ : t₁.vpn.dpdDue = t₁.vpn.lastRx + v.keepaliveTime * 3 := by
        rw [hrx₁, ← hdue, VpnInfo.dpdDue, VpnInfo.dpdDue, htime₁, hrx₁]
      have := hearly₁ hold
      rw [VpnInfo.nextHb, hdue₁, ← htx₂, ← hrx₂, ← htime₂] at this
      rw [htime₂, htime₁, htime] at this ⊢
      exact this

/-- A new connection has its timers in order. -/
theorem doReconnect_timed (cause : Cause) (t : Turn)
    (hopen : (doReconnect o cause t).vpn.sslOpen = true)
    (hpos : 0 < (doReconnect o cause t).vpn.keepaliveTime) :
    Timed false (doReconnect o cause t).vpn := by
  by_cases hret : o.reconnect.ret = 0
  · have hfields := readHeaders_fields o.reconnect
      { t.vpn with currentSslPkt := none, txOffset := 0, hbPending := false, hbOffset := 0 }
    simp only [doReconnect, sslReconnect, hret, ne_eq, not_true_eq_false, if_false, if_true]
      at hpos ⊢
    refine ⟨hfields.1, rfl, fun _ => ?_⟩
    simp only [VpnInfo.connected, H3C_KEEPALIVE_MISS_LIMIT] at hpos ⊢
    omega
  · simp [doReconnect, sslReconnect, hret] at hopen

/-- The timers of an open connection with keepalives, after these calls. -/
def InOrder (t : List Returned) (v : VpnInfo) : Prop :=
  v.sslOpen = true → 0 < v.keepaliveTime → Timed (probed t) v

/-- What waits in the queues and on the connection does not touch the timers. -/
theorem InOrder.queues {t : List Returned} (h : InOrder t v) {incoming outgoing : List Pkt}
    {ssl : Ssl} :
    InOrder t { v with incomingQueue := incoming, outgoingQueue := outgoing, ssl } := by
  intro hopen hpos
  have hold := h hopen hpos
  exact ⟨hold.whole, hold.quiet, hold.early⟩

theorem probed_append (t : List Returned) (r : Returned) :
    probed (t ++ [r]) = probedAfter (probed t) r := by
  simp [probed]

theorem mainloop_timed (kaCheckDeadline : Int → Int → Int → Int) {t : List Returned}
    (hx : InOrder t v)
    (hok : v.sslOpen = true → ordinary o v = true ∧
      v.keepaliveTime * H3C_KEEPALIVE_MISS_LIMIT < 2147483648 ∧ sendsEarly o v (probed t) = true) :
    ProbedFirst t (mainloop kaCheckDeadline o v) ∧
      InOrder (t ++ [mainloop kaCheckDeadline o v]) (mainloop kaCheckDeadline o v).vpn := by
  have hreconnect : ∀ cause turn, loopBody kaCheckDeadline o v = .reconnect cause turn →
      (cause = .deadPeer → turn.events.foldl track (probed t) = true) →
      ProbedFirst t (mainloop kaCheckDeadline o v) ∧
        InOrder (t ++ [mainloop kaCheckDeadline o v]) (mainloop kaCheckDeadline o v).vpn := by
    intro cause turn hflow hprobed
    have hloop : mainloop kaCheckDeadline o v = doReconnect o cause turn := by
      simp only [mainloop, hflow]
    rw [hloop]
    constructor
    · intro hdead
      rw [doReconnect_cause] at hdead
      have hevents : (doReconnect o cause turn).events = turn.events := by
        unfold doReconnect
        split <;> rfl
      rw [hevents]
      exact hprobed (Option.some.inj hdead)
    · intro hopen hpos
      rw [probed_append, probedAfter, doReconnect_cause]
      exact doReconnect_timed cause turn hopen hpos
  by_cases hopen : v.sslOpen = true
  · obtain ⟨hset, hfits, hearly⟩ := hok hopen
    have hpos : 0 < v.keepaliveTime := by
      simp only [ordinary, Bool.and_eq_true, decide_eq_true_eq] at hset
      exact hset.1.1.1
    rcases loopBody_timed kaCheckDeadline (hx hopen hpos) hopen hset hfits
      hearly with ⟨cause, turn, hflow, hprobed⟩ | ⟨turn, hflow, htimed⟩
    · exact hreconnect cause turn hflow hprobed
    · have hloop : mainloop kaCheckDeadline o v =
          ⟨turn.workDone, turn.timeout, none, turn.events, turn.vpn⟩ := by
        simp only [mainloop, hflow]
      rw [hloop]
      refine ⟨fun hdead => (by cases hdead), fun _ _ => ?_⟩
      rw [probed_append]
      exact htimed
  · refine hreconnect .closed { vpn := v, timeout := o.timeout } ?_ fun hc => by cases hc
    simp only [loopBody, if_neg hopen]

end Call

section Run
variable (kaCheckDeadline : Int → Int → Int → Int)

/-- One action keeps the timers in order, and a call takes no dead peer for granted. -/
theorem inOrder_step {t : List Returned} {l l' : Link} {a : Action} {e : Option Returned}
    (hx : InOrder t l.vpn) (hok : probesInTime (t, l) a = true)
    (hs : l.step kaCheckDeadline a = some (l', e)) :
    (∀ r ∈ e, ProbedFirst t r) ∧ InOrder (t ++ e.toList) l'.vpn := by
  have hquiet : ∀ v, InOrder t v →
      (∀ r ∈ (none : Option Returned), ProbedFirst t r) ∧
        InOrder (t ++ (none : Option Returned).toList) v := by
    intro v hv
    rw [Option.toList_none, List.append_nil]
    exact ⟨fun r hr => (by cases hr), hv⟩
  cases a with
  | queue pkt =>
    cases hs
    exact hquiet _ hx.queues
  | deliver =>
    cases hs
    exact hquiet _ hx.queues
  | arrive s =>
    simp only [Link.step] at hs
    split at hs
    · cases hs
      exact hquiet _ hx.queues
    · cases hs
  | hangUp =>
    cases hs
    exact hquiet _ fun hopen => (by cases hopen)
  | call o =>
    simp only [Link.step] at hs
    split at hs
    · cases hs
    · cases hs
      have hcall := mainloop_timed kaCheckDeadline (o := o) hx fun hopen => by
        simpa [probesInTime, hopen, and_assoc] using hok
      refine ⟨fun r hr => ?_, hcall.2⟩
      cases hr
      exact hcall.1

theorem reach_inOrder {t : List Returned} {s : List Returned × Link}
    (h : System.Reach (link kaCheckDeadline).logged probesInTime t s) : InOrder t s.2.vpn := by
  apply h.invariant (I := fun t s => InOrder t s.2.vpn)
  · rintro ⟨log, l⟩ ⟨-, v, now, hvpn, hcur, -, -⟩ hopen hpos
    simp only at hvpn hpos ⊢
    rw [hvpn] at hpos ⊢
    refine ⟨hcur, rfl, fun _ => ?_⟩
    simp only [VpnInfo.connected, H3C_KEEPALIVE_MISS_LIMIT] at hpos ⊢
    omega
  · intro t s a s' e run hx hok hs
    obtain ⟨log, l⟩ := s
    cases run.logged
    exact (inOrder_step kaCheckDeadline hx hok (System.watched_step.mp hs).1).2

end Run

/-- In every run in which no data frame goes out unprobed so late that the keepalive
is put off past the detector, a dead peer has left a probe unanswered. -/
theorem dead_peer_probed (kaCheckDeadline : Int → Int → Int → Int) (t : List Returned)
    (s : List Returned × Link)
    (h : System.Reach (link kaCheckDeadline).logged probesInTime t s) : Always ProbedFirst t := by
  apply h.always (P := ProbedFirst)
  intro t s a s' e run hok hs
  have hx := reach_inOrder kaCheckDeadline run
  obtain ⟨log, l⟩ := s
  cases run.logged
  exact (inOrder_step kaCheckDeadline hx hok (System.watched_step.mp hs).1).1

/-- A silent gateway: two keepalives go unanswered. -/
theorem dead_peer_probed_sample : ∃ t s,
    System.Reach (link kaCheckDeadline).logged probesInTime t s ∧
      t.getLast?.bind Returned.cause = some .deadPeer ∧ Always ProbedFirst t := by
  obtain ⟨t, s, hr, hp⟩ := System.exists_reach (M := (link kaCheckDeadline).logged) probesInTime
    [.call { now := 30, dataWrite := .accepts 9, keepaliveWrite := .accepts 4
             keepaliveSentAt := 30, reconnect := { now := 30 } },
      .call { dataSentAt := 90, now := 90, keepaliveWrite := .accepts 4, keepaliveSentAt := 90
              reconnect := { now := 90 } }]
    (fun t _ => t.getLast?.bind Returned.cause == some .deadPeer) (s := ([], fresh))
    ⟨rfl, fresh_start⟩ (by decide)
  exact ⟨t, s, hr, by simpa using hp, dead_peer_probed kaCheckDeadline t s hr⟩

/-- A call at the time `now` that has one byte of data to send. -/
def sendsAt (now : Int) : List Action :=
  [.queue { data := [0x45] },
    .call { dataWrite := .accepts 5, dataSentAt := now, now, keepaliveWrite := .accepts 4
            keepaliveSentAt := now, reconnect := { now } }]

/-- The setting alone, without the condition. -/
def inSetting (l : Link) : Action → Bool
  | .call o => !l.vpn.sslOpen || ordinary o l.vpn
  | _ => true

/-- Data goes out every 25 seconds to a silent gateway, so no keepalive falls due. -/
theorem dead_peer_unprobed : ¬ ∀ kaCheckDeadline t l,
    System.Reach (link kaCheckDeadline) inSetting t l → Always ProbedFirst t := by
  intro h
  obtain ⟨t, l, hr, hp⟩ := System.exists_reach (M := link kaCheckDeadline) inSetting
    (sendsAt 25 ++ sendsAt 50 ++ sendsAt 75 ++
      [.call { dataSentAt := 90, now := 90, keepaliveWrite := .accepts 4, keepaliveSentAt := 90
               reconnect := { now := 90 } }])
    (fun t _ => t.getLast?.any fun r => r.cause == some .deadPeer &&
      !r.events.foldl track (probed t.dropLast))
    fresh_start (by decide)
  obtain ⟨r, hget, hdead⟩ := (Option.any_eq_true _ _).mp hp
  obtain ⟨before, rfl⟩ := List.getLast?_eq_some_iff.mp hget
  simp only [List.dropLast_concat, Bool.and_eq_true, beq_iff_eq, Bool.not_eq_true'] at hdead
  have hprobed := h kaCheckDeadline _ l hr before r [] rfl hdead.1
  rw [hdead.2] at hprobed
  cases hprobed

end InodeVpn.Proofs.DeadPeer
