import InodeVpn.Proofs.DeadPeer

namespace InodeVpn.Proofs.Pacing
open Wire Fork OutgoingFrames

/-- Calls of the main loop, one after the other. -/
def calls (kaCheckDeadline : Int → Int → Int → Int) : List Outside → VpnInfo → List Returned
  | [], _ => []
  | o :: os, v =>
    let r := mainloop kaCheckDeadline o v
    r :: calls kaCheckDeadline os r.vpn

/-- A keepalive is to go out at this time: one is pending, or falls due. -/
def keepaliveOwed (now : Int) (v : VpnInfo) : Bool :=
  0 < v.keepaliveTime && (v.hbPending || v.nextHb ≤ now)

/-- The frames that can still be completed while the clock stands. -/
def owed (now : Int) (v : VpnInfo) : Nat :=
  v.outgoingQueue.length + v.currentSslPkt.toList.length + (keepaliveOwed now v).toNat

/-- Work done is paid for with a frame that was owed. -/
structure Pays (now : Int) (t t' : Turn) : Prop where
  paid : t'.workDone + owed now t'.vpn ≤ t.workDone + owed now t.vpn
  inbox : t'.vpn.ssl.inbox = t.vpn.ssl.inbox

/-- The clock shows one time during a call. -/
structure ClockAt (time : Int) (o : Outside) : Prop where
  dataSentAt : o.dataSentAt = time
  now : o.now = time
  keepaliveSentAt : o.keepaliveSentAt = time

section Writes
variable {w : Write} {now : Int} {pkt : Pkt} {t t' : Turn}

theorem Pays.refl : Pays now t t := ⟨Nat.le_refl _, rfl⟩

theorem Pays.trans {t'' : Turn} (h : Pays now t t') (h' : Pays now t' t'') : Pays now t t'' :=
  ⟨Nat.le_trans h'.paid h.paid, h'.inbox.trans h.inbox⟩

/-- A data write that does not fail completes the frame, or leaves it under way. -/
theorem writeDataFrame_on (h : writeDataFrame w now pkt t = .on t') :
    ∃ ssl : Ssl, ssl.inbox = t.vpn.ssl.inbox ∧
      ((∃ off, t' = { t with vpn := { t.vpn with ssl, txOffset := off } }) ∨
        t' = { t with
          vpn := { t.vpn with ssl, lastTx := now, currentSslPkt := none, txOffset := 0 }
          workDone := t.workDone + 1
          events := t.events ++ [.packetSent] }) := by
  cases w with
  | error => cases h
  | accepts n =>
    simp only [writeDataFrame, Ssl.nonblockWrite] at h
    split at h
    · cases h
      exact ⟨(t.vpn.ssl.nonblockWrite _ (.accepts n)).2, rfl, Or.inr rfl⟩
    · cases h
      exact ⟨(t.vpn.ssl.nonblockWrite _ (.accepts n)).2, rfl, Or.inl ⟨_, rfl⟩⟩

theorem writeKeepalive_on (h : writeKeepalive w now t = .on t') :
    ∃ ssl : Ssl, ssl.inbox = t.vpn.ssl.inbox ∧
      ((∃ off, t' = { t with vpn := { t.vpn with ssl, hbOffset := off } }) ∨
        t' = { t with
          vpn := { t.vpn with ssl, lastTx := now, hbPending := false, hbOffset := 0 }
          workDone := t.workDone + 1
          events := t.events ++ [.keepaliveSent] }) := by
  cases w with
  | error => cases h
  | accepts n =>
    simp only [writeKeepalive, Ssl.nonblockWrite] at h
    split at h
    · cases h
      exact ⟨(t.vpn.ssl.nonblockWrite _ (.accepts n)).2, rfl, Or.inr rfl⟩
    · cases h
      exact ⟨(t.vpn.ssl.nonblockWrite _ (.accepts n)).2, rfl, Or.inl ⟨_, rfl⟩⟩

section Owed
variable {v v' : VpnInfo}

/-- A frame sent puts the next keepalive off: only one that is pending is still owed. -/
theorem keepaliveOwed_sent (hsent : v.lastTx = now) :
    keepaliveOwed now v = (0 < v.keepaliveTime && v.hbPending) := by
  unfold keepaliveOwed VpnInfo.nextHb
  rw [hsent]
  by_cases hk : 0 < v.keepaliveTime
  · have hlate : ¬ now + v.keepaliveTime ≤ now := by omega
    simp [hlate]
  · simp [hk]

theorem keepaliveOwed_of_pending (hk : 0 < v.keepaliveTime) (hpending : v.hbPending = true) :
    keepaliveOwed now v = true := by
  simp [keepaliveOwed, hk, hpending]

/-- A packet is paid for by itself. -/
theorem owed_packet_sent (hcur : v.currentSslPkt = some pkt) (hnone : v'.currentSslPkt = none)
    (hqueue : v'.outgoingQueue = v.outgoingQueue) (htime : v'.keepaliveTime = v.keepaliveTime)
    (hpending : v'.hbPending = v.hbPending) (hsent : v'.lastTx = now) :
    1 + owed now v' ≤ owed now v := by
  have hkeepalive : (keepaliveOwed now v').toNat ≤ (keepaliveOwed now v).toNat := by
    rw [keepaliveOwed_sent hsent, htime, hpending]
    unfold keepaliveOwed
    cases v.hbPending <;> simp
  rw [owed, owed, hcur, hnone, hqueue, Option.toList_none, Option.toList_some, List.length_nil,
    List.length_singleton]
  omega

/-- So is a keepalive. -/
theorem owed_keepalive_sent (howed : keepaliveOwed now v = true)
    (hcur : v'.currentSslPkt = v.currentSslPkt) (hqueue : v'.outgoingQueue = v.outgoingQueue)
    (hpending : v'.hbPending = false) (hsent : v'.lastTx = now) :
    1 + owed now v' ≤ owed now v := by
  have hnone : keepaliveOwed now v' = false := by
    rw [keepaliveOwed_sent hsent, hpending, Bool.and_false]
  rw [owed, owed, howed, hnone, hcur, hqueue, Bool.toNat_true, Bool.toNat_false]
  omega

/-- A packet that is begun is still owed. -/
theorem owed_startPacket {queue : List Pkt} (hcur : v.currentSslPkt = none)
    (hqueue : v.outgoingQueue = pkt :: queue) :
    owed now (v.startPacket pkt queue) = owed now v := by
  have hsame : keepaliveOwed now (v.startPacket pkt queue) = keepaliveOwed now v := rfl
  rw [owed, owed, hsame, hcur, hqueue, List.length_cons]
  rfl

/-- And so is a keepalive that falls due. -/
theorem owed_startKeepalive (howed : keepaliveOwed now v = true) (hk : 0 < v.keepaliveTime) :
    owed now v.startKeepalive = owed now v := by
  have hstarted : keepaliveOwed now v.startKeepalive = true := keepaliveOwed_of_pending hk rfl
  rw [owed, owed, hstarted, howed]
  rfl

end Owed

theorem writeDataFrame_pays (hcur : t.vpn.currentSslPkt = some pkt)
    (h : writeDataFrame w now pkt t = .on t') : Pays now t t' := by
  obtain ⟨ssl, hinbox, ⟨off, rfl⟩ | rfl⟩ := writeDataFrame_on h
  · exact ⟨Nat.le_refl _, hinbox⟩
  · refine ⟨?_, hinbox⟩
    rw [Nat.add_assoc]
    apply Nat.add_le_add_left
    exact owed_packet_sent hcur rfl rfl rfl rfl rfl

theorem handleOutgoing_pays (h : handleOutgoing w now t = .on t') : Pays now t t' := by
  unfold handleOutgoing at h
  split at h
  · rename_i pkt hcur
    exact writeDataFrame_pays hcur h
  · rename_i hcur
    split at h
    · cases h
      exact .refl
    · rename_i pkt queue hqueue
      have hpays := writeDataFrame_pays rfl h
      exact ⟨owed_startPacket hcur hqueue ▸ hpays.paid, hpays.inbox⟩

theorem writeKeepalive_pays (h : writeKeepalive w now t = .on t')
    (hpending : t.vpn.hbPending = true) (hk : 0 < t.vpn.keepaliveTime) : Pays now t t' := by
  have howed : keepaliveOwed now t.vpn = true := keepaliveOwed_of_pending hk hpending
  obtain ⟨ssl, hinbox, ⟨off, rfl⟩ | rfl⟩ := writeKeepalive_on h
  · exact ⟨Nat.le_refl _, hinbox⟩
  · refine ⟨?_, hinbox⟩
    rw [Nat.add_assoc]
    apply Nat.add_le_add_left
    exact owed_keepalive_sent howed rfl rfl rfl rfl

/-- The timeout apart, this is what the second half of a call does. -/
theorem sendKeepalive_pays {o : Outside} (hclock : ClockAt now o) (hk : 0 < t.vpn.keepaliveTime)
    (h : sendKeepalive o t = .on t') : Pays now t t' := by
  unfold sendKeepalive at h
  rw [hclock.now, hclock.keepaliveSentAt] at h
  split at h
  · rename_i hpending
    exact writeKeepalive_pays h hpending hk
  · split at h
    · rename_i hdue
      have howed : keepaliveOwed now t.vpn = true := by
        simp only [keepaliveOwed, hk, decide_true, Bool.true_and, Bool.or_eq_true,
          decide_eq_true_eq]
        exact Or.inr hdue
      have hpays := writeKeepalive_pays h rfl hk
      exact ⟨owed_startKeepalive howed hk ▸ hpays.paid, hpays.inbox⟩
    · cases h
      exact .refl

end Writes

section Calls
variable {kaCheckDeadline : Int → Int → Int → Int} {now : Int} {o : Outside} {v : VpnInfo}
  {t t' : Turn}

theorem andThen_on {f : Flow} {next : Turn → Flow} (h : f.andThen next = .on t') :
    ∃ t, f = .on t ∧ next t = .on t' := by
  cases f with
  | on t => exact ⟨t, rfl, h⟩
  | reconnect cause t => cases h

theorem keepalive_pays (hclock : ClockAt now o) (h : keepalive kaCheckDeadline o t = .on t') :
    Pays now t t' := by
  unfold keepalive at h
  split at h
  · rename_i hk
    obtain ⟨t₁, hsend, h⟩ := andThen_on h
    split at h
    · cases h
    · cases h
      have hpays := sendKeepalive_pays hclock hk hsend
      exact ⟨hpays.paid, hpays.inbox⟩
  · cases h
    exact .refl

/-- With nothing to read the loop is left at once, with no work done. -/
theorem readStep_idle (alloc : Bool) (r : Read) (hinbox : t.vpn.ssl.inbox = []) :
    ∃ f, readStep alloc r t = .leave f ∧ ∀ t', f = .on t' → Pays now t t' := by
  have hpays : ∀ t', Flow.on t = .on t' → Pays now t t' := by
    rintro t' ⟨⟩
    exact .refl
  unfold readStep
  cases t.vpn.receiveBuffer alloc with
  | none => exact ⟨_, rfl, hpays⟩
  | some pkt =>
    have hbuffer : ∀ t', Flow.on (t.withBuffer pkt) = .on t' → Pays now t t' := by
      rintro t' ⟨⟩
      exact ⟨Nat.le_refl _, rfl⟩
    simp only
    split
    · exact ⟨_, rfl, fun t' h => by cases h⟩
    · cases r with
      | again => exact ⟨_, rfl, hbuffer⟩
      | error => exact ⟨_, rfl, fun t' h => by cases h⟩
      | upTo n time alloc =>
        simp only [Ssl.nonblockRead, Turn.ssl_withBuffer, hinbox, List.take_nil, if_true]
        exact ⟨_, rfl, hbuffer⟩

theorem readLoop_pays {alloc : Bool} {reads : List Read} (hinbox : t.vpn.ssl.inbox = [])
    (h : readLoop alloc reads t = .on t') : Pays now t t' := by
  cases reads with
  | nil =>
    obtain ⟨f, hstep, hpays⟩ := readStep_idle alloc .again hinbox
    rw [readLoop, hstep] at h
    exact hpays t' h
  | cons r reads =>
    obtain ⟨f, hstep, hpays⟩ := readStep_idle alloc r hinbox
    rw [readLoop, hstep] at h
    exact hpays t' h

theorem loopBody_pays (hclock : ClockAt now o) (hinbox : v.ssl.inbox = [])
    (h : loopBody kaCheckDeadline o v = .on t') :
    t'.workDone + owed now t'.vpn ≤ owed now v ∧ t'.vpn.ssl.inbox = [] := by
  unfold loopBody at h
  split at h
  · obtain ⟨t₂, h, hkeepalive⟩ := andThen_on h
    obtain ⟨t₁, h, hout⟩ := andThen_on h
    have hread : Pays now { vpn := v, timeout := o.timeout } t₁ := by
      split at h
      · exact readLoop_pays hinbox h
      · cases h
        exact .refl
    rw [hclock.dataSentAt] at hout
    have hpays := (hread.trans (handleOutgoing_pays hout)).trans (keepalive_pays hclock hkeepalive)
    refine ⟨?_, hpays.inbox.trans hinbox⟩
    have hpaid := hpays.paid
    rwa [Nat.zero_add] at hpaid
  · cases h

/-- What a call returns without a reconnect is paid for. -/
theorem mainloop_pays (hclock : ClockAt now o) (hinbox : v.ssl.inbox = [])
    (hcause : (mainloop kaCheckDeadline o v).cause = none) :
    ∃ work : Nat, (mainloop kaCheckDeadline o v).ret = work ∧
      work + owed now (mainloop kaCheckDeadline o v).vpn ≤ owed now v ∧
      (mainloop kaCheckDeadline o v).vpn.ssl.inbox = [] := by
  unfold mainloop at hcause ⊢
  cases hbody : loopBody kaCheckDeadline o v with
  | on t =>
    obtain ⟨hpaid, hempty⟩ := loopBody_pays hclock hinbox hbody
    exact ⟨t.workDone, rfl, hpaid, hempty⟩
  | reconnect cause t =>
    rw [hbody] at hcause
    exact absurd (hcause.symm.trans (doReconnect_cause cause t)) (by simp)

/-- So the returns are, over any number of calls, and of those that are positive there are no
more than frames were owed. -/
theorem calls_pay {os : List Outside} (hclock : ∀ o ∈ os, ClockAt now o)
    (hinbox : v.ssl.inbox = []) (hcause : ∀ r ∈ calls kaCheckDeadline os v, r.cause = none) :
    (calls kaCheckDeadline os v).countP (0 < ·.ret) ≤ owed now v := by
  induction os generalizing v with
  | nil => exact Nat.zero_le _
  | cons o os ih =>
    obtain ⟨hfirst, hlater⟩ := List.forall_mem_cons.mp hcause
    obtain ⟨ho, hos⟩ := List.forall_mem_cons.mp hclock
    obtain ⟨work, hret, hpaid, hempty⟩ := mainloop_pays ho hinbox hfirst
    have hrest := ih hos hempty hlater
    rw [calls, List.countP_cons, hret]
    split
    · rename_i hpositive
      rw [decide_eq_true_eq] at hpositive
      omega
    · omega

/-- At most the queue, the packet under way and one keepalive are owed. -/
theorem owed_le (now : Int) (v : VpnInfo) : owed now v ≤ v.outgoingQueue.length + 2 := by
  have hcurrent : v.currentSslPkt.toList.length ≤ 1 := by
    cases v.currentSslPkt <;> simp
  have hkeepalive := Bool.toNat_le (keepaliveOwed now v)
  unfold owed
  omega

end Calls

/-- `ka_check_deadline` never puts the wake-up off, and lowers the timeout to a deadline that
lies ahead. -/
structure LowersTimeout (kaCheckDeadline : Int → Int → Int → Int) : Prop where
  lower : ∀ timeout now due, kaCheckDeadline timeout now due ≤ timeout
  ahead : ∀ timeout now due, now < due → kaCheckDeadline timeout now due ≤ 1000 * (due - now)

section Sleep
variable {kaCheckDeadline : Int → Int → Int → Int} {o : Outside} {v : VpnInfo} {t t' : Turn}

/-- No keepalive is written without work or a rest, so there was none to write. -/
theorem sendKeepalive_quiet (h : sendKeepalive o t = .on t') (hwork : t'.workDone = 0)
    (hpending : t'.vpn.hbPending = false) : t' = t ∧ o.now < t.vpn.nextHb := by
  unfold sendKeepalive at h
  split at h
  · rename_i hbefore
    obtain ⟨ssl, -, ⟨off, rfl⟩ | rfl⟩ := writeKeepalive_on h
    · exact absurd (hbefore.symm.trans hpending) (by simp)
    · cases hwork
  · split at h
    · obtain ⟨ssl, -, ⟨off, rfl⟩ | rfl⟩ := writeKeepalive_on h
      · cases hpending
      · cases hwork
    · rename_i hdue
      cases h
      exact ⟨rfl, Int.not_le.mp hdue⟩

/-- The two deadlines are those of the state that the call leaves. -/
theorem keepalive_sleeps (hka : LowersTimeout kaCheckDeadline)
    (h : keepalive kaCheckDeadline o t = .on t') (hwork : t'.workDone = 0)
    (hk : 0 < t'.vpn.keepaliveTime) (hpending : t'.vpn.hbPending = false) :
    t'.timeout ≤ 1000 * (min t'.vpn.nextHb t'.vpn.dpdDue - o.now) := by
  unfold keepalive at h
  split at h
  · obtain ⟨t₁, hsend, h⟩ := andThen_on h
    split at h
    · cases h
    · rename_i hdead
      cases h
      obtain ⟨rfl, hnext⟩ := sendKeepalive_quiet hsend hwork hpending
      have hdpd : o.now < t₁.vpn.dpdDue := Int.not_le.mp hdead
      have hfirst := hka.ahead t₁.timeout o.now t₁.vpn.nextHb hnext
      have hkept := hka.lower (kaCheckDeadline t₁.timeout o.now t₁.vpn.nextHb) o.now t₁.vpn.dpdDue
      have hsecond := hka.ahead (kaCheckDeadline t₁.timeout o.now t₁.vpn.nextHb) o.now
        t₁.vpn.dpdDue hdpd
      simp only
      rcases Int.le_total t₁.vpn.nextHb t₁.vpn.dpdDue with hle | hle
      · rw [Int.min_eq_left hle]
        exact Int.le_trans hkept hfirst
      · rwa [Int.min_eq_right hle]
  · rename_i hnot
    cases h
    exact absurd hk hnot

theorem mainloop_sleeps (hka : LowersTimeout kaCheckDeadline)
    (hret : (mainloop kaCheckDeadline o v).ret = 0)
    (hk : 0 < (mainloop kaCheckDeadline o v).vpn.keepaliveTime)
    (hpending : (mainloop kaCheckDeadline o v).vpn.hbPending = false) :
    (mainloop kaCheckDeadline o v).timeout ≤ 1000 *
      (min (mainloop kaCheckDeadline o v).vpn.nextHb (mainloop kaCheckDeadline o v).vpn.dpdDue -
        o.now) := by
  unfold mainloop at hret hk hpending ⊢
  cases hbody : loopBody kaCheckDeadline o v with
  | on t =>
    rw [hbody] at hret hk hpending
    have hwork : t.workDone = 0 := Int.ofNat.inj hret
    unfold loopBody at hbody
    split at hbody
    · obtain ⟨t₂, -, hkeepalive⟩ := andThen_on hbody
      exact keepalive_sleeps hka hkeepalive hwork hk hpending
    · cases hbody
  | reconnect cause t =>
    rw [hbody] at hret
    simp only [doReconnect] at hret
    split at hret
    · exact absurd hret (by assumption)
    · cases hret

end Sleep

/-- With the clock standing and nothing to read, the main loop comes back with work done no
oftener than there are packets, and twice more; and when it comes back with none, it has the
caller sleep no longer than to the next keepalive or to the time when the peer counts as dead. -/
theorem neither_spins_nor_oversleeps (kaCheckDeadline : Int → Int → Int → Int)
    (hka : LowersTimeout kaCheckDeadline) (v : VpnInfo) :
    (∀ now os, v.ssl.inbox = [] → (∀ o ∈ os, ClockAt now o) →
      (∀ r ∈ calls kaCheckDeadline os v, r.cause = none) →
      (calls kaCheckDeadline os v).countP (0 < ·.ret) ≤ v.outgoingQueue.length + 2) ∧
    ∀ o, (mainloop kaCheckDeadline o v).ret = 0 →
      let after := (mainloop kaCheckDeadline o v).vpn
      0 < after.keepaliveTime → after.keepaliveTime * H3C_KEEPALIVE_MISS_LIMIT < 2147483648 →
      after.hbPending = false →
      (mainloop kaCheckDeadline o v).timeout ≤ 1000 * (min (after.lastTx + after.keepaliveTime)
        (after.lastRx + after.keepaliveTime * H3C_KEEPALIVE_MISS_LIMIT) - o.now) := by
  constructor
  · intro now os hinbox hclock hcause
    exact Nat.le_trans (calls_pay hclock hinbox hcause) (owed_le now v)
  · intro o hret after hk hfits hpending
    have hdpd : after.dpdDue = after.lastRx + after.keepaliveTime * H3C_KEEPALIVE_MISS_LIMIT := by
      have hpos : 0 ≤ after.keepaliveTime * H3C_KEEPALIVE_MISS_LIMIT :=
        Int.mul_nonneg (Int.le_of_lt hk) (by decide)
      rw [VpnInfo.dpdDue, DeadPeer.toInt32_eq hpos hfits]
    rw [← hdpd]
    exact mainloop_sleeps hka hret hk hpending

theorem lowersTimeout_kaCheckDeadline : LowersTimeout kaCheckDeadline where
  lower timeout now due := by
    unfold kaCheckDeadline
    split <;> omega
  ahead timeout now due h := by
    rw [kaCheckDeadline, if_neg (Int.not_le.mpr h)]
    omega

/-- A packet is waiting and a keepalive is due. -/
def waiting : VpnInfo := { VpnInfo.connected 0 {} with outgoingQueue := [{ data := [0x45, 0x00] }] }

/-- A call at time 40, in which the data write accepts so many bytes. -/
def callAt40 (n : Nat) : Outside where
  timeout := 60000
  dataWrite := .accepts n
  dataSentAt := 40
  now := 40
  keepaliveWrite := .accepts 4
  keepaliveSentAt := 40

theorem neither_spins_nor_oversleeps_sample :
    (calls kaCheckDeadline [callAt40 5, callAt40 1, callAt40 1] waiting).countP (0 < ·.ret) ≤ 3 ∧
      (mainloop kaCheckDeadline { timeout := 60000, now := 10 } fresh.vpn).timeout ≤ 20000 := by
  constructor
  · apply (neither_spins_nor_oversleeps kaCheckDeadline lowersTimeout_kaCheckDeadline waiting).1 40
    · rfl
    · simp only [List.forall_mem_cons]
      exact ⟨⟨rfl, rfl, rfl⟩, ⟨rfl, rfl, rfl⟩, ⟨rfl, rfl, rfl⟩, by simp⟩
    · decide
  · exact (neither_spins_nor_oversleeps kaCheckDeadline lowersTimeout_kaCheckDeadline fresh.vpn).2
      { timeout := 60000, now := 10 } (by decide) (by decide) (by decide) (by decide)

end InodeVpn.Proofs.Pacing
