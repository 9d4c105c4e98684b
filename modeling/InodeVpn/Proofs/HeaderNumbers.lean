import InodeVpn.Fork.Headers
import InodeVpn.Proofs.DeadPeer

namespace InodeVpn.Proofs.HeaderNumbers
open Lib Wire Fork Writers OutgoingFrames DeadPeer

section Netmask
variable {H : Type} {heap : Heap H} {masklen : Int} {st : NetmaskState H}

/-- The value is rejected, or the count of the shift is that of a bit and the netmask is as many
one bits as the value says, then zeros. -/
def SafeMask (heap : Heap H) (masklen : Int) (st : NetmaskState H) : Prop :=
  ∃ result, h3cSubnetmask heap masklen st = some result ∧
    (result.1 = 0 → (masklen ≠ 0 → 0 ≤ 32 - masklen ∧ 32 - masklen ≤ 31) ∧
      ∃ mask, result.2.netmask = some (inetNtop mask) ∧
        ∀ i < 32, mask.getMsbD i = decide ((i : Int) < masklen))

theorem maskAddr_eq (hpos : 0 ≤ masklen) (hle : masklen ≤ 32) :
    maskAddr masklen = some (prefixMask 32 masklen.toNat) := by
  unfold maskAddr
  split
  · have hcount : (32 - masklen).toNat = 32 - masklen.toNat := by omega
    rw [if_pos (by omega), checkedShl_of_lt (by omega), hcount, prefixMask]
  · rename_i hzero
    have hnone : masklen = 0 := by omega
    subst hnone
    decide

theorem maskAddr_eq_none (h : masklen < 0 ∨ 32 < masklen) : maskAddr masklen = none := by
  rw [maskAddr, if_pos (by omega)]
  simp only
  split
  · exact if_neg (by omega)
  · rfl

theorem safeMask_iff : SafeMask heap masklen st ↔ 0 ≤ masklen ∧ masklen ≤ 32 := by
  constructor
  · rintro ⟨result, hok, -⟩
    by_contra hout
    rw [h3cSubnetmask, maskAddr_eq_none (by omega)] at hok
    cases hok
  · rintro ⟨hpos, hle⟩
    have haddr := maskAddr_eq hpos hle
    have hbits : ∀ i < 32, (prefixMask 32 masklen.toNat).getMsbD i =
        decide ((i : Int) < masklen) := by
      intro i hi
      rw [getMsbD_prefixMask hi (by omega)]
      exact decide_eq_decide.mpr (by omega)
    refine ⟨_, by rw [h3cSubnetmask, haddr, Option.map_some], fun hret => ?_⟩
    cases hvalue : (heap.addOptionDup "netmask" (inetNtop (prefixMask 32 masklen.toNat))
        st.heap).2 with
    | true => exact ⟨fun _ => ⟨by omega, by omega⟩, _, by simp only [hvalue, if_true], hbits⟩
    | false =>
      simp only [hvalue] at hret
      cases hret

end Netmask

def Fits (keepalive : Int) : Prop := keepalive * H3C_KEEPALIVE_MISS_LIMIT ≤ 2147483647

instance (keepalive : Int) : Decidable (Fits keepalive) :=
  inferInstanceAs (Decidable (keepalive * H3C_KEEPALIVE_MISS_LIMIT ≤ 2147483647))

section Calls
variable {o : Outside} {v : VpnInfo} {t turn : Turn} {kaCheckDeadline : Int → Int → Int → Int}

/-- The turn in which a call computes its deadlines. -/
def Computes (o : Outside) (v : VpnInfo) (turn : Turn) : Prop :=
  v.sslOpen = true ∧
    (afterReads o v).andThen (handleOutgoing o.dataWrite o.dataSentAt) = .on turn ∧
    0 < turn.vpn.keepaliveTime

/-- The product fits an `int`, and the deadline lies three periods after the last byte. -/
structure Exact (v : VpnInfo) : Prop where
  fits : Fits v.keepaliveTime
  due : v.dpdDue = v.lastRx + 3 * v.keepaliveTime

theorem exact_iff (hpos : 0 < v.keepaliveTime) : Exact v ↔ Fits v.keepaliveTime := by
  constructor
  · exact Exact.fits
  · intro hfits
    refine ⟨hfits, ?_⟩
    simp only [Fits, H3C_KEEPALIVE_MISS_LIMIT] at hfits
    rw [VpnInfo.dpdDue, H3C_KEEPALIVE_MISS_LIMIT, toInt32_eq (by omega) (by omega)]
    omega

theorem andThen_others {f : Flow} {next : Turn → Flow}
    (hnext : ∀ t, others (next t).turn.vpn = others t.vpn) :
    others (f.andThen next).turn.vpn = others f.turn.vpn := by
  cases f with
  | on t => exact hnext t
  | reconnect cause t => rfl

theorem afterReads_period : (afterReads o v).turn.vpn.keepaliveTime = v.keepaliveTime :=
  congrArg Sender.keepaliveTime (afterReads_on (b := false)).2

/-- A call computes its deadlines with the period that it was given. -/
theorem computes_period (h : Computes o v turn) :
    turn.vpn.keepaliveTime = v.keepaliveTime := by
  have hothers := andThen_others (f := afterReads o v)
    (handleOutgoing_others o.dataWrite o.dataSentAt)
  rw [h.2.1] at hothers
  exact (congrArg VpnInfo.keepaliveTime hothers).trans afterReads_period

theorem loopBody_period (kaCheckDeadline : Int → Int → Int → Int) (o : Outside) (v : VpnInfo) :
    (loopBody kaCheckDeadline o v).turn.vpn.keepaliveTime = v.keepaliveTime := by
  by_cases hopen : v.sslOpen = true
  · rw [loopBody_open hopen]
    have hothers := (andThen_others (keepalive_others kaCheckDeadline o)).trans
      (andThen_others (f := afterReads o v) (handleOutgoing_others o.dataWrite o.dataSentAt))
    exact (congrArg VpnInfo.keepaliveTime hothers).trans afterReads_period
  · simp only [loopBody, if_neg hopen]
    rfl

/-- A call leaves the period, or has read another. -/
theorem mainloop_period (kaCheckDeadline : Int → Int → Int → Int) (o : Outside) (v : VpnInfo) :
    (mainloop kaCheckDeadline o v).vpn.keepaliveTime = v.keepaliveTime ∨
      o.reconnect.keepaliveHeader = some (mainloop kaCheckDeadline o v).vpn.keepaliveTime := by
  have hbody := loopBody_period kaCheckDeadline o v
  unfold mainloop
  cases hflow : loopBody kaCheckDeadline o v with
  | on t =>
    rw [hflow] at hbody
    exact Or.inl hbody
  | reconnect cause t =>
    rw [hflow] at hbody
    cases hheader : o.reconnect.keepaliveHeader with
    | none =>
      refine Or.inl (Eq.trans ?_ hbody)
      by_cases hret : o.reconnect.ret = 0 <;>
        simp [doReconnect, sslReconnect, hret, VpnInfo.readHeaders, hheader, VpnInfo.connected,
          Flow.turn]
    | some n =>
      right
      by_cases hret : o.reconnect.ret = 0 <;>
        simp [doReconnect, sslReconnect, hret, VpnInfo.readHeaders, hheader, VpnInfo.connected]

end Calls

section Run
variable (kaCheckDeadline : Int → Int → Int → Int)

/-- The client after an `h3c_connect` that has read this `KEEPALIVETIME`. -/
def connectedWith (keepalive now : Int) (v : VpnInfo) : VpnInfo :=
  (v.readHeaders { keepaliveHeader := some keepalive }).connected now

/-- The runs of `h3c_mainloop` from a client on. -/
def linkFrom (l : Link) : System Link Action Returned :=
  { link kaCheckDeadline with init := (· = l) }

/-- The later values that a run reads for `KEEPALIVETIME` fit. -/
def laterFit (_ : Link) : Action → Bool
  | .call o => o.reconnect.keepaliveHeader.all fun keepalive => decide (Fits keepalive)
  | _ => true

/-- After such an `h3c_connect` no call computes a deadline that is not exact. -/
def SafeDeadlines (keepalive : Int) : Prop :=
  ∀ v now queued t l,
    System.Reach (linkFrom kaCheckDeadline ⟨connectedWith keepalive now v, queued⟩) laterFit t l →
    ∀ o turn, Computes o l.vpn turn → Exact turn.vpn

theorem fits_step {l l' : Link} {a : Action} {e : Option Returned}
    (hfits : Fits l.vpn.keepaliveTime) (hok : laterFit l a = true)
    (hs : l.step kaCheckDeadline a = some (l', e)) :
    Fits l'.vpn.keepaliveTime := by
  cases a with
  | queue pkt =>
    cases hs
    exact hfits
  | deliver =>
    cases hs
    exact hfits
  | arrive s =>
    simp only [Link.step] at hs
    split at hs
    · cases hs
      exact hfits
    · cases hs
  | hangUp =>
    cases hs
    exact hfits
  | call o =>
    simp only [Link.step] at hs
    split at hs
    · cases hs
    · cases hs
      rcases mainloop_period kaCheckDeadline o l.vpn with hkept | hread
      · exact hkept ▸ hfits
      · rw [laterFit, hread] at hok
        exact of_decide_eq_true hok

theorem safeDeadlines_iff (keepalive : Int) :
    SafeDeadlines kaCheckDeadline keepalive ↔ Fits keepalive := by
  constructor
  · intro hsafe
    by_contra hbig
    have hpos : 0 < keepalive := by
      simp only [Fits, H3C_KEEPALIVE_MISS_LIMIT] at hbig
      omega
    -- a first call with nothing to read or to write
    have hexact := hsafe {} 0 [] [] _ (.init rfl) {}
      { vpn := connectedWith keepalive 0 {}, timeout := 0 } ⟨rfl, rfl, hpos⟩
    exact hbig hexact.fits
  · intro hfits v now queued t l hrun o turn hturn
    have hinv : Fits l.vpn.keepaliveTime := by
      apply hrun.invariant (I := fun _ l => Fits l.vpn.keepaliveTime)
      · rintro l rfl
        exact hfits
      · intro t l a l' e _ hfits hok hs
        exact fits_step kaCheckDeadline hfits hok hs
    exact (exact_iff hturn.2.2).mpr ((computes_period hturn).symm ▸ hinv)

end Run

/-- Which numbers of the gateway the client's arithmetic can take. -/
theorem header_numbers_safe {H : Type} (kaCheckDeadline : Int → Int → Int → Int) (heap : Heap H)
    (st : NetmaskState H) (masklen keepalive : Int) :
    (SafeMask heap masklen st ↔ 0 ≤ masklen ∧ masklen ≤ 32) ∧
      (SafeDeadlines kaCheckDeadline keepalive ↔
        keepalive * H3C_KEEPALIVE_MISS_LIMIT ≤ 2147483647) :=
  ⟨safeMask_iff, safeDeadlines_iff kaCheckDeadline keepalive⟩

/-- There is always memory. -/
def plenty : Heap Unit where
  addOptionDup _ _ h := (h, true)
  malloc h := (h, true)

/-- A netmask of 33 bits, and a period whose triple wraps: the first call finds a dead peer. -/
theorem large_numbers_break :
    ¬ SafeMask plenty 33 ⟨none, ()⟩ ∧ ¬ SafeDeadlines kaCheckDeadline 1431655764 ∧
      (mainloop kaCheckDeadline {} (connectedWith 1431655764 0 {})).cause = some .deadPeer := by
  refine ⟨fun hsafe => ?_, fun hsafe => ?_, by decide⟩
  · exact absurd (safeMask_iff.mp hsafe) (by decide)
  · exact absurd ((safeDeadlines_iff kaCheckDeadline 1431655764).mp hsafe) (by decide)

end InodeVpn.Proofs.HeaderNumbers
