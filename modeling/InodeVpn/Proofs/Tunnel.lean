import InodeVpn.Proofs.ByteStream

namespace InodeVpn.Proofs.Tunnel
open Lib Fork Writers OutgoingFrames ByteStream
open Wire hiding H3C_MAX_FRAME_LEN

section Frames
variable {f : OutFrame} {frames : List OutFrame}

/-- The length field of the frame can say how long its packet is. -/
def Fits (f : OutFrame) : Prop := ∀ data ∈ f.data?, data.length ≤ 16384

theorem Fits.whole (h : Fits f) : h3c.Whole f.bytes := by
  cases f with
  | packet data => exact whole_encode 1 0 (h data rfl)
  | keepalive => exact whole_encode 2 0 (Nat.zero_le 16384 : ([] : Bytes).length ≤ 16384)

theorem packetOf_bytes (f : OutFrame) :
    packetOf f.bytes = f.data?.map fun s => ({ data := s } : Pkt) := by
  cases f <;> rfl

theorem packets_of_frames (frames : List OutFrame) :
    ((frames.map OutFrame.bytes).filterMap packetOf).map Pkt.data =
      frames.filterMap OutFrame.data? := by
  rw [List.filterMap_map, List.map_filterMap]
  refine List.filterMap_congr fun f _ => ?_
  rw [Function.comp_apply, packetOf_bytes, Option.map_map]
  exact Option.map_id'

/-- A decoder of the beginning of some frames finds the packets of those that are there. -/
theorem decode_prefix {p : Bytes} (hfits : ∀ f ∈ frames, Fits f)
    (hp : p <+: frames.flatMap OutFrame.bytes) :
    ∃ done, done <+: frames ∧ (decode p).map Pkt.data = done.filterMap OutFrame.data? := by
  obtain ⟨done, todo, part, hat⟩ := Framing.exists_at (fun f hf => (hfits f hf).whole) hp
  refine ⟨done, ⟨todo, hat.split.symm⟩, ?_⟩
  rw [decode, hat.cut, packets_of_frames]

/-- And all of them, if only a part of another frame follows. -/
theorem decode_whole {part : Bytes} (hfits : ∀ f ∈ frames, Fits f) (hpart : h3c.next part = .wait) :
    (decode (frames.flatMap OutFrame.bytes ++ part)).map Pkt.data =
      frames.filterMap OutFrame.data? := by
  have hwhole : ∀ raw ∈ frames.map OutFrame.bytes, h3c.Whole raw := by
    intro raw hraw
    obtain ⟨f, hf, rfl⟩ := List.mem_map.mp hraw
    exact (hfits f hf).whole
  rw [decode, List.flatMap_def, Framing.cut_whole_append hwhole, Framing.cut_wait hpart,
    List.append_nil, packets_of_frames]

end Frames

section Sending
variable {queued : List Pkt} {done : List OutFrame} {s : Sender}

/-- What is out of a frame under way does not make a frame. -/
theorem begun_waits (h : Sending queued done s)
    (hfits : ∀ pkt ∈ s.current, pkt.data.length ≤ 16384) : h3c.next s.begun = .wait := by
  have hnil : h3c.next [] = .wait := rfl
  by_cases hhb : s.hbOffset = 0
  · rw [Sender.begun, hhb, List.take_zero, List.append_nil]
    cases hcur : s.current with
    | none => exact hnil
    | some pkt =>
      have himage : pkt.image = encode 1 0 pkt.data := h.stamped pkt hcur
      have hwhole : h3c.Whole pkt.image := himage ▸ whole_encode 1 0 (hfits pkt hcur)
      refine hwhole.wait (List.take_prefix _ _) ?_
      rw [Option.elim_some, List.length_take, himage, encode_length]
      have := h.partly pkt hcur
      omega
  · have htx : s.txOffset = 0 := h.apart.resolve_right hhb
    have hpending : s.hbPending = true := by
      by_contra hq
      exact hhb (h.quiet (by simpa using hq))
    obtain ⟨hbuf, hlt⟩ := h.pending hpending
    have hbegun : s.begun = OutFrame.keepalive.bytes.take s.hbOffset := by
      rw [Sender.begun, htx, hbuf]
      cases s.current <;> rfl
    rw [hbegun]
    have hwhole : h3c.Whole OutFrame.keepalive.bytes := Fits.whole fun data hdata => by cases hdata
    refine hwhole.wait (List.take_prefix _ _) ?_
    rw [List.length_take]
    exact Nat.lt_of_le_of_lt (Nat.min_le_left _ _) hlt

theorem fits_of_queued {frames : List OutFrame} {waiting : List Bytes}
    (horder : frames.filterMap OutFrame.data? ++ waiting = queued.map Pkt.data)
    (hfits : ∀ pkt ∈ queued, pkt.data.length ≤ 16384) : ∀ f ∈ frames, Fits f := by
  intro f hf data hdata
  have hmem : data ∈ queued.map Pkt.data := by
    rw [← horder]
    exact List.mem_append_left _ (List.mem_filterMap.mpr ⟨f, hf, hdata⟩)
  obtain ⟨pkt, hpkt, rfl⟩ := List.mem_map.mp hmem
  exact hfits pkt hpkt

end Sending

section Run
variable {deadline deadline' : Int → Int → Int → Int} {t t' : List Returned}
  {l : Link} {s : Past × Link}

theorem reach_carries (h : System.Reach (link deadline) keepsFramesApart t l) :
    Carries l := by
  apply h.invariant (I := fun _ l => Carries l)
  · intro l hl
    exact start_carries hl
  · intro t l a l' e _ hcarries hok hs
    exact carries_step deadline hcarries hok hs

/-- The packets that are not out in full. -/
def unsent (l : Link) : List Pkt := l.vpn.currentSslPkt.toList ++ l.vpn.outgoingQueue

/-- A decoder of all that has been sent finds the packets that are out in full. -/
theorem decode_sent (h : Carries l) (hopen : l.vpn.sslOpen = true)
    (hfits : ∀ pkt ∈ l.queued, pkt.data.length ≤ 16384) :
    (decode l.vpn.ssl.sent).map Pkt.data ++ (unsent l).map Pkt.data = l.queued.map Pkt.data := by
  obtain ⟨done, hdone⟩ := h.sending hopen
  have horder := hdone.order
  rw [List.append_assoc] at horder
  have hcurrent : ∀ pkt ∈ l.vpn.currentSslPkt, pkt.data.length ≤ 16384 := by
    intro pkt hpkt
    have hmem : pkt.data ∈ l.queued.map Pkt.data := by
      rw [← horder]
      simp [sender, Option.mem_def.mp hpkt]
    obtain ⟨pkt', hpkt', heq⟩ := List.mem_map.mp hmem
    exact heq ▸ hfits pkt' hpkt'
  have hsent : l.vpn.ssl.sent = done.flatMap OutFrame.bytes ++ (sender l.vpn).begun := hdone.sent
  rw [hsent, decode_whole (fits_of_queued horder hfits) (begun_waits hdone hcurrent), unsent,
    List.map_append]
  exact horder

/-- The packets that have come out of the tunnel are those in the bytes consumed. -/
theorem Kept.decode_consumed {past : Past} {v : VpnInfo} (h : Kept past v) :
    past.delivered ++ v.incomingQueue = past.waiting ++ decode past.consumed := by
  obtain ⟨frames, hwhole, hconsumed, hqueue⟩ := h.frames
  have hframes : (h3c.cut (frames.flatten ++ [])).frames = frames := by
    rw [Framing.cut_whole_append hwhole, Framing.cut_wait (show h3c.next [] = .wait from rfl),
      List.append_nil]
  rw [List.append_nil] at hframes
  rw [decode, hconsumed, hframes]
  exact hqueue

/-- What one main loop sends another one reads: whatever the two do meanwhile, when the bytes that
have been read are the first of those sent, the packets that have come out of the tunnel are the
first of those that were queued, each once and in order. When all has been read, and neither side
is without its connection, they are all but those that are not out in full. -/
theorem packets_delivered (hsend : System.Reach (link deadline) keepsFramesApart t l)
    (hreceive : System.Reachable (streamed deadline') t' s)
    (hfits : ∀ pkt ∈ l.queued, pkt.data.length ≤ 16384)
    (hfifo : s.1.received <+: l.vpn.ssl.sent) :
    ∃ taken, (s.1.delivered ++ s.2.vpn.incomingQueue).map Pkt.data =
        s.1.waiting.map Pkt.data ++ taken ∧ taken <+: l.queued.map Pkt.data ∧
      (s.1.received = l.vpn.ssl.sent → s.2.vpn.quitReason = none → l.vpn.sslOpen = true →
        taken ++ (unsent l).map Pkt.data = l.queued.map Pkt.data) := by
  have hcarries := reach_carries hsend
  have hstreams := reach_streams hreceive
  have hqueue := Kept.decode_consumed hstreams.toKept
  refine ⟨(decode s.1.consumed).map Pkt.data, ?_, ?_, ?_⟩
  · rw [hqueue, List.map_append]
  · obtain ⟨frames, hsent, horder⟩ := hcarries.whole
    have hconsumed : s.1.consumed <+: s.1.received := ⟨_, hstreams.stream⟩
    obtain ⟨done, hdone, hdecode⟩ := decode_prefix (fits_of_queued horder hfits)
      ((hconsumed.trans hfifo).trans hsent)
    rw [hdecode, ← horder]
    exact (hdone.filterMap _).trans (List.prefix_append _ _)
  · intro hall hgoes hopen
    have hdecodes : Decodes s.1 s.2.vpn := (hstreams.steady hgoes).decodes
    have hsame : decode s.1.consumed = decode s.1.received :=
      List.append_cancel_left (hqueue.symm.trans hdecodes)
    rw [hsame, hall]
    exact decode_sent hcarries hopen hfits

/-- A packet goes out in two writes and comes in in two reads. -/
theorem packets_delivered_sample : ∃ t t' l s,
    System.Reach (link kaCheckDeadline) keepsFramesApart t l ∧
      System.Reachable (streamed kaCheckDeadline) t' s ∧
      ((s.1.received = [0x01, 0x00, 0x00, 0x02, 0x45, 0x00] ∧
        l.vpn.ssl.sent = [0x01, 0x00, 0x00, 0x02, 0x45, 0x00]) ∧
      ∃ taken, (s.1.delivered ++ s.2.vpn.incomingQueue).map Pkt.data =
          s.1.waiting.map Pkt.data ++ taken ∧ taken <+: l.queued.map Pkt.data ∧
        (s.1.received = l.vpn.ssl.sent → s.2.vpn.quitReason = none → l.vpn.sslOpen = true →
          taken ++ (unsent l).map Pkt.data = l.queued.map Pkt.data)) := by
  obtain ⟨t, l, hsend, hl⟩ := System.exists_reach (M := link kaCheckDeadline)
    keepsFramesApart
    [.queue { data := [0x45, 0x00] }, .call { now := 1, dataWrite := .accepts 3 },
      .call { now := 2, dataWrite := .accepts 9, dataSentAt := 2 }]
    (fun _ l => l.vpn.ssl.sent = [0x01, 0x00, 0x00, 0x02, 0x45, 0x00] &&
      l.queued.map Pkt.data = [[0x45, 0x00]])
    fresh_start (by decide)
  obtain ⟨t', s, hreceive, hs⟩ := System.exists_reach
    (M := streamed kaCheckDeadline) (fun _ _ => true)
    (s := (.begin fresh.vpn, fresh))
    [.arrive [0x01, 0x00, 0x00, 0x02, 0x45],
      .call { readable := true, reads := [.upTo 9 0 fun _ => true] }, .arrive [0x00],
      .call { readable := true, reads := [.upTo 9 0 fun _ => true] }]
    (fun _ s => s.1.received = [0x01, 0x00, 0x00, 0x02, 0x45, 0x00])
    ⟨rfl, fresh_start⟩ (by decide +kernel)
  simp only [Bool.and_eq_true, decide_eq_true_eq] at hl hs
  refine ⟨t, t', l, s, hsend, hreceive, ⟨hs, hl.1⟩, ?_⟩
  refine packets_delivered hsend hreceive ?_ ?_
  · intro pkt hpkt
    have hdata := hl.2 ▸ List.mem_map_of_mem (f := Pkt.data) hpkt
    rw [List.mem_singleton.mp hdata]
    decide
  · exact ⟨[], by rw [List.append_nil, hs, hl.1]⟩

end Run

end InodeVpn.Proofs.Tunnel
