import InodeVpn.Fork.Receive
import InodeVpn.Wire.Format

namespace InodeVpn.Proofs.FrameParser
open Lib Wire Fork

section Window
variable {buf : Bytes} {len off : Nat}

/-- The bytes that the parse loop has still before it. -/
def window (buf : Bytes) (len off : Nat) : Bytes := (buf.take len).drop off

theorem window_length (h : len ≤ buf.length) : (window buf len off).length = len - off := by
  rw [window, List.length_drop, List.length_take, Nat.min_eq_left h]

theorem window_drop (n : Nat) : (window buf len off).drop n = window buf len (off + n) :=
  List.drop_drop

theorem window_getD {i : Nat} (h : i < len - off) :
    (window buf len off).getD i 0 = buf.getD (off + i) 0 := by
  simp only [window, List.getD_eq_getElem?_getD, List.getElem?_drop, List.getElem?_take]
  rw [if_pos (by omega)]

theorem window_lenField (h : 4 ≤ len - off) :
    lenField (window buf len off) = loadBe16 buf (off + 2) := by
  rw [lenField, window_getD (by omega), window_getD (by omega)]
  rfl

theorem window_payload {n : Nat} (h : 4 + n ≤ len - off) :
    ((window buf len off).take (4 + n)).drop 4 = (buf.drop (off + 4)).take n := by
  rw [List.drop_take, window_drop, window, List.drop_take, List.take_take]
  congr 1
  omega

end Window

theorem getD_take {s : Bytes} {i n : Nat} (h : i < n) : (s.take n).getD i 0 = s.getD i 0 := by
  simp only [List.getD_eq_getElem?_getD, List.getElem?_take, if_pos h]

/-- The branch of the parse loop that takes a frame. -/
def takenOf (raw : Bytes) : Taken :=
  if raw.getD 0 0 = 0x02 ∧ raw.getD 1 0 = 0x02 ∧ lenField raw = 0 then .keepaliveResponse
  else if fromLeBytes (raw.getD 0 0) (raw.getD 1 0) = H3C_FRAME_IPV4 then .packet (raw.drop 4)
  else .unknown (raw.getD 0 0) (raw.getD 1 0) (lenField raw)

theorem fromLeBytes_eq_ipv4 (lo hi : UInt8) :
    fromLeBytes lo hi = H3C_FRAME_IPV4 ↔ lo = 1 ∧ hi = 0 := by
  rw [← UInt16.toNat_inj, ← UInt8.toNat_inj, ← UInt8.toNat_inj]
  have := lo.toNat_lt
  simp only [fromLeBytes, fromBeBytes_toNat, H3C_FRAME_IPV4, UInt16.reduceToNat,
    UInt8.reduceToNat]
  omega

/-- The loop has taken whole frames, one after the other, and stands behind them. Unless an
allocation fails, it stands where the frame format has it stop. -/
structure Takes (buf : Bytes) (len off : Nat) (taken : List Taken) (p : Parsed len) : Prop where
  frames : ∃ frames : List Bytes, (∀ raw ∈ frames, h3c.Whole raw) ∧
    p.taken = taken ++ frames.map takenOf ∧
    window buf len off = frames.flatten ++ window buf len p.off
  stops : p.ret ≠ -ENOMEM → (h3c.cut (window buf len p.off)).frames = [] ∧
    p.ret = if (h3c.cut (window buf len p.off)).error.isSome then -EINVAL else 0

theorem Takes.nothing {buf : Bytes} {len off : Nat} {taken : List Taken} {ret : Int}
    {bounded : off ≤ len} (h : ret ≠ -ENOMEM → (h3c.cut (window buf len off)).frames = [] ∧
      ret = if (h3c.cut (window buf len off)).error.isSome then -EINVAL else 0) :
    Takes buf len off taken ⟨off, taken, ret, bounded⟩ :=
  ⟨⟨[], by simp, by simp, by simp⟩, h⟩

theorem Takes.wait {buf : Bytes} {len off : Nat} {taken : List Taken} {bounded : off ≤ len}
    (hnext : h3c.next (window buf len off) = .wait) :
    Takes buf len off taken ⟨off, taken, 0, bounded⟩ :=
  .nothing fun _ => by simp [Framing.cut_wait hnext]

theorem Takes.frame {buf raw : Bytes} {len off off' : Nat} {taken : List Taken} {p : Parsed len}
    (hnext : h3c.next (window buf len off) = .frame raw (window buf len off'))
    (h : Takes buf len off' (taken ++ [takenOf raw]) p) : Takes buf len off taken p := by
  obtain ⟨frames, hwhole, htaken, hwindow⟩ := h.frames
  refine ⟨⟨raw :: frames, ?_, ?_, ?_⟩, h.stops⟩
  · exact List.forall_mem_cons.mpr ⟨Framing.whole_of_next hnext, hwhole⟩
  · simp [htaken]
  · rw [(Framing.next_eq_frame hnext).2, hwindow, List.flatten_cons, List.append_assoc]

section Turn
variable {buf : Bytes} {len off : Nat} (hlen : len ≤ buf.length) (more : 4 ≤ len - off)
include hlen more

theorem window_not_short : ¬(window buf len off).length < 4 := by
  rw [window_length hlen]
  omega

/-- A turn of the loop that finds a whole frame. -/
theorem window_frame (hl : ¬(loadBe16 buf (off + 2)).toNat > Fork.H3C_MAX_FRAME_LEN)
    (part : ¬len - off < 4 + (loadBe16 buf (off + 2)).toNat) :
    h3c.next (window buf len off) =
      .frame ((window buf len off).take (4 + (loadBe16 buf (off + 2)).toNat))
        (window buf len (off + (4 + (loadBe16 buf (off + 2)).toNat))) := by
  rw [← window_drop, ← window_lenField more]
  rw [← window_lenField more] at hl part
  exact h3c.next_whole (window_not_short hlen more) (by rwa [le_max_frame_len_iff])
    (by rwa [window_length hlen])

end Turn

/-- The branch that such a turn takes. -/
theorem takenOf_window {buf : Bytes} {len off : Nat}
    (part : ¬len - off < 4 + (loadBe16 buf (off + 2)).toNat) :
    takenOf ((window buf len off).take (4 + (loadBe16 buf (off + 2)).toNat)) =
      if buf.getD off 0 = 0x02 ∧ buf.getD (off + 1) 0 = 0x02 ∧ loadBe16 buf (off + 2) = 0 then
        .keepaliveResponse
      else if loadLe16 buf off = H3C_FRAME_IPV4 then
        .packet ((buf.drop (off + 4)).take (loadBe16 buf (off + 2)).toNat)
      else .unknown (buf.getD off 0) (buf.getD (off + 1) 0) (loadBe16 buf (off + 2)) := by
  have hbyte : ∀ i < 4, ((window buf len off).take (4 + (loadBe16 buf (off + 2)).toNat)).getD i 0 =
      buf.getD (off + i) 0 := fun i hi => by
    rw [getD_take (by omega), window_getD (by omega)]
  have hfield : lenField ((window buf len off).take (4 + (loadBe16 buf (off + 2)).toNat)) =
      loadBe16 buf (off + 2) := by
    rw [lenField, hbyte 2 (by omega), hbyte 3 (by omega)]
    rfl
  rw [takenOf, hfield, hbyte 0 (by omega), hbyte 1 (by omega), window_payload (by omega)]
  rfl

theorem parseLoop_takes (alloc : Nat → Bool) (buf : Bytes) (len off : Nat) (taken : List Taken)
    (bounded : off ≤ len) (hlen : len ≤ buf.length) :
    Takes buf len off taken (parseLoop alloc buf len off taken bounded) := by
  fun_induction parseLoop alloc buf len off taken bounded with
  | case1 off taken bounded more plen hl =>
    have hbad : h3c.next (window buf len off) = .bad (lenField (window buf len off)) :=
      h3c.next_tooLarge (window_not_short hlen more)
        (by rw [le_max_frame_len_iff, window_lenField more]; exact hl)
    exact .nothing fun _ => by simp [Framing.cut_bad hbad]
  | case2 off taken bounded more plen hl part =>
    have hl' := hl
    have part' := part
    simp only [plen, ← window_lenField more] at hl' part'
    exact .wait (h3c.next_part (window_not_short hlen more) (by rwa [le_max_frame_len_iff])
      (by rwa [window_length hlen]))
  | case3 off taken bounded more plen hl part hkeep ih =>
    apply Takes.frame (window_frame hlen more hl part)
    have hplen : loadBe16 buf (off + 2) = 0 := hkeep.2.2
    rw [takenOf_window part, if_pos hkeep, hplen]
    exact ih
  | case4 off taken bounded more plen hl part hkeep hipv4 halloc ih =>
    apply Takes.frame (window_frame hlen more hl part)
    rw [takenOf_window part, if_neg hkeep, if_pos hipv4]
    exact ih
  | case5 off taken bounded more plen hl part hkeep hipv4 halloc =>
    exact .nothing fun hret => absurd rfl hret
  | case6 off taken bounded more plen hl part hkeep hipv4 ih =>
    apply Takes.frame (window_frame hlen more hl part)
    rw [takenOf_window part, if_neg hkeep, if_neg hipv4]
    exact ih
  | case7 off taken bounded more =>
    refine .wait (h3c.next_short ?_)
    rw [window_length hlen]
    omega

theorem parseLoop_alloc {alloc : Nat → Bool} (halloc : ∀ off, alloc off = true) (buf : Bytes)
    (len off : Nat) (taken : List Taken) (bounded : off ≤ len) :
    (parseLoop alloc buf len off taken bounded).ret ≠ -ENOMEM := by
  fun_induction parseLoop alloc buf len off taken bounded with
  | case1 => simp [EINVAL, ENOMEM]
  | case2 => simp [ENOMEM]
  | case3 _ _ _ _ _ _ _ _ ih => exact ih
  | case4 _ _ _ _ _ _ _ _ _ _ ih => exact ih
  | case5 off _ _ _ _ _ _ _ _ hfail => exact absurd (halloc off) hfail
  | case6 _ _ _ _ _ _ _ _ _ ih => exact ih
  | case7 => simp [ENOMEM]

section ParseFrames
variable {alloc : Nat → Bool} {pkt : RecvBuf}

variable (alloc pkt) in
theorem parseFrames_alloc (halloc : ∀ off, alloc off = true) :
    (parseFrames alloc pkt).2.2 ≠ -ENOMEM :=
  parseLoop_alloc halloc _ _ _ _ _

variable (alloc pkt) in
theorem parseFrames_drop : (parseFrames alloc pkt).1.bytes = pkt.bytes.drop
    (parseLoop alloc pkt.data pkt.partialRecSize 0 [] (Nat.zero_le _)).off := by
  rw [parseFrames]
  split
  · exact RecvBuf.bytes_discard ..
  · rename_i hzero
    rw [Decidable.not_not.mp hzero]
    rfl

variable (alloc pkt) in
/-- What is parsed is whole frames and what stays in the buffer. -/
theorem parseFrames_takes : ∃ frames : List Bytes, (∀ raw ∈ frames, h3c.Whole raw) ∧
    (parseFrames alloc pkt).2.1 = frames.map takenOf ∧
    pkt.bytes = frames.flatten ++ (parseFrames alloc pkt).1.bytes ∧
    ((parseFrames alloc pkt).2.2 ≠ -ENOMEM →
      (h3c.cut (parseFrames alloc pkt).1.bytes).frames = [] ∧ (parseFrames alloc pkt).2.2 =
        if (h3c.cut (parseFrames alloc pkt).1.bytes).error.isSome then -EINVAL else 0) := by
  have htakes := parseLoop_takes alloc pkt.data pkt.partialRecSize 0 [] (Nat.zero_le _) pkt.fits
  obtain ⟨frames, hwhole, htaken, hwindow⟩ := htakes.frames
  rw [parseFrames_drop]
  exact ⟨frames, hwhole, htaken, hwindow, htakes.stops⟩

/-- Unless an allocation fails, the buffer is cut by the frame format. -/
theorem parseFrames_cut (hret : (parseFrames alloc pkt).2.2 ≠ -ENOMEM) :
    (parseFrames alloc pkt).2.1 = (h3c.cut pkt.bytes).frames.map takenOf ∧
      (parseFrames alloc pkt).2.2 = (if (h3c.cut pkt.bytes).error.isSome then -EINVAL else 0) ∧
      (parseFrames alloc pkt).1.bytes = (h3c.cut pkt.bytes).rest := by
  obtain ⟨frames, hwhole, htaken, hbytes, hstops⟩ := parseFrames_takes alloc pkt
  obtain ⟨hframes, hvalue⟩ := hstops hret
  have hflat := h3c.cut_flatten (parseFrames alloc pkt).1.bytes
  rw [hframes] at hflat
  have hcut : h3c.cut (frames.flatten ++ (parseFrames alloc pkt).1.bytes) = _ :=
    Framing.cut_whole_append hwhole
  rw [← hbytes] at hcut
  rw [hcut, hframes, List.append_nil]
  exact ⟨htaken, hvalue, hflat.symm⟩

theorem parseFrames_taken (hret : (parseFrames alloc pkt).2.2 ≠ -ENOMEM) :
    (parseFrames alloc pkt).2.1 = (h3c.cut pkt.bytes).frames.map takenOf :=
  (parseFrames_cut hret).1

theorem parseFrames_ret (hret : (parseFrames alloc pkt).2.2 ≠ -ENOMEM) :
    (parseFrames alloc pkt).2.2 = if (h3c.cut pkt.bytes).error.isSome then -EINVAL else 0 :=
  (parseFrames_cut hret).2.1

/-- What stays in the buffer is what is left over by the cut. -/
theorem parseFrames_bytes (hret : (parseFrames alloc pkt).2.2 ≠ -ENOMEM) :
    (parseFrames alloc pkt).1.bytes = (h3c.cut pkt.bytes).rest :=
  (parseFrames_cut hret).2.2

variable (alloc pkt) in
theorem parseFrames_length : (parseFrames alloc pkt).1.data.length = pkt.data.length := by
  rw [parseFrames]
  split
  · exact RecvBuf.length_discard ..
  · rfl

end ParseFrames

end InodeVpn.Proofs.FrameParser
