import InodeVpn.Proofs.FrameStream

namespace InodeVpn.Proofs.FrameRoundTrip
open Lib Wire FrameStream

/-- A header of four bytes and as many bytes as its length field says. -/
def IsFrame (raw : Bytes) : Prop := raw.length = 4 + (lenField raw).toNat

/-- A byte string split by its headers: complete frames, then less than a header. -/
structure Splits (b : Bytes) (raws : List Bytes) (residue : Bytes) : Prop where
  bytes : b = raws.flatten ++ residue
  frames : ∀ raw ∈ raws, IsFrame raw
  short : residue.length < 4

/-- A frame of type 1, or the bytes `02 02 00 00`. -/
def isKept (raw : Bytes) : Bool :=
  fromLeBytes (raw.getD 0 0) (raw.getD 1 0) = TYPE_IPV4 ∨ raw = KEEPALIVE_RESPONSE

section Splitting
variable {b raw raw' residue residue' rest rest' : Bytes} {raws raws' : List Bytes}

/-- The header of a frame at the front says where it ends. -/
theorem isFrame_unique (h : IsFrame raw) (h' : IsFrame raw') (hb : raw ++ rest = raw' ++ rest') :
    raw = raw' ∧ rest = rest' := by
  have hfield : lenField raw = lenField raw' := by
    rw [← lenField_append rest (by rw [h]; omega), hb, lenField_append rest' (by rw [h']; omega)]
  refine List.append_inj hb ?_
  rw [h, h', hfield]

theorem Splits.unique (h : Splits b raws residue) (h' : Splits b raws' residue') :
    raws' = raws ∧ residue' = residue := by
  have hb := h'.bytes.symm.trans h.bytes
  have hframes := h.frames
  have hframes' := h'.frames
  have hshort := h.short
  have hshort' := h'.short
  clear h h'
  induction raws generalizing raws' with
  | nil =>
    cases raws' with
    | nil => exact ⟨rfl, hb⟩
    | cons raw' raws' =>
      -- the first frame alone is longer than the residue
      have hlen := congrArg List.length hb
      have hraw := hframes' raw' List.mem_cons_self
      simp only [List.flatten_cons, List.flatten_nil, List.length_append, List.length_nil] at hlen
      rw [IsFrame] at hraw
      omega
  | cons raw raws ih =>
    obtain ⟨hraw, hraws⟩ := List.forall_mem_cons.mp hframes
    cases raws' with
    | nil =>
      have hlen := congrArg List.length hb
      simp only [List.flatten_cons, List.flatten_nil, List.length_append, List.length_nil] at hlen
      rw [IsFrame] at hraw
      omega
    | cons raw' raws' =>
      obtain ⟨hraw', hraws'⟩ := List.forall_mem_cons.mp hframes'
      rw [List.flatten_cons, List.flatten_cons, List.append_assoc, List.append_assoc] at hb
      obtain ⟨rfl, hrest⟩ := isFrame_unique hraw' hraw hb
      obtain ⟨rfl, rfl⟩ := ih hrest hraws hraws'
      exact ⟨rfl, rfl⟩

/-- A frame of type 1 is written as it was read. -/
theorem toWire_drop (h : IsFrame raw)
    (htype : fromLeBytes (raw.getD 0 0) (raw.getD 1 0) = TYPE_IPV4) :
    (H3cFrame.ipv4 (raw.drop 4)).toWire = raw := by
  obtain ⟨header, payload, rfl, hheader⟩ :
      ∃ header payload, raw = header ++ payload ∧ header.length = 4 :=
    ⟨raw.take 4, raw.drop 4, (List.take_append_drop 4 raw).symm, by
      rw [List.length_take, h]
      omega⟩
  obtain ⟨b₀, b₁, b₂, b₃, rfl⟩ := List.length_eq_four.mp hheader
  have hpayload : payload.length = (fromBeBytes b₂ b₃).toNat := by
    simp only [IsFrame, lenField, List.cons_append, List.nil_append, List.length_cons,
      List.getD_cons_zero, List.getD_cons_succ] at h
    omega
  have htypeBytes : toLeBytes TYPE_IPV4 = [b₀, b₁] := by
    simp only [List.cons_append, List.getD_cons_zero, List.getD_cons_succ] at htype
    rw [← htype, toLeBytes, fromLeBytes, toBeBytes_fromBeBytes]
    rfl
  have hlenBytes : toBeBytes (UInt16.ofNat payload.length) = [b₂, b₃] := by
    rw [hpayload, UInt16.ofNat_toNat, toBeBytes_fromBeBytes]
  rw [H3cFrame.toWire, htypeBytes, List.drop_left' hheader, hlenBytes]
  rfl

/-- What a frame is read as is written as the frame; one that is dropped as nothing. -/
theorem wire_frameOf (h : IsFrame raw) :
    wire (frameOf raw).toList = if isKept raw then raw else [] := by
  unfold frameOf isKept
  by_cases hkeep : raw = KEEPALIVE_RESPONSE
  · subst hkeep
    rfl
  · by_cases htype : fromLeBytes (raw.getD 0 0) (raw.getD 1 0) = TYPE_IPV4
    · rw [if_neg hkeep, if_pos htype, if_pos (decide_eq_true (Or.inl htype))]
      exact (List.flatMap_singleton _ _).trans (toWire_drop h htype)
    · rw [if_neg hkeep, if_neg htype, if_neg (by simpa using ⟨htype, hkeep⟩)]
      rfl

theorem wire_filterMap (h : ∀ raw ∈ raws, IsFrame raw) :
    wire (raws.filterMap frameOf) = (raws.filter isKept).flatten := by
  induction raws with
  | nil => rfl
  | cons raw raws ih =>
    obtain ⟨hraw, hraws⟩ := List.forall_mem_cons.mp h
    have hcons : (raw :: raws).filterMap frameOf =
        (frameOf raw).toList ++ raws.filterMap frameOf := by
      cases hf : frameOf raw <;> simp [hf]
    rw [hcons, wire_append, wire_frameOf hraw, ih hraws, List.filter_cons]
    split <;> simp

end Splitting

/-- A push that succeeds has cut all of its bytes but a residue. -/
theorem cut_of_push_ok {b : Bytes} {frames : List H3cFrame} {s : H3cFrameStream}
    (h : H3cFrameStream.push {} b = (.ok frames, s)) :
    Splits b (h3c.cut b).frames (h3c.cut b).rest ∧
      frames = (h3c.cut b).frames.filterMap frameOf ∧ s.buffer = (h3c.cut b).rest := by
  rw [push_eq] at h
  simp only [List.nil_append, Prod.mk.injEq, answer] at h
  obtain ⟨hanswer, rfl⟩ := h
  split at hanswer
  · cases hanswer
  · split at hanswer
    · rename_i hshort
      cases hanswer
      refine ⟨⟨(Framing.cut_flatten b).symm, fun raw hraw => ?_, hshort⟩, rfl, rfl⟩
      exact h3c.whole_length (Framing.whole_of_cut b raw hraw)
    · cases hanswer

/-- Writing what was read gives the bytes back, without the residue, which stays in the buffer,
and without the frames that the parser drops. -/
theorem encoding_undoes_decoding {b : Bytes} {frames : List H3cFrame} {s : H3cFrameStream}
    (h : H3cFrameStream.push {} b = (.ok frames, s)) :
    ∃ raws residue, Splits b raws residue ∧
      (∀ raws' residue', Splits b raws' residue' → raws' = raws ∧ residue' = residue) ∧
      wire frames = (raws.filter isKept).flatten ∧ s.buffer = residue := by
  obtain ⟨hsplits, rfl, hbuffer⟩ := cut_of_push_ok h
  exact ⟨_, _, hsplits, fun _ _ h' => hsplits.unique h', wire_filterMap hsplits.frames, hbuffer⟩

theorem encoding_undoes_decoding_sample :
    ∃ raws residue, Splits [6, 0, 0, 0, 1, 0, 0, 1, 69, 2] raws residue ∧
      (∀ raws' residue', Splits [6, 0, 0, 0, 1, 0, 0, 1, 69, 2] raws' residue' →
        raws' = raws ∧ residue' = residue) ∧
      wire [.ipv4 [69]] = (raws.filter isKept).flatten ∧
      (⟨[2]⟩ : H3cFrameStream).buffer = residue :=
  encoding_undoes_decoding (by simp [H3cFrameStream.push, H3cFrameStream.pushLoop]; decide)

/-- What a stream answers to the wire form of a payload. -/
def answerTo (payload : Bytes) : Except FrameError (List H3cFrame) :=
  (H3cFrameStream.push {} (H3cFrame.newIpv4 payload).toWire).1

/-- The one frame, or a refusal. -/
def Honest (payload : Bytes) : Prop :=
  answerTo payload = .ok [.ipv4 payload] ∨ ∃ len, answerTo payload = .error (.tooLarge len)

/-- The length that the header has room for. -/
def headerLength (payload : Bytes) : Nat := payload.length % 65536

/-- The bytes that follow the frame which the header announces. -/
def spill (payload : Bytes) : Bytes := payload.drop (headerLength payload)

section Encoder
variable {payload : Bytes}

theorem lenField_wire : (lenField (encode 1 0 payload)).toNat = headerLength payload := by
  rw [lenField_encode, UInt16.toNat_ofNat', headerLength]

theorem wire_not_short : ¬(encode 1 0 payload).length < 4 := by
  rw [encode_length]
  omega

/-- A length that the parser does not accept is refused. -/
theorem answerTo_refused (h : headerLength payload > 16384) :
    ∃ len, answerTo payload = .error (.tooLarge len) := by
  have hfield : lenField (encode 1 0 payload) > H3C_MAX_FRAME_LEN := by
    rwa [le_max_frame_len_iff, lenField_wire]
  have hcut := Framing.cut_bad (h3c.next_tooLarge wire_not_short hfield)
  refine ⟨lenField (encode 1 0 payload), ?_⟩
  rw [answerTo, H3cFrame.newIpv4, toWire_ipv4, push_eq, List.nil_append, hcut]
  rfl

/-- The frame that the header announces is as much of the payload as it has room for. -/
theorem frameOf_wire : frameOf ((encode 1 0 payload).take (4 + headerLength payload)) =
    some (.ipv4 (payload.take (headerLength payload))) := by
  have htake : (encode 1 0 payload).take (4 + headerLength payload) =
      [1, 0] ++ toBeBytes (UInt16.ofNat payload.length) ++
        payload.take (headerLength payload) := by
    have hheader : ([1, 0] ++ toBeBytes (UInt16.ofNat payload.length)).length = 4 := rfl
    rw [encode, ← hheader, List.take_length_add_append]
  rw [htake]
  exact frameOf_ipv4 _ _ _

/-- Otherwise the rest of the payload is read as frames too. -/
theorem answerTo_accepted (h : ¬headerLength payload > 16384) :
    answerTo payload =
      answer [.ipv4 (payload.take (headerLength payload))] (h3c.cut (spill payload)) := by
  have hfield : ¬lenField (encode 1 0 payload) > H3C_MAX_FRAME_LEN := by
    rwa [le_max_frame_len_iff, lenField_wire]
  have hroom : headerLength payload ≤ payload.length := Nat.mod_le _ _
  have hwhole : ¬(encode 1 0 payload).length < 4 + (lenField (encode 1 0 payload)).toNat := by
    rw [encode_length, lenField_wire]
    omega
  have hrest : (encode 1 0 payload).drop (4 + headerLength payload) = spill payload := by
    rw [← List.drop_drop, encode_drop, spill]
  have hcut := Framing.cut_frame (h3c.next_whole wire_not_short hfield hwhole)
  rw [lenField_wire, hrest] at hcut
  rw [answerTo, H3cFrame.newIpv4, toWire_ipv4, push_eq, List.nil_append, hcut, answer_cons,
    frameOf_wire]
  rfl

/-- A length that fits the header is the whole payload's. -/
theorem answerTo_fitting (hfits : payload.length ≤ 65535) (h : ¬headerLength payload > 16384) :
    answerTo payload = .ok [.ipv4 payload] := by
  have hwhole : headerLength payload = payload.length := Nat.mod_eq_of_lt (by omega)
  have hspill : spill payload = [] := by rw [spill, hwhole, List.drop_length]
  have hcut : h3c.cut [] = ⟨[], none, []⟩ := Framing.cut_wait rfl
  rw [answerTo_accepted h, hspill, hcut, hwhole, List.take_length]
  rfl

/-- A length that does not fit it comes back as a shorter frame, if no later header is refused. -/
theorem not_honest_of_spill (hlong : 65535 < payload.length) (h : ¬headerLength payload > 16384)
    (haccepted : (h3c.cut (spill payload)).error = none) : ¬Honest payload := by
  have hshort : payload.take (headerLength payload) ≠ payload := by
    intro heq
    have hlen := congrArg List.length heq
    have hlt : headerLength payload < 65536 := Nat.mod_lt _ (by decide)
    rw [List.length_take] at hlen
    omega
  rw [Honest, answerTo_accepted h, answer, haccepted]
  simp only
  split
  · rintro (hok | ⟨len, herror⟩)
    · simp only [Except.ok.injEq, List.cons_append, List.nil_append, List.cons.injEq,
        H3cFrame.ipv4.injEq] at hok
      exact hshort hok.1
    · cases herror
  · rintro (hok | ⟨len, herror⟩)
    · cases hok
    · cases herror

end Encoder

/-- What is written for a payload is read back as that payload or refused when its length fits
the header, or the header announces more than is accepted, or a header read in the payload does;
and only then. -/
theorem honest_iff (payload : Bytes) : Honest payload ↔
    payload.length ≤ 65535 ∨ headerLength payload > 16384 ∨
      (h3c.cut (spill payload)).error.isSome = true := by
  by_cases hrefused : headerLength payload > 16384
  · exact iff_of_true (Or.inr (answerTo_refused hrefused)) (Or.inr (Or.inl hrefused))
  · by_cases hfits : payload.length ≤ 65535
    · exact iff_of_true (Or.inl (answerTo_fitting hfits hrefused)) (Or.inl hfits)
    · cases herror : (h3c.cut (spill payload)).error with
      | none =>
        refine iff_of_false (not_honest_of_spill (Nat.not_le.mp hfits) hrefused herror) ?_
        simp [hfits, hrefused]
      | some len =>
        refine iff_of_true (Or.inr ⟨len, ?_⟩) (Or.inr (Or.inr rfl))
        rw [answerTo_accepted hrefused, answer, herror]

theorem cut_zeros (n : Nat) : (h3c.cut (List.replicate (4 * n) 0)).error = none := by
  induction n with
  | zero => rw [List.replicate_zero, Framing.cut_wait rfl]
  | succ n ih =>
    have hzeros : List.replicate (4 * (n + 1)) (0 : UInt8) =
        encode 0 0 [] ++ List.replicate (4 * n) 0 := by
      rw [Nat.mul_succ, Nat.add_comm, List.replicate_add]
      rfl
    rw [hzeros, Framing.cut_frame ((whole_encode 0 0 (Nat.zero_le _)).next _)]
    exact ih

/-- A payload of 65536 zero bytes comes back as an empty one. -/
theorem longer_than_header : ¬Honest (List.replicate 65536 0) := by
  have hlength : headerLength (List.replicate 65536 0) = 0 := by
    rw [headerLength, List.length_replicate]
  apply not_honest_of_spill
  · rw [List.length_replicate]
    omega
  · omega
  · rw [spill, hlength, List.drop_zero]
    exact cut_zeros 16384

end InodeVpn.Proofs.FrameRoundTrip
