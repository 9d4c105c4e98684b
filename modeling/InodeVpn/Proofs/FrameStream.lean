import InodeVpn.Wire.Format

namespace InodeVpn.Proofs.FrameStream
open Lib Wire

/-- The answer of a push, given how its buffer is cut. -/
def answer (frames : List H3cFrame) (c : Cut UInt8 UInt16) : Except FrameError (List H3cFrame) :=
  match c.error with
  | some len => .error (.tooLarge len)
  | none =>
    if c.rest.length < 4 then .ok (frames ++ c.frames.filterMap frameOf)
    else .error (.incompletePayload (c.rest.length - 4) (lenField c.rest).toNat)

theorem answer_cons (frames : List H3cFrame) (raw : Bytes) (c : Cut UInt8 UInt16) :
    answer frames ⟨raw :: c.frames, c.error, c.rest⟩ =
      answer (frames ++ (frameOf raw).toList) c := by
  obtain ⟨raws, error, rest⟩ := c
  cases error with
  | some len => rfl
  | none => cases hf : frameOf raw <;> simp [answer, hf]

/-- Draining frame by frame cuts the buffer by the frame format. -/
theorem pushLoop_eq (frames : List H3cFrame) (buffer : Bytes) :
    H3cFrameStream.pushLoop frames buffer =
      (answer frames (h3c.cut buffer), ⟨(h3c.cut buffer).rest⟩) := by
  fun_induction H3cFrameStream.pushLoop frames buffer with
  | case1 frames buffer h =>
    simp [Framing.cut_wait (h3c.next_short h), answer, h]
  | case2 frames buffer h len hl =>
    have hlen : UInt16.ofNat len = lenField buffer := UInt16.ofNat_toNat
    rw [hlen] at hl ⊢
    simp [Framing.cut_bad (h3c.next_tooLarge h hl), answer]
  | case3 frames buffer h len hl total hp =>
    have hlen : UInt16.ofNat len = lenField buffer := UInt16.ofNat_toNat
    rw [hlen] at hl
    simp [Framing.cut_wait (h3c.next_part h hl hp), answer, h, len, lenField]
  | case4 frames buffer h len hl total hp frame frames' ih =>
    have hlen : UInt16.ofNat len = lenField buffer := UInt16.ofNat_toNat
    rw [hlen] at hl
    have hframes : frames' = frames ++ (frameOf frame).toList := by
      simp only [frames', frameOf]
      split <;> try split
      all_goals simp
    rw [ih, hframes, Framing.cut_frame (h3c.next_whole h hl hp), answer_cons]
    rfl

theorem push_eq (s : H3cFrameStream) (data : Bytes) :
    s.push data = (answer [] (h3c.cut (s.buffer ++ data)), ⟨(h3c.cut (s.buffer ++ data)).rest⟩) :=
  pushLoop_eq [] _

/-- The frames a gateway sends, with a payload the length check admits. -/
def Sendable : H3cFrame → Prop
  | .ipv4 payload => payload.length ≤ H3C_MAX_FRAME_LEN.toNat
  | .keepaliveRequest => False
  | .keepaliveResponse => True

def wire (frames : List H3cFrame) : Bytes := frames.flatMap H3cFrame.toWire

@[simp] theorem wire_cons (f : H3cFrame) (fs : List H3cFrame) :
    wire (f :: fs) = f.toWire ++ wire fs := rfl

@[simp] theorem wire_append (fs gs : List H3cFrame) : wire (fs ++ gs) = wire fs ++ wire gs :=
  List.flatMap_append

/-- A push that fails returns no frame. -/
def returned : Except FrameError (List H3cFrame) → List H3cFrame
  | .ok frames => frames
  | .error _ => []

def collected (answers : List (Except FrameError (List H3cFrame))) : List H3cFrame :=
  (answers.map returned).flatten

theorem returned_answer (raws : List Bytes) (rest : Bytes) :
    returned (answer [] ⟨raws, none, rest⟩) =
      if rest.length < 4 then raws.filterMap frameOf else [] := by
  simp only [answer, List.nil_append]
  split <;> rfl

section Sendable
variable {f : H3cFrame} (hf : Sendable f)
include hf

theorem whole_toWire : h3c.Whole f.toWire := by
  cases f with
  | ipv4 payload => exact whole_encode 1 0 hf
  | keepaliveRequest => exact hf.elim
  | keepaliveResponse => exact whole_encode 2 2 (Nat.zero_le _)

theorem frameOf_sendable : frameOf f.toWire = some f :=
  frameOf_toWire (by rintro rfl; exact hf)

end Sendable

theorem filterMap_frameOf {fs : List H3cFrame} (hfs : ∀ f ∈ fs, Sendable f) :
    (fs.map H3cFrame.toWire).filterMap frameOf = fs := by
  induction fs with
  | nil => rfl
  | cons f fs ih =>
    rw [List.map_cons, List.filterMap_cons, frameOf_sendable (hfs f (by simp)),
      ih fun g hg => hfs g (by simp [hg])]

section Push
variable {fs done todo : List H3cFrame} {p part : Bytes}

abbrev Stands (fs : List H3cFrame) (p : Bytes) (done todo : List H3cFrame) (part : Bytes) : Prop :=
  h3c.At H3cFrame.toWire fs p done todo part

/-- A push moves on in the stream, and answers with the frames it has completed
when it ends before the next frame's length is known. -/
theorem push_stands (hfs : ∀ f ∈ fs, Sendable f) {chunk : Bytes} (h : Stands fs p done todo part)
    (hp : p ++ chunk <+: wire fs) : ∃ new todo' part', todo = new ++ todo' ∧
      Stands fs (p ++ chunk) (done ++ new) todo' part' ∧
      returned (H3cFrameStream.push ⟨part⟩ chunk).1 = (if part'.length < 4 then new else []) ∧
      (H3cFrameStream.push ⟨part⟩ chunk).2 = ⟨part'⟩ := by
  obtain ⟨new, todo', part', rfl, h', hcut⟩ :=
    h.append (fun f hf => whole_toWire (hfs f hf)) hp
  have hmem : ∀ f ∈ new, Sendable f := fun f hf => hfs f (by rw [h.split]; simp [hf])
  refine ⟨new, todo', part', rfl, h', ?_, by rw [push_eq, hcut]⟩
  rw [push_eq, hcut, returned_answer, filterMap_frameOf hmem]

/-- A chunk that follows the bytes `p` and ends inside a frame, behind its
header, begins inside that frame. -/
def EndsWithin (fs : List H3cFrame) (p chunk : Bytes) : Prop :=
  ∀ done f todo, fs = done ++ f :: todo → (wire done).length + 4 ≤ (p ++ chunk).length →
    (p ++ chunk).length < (wire done).length + f.toWire.length → (wire done).length ≤ p.length

/-- Exactly such a chunk takes no completed frame along into the error. -/
theorem endsWithin_iff {chunk : Bytes} {new todo' : List H3cFrame} {part' : Bytes}
    (h : Stands fs p done (new ++ todo') part)
    (h' : Stands fs (p ++ chunk) (done ++ new) todo' part') :
    EndsWithin fs p chunk ↔ part'.length < 4 ∨ new = [] := by
  have hlen : p.length = (wire done).length + part.length := h.length
  have hlen' : (p ++ chunk).length = (wire (done ++ new)).length + part'.length := h'.length
  constructor
  · intro hk
    rcases Nat.lt_or_ge part'.length 4 with hlt | hge
    · exact Or.inl hlt
    · cases new with
      | nil => exact Or.inr rfl
      | cons g new =>
        cases todo' with
        | nil =>
          rw [h'.ended rfl] at hge
          simp at hge
        | cons f todo' =>
          have hproper := h'.proper f rfl
          have hpart := h.proper g rfl
          have := hk _ f todo' h'.split (by omega) (by omega)
          simp only [wire_append, wire_cons, List.length_append] at this
          omega
  · intro hor done₁ f todo₁ hsplit hle hlt
    have heq := h'.unique hsplit (Nat.le_of_add_right_le hle) hlt
    subst heq
    rcases hor with hlt4 | rfl
    · omega
    · simp only [List.append_nil]
      omega

/-- The places in a list are its head and the places in its tail. -/
theorem forall_places_cons {β : Type} {P : List β → β → Prop} {x : β} {xs : List β} :
    (∀ before y after, x :: xs = before ++ y :: after → P before y) ↔
      P [] x ∧ ∀ before y after, xs = before ++ y :: after → P (x :: before) y := by
  constructor
  · intro h
    exact ⟨h [] x xs rfl, fun before y after heq => h (x :: before) y after (by rw [heq]; rfl)⟩
  · rintro ⟨hx, hxs⟩ before y after heq
    cases before with
    | nil =>
      obtain ⟨rfl, -⟩ := List.cons.inj heq
      exact hx
    | cons z before =>
      obtain ⟨rfl, htail⟩ := List.cons.inj heq
      exact hxs before y after htail

/-- Frames that are left out cannot be made up for later. -/
theorem append_eq_iff {c : Prop} [Decidable c] {new todo rest : List H3cFrame}
    (hle : rest.length ≤ todo.length) :
    (if c then new else []) ++ rest = new ++ todo ↔ (c ∨ new = []) ∧ rest = todo := by
  by_cases hc : c
  · simp [hc]
  · simp only [hc, if_false, List.nil_append, false_or]
    constructor
    · rintro rfl
      have hnil : new.length = 0 := by
        rw [List.length_append] at hle
        omega
      obtain rfl := List.eq_nil_of_length_eq_zero hnil
      simp
    · rintro ⟨rfl, rfl⟩
      rfl

/-- What the rest of the pushes return, and when it is all that is still to come. -/
theorem collected_stands (hfs : ∀ f ∈ fs, Sendable f) (chunks : List Bytes)
    (h : Stands fs p done todo part) (hwire : p ++ chunks.flatten = wire fs) :
    ((H3cFrameStream.pushAll ⟨part⟩ chunks).2.buffer = []) ∧
    (collected (H3cFrameStream.pushAll ⟨part⟩ chunks).1).length ≤ todo.length ∧
    (collected (H3cFrameStream.pushAll ⟨part⟩ chunks).1 = todo ↔
      ∀ before chunk after, chunks = before ++ chunk :: after →
        EndsWithin fs (p ++ before.flatten) chunk) := by
  induction chunks generalizing p part done todo with
  | nil =>
    obtain rfl : p = wire fs := by simpa using hwire
    obtain ⟨rfl, rfl⟩ := h.all
    refine ⟨rfl, by simp [H3cFrameStream.pushAll, collected], ?_⟩
    simp [H3cFrameStream.pushAll, collected]
  | cons chunk chunks ih =>
    have hpre : p ++ chunk <+: wire fs := ⟨chunks.flatten, by simpa using hwire⟩
    obtain ⟨new, todo', part', rfl, h', hret, hstream⟩ := push_stands hfs h hpre
    obtain ⟨hbuf, hle, hiff⟩ := ih h' (by simpa using hwire)
    have hcollected : collected (H3cFrameStream.pushAll ⟨part⟩ (chunk :: chunks)).1 =
        (if part'.length < 4 then new else []) ++
          collected (H3cFrameStream.pushAll ⟨part'⟩ chunks).1 := by
      simp only [H3cFrameStream.pushAll, collected, List.map_cons, List.flatten_cons, hret, hstream]
    refine ⟨by simpa only [H3cFrameStream.pushAll, hstream] using hbuf, ?_, ?_⟩
    · rw [hcollected, List.length_append, List.length_append]
      split
      · omega
      · simp only [List.length_nil]
        omega
    · rw [hcollected, append_eq_iff hle, hiff, ← endsWithin_iff h h', forall_places_cons]
      simp

end Push

/-- The pushes return every frame, in order and once, and leave nothing in the
buffer, exactly when no chunk that completes a frame ends behind the header of
another frame and before its end. -/
theorem stream_keeps_frames (fs : List H3cFrame) (chunks : List Bytes)
    (hfs : ∀ f ∈ fs, Sendable f) (hwire : chunks.flatten = wire fs) :
    (collected (H3cFrameStream.pushAll {} chunks).1 = fs ∧
      (H3cFrameStream.pushAll {} chunks).2.buffer = []) ↔
    ∀ before chunk after, chunks = before ++ chunk :: after →
      EndsWithin fs before.flatten chunk := by
  obtain ⟨hbuf, -, hiff⟩ := collected_stands hfs chunks
    (Framing.at_start fun f hf => whole_toWire (hfs f hf)) (by simpa using hwire)
  rw [and_iff_left hbuf]
  simpa using hiff

/-- Two frames, cut inside the payload of each. -/
theorem stream_keeps_frames_sample :
    (collected (H3cFrameStream.pushAll {} [[1, 0, 0, 2, 0x45], [0x00], [2, 2, 0, 0]]).1 =
        [.ipv4 [0x45, 0x00], .keepaliveResponse] ∧
      (H3cFrameStream.pushAll {} [[1, 0, 0, 2, 0x45], [0x00], [2, 2, 0, 0]]).2.buffer = []) ↔
    ∀ before chunk after, [[1, 0, 0, 2, 0x45], [0x00], [2, 2, 0, 0]] = before ++ chunk :: after →
      EndsWithin [.ipv4 [0x45, 0x00], .keepaliveResponse] before.flatten chunk :=
  stream_keeps_frames _ _ (by simp [Sendable, H3C_MAX_FRAME_LEN]) (by decide)

/-- A frame and the header of the next one in one chunk: the first frame is lost. -/
theorem frame_lost : ∃ fs chunks, (∀ f ∈ fs, Sendable f) ∧ chunks.flatten = wire fs ∧
    ¬(collected (H3cFrameStream.pushAll {} chunks).1 = fs ∧
      (H3cFrameStream.pushAll {} chunks).2.buffer = []) :=
  ⟨[.ipv4 [0x45, 0x00], .ipv4 [0x45, 0x01, 0x02]],
    [[1, 0, 0, 2, 0x45, 0x00, 1, 0, 0, 3], [0x45, 0x01, 0x02]],
    by simp [Sendable, H3C_MAX_FRAME_LEN], by decide, by decide +kernel⟩

end InodeVpn.Proofs.FrameStream
