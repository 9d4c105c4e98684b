import Mathlib.Data.List.Induction

namespace InodeVpn.Lib

/-- How a stream is cut into frames. `size` reads the length of the frame at the
start of the stream: it may need more of the stream, or refuse what it sees, but
once it has decided, more of the stream changes nothing. It looks no further
than the frame itself. -/
structure Framing (β ε : Type) where
  size : List β → Except ε (Option Nat)
  nil : size [] = .ok none
  pos : ∀ s n, size s = .ok (some n) → 0 < n
  stable : ∀ s t, size s ≠ .ok none → size (s ++ t) = size s
  within : ∀ s n, size s = .ok (some n) → size (s.take n) = .ok (some n)

/-- What is at the start of a stream. -/
inductive Next (β ε : Type)
  | wait
  | bad (e : ε)
  | frame (raw rest : List β)

/-- A stream cut into frames, up to where no whole frame follows. -/
structure Cut (β ε : Type) where
  frames : List (List β)
  error : Option ε
  rest : List β

namespace Framing
variable {β ε : Type} (F : Framing β ε)

def next (s : List β) : Next β ε :=
  match F.size s with
  | .error e => .bad e
  | .ok none => .wait
  | .ok (some n) => if n ≤ s.length then .frame (s.take n) (s.drop n) else .wait

variable {F}

theorem next_bad {s : List β} {e : ε} (h : F.size s = .error e) : F.next s = .bad e := by
  simp [next, h]

theorem next_frame {s : List β} {n : Nat} (h : F.size s = .ok (some n)) (hn : n ≤ s.length) :
    F.next s = .frame (s.take n) (s.drop n) := by
  simp [next, h, hn]

/-- A frame is what `size` says, and the rest is what follows it. -/
theorem next_eq_frame {s raw rest : List β} (h : F.next s = .frame raw rest) :
    F.size s = .ok (some raw.length) ∧ s = raw ++ rest := by
  unfold next at h
  split at h
  · cases h
  · cases h
  · rename_i n hn
    split at h
    · rename_i hle
      cases h
      refine ⟨?_, (List.take_append_drop n s).symm⟩
      rw [hn, List.length_take, Nat.min_eq_left hle]
    · cases h

theorem next_eq_bad {s : List β} {e : ε} (h : F.next s = .bad e) : F.size s = .error e := by
  unfold next at h
  split at h
  · rename_i e' he
    cases h
    exact he
  · cases h
  · split at h <;> cases h

theorem rest_length_lt {s raw rest : List β} (h : F.next s = .frame raw rest) :
    rest.length < s.length := by
  obtain ⟨hsize, rfl⟩ := next_eq_frame h
  have := F.pos _ _ hsize
  rw [List.length_append]
  omega

/-- What follows a frame does not change it. -/
theorem next_frame_append {s raw rest : List β} (t : List β) (h : F.next s = .frame raw rest) :
    F.next (s ++ t) = .frame raw (rest ++ t) := by
  obtain ⟨hsize, rfl⟩ := next_eq_frame h
  have hsize' : F.size (raw ++ rest ++ t) = .ok (some raw.length) := by
    rw [F.stable _ _ (by rw [hsize]; simp), hsize]
  rw [next_frame hsize' (by simp), List.append_assoc, List.take_left, List.drop_left]

theorem next_bad_append {s : List β} {e : ε} (t : List β) (h : F.next s = .bad e) :
    F.next (s ++ t) = .bad e := by
  have hsize := next_eq_bad h
  exact next_bad (by rw [F.stable _ _ (by rw [hsize]; simp), hsize])

variable (F)

/-- Cuts a stream into frames. -/
def cut (s : List β) : Cut β ε :=
  match _h : F.next s with
  | .wait => ⟨[], none, s⟩
  | .bad e => ⟨[], some e, s⟩
  | .frame raw rest =>
    let c := cut rest
    ⟨raw :: c.frames, c.error, c.rest⟩
termination_by s.length
decreasing_by exact rest_length_lt _h

variable {F}

theorem cut_wait {s : List β} (h : F.next s = .wait) : F.cut s = ⟨[], none, s⟩ := by
  rw [cut]
  split <;> simp_all

theorem cut_bad {s : List β} {e : ε} (h : F.next s = .bad e) : F.cut s = ⟨[], some e, s⟩ := by
  rw [cut]
  split <;> simp_all

theorem cut_frame {s raw rest : List β} (h : F.next s = .frame raw rest) :
    F.cut s = ⟨raw :: (F.cut rest).frames, (F.cut rest).error, (F.cut rest).rest⟩ := by
  rw [cut]
  split <;> simp_all

/-- Induction along the frames of a stream. -/
theorem cut_induction {P : List β → Prop} (hwait : ∀ s, F.next s = .wait → P s)
    (hbad : ∀ s e, F.next s = .bad e → P s)
    (hframe : ∀ s raw rest, F.next s = .frame raw rest → P rest → P s) (s : List β) : P s := by
  induction hn : s.length using Nat.strongRecOn generalizing s with
  | _ n ih =>
    cases h : F.next s with
    | wait => exact hwait s h
    | bad e => exact hbad s e h
    | frame raw rest =>
      exact hframe s raw rest h (ih rest.length (hn ▸ rest_length_lt h) rest rfl)

/-- Nothing of the stream is lost. -/
theorem cut_flatten (s : List β) : (F.cut s).frames.flatten ++ (F.cut s).rest = s := by
  induction s using F.cut_induction with
  | hwait s h => simp [cut_wait h]
  | hbad s e h => simp [cut_bad h]
  | hframe s raw rest h ih =>
    rw [cut_frame h, List.flatten_cons, List.append_assoc, ih]
    exact (next_eq_frame h).2.symm

/-- Cutting on, after more of the stream has arrived. -/
theorem cut_append {s : List β} (t : List β) (h : (F.cut s).error = none) :
    F.cut (s ++ t) =
      let c := F.cut ((F.cut s).rest ++ t)
      ⟨(F.cut s).frames ++ c.frames, c.error, c.rest⟩ := by
  induction s using F.cut_induction with
  | hwait s hs => simp [cut_wait hs]
  | hbad s e hs =>
    rw [cut_bad hs] at h
    cases h
  | hframe s raw rest hs ih =>
    rw [cut_frame hs] at h ⊢
    rw [cut_frame (next_frame_append t hs), ih h]
    simp

variable (F)

/-- A list that is one frame. -/
def Whole (raw : List β) : Prop := F.size raw = .ok (some raw.length)

variable {F}

theorem Whole.next {raw : List β} (h : F.Whole raw) (t : List β) :
    F.next (raw ++ t) = .frame raw t := by
  have := next_frame_append t (next_frame h (Nat.le_refl _))
  simpa using this

theorem whole_of_next {s raw rest : List β} (h : F.next s = .frame raw rest) : F.Whole raw := by
  obtain ⟨hsize, rfl⟩ := next_eq_frame h
  have := F.within _ _ hsize
  rwa [List.take_left] at this

/-- What is cut out of a stream is whole frames. -/
theorem whole_of_cut (s : List β) : ∀ raw ∈ (F.cut s).frames, F.Whole raw := by
  induction s using F.cut_induction with
  | hwait s h => simp [cut_wait h]
  | hbad s e h => simp [cut_bad h]
  | hframe s raw rest h ih =>
    rw [cut_frame h]
    intro r hr
    rcases List.mem_cons.mp hr with rfl | hr
    · exact whole_of_next h
    · exact ih r hr

theorem rest_length_le (s : List β) : (F.cut s).rest.length ≤ s.length := by
  have := congrArg List.length (F.cut_flatten s)
  rw [List.length_append] at this
  omega

theorem Whole.pos {raw : List β} (h : F.Whole raw) : 0 < raw.length := F.pos _ _ h

/-- A beginning of a whole frame waits for the rest of it. -/
theorem Whole.wait {raw part : List β} (h : F.Whole raw) (hp : part <+: raw)
    (hlt : part.length < raw.length) : F.next part = .wait := by
  obtain ⟨t, rfl⟩ := hp
  cases hn : F.next part with
  | wait => rfl
  | bad e =>
    have := next_eq_bad (next_bad_append t hn)
    rw [h] at this
    cases this
  | frame r rest =>
    have hsize := (next_eq_frame (next_frame_append t hn)).1
    rw [h] at hsize
    have hlen := congrArg List.length (next_eq_frame hn).2
    simp only [Except.ok.injEq, Option.some.injEq] at hsize
    rw [List.length_append] at hlen
    omega

/-- Whole frames in front are cut as they stand. -/
theorem cut_whole_append {frames : List (List β)} {rest : List β}
    (h : ∀ raw ∈ frames, F.Whole raw) : F.cut (frames.flatten ++ rest) =
      ⟨frames ++ (F.cut rest).frames, (F.cut rest).error, (F.cut rest).rest⟩ := by
  induction frames with
  | nil => rfl
  | cons raw frames ih =>
    obtain ⟨hraw, hframes⟩ := List.forall_mem_cons.mp h
    have hnext := hraw.next (frames.flatten ++ rest)
    rw [List.flatten_cons, List.append_assoc, cut_frame hnext, ih hframes, List.cons_append]

/-- What has neither a whole frame nor an error at its start waits. -/
theorem next_of_cut {s : List β} (hframes : (F.cut s).frames = [])
    (herror : (F.cut s).error = none) : F.next s = .wait := by
  cases h : F.next s with
  | wait => rfl
  | bad e =>
    rw [cut_bad h] at herror
    cases herror
  | frame raw rest =>
    rw [cut_frame h] at hframes
    cases hframes

section Items
variable {α : Type} {enc : α → List β}

variable (F enc) in
/-- Where a stream of encoded items stands after the bytes `p`: some items are
there in full, and of the next one there is only a part. -/
structure At (items : List α) (p : List β) (done todo : List α) (part : List β) : Prop where
  split : items = done ++ todo
  bytes : p = done.flatMap enc ++ part
  cut : F.cut p = ⟨done.map enc, none, part⟩
  proper : ∀ x ∈ todo.head?, part.length < (enc x).length
  ended : todo = [] → part = []

variable {items done todo : List α} {p part : List β}

theorem at_start (h : ∀ x ∈ items, F.Whole (enc x)) : F.At enc items [] [] items [] where
  split := rfl
  bytes := rfl
  cut := cut_wait (by simp [Framing.next, F.nil])
  proper x hx := (h x (List.mem_of_mem_head? hx)).pos
  ended _ := rfl

/-- Every beginning of a stream stands somewhere. -/
theorem exists_at (h : ∀ x ∈ items, F.Whole (enc x)) (hp : p <+: items.flatMap enc) :
    ∃ done todo part, F.At enc items p done todo part := by
  induction items generalizing p with
  | nil =>
    obtain rfl := List.prefix_nil.mp hp
    exact ⟨[], [], [], at_start h⟩
  | cons x xs ih =>
    have hwhole := h x (by simp)
    rw [List.flatMap_cons] at hp
    rcases Nat.lt_or_ge p.length (enc x).length with hlt | hge
    · have hpx : p <+: enc x :=
        List.prefix_of_prefix_length_le hp (List.prefix_append _ _) (Nat.le_of_lt hlt)
      exact ⟨[], x :: xs, p, rfl, rfl, cut_wait (hwhole.wait hpx hlt), by simpa using hlt, by simp⟩
    · obtain ⟨p', rfl⟩ : enc x <+: p :=
        List.prefix_of_prefix_length_le (List.prefix_append _ _) hp hge
      obtain ⟨done, todo, part, hat⟩ := ih (fun y hy => h y (by simp [hy]))
        ((List.prefix_append_right_inj _).mp hp)
      refine ⟨x :: done, todo, part, by rw [hat.split]; rfl, ?_, ?_, hat.proper, hat.ended⟩
      · rw [List.flatMap_cons, List.append_assoc, ← hat.bytes]
      · rw [cut_frame (hwhole.next p'), hat.cut]
        rfl

theorem At.length (h : F.At enc items p done todo part) :
    p.length = (done.flatMap enc).length + part.length := by
  rw [h.bytes, List.length_append]

/-- A place in the stream is inside one item only. -/
theorem At.unique {done' todo' : List α} {x : α} (h : F.At enc items p done todo part)
    (hsplit : items = done' ++ x :: todo') (hle : (done'.flatMap enc).length ≤ p.length)
    (hlt : p.length < (done'.flatMap enc).length + (enc x).length) : done' = done := by
  have hlen := h.length
  rw [h.split] at hsplit
  rcases List.append_eq_append_iff.mp hsplit with ⟨as, rfl, rfl⟩ | ⟨bs, rfl, hbs⟩
  · cases as with
    | nil => simp
    | cons y as =>
      have := h.proper y rfl
      simp only [List.flatMap_append, List.flatMap_cons, List.length_append] at hle
      omega
  · cases bs with
    | nil => simp
    | cons y bs =>
      obtain ⟨rfl, -⟩ := List.cons.inj hbs
      simp only [List.flatMap_append, List.flatMap_cons, List.length_append] at hlen
      omega

/-- More of the stream completes some items, cut off what was waiting. -/
theorem At.append (hat : F.At enc items p done todo part) (h : ∀ x ∈ items, F.Whole (enc x))
    {chunk : List β} (hp : p ++ chunk <+: items.flatMap enc) :
    ∃ new todo' part', todo = new ++ todo' ∧
      F.At enc items (p ++ chunk) (done ++ new) todo' part' ∧
      F.cut (part ++ chunk) = ⟨new.map enc, none, part'⟩ := by
  obtain ⟨done', todo', part', hat'⟩ := exists_at h hp
  have hcut := cut_append chunk (s := p) (by rw [hat.cut])
  simp only [hat'.cut, hat.cut, Cut.mk.injEq] at hcut
  obtain ⟨hframes, herror, hrest⟩ := hcut
  -- the items in full before stay in full
  obtain ⟨new, rfl, rfl⟩ : ∃ new, done' = done ++ new ∧ todo = new ++ todo' := by
    have hle : done.length ≤ done'.length := by
      have := congrArg List.length hframes
      simp only [List.length_map, List.length_append] at this
      omega
    have hd := hat'.split
    rw [hat.split] at hd
    rcases List.append_eq_append_iff.mp hd with ⟨as, rfl, hx⟩ | ⟨bs, rfl, hx⟩
    · exact ⟨as, rfl, hx⟩
    · have hbs : bs.length = 0 := by
        rw [List.length_append] at hle
        omega
      obtain rfl := List.eq_nil_of_length_eq_zero hbs
      exact ⟨[], by simp, by simpa using hx.symm⟩
  have hraws : (F.cut (part ++ chunk)).frames = new.map enc := by
    simpa using hframes.symm
  exact ⟨new, todo', part', rfl, hat', by rw [herror, hrest, ← hraws]⟩

/-- Once the whole stream is there, every item is. -/
theorem At.all (h : F.At enc items (items.flatMap enc) done todo part) : todo = [] ∧ part = [] := by
  have htodo : todo = [] := by
    cases htodo : todo with
    | nil => rfl
    | cons x xs =>
      have hpart := h.proper x (by rw [htodo]; rfl)
      have hlen := h.length
      rw [h.split, htodo, List.flatMap_append, List.length_append, List.flatMap_cons,
        List.length_append] at hlen
      omega
  exact ⟨htodo, h.ended htodo⟩

end Items

end Framing

end InodeVpn.Lib
