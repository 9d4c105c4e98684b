import InodeVpn.Fork.Headers
import InodeVpn.Lib.Segments

namespace InodeVpn.Proofs.HeaderScan
open InodeVpn.Fork Lib
open Wire (Bytes)

/-- The segments of a header value that are not empty. -/
def pieces (v : Bytes) : List Bytes := (v.splitOnP (· == SEMICOLON)).filter (· ≠ [])

/-- Those of them that a semicolon follows. -/
def terminatedPieces (v : Bytes) : List Bytes :=
  (v.splitOnP (· == SEMICOLON)).dropLast.filter (· ≠ [])

/-- What a header is to do with its segments: store one after the other, up to a failure. -/
def storeAll {σ : Type} (store : Bytes → σ → σ × Bool) : List Bytes → σ → Int × σ
  | [], st => (0, st)
  | seg :: segs, st =>
    let next := store seg st
    if next.2 then storeAll store segs next.1 else (-ENOMEM, next.1)

/-- What a round of the loop does with its segment. -/
def attempt {σ : Type} (store : Bytes → σ → σ × Bool) (seg : Bytes) (st : σ) : σ × Bool :=
  if seg = [] then (st, true) else store seg st

/-- The rounds of the loop for segments that a semicolon follows: an error where it is over with
them, with what is returned. -/
def pass {σ : Type} (more : σ → Bool) (store : Bytes → σ → σ × Bool) :
    List Bytes → σ → Except (Int × σ) σ
  | [], st => .ok st
  | seg :: segs, st =>
    if more st = false then .error (0, st)
    else if (attempt store seg st).2 then pass more store segs (attempt store seg st).1
    else .error (-ENOMEM, (attempt store seg st).1)

/-- What is read and returned when the loop goes on after some rounds. -/
def resume {σ : Type} (reads : List Nat) (rest : σ → Walk (Int × σ)) :
    Except (Int × σ) σ → Walk (Int × σ)
  | .error r => ⟨reads, some r⟩
  | .ok st => ⟨reads ++ (rest st).reads, (rest st).value⟩

/-- What is returned if nothing comes behind. -/
def result {σ : Type} : Except (Int × σ) σ → Int × σ
  | .error r => r
  | .ok st => (0, st)

section Scan
variable {σ : Type} {more : σ → Bool} {store : Bytes → σ → σ × Bool} {pos : Nat}
  {seg mem last : Bytes} {segs : List Bytes} {d : UInt8} {st : σ}

theorem scan_stop (hnul : NUL ∉ seg) (hsep : SEMICOLON ∉ seg) (hd : d = NUL ∨ d = SEMICOLON) :
    scan pos (seg ++ d :: mem) = ⟨List.range' pos (seg.length + 1), some (seg, d :: mem)⟩ := by
  induction seg generalizing pos with
  | nil =>
    rw [List.nil_append, scan, if_neg (by rcases hd with rfl | rfl <;> simp)]
    rfl
  | cons c seg ih =>
    simp only [List.mem_cons, not_or] at hnul hsep
    rw [List.cons_append, scan, if_pos ⟨Ne.symm hnul.1, Ne.symm hsep.1⟩, ih hnul.2 hsep.2]
    rfl

theorem eachSegment_nul : eachSegment more store pos (NUL :: mem) st = ⟨[pos], some (0, st)⟩ := by
  rw [eachSegment, if_pos (Or.inl rfl)]

/-- When the loop has enough, it still reads `*vp`. -/
theorem eachSegment_enough (h : more st = false) :
    eachSegment more store pos (d :: mem) st = ⟨[pos], some (0, st)⟩ := by
  rw [eachSegment, if_pos (Or.inr h)]

/-- One round, for a segment with a separator or the end behind it. -/
theorem eachSegment_round (hnul : NUL ∉ seg) (hsep : SEMICOLON ∉ seg)
    (hd : d = NUL ∨ d = SEMICOLON) (hbegins : seg ≠ [] ∨ d ≠ NUL) (hmore : more st = true) :
    eachSegment more store pos (seg ++ d :: mem) st =
      resume (pos :: List.range' pos (seg.length + 1))
        (eachSegment more store (pos + seg.length + 1) mem)
        (if (attempt store seg st).2 then .ok (attempt store seg st).1
          else .error (-ENOMEM, (attempt store seg st).1)) := by
  have hscan : scan pos (seg ++ d :: mem) =
      ⟨List.range' pos (seg.length + 1), some (seg, d :: mem)⟩ := scan_stop hnul hsep hd
  cases hmem : seg ++ d :: mem with
  | nil => simp at hmem
  | cons c tail =>
    have hc : c ≠ NUL := by
      cases seg with
      | nil =>
        cases hmem
        exact hbegins.resolve_left fun h => h rfl
      | cons x seg =>
        cases hmem
        exact fun h => hnul (h ▸ List.mem_cons_self)
    rw [eachSegment, if_neg (by simp [hc, hmore])]
    rw [hmem] at hscan
    generalize scan pos (c :: tail) = inner at hscan
    subst hscan
    by_cases hstored : (attempt store seg st).2 = true
    · rw [if_pos hstored]
      exact if_pos hstored
    · rw [if_neg hstored]
      exact if_neg hstored

/-- One round, for a segment that a semicolon follows. -/
theorem eachSegment_cons (hnul : NUL ∉ seg) (hsep : SEMICOLON ∉ seg) (hmore : ¬ more st = false) :
    eachSegment more store pos (closed SEMICOLON (seg :: segs) ++ mem) st =
      resume (pos :: List.range' pos (seg.length + 1))
        (eachSegment more store (pos + seg.length + 1) (closed SEMICOLON segs ++ mem))
        (if (attempt store seg st).2 then .ok (attempt store seg st).1
          else .error (-ENOMEM, (attempt store seg st).1)) := by
  rw [closed_cons, List.append_assoc, List.cons_append]
  exact eachSegment_round hnul hsep (Or.inr rfl) (Or.inr (by decide))
    ((Bool.not_eq_false _).mp hmore)

/-- Bytes of a value, cut into segments. -/
structure Plain (segs : List Bytes) : Prop where
  noNul : ∀ seg ∈ segs, NUL ∉ seg
  noSep : ∀ seg ∈ segs, SEMICOLON ∉ seg

/-- The rounds for segments with a semicolon behind each read nothing behind them. -/
theorem eachSegment_closed (pos : Nat) (st : σ) (h : Plain segs) : ∃ reads : List Nat,
    (∀ i ∈ reads, i < pos + (closed SEMICOLON segs).length) ∧
      ∀ mem, eachSegment more store pos (closed SEMICOLON segs ++ mem) st =
        resume reads (eachSegment more store (pos + (closed SEMICOLON segs).length) mem)
          (pass more store segs st) := by
  induction segs generalizing pos st with
  | nil => exact ⟨[], fun i hi => absurd hi List.not_mem_nil, fun mem => rfl⟩
  | cons seg segs ih =>
    obtain ⟨hnul, hnuls⟩ := List.forall_mem_cons.mp h.noNul
    obtain ⟨hsep, hseps⟩ := List.forall_mem_cons.mp h.noSep
    have hlength : pos + (closed SEMICOLON (seg :: segs)).length =
        pos + seg.length + 1 + (closed SEMICOLON segs).length := by
      simp only [closed_cons, List.length_append, List.length_cons]
      omega
    have hround : ∀ i ∈ pos :: List.range' pos (seg.length + 1), i < pos + seg.length + 1 := by
      intro i hi
      rcases List.mem_cons.mp hi with rfl | hi
      · omega
      · have := List.mem_range'_1.mp hi
        omega
    rw [hlength]
    by_cases hmore : more st = false
    · refine ⟨[pos], fun i hi => ?_, fun mem => ?_⟩
      · rw [List.mem_singleton.mp hi]
        omega
      · rw [pass, if_pos hmore]
        cases hmem : closed SEMICOLON (seg :: segs) ++ mem with
        | nil => simp at hmem
        | cons c tail => exact eachSegment_enough hmore
    · by_cases hstored : (attempt store seg st).2 = true
      · obtain ⟨reads, hreads, hrest⟩ := ih (pos + seg.length + 1) (attempt store seg st).1
          ⟨hnuls, hseps⟩
        refine ⟨pos :: List.range' pos (seg.length + 1) ++ reads, fun i hi => ?_, fun mem => ?_⟩
        · rcases List.mem_append.mp hi with hi | hi
          · have := hround i hi
            omega
          · exact hreads i hi
        · rw [eachSegment_cons hnul hsep hmore, pass, if_neg hmore, if_pos hstored, if_pos hstored,
            resume, hrest]
          cases pass more store segs (attempt store seg st).1 with
          | error r => rfl
          | ok st' => simp only [resume, List.append_assoc]
      · refine ⟨pos :: List.range' pos (seg.length + 1), fun i hi => ?_, fun mem => ?_⟩
        · have := hround i hi
          omega
        · rw [eachSegment_cons hnul hsep hmore, pass, if_neg hmore, if_neg hstored, if_neg hstored]
          rfl

/-- At the terminator, or when it has enough, the loop ends there. -/
theorem eachSegment_stops (h : Plain segs)
    (hstop : d = NUL ∨ ∀ st', pass more store segs st = .ok st' → more st' = false) :
    (∀ i ∈ (eachSegment more store pos (closed SEMICOLON segs ++ d :: mem) st).reads,
      i ≤ pos + (closed SEMICOLON segs).length) ∧
    (eachSegment more store pos (closed SEMICOLON segs ++ d :: mem) st).value =
      some (result (pass more store segs st)) := by
  obtain ⟨reads, hreads, hrest⟩ := eachSegment_closed pos st h
  rw [hrest]
  cases hpass : pass more store segs st with
  | error r => exact ⟨fun i hi => Nat.le_of_lt (hreads i hi), rfl⟩
  | ok st' =>
    have hend : eachSegment more store (pos + (closed SEMICOLON segs).length) (d :: mem) st' =
        ⟨[pos + (closed SEMICOLON segs).length], some (0, st')⟩ := by
      rcases hstop with rfl | hstop
      · exact eachSegment_nul
      · exact eachSegment_enough (hstop st' hpass)
    rw [resume, hend]
    refine ⟨fun i hi => ?_, rfl⟩
    rcases List.mem_append.mp hi with hi | hi
    · exact Nat.le_of_lt (hreads i hi)
    · exact Nat.le_of_eq (List.mem_singleton.mp hi)

/-- The loop begins by reading `*vp`. -/
theorem reads_first : pos ∈ (eachSegment more store pos mem st).reads := by
  cases mem with
  | nil =>
    rw [eachSegment]
    exact List.mem_singleton_self pos
  | cons c tail =>
    rw [eachSegment]
    split
    · exact List.mem_singleton_self pos
    · dsimp only
      repeat' split
      all_goals simp

/-- A last segment with the terminator behind it: the loop steps over the terminator. -/
theorem eachSegment_overruns {st' : σ} (h : Plain segs) (hnul : NUL ∉ last)
    (hsep : SEMICOLON ∉ last) (hlast : last ≠ []) (hpass : pass more store segs st = .ok st')
    (hmore : more st' = true) (hstored : (store last st').2 = true) :
    pos + (closed SEMICOLON segs ++ last).length + 1 ∈
      (eachSegment more store pos (closed SEMICOLON segs ++ (last ++ NUL :: mem)) st).reads := by
  obtain ⟨reads, hreads, hrest⟩ := eachSegment_closed pos st h
  have hattempt : attempt store last st' = store last st' := if_neg hlast
  rw [hrest, hpass, resume, eachSegment_round hnul hsep (Or.inl rfl) (Or.inl hlast) hmore, hattempt,
    if_pos hstored]
  apply List.mem_append_right
  apply List.mem_append_right
  rw [List.length_append, ← Nat.add_assoc]
  exact reads_first

end Scan

section Store
variable {σ : Type} {store : Bytes → σ → σ × Bool} {segs : List Bytes} {st : σ}

theorem attempt_nil : attempt store [] st = (st, true) := if_pos rfl

theorem attempt_of_ne {seg : Bytes} (h : seg ≠ []) : attempt store seg st = store seg st := if_neg h

/-- A loop that never has enough stores every segment. -/
theorem result_pass :
    result (pass (fun _ => true) store segs st) = storeAll store (segs.filter (· ≠ [])) st := by
  induction segs generalizing st with
  | nil => rfl
  | cons seg segs ih =>
    rw [pass, if_neg (by simp)]
    by_cases hseg : seg = []
    · subst hseg
      rw [attempt_nil]
      exact ih
    · rw [attempt_of_ne hseg, List.filter_cons_of_pos (by simpa using hseg), storeAll]
      split
      · exact ih
      · rfl

end Store

section Branches
variable {H : Type} {heap : Heap H} {segs : List Bytes} {n : Nat} {st : ParseState H}

/-- Every request for memory is met. -/
structure Plenty (heap : Heap H) : Prop where
  addOptionDup : ∀ option value h, (heap.addOptionDup option value h).2 = true
  malloc : ∀ h, (heap.malloc h).2 = true

theorem addRoute_of_plenty (h : Plenty heap) (seg : Bytes) (st : ParseState H) :
    ∃ h', addRoute heap seg st =
      ({ st with splitIncludes := seg :: st.splitIncludes, heap := h' }, true) := by
  refine ⟨(heap.malloc (heap.addOptionDup "split-include" seg st.heap).1).1, ?_⟩
  simp only [addRoute, h.addOptionDup, h.malloc, if_true]

theorem addDns_of_plenty (h : Plenty heap) (seg : Bytes) (st : ParseState H) :
    ∃ h', addDns heap seg (n, st) = ((n + 1,
      { st with dns := fun i => if i.val = n then some seg else st.dns i, heap := h' }), true) := by
  refine ⟨(heap.addOptionDup "DNS" seg st.heap).1, ?_⟩
  simp only [addDns, h.addOptionDup, if_true]

/-- The last segment stands in front. -/
theorem storeAll_addRoute (h : Plenty heap) : ∃ st', storeAll (addRoute heap) segs st = (0, st') ∧
    st'.splitIncludes = segs.reverse ++ st.splitIncludes ∧ st'.dns = st.dns := by
  induction segs generalizing st with
  | nil => exact ⟨st, rfl, rfl, rfl⟩
  | cons seg segs ih =>
    obtain ⟨h', hadd⟩ := addRoute_of_plenty h seg st
    rw [storeAll, hadd, if_pos rfl]
    obtain ⟨st', hst', hincludes, hdns⟩ := ih
    exact ⟨st', hst', by simp [hincludes], hdns⟩

/-- The segments fill the places from `n` on. -/
theorem storeAll_addDns (h : Plenty heap) : ∃ st', storeAll (addDns heap) segs (n, st) = (0, st') ∧
    ∀ i, st'.2.dns i = if i.val < n then st.dns i else (segs[i.val - n]?).or (st.dns i) := by
  induction segs generalizing n st with
  | nil =>
    refine ⟨(n, st), rfl, fun i => ?_⟩
    simp
  | cons seg segs ih =>
    obtain ⟨h', hadd⟩ := addDns_of_plenty h seg st
    rw [storeAll, hadd, if_pos rfl]
    obtain ⟨st', hst', hdns⟩ := ih
    refine ⟨st', hst', fun i => ?_⟩
    rw [hdns]
    rcases Nat.lt_trichotomy i.val n with hlt | heq | hgt
    · simp [hlt, Nat.lt_succ_of_lt hlt, Nat.ne_of_lt hlt]
    · simp [heq]
    · have hindex : i.val - n = i.val - (n + 1) + 1 := by omega
      rw [if_neg (show ¬ i.val < n + 1 by omega), if_neg (show ¬ i.val < n by omega), hindex,
        List.getElem?_cons_succ]
      simp only [if_neg (Nat.ne_of_gt hgt)]

/-- A segment that is stored is counted. -/
theorem addDns_count {seg : Bytes} (h : (addDns heap seg (n, st)).2 = true) :
    (addDns heap seg (n, st)).1.1 = n + 1 := by
  unfold addDns at h ⊢
  dsimp only at h ⊢
  split
  · rfl
  · rename_i hnot
    rw [if_neg hnot] at h
    cases h

/-- The loop for `DNS` stores up to three segments. -/
theorem result_pass_addDns (hn : n ≤ 3) :
    result (pass (fun st : Nat × ParseState H => st.1 < 3) (addDns heap) segs (n, st)) =
      storeAll (addDns heap) ((segs.filter (· ≠ [])).take (3 - n)) (n, st) := by
  induction segs generalizing n st with
  | nil => simp [pass, result, storeAll]
  | cons seg segs ih =>
    rw [pass]
    by_cases hlt : n < 3
    · rw [if_neg (by simp [hlt])]
      by_cases hseg : seg = []
      · subst hseg
        rw [attempt_nil]
        exact ih hn
      · have hroom : 3 - n = 3 - (n + 1) + 1 := by omega
        rw [attempt_of_ne hseg, List.filter_cons_of_pos (by simpa using hseg), hroom,
          List.take_succ_cons, storeAll]
        by_cases hstored : (addDns heap seg (n, st)).2 = true
        · have hnext : (addDns heap seg (n, st)).1 = (n + 1, (addDns heap seg (n, st)).1.2) :=
            Prod.ext (addDns_count hstored) rfl
          rw [if_pos hstored, if_pos hstored, hnext]
          exact ih (by omega)
        · rw [if_neg hstored, if_neg hstored]
          rfl
    · have hfull : 3 - n = 0 := by omega
      rw [if_pos (by simp [hlt]), hfull]
      rfl

/-- While it goes on, the loop has counted the segments it has seen. -/
theorem pass_addDns_count {st' : Nat × ParseState H}
    (h : pass (fun st : Nat × ParseState H => st.1 < 3) (addDns heap) segs (n, st) = .ok st') :
    st'.1 = n + (segs.filter (· ≠ [])).length := by
  induction segs generalizing n st with
  | nil =>
    cases h
    rfl
  | cons seg segs ih =>
    rw [pass] at h
    split at h
    · cases h
    · by_cases hseg : seg = []
      · subst hseg
        rw [attempt_nil] at h
        exact ih h
      · rw [attempt_of_ne hseg] at h
        split at h
        · rename_i hstored
          have hnext : (addDns heap seg (n, st)).1 = (n + 1, (addDns heap seg (n, st)).1.2) :=
            Prod.ext (addDns_count hstored) rfl
          rw [hnext] at h
          rw [ih h, List.filter_cons_of_pos (by simpa using hseg), List.length_cons]
          omega
        · cases h

/-- With memory to be had, the loop for `DNS` goes on up to the third segment. -/
theorem pass_addDns (h : Plenty heap) (hroom : n + (segs.filter (· ≠ [])).length < 3) :
    ∃ st', pass (fun st : Nat × ParseState H => st.1 < 3) (addDns heap) segs (n, st) = .ok st' := by
  induction segs generalizing n st with
  | nil => exact ⟨(n, st), rfl⟩
  | cons seg segs ih =>
    have hlt : n < 3 := by omega
    rw [pass, if_neg (by simp [hlt])]
    by_cases hseg : seg = []
    · subst hseg
      rw [attempt_nil]
      exact ih hroom
    · obtain ⟨h', hadd⟩ := addDns_of_plenty h seg st
      rw [List.filter_cons_of_pos (by simpa using hseg), List.length_cons] at hroom
      rw [attempt_of_ne hseg, hadd, if_pos rfl]
      exact ih (by omega)

/-- And the loop for `ROUTES` always. -/
theorem pass_addRoute (h : Plenty heap) :
    ∃ st', pass (fun _ => true) (addRoute heap) segs st = .ok st' := by
  induction segs generalizing st with
  | nil => exact ⟨st, rfl⟩
  | cons seg segs ih =>
    rw [pass, if_neg (by simp)]
    by_cases hseg : seg = []
    · subst hseg
      rw [attempt_nil]
      exact ih
    · obtain ⟨h', hadd⟩ := addRoute_of_plenty h seg st
      rw [attempt_of_ne hseg, hadd, if_pos rfl]
      exact ih

end Branches

/-- `ROUTES` is parsed from the value alone: the loop ends, no read is beyond the terminator, and
the segments that are not empty are stored, in front of those that are there, up to the first
failure of an allocation. -/
structure RoutesExact {H : Type} (heap : Heap H) (v : CString) (behind : Bytes)
    (st : ParseState H) : Prop where
  within : ∀ i ∈ (h3cRoutes heap (v.inMemory behind) st).reads, i ≤ v.bytes.length
  stores : (h3cRoutes heap (v.inMemory behind) st).value =
    some (storeAll (addRoute heap) (pieces v.bytes) st)
  prepends : Plenty heap → ∃ st', (h3cRoutes heap (v.inMemory behind) st).value = some (0, st') ∧
    st'.splitIncludes = (pieces v.bytes).reverse ++ st.splitIncludes

/-- `DNS` is parsed from the value alone, likewise, with the first three segments. -/
structure DnsExact {H : Type} (heap : Heap H) (v : CString) (behind : Bytes)
    (st : ParseState H) : Prop where
  within : ∀ i ∈ (h3cDns heap (v.inMemory behind) st).reads, i ≤ v.bytes.length
  stores : (h3cDns heap (v.inMemory behind) st).value =
    some ((storeAll (addDns heap) ((pieces v.bytes).take 3) (0, st)).map id Prod.snd)
  fills : Plenty heap → ∃ st', (h3cDns heap (v.inMemory behind) st).value = some (0, st') ∧
    ∀ i, st'.dns i = ((pieces v.bytes)[i.val]?).or (st.dns i)

/-- The value is empty or ends with a semicolon. -/
def Terminated (v : CString) : Prop := v.bytes = [] ∨ v.bytes.getLast? = some SEMICOLON

section Exact
variable {H : Type} {heap : Heap H} {v : CString} {behind : Bytes} {st : ParseState H}

/-- A value as its segments. -/
theorem exists_plain (v : CString) : ∃ segs last, v.bytes = closed SEMICOLON segs ++ last ∧
    Plain segs ∧ NUL ∉ last ∧ SEMICOLON ∉ last ∧ (last = [] ↔ Terminated v) := by
  obtain ⟨segs, last, hv, hsegs, hlast⟩ := exists_segments SEMICOLON v.bytes
  have hnul := v.noNul
  have hend : last = [] ↔ Terminated v := by
    rw [Terminated, hv]
    exact last_eq_nil hlast
  rw [hv, List.mem_append, not_or] at hnul
  refine ⟨segs, last, hv, ⟨fun seg hseg hin => hnul.1 ?_, hsegs⟩, hnul.2, hlast, hend⟩
  exact List.mem_flatMap.mpr ⟨seg, hseg, List.mem_append_left _ hin⟩

variable {segs : List Bytes} {last : Bytes}

theorem pieces_eq (hv : v.bytes = closed SEMICOLON segs ++ last) (h : Plain segs)
    (hlast : SEMICOLON ∉ last) :
    pieces v.bytes = segs.filter (· ≠ []) ++ [last].filter (· ≠ []) ∧
      terminatedPieces v.bytes = segs.filter (· ≠ []) := by
  rw [pieces, terminatedPieces, hv, splitOnP_closed h.noSep hlast, List.filter_append,
    List.dropLast_concat]
  exact ⟨rfl, rfl⟩

theorem inMemory_eq (hv : v.bytes = closed SEMICOLON segs ++ last) :
    v.inMemory behind = closed SEMICOLON segs ++ (last ++ NUL :: behind) := by
  rw [CString.inMemory, hv, List.append_assoc]

/-- Where the loop for `ROUTES` stops at the terminator, it does what it is for. -/
theorem routesExact_of_terminated (h : Terminated v) : RoutesExact heap v behind st := by
  obtain ⟨segs, last, hv, hplain, -, hsep, hend⟩ := exists_plain v
  have hlast : last = [] := hend.mpr h
  subst hlast
  have hpieces : pieces v.bytes = segs.filter (· ≠ []) := by
    simpa using (pieces_eq hv hplain hsep).1
  have hlength : v.bytes.length = 0 + (closed SEMICOLON segs).length := by simp [hv]
  obtain ⟨hwithin, hvalue⟩ : _ ∧ (h3cRoutes heap (v.inMemory behind) st).value = _ := by
    rw [inMemory_eq hv]
    exact eachSegment_stops hplain (Or.inl rfl)
  rw [result_pass, ← hpieces] at hvalue
  refine ⟨?_, hvalue, fun hplenty => ?_⟩
  · rw [inMemory_eq hv, hlength]
    exact hwithin
  · obtain ⟨st', hst', hincludes, -⟩ := storeAll_addRoute hplenty
    exact ⟨st', hvalue.trans (congrArg some hst'), hincludes⟩

/-- Memory enough for every request. -/
def plentiful (H : Type) : Heap H := ⟨fun _ _ h => (h, true), fun h => (h, true)⟩

theorem plenty_plentiful : Plenty (plentiful H) := ⟨fun _ _ _ => rfl, fun _ => rfl⟩

/-- With memory to be had, the loop for `ROUTES` steps over the terminator of another value. -/
theorem routes_overrun (h : ¬ Terminated v) :
    v.bytes.length + 1 ∈ (h3cRoutes (plentiful H) (v.inMemory behind) st).reads := by
  obtain ⟨segs, last, hv, hplain, hnul, hsep, hend⟩ := exists_plain v
  have hlast : last ≠ [] := fun hnil => h (hend.mp hnil)
  have hplenty : Plenty (plentiful H) := plenty_plentiful
  obtain ⟨st', hpass⟩ := pass_addRoute hplenty
  obtain ⟨h', hadd⟩ := addRoute_of_plenty hplenty last st'
  rw [h3cRoutes, inMemory_eq hv, hv, ← Nat.zero_add (closed SEMICOLON segs ++ last).length]
  exact eachSegment_overruns hplain hnul hsep hlast hpass rfl (congrArg Prod.snd hadd)

/-- Where the loop for `DNS` stops at the terminator or before, it does what it is for. -/
theorem dnsExact_of_terminated (h : Terminated v ∨ 3 ≤ (terminatedPieces v.bytes).length) :
    DnsExact heap v behind st := by
  obtain ⟨segs, last, hv, hplain, -, hsep, hend⟩ := exists_plain v
  obtain ⟨hpieces, hterminated⟩ := pieces_eq hv hplain hsep
  rw [hterminated, ← hend] at h
  have htake : (pieces v.bytes).take 3 = (segs.filter (· ≠ [])).take (3 - 0) := by
    rw [hpieces]
    rcases h with rfl | h
    · simp
    · exact List.take_append_of_le_length h
  have hlength : (closed SEMICOLON segs).length ≤ v.bytes.length := by
    rw [hv, List.length_append]
    exact Nat.le_add_right _ _
  have hstops : (∀ i ∈ (h3cDns heap (v.inMemory behind) st).reads,
        i ≤ 0 + (closed SEMICOLON segs).length) ∧
      (h3cDns heap (v.inMemory behind) st).value =
        some ((storeAll (addDns heap) ((pieces v.bytes).take 3) (0, st)).map id Prod.snd) := by
    rw [htake, ← result_pass_addDns (Nat.zero_le 3), h3cDns, inMemory_eq hv]
    cases hmem : last ++ NUL :: behind with
    | nil => simp at hmem
    | cons d mem =>
      have hstop : d = NUL ∨ ∀ st', pass (fun st : Nat × ParseState H => decide (st.1 < 3))
          (addDns heap) segs (0, st) = .ok st' → decide (st'.1 < 3) = false := by
        rcases h with rfl | h
        · cases hmem
          exact Or.inl rfl
        · refine Or.inr fun st' hpass => decide_eq_false ?_
          rw [pass_addDns_count hpass]
          omega
      obtain ⟨hwithin, hvalue⟩ := eachSegment_stops hplain hstop
      refine ⟨hwithin, ?_⟩
      rw [hvalue]
      rfl
  refine ⟨fun i hi => ?_, hstops.2, fun hplenty => ?_⟩
  · have := hstops.1 i hi
    omega
  · obtain ⟨st', hst', hdns⟩ := storeAll_addDns hplenty
    rw [hst'] at hstops
    refine ⟨st'.2, hstops.2, fun i => ?_⟩
    rw [hdns, if_neg (Nat.not_lt_zero _), Nat.sub_zero, List.getElem?_take_of_lt i.isLt]

/-- With memory to be had, the loop for `DNS` steps over the terminator of another value. -/
theorem dns_overrun (h : ¬ Terminated v) (hfew : (terminatedPieces v.bytes).length < 3) :
    v.bytes.length + 1 ∈ (h3cDns (plentiful H) (v.inMemory behind) st).reads := by
  obtain ⟨segs, last, hv, hplain, hnul, hsep, hend⟩ := exists_plain v
  have hlast : last ≠ [] := fun hnil => h (hend.mp hnil)
  have hplenty : Plenty (plentiful H) := plenty_plentiful
  rw [(pieces_eq hv hplain hsep).2] at hfew
  have hroom : 0 + (segs.filter (· ≠ [])).length < 3 := by rwa [Nat.zero_add]
  obtain ⟨st', hpass⟩ := pass_addDns hplenty hroom
  have hcount : decide (st'.1 < 3) = true := by
    rw [pass_addDns_count hpass, Nat.zero_add, decide_eq_true hfew]
  obtain ⟨h', hadd⟩ := addDns_of_plenty hplenty last st'.2
  rw [h3cDns, inMemory_eq hv, hv, ← Nat.zero_add (closed SEMICOLON segs ++ last).length]
  exact eachSegment_overruns hplain hnul hsep hlast hpass hcount (congrArg Prod.snd hadd)

/-- `ROUTES` is parsed from its value alone exactly when that is empty or ends with a semicolon;
`DNS` also when it has three segments with a semicolon behind each. -/
theorem headers_exact (v : CString) (behind : Bytes) (st : ParseState H) :
    ((∀ heap, RoutesExact heap v behind st) ↔ Terminated v) ∧
      ((∀ heap, DnsExact heap v behind st) ↔
        Terminated v ∨ 3 ≤ (terminatedPieces v.bytes).length) := by
  constructor
  · constructor
    · intro h
      apply Classical.byContradiction
      intro hnot
      have := (h (plentiful H)).within _ (routes_overrun hnot)
      omega
    · exact fun h heap => routesExact_of_terminated h
  · constructor
    · intro h
      apply Classical.byContradiction
      intro hnot
      rw [not_or, Nat.not_le] at hnot
      have := (h (plentiful H)).within _ (dns_overrun hnot.1 hnot.2)
      omega
    · exact fun h heap => dnsExact_of_terminated h

/-- The value `a`: the loop for `ROUTES` reads a byte of what happens to lie behind it. -/
theorem routes_of_a : ¬ ∀ heap : Heap Unit,
    RoutesExact heap ⟨[97], by decide⟩ [98, NUL] ⟨[], fun _ => none, ()⟩ := by
  intro h
  have hnot : ¬ Terminated ⟨[97], by decide⟩ := by simp [Terminated, SEMICOLON]
  have hover := (h (plentiful Unit)).within _ (routes_overrun hnot)
  simp at hover

end Exact

end InodeVpn.Proofs.HeaderScan
