import InodeVpn.Fork.Receive
import InodeVpn.Lib.Ipv4
import InodeVpn.Lib.Masks

namespace InodeVpn.Fork
open Lib
open Wire (Bytes)

/-- What a loop over memory leaves: the offsets it has read, in order, and its value, which
is missing after a read past the end of what is mapped. -/
structure Walk (α : Type) where
  reads : List Nat
  value : Option α

/-- The byte that ends a C string. -/
def NUL : UInt8 := 0

/-- `';'` -/
def SEMICOLON : UInt8 := 59

/-- A C string: its bytes up to the NUL. -/
structure CString where
  bytes : Bytes
  noNul : NUL ∉ bytes

/-- Memory from where a string begins: its bytes, the NUL, and what happens to follow. -/
def CString.inMemory (v : CString) (behind : Bytes) : Bytes := v.bytes ++ NUL :: behind

/-- The inner loop over `scanpos`, from offset `pos` on: the bytes it steps over and the memory
that it stops at. -/
def scan (pos : Nat) : Bytes → Walk (Bytes × Bytes)
  | [] => ⟨[pos], none⟩
  | c :: mem =>
    if c ≠ NUL ∧ c ≠ SEMICOLON then
      let rest := scan (pos + 1) mem
      ⟨pos :: rest.reads, rest.value.map fun r => (c :: r.1, r.2)⟩
    else ⟨[pos], some ([], c :: mem)⟩

theorem scan_value {pos : Nat} {mem seg stop : Bytes}
    (h : (scan pos mem).value = some (seg, stop)) : mem = seg ++ stop := by
  induction mem generalizing pos seg with
  | nil => cases h
  | cons c mem ih =>
    unfold scan at h
    split at h
    · obtain ⟨r, hr, heq⟩ := Option.map_eq_some_iff.mp h
      cases heq
      rw [List.cons_append, ← ih hr]
    · cases h
      rfl

/-- The loop over `vp`, from offset `pos` on, as `ROUTES` and `DNS` have it. `more` is what its
head asks beside `*vp != 0`, and `store` what is done with a segment that is not empty; where
that fails for want of memory the function returns. -/
def eachSegment {σ : Type} (more : σ → Bool) (store : Bytes → σ → σ × Bool) (pos : Nat)
    (mem : Bytes) (st : σ) : Walk (Int × σ) :=
  match mem with
  | [] => ⟨[pos], none⟩
  | c :: tail =>
    if c = NUL ∨ more st = false then ⟨[pos], some (0, st)⟩
    else
      let inner := scan pos (c :: tail)
      match _h : inner.value with
      | none => ⟨pos :: inner.reads, none⟩
      | some (seg, stop) =>
        let next := if seg = [] then (st, true) else store seg st
        if next.2 then
          -- `vp = scanpos + 1`, whatever `scanpos` stopped at
          let rest := eachSegment more store (pos + seg.length + 1) stop.tail next.1
          ⟨pos :: inner.reads ++ rest.reads, rest.value⟩
        else ⟨pos :: inner.reads, some (-ENOMEM, next.1)⟩
  termination_by mem.length
  decreasing_by
    have hlength := congrArg List.length (scan_value _h)
    rw [List.length_append] at hlength
    rw [List.length_tail]
    simp only [List.length_cons] at hlength ⊢
    omega

/-- What the branches call outside the fork, on a state of their own that `parse_opts` is part
of: `add_option_dup`, whose answer, where it is not NULL, is a copy of the bytes, and `malloc`.
`false` is NULL. -/
structure Heap (H : Type) where
  addOptionDup : String → Bytes → H → H × Bool
  malloc : H → H × Bool

/-- The lists of `parse_ip_info` that these headers set. -/
structure ParseState (H : Type) where
  splitIncludes : List Bytes
  dns : Fin 3 → Option Bytes
  heap : H

/-- A segment of `ROUTES`: its copy, then a `struct oc_split_include` that is put in front. -/
def addRoute {H : Type} (heap : Heap H) (seg : Bytes) (st : ParseState H) :
    ParseState H × Bool :=
  let value := heap.addOptionDup "split-include" seg st.heap
  if value.2 then
    let route := heap.malloc value.1
    if route.2 then ({ st with splitIncludes := seg :: st.splitIncludes, heap := route.1 }, true)
    else ({ st with heap := route.1 }, false)
  else ({ st with heap := value.1 }, false)

/-- A segment of `DNS`, beside the count `n`. -/
def addDns {H : Type} (heap : Heap H) (seg : Bytes) (st : Nat × ParseState H) :
    (Nat × ParseState H) × Bool :=
  let value := heap.addOptionDup "DNS" seg st.2.heap
  if value.2 then
    let dns := fun i : Fin 3 => if i.val = st.1 then some seg else st.2.dns i
    ((st.1 + 1, { st.2 with dns := dns, heap := value.1 }), true)
  else ((st.1, { st.2 with heap := value.1 }), false)

/-- The branch for `ROUTES` of `h3c_get_vpn_param_from_headers`; `mem` is the memory that the
value `v` points to. -/
def h3cRoutes {H : Type} (heap : Heap H) (mem : Bytes) (st : ParseState H) :
    Walk (Int × ParseState H) :=
  eachSegment (fun _ => true) (addRoute heap) 0 mem st

/-- The branch for `DNS`. -/
def h3cDns {H : Type} (heap : Heap H) (mem : Bytes) (st : ParseState H) :
    Walk (Int × ParseState H) :=
  let walk := eachSegment (fun st : Nat × ParseState H => st.1 < 3) (addDns heap) 0 mem (0, st)
  ⟨walk.reads, walk.value.map fun r => (r.1, r.2.2)⟩

/-- `mask_addr.s_addr` in the branch for `SUBNETMASK`, in host order; missing where C does not
define the shift by this count. -/
def maskAddr (masklen : Int) : Option (BitVec 32) :=
  if masklen ≠ 0 then
    let count := 32 - masklen
    if 0 ≤ count then checkedShl (BitVec.allOnes 32) count.toNat else none
  else some 0#32  -- Shifting by 32 is invalid, so special-case it

/-- What `inet_ntop` puts into `abuf`. -/
def inetNtop (addr : BitVec 32) : Bytes := (Ipv4Addr.format addr).toByteArray.data.toList

/-- The netmask of `parse_ip_info`. -/
structure NetmaskState (H : Type) where
  netmask : Option Bytes
  heap : H

/-- The branch for `SUBNETMASK`, on what `atoi` makes of the value. -/
def h3cSubnetmask {H : Type} (heap : Heap H) (masklen : Int) (st : NetmaskState H) :
    Option (Int × NetmaskState H) :=
  (maskAddr masklen).map fun addr =>
    let value := heap.addOptionDup "netmask" (inetNtop addr) st.heap
    if value.2 then (0, { netmask := some (inetNtop addr), heap := value.1 })
    else (-ENOMEM, { st with heap := value.1 })

end InodeVpn.Fork
