import InodeVpn.Proofs.ManagementPlane
import InodeVpn.Proofs.RouteLeaks
import InodeVpn.Routectl.Main

namespace InodeVpn.Proofs.Forwarding
open Lib Routectl Routectl.Linux LinuxRoutes RouteLeaks
open ManagementPlane (online)

section Spares
variable {D : Type} {d : D} {dev : String} {phys : PhysicalState} {h h' h'' : Host D}

/-- An entry that goes over a device. -/
def Over (dev : String) (T : Table D Hop) (d : D) : Prop := ∃ hop, T d = some hop ∧ hop.dev = dev

/-- From `h` to `h'` the entry of a destination stays, and no physical path is filed but one. -/
structure Spares (d : D) (phys : PhysicalState) (h h' : Host D) : Prop where
  table : h'.table d = h.table d
  files : ∀ path saved, h'.files path = some saved → h.files path = some saved ∨ saved = phys

theorem Spares.refl (h : Host D) : Spares d phys h h := ⟨rfl, fun _ _ => Or.inl⟩

theorem Spares.trans (first : Spares d phys h h') (second : Spares d phys h' h'') :
    Spares d phys h h'' where
  table := second.table.trans first.table
  files path saved hsaved := (second.files path saved hsaved).elim (first.files path saved) Or.inr

theorem Spares.over (h₀ : Spares d phys h h') (hover : ¬ Over dev h.table d) :
    ¬ Over dev h'.table d := by
  rintro ⟨hop, hentry, hdev⟩
  exact hover ⟨hop, h₀.table.symm.trans hentry, hdev⟩

/-- A script does so however it ends, with an entry that does not go over `dev`. -/
def Sparing {α : Type} (d : D) (dev : String) (phys : PhysicalState) (x : Script D α) : Prop :=
  ∀ h : Host D, ¬ Over dev h.table d → Spares d phys h (left (x h))

variable {α β : Type} {x : Script D α}

theorem Sparing.bind {f : α → Script D β} (hx : Sparing d dev phys x)
    (hf : ∀ a, Sparing d dev phys (f a)) : Sparing d dev phys (x >>= f) := by
  intro h hover
  have hfirst := hx h hover
  cases hrun : x h with
  | ok a h' =>
    rw [hrun] at hfirst
    rw [bind_of_ok hrun]
    exact hfirst.trans (hf a h' (hfirst.over hover))
  | error e h' =>
    rw [hrun] at hfirst
    rw [bind_of_error hrun]
    exact hfirst

theorem sparing_pure (a : α) : Sparing d dev phys (pure a : Script D α) := fun h _ => .refl h

theorem sparing_forM {l : List α} {f : α → Script D Unit}
    (hf : ∀ a ∈ l, Sparing d dev phys (f a)) : Sparing d dev phys (l.forM f) := by
  induction l with
  | nil => exact sparing_pure ()
  | cons a l ih =>
    exact (hf a List.mem_cons_self).bind fun _ => ih fun b hb => hf b (List.mem_cons_of_mem a hb)

theorem sparing_setFile {path : String} {contents : Option PhysicalState}
    (hcontents : ∀ saved, contents = some saved → saved = phys) :
    Sparing d dev phys (modify (setFile path contents)) := by
  intro h _
  refine ⟨rfl, fun path' saved hsaved => ?_⟩
  change Function.update h.files path contents path' = some saved at hsaved
  by_cases hpath : path' = path
  · rw [hpath, Function.update_self] at hsaved
    exact Or.inr (hcontents saved hsaved)
  · rw [Function.update_of_ne hpath] at hsaved
    exact Or.inl hsaved

theorem Sparing.ignoring {x : Script D Unit} (hx : Sparing d dev phys x) :
    Sparing d dev phys (ignoring x) := by
  intro h hover
  have hleft := hx h hover
  unfold Linux.ignoring
  cases hrun : x h with
  | ok _ h' => rwa [hrun] at hleft
  | error e h' => rwa [hrun] at hleft

end Spares

section Commands
variable {D : Type} [DecidableEq D] {destination : String → Option D} {kernel : Kernel D}
  {own : String → D → Prop} {d : D} {phys : PhysicalState} {o : Outside} {plan : RoutePlan}

/-- The device of an address or a link. -/
def device : IpCommand → Option String
  | .addrReplace _ dev => some dev
  | .linkUp dev => some dev
  | .linkDown dev => some dev
  | .linkMtu dev _ => some dev
  | _ => none

/-- By itself the kernel takes away or puts back routes over the device whose address or link is
set, and the routes to the networks of that device's own addresses. -/
def Confined (own : String → D → Prop) (kernel : Kernel D) : Prop :=
  ∀ n command dev T d, device command = some dev → ¬ own dev d → ¬ Over dev T d →
    kernel n command T d = T d

/-- A command neither names the destination nor sets another device than `dev`. -/
def Avoids (destination : String → Option D) (dev : String) (d : D) : IpCommand → Prop
  | .routeReplace dst _ => destination dst ≠ some d
  | .routeDel dst _ => destination dst ≠ some d
  | command => device command = some dev

theorem sparing_run {command : IpCommand} {dev : String} (hkernel : Confined own kernel)
    (hown : ¬ own dev d) (havoids : Avoids destination dev d command) :
    Sparing d dev phys (run ⟨destination, kernel⟩ o command) := by
  intro h hover
  have hcounted : Spares d phys h { h with ran := h.ran + 1 } := ⟨rfl, fun _ _ => Or.inl⟩
  unfold run
  cases hfail : o.failure h.ran with
  | some failure => exact hcounted
  | none =>
    cases command with
    | routeReplace dst hop =>
      simp only [IpCommand.exec]
      cases hdst : destination dst with
      | none => exact hcounted
      | some d' =>
        have hne : d ≠ d' := fun heq => havoids (hdst.trans (congrArg some heq.symm))
        exact ⟨Function.update_of_ne hne _ _, fun _ _ => Or.inl⟩
    | routeDel dst hop =>
      simp only [IpCommand.exec]
      cases hdst : destination dst with
      | none => exact hcounted
      | some d' =>
        have hne : d' ≠ d := fun heq => havoids (hdst.trans (congrArg some heq))
        cases hfits : (h.table d').any hop.fits with
        | false =>
          simp only [hfits]
          exact hcounted
        | true =>
          simp only [hfits, if_true]
          refine ⟨?_, fun _ _ => Or.inl⟩
          change h.table.remove d' hop.fits d = h.table d
          rw [Table.remove_apply, if_neg fun hboth => hne hboth.1]
    | _ => exact ⟨hkernel _ _ dev _ _ havoids hown hover, fun _ _ => Or.inl⟩

theorem sparing_execute {s : IpCommand × Bool} {dev : String} (hkernel : Confined own kernel)
    (hown : ¬ own dev d) (havoids : Avoids destination dev d s.1) :
    Sparing d dev phys (execute ⟨destination, kernel⟩ o s) := by
  obtain ⟨command, needed⟩ := s
  cases needed with
  | true => exact sparing_run hkernel hown havoids
  | false => exact (sparing_run hkernel hown havoids).ignoring

omit [DecidableEq D] in
theorem avoids_planned (hd : d ∉ destinations destination plan phys) {r : String × Hop}
    (hr : r ∈ planned plan phys) : destination r.1 ≠ some d :=
  fun heq => hd (mem_destinations hr heq)

omit [DecidableEq D] in
/-- The tun's address and link. -/
theorem avoids_tun : ∀ s ∈ tunSteps plan ++ mtuSteps plan,
    Avoids destination plan.tunIface d s.1 := by
  intro s hs
  simp only [tunSteps, mtuSteps, List.mem_append, Option.mem_toList, Option.map_eq_some_iff] at hs
  rcases hs with hs | ⟨mtu, -, rfl⟩
  · split at hs
    · simp only [List.mem_cons, List.not_mem_nil, or_false] at hs
      rcases hs with rfl | rfl <;> rfl
    · cases hs
  · rfl

omit [DecidableEq D] in
theorem avoids_steps (hd : d ∉ destinations destination plan phys) :
    ∀ s ∈ steps plan phys, Avoids destination plan.tunIface d s.1 := by
  intro s hs
  rcases List.mem_append.mp hs with hs | hs
  · exact avoids_tun s hs
  · obtain ⟨r, hr, rfl⟩ := List.mem_map.mp hs
    exact avoids_planned hd hr

theorem sparing_connect (hkernel : Confined own kernel) (hown : ¬ own plan.tunIface d)
    (hd : d ∉ destinations destination plan (.discover o plan)) :
    Sparing d plan.tunIface (.discover o plan) (connect ⟨destination, kernel⟩ o plan) := by
  rw [connect_eq]
  refine .bind ?_ fun _ => .bind ?_ fun _ => ?_
  · unfold saveState
    cases o.stateWrite with
    | done => exact sparing_setFile fun _ hsome => (Option.some.inj hsome).symm
    | unopened => exact fun h _ => .refl h
    | torn => exact sparing_setFile fun _ hnone => by cases hnone
  · exact sparing_forM fun s hs => sparing_execute hkernel hown (avoids_steps hd s hs)
  · intro h _
    obtain ⟨r, hdns⟩ := applyDns_ok o plan h
    rw [hdns]
    exact ⟨rfl, fun _ _ => Or.inl⟩

theorem spares_disconnect {h : Host D} (hkernel : Confined own kernel)
    (hown : ¬ own plan.tunIface d) (hover : ¬ Over plan.tunIface h.table d)
    (hd : d ∉ destinations destination plan (recalled o plan h)) :
    Spares d phys h (left (disconnect ⟨destination, kernel⟩ o plan h)) := by
  rw [disconnect_eq]
  have hscript : Sparing d plan.tunIface phys (do
      (deletions plan (recalled o plan h)).forM fun r => delete ⟨destination, kernel⟩ o r.1 r.2
      tunDown ⟨destination, kernel⟩ o plan
      revertDns plan
      modify (setFile (statePath o plan) none) : Script D Unit) := by
    refine .bind ?_ fun _ => .bind ?_ fun _ => .bind ?_ fun _ => ?_
    · refine sparing_forM fun r hr => (sparing_run hkernel hown ?_).ignoring
      have hr' : r ∈ planned plan (recalled o plan h) := by
        rw [planned, List.mem_append, or_comm, ← List.mem_append]
        exact hr
      exact avoids_planned hd hr'
    · unfold tunDown
      split
      · have havoids : Avoids destination plan.tunIface d (.linkDown plan.tunIface) := rfl
        exact (sparing_run hkernel hown havoids).ignoring
      · exact sparing_pure ()
    · exact fun h _ => ⟨rfl, fun _ _ => Or.inl⟩
    · exact sparing_setFile fun _ hnone => by cases hnone
  exact hscript h hover

end Commands

section Sessions
variable {D : Type} [DecidableEq D] {destination : String → Option D} {kernel : Kernel D}
  {own : String → D → Prop} {d : D} {known : PhysicalState → Prop} {h : Host D}

omit [DecidableEq D] in
/-- The path that a disconnect goes by is one that it finds filed or discovers. -/
theorem recalled_known {o : Outside} {plan : RoutePlan}
    (hfiles : ∀ path saved, h.files path = some saved → known saved)
    (hdiscover : known (.discover o plan)) : known (recalled o plan h) := by
  unfold recalled loadState
  cases hfile : h.files (statePath o plan) with
  | none => exact hdiscover
  | some saved =>
    simp only [Option.getD_some]
    split
    · exact hfiles _ _ hfile
    · exact hdiscover

/-- A plan, over the physical paths that are known, has nothing to do with a destination. -/
structure Leaves (destination : String → Option D) (own : String → D → Prop)
    (known : PhysicalState → Prop) (T : Table D Hop) (d : D) (plan : RoutePlan) : Prop where
  named : ∀ phys, known phys → d ∉ destinations destination plan phys
  own : ¬ own plan.tunIface d
  unrouted : ¬ Over plan.tunIface T d

theorem spares_apply {o : Outside} {plan : RoutePlan} (hkernel : Confined own kernel)
    (hfiles : ∀ path saved, h.files path = some saved → known saved)
    (hdiscover : known (.discover o plan)) (hd : Leaves destination own known h.table d plan) :
    Spares d (.discover o plan) h (left (apply ⟨destination, kernel⟩ o plan h)) := by
  by_cases hup : plan.isUpPhase = true
  · rw [apply_up hup]
    exact sparing_connect hkernel hd.own (hd.named _ hdiscover) h hd.unrouted
  · by_cases hdown : plan.reason = "disconnect"
    · simp only [apply, hdown]
      exact spares_disconnect hkernel hd.own hd.unrouted
        (hd.named _ (recalled_known hfiles hdiscover))
    · rw [apply_other (Bool.eq_false_iff.mpr hup) hdown]
      exact .refl h

/-- A call gets to work by a plan. -/
def Plans (inv : Invocation) (plan : RoutePlan) : Prop :=
  isDryRun inv.environ = false ∧
    ∃ reason, inv.reason = some reason ∧ RoutePlan.fromEnv reason inv.environ = .ok plan

theorem main_left {ip : Ip D} {inv : Invocation} {reason : String}
    (hreason : inv.reason = some reason) (h : Host D) : (main ip inv h).2 =
      left (runPhase ip inv.outside inv.environ reason { h with ran := 0 }) := by
  unfold main
  rw [hreason]
  cases hrun : runPhase ip inv.outside inv.environ reason { h with ran := 0 } with
  | ok out h' => simp only [hrun, left]
  | error e h' => simp only [hrun, left]

/-- A call works by a plan, or leaves the machine as it is. -/
theorem main_cases (ip : Ip D) (inv : Invocation) (h : Host D) :
    (∃ plan, Plans inv plan ∧
      (main ip inv h).2 = left (apply ip inv.outside plan { h with ran := 0 })) ∨
    (main ip inv h).2 = h ∨ (main ip inv h).2 = { h with ran := 0 } := by
  cases hreason : inv.reason with
  | none =>
    refine Or.inr (Or.inl ?_)
    rw [main, hreason]
  | some reason =>
    rw [main_left hreason]
    unfold runPhase
    split
    · exact Or.inr (Or.inr rfl)
    cases hplan : RoutePlan.fromEnv reason inv.environ with
    | error e => exact Or.inr (Or.inr rfl)
    | ok plan =>
      cases hdry : isDryRun inv.environ with
      | true => exact Or.inr (Or.inr rfl)
      | false =>
        refine Or.inl ⟨plan, ⟨hdry, reason, hreason, hplan⟩, ?_⟩
        simp only [Bool.false_eq_true, if_false]
        cases happly : apply ip inv.outside plan { h with ran := 0 } with
        | ok _ h' =>
          rw [bind_of_ok happly]
          rfl
        | error e h' =>
          rw [bind_of_error happly]
          rfl

/-- What is known after a call is what was, or what the call has discovered by its plan. -/
theorem spares_main {inv : Invocation} (hkernel : Confined own kernel)
    (hfiles : ∀ path saved, h.files path = some saved → known saved)
    (hplans : ∀ plan, Plans inv plan → known (.discover inv.outside plan) ∧
      Leaves destination own known h.table d plan) :
    (main ⟨destination, kernel⟩ inv h).2.table d = h.table d ∧
      ∀ path saved, (main ⟨destination, kernel⟩ inv h).2.files path = some saved → known saved := by
  rcases main_cases ⟨destination, kernel⟩ inv h with ⟨plan, hplan, hmain⟩ | hmain | hmain
  · obtain ⟨hdiscover, hd⟩ := hplans plan hplan
    have hspares := spares_apply (h := { h with ran := 0 }) hkernel hfiles hdiscover hd
    rw [hmain]
    refine ⟨hspares.table, fun path saved hsaved => ?_⟩
    rcases hspares.files path saved hsaved with hold | rfl
    · exact hfiles path saved hold
    · exact hdiscover
  · rw [hmain]
    exact ⟨rfl, hfiles⟩
  · rw [hmain]
    exact ⟨rfl, hfiles⟩

/-- A call of the program, and what the kernel does during it. -/
structure Call (D : Type) extends Invocation where
  kernel : Kernel D

variable (destination) in
/-- Some calls of the program, one after another. -/
def invocations (h : Host D) (calls : List (Call D)) : Host D :=
  calls.foldl (fun h call => (main ⟨destination, call.kernel⟩ call.toInvocation h).2) h

theorem invocations_spare {calls : List (Call D)}
    (hkernel : ∀ call ∈ calls, Confined own call.kernel)
    (hfiles : ∀ path saved, h.files path = some saved → known saved)
    (hplans : ∀ call ∈ calls, ∀ plan, Plans call.toInvocation plan →
      known (.discover call.outside plan) ∧ Leaves destination own known h.table d plan) :
    (invocations destination h calls).table d = h.table d := by
  induction calls generalizing h with
  | nil => rfl
  | cons call calls ih =>
    obtain ⟨htable, hfiles'⟩ := spares_main (hkernel call List.mem_cons_self) hfiles
      (hplans call List.mem_cons_self)
    refine (ih (fun call hcall => hkernel call (List.mem_cons_of_mem _ hcall)) hfiles'
      fun call hcall plan hplan => ?_).trans htable
    obtain ⟨hdiscover, hd⟩ := hplans call (List.mem_cons_of_mem _ hcall) plan hplan
    refine ⟨hdiscover, hd.named, hd.own, ?_⟩
    rw [Over, htable]
    exact hd.unrouted

/-- A physical path that was filed before some calls, or that one of them discovers. -/
def Known (files : String → Option PhysicalState) (calls : List (Call D))
    (phys : PhysicalState) : Prop :=
  (∃ path, files path = some phys) ∨
    ∃ call ∈ calls, ∃ plan, Plans call.toInvocation plan ∧ phys = .discover call.outside plan

end Sessions

section Addresses
variable {w : Nat} {destination : String → Option (Prefix w)} {kernel : Kernel (Prefix w)}
  {own : String → Prefix w → Prop} {h h' : Host (Prefix w)} {a : BitVec w}

/-- Whatever the calls of routectl are for, in any order and however each of them ends, even in the
middle: an address is forwarded as before if it is in none of their plans' networks, and in none
that their tun devices have an address in or had a route to. -/
theorem unrelated_traffic (calls : List (Call (Prefix w)))
    (hkernel : ∀ call ∈ calls, Confined own call.kernel)
    (hfar : ∀ call ∈ calls, ∀ plan, Plans call.toInvocation plan → ∀ net, net.contains a = true →
      Leaves destination own (Known h.files calls) h.table net plan) :
    (invocations destination h calls).table.forward a = h.table.forward a := by
  have hfiles : ∀ path saved, h.files path = some saved → Known h.files calls saved :=
    fun path saved hsaved => Or.inl ⟨path, hsaved⟩
  refine Table.forward_congr fun net hnet =>
    invocations_spare hkernel hfiles fun call hcall plan hplan => ?_
  exact ⟨Or.inr ⟨call, hcall, plan, hplan, rfl⟩, hfar call hcall plan hplan net hnet⟩

/-- What openconnect sets for one split route. -/
def environFor (reason addr : String) : Environ :=
  [("reason", reason), ("TUNDEV", "tun0"), ("VPNGATEWAY", "140.206.103.26"),
    ("INTERNAL_IP4_ADDRESS", "10.1.1.20"), ("INTERNAL_IP4_NETMASK", "24"),
    ("CISCO_SPLIT_INC", "1"), ("CISCO_SPLIT_INC_0_ADDR", addr),
    ("CISCO_SPLIT_INC_0_MASKLEN", "16")]

/-- The network of the tun's address. -/
def tunNet : Prefix 32 := subnet (Ipv4Addr.ofOctets 10 1 1 0)

/-- The kernel routes to the network of an address when the link goes up, and takes the routes over
the device away when it goes down. -/
def tunKernel : Kernel (Prefix 32)
  | _, .linkUp dev, T => if (T tunNet).isNone then T.replace tunNet ⟨none, dev⟩ else T
  | _, .linkDown dev, T => fun net => if (T net).any (·.dev = dev) then none else T net
  | _, _, T => T

theorem confined_tunKernel : Confined (fun _ net => net = tunNet) tunKernel := by
  intro n command dev T net hdevice hown hover
  unfold tunKernel
  split
  · split
    · exact Function.update_of_ne hown _ _
    · rfl
  · rename_i dev'
    cases hdevice
    refine if_neg fun hany => hover ?_
    obtain ⟨hop, hentry, hdev⟩ := Option.any_eq_true _ _ |>.mp hany
    exact ⟨hop, hentry, of_decide_eq_true hdev⟩
  · rfl

/-- A session at home, a connect of which one route is refused, and a call without a reason. -/
def calls : List (Call (Prefix 32)) :=
  [{ environ := environFor "connect" "10.8.0.0", outside := laptop, kernel := tunKernel },
    { environ := environFor "disconnect" "10.8.0.0", outside := laptop, kernel := tunKernel },
    { environ := environFor "connect" "10.8.0.1", outside := laptop, kernel := tunKernel },
    { environ := [], outside := laptop, kernel := tunKernel }]

/-- The plan of a call. -/
def planOf (inv : Invocation) : Option RoutePlan :=
  inv.reason.bind fun reason => (RoutePlan.fromEnv reason inv.environ).toOption

theorem Plans.planOf {inv : Invocation} {plan : RoutePlan} (h : Plans inv plan) :
    planOf inv = some plan := by
  obtain ⟨-, reason, hreason, hplan⟩ := h
  rw [Forwarding.planOf, hreason, Option.bind_some, hplan]
  rfl

/-- An address on the internet is forwarded over the default route throughout. -/
theorem unrelated_traffic_sample :
    (invocations Ipv4Addr.network online calls).table.forward (Ipv4Addr.ofOctets 8 8 8 8) =
      online.table.forward (Ipv4Addr.ofOctets 8 8 8 8) := by
  have hkernel : ∀ call ∈ calls, Confined (fun _ net => net = tunNet) call.kernel := by
    intro call hcall
    simp only [calls, List.mem_cons, List.not_mem_nil, or_false] at hcall
    rcases hcall with rfl | rfl | rfl | rfl <;> exact confined_tunKernel
  refine unrelated_traffic calls hkernel fun call hcall plan hplan net hnet => ?_
  have hfar : ((calls.filterMap fun call => planOf call.toInvocation).all fun plan =>
      decide (plan.tunIface = "tun0") && calls.all fun call =>
        (calls.filterMap fun call => planOf call.toInvocation).all fun plan' =>
          (destinations Ipv4Addr.network plan (.discover call.outside plan')).all fun net =>
            !net.contains (Ipv4Addr.ofOctets 8 8 8 8)) = true := by
    decide +kernel
  simp only [List.all_eq_true, Bool.and_eq_true, decide_eq_true_eq, Bool.not_eq_true'] at hfar
  have hplans : ∀ call ∈ calls, ∀ plan, Plans call.toInvocation plan →
      plan ∈ calls.filterMap fun call => planOf call.toInvocation :=
    fun call hcall plan hplan => List.mem_filterMap.mpr ⟨call, hcall, hplan.planOf⟩
  obtain ⟨htun, hnets⟩ := hfar plan (hplans call hcall plan hplan)
  constructor
  · rintro phys (⟨path, hfile⟩ | ⟨call', hcall', plan', hplan', rfl⟩) hmem
    · cases hfile
    · rw [hnets call' hcall' plan' (hplans call' hcall' plan' hplan') net hmem] at hnet
      cases hnet
  · rintro rfl
    revert hnet
    decide +kernel
  · rintro ⟨hop, hentry, hdev⟩
    rw [htun] at hdev
    simp only [online, Option.ite_none_right_eq_some, Option.some.injEq] at hentry
    obtain ⟨-, rfl⟩ := hentry
    exact absurd hdev (by decide)

/-- The networks that a plan routes over a physical path. -/
def routed (destination : String → Option (Prefix w)) (plan : RoutePlan) (phys : PhysicalState) :
    List (Prefix w) :=
  splitNets destination plan ++ kept destination plan phys

theorem kept_path {plan : RoutePlan} {phys : PhysicalState} {p : Prefix w}
    (hp : p ∈ kept destination plan phys) : (path phys).isSome = true := by
  cases hpath : path phys with
  | none => simp [kept, hpath] at hp
  | some hop => rfl

theorem mem_routed {plan : RoutePlan} {phys : PhysicalState} {p : Prefix w} :
    p ∈ (entries destination (planned plan phys)).map Prod.fst ↔
      p ∈ routed destination plan phys := by
  rw [← Table.last_isSome, last_planned, routed, List.mem_append]
  by_cases hsplit : p ∈ splitNets destination plan
  · simp [hsplit]
  · by_cases hkept : p ∈ kept destination plan phys
    · simp [hsplit, hkept, kept_path hkept]
    · simp [hsplit, hkept]

/-- A connect that succeeds installs the routes of its plan in the table that the kernel has left
when the tun was set up. -/
theorem connect_reacted {o : Outside} {plan : RoutePlan} (hkernel : Confined own kernel)
    (hok : connect ⟨destination, kernel⟩ o plan h = .ok () h') :
    ∃ T : Table (Prefix w) Hop,
      (∀ d, ¬ own plan.tunIface d → ¬ Over plan.tunIface h.table d → T d = h.table d) ∧
        h'.table = T.installAll (entries destination (planned plan (.discover o plan))) := by
  obtain ⟨h₁, hsave, htable, -⟩ := saveState_ok o plan (.discover o plan) h
  rw [connect_eq, bind_of_ok hsave] at hok
  obtain ⟨_, h₃, hsteps, hrest⟩ := ok_of_bind hok
  obtain ⟨r, hdns⟩ := applyDns_ok o plan h₃
  cases hdns.symm.trans hrest
  rw [steps, List.forM_eq_forM, List.forM_append] at hsteps
  obtain ⟨_, h₂, htun, hadd⟩ := ok_of_bind hsteps
  have hadds : ∀ s ∈ (planned plan (.discover o plan)).map addition, Adds kernel s.1 := by
    intro s hs
    obtain ⟨route, -, rfl⟩ := List.mem_map.mp hs
    trivial
  have hinstalled := steps_left destination o h₂ hadds
  have hall := carriedOut_of_ok hadds (fun s hs hneeded => ?_) hadd
  · rw [hall, additions_places, List.forM_eq_forM, hadd] at hinstalled
    refine ⟨h₂.table, fun d hown hover => ?_, hinstalled.table⟩
    have hsparing : Sparing d plan.tunIface {}
        ((tunSteps plan ++ mtuSteps plan).forM (execute ⟨destination, kernel⟩ o)) :=
      sparing_forM fun s hs => sparing_execute hkernel hown (avoids_tun s hs)
    have hspares := hsparing h₁ (htable ▸ hover)
    rw [List.forM_eq_forM, htun] at hspares
    exact hspares.table.trans (congrFun htable d)
  · obtain ⟨route, -, rfl⟩ := List.mem_map.mp hs
    cases hneeded

/-- An address in none of the networks that a tun has an address in or a route to. -/
def Clear (own : String → Prefix w → Prop) (dev : String) (T : Table (Prefix w) Hop)
    (a : BitVec w) : Prop :=
  ∀ net, net.contains a = true → ¬ own dev net ∧ ¬ Over dev T net

/-- Where a connect that succeeds sends every address. One that is in a network of the plan goes
by the longest of them, through the tun if that is a split route, else by the physical path, unless
a longer network had a route or is the tun's own; and where the tun had no other part in it, that
longer route keeps it, and an address in no network of the plan goes where it went. -/
theorem connect_forwards {o : Outside} {plan : RoutePlan} (hkernel : Confined own kernel)
    (hok : connect ⟨destination, kernel⟩ o plan h = .ok () h') (a : BitVec w) :
    (Clear own plan.tunIface h.table a →
      (∀ p ∈ routed destination plan (.discover o plan), p.contains a = false) →
        h'.table.forward a = h.table.forward a) ∧
    ∀ p ∈ routed destination plan (.discover o plan), p.contains a = true →
      (∀ q ∈ routed destination plan (.discover o plan), q.contains a = true → q.len ≤ p.len) →
      (Clear own plan.tunIface h.table a →
        (∃ q, q.contains a = true ∧ p.len < q.len ∧ h.table q ≠ none) →
          h'.table.forward a = h.table.forward a) ∧
      ((∀ q, q.contains a = true → p.len < q.len →
          h.table q = none ∧ ¬ own plan.tunIface q) →
        h'.table.forward a = if p ∈ splitNets destination plan then some ⟨none, plan.tunIface⟩
          else path (.discover o plan)) := by
  obtain ⟨T, hT, htable⟩ := connect_reacted hkernel hok
  have hclear (hfar : Clear own plan.tunIface h.table a) : T.forward a = h.table.forward a :=
    Table.forward_congr fun net hnet => hT net (hfar net hnet).1 (hfar net hnet).2
  rw [htable]
  refine ⟨fun hfar hnone => .trans (Table.forward_congr fun p hp => ?_) (hclear hfar),
    fun p hmem hp hlongest => ?_⟩
  · have hnew : Table.last (entries destination (planned plan (.discover o plan))) p = none := by
      refine Table.last_eq_none.mpr fun hmem => ?_
      rw [hnone p (mem_routed.mp hmem)] at hp
      cases hp
    rw [Table.installAll_apply, hnew, Option.none_or]
  · have hentries : ∀ q ∈ (entries destination (planned plan (.discover o plan))).map Prod.fst,
        q.contains a = true → q.len ≤ p.len := fun q hq => hlongest q (mem_routed.mp hq)
    constructor
    · rintro hfar ⟨q, hq, hlt, hold⟩
      rw [← hT q (hfar q hq).1 (hfar q hq).2] at hold
      exact (Table.forward_installAll_of_longer hentries hq hlt hold).trans (hclear hfar)
    · intro hshort
      have hnone : ∀ q, q.contains a = true → p.len < q.len → T q = none := by
        intro q hq hlt
        obtain ⟨hold, hown⟩ := hshort q hq hlt
        have hover : ¬ Over plan.tunIface h.table q := by
          rintro ⟨hop, hentry, -⟩
          cases hold.symm.trans hentry
        exact (hT q hown hover).trans hold
      obtain ⟨hop, hhop⟩ := Option.isSome_iff_exists.mp
        (Table.last_isSome.mpr (mem_routed.mpr hmem))
      rw [Table.forward_installAll hp hhop hentries hnone, ← hhop, last_planned]
      split
      · rfl
      · rename_i hsplit
        rw [if_pos ((List.mem_append.mp hmem).resolve_left hsplit)]

/-- The machine after a connect at home. -/
def connected : Host (Prefix 32) :=
  left (connect ⟨Ipv4Addr.network, tunKernel⟩ laptop (planFor "10.8.0.0/16") online)

/-- An address in a split route's network, under a default route; and one in the tun's own. -/
theorem connect_forwards_sample :
    connected.table.forward (Ipv4Addr.ofOctets 10 8 1 1) = some ⟨none, "tun0"⟩ ∧
      connected.table.forward (Ipv4Addr.ofOctets 10 1 1 77) = some ⟨none, "tun0"⟩ := by
  have hok := eq_ok_of_isOk (r := connect ⟨Ipv4Addr.network, tunKernel⟩ laptop
    (planFor "10.8.0.0/16") online) (by decide +kernel)
  obtain ⟨-, hlongest⟩ := connect_forwards confined_tunKernel hok (Ipv4Addr.ofOctets 10 8 1 1)
  have hsplit : Prefix.of (Ipv4Addr.ofOctets 10 8 0 0) 16 (by decide) ∈
      splitNets Ipv4Addr.network (planFor "10.8.0.0/16") := by
    decide +kernel
  have hall : ((routed Ipv4Addr.network (planFor "10.8.0.0/16")
      (.discover laptop (planFor "10.8.0.0/16"))).all fun q =>
        !q.contains (Ipv4Addr.ofOctets 10 8 1 1) || decide (q.len ≤ 16)) = true := by
    decide +kernel
  have hmost : ∀ q ∈ routed Ipv4Addr.network (planFor "10.8.0.0/16")
      (.discover laptop (planFor "10.8.0.0/16")),
        q.contains (Ipv4Addr.ofOctets 10 8 1 1) = true → q.len ≤ 16 := by
    intro q hq hin
    have hshort := List.all_eq_true.mp hall q hq
    rw [hin] at hshort
    exact of_decide_eq_true hshort
  obtain ⟨-, hforward⟩ := hlongest _ (List.mem_append_left _ hsplit) (by decide +kernel) hmost
  refine ⟨?_, by decide +kernel⟩
  unfold connected
  rw [hforward fun q hq hlt => ⟨if_neg (Nat.ne_of_gt (Nat.lt_of_le_of_lt (Nat.zero_le _) hlt)), ?_⟩,
    if_pos hsplit]
  · rfl
  · rintro rfl
    revert hq
    decide +kernel

end Addresses

end InodeVpn.Proofs.Forwarding
