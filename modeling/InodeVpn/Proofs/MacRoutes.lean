import InodeVpn.Routectl.MacOs
import Mathlib.Data.List.Basic

namespace InodeVpn.Proofs.MacRoutes
open Lib Routectl Routectl.MacOs

section Scripts
variable {D : Type} [DecidableEq D] {resolve : Target → Option D} {o : Outside}

/-- From `h` to `h'` a list of routes was added and no file touched. -/
structure Added (entries : List (D × String)) (h h' : Host D) : Prop where
  table : h'.table = h.table ++ entries
  added : h'.added = h.added ++ entries
  files : h'.files = h.files

/-- A script that adds a list of routes whenever it succeeds. -/
def Adds (x : Script D Unit) (entries : List (D × String)) : Prop :=
  ∀ h h', x h = .ok () h' → Added entries h h'

omit [DecidableEq D] in
theorem adds_pure : Adds (pure () : Script D Unit) [] := by
  rintro h h' ⟨⟩
  exact ⟨(List.append_nil _).symm, (List.append_nil _).symm, rfl⟩

omit [DecidableEq D] in
theorem adds_bind {x y : Script D Unit} {entries more : List (D × String)} (hx : Adds x entries)
    (hy : Adds y more) : Adds (do x; y) (entries ++ more) := by
  intro h h' hok
  obtain ⟨_, h₁, hfirst, hrest⟩ := ok_of_bind hok
  have first := hx _ _ hfirst
  have second := hy _ _ hrest
  refine ⟨?_, ?_, second.files.trans first.files⟩
  · rw [second.table, first.table, List.append_assoc]
  · rw [second.added, first.added, List.append_assoc]

omit [DecidableEq D] in
theorem adds_forM {α : Type} {l : List α} {f : α → Script D Unit} {g : α → List (D × String)}
    (hf : ∀ a ∈ l, Adds (f a) (g a)) : Adds (l.forM f) (l.flatMap g) := by
  induction l with
  | nil => exact adds_pure
  | cons a l ih =>
    exact adds_bind (hf a List.mem_cons_self) (ih fun b hb => hf b (List.mem_cons_of_mem a hb))

/-- The route to a target. -/
def entry (resolve : Target → Option D) (target : Target) (gateway : String) : List (D × String) :=
  ((resolve target).map (·, gateway)).toList

omit [DecidableEq D] in
theorem mem_entry {target : Target} {gateway : String} {e : D × String} :
    e ∈ entry resolve target gateway ↔ resolve target = some e.1 ∧ gateway = e.2 := by
  obtain ⟨d, gw⟩ := e
  simp [entry]

theorem adds_add (target : Target) (gateway : String) :
    Adds (run resolve o (.add target gateway)) (entry resolve target gateway) := by
  intro h h' hok
  simp only [run, Command.exec] at hok
  split at hok
  · cases hok
  · cases hd : resolve target with
    | none => simp [hd] at hok
    | some d =>
      simp only [hd] at hok
      cases hok
      exact ⟨by simp [entry, hd], by simp [entry, hd], rfl⟩

theorem adds_tunUp {iface ip netmask : String} {mtu : Option Nat} :
    Adds (run resolve o (.tunUp iface ip netmask mtu)) [] := by
  intro h h' hok
  simp only [run, Command.exec] at hok
  split at hok
  · cases hok
  · cases hok
    exact ⟨(List.append_nil _).symm, (List.append_nil _).symm, rfl⟩

theorem adds_net (gateway cidr : String) :
    Adds (addNet resolve o gateway cidr) (entry resolve (netOf cidr) gateway) := by
  intro h h' hok
  obtain ⟨⟨net, mask⟩, h₁, hsplit, hrun⟩ := ok_of_bind hok
  cases hcidr : splitCidr cidr with
  | error e =>
    rw [hcidr] at hsplit
    cases hsplit
  | ok parts =>
    rw [hcidr] at hsplit
    cases hsplit
    simp only [netOf, hcidr]
    exact adds_add _ _ _ _ hrun

theorem adds_configureTun (plan : RoutePlan) : Adds (configureTun resolve o plan) [] := by
  unfold configureTun
  split
  · exact adds_tunUp
  · exact adds_pure

/-- The routes of a plan by their kinds: to the VPN gateway, to the local address and the
preserved networks, and to the split networks. -/
def controlEntries (resolve : Target → Option D) (plan : RoutePlan) (phys : PhysicalState) :
    List (D × String) :=
  phys.gateway.elim [] fun physGw =>
    plan.vpnGateway.elim [] fun gw => entry resolve (.host gw) physGw

def managementEntries (resolve : Target → Option D) (plan : RoutePlan) (phys : PhysicalState) :
    List (D × String) :=
  phys.gateway.elim [] fun physGw =>
    (phys.localIp.elim [] fun ip => entry resolve (.host ip) physGw) ++
      plan.preserveCidrs.flatMap fun cidr => entry resolve (netOf cidr) physGw

def splitEntries (resolve : Target → Option D) (plan : RoutePlan) : List (D × String) :=
  plan.tunIp.elim [] fun tunIp =>
    plan.splitRoutes.flatMap fun cidr => entry resolve (netOf cidr) tunIp

theorem adds_keepControlPath (plan : RoutePlan) (phys : PhysicalState) :
    Adds (keepControlPath resolve o plan phys) (controlEntries resolve plan phys) := by
  cases hgw : phys.gateway <;> cases hvpn : plan.vpnGateway <;>
    simp only [keepControlPath, controlEntries, hgw, hvpn, Option.elim]
  all_goals first | exact adds_pure | exact adds_add _ _

theorem adds_protectManagement (plan : RoutePlan) (phys : PhysicalState) :
    Adds (protectManagement resolve o plan phys) (managementEntries resolve plan phys) := by
  cases hgw : phys.gateway with
  | none =>
    simp only [protectManagement, managementEntries, hgw, Option.elim]
    exact adds_pure
  | some physGw =>
    simp only [protectManagement, managementEntries, hgw, Option.elim]
    have hpreserve : Adds (plan.preserveCidrs.forM (addNet resolve o physGw)) _ :=
      adds_forM fun cidr _ => adds_net physGw cidr
    cases phys.localIp with
    | none => exact hpreserve
    | some ip => exact adds_bind (adds_add _ _) hpreserve

theorem adds_addSplitRoutes (plan : RoutePlan) :
    Adds (addSplitRoutes resolve o plan) (splitEntries resolve plan) := by
  cases hip : plan.tunIp with
  | none =>
    simp only [addSplitRoutes, splitEntries, hip, Option.elim]
    exact adds_pure
  | some ip =>
    simp only [addSplitRoutes, splitEntries, hip, Option.elim]
    exact adds_forM fun cidr _ => adds_net ip cidr

omit [DecidableEq D] in
theorem adds_applyDns (plan : RoutePlan) (phys : PhysicalState) :
    Adds (applyDns o plan phys : Script D Unit) [] := by
  unfold applyDns
  split
  · rintro h h' ⟨⟩
    exact ⟨(List.append_nil _).symm, (List.append_nil _).symm, rfl⟩
  · exact adds_pure

/-- The routes of a plan. -/
def additions (resolve : Target → Option D) (plan : RoutePlan) (phys : PhysicalState) :
    List (D × String) :=
  controlEntries resolve plan phys ++ managementEntries resolve plan phys ++
    splitEntries resolve plan

/-- A connect that succeeds has added the routes of its plan and filed the physical path. -/
theorem connect_ok {plan : RoutePlan} {h h' : Host D}
    (hok : connect resolve o plan h = .ok () h') :
    h'.table = h.table ++ additions resolve plan (discover o plan) ∧
      h'.added = h.added ++ additions resolve plan (discover o plan) ∧
      (o.stateWrite = .done →
        h'.files = Function.update h.files (statePath o plan) (some (discover o plan))) := by
  obtain ⟨_, h₁, hsave, hbody⟩ := ok_of_bind hok
  have hsaved : h₁.table = h.table ∧ h₁.added = h.added ∧ (o.stateWrite = .done →
      h₁.files = Function.update h.files (statePath o plan) (some (discover o plan))) := by
    cases hsave
    cases o.stateWrite <;> simp [setFile]
  have hadds : Adds (do
      configureTun resolve o plan
      keepControlPath resolve o plan (discover o plan)
      protectManagement resolve o plan (discover o plan)
      addSplitRoutes resolve o plan
      applyDns o plan (discover o plan)) _ := adds_bind (adds_configureTun plan)
    (adds_bind (adds_keepControlPath plan (discover o plan))
      (adds_bind (adds_protectManagement plan (discover o plan))
        (adds_bind (adds_addSplitRoutes plan) (adds_applyDns plan (discover o plan)))))
  obtain ⟨htable, hadded, hfiles⟩ := hadds _ _ hbody
  obtain ⟨htable₁, hadded₁, hfiles₁⟩ := hsaved
  have hlist : [] ++ (controlEntries resolve plan (discover o plan) ++
      (managementEntries resolve plan (discover o plan) ++ (splitEntries resolve plan ++ []))) =
        additions resolve plan (discover o plan) := by
    simp only [List.nil_append, List.append_nil, additions, List.append_assoc]
  rw [hlist] at htable hadded
  exact ⟨htable₁ ▸ htable, hadded₁ ▸ hadded, fun hdone => hfiles.trans (hfiles₁ hdone)⟩

/-- From `h` to `h'` the routes to some destinations were deleted. -/
structure Dropped (gone : List D) (h h' : Host D) : Prop where
  table : h'.table = h.table.filter fun e => e.1 ∉ gone
  added : h'.added = h.added

/-- A script that succeeds and deletes the routes to some destinations. -/
def Drops (x : Script D Unit) (gone : List D) : Prop :=
  ∀ h, ∃ h', x h = .ok () h' ∧ Dropped gone h h'

theorem drops_pure : Drops (pure () : Script D Unit) [] :=
  fun h => ⟨h, rfl, by simp, rfl⟩

theorem drops_bind {x y : Script D Unit} {gone more : List D} (hx : Drops x gone)
    (hy : Drops y more) : Drops (do x; y) (gone ++ more) := by
  intro h
  obtain ⟨h₁, hfirst, first⟩ := hx h
  obtain ⟨h₂, hrest, second⟩ := hy h₁
  refine ⟨h₂, (bind_of_ok hfirst).trans hrest, ?_, second.added.trans first.added⟩
  rw [second.table, first.table, List.filter_filter]
  simp [not_or, Bool.and_comm]

theorem drops_forM {α : Type} {l : List α} {f : α → Script D Unit} {g : α → List D}
    (hf : ∀ a ∈ l, Drops (f a) (g a)) : Drops (l.forM f) (l.flatMap g) := by
  induction l with
  | nil => exact drops_pure
  | cons a l ih =>
    exact drops_bind (hf a List.mem_cons_self) (ih fun b hb => hf b (List.mem_cons_of_mem a hb))

theorem drops_drop (hruns : ∀ n, o.failure n = none) (target : Target) (gateway : Option String) :
    Drops (drop resolve o target gateway) (resolve target).toList := by
  intro h
  cases hd : resolve target with
  | none =>
    simp only [drop, ignoring, run, hruns, Command.exec, hd]
    exact ⟨_, rfl, by simp, rfl⟩
  | some d =>
    simp only [drop, ignoring, run, hruns, Command.exec, hd]
    exact ⟨_, rfl, by simp, rfl⟩

theorem drops_dropHost (hruns : ∀ n, o.failure n = none) (addr : Option String) :
    Drops (dropHost resolve o addr) (addr.toList.map Target.host |>.filterMap resolve) := by
  cases addr with
  | none => exact drops_pure
  | some addr =>
    have hdrop : Drops (drop resolve o (.host addr) none) _ := drops_drop hruns (.host addr) none
    cases hd : resolve (.host addr) <;> simpa [dropHost, hd] using hdrop

/-- The split networks that a disconnect takes back: none without a tun address. -/
def splitTargets (plan : RoutePlan) : List Target :=
  plan.tunIp.elim [] fun _ => plan.splitRoutes.map netOf

theorem drops_removeSplitRoutes (hruns : ∀ n, o.failure n = none) (plan : RoutePlan) :
    Drops (removeSplitRoutes resolve o plan) ((splitTargets plan).filterMap resolve) := by
  cases hip : plan.tunIp with
  | none =>
    simp only [removeSplitRoutes, splitTargets, hip, Option.elim]
    exact drops_pure
  | some ip =>
    have hsplits : Drops (plan.splitRoutes.forM fun cidr =>
        drop resolve o (netOf cidr) (some ip)) _ :=
      drops_forM fun cidr _ => drops_drop hruns (netOf cidr) (some ip)
    have hdown : Drops (other ["ifconfig", plan.tunIface, "down"] : Script D Unit) [] :=
      fun h => ⟨_, rfl, by simp, rfl⟩
    have hboth := drops_bind hsplits hdown
    rw [List.append_nil] at hboth
    simp only [removeSplitRoutes, splitTargets, hip, Option.elim, List.flatMap_map,
      List.filterMap_eq_flatMap_toList]
    exact hboth

theorem drops_revertDns (plan : RoutePlan) (phys : PhysicalState) :
    Drops (revertDns o plan phys : Script D Unit) [] := by
  unfold revertDns
  split
  · exact fun h => ⟨_, rfl, by simp, rfl⟩
  · exact drops_pure

/-- The destinations whose routes a disconnect deletes. -/
def revoked (resolve : Target → Option D) (plan : RoutePlan) (phys : PhysicalState) : List D :=
  (plan.vpnGateway.toList.map Target.host ++ phys.localIp.toList.map Target.host ++
    splitTargets plan).filterMap resolve

variable (resolve) in
theorem disconnect_ok (hruns : ∀ n, o.failure n = none) (plan : RoutePlan) (h : Host D) :
    ∃ h', disconnect resolve o plan h = .ok () h' ∧
      Dropped (revoked resolve plan (recalled o plan h)) h h' := by
  have hbody : Drops (do
      dropHost resolve o plan.vpnGateway
      dropHost resolve o (recalled o plan h).localIp
      removeSplitRoutes resolve o plan
      revertDns o plan (recalled o plan h)) _ :=
    drops_bind (drops_dropHost hruns _) (drops_bind (drops_dropHost hruns _)
      (drops_bind (drops_removeSplitRoutes hruns plan) (drops_revertDns plan _)))
  have hfile : Drops (modify (setFile (statePath o plan) none) : Script D Unit) [] :=
    fun h => ⟨_, rfl, by simp [setFile], rfl⟩
  obtain ⟨h', hok, hdropped⟩ := drops_bind hbody hfile h
  refine ⟨h', ?_, ?_⟩
  · simp only [bind_assoc] at hok
    exact hok
  · simpa only [revoked, List.filterMap_append, List.append_assoc, List.append_nil] using hdropped

section Account
omit [DecidableEq D]
variable {plan : RoutePlan} {phys : PhysicalState} {e : D × String}

theorem control_revoked (he : e ∈ controlEntries resolve plan phys) :
    e.1 ∈ revoked resolve plan phys := by
  cases hgw : phys.gateway <;> cases hvpn : plan.vpnGateway <;>
    simp [controlEntries, hgw, hvpn, mem_entry] at he
  simp [revoked, hvpn, he]

theorem split_revoked (he : e ∈ splitEntries resolve plan) :
    e.1 ∈ revoked resolve plan phys := by
  cases hip : plan.tunIp with
  | none => simp [splitEntries, hip] at he
  | some ip =>
    simp only [splitEntries, hip, Option.elim, List.mem_flatMap, mem_entry] at he
    obtain ⟨cidr, hcidr, hd, -⟩ := he
    refine List.mem_filterMap.mpr ⟨netOf cidr, List.mem_append_right _ ?_, hd⟩
    simp only [splitTargets, hip, Option.elim]
    exact List.mem_map_of_mem hcidr

/-- The preserved networks are the only routes of a plan that its disconnect may forget. -/
theorem additions_revoked :
    (∀ e ∈ additions resolve plan phys, e.1 ∈ revoked resolve plan phys) ↔
      phys.gateway = none ∨ ∀ cidr ∈ plan.preserveCidrs, ∀ d, resolve (netOf cidr) = some d →
        d ∈ revoked resolve plan phys := by
  have hmanagement : (∀ e ∈ managementEntries resolve plan phys, e.1 ∈ revoked resolve plan phys) ↔
      phys.gateway = none ∨ ∀ cidr ∈ plan.preserveCidrs, ∀ d, resolve (netOf cidr) = some d →
        d ∈ revoked resolve plan phys := by
    cases hgw : phys.gateway with
    | none => simp [managementEntries, hgw]
    | some gw =>
      simp only [managementEntries, hgw, Option.elim, List.mem_append, List.mem_flatMap, mem_entry,
        reduceCtorEq, false_or]
      constructor
      · intro h cidr hcidr d hd
        exact h (d, gw) (Or.inr ⟨cidr, hcidr, hd, rfl⟩)
      · rintro h e (he | ⟨cidr, hcidr, hd, -⟩)
        · cases hip : phys.localIp with
          | none => simp [hip] at he
          | some ip =>
            simp only [hip, mem_entry] at he
            exact List.mem_filterMap.mpr ⟨.host ip, by simp [hip], he.1⟩
        · exact h cidr hcidr e.1 hd
  rw [← hmanagement]
  simp only [additions, List.mem_append]
  constructor
  · exact fun h e he => h e (Or.inl (Or.inr he))
  · rintro h e ((he | he) | he)
    · exact control_revoked he
    · exact h e he
    · exact split_revoked he

end Account

/-- After a connect and its disconnect no route of the connect is left when no physical
gateway was known or every preserved network is a destination that the disconnect deletes for
another reason, and only then. -/
theorem session_leaves_no_route {plan : RoutePlan} {leave : Outside} {table : List (D × String)}
    {files : String → Option PhysicalState} {h : Host D}
    (hok : connect resolve o plan { table, files } = .ok () h) (hsaved : o.stateWrite = .done)
    (hdir : leave.stateDir = o.stateDir) (hruns : ∀ n, leave.failure n = none) :
    (∀ e ∈ h.added, e ∉ (left (disconnect resolve leave plan h)).table) ↔
      (discover o plan).gateway = none ∨
        ∀ cidr ∈ plan.preserveCidrs, ∀ d, resolve (netOf cidr) = some d →
          d ∈ revoked resolve plan (discover o plan) := by
  obtain ⟨htable, hadded, hfiles⟩ := connect_ok hok
  obtain ⟨h', hleave, hdropped⟩ := disconnect_ok resolve hruns plan h
  rw [hleave, hadded, List.nil_append]
  have hleft : (∀ e ∈ additions resolve plan (discover o plan), e ∉ h'.table) ↔
      ∀ e ∈ additions resolve plan (discover o plan),
        e.1 ∈ revoked resolve plan (recalled leave plan h) := by
    refine forall_congr' fun e => imp_congr_right fun he => ?_
    rw [hdropped.table, htable, List.mem_filter, decide_eq_true_eq, not_and_not_right]
    exact ⟨fun h => h (List.mem_append_right _ he), fun h _ => h⟩
  rw [left, hleft]
  cases hgw : (discover o plan).gateway with
  | none =>
    refine iff_of_true (fun e he => ?_) (Or.inl rfl)
    have hsplit : e ∈ splitEntries resolve plan := by
      simpa [additions, controlEntries, managementEntries, hgw] using he
    exact split_revoked hsplit
  | some gw =>
    have hpath : statePath leave plan = statePath o plan := by simp only [statePath, hdir]
    have hrecalled : recalled leave plan h = discover o plan := by
      simp only [recalled, loadState, hpath, hfiles hsaved, Function.update_self, Option.getD_some,
        hgw, Option.isSome_some, Bool.true_or, if_true]
    rw [hrecalled, additions_revoked, hgw]

end Scripts

/-- What `route` makes of the targets below. -/
def inet : Target → Option (Prefix 32)
  | .host addr => (Ipv4Addr.parse addr).map fun a => .of a 32 (Nat.le_refl 32)
  | .net addr mask =>
    (Ipv4Addr.parse addr).bind fun a => (netmaskToPrefix mask).toOption.bind fun len =>
      if short : len ≤ 32 then some (.of a len short) else none

def macbook : Outside where
  routeGetGateway := some "    gateway: 192.168.1.1\n  interface: en0\n"
  routeGetInterface := some "    gateway: 192.168.1.1\n  interface: en0\n"
  ifconfig := some "en0: flags=8863<UP>\n\tinet 192.168.1.23 netmask 0xffffff00\n"

/-- A plan that keeps some networks on the physical path. -/
def planKeeping (cidrs : List String) : RoutePlan where
  reason := "connect"
  tunIface := "utun4"
  vpnGateway := some "140.206.103.26"
  tunIp := some "10.1.1.20"
  prefixLen := some 24
  mtu := some 1400
  dns := []
  dnsMode := "server"
  splitRoutes := ["10.8.0.0/16"]
  preserveCidrs := cidrs
  physGatewayOverride := none
  physIfaceOverride := none

theorem session_leaves_no_route_sample :
    (∀ e ∈ (left (connect inet macbook (planKeeping ["172.16.0.0/16"])
          { table := [], files := fun _ => none })).added,
        e ∉ (left (disconnect inet macbook (planKeeping ["172.16.0.0/16"])
          (left (connect inet macbook (planKeeping ["172.16.0.0/16"])
            { table := [], files := fun _ => none })))).table) ↔
      (discover macbook (planKeeping ["172.16.0.0/16"])).gateway = none ∨
        ∀ cidr ∈ (planKeeping ["172.16.0.0/16"]).preserveCidrs, ∀ d,
          inet (netOf cidr) = some d → d ∈ revoked inet (planKeeping ["172.16.0.0/16"])
            (discover macbook (planKeeping ["172.16.0.0/16"])) :=
  session_leaves_no_route (eq_ok_of_isOk (by decide +kernel)) rfl rfl fun _ => rfl

/-- The preserved network's route stays. -/
theorem preserved_route_left :
    ∃ h, connect inet macbook (planKeeping ["172.16.0.0/16"])
        { table := [], files := fun _ => none } = .ok () h ∧
      ∃ e ∈ h.added,
        e ∈ (left (disconnect inet macbook (planKeeping ["172.16.0.0/16"]) h)).table :=
  ⟨_, eq_ok_of_isOk (by decide +kernel),
    (.of (Ipv4Addr.ofOctets 172 16 0 0) 16 (by decide), "192.168.1.1"),
    by decide +kernel, by decide +kernel⟩

end InodeVpn.Proofs.MacRoutes
