import InodeVpn.Proofs.LinuxRoutes
import InodeVpn.Routectl.MacOs

namespace InodeVpn.Proofs.PlanNetworks
open Lib Routectl

/-- A number as `{}` writes it. `ip` takes one that begins with a zero for octal. -/
def Plain (len : String) : Prop := ∃ n : Nat, len = toString n

/-- A network that both `ip route replace` and `split_cidr` take. -/
structure Acceptable (entry : String) : Prop where
  network : (Ipv4Addr.network entry).isSome = true
  plain : ∀ addr len, splitOnce '/' entry = some (addr, len) → Plain len
  split : ∃ parts, MacOs.splitCidr entry = .ok parts

/-- A network of an address and a prefix length splits into the address and its netmask. -/
theorem splitCidr_of_network {entry : String} (h : (Ipv4Addr.network entry).isSome = true) :
    ∃ addr len, (Ipv4Addr.parse addr).isSome = true ∧ len ≤ 32 ∧
      MacOs.splitCidr entry = .ok (addr, MacOs.prefixToNetmask len) := by
  obtain ⟨addr, text, hsplit, a, len, haddr, hlen, hshort, -⟩ := Ipv4Addr.network_isSome.mp h
  refine ⟨addr, len, by simp [haddr], hshort, ?_⟩
  simp only [MacOs.splitCidr, hsplit, hlen, if_neg (Nat.not_lt.mpr hshort)]

theorem acceptable_iff {entry : String} : Acceptable entry ↔
    ∃ addr len, splitOnce '/' entry = some (addr, len) ∧ Ipv4Addr.IsNetwork addr len ∧
      Plain len := by
  constructor
  · intro h
    obtain ⟨addr, len, hsplit, hnetwork⟩ := Ipv4Addr.network_isSome.mp h.network
    exact ⟨addr, len, hsplit, hnetwork, h.plain addr len hsplit⟩
  · rintro ⟨addr, len, hsplit, hnetwork, hplain⟩
    have hsome : (Ipv4Addr.network entry).isSome = true :=
      Ipv4Addr.network_isSome.mpr ⟨addr, len, hsplit, hnetwork⟩
    obtain ⟨_, _, -, -, hparts⟩ := splitCidr_of_network hsome
    refine ⟨hsome, fun addr' len' hsplit' => ?_, _, hparts⟩
    cases hsplit.symm.trans hsplit'
    exact hplain

theorem acceptable_join {addr len : String} :
    Acceptable (addr ++ "/" ++ len) ↔ Ipv4Addr.IsNetwork addr len ∧ Plain len := by
  constructor
  · intro h
    have hnetwork : Ipv4Addr.IsNetwork addr len := Ipv4Addr.network_join.mp h.network
    exact ⟨hnetwork, h.plain addr len (Ipv4Addr.splitOnce_join hnetwork)⟩
  · rintro ⟨hnetwork, hplain⟩
    exact acceptable_iff.mpr ⟨addr, len, Ipv4Addr.splitOnce_join hnetwork, hnetwork, hplain⟩

section Environment
variable {environ : Environ}

def splitCount (environ : Environ) : Nat :=
  ((var "CISCO_SPLIT_INC" environ).bind parseUsize).getD 0

/-- A split include of which neither part is missing. -/
def Includes (environ : Environ) (i : Nat) (addr masklen : String) : Prop :=
  nonEmptyVar ("CISCO_SPLIT_INC_" ++ toString i ++ "_ADDR") environ = some addr ∧
    nonEmptyVar ("CISCO_SPLIT_INC_" ++ toString i ++ "_MASKLEN") environ = some masklen

/-- Every network that the environment gives is one. -/
structure GivesNetworks (environ : Environ) : Prop where
  split : ∀ i < splitCount environ, ∀ addr masklen,
    Includes environ i addr masklen → Ipv4Addr.IsNetwork addr masklen ∧ Plain masklen
  preserve : ∀ list, var "INODE_PRESERVE_CIDRS" environ = some list →
    ∀ cidr ∈ pieces isCidrSeparator list,
      ∃ addr len, splitOnce '/' cidr = some (addr, len) ∧ Ipv4Addr.IsNetwork addr len ∧ Plain len

theorem nonEmptyVar_eq_some {key value : String} :
    nonEmptyVar key environ = some value ↔ (var key environ).getD "" = value ∧ value ≠ "" := by
  cases hvar : var key environ with
  | none => simp [nonEmptyVar, hvar, eq_comm]
  | some text =>
    simp only [nonEmptyVar, hvar, Option.filter_eq_some_iff, Option.some.injEq,
      decide_eq_true_eq, Option.getD_some]

/-- A round of the loop keeps an include just as it is given. -/
theorem splitRoute_ok {i : Nat} {result : Option String} (hok : splitRoute environ i = .ok result)
    {route : String} : result = some route ↔
      ∃ addr masklen, Includes environ i addr masklen ∧ route = addr ++ "/" ++ masklen := by
  simp only [Includes, nonEmptyVar_eq_some]
  simp only [splitRoute] at hok
  split at hok
  · rename_i hempty
    cases hok
    constructor
    · intro h
      cases h
    · rintro ⟨addr, masklen, ⟨⟨rfl, haddr⟩, rfl, hmasklen⟩, -⟩
      exact (hempty.elim haddr hmasklen).elim
  · rename_i hgiven
    rw [not_or] at hgiven
    split at hok
    · cases hok
    · cases hok
      rw [Option.some.injEq]
      constructor
      · rintro rfl
        exact ⟨_, _, ⟨⟨rfl, hgiven.1⟩, rfl, hgiven.2⟩, rfl⟩
      · rintro ⟨addr, masklen, ⟨⟨rfl, -⟩, rfl, -⟩, rfl⟩
        rfl

theorem mem_splitRoutes {routes : List String} (h : parseSplitRoutes environ = .ok routes)
    {route : String} : route ∈ routes ↔ ∃ i < splitCount environ, ∃ addr masklen,
      Includes environ i addr masklen ∧ route = addr ++ "/" ++ masklen := by
  obtain ⟨results, hloop, h⟩ := bind_ok h
  cases h
  obtain ⟨hrounds, hresults⟩ := mapM_ok hloop
  simp only [List.mem_filterMap, id, exists_eq_right]
  constructor
  · intro hroute
    obtain ⟨i, hi, hround⟩ := hresults _ hroute
    exact ⟨i, List.mem_range.mp hi, (splitRoute_ok hround).mp rfl⟩
  · rintro ⟨i, hi, hincludes⟩
    obtain ⟨result, hresult, hround⟩ := hrounds i (List.mem_range.mpr hi)
    exact (splitRoute_ok hround).mpr hincludes ▸ hresult

/-- The networks of a plan are good just when the environment gives good ones. -/
theorem acceptable_iff_givesNetworks {reason : String} {plan : RoutePlan}
    (h : RoutePlan.fromEnv reason environ = .ok plan) :
    (∀ entry ∈ plan.splitRoutes ++ plan.preserveCidrs, Acceptable entry) ↔
      GivesNetworks environ := by
  have hsplit : (∀ entry ∈ plan.splitRoutes, Acceptable entry) ↔
      ∀ i < splitCount environ, ∀ addr masklen,
        Includes environ i addr masklen → Ipv4Addr.IsNetwork addr masklen ∧ Plain masklen := by
    simp only [mem_splitRoutes (RoutePlan.fromEnv_splitRoutes h)]
    constructor
    · intro hgood i hi addr masklen hincludes
      exact acceptable_join.mp (hgood _ ⟨i, hi, addr, masklen, hincludes, rfl⟩)
    · rintro hgood entry ⟨i, hi, addr, masklen, hincludes, rfl⟩
      exact acceptable_join.mpr (hgood i hi addr masklen hincludes)
  have hpreserve : (∀ entry ∈ plan.preserveCidrs, Acceptable entry) ↔
      ∀ list, var "INODE_PRESERVE_CIDRS" environ = some list →
        ∀ cidr ∈ pieces isCidrSeparator list,
          ∃ addr len, splitOnce '/' cidr = some (addr, len) ∧ Ipv4Addr.IsNetwork addr len ∧
            Plain len := by
    simp only [acceptable_iff, (RoutePlan.fromEnv_settings h).2]
    cases var "INODE_PRESERVE_CIDRS" environ <;> simp
  rw [List.forall_mem_append, hsplit, hpreserve]
  constructor
  · rintro ⟨hsplit, hpreserve⟩
    exact ⟨hsplit, hpreserve⟩
  · rintro ⟨hsplit, hpreserve⟩
    exact ⟨hsplit, hpreserve⟩

end Environment

section LinuxConnect
open Linux LinuxRoutes
variable {D : Type} [DecidableEq D] {destination : String → Option D} {o : Outside}
  {plan : RoutePlan}

/-- `ip` takes every well-formed network whose length is written plainly. -/
def IpTakes (destination : String → Option D) : Prop :=
  ∀ text, Acceptable text → (destination text).isSome = true

/-- The destinations of a connect that do not come from the two lists of the plan. -/
def hosts (plan : RoutePlan) (phys : PhysicalState) : List String :=
  (plan.vpnGateway.map (· ++ "/32")).toList ++ (phys.localIp.map (· ++ "/32")).toList ++
    phys.localPrefix.toList

omit [DecidableEq D] in
theorem goesThrough_of {n : Nat} {command : IpCommand} (hruns : ∀ n, o.failure n = none)
    (hdest : ∀ r ∈ places some command, (destination r.1).isSome = true) :
    goesThrough destination o n command = true := by
  cases command with
  | routeReplace dst hop =>
    have hd : (destination dst).isSome = true := hdest (dst, hop) (by simp [places])
    simp [goesThrough, hruns, hd]
  | _ => simp [goesThrough, hruns]

/-- A connect gets to its end when `ip` does and takes its destinations. -/
theorem linux_connects (hruns : ∀ n, o.failure n = none)
    (hdest : ∀ r ∈ planned plan (.discover o plan), (destination r.1).isSome = true) :
    Succeeds (connect (quiet destination) o plan) := by
  have hsteps : ∀ s ∈ steps plan (.discover o plan),
      Succeeds (execute (quiet destination) o s) := by
    rintro ⟨command, needed⟩ hs h
    have hplaced : ∀ r ∈ places some command, (destination r.1).isSome = true := by
      intro r hr
      have hentry : r ∈ (steps plan (.discover o plan)).flatMap fun s => places some s.1 :=
        List.mem_flatMap.mpr ⟨(command, needed), hs, hr⟩
      rw [(steps_places some plan _).2] at hentry
      obtain ⟨r', hr', heq, -⟩ := (mem_entries some).mp hentry
      exact Option.some.inj heq ▸ hdest r' hr'
    rcases execute_cases (h := h) needed (steps_adds destination plan _ _ hs) with
      ⟨-, h', hok, -⟩ | ⟨hrun, -⟩ | ⟨-, -, hok⟩
    · exact ⟨h', hok⟩
    · rw [goesThrough_of hruns hplaced] at hrun
      cases hrun
    · exact ⟨_, hok⟩
  rw [connect_eq]
  refine Succeeds.bind (fun h => ⟨_, rfl⟩) ((succeeds_forM hsteps).bind fun h => ?_)
  obtain ⟨resolver, hdns⟩ := applyDns_ok o plan h
  exact ⟨_, hdns⟩

end LinuxConnect

section MacConnect
open MacOs
variable {D : Type} [DecidableEq D] {resolve : Target → Option D} {o : Outside} {plan : RoutePlan}

/-- `route` takes every address, and with any netmask of a prefix length. -/
def RouteTakes (resolve : Target → Option D) : Prop :=
  ∀ addr, (Ipv4Addr.parse addr).isSome = true →
    ∀ len ≤ 32, (resolve (.net addr (prefixToNetmask len))).isSome = true

theorem succeeds_add {target : Target} {gateway : String} (hruns : ∀ n, o.failure n = none)
    (htarget : (resolve target).isSome = true) :
    Succeeds (run resolve o (.add target gateway)) := by
  intro h
  obtain ⟨d, hd⟩ := Option.isSome_iff_exists.mp htarget
  simp only [run, hruns, Command.exec, hd]
  exact ⟨_, rfl⟩

theorem succeeds_net {gateway cidr : String} (hruns : ∀ n, o.failure n = none)
    (htakes : RouteTakes resolve) (hcidr : Acceptable cidr) :
    Succeeds (addNet resolve o gateway cidr) := by
  obtain ⟨addr, len, haddr, hshort, hsplit⟩ := splitCidr_of_network hcidr.network
  simp only [addNet, hsplit]
  exact succeeds_add hruns (htakes addr haddr len hshort)

theorem succeeds_configureTun (hruns : ∀ n, o.failure n = none) :
    Succeeds (configureTun resolve o plan) := by
  unfold configureTun
  split
  · intro h
    simp only [run, hruns, Command.exec]
    exact ⟨_, rfl⟩
  · exact succeeds_pure

theorem succeeds_keepControlPath {phys : PhysicalState} (hruns : ∀ n, o.failure n = none)
    (hgateway : ∀ gw ∈ plan.vpnGateway, (resolve (.host gw)).isSome = true) :
    Succeeds (keepControlPath resolve o plan phys) := by
  unfold keepControlPath
  split
  · rename_i gw physGw hgw _
    exact succeeds_add hruns (hgateway gw hgw)
  · exact succeeds_pure

theorem succeeds_protectManagement {phys : PhysicalState} (hruns : ∀ n, o.failure n = none)
    (htakes : RouteTakes resolve)
    (hlocal : ∀ ip ∈ phys.localIp, (resolve (.host ip)).isSome = true)
    (hnets : ∀ cidr ∈ plan.preserveCidrs, Acceptable cidr) :
    Succeeds (protectManagement resolve o plan phys) := by
  unfold protectManagement
  cases phys.gateway with
  | none => exact succeeds_pure
  | some physGw =>
    have hpreserve : Succeeds (plan.preserveCidrs.forM (addNet resolve o physGw)) :=
      succeeds_forM fun cidr hcidr => succeeds_net hruns htakes (hnets cidr hcidr)
    cases hip : phys.localIp with
    | none => exact hpreserve
    | some ip => exact (succeeds_add hruns (hlocal ip hip)).bind hpreserve

theorem succeeds_addSplitRoutes (hruns : ∀ n, o.failure n = none) (htakes : RouteTakes resolve)
    (hnets : ∀ cidr ∈ plan.splitRoutes, Acceptable cidr) :
    Succeeds (addSplitRoutes resolve o plan) := by
  unfold addSplitRoutes
  split
  · exact succeeds_forM fun cidr hcidr => succeeds_net hruns htakes (hnets cidr hcidr)
  · exact succeeds_pure

omit [DecidableEq D] in
theorem succeeds_applyDns {phys : PhysicalState} :
    Succeeds (applyDns o plan phys : Script D Unit) := by
  unfold applyDns
  split
  · exact fun h => ⟨_, rfl⟩
  · exact succeeds_pure

/-- A connect gets to its end when `route` does and takes its destinations. -/
theorem mac_connects (hruns : ∀ n, o.failure n = none) (htakes : RouteTakes resolve)
    (hhosts : ∀ host ∈ plan.vpnGateway.toList ++ (discover o plan).localIp.toList,
      (resolve (.host host)).isSome = true)
    (hnets : ∀ cidr ∈ plan.splitRoutes ++ plan.preserveCidrs, Acceptable cidr) :
    Succeeds (connect resolve o plan) := by
  have hsave : Succeeds (saveState o plan (discover o plan) : Script D Unit) := fun h => ⟨_, rfl⟩
  have hcontrol : Succeeds (keepControlPath resolve o plan (discover o plan)) :=
    succeeds_keepControlPath hruns fun gw hgw =>
      hhosts gw (List.mem_append_left _ (Option.mem_toList.mpr hgw))
  have hmanagement : Succeeds (protectManagement resolve o plan (discover o plan)) := by
    refine succeeds_protectManagement hruns htakes (fun ip hip => ?_) fun cidr hcidr => ?_
    · exact hhosts ip (List.mem_append_right _ (Option.mem_toList.mpr hip))
    · exact hnets cidr (List.mem_append_right _ hcidr)
  have hsplit : Succeeds (addSplitRoutes resolve o plan) :=
    succeeds_addSplitRoutes hruns htakes fun cidr hcidr =>
      hnets cidr (List.mem_append_left _ hcidr)
  exact hsave.bind <| (succeeds_configureTun hruns).bind <| hcontrol.bind <|
    hmanagement.bind <| hsplit.bind succeeds_applyDns

end MacConnect

/-- No connect with this plan stops at one of its networks: when its commands run and its hosts
are taken, it gets to its end. -/
structure NeverMalformed (plan : RoutePlan) : Prop where
  linux : ∀ {D : Type} [DecidableEq D] (destination : String → Option D) (o : Linux.Outside),
    IpTakes destination → (∀ n, o.failure n = none) →
    (∀ host ∈ hosts plan (.discover o plan), (destination host).isSome = true) →
      Succeeds (Linux.connect (Linux.quiet destination) o plan)
  macOs : ∀ {D : Type} [DecidableEq D] (resolve : MacOs.Target → Option D) (o : MacOs.Outside),
    RouteTakes resolve → (∀ n, o.failure n = none) →
    (∀ host ∈ plan.vpnGateway.toList ++ (MacOs.discover o plan).localIp.toList,
      (resolve (.host host)).isSome = true) →
      Succeeds (MacOs.connect resolve o plan)

theorem neverMalformed_of {plan : RoutePlan}
    (hgood : ∀ entry ∈ plan.splitRoutes ++ plan.preserveCidrs, Acceptable entry) :
    NeverMalformed plan where
  linux destination o htakes hruns hhosts := by
    refine linux_connects hruns fun r hr => ?_
    have hnet (entry : String) (hentry : entry ∈ plan.splitRoutes ++ plan.preserveCidrs) :
        (destination entry).isSome = true := htakes entry (hgood entry hentry)
    rcases List.mem_append.mp (LinuxRoutes.mem_of_planned hr) with hguarded | hsplit
    · exact (List.mem_append.mp hguarded).elim (hhosts r.1) fun hpreserve =>
        hnet r.1 (List.mem_append_right _ hpreserve)
    · exact hnet r.1 (List.mem_append_left _ hsplit)
  macOs resolve o htakes hruns hhosts := mac_connects hruns htakes hhosts hgood

/-- A plan holds only good networks, and no connect stops at one of them, just when the
environment gives good ones. -/
theorem plan_networks_well_formed {reason : String} {environ : Environ} {plan : RoutePlan}
    (h : RoutePlan.fromEnv reason environ = .ok plan) :
    ((∀ entry ∈ plan.splitRoutes ++ plan.preserveCidrs, Acceptable entry) ∧
      NeverMalformed plan) ↔ GivesNetworks environ := by
  rw [← acceptable_iff_givesNetworks h]
  exact and_iff_left_of_imp neverMalformed_of

/-- The environment of a connect that keeps a network on the physical path. -/
def environKeeping (cidrs : String) : Environ :=
  [("TUNDEV", "tun0"), ("VPNGATEWAY", "140.206.103.26"), ("INTERNAL_IP4_ADDRESS", "10.1.1.20"),
    ("INTERNAL_IP4_NETMASK", "255.255.255.0"), ("CISCO_SPLIT_INC", "1"),
    ("CISCO_SPLIT_INC_0_ADDR", "10.8.0.0"), ("CISCO_SPLIT_INC_0_MASKLEN", "16"),
    ("INODE_PRESERVE_CIDRS", cidrs)]

def planOf (cidrs : List String) : RoutePlan where
  reason := "connect"
  tunIface := "tun0"
  vpnGateway := some "140.206.103.26"
  tunIp := some "10.1.1.20"
  prefixLen := some 24
  mtu := none
  dns := []
  dnsMode := "server"
  splitRoutes := ["10.8.0.0/16"]
  preserveCidrs := cidrs
  physGatewayOverride := none
  physIfaceOverride := none

theorem plan_networks_well_formed_sample :
    ((∀ entry ∈ (planOf ["172.16.0.0/16"]).splitRoutes ++ (planOf ["172.16.0.0/16"]).preserveCidrs,
        Acceptable entry) ∧ NeverMalformed (planOf ["172.16.0.0/16"])) ↔
      GivesNetworks (environKeeping "172.16.0.0/16") := by
  have hplan : RoutePlan.fromEnv "connect" (environKeeping "172.16.0.0/16") =
      .ok (planOf ["172.16.0.0/16"]) := by decide +kernel
  exact plan_networks_well_formed hplan

/-- A preserved network with host bits stops a connect that has already installed routes. -/
theorem host_bits_stop_connect :
    RoutePlan.fromEnv "connect" (environKeeping "192.168.0.128/23") =
        .ok (planOf ["192.168.0.128/23"]) ∧
      ¬ Acceptable "192.168.0.128/23" ∧
      isOk (Linux.connect (Linux.quiet Ipv4Addr.network) LinuxRoutes.laptop
        (planOf ["192.168.0.128/23"]) { table := fun _ => none }) = false ∧
      (left (Linux.connect (Linux.quiet Ipv4Addr.network) LinuxRoutes.laptop
        (planOf ["192.168.0.128/23"]) { table := fun _ => none })).installed ≠ [] := by
  refine ⟨by decide +kernel, fun h => ?_, by decide +kernel, by decide +kernel⟩
  have hnone : (Ipv4Addr.network "192.168.0.128/23").isSome = false := by decide +kernel
  rw [h.network] at hnone
  cases hnone

end InodeVpn.Proofs.PlanNetworks
