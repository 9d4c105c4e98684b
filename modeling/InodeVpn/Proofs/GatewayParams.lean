import InodeVpn.Lib.Search
import InodeVpn.Fork.Link
import InodeVpn.Proofs.NetExtend

namespace InodeVpn.Proofs.GatewayParams
open InodeVpn.Fork hiding VpnInfo Outside Event
open InodeVpn.Fork.Connect HeaderNumbers SessionMemory NetExtend
open HeaderScan
open Lib hiding pieces
open Wire (Bytes)

/-- The value of a header of this name. -/
def valueOf (name : String) (h : Header) : Option Bytes :=
  if h.name = name then some h.value.bytes else none

section Params
variable (atoi : Bytes → Int) (headers : List Header)

def routesOf (h : Header) : List Bytes := ((valueOf "ROUTES" h).map pieces).getD []

def dnsOf (i : Fin 3) (h : Header) : Option Bytes :=
  (valueOf "DNS" h).bind fun v => (pieces v)[i.val]?

def netmaskOf (h : Header) : Option Bytes :=
  (valueOf "SUBNETMASK" h).map fun v => inetNtop (prefixMask 32 (atoi v).toNat)

def numberOf (name : String) (h : Header) : Option Int := (valueOf name h).map atoi

/-- What a gateway means by its headers: of each setting the last, and all routes, the latest in
front. -/
def paramsOf : IpInfo where
  addr := lastOf (valueOf "IPADDRESS") headers
  netmask := lastOf (netmaskOf atoi) headers
  dns i := lastOf (dnsOf i) headers
  splitIncludes := (headers.flatMap routesOf).reverse
  mtu := 1400

/-- The reconnect of the main loop that a gateway with these headers answers. -/
def reconnectOf (now : Int) : Reconnect where
  keepaliveHeader := lastOf (numberOf atoi "KEEPALIVETIME") headers
  now := now

end Params

/-- A header that is read as it is meant: its lists end with a semicolon or hold enough servers,
its netmask has at most 32 bits, and a dump of it fits the buffer. -/
structure Fine (atoi : Bytes → Int) (o : Outside) (h : Header) : Prop where
  routes : h.name = "ROUTES" → Terminated h.value
  dns : h.name = "DNS" → Terminated h.value ∨ 3 ≤ (terminatedPieces h.value.bytes).length
  mask : h.name = "SUBNETMASK" → 0 ≤ atoi h.value.bytes ∧ atoi h.value.bytes ≤ 32
  dump : o.dumpHttpTraffic = true → h.name.utf8ByteSize + h.value.bytes.length + 2 ≤ 1000

/-- One header is read as it is meant. -/
structure Meant (atoi : Bytes → Int) (h : Header) (v v' : VpnInfo) : Prop where
  addr : v'.parseIpInfo.addr = (valueOf "IPADDRESS" h).or v.parseIpInfo.addr
  netmask : v'.parseIpInfo.netmask = (netmaskOf atoi h).or v.parseIpInfo.netmask
  dns : ∀ i, v'.parseIpInfo.dns i = (dnsOf i h).or (v.parseIpInfo.dns i)
  routes : v'.parseIpInfo.splitIncludes = (routesOf h).reverse ++ v.parseIpInfo.splitIncludes
  mtu : v'.parseIpInfo.mtu = v.parseIpInfo.mtu
  saw : v'.parseSawAddress = ((valueOf "IPADDRESS" h).isSome || v.parseSawAddress)
  gateway : v'.tunnelGateway.map Prod.snd =
    (valueOf "GATEWAY" h).or (v.tunnelGateway.map Prod.snd)
  restrict : v'.restrictMode = (numberOf atoi "RESTRICT" h).getD v.restrictMode
  transport : v'.transport =
    v.transport.readHeaders { keepaliveHeader := numberOf atoi "KEEPALIVETIME" h }

/-- What a session has read of an answer so far. -/
structure ReadAs (atoi : Bytes → Int) (headers : List Header) (start v : VpnInfo) : Prop where
  info : v.parseIpInfo = { paramsOf atoi headers with mtu := 0 }
  saw : v.parseSawAddress = (lastOf (valueOf "IPADDRESS") headers).isSome
  gateway : v.tunnelGateway.map Prod.snd = lastOf (valueOf "GATEWAY") headers
  restrict : v.restrictMode = (lastOf (numberOf atoi "RESTRICT") headers).getD start.restrictMode
  transport : v.transport = start.transport.readHeaders (reconnectOf atoi headers 0)

section Headers
variable {atoi : Bytes → Int} {o : Outside} {headers : List Header} {h : Header}
  {start v v' : VpnInfo}

theorem plenty_arenaHeap {grants : Nat → Bool} (hgrants : ∀ n, grants n = true) :
    Plenty (arenaHeap grants) where
  addOptionDup _ _ a := by simp [arenaHeap, hgrants]
  malloc a := by simp [arenaHeap, hgrants]

section Branches
variable {grants : Nat → Bool} (v) (hgrants : ∀ n, grants n = true)
include hgrants

theorem meant_setAddress (hname : h.name = "IPADDRESS") :
    ∃ v', setAddress grants h.value v = (0, v') ∧ Meant atoi h v v' := by
  refine ⟨_, if_pos ((plenty_arenaHeap hgrants).addOptionDup _ _ _), ?_⟩
  constructor <;> simp [valueOf, netmaskOf, dnsOf, routesOf, numberOf, hname, VpnInfo.readHeaders]

theorem meant_setNetmask (hname : h.name = "SUBNETMASK") (hpos : 0 ≤ atoi h.value.bytes)
    (hle : atoi h.value.bytes ≤ 32) :
    ∃ v', setNetmask grants v (atoi h.value.bytes) = some (0, v') ∧ Meant atoi h v v' := by
  unfold setNetmask h3cSubnetmask
  rw [maskAddr_eq hpos hle, Option.map_some, Option.map_some]
  dsimp only
  rw [if_pos ((plenty_arenaHeap hgrants).addOptionDup _ _ _)]
  refine ⟨_, rfl, ?_⟩
  constructor <;> simp [valueOf, netmaskOf, dnsOf, routesOf, numberOf, hname, VpnInfo.readHeaders]

theorem meant_setRoutes (hname : h.name = "ROUTES") (hends : Terminated h.value) :
    ∃ v', setRoutes grants h.value v h.behind = some (0, v') ∧ Meant atoi h v v' := by
  obtain ⟨st, hvalue, hroutes⟩ :=
    (routesExact_of_terminated hends).prepends (plenty_arenaHeap hgrants)
  refine ⟨_, Option.map_eq_some_iff.mpr ⟨_, hvalue, rfl⟩, ?_⟩
  constructor <;> simp [valueOf, netmaskOf, dnsOf, routesOf, numberOf, hname, hroutes,
    VpnInfo.readHeaders]

theorem meant_setDns (hname : h.name = "DNS")
    (hends : Terminated h.value ∨ 3 ≤ (terminatedPieces h.value.bytes).length) :
    ∃ v', setDns grants h.value v h.behind = some (0, v') ∧ Meant atoi h v v' := by
  obtain ⟨st, hvalue, hdns⟩ := (dnsExact_of_terminated hends).fills (plenty_arenaHeap hgrants)
  refine ⟨_, Option.map_eq_some_iff.mpr ⟨_, hvalue, rfl⟩, ?_⟩
  constructor <;> simp [valueOf, netmaskOf, dnsOf, routesOf, numberOf, hname, hdns,
    VpnInfo.readHeaders]

theorem meant_setGateway (hname : h.name = "GATEWAY") :
    ∃ v', setGateway grants h.value v = (0, v') ∧ Meant atoi h v v' := by
  refine ⟨_, if_pos (hgrants _), ?_⟩
  constructor <;> simp [valueOf, netmaskOf, dnsOf, routesOf, numberOf, hname, VpnInfo.readHeaders,
    VpnInfo.dropGateway, VpnInfo.free, VpnInfo.malloc]

end Branches

theorem Meant.dumped {set : Option (Int × VpnInfo)} (hfine : Fine atoi o h)
    (hset : ∃ v', set = some (0, v') ∧ Meant atoi h v v') :
    ∃ v', set.bind (dumped o h) = some (0, v') ∧ Meant atoi h v v' := by
  obtain ⟨v', rfl, hmeant⟩ := hset
  refine ⟨v', if_neg ?_, hmeant⟩
  rintro ⟨-, hdump, hlong⟩
  exact absurd (hfine.dump hdump) (Nat.not_le.mpr hlong)

/-- A header that is fine does what it is meant for. -/
theorem meant_of_fine (v : VpnInfo) (hfine : Fine atoi o h) (hgrants : ∀ n, o.grants n = true) :
    ∃ v', getVpnParamFromHeaders atoi o h v = some (0, v') ∧ Meant atoi h v v' := by
  refine Meant.dumped hfine ?_
  repeat' split
  · rename_i hname
    obtain ⟨v', hset, hmeant⟩ := meant_setAddress v hgrants hname
    exact ⟨v', congrArg some hset, hmeant⟩
  · rename_i hname
    exact meant_setNetmask v hgrants hname (hfine.mask hname).1 (hfine.mask hname).2
  · rename_i hname
    exact meant_setRoutes v hgrants hname (hfine.routes hname)
  · rename_i hname
    exact meant_setDns v hgrants hname (hfine.dns hname)
  · rename_i hname
    obtain ⟨v', hset, hmeant⟩ := meant_setGateway v hgrants hname
    exact ⟨v', congrArg some hset, hmeant⟩
  · rename_i hname
    refine ⟨_, rfl, ?_⟩
    constructor <;> simp [valueOf, netmaskOf, dnsOf, routesOf, numberOf, hname,
      VpnInfo.readHeaders]
  · rename_i hname
    refine ⟨_, rfl, ?_⟩
    constructor <;> simp [valueOf, netmaskOf, dnsOf, routesOf, numberOf, hname,
      VpnInfo.readHeaders]
  · rename_i haddr hmask hroutes hdns hgateway hkeepalive hrestrict
    refine ⟨_, rfl, ?_⟩
    constructor <;> simp [valueOf, netmaskOf, dnsOf, routesOf, numberOf, haddr, hmask, hroutes,
      hdns, hgateway, hkeepalive, hrestrict, VpnInfo.readHeaders]

theorem readHeaders_or (first second : Option Int) (t : Fork.VpnInfo) :
    t.readHeaders { keepaliveHeader := second.or first } =
      (t.readHeaders { keepaliveHeader := first }).readHeaders { keepaliveHeader := second } := by
  cases first <;> cases second <;> rfl

theorem ReadAs.append_one (hread : ReadAs atoi headers start v) (hmeant : Meant atoi h v v') :
    ReadAs atoi (headers ++ [h]) start v' where
  info := by
    have hinfo := hread.info
    have hall : v'.parseIpInfo = ⟨v'.parseIpInfo.addr, v'.parseIpInfo.netmask, v'.parseIpInfo.dns,
      v'.parseIpInfo.splitIncludes, v'.parseIpInfo.mtu⟩ := rfl
    rw [hall, hmeant.addr, hmeant.netmask, funext hmeant.dns, hmeant.routes, hmeant.mtu, hinfo]
    simp [paramsOf, lastOf_append_one]
  saw := by rw [hmeant.saw, hread.saw, lastOf_append_one, Option.isSome_or]
  gateway := by rw [hmeant.gateway, hread.gateway, lastOf_append_one]
  restrict := by
    rw [hmeant.restrict, hread.restrict, lastOf_append_one]
    cases numberOf atoi "RESTRICT" h <;> rfl
  transport := by
    rw [hmeant.transport, hread.transport]
    unfold reconnectOf
    rw [lastOf_append_one]
    exact (readHeaders_or _ _ _).symm

theorem readHeaders_append_one (v : VpnInfo) : readHeaders atoi o (headers ++ [h]) v =
    (readHeaders atoi o headers v).bind fun w =>
      (getVpnParamFromHeaders atoi o h w).map Prod.snd := by
  induction headers generalizing v with
  | nil =>
    simp only [List.nil_append, readHeaders, Option.bind_some]
    cases getVpnParamFromHeaders atoi o h v <;> rfl
  | cons header headers ih =>
    simp only [List.cons_append, readHeaders, ih]
    cases getVpnParamFromHeaders atoi o header v <;> rfl

/-- And so are all headers of an answer. -/
theorem readAs_readHeaders (hgrants : ∀ n, o.grants n = true)
    (hfine : ∀ h ∈ headers, Fine atoi o h) (hnew : ReadAs atoi [] start start) :
    ∃ v', readHeaders atoi o headers start = some v' ∧ ReadAs atoi headers start v' := by
  induction headers using List.reverseRecOn with
  | nil => exact ⟨start, rfl, hnew⟩
  | append_singleton headers h ih =>
    obtain ⟨v, hv, hread⟩ := ih fun h' hmem => hfine h' (List.mem_append_left _ hmem)
    obtain ⟨v', hset, hmeant⟩ := meant_of_fine v
      (hfine h (List.mem_append_right _ List.mem_cons_self)) hgrants
    exact ⟨v', by rw [readHeaders_append_one, hv, Option.bind_some, hset, Option.map_some],
      hread.append_one hmeant⟩

end Headers

/-- Everything outside does its part, and the gateway answers with an address, in headers that are
fine. -/
structure Answers (atoi : Bytes → Int) (o : Outside) : Prop extends Sends o where
  calloc : o.calloc = true
  splitCookies : o.splitCookies.1 = 0
  grants : ∀ n, o.grants n = true
  install : o.install = 0
  address : ∃ h ∈ o.headers, h.name = "IPADDRESS"
  fine : ∀ h ∈ o.headers, Fine atoi o h

/-- What a connected session has of its gateway. -/
structure ConnectedAs (atoi : Bytes → Int) (o : Outside) (v v' : VpnInfo) : Prop where
  info : v'.ipInfo = paramsOf atoi o.headers
  gateway : v'.tunnelGateway.map Prod.snd = lastOf (valueOf "GATEWAY") o.headers
  restrict : v'.restrictMode =
    (lastOf (numberOf atoi "RESTRICT") o.headers).getD v.restrictMode
  transport : v'.transport = sslReconnect (reconnectOf atoi o.headers o.now) v.transport

section Connected
variable {atoi : Bytes → Int} {o : Outside} {v w u : VpnInfo}

theorem readAs_nil : ReadAs atoi [] (begun o w) (begun o w) :=
  ⟨rfl, rfl, rfl, rfl, rfl⟩

theorem connectedAs_install (requestData : Nat)
    (hread : ReadAs atoi o.headers (begun o w) u) :
    ConnectedAs atoi o w (install o (answered o requestData u)) := by
  obtain ⟨arena, hanswered⟩ := answered_eq o requestData u
  have hmtu : u.parseIpInfo.mtu = 0 := by rw [hread.info]
  rw [hanswered]
  constructor
  · unfold install
    dsimp only
    rw [if_pos hmtu, hread.info]
    rfl
  · exact hread.gateway
  · exact hread.restrict
  · unfold install sslReconnect
    dsimp only
    rw [if_pos hmtu, hread.transport]
    unfold reconnectOf
    cases lastOf (numberOf atoi "KEEPALIVETIME") o.headers <;> rfl

/-- Whatever session a call finds, with attempts that failed or connected behind it: where the
gateway answers, it connects, what is installed is what the headers of this answer mean, and the
transport is as the main loop's reconnect leaves it. -/
theorem connect_params (h : Answers atoi o) (hw : v.getState o.calloc = some w) :
    ∃ v', h3cConnect atoi o v = some (0, v') ∧ ConnectedAs atoi o w v' := by
  rw [h3cConnect_of_sends h.toSends h.splitCookies hw]
  obtain ⟨u, hheaders, hread⟩ := readAs_readHeaders h.grants h.fine (readAs_nil (w := w))
  refine ⟨_, netExtend_zero.mpr ⟨u, hheaders, ?_, h.install, rfl⟩, connectedAs_install _ hread⟩
  obtain ⟨header, hmem, hname⟩ := h.address
  rw [hread.saw]
  exact isSome_lastOf.mpr ⟨header, hmem, by rw [valueOf, if_pos hname, Option.isSome_some]⟩

/-- Where no packet was half sent, the runs of the main loop go on from there. -/
theorem ConnectedAs.start (h : ConnectedAs atoi o v w) (hpkt : v.transport.currentSslPkt = none)
    (hquit : v.transport.quitReason = none) :
    Link.Start ⟨w.transport, v.transport.outgoingQueue⟩ := by
  refine ⟨v.transport.readHeaders (reconnectOf atoi o.headers o.now), o.now, h.transport, ?_⟩
  unfold reconnectOf Fork.VpnInfo.readHeaders
  dsimp only
  split <;> exact ⟨hpkt, hquit, rfl⟩

end Connected

/-- `atoi` of digits. -/
def digits (text : Bytes) : Int := text.foldl (fun n c => n * 10 + (c.toNat - 48)) 0

/-- `60` -/
def minute : CString where
  bytes := [54, 48]
  noNul := by decide

/-- `24` -/
def day : CString where
  bytes := [50, 52]
  noNul := by decide

/-- `10.0.0.9` -/
def otherAddress : CString where
  bytes := [49, 48, 46, 48, 46, 48, 46, 57]
  noNul := by decide

/-- `10.0.0.0/8;;10.9.0.0/16;` -/
def networks : CString where
  bytes := [49, 48, 46, 48, 46, 48, 46, 48, 47, 56, 59, 59, 49, 48, 46, 57, 46, 48, 46, 48, 47,
    49, 54, 59]
  noNul := by decide

/-- `10.0.0.53;10.0.0.54;` -/
def servers : CString where
  bytes := [49, 48, 46, 48, 46, 48, 46, 53, 51, 59, 49, 48, 46, 48, 46, 48, 46, 53, 52, 59]
  noNul := by decide

/-- An answer in which a later address takes the place of the first. -/
def full : Outside where
  headers := [⟨"IPADDRESS", address, []⟩, ⟨"ROUTES", networks, []⟩, ⟨"DNS", servers, []⟩,
    ⟨"IPADDRESS", otherAddress, []⟩, ⟨"SUBNETMASK", day, []⟩, ⟨"KEEPALIVETIME", minute, []⟩]

theorem answers_full : Answers digits full where
  openHttps := rfl
  bufAlloc := rfl
  urlpathDup := rfl
  calloc := rfl
  splitCookies := rfl
  grants _ := rfl
  install := rfl
  address := ⟨_, List.mem_cons_self, rfl⟩
  fine h hmem := by
    have hnetworks : Terminated networks := Or.inr rfl
    have hservers : Terminated servers := Or.inr rfl
    simp only [full, List.mem_cons, List.not_mem_nil, or_false] at hmem
    rcases hmem with rfl | rfl | rfl | rfl | rfl | rfl <;>
      exact ⟨by simp [hnetworks], by simp [hservers], by decide, by decide⟩

/-- What an attempt leaves of a session, whether it connects or not. -/
def attempted (o : Outside) (v : VpnInfo) : VpnInfo := ((h3cConnect digits o v).map Prod.snd).getD v

/-- A session with a login, a connection, and an attempt that was given no address. -/
def leftBehind : VpnInfo :=
  attempted { headers := [⟨"GATEWAY", otherAddress, []⟩, ⟨"RESTRICT", minute, []⟩] }
    (attempted assigned (({} : VpnInfo).obtainCookie true loggedIn))

theorem connect_params_full : ∃ v', (leftBehind.ipInfo.addr = some address.bytes ∧
      leftBehind.restrictMode = 60 ∧ leftBehind.lost.length = 8) ∧
    h3cConnect digits full leftBehind = some (0, v') ∧ ConnectedAs digits full leftBehind v' := by
  have hw : leftBehind.getState full.calloc = some leftBehind := if_pos (by decide)
  obtain ⟨v', hr, has⟩ := connect_params answers_full hw
  exact ⟨v', by decide, hr, has⟩

/-- Of two addresses the last, and of the routes the latest in front. -/
example : (paramsOf digits full.headers).addr = some otherAddress.bytes ∧
    (paramsOf digits full.headers).splitIncludes.length = 2 := by decide

end InodeVpn.Proofs.GatewayParams
