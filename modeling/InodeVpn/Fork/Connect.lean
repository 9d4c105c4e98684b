import InodeVpn.Fork.Headers
import InodeVpn.Fork.Login
import InodeVpn.Fork.Mainloop
import InodeVpn.Lib.Ledger
import InodeVpn.Lib.Runs

namespace InodeVpn.Fork.Connect
open Lib
open Wire (Bytes)

/-- A `struct oc_vpn_option`. -/
structure VpnOption where
  block : Nat
  option : String
  value : Bytes
  deriving DecidableEq, Repr

def blocks (options : List VpnOption) : List Nat := options.map VpnOption.block

/-- A `struct oc_ip_info`, apart from the blocks of its split routes. -/
structure IpInfo where
  addr : Option Bytes := none
  netmask : Option Bytes := none
  dns : Fin 3 → Option Bytes := fun _ => none
  splitIncludes : List Bytes := []
  mtu : Int := 0

/-- The heap, with `parse_opts` and the blocks of the split routes of `parse_ip_info`; `asked` is
how often memory has been asked for in this attempt. -/
structure Arena where
  ledger : Ledger := {}
  parseOpts : List VpnOption := []
  routeBlocks : List Nat := []
  asked : Nat := 0
  deriving DecidableEq, Repr

/-- `add_option_dup` on `parse_opts`, and `malloc` of a split route, where `grants` says which
request for memory is met. -/
def arenaHeap (grants : Nat → Bool) : Heap Arena where
  addOptionDup option value a :=
    let next := { a with asked := a.asked + 1 }
    if grants a.asked then
      ({ next with
        ledger := a.ledger.malloc
        parseOpts := ⟨a.ledger.next, option, value⟩ :: a.parseOpts }, true)
    else (next, false)
  malloc a :=
    let next := { a with asked := a.asked + 1 }
    if grants a.asked then
      ({ next with
        ledger := a.ledger.malloc
        routeBlocks := a.ledger.next :: a.routeBlocks }, true)
    else (next, false)

/-- The URLs that a login stores in `h3c_state`. -/
inductive StateUrl
  | login
  | logout
  | checkonline
  | challenge
  deriving DecidableEq, Repr

/-- The fields of `openconnect_info` and `h3c_state` that a session uses. -/
structure VpnInfo where
  /-- `proto_data` -/
  state : Option Nat := none
  arena : Arena := {}
  parseIpInfo : IpInfo := {}
  parseSawAddress : Bool := false
  tunnelGateway : Option (Nat × Bytes) := none
  restrictMode : Int := 0
  /-- each with its block -/
  urls : StateUrl → Option (Nat × String) := fun _ => none
  /-- what is installed: `cstp_options`, `ip_info`, and the blocks of its split routes -/
  cstpOptions : List VpnOption := []
  ipInfo : IpInfo := {}
  ipRoutes : List Nat := []
  /-- the block of `urlpath` -/
  urlpath : Option Nat := none
  /-- the blocks that nothing points to any more, for the record -/
  lost : List Nat := []
  /-- `vpninfo->cookies` is set -/
  cookies : Bool := false
  /-- the rest of the two structures, as the main loop sees them -/
  transport : Fork.VpnInfo := {}

/-- A header that `process_http_response` passes on, and what the memory behind its value holds. -/
structure Header where
  name : String
  value : CString
  behind : Bytes := []

/-- What everything outside answers to one call of `h3c_connect`. -/
structure Outside where
  /-- there is memory for the state of `h3c_get_state` -/
  calloc : Bool := true
  /-- `internal_split_cookies`, and whether cookies are set after it -/
  splitCookies : Int × Bool := (0, true)
  openHttps : Int := 0
  bufAlloc : Bool := true
  urlpathDup : Bool := true
  /-- the headers of the answer, as far as it was read -/
  headers : List Header := []
  /-- `do_https_request`, and whether it hands over a body -/
  ret : Int := 0
  body : Bool := true
  /-- which requests for memory are met while the headers are parsed -/
  grants : Nat → Bool := fun _ => true
  dumpHttpTraffic : Bool := false
  /-- `install_vpn_opts` -/
  install : Int := 0
  now : Int := 0

namespace VpnInfo

def free (blocks : List Nat) (v : VpnInfo) : VpnInfo :=
  { v with arena := { v.arena with ledger := v.arena.ledger.free blocks } }

def malloc (v : VpnInfo) : VpnInfo :=
  { v with arena := { v.arena with ledger := v.arena.ledger.malloc } }

/-- The number of the block that `malloc` hands out. -/
def nextBlock (v : VpnInfo) : Nat := v.arena.ledger.next

/-- `h3c_get_state`. -/
def getState (calloc : Bool) (v : VpnInfo) : Option VpnInfo :=
  if v.state.isSome then some v
  else if calloc then
    some { v with
      state := some v.nextBlock
      arena := { v.arena with
        ledger := v.arena.ledger.malloc
        parseOpts := []
        routeBlocks := [] }
      parseIpInfo := {}
      parseSawAddress := false
      tunnelGateway := none
      restrictMode := 0
      urls := fun _ => none
      transport := { v.transport with
        keepaliveTime := H3C_KEEPALIVE_DEFAULT
        keepaliveConfigured := false
        lastRx := 0
        lastTx := 0
        txOffset := 0
        hbBuf := [0, 0, 0, 0]
        hbOffset := 0
        hbPending := false } }
  else none

/-- `free_split_routes(&state->parse_ip_info)`, `free_optlist(state->parse_opts)` and the `memset`
that follows them. -/
def dropParsed (v : VpnInfo) : VpnInfo :=
  { v with
    arena := { v.arena with
      ledger := v.arena.ledger.free (v.arena.routeBlocks ++ blocks v.arena.parseOpts)
      parseOpts := []
      routeBlocks := [] }
    parseIpInfo := {} }

/-- `free(state->tunnel_gateway)`. -/
def dropGateway (v : VpnInfo) : VpnInfo :=
  { v.free (v.tunnelGateway.map Prod.fst).toList with tunnelGateway := none }

/-- `h3c_reset_parse_state`. -/
def resetParseState (v : VpnInfo) : VpnInfo :=
  { v.dropParsed.dropGateway with parseSawAddress := false }

/-- `free` of one of the URLs. -/
def dropUrl (url : StateUrl) (v : VpnInfo) : VpnInfo :=
  { v.free ((v.urls url).map Prod.fst).toList with urls := Function.update v.urls url none }

def dropUrls (v : VpnInfo) : VpnInfo :=
  (((v.dropUrl .login).dropUrl .logout).dropUrl .checkonline).dropUrl .challenge

/-- `h3c_free_state`. -/
def freeState (v : VpnInfo) : VpnInfo :=
  match v.state with
  | none => v
  | some block =>
    { v.dropUrls.dropGateway.dropParsed.free [block] with
      state := none
      parseSawAddress := false }

/-- `free(vpninfo->urlpath)`. -/
def dropUrlpath (v : VpnInfo) : VpnInfo :=
  { v.free v.urlpath.toList with urlpath := none }

/-- `vpninfo->urlpath = strdup(..)`. -/
def dupUrlpath (v : VpnInfo) : VpnInfo := { v.malloc with urlpath := some v.nextBlock }

/-- The body of an answer, which nobody reads, is given back. -/
def receiveBody (body : Bool) (v : VpnInfo) : VpnInfo :=
  if body then v.malloc.free [v.nextBlock] else v

def setCookies (cookies : Bool) (v : VpnInfo) : VpnInfo := { v with cookies }

/-- `vpninfo->urlpath = NULL`, with no `free` before it. -/
def loseUrlpath (v : VpnInfo) : VpnInfo :=
  { v with urlpath := none, lost := v.urlpath.toList ++ v.lost }

/-- A block that is never given back. -/
def lose (v : VpnInfo) : VpnInfo := { v.malloc with lost := v.nextBlock :: v.lost }

/-- `h3c_set_url`. -/
def setUrl (url : StateUrl) (text : Option String) (dup : Bool) (v : VpnInfo) : VpnInfo :=
  let v := v.dropUrl url
  match text with
  | none => v
  | some text =>
    if dup then
      { v.malloc with
        urls := Function.update v.urls url (some (v.nextBlock, Login.dropSlash text)) }
    else v

/-- `h3c_store_location_action_from_headers`, where there is memory for the option. -/
def storeLocationAction (value : Bytes) (v : VpnInfo) : VpnInfo :=
  { v.malloc with cstpOptions := ⟨v.nextBlock, "Location-Action", value⟩ :: v.cstpOptions }

/-- The TLS connection is opened, or closed. -/
def setSsl (sslOpen : Bool) (v : VpnInfo) : VpnInfo :=
  { v with transport := { v.transport with sslOpen, ssl := {} } }

/-- The requests for memory are counted anew. -/
def countAnew (v : VpnInfo) : VpnInfo := { v with arena := { v.arena with asked := 0 } }

end VpnInfo

section Branches
variable (grants : Nat → Bool) (value : CString) (v : VpnInfo)

/-- The branch for `IPADDRESS`. -/
def setAddress : Int × VpnInfo :=
  let added := (arenaHeap grants).addOptionDup "ipaddr" value.bytes v.arena
  if added.2 then
    (0, { v with
      arena := added.1
      parseIpInfo := { v.parseIpInfo with addr := some value.bytes }
      parseSawAddress := true })
  else (-ENOMEM, { v with arena := added.1 })

def setNetmask (masklen : Int) : Option (Int × VpnInfo) :=
  (h3cSubnetmask (arenaHeap grants) masklen ⟨v.parseIpInfo.netmask, v.arena⟩).map fun r =>
    (r.1, { v with
      arena := r.2.heap
      parseIpInfo := { v.parseIpInfo with netmask := r.2.netmask } })

def setRoutes (behind : Bytes) : Option (Int × VpnInfo) :=
  (h3cRoutes (arenaHeap grants) (value.inMemory behind)
    ⟨v.parseIpInfo.splitIncludes, v.parseIpInfo.dns, v.arena⟩).value.map fun r =>
      (r.1, { v with
        arena := r.2.heap
        parseIpInfo := { v.parseIpInfo with splitIncludes := r.2.splitIncludes } })

def setDns (behind : Bytes) : Option (Int × VpnInfo) :=
  (h3cDns (arenaHeap grants) (value.inMemory behind)
    ⟨v.parseIpInfo.splitIncludes, v.parseIpInfo.dns, v.arena⟩).value.map fun r =>
      (r.1, { v with
        arena := r.2.heap
        parseIpInfo := { v.parseIpInfo with dns := r.2.dns } })

def setGateway : Int × VpnInfo :=
  let v := v.dropGateway
  let asked := { v with arena := { v.arena with asked := v.arena.asked + 1 } }
  if grants v.arena.asked then
    (0, { asked.malloc with tunnelGateway := some (v.nextBlock, value.bytes) })
  else (-ENOMEM, asked)

end Branches

/-- `h3c_get_vpn_param_from_headers`: nothing where C does not define what happens. `atoi` is that
of the C library. -/
def getVpnParamFromHeaders (atoi : Bytes → Int) (o : Outside) (h : Header) (v : VpnInfo) :
    Option (Int × VpnInfo) :=
  let set : Option (Int × VpnInfo) :=
    if h.name = "IPADDRESS" then some (setAddress o.grants h.value v)
    else if h.name = "SUBNETMASK" then setNetmask o.grants v (atoi h.value.bytes)
    else if h.name = "ROUTES" then setRoutes o.grants h.value v h.behind
    else if h.name = "DNS" then setDns o.grants h.value v h.behind
    else if h.name = "GATEWAY" then some (setGateway o.grants h.value v)
    else if h.name = "KEEPALIVETIME" then
      some (0, { v with
        transport := { v.transport with
          keepaliveConfigured := true
          keepaliveTime := atoi h.value.bytes } })
    else if h.name = "RESTRICT" then some (0, { v with restrictMode := atoi h.value.bytes })
    else
      -- Unknown header: preserve it for diagnostics.
      some (0, { v with
        arena := ((arenaHeap o.grants).addOptionDup h.name h.value.bytes v.arena).1 })
  set.bind fun r =>
    -- an error returns before the dump, whose buffer has 1000 bytes
    if r.1 = 0 ∧ o.dumpHttpTraffic ∧ 1000 < h.name.utf8ByteSize + h.value.bytes.length + 2 then none
    else some r

/-- The callback on one header after the other; what it returns changes nothing. -/
def readHeaders (atoi : Bytes → Int) (o : Outside) : List Header → VpnInfo → Option VpnInfo
  | [], v => some v
  | h :: hs, v => (getVpnParamFromHeaders atoi o h v).bind fun r => readHeaders atoi o hs r.2

/-- `install_vpn_opts` where it succeeds, and what `h3c_connect` does after it. -/
def install (o : Outside) (v : VpnInfo) : VpnInfo :=
  let ipInfo := if v.parseIpInfo.mtu = 0 then { v.parseIpInfo with mtu := 1400 } else v.parseIpInfo
  { v with
    arena := { v.arena with
      ledger := v.arena.ledger.free (v.ipRoutes ++ blocks v.cstpOptions)
      parseOpts := []
      routeBlocks := [] }
    parseIpInfo := {}
    cstpOptions := v.arena.parseOpts
    ipInfo := ipInfo
    ipRoutes := v.arena.routeBlocks
    transport := { v.transport with
      mtu := ipInfo.mtu
      cstpPkt := none
      txOffset := 0
      hbOffset := 0
      hbPending := false
      lastRx := o.now
      lastTx := o.now } }

/-- `h3c_connect` from the NET_EXTEND request on. -/
def netExtend (atoi : Bytes → Int) (o : Outside) (requestData : Nat) (v : VpnInfo) :
    Option (Int × VpnInfo) :=
  (readHeaders atoi o o.headers v).map fun v =>
    let v := (v.receiveBody o.body).free [requestData]
    if v.parseSawAddress then
      if o.install ≠ 0 then (o.install, v.dropParsed) else (0, install o v)
    else (if o.ret < 0 then o.ret else -EINVAL, v.resetParseState)

/-- `h3c_connect` once the connection is open. -/
def request (atoi : Bytes → Int) (o : Outside) (v : VpnInfo) : Option (Int × VpnInfo) :=
  if o.bufAlloc then
    let requestData := v.nextBlock
    let v := v.malloc.dropUrlpath
    if o.urlpathDup then netExtend atoi o requestData v.dupUrlpath
    else some (-ENOMEM, v.free [requestData])
  else some (-ENOMEM, v)

/-- `h3c_connect`. -/
def h3cConnect (atoi : Bytes → Int) (o : Outside) (v : VpnInfo) : Option (Int × VpnInfo) :=
  match v.getState o.calloc with
  | none => some (-ENOMEM, v)
  | some v =>
    let v := v.resetParseState.countAnew
    if !v.cookies && o.splitCookies.1 ≠ 0 then
      some (o.splitCookies.1, v.setCookies o.splitCookies.2)
    else
      let v := v.setCookies (v.cookies || o.splitCookies.2)
      if o.openHttps ≠ 0 then some (o.openHttps, v) else request atoi o (v.setSsl true)

/-- What everything outside answers to one call of `h3c_bye`. -/
structure ByeOutside where
  calloc : Bool := true
  openHttps : Int := 0
  urlpathDup : Bool := true
  ret : Int := 0
  body : Bool := true

/-- `h3c_bye`. -/
def h3cBye (o : ByeOutside) (v : VpnInfo) : Int × VpnInfo :=
  match v.getState o.calloc with
  | none => (-EINVAL, v.setSsl false)
  | some v =>
    let v := v.setSsl false
    if (v.urls .logout).isNone then (-EINVAL, v)
    else if o.openHttps ≠ 0 then (o.openHttps, v)
    else
      let v := v.dropUrlpath
      if o.urlpathDup then
        -- an empty body is what the logout page answers with
        (if o.ret < 0 ∧ o.ret ≠ -EINVAL then o.ret else 0, v.dupUrlpath.receiveBody o.body)
      else (-ENOMEM, v.setSsl true)

/-- What `h3c_obtain_cookie` does to the memory of the session, behind `h3c_get_state`. -/
inductive LoginStep
  /-- a buffer that is freed again -/
  | buffer
  /-- what is not: `reqbuf`, `resp_buf`, `request_data`, a body, a document or a text out of one,
  the username and the password -/
  | keep
  | locationAction (value : Bytes)
  /-- `handle_redirect`, or a `do_https_request` that follows one, has replaced `urlpath` -/
  | redirect (dup : Bool)
  /-- `vpninfo->urlpath = strdup(..)` -/
  | urlpath (dup : Bool)
  | setUrl (url : StateUrl) (text : Option String) (dup : Bool)
  | cookies (cookies : Bool)
  | ssl (sslOpen : Bool)

def loginStep (v : VpnInfo) : LoginStep → VpnInfo
  | .buffer => v.receiveBody true
  | .keep => v.lose
  | .locationAction value => v.storeLocationAction value
  | .redirect dup => if dup then v.dropUrlpath.dupUrlpath else v.dropUrlpath
  | .urlpath dup => if dup then v.loseUrlpath.dupUrlpath else v.loseUrlpath
  | .setUrl url text dup => v.setUrl url text dup
  | .cookies cookies => v.setCookies cookies
  | .ssl sslOpen => v.setSsl sslOpen

/-- `h3c_obtain_cookie`, for the memory of the session. Which of its steps it makes, and how often,
is for the gateway and the memory to say; here it may make any, in any order. -/
def VpnInfo.obtainCookie (calloc : Bool) (steps : List LoginStep) (v : VpnInfo) : VpnInfo :=
  match v.getState calloc with
  | none => v
  | some v => steps.foldl loginStep v

/-- What happens to a session, in any order and number. -/
inductive Event
  | connect (o : Outside)
  | bye (o : ByeOutside)
  | login (calloc : Bool) (steps : List LoginStep)
  /-- whatever the main loop does between two attempts -/
  | traffic (transport : Fork.VpnInfo)
  | freeState

def step (atoi : Bytes → Int) (v : VpnInfo) : Event → Option (VpnInfo × Option Int)
  | .connect o => (h3cConnect atoi o v).map fun r => (r.2, some r.1)
  | .bye o => some ((h3cBye o v).2, some (h3cBye o v).1)
  | .login calloc steps => some (v.obtainCookie calloc steps, none)
  | .traffic transport => some ({ v with transport }, none)
  | .freeState => some (v.freeState, none)

/-- The life of one `openconnect_info`. -/
def session (atoi : Bytes → Int) : System VpnInfo Event Int where
  init v := v = {}
  step := step atoi

end InodeVpn.Fork.Connect
