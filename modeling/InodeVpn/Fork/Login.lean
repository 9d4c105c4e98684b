import InodeVpn.Fork.Receive
import InodeVpn.Lib.Search
import Mathlib.Data.List.Infix

namespace InodeVpn.Fork.Login
open Lib

def EPERM : Int := 1

/-- What the code uses of libxml2, over nodes of a type `X`. -/
structure Xml (X : Type) where
  /-- The root element of the document that has been read; none is accepted without one. -/
  xmlReadMemory : String → Option X
  /-- `node->children`, and what follows it along `->next` -/
  children : X → List X
  xmlnodeIsNamed : X → String → Bool
  /-- The value that `xmlnode_get_val` stores, if it stores one. -/
  xmlnodeGetVal : X → String → Option String

structure Urls (α : Type) where
  login : α
  logout : α
  checkonline : α
  challenge : α

/-- An answer to `do_https_request`: its value, the body it hands over, and the cookies and the
path that it leaves. -/
structure Reply where
  ret : Int
  body : Option String := none
  cookies : List (String × String) := []
  urlpath : Option String := none

/-- The answer to `process_http_response`, with the headers it passes on. -/
structure Response where
  ret : Int
  headers : List (String × String) := []
  cookies : List (String × String) := []

/-- What everything outside answers to one call of `h3c_obtain_cookie`. -/
structure Outside where
  /-- there is memory for the state of `h3c_get_state` -/
  state : Bool := true
  /-- `openconnect_open_https` -/
  openHttps : Int := 0
  /-- `vpninfo->ssl_write` is set after it -/
  sslWrite : Bool := true
  /-- `buf_error` of the first request -/
  reqbufError : Int := 0
  /-- `ssl_write` of it -/
  written : Int := 0
  /-- `buf_error` of the buffer for the response, where there is memory for one -/
  respBuf : Option Int := some 0
  /-- `process_http_response` -/
  first : Response
  /-- `handle_redirect`, and the path that it leaves -/
  redirect : Int × Option String := (0, none)
  /-- the request to where the redirect leads -/
  redirected : Reply
  /-- the request of `h3c_parse_domain_list` -/
  domain : Reply := { ret := 0 }
  /-- there is memory for the copies of the URLs -/
  copied : Urls Bool := ⟨true, true, true, true⟩
  /-- there is memory for the form -/
  form : Bool := true
  /-- `process_auth_form`, and the values it puts into the form -/
  authForm : Int × Option String × Option String := (0, none, none)
  /-- the login request -/
  login : Reply
  /-- there is memory for the cookie -/
  asprintf : Bool := true

/-- The functions of openconnect that compute something. -/
structure Openconnect where
  addOptionDup : String → String → List (String × String) → List (String × String)
  /-- what `buf_append_urlencoded` appends -/
  urlencoded : Option String → String

/-- The arguments of a `do_https_request`, and the path it asks for. -/
structure Request where
  urlpath : Option String
  method : String
  contentType : Option String
  data : String

/-- What the login uses of `struct openconnect_info` and of `struct h3c_state`, and the requests
that it has made with `do_https_request`. -/
structure VpnInfo where
  cstpOptions : List (String × String) := []
  cookies : List (String × String) := []
  cookie : Option String := none
  urlpath : Option String := none
  urls : Urls (Option String) := ⟨none, none, none, none⟩
  requests : List Request := []

/-- `do_https_request`, answered by `reply`. -/
def VpnInfo.doHttpsRequest (v : VpnInfo) (method : String) (contentType : Option String)
    (data : String) (reply : Reply) : VpnInfo :=
  { v with
    requests := v.requests ++ [⟨v.urlpath, method, contentType, data⟩]
    cookies := reply.cookies
    urlpath := reply.urlpath }

/-- The URL from behind a leading slash on. -/
def dropSlash (url : String) : String :=
  match url.toList with
  | '/' :: rest => String.ofList rest
  | _ => url

def strstr (s sub : String) : Bool := decide (sub.toList <:+: s.toList)

/-- `h3c_set_url`: its value and what it leaves in `*dst`. -/
def h3cSetUrl (copied : Bool) : Option String → Int × Option String
  | none => (0, none)
  | some url => if copied then (0, some (dropSlash url)) else (-ENOMEM, none)

/-- The chain of `h3c_set_url`, which ends with the first that fails. -/
def setUrls (copied : Urls Bool) (urls state : Urls (Option String)) :
    Bool × Urls (Option String) :=
  let login := h3cSetUrl copied.login urls.login
  let state := { state with login := login.2 }
  if login.1 ≠ 0 then (true, state)
  else
    let logout := h3cSetUrl copied.logout urls.logout
    let state := { state with logout := logout.2 }
    if logout.1 ≠ 0 then (true, state)
    else
      let checkonline := h3cSetUrl copied.checkonline urls.checkonline
      let state := { state with checkonline := checkonline.2 }
      if checkonline.1 ≠ 0 then (true, state)
      else
        let challenge := h3cSetUrl copied.challenge urls.challenge
        (challenge.1 ≠ 0, { state with challenge := challenge.2 })

/-- `h3c_request_user_auth`: its value, and the username and the password. -/
def h3cRequestUserAuth (o : Outside) : Int × Option String × Option String :=
  if o.form then
    if o.authForm.1 ≠ 0 then (o.authForm.1, none, none) else o.authForm
  else (-ENOMEM, none, none)

/-- `h3c_store_location_action_from_headers`. -/
def h3cStoreLocationActionFromHeaders (oc : Openconnect) (v : VpnInfo)
    (header : String × String) : VpnInfo :=
  if header.1 = "Location-Action" then
    { v with cstpOptions := oc.addOptionDup "Location-Action" header.2 v.cstpOptions }
  else v

/-- The first `Location-Action` among the options decides. -/
def hasDomainList (options : List (String × String)) : Bool :=
  match options.find? fun opt => opt.1 = "Location-Action" with
  | some opt => opt.2 = "GetDomainList"
  | none => false

namespace Xml
variable {X σ : Type} (xml : Xml X)

/-- `xmlnode_get_val`, on the value of its variable. -/
def getVal (node : X) (name : String) (var : Option String) : Option String :=
  (xml.xmlnodeGetVal node name).or var

/-- `body` on each child of a node that has the name. -/
def within (name : String) (body : σ → X → Except σ σ) (s : σ) (node : X) : Except σ σ :=
  if xml.xmlnodeIsNamed node name then (xml.children node).foldlM body s else .ok s

end Xml

structure Domain where
  vpnName : Option String := none
  vpnUrl : Option String := none

def Domain.isComplete (s : Domain) : Bool := s.vpnName.isSome && s.vpnUrl.isSome

section Documents
variable {X : Type} (xml : Xml X)

def domProp (s : Domain) (prop : X) : Domain :=
  let s := if xml.xmlnodeIsNamed prop "name" then
      { s with vpnName := xml.getVal prop "name" s.vpnName } else s
  if xml.xmlnodeIsNamed prop "url" then { s with vpnUrl := xml.getVal prop "url" s.vpnUrl } else s

/-- The name and the URL that `h3c_parse_domain_list` looks for. -/
def findDomain (root : X) : Domain :=
  gathered <| xml.within "data" (xml.within "domainlist" (xml.within "domain"
    (fillUntil (domProp xml) Domain.isComplete))) {} root

def methodUrl (s : Urls (Option String)) (node : X) : Urls (Option String) where
  login := xml.getVal node "login" s.login
  logout := xml.getVal node "logout" s.logout
  checkonline := xml.getVal node "checkonline" s.checkonline
  challenge := xml.getVal node "challenge" s.challenge

def Urls.isComplete (s : Urls (Option String)) : Bool :=
  s.login.isSome && s.logout.isSome && s.checkonline.isSome && s.challenge.isSome

/-- The URLs that `h3c_obtain_cookie` looks for in the gateway's description. -/
def findUrls (root : X) : Urls (Option String) :=
  gathered <| xml.within "data" (xml.within "gatewayinfo" fun s urlNodes =>
    if xml.xmlnodeIsNamed urlNodes "url" then
      fillUntil (fun s url => (xml.children url).foldl (methodUrl xml) s) Urls.isComplete s urlNodes
    else .ok s) ⟨none, none, none, none⟩ root

/-- `check_login_success`. -/
def checkLoginSuccess (xmlstr : Option String) : Bool :=
  match xmlstr with
  | none => false
  | some xmlstr =>
    match xml.xmlReadMemory xmlstr with
    | none => false
    | some root =>
      let nodes := if xml.xmlnodeIsNamed root "data" then xml.children root else []
      match nodes.foldl (fun result node => xml.getVal node "result" result) none with
      | some result => strstr result "Success"
      | none => false

end Documents

section Login
variable {X : Type} (xml : Xml X) (oc : Openconnect) (o : Outside)

/-- `h3c_parse_domain_list`: the text of the gateway's description, as far as the function gets.
Here and below `none` stands for an `assert` that fails. -/
def h3cParseDomainList (domainListStr : String) (v : VpnInfo) :
    Option (Option String × VpnInfo) :=
  match xml.xmlReadMemory domainListStr with
  | none => none
  | some root =>
    match findDomain xml root with
    | ⟨some _, some vpnUrl⟩ =>
      let v := { v with urlpath := some (dropSlash vpnUrl) }
      let v := v.doHttpsRequest "GET" none "" o.domain
      if o.domain.ret ≥ 0 then some (o.domain.body, v) else none
    | _ => none

/-- `h3c_obtain_cookie` from `has_domain_list` on to `gateway_info_str`. -/
def gatewayInfoStr (v : VpnInfo) : Option (Option String × VpnInfo) :=
  let follows := o.first.ret = 302 ∧ o.redirect.1 = 0
  let redirected := if o.first.ret = 302 then { v with urlpath := o.redirect.2 } else v
  let asked := if follows then redirected.doHttpsRequest "GET" none "" o.redirected else redirected
  if hasDomainList v.cstpOptions then
    match (if follows then o.redirected.body else none) with
    | none => none
    | some domainListStr => h3cParseDomainList xml o domainListStr asked
  else if follows then
    if o.redirected.ret > 0 then some (o.redirected.body, asked) else none
  else some (none, asked)

/-- The data of the login request. -/
def loginRequest (username password : Option String) : String :=
  "request=" ++ oc.urlencoded (some "<data><username>") ++ oc.urlencoded username ++
    oc.urlencoded (some "</username><password>") ++ oc.urlencoded password ++
    oc.urlencoded (some "</password></data>\r\n")

/-- The login request, and the cookie from its reply. -/
def visitLoginUrl (loginUrl : String) (v : VpnInfo) : Option (Int × VpnInfo) :=
  let auth := h3cRequestUserAuth o
  if auth.1 ≠ 0 then none
  else
    let v := { v with urlpath := some (dropSlash loginUrl) }
    let v := v.doHttpsRequest "POST" (some "application/x-www-form-urlencoded")
      (loginRequest oc auth.2.1 auth.2.2) o.login
    if checkLoginSuccess xml o.login.body then
      match v.cookies.find? fun cookie => cookie.1 = "svpnginfo" with
      | some cookie =>
        -- when `asprintf` fails it is not defined what it leaves
        if o.asprintf then some (0, { v with cookie := some ("svpnginfo=" ++ cookie.2) })
        else some (-ENOMEM, { v with cookie := none })
      | none => some (-EPERM, v)
    else some (-EPERM, v)

/-- `h3c_obtain_cookie` from `gateway_info_str` on. -/
def logIn (gatewayInfoStr : String) (v : VpnInfo) : Option (Int × VpnInfo) :=
  match xml.xmlReadMemory gatewayInfoStr with
  | none => none
  | some root =>
    let urls := findUrls xml root
    match urls with
    | ⟨some loginUrl, some _, some _, some _⟩ =>
      let set := setUrls o.copied urls v.urls
      let v := { v with urls := set.2 }
      if set.1 then some (-ENOMEM, v) else visitLoginUrl xml oc o loginUrl v
    | _ => some (-EINVAL, v)

def h3cObtainCookie (v : VpnInfo) : Option (Int × VpnInfo) :=
  if o.state = false then some (-ENOMEM, v)
  else if o.openHttps ≠ 0 then some (o.openHttps, v)
  else if o.sslWrite = false then none
  else if o.reqbufError ≠ 0 then some (o.reqbufError, v)
  else if o.written < 0 then some (o.written, v)
  else
    match o.respBuf with
    | none => none
    | some error =>
      if error ≠ 0 then some (error, v)
      else
        let v := { v with cookies := o.first.cookies }
        let v := o.first.headers.foldl (h3cStoreLocationActionFromHeaders oc) v
        match gatewayInfoStr xml o v with
        | some (some str, v) => logIn xml oc o str v
        | _ => none

end Login

end InodeVpn.Fork.Login
