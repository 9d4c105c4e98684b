import InodeVpn.Fork.Login
import InodeVpn.Lib.Runs

namespace InodeVpn.Proofs.ObtainCookie
open Lib Fork.Login

variable {X : Type} (xml : Xml X) (oc : Openconnect) (o : Outside)

/-- The children of a node that has the name. -/
def inside (name : String) (node : X) : List X :=
  if xml.xmlnodeIsNamed node name then xml.children node else []

/-- What stands in `data`/`domainlist`/`domain`. -/
def domProps (root : X) : List X :=
  ((inside xml "data" root).flatMap (inside xml "domainlist")).flatMap (inside xml "domain")

/-- The `url` elements in `data`/`gatewayinfo`. -/
def urlNodes (root : X) : List X :=
  ((inside xml "data" root).flatMap (inside xml "gatewayinfo")).filter
    fun node => xml.xmlnodeIsNamed node "url"

inductive DomainTag
  | name
  | url

def DomainTag.text : DomainTag → String
  | .name => "name"
  | .url => "url"

inductive UrlTag
  | login
  | logout
  | checkonline
  | challenge

def UrlTag.text : UrlTag → String
  | .login => "login"
  | .logout => "logout"
  | .checkonline => "checkonline"
  | .challenge => "challenge"

/-- The list of domains has a name and a URL. -/
def NamesDomain (root : X) : Prop :=
  ∀ tag : DomainTag, ∃ prop ∈ domProps xml root, xml.xmlnodeIsNamed prop tag.text = true ∧
    (xml.xmlnodeGetVal prop tag.text).isSome = true

/-- The gateway's description has all of the URLs. -/
def NamesUrls (root : X) : Prop :=
  ∀ tag : UrlTag, ∃ url ∈ urlNodes xml root, ∃ node ∈ xml.children url,
    (xml.xmlnodeGetVal node tag.text).isSome = true

/-- The value that the last of the `result` elements has. -/
def LastResult (root : X) (result : String) : Prop :=
  ∃ before node after, inside xml "data" root = before ++ node :: after ∧
    xml.xmlnodeGetVal node "result" = some result ∧
    ∀ later ∈ after, xml.xmlnodeGetVal later "result" = none

/-- The gateway has let the user in: the login reply says so and leaves an `svpnginfo` cookie. -/
structure LoggedIn (v : VpnInfo) : Prop where
  success : ∃ body root result, o.login.body = some body ∧ xml.xmlReadMemory body = some root ∧
    LastResult xml root result ∧ "Success".toList <:+: result.toList
  cookie : ∃ before value after, o.login.cookies = before ++ ("svpnginfo", value) :: after ∧
    (∀ other ∈ before, other.1 ≠ "svpnginfo") ∧ v.cookie = some ("svpnginfo=" ++ value)

/-- The call returns, and with 0 only when the user is let in. -/
structure Sound (v : VpnInfo) : Prop where
  returns : ∃ ret v', h3cObtainCookie xml oc o v = some (ret, v')
  loggedIn : ∀ v', h3cObtainCookie xml oc o v = some (0, v') → LoggedIn xml o v'

/-- The call returns before it has looked at a reply. -/
def EndsEarly : Prop :=
  o.state = false ∨ o.openHttps ≠ 0 ∨
    o.sslWrite = true ∧ (o.reqbufError ≠ 0 ∨ o.written < 0 ∨
      ∃ error, o.respBuf = some error ∧ error ≠ 0)

/-- `vpninfo` after the first reply. -/
def afterFirst (v : VpnInfo) : VpnInfo :=
  o.first.headers.foldl (h3cStoreLocationActionFromHeaders oc) { v with cookies := o.first.cookies }

/-- The gateway hands out the text of its description, directly or behind a list of domains. -/
def HandsOut (v : VpnInfo) (str : String) : Prop :=
  if hasDomainList (afterFirst oc o v).cstpOptions then
    ∃ list, o.redirected.body = some list ∧
      (∃ root, xml.xmlReadMemory list = some root ∧ NamesDomain xml root) ∧
      0 ≤ o.domain.ret ∧ o.domain.body = some str
  else 0 < o.redirected.ret ∧ o.redirected.body = some str

/-- The description ends the login, or the user can be asked. -/
def Settled (root : X) : Prop :=
  ¬NamesUrls xml root ∨ o.copied ≠ ⟨true, true, true, true⟩ ∨ o.form = true ∧ o.authForm.1 = 0

/-- The replies that no `assert` fails on: the first is a redirect that leads to a description of
the gateway which is XML. -/
structure Orderly (v : VpnInfo) : Prop where
  sslWrite : o.sslWrite = true
  respBuf : o.respBuf = some 0
  first : o.first.ret = 302
  redirect : o.redirect.1 = 0
  describes : ∃ str root, HandsOut xml oc o v str ∧ xml.xmlReadMemory str = some root ∧
    Settled xml o root

section Search
variable {xml}

theorem within_eq {σ : Type} (name : String) (body : σ → X → Except σ σ) (s : σ) (node : X) :
    xml.within name body s node = (inside xml name node).foldlM body s := by
  unfold Xml.within inside
  split <;> rfl

theorem foldlM_within {σ : Type} (name : String) (body : σ → X → Except σ σ) (s : σ)
    (nodes : List X) : nodes.foldlM (xml.within name body) s =
      (nodes.flatMap (inside xml name)).foldlM body s := by
  rw [foldlM_flatMap]
  congr
  exact funext fun s => funext fun node => within_eq name body s node

theorem getVal_isSome {node : X} {name : String} {var : Option String} :
    (xml.getVal node name var).isSome = true ↔
      var.isSome = true ∨ (xml.xmlnodeGetVal node name).isSome = true := by
  rw [Xml.getVal, Option.isSome_or, Bool.or_eq_true, or_comm]

theorem namedVal_isSome {node : X} {name : String} {var : Option String} :
    (if xml.xmlnodeIsNamed node name then xml.getVal node name var else var).isSome = true ↔
      var.isSome = true ∨
        xml.xmlnodeIsNamed node name = true ∧ (xml.xmlnodeGetVal node name).isSome = true := by
  split
  · rename_i hnamed
    rw [getVal_isSome, and_iff_right hnamed]
  · rename_i hnamed
    rw [or_iff_left fun h => hnamed h.1]

/-- What is there of a domain. -/
def domainHas : DomainTag → Domain → Prop
  | .name, s => s.vpnName.isSome = true
  | .url, s => s.vpnUrl.isSome = true

def urlsHave : UrlTag → Urls (Option String) → Prop
  | .login, s => s.login.isSome = true
  | .logout, s => s.logout.isSome = true
  | .checkonline, s => s.checkonline.isSome = true
  | .challenge, s => s.challenge.isSome = true

theorem domain_complete (s : Domain) : s.isComplete = true ↔ ∀ tag, domainHas tag s := by
  rw [Domain.isComplete, Bool.and_eq_true]
  constructor
  · rintro ⟨hname, hurl⟩ tag
    cases tag with
    | name => exact hname
    | url => exact hurl
  · exact fun h => ⟨h .name, h .url⟩

theorem urls_complete (s : Urls (Option String)) :
    Urls.isComplete s = true ↔ ∀ tag, urlsHave tag s := by
  simp only [Urls.isComplete, Bool.and_eq_true]
  constructor
  · rintro ⟨⟨⟨hlogin, hlogout⟩, hcheckonline⟩, hchallenge⟩ tag
    cases tag with
    | login => exact hlogin
    | logout => exact hlogout
    | checkonline => exact hcheckonline
    | challenge => exact hchallenge
  · exact fun h => ⟨⟨⟨h .login, h .logout⟩, h .checkonline⟩, h .challenge⟩

theorem domProp_slots : Slots (domProp xml) domainHas fun tag prop =>
    xml.xmlnodeIsNamed prop tag.text = true ∧
      (xml.xmlnodeGetVal prop tag.text).isSome = true := by
  intro tag s prop
  have hname : (domProp xml s prop).vpnName = if xml.xmlnodeIsNamed prop "name" then
      xml.getVal prop "name" s.vpnName else s.vpnName := by
    unfold domProp
    split <;> split <;> rfl
  have hurl : (domProp xml s prop).vpnUrl = if xml.xmlnodeIsNamed prop "url" then
      xml.getVal prop "url" s.vpnUrl else s.vpnUrl := by
    unfold domProp
    split <;> split <;> rfl
  cases tag with
  | name =>
    show (domProp xml s prop).vpnName.isSome = true ↔ _
    rw [hname]
    exact namedVal_isSome
  | url =>
    show (domProp xml s prop).vpnUrl.isSome = true ↔ _
    rw [hurl]
    exact namedVal_isSome

theorem methodUrl_slots : Slots (methodUrl xml) urlsHave fun tag node =>
    (xml.xmlnodeGetVal node tag.text).isSome = true := by
  intro tag s node
  cases tag <;> exact getVal_isSome

/-- `h3c_parse_domain_list` finds a domain if there is one. -/
theorem findDomain_complete (root : X) :
    (findDomain xml root).isComplete = true ↔ NamesDomain xml root := by
  rw [domain_complete, findDomain, within_eq, foldlM_within, foldlM_within]
  rw [domProp_slots.search domain_complete]
  refine forall_congr' fun tag => or_iff_right ?_
  cases tag <;> exact Bool.false_ne_true

/-- So does the search for the URLs. -/
theorem findUrls_complete (root : X) :
    Urls.isComplete (findUrls xml root) = true ↔ NamesUrls xml root := by
  have hslots : Slots (fun s url => (xml.children url).foldl (methodUrl xml) s) urlsHave
      fun tag url => ∃ node ∈ xml.children url,
        (xml.xmlnodeGetVal node tag.text).isSome = true :=
    fun tag s url => methodUrl_slots.foldl tag (xml.children url) s
  have hsearch := hslots.search urls_complete (urlNodes xml root) ⟨none, none, none, none⟩
  rw [urlNodes, List.foldlM_filter] at hsearch
  rw [urls_complete, findUrls, within_eq, foldlM_within]
  refine hsearch.trans (forall_congr' fun tag => or_iff_right ?_)
  cases tag <;> exact Bool.false_ne_true

/-- The last `result` element decides. -/
theorem lastResult_iff (nodes : List X) (result : String) :
    nodes.foldl (fun result node => xml.getVal node "result" result) none = some result ↔
      ∃ before node after, nodes = before ++ node :: after ∧
        xml.xmlnodeGetVal node "result" = some result ∧
        ∀ later ∈ after, xml.xmlnodeGetVal later "result" = none := by
  induction nodes using List.reverseRecOn with
  | nil => simp
  | append_singleton nodes last ih =>
    rw [List.foldl_append, List.foldl_cons, List.foldl_nil, Xml.getVal]
    cases hlast : xml.xmlnodeGetVal last "result" with
    | some value =>
      rw [Option.some_or]
      constructor
      · rintro ⟨⟩
        exact ⟨nodes, last, [], rfl, hlast, fun later hlater => absurd hlater List.not_mem_nil⟩
      · rintro ⟨before, node, after, heq, hnode, hafter⟩
        rcases append_one_split heq with ⟨rfl, rfl⟩ | ⟨after', rfl, rfl⟩
        · rw [← hlast, hnode]
        · have hnone := hafter last (List.mem_append_right _ (List.mem_singleton_self _))
          rw [hlast] at hnone
          cases hnone
    | none =>
      rw [Option.none_or, ih]
      constructor
      · rintro ⟨before, node, after, rfl, hnode, hafter⟩
        refine ⟨before, node, after ++ [last], by simp, hnode, ?_⟩
        intro later hlater
        rcases List.mem_append.mp hlater with hold | hnew
        · exact hafter later hold
        · rwa [List.mem_singleton.mp hnew]
      · rintro ⟨before, node, after, heq, hnode, hafter⟩
        rcases append_one_split heq with ⟨rfl, rfl⟩ | ⟨after', rfl, rfl⟩
        · rw [hlast] at hnode
          cases hnode
        · exact ⟨before, node, after', rfl, hnode,
            fun later hlater => hafter later (List.mem_append_left _ hlater)⟩

theorem checkLoginSuccess_iff {xmlstr : Option String} : checkLoginSuccess xml xmlstr = true ↔
    ∃ body root result, xmlstr = some body ∧ xml.xmlReadMemory body = some root ∧
      LastResult xml root result ∧ "Success".toList <:+: result.toList := by
  constructor
  · intro h
    unfold checkLoginSuccess at h
    split at h
    · cases h
    · rename_i body
      split at h
      · cases h
      · rename_i root hroot
        simp only at h
        split at h
        · rename_i result hresult
          exact ⟨body, root, result, rfl, hroot, (lastResult_iff _ _).mp hresult,
            of_decide_eq_true h⟩
        · cases h
  · rintro ⟨body, root, result, rfl, hroot, hresult, hinfix⟩
    have hfold := (lastResult_iff _ _).mpr hresult
    rw [inside] at hfold
    simp only [checkLoginSuccess, hroot, hfold]
    exact decide_eq_true hinfix

end Search

section Login
variable {xml} {oc} {o} {v v' : VpnInfo}

/-- The chain of copies fails with one of them. -/
theorem setUrls_fails {copied : Urls Bool} {login logout checkonline challenge : String}
    {state : Urls (Option String)} :
    (setUrls copied ⟨some login, some logout, some checkonline, some challenge⟩ state).1 = true ↔
      copied ≠ ⟨true, true, true, true⟩ := by
  obtain ⟨c₁, c₂, c₃, c₄⟩ := copied
  cases c₁ <;> cases c₂ <;> cases c₃ <;> cases c₄ <;> simp [setUrls, h3cSetUrl, Fork.ENOMEM]

theorem userAuth_iff : (h3cRequestUserAuth o).1 = 0 ↔ o.form = true ∧ o.authForm.1 = 0 := by
  unfold h3cRequestUserAuth
  cases o.form with
  | false => simp [Fork.ENOMEM]
  | true => by_cases hauth : o.authForm.1 = 0 <;> simp [hauth]

/-- The login request is sent if the user can be asked. -/
theorem visitLoginUrl_returns {loginUrl : String} :
    (visitLoginUrl xml oc o loginUrl v).isSome = true ↔ o.form = true ∧ o.authForm.1 = 0 := by
  rw [← userAuth_iff, visitLoginUrl]
  by_cases hauth : (h3cRequestUserAuth o).1 = 0
  · simp only [hauth, ne_eq, not_true_eq_false, if_false, iff_true]
    repeat' split
    all_goals rfl
  · simp only [hauth, ne_eq, not_false_eq_true, if_true, iff_false]
    exact Bool.false_ne_true

theorem visitLoginUrl_loggedIn {loginUrl : String}
    (h : visitLoginUrl xml oc o loginUrl v = some (0, v')) : LoggedIn xml o v' := by
  unfold visitLoginUrl at h
  simp only at h
  split at h
  · cases h
  · split at h
    · rename_i hsuccess
      split at h
      · rename_i cookie hcookie
        obtain ⟨hname, before, after, hcookies, hbefore⟩ := List.find?_eq_some_iff_append.mp hcookie
        obtain ⟨name, value⟩ := cookie
        split at h
        · cases h
          refine ⟨checkLoginSuccess_iff.mp hsuccess, before, value, after, ?_, ?_, rfl⟩
          · rw [← of_decide_eq_true hname]
            exact hcookies
          · intro other hother heq
            simpa [heq] using hbefore other hother
        · cases h
      · cases h
    · cases h

theorem urls_of_complete {s : Urls (Option String)} (h : Urls.isComplete s = true) :
    ∃ login logout checkonline challenge,
      s = ⟨some login, some logout, some checkonline, some challenge⟩ := by
  obtain ⟨login, logout, checkonline, challenge⟩ := s
  simp only [Urls.isComplete, Bool.and_eq_true, Option.isSome_iff_exists] at h
  obtain ⟨⟨⟨⟨a, rfl⟩, b, rfl⟩, c, rfl⟩, d, rfl⟩ := h
  exact ⟨a, b, c, d, rfl⟩

/-- The description of the gateway has to be XML, and to end the login or let the user be
asked. -/
theorem logIn_returns {str : String} : (logIn xml oc o str v).isSome = true ↔
    ∃ root, xml.xmlReadMemory str = some root ∧ Settled xml o root := by
  unfold logIn
  cases hroot : xml.xmlReadMemory str with
  | none => simp
  | some root =>
    simp only [Option.some.injEq, exists_eq_left', Settled, ← findUrls_complete]
    split
    · rename_i a b c d hurls
      have hcomplete : Urls.isComplete ⟨some a, some b, some c, some d⟩ = true := rfl
      rw [hurls, or_iff_right (not_not.mpr hcomplete)]
      split
      · rename_i hfails
        exact iff_of_true rfl (Or.inl (setUrls_fails.mp hfails))
      · rename_i hcopied
        rw [← setUrls_fails, or_iff_right hcopied]
        exact visitLoginUrl_returns
    · rename_i hnot
      refine iff_of_true rfl (Or.inl fun hcomplete => ?_)
      obtain ⟨a, b, c, d, hurls⟩ := urls_of_complete hcomplete
      exact hnot a b c d hurls

theorem logIn_loggedIn {str : String} (h : logIn xml oc o str v = some (0, v')) :
    LoggedIn xml o v' := by
  unfold logIn at h
  simp only at h
  split at h
  · cases h
  · split at h
    · split at h
      · cases h
      · exact visitLoginUrl_loggedIn h
    · cases h

theorem domain_of_complete {s : Domain} (h : s.isComplete = true) :
    ∃ vpnName vpnUrl, s = ⟨some vpnName, some vpnUrl⟩ := by
  obtain ⟨vpnName, vpnUrl⟩ := s
  simp only [Domain.isComplete, Bool.and_eq_true, Option.isSome_iff_exists] at h
  obtain ⟨⟨a, rfl⟩, b, rfl⟩ := h
  exact ⟨a, b, rfl⟩

/-- Behind a list of domains, which has to be XML and to name a domain. -/
theorem parseDomainList_iff {list str : String} :
    (∃ v', h3cParseDomainList xml o list v = some (some str, v')) ↔
      (∃ root, xml.xmlReadMemory list = some root ∧ NamesDomain xml root) ∧
        0 ≤ o.domain.ret ∧ o.domain.body = some str := by
  unfold h3cParseDomainList
  cases hroot : xml.xmlReadMemory list with
  | none => simp
  | some root =>
    simp only [Option.some.injEq, exists_eq_left', ← findDomain_complete]
    split
    · rename_i vpnName vpnUrl hdomain
      have hcomplete : Domain.isComplete ⟨some vpnName, some vpnUrl⟩ = true := rfl
      rw [hdomain, and_iff_right hcomplete]
      split
      · rename_i hret
        rw [and_iff_right hret]
        simp
      · rename_i hret
        simp [hret]
    · rename_i hnot
      refine iff_of_false (by simp) fun h => ?_
      obtain ⟨vpnName, vpnUrl, hdomain⟩ := domain_of_complete h.1
      exact hnot vpnName vpnUrl hdomain

/-- What the gateway hands out is what the login goes on with. -/
theorem gatewayInfoStr_iff {str : String} :
    (∃ v', gatewayInfoStr xml o v = some (some str, v')) ↔ o.first.ret = 302 ∧ o.redirect.1 = 0 ∧
      if hasDomainList v.cstpOptions then
        ∃ list, o.redirected.body = some list ∧
          (∃ root, xml.xmlReadMemory list = some root ∧ NamesDomain xml root) ∧
          0 ≤ o.domain.ret ∧ o.domain.body = some str
      else 0 < o.redirected.ret ∧ o.redirected.body = some str := by
  unfold gatewayInfoStr
  by_cases hfollows : o.first.ret = 302 ∧ o.redirect.1 = 0
  · rw [← and_assoc, and_iff_right hfollows]
    simp only [hfollows, and_self, if_true]
    split
    · cases hlist : o.redirected.body with
      | none => simp
      | some list =>
        simp only [Option.some.injEq, exists_eq_left']
        exact parseDomainList_iff
    · split
      · rename_i hret
        rw [and_iff_right hret]
        simp
      · rename_i hret
        simp [hret]
  · refine iff_of_false ?_ fun h => hfollows ⟨h.1, h.2.1⟩
    simp only [hfollows, if_false]
    split <;> simp

theorem early_returns (h : EndsEarly o) : (h3cObtainCookie xml oc o v).isSome = true := by
  unfold h3cObtainCookie
  split
  · rfl
  rename_i hstate
  split
  · rfl
  rename_i hopen
  obtain ⟨hssl, hearly⟩ := (h.resolve_left hstate).resolve_left hopen
  split
  · rename_i hno
    rw [hssl] at hno
    cases hno
  split
  · rfl
  rename_i hreqbuf
  split
  · rfl
  rename_i hwritten
  obtain ⟨error, hbuf, herror⟩ := (hearly.resolve_left hreqbuf).resolve_left hwritten
  simp only [hbuf, herror, ne_eq, not_false_eq_true, if_true]
  rfl

/-- Otherwise it comes to the first reply, if there is a connection and a buffer. -/
theorem late_returns (h : ¬EndsEarly o) : (h3cObtainCookie xml oc o v).isSome = true ↔
    o.sslWrite = true ∧ o.respBuf = some 0 ∧ ∃ str v',
      gatewayInfoStr xml o (afterFirst oc o v) = some (some str, v') ∧
        (logIn xml oc o str v').isSome = true := by
  have hstate : o.state ≠ false := fun hstate => h (Or.inl hstate)
  have hopen : ¬o.openHttps ≠ 0 := fun hopen => h (Or.inr (Or.inl hopen))
  unfold h3cObtainCookie
  rw [if_neg hstate, if_neg hopen]
  cases hssl : o.sslWrite with
  | false => simp
  | true =>
    have hlate := fun hearly => h (Or.inr (Or.inr ⟨hssl, hearly⟩))
    rw [if_neg Bool.false_ne_true.symm, if_neg fun hreqbuf => hlate (Or.inl hreqbuf),
      if_neg fun hwritten => hlate (Or.inr (Or.inl hwritten))]
    cases hbuf : o.respBuf with
    | none => simp
    | some error =>
      have herror : error = 0 :=
        not_not.mp fun herror => hlate (Or.inr (Or.inr ⟨error, hbuf, herror⟩))
      subst herror
      simp only [ne_eq, not_true_eq_false, if_false, true_and]
      rw [← afterFirst]
      cases hinfo : gatewayInfoStr xml o (afterFirst oc o v) with
      | none => simp
      | some info =>
        obtain ⟨str, v'⟩ := info
        cases str <;> simp

theorem obtainCookie_returns :
    (h3cObtainCookie xml oc o v).isSome = true ↔ EndsEarly o ∨ Orderly xml oc o v := by
  by_cases hearly : EndsEarly o
  · exact iff_of_true (early_returns hearly) (Or.inl hearly)
  rw [late_returns hearly, or_iff_right hearly]
  constructor
  · rintro ⟨hssl, hbuf, str, v', hstr, hlogin⟩
    obtain ⟨hfirst, hredirect, hhands⟩ := gatewayInfoStr_iff.mp ⟨v', hstr⟩
    obtain ⟨root, hroot, hsettled⟩ := logIn_returns.mp hlogin
    exact ⟨hssl, hbuf, hfirst, hredirect, str, root, hhands, hroot, hsettled⟩
  · rintro ⟨hssl, hbuf, hfirst, hredirect, str, root, hhands, hroot, hsettled⟩
    obtain ⟨v', hstr⟩ := gatewayInfoStr_iff.mpr ⟨hfirst, hredirect, hhands⟩
    exact ⟨hssl, hbuf, str, v', hstr, logIn_returns.mpr ⟨root, hroot, hsettled⟩⟩

theorem ret_of_eq {ret : Int} (h : some (ret, v) = some (0, v')) : ret = 0 :=
  congrArg Prod.fst (Option.some.inj h)

theorem obtainCookie_loggedIn (h : h3cObtainCookie xml oc o v = some (0, v')) :
    LoggedIn xml o v' := by
  unfold h3cObtainCookie at h
  simp only at h
  split at h
  · cases h
  split at h
  · rename_i hopen
    exact absurd (ret_of_eq h) hopen
  split at h
  · cases h
  split at h
  · rename_i hreqbuf
    exact absurd (ret_of_eq h) hreqbuf
  split at h
  · rename_i hwritten
    exact absurd (ret_of_eq h) (Int.ne_of_lt hwritten)
  split at h
  · cases h
  split at h
  · rename_i herror
    exact absurd (ret_of_eq h) herror
  split at h
  · exact logIn_loggedIn h
  · cases h

end Login

/-- The login keeps from a failing `assert` exactly if it ends before the first reply is read, or
the replies are in order. -/
theorem sound_iff (v : VpnInfo) : Sound xml oc o v ↔ EndsEarly o ∨ Orderly xml oc o v := by
  rw [← obtainCookie_returns]
  constructor
  · rintro ⟨⟨ret, v', h⟩, -⟩
    exact Option.isSome_iff_exists.mpr ⟨_, h⟩
  · intro h
    obtain ⟨⟨ret, v'⟩, h⟩ := Option.isSome_iff_exists.mp h
    exact ⟨⟨ret, v', h⟩, fun _ => obtainCookie_loggedIn⟩

/-- An element with its text and its children. -/
inductive Element
  | mk (name text : String) (children : List Element)

def Element.name : Element → String
  | .mk name _ _ => name

def Element.text : Element → String
  | .mk _ text _ => text

def Element.children : Element → List Element
  | .mk _ _ children => children

/-- The description of a gateway. -/
def gatewayInfo : Element :=
  .mk "data" "/l/o/k/c" [.mk "gatewayinfo" "/l/o/k/c" [.mk "url" "/l/o/k/c"
    [.mk "login" "/l" [], .mk "logout" "/o" [], .mk "checkonline" "/k" [],
      .mk "challenge" "/c" []]]]

def loginReply : Element := .mk "data" "Success" [.mk "result" "Success" []]

/-- Two documents that can be read. -/
def sampleXml : Xml Element where
  xmlReadMemory s :=
    if s = "<data><gatewayinfo><url><login>/l</login><logout>/o</logout>" ++
      "<checkonline>/k</checkonline><challenge>/c</challenge></url></gatewayinfo></data>" then
      some gatewayInfo
    else if s = "<data><result>Success</result></data>" then some loginReply
    else none
  children := Element.children
  xmlnodeIsNamed node name := node.name = name
  xmlnodeGetVal node name := if node.name = name then some node.text else none

def sampleOpenconnect : Openconnect where
  addOptionDup option value options := (option, value) :: options
  urlencoded _ := ""

/-- A gateway that redirects to its description and lets the user in. -/
def sampleOutside : Outside where
  first := { ret := 302, headers := [("Location-Action", "Connection")] }
  redirected :=
    { ret := 141
      body := some ("<data><gatewayinfo><url><login>/l</login><logout>/o</logout>" ++
        "<checkonline>/k</checkonline><challenge>/c</challenge></url></gatewayinfo></data>") }
  authForm := (0, some "alice", some "pw")
  login :=
    { ret := 37
      body := some "<data><result>Success</result></data>"
      cookies := [("svpnginfo", "7f3a")] }

example : (h3cObtainCookie sampleXml sampleOpenconnect sampleOutside {}).map
    (fun r => (r.1, r.2.cookie)) = some (0, some "svpnginfo=7f3a") := by decide +kernel

/-- The gateway answers the first request without a redirect. -/
theorem unredirected_aborts : ¬ Sound sampleXml sampleOpenconnect
    { sampleOutside with first := { ret := 200 } } {} := by
  rintro ⟨⟨ret, v', h⟩, -⟩
  cases h

end InodeVpn.Proofs.ObtainCookie
