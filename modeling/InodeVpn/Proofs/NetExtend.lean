import InodeVpn.Proofs.HeaderScan
import InodeVpn.Proofs.HeaderNumbers
import InodeVpn.Proofs.SessionMemory

namespace InodeVpn.Proofs.NetExtend
open InodeVpn.Fork hiding VpnInfo Outside Event
open InodeVpn.Fork.Connect Lib HeaderScan SessionMemory
open Wire (Bytes)

/-- The option as the gateway gave it. -/
def named (opt : VpnOption) : String × Bytes := (opt.option, opt.value)

/-- The same requests for memory made, and the same options and as many routes parsed. -/
structure Alike (a a' : Arena) : Prop where
  asked : a.asked = a'.asked
  options : a.parseOpts.map named = a'.parseOpts.map named
  routes : a.routeBlocks.length = a'.routeBlocks.length

/-- Two attempts that have parsed the same. -/
structure SameParse (v v' : VpnInfo) : Prop where
  arena : Alike v.arena v'.arena
  info : v.parseIpInfo = v'.parseIpInfo
  saw : v.parseSawAddress = v'.parseSawAddress

section Alike
variable (grants : Nat → Bool) {a a' : Arena}

theorem Alike.addOptionDup (h : Alike a a') (option : String) (value : Bytes) :
    ((arenaHeap grants).addOptionDup option value a).2 =
        ((arenaHeap grants).addOptionDup option value a').2 ∧
      Alike ((arenaHeap grants).addOptionDup option value a).1
        ((arenaHeap grants).addOptionDup option value a').1 := by
  unfold arenaHeap
  dsimp only
  rw [h.asked]
  split
  · exact ⟨rfl, rfl, congrArg (_ :: ·) h.options, h.routes⟩
  · exact ⟨rfl, rfl, h.options, h.routes⟩

theorem Alike.malloc (h : Alike a a') :
    ((arenaHeap grants).malloc a).2 = ((arenaHeap grants).malloc a').2 ∧
      Alike ((arenaHeap grants).malloc a).1 ((arenaHeap grants).malloc a').1 := by
  unfold arenaHeap
  dsimp only
  rw [h.asked]
  split
  · exact ⟨rfl, rfl, h.options, congrArg (· + 1) h.routes⟩
  · exact ⟨rfl, rfl, h.options, h.routes⟩

/-- What a loop over segments stores, apart from the heap. -/
structure SameStored (st st' : ParseState Arena) : Prop where
  routes : st.splitIncludes = st'.splitIncludes
  dns : st.dns = st'.dns
  heap : Alike st.heap st'.heap

theorem SameStored.addRoute {st st' : ParseState Arena} (h : SameStored st st') (seg : Bytes) :
    (addRoute (arenaHeap grants) seg st).2 = (addRoute (arenaHeap grants) seg st').2 ∧
      SameStored (addRoute (arenaHeap grants) seg st).1
        (addRoute (arenaHeap grants) seg st').1 := by
  obtain ⟨hadded, hheap⟩ := h.heap.addOptionDup grants "split-include" seg
  obtain ⟨hmalloc, hheap'⟩ := hheap.malloc grants
  unfold Fork.addRoute
  dsimp only
  rw [← hadded, ← hmalloc]
  split
  · split
    · exact ⟨rfl, congrArg (seg :: ·) h.routes, h.dns, hheap'⟩
    · exact ⟨rfl, h.routes, h.dns, hheap'⟩
  · exact ⟨rfl, h.routes, h.dns, hheap⟩

theorem SameStored.addDns {st st' : Nat × ParseState Arena}
    (h : st.1 = st'.1 ∧ SameStored st.2 st'.2) (seg : Bytes) :
    (addDns (arenaHeap grants) seg st).2 = (addDns (arenaHeap grants) seg st').2 ∧
      (addDns (arenaHeap grants) seg st).1.1 = (addDns (arenaHeap grants) seg st').1.1 ∧
      SameStored (addDns (arenaHeap grants) seg st).1.2
        (addDns (arenaHeap grants) seg st').1.2 := by
  obtain ⟨hcount, hst⟩ := h
  obtain ⟨hadded, hheap⟩ := hst.heap.addOptionDup grants "DNS" seg
  unfold Fork.addDns
  dsimp only
  rw [← hadded, hcount, hst.dns]
  split
  · exact ⟨rfl, rfl, hst.routes, rfl, hheap⟩
  · exact ⟨rfl, rfl, hst.routes, rfl, hheap⟩

end Alike

section Headers
variable {atoi : Bytes → Int} {o : Outside} {v v' : VpnInfo}

theorem rel_map {α β γ δ : Type} {R : α → β → Prop} {S : γ → δ → Prop} {a : Option α} {b : Option β}
    {f : α → γ} {g : β → δ} (h : Option.Rel R a b) (hfg : ∀ x y, R x y → S (f x) (g y)) :
    Option.Rel S (a.map f) (b.map g) := by
  cases h with
  | none => exact .none
  | some hr => exact .some (hfg _ _ hr)

/-- Results of one call that go on alike. -/
def SameResult (r r' : Int × VpnInfo) : Prop := r.1 = r'.1 ∧ SameParse r.2 r'.2

theorem SameParse.setAddress (h : SameParse v v') (grants : Nat → Bool) (value : CString) :
    SameResult (setAddress grants value v) (setAddress grants value v') := by
  obtain ⟨hadded, harena⟩ := h.arena.addOptionDup grants "ipaddr" value.bytes
  unfold Connect.setAddress
  dsimp only
  rw [← hadded]
  split
  · exact ⟨rfl, harena, by rw [h.info], rfl⟩
  · exact ⟨rfl, harena, h.info, h.saw⟩

theorem SameParse.setNetmask (h : SameParse v v') (grants : Nat → Bool) (masklen : Int) :
    Option.Rel SameResult (setNetmask grants v masklen) (setNetmask grants v' masklen) := by
  unfold Connect.setNetmask h3cSubnetmask
  cases maskAddr masklen with
  | none => exact .none
  | some addr =>
    obtain ⟨hadded, harena⟩ := h.arena.addOptionDup grants "netmask" (inetNtop addr)
    simp only [Option.map_some]
    rw [← hadded]
    split
    · exact .some ⟨rfl, harena, by rw [h.info], h.saw⟩
    · exact .some ⟨rfl, harena, by rw [h.info], h.saw⟩

theorem SameParse.setRoutes (h : SameParse v v') (grants : Nat → Bool) (value : CString)
    (behind : Bytes) :
    Option.Rel SameResult (setRoutes grants value v behind) (setRoutes grants value v' behind) := by
  have hstart : SameStored ⟨v.parseIpInfo.splitIncludes, v.parseIpInfo.dns, v.arena⟩
      ⟨v'.parseIpInfo.splitIncludes, v'.parseIpInfo.dns, v'.arena⟩ :=
    ⟨by rw [h.info], by rw [h.info], h.arena⟩
  have hrel : Option.Rel (fun r r' => r.1 = r'.1 ∧ SameStored r.2 r'.2)
      (h3cRoutes (arenaHeap grants) (value.inMemory behind)
        ⟨v.parseIpInfo.splitIncludes, v.parseIpInfo.dns, v.arena⟩).value
      (h3cRoutes (arenaHeap grants) (value.inMemory behind)
        ⟨v'.parseIpInfo.splitIncludes, v'.parseIpInfo.dns, v'.arena⟩).value :=
    eachSegment_rel (fun _ _ _ => rfl) (fun seg _ _ hst => hst.addRoute grants seg) 0 _ hstart
  exact rel_map hrel fun r r' hr => ⟨hr.1, hr.2.heap, by rw [h.info, hr.2.routes], h.saw⟩

theorem SameParse.setDns (h : SameParse v v') (grants : Nat → Bool) (value : CString)
    (behind : Bytes) :
    Option.Rel SameResult (setDns grants value v behind) (setDns grants value v' behind) := by
  have hstart : SameStored ⟨v.parseIpInfo.splitIncludes, v.parseIpInfo.dns, v.arena⟩
      ⟨v'.parseIpInfo.splitIncludes, v'.parseIpInfo.dns, v'.arena⟩ :=
    ⟨by rw [h.info], by rw [h.info], h.arena⟩
  have hrel : Option.Rel (fun r r' => r.1 = r'.1 ∧ SameStored r.2 r'.2)
      (h3cDns (arenaHeap grants) (value.inMemory behind)
        ⟨v.parseIpInfo.splitIncludes, v.parseIpInfo.dns, v.arena⟩).value
      (h3cDns (arenaHeap grants) (value.inMemory behind)
        ⟨v'.parseIpInfo.splitIncludes, v'.parseIpInfo.dns, v'.arena⟩).value := by
    refine rel_map (eachSegment_rel (R := fun st st' : Nat × ParseState Arena =>
      st.1 = st'.1 ∧ SameStored st.2 st'.2) ?_ ?_ 0 _ ⟨rfl, hstart⟩) ?_
    · exact fun _ _ hst => congrArg (fun n => decide (n < 3)) hst.1
    · exact fun seg _ _ hst => SameStored.addDns grants hst seg
    · exact fun r r' hr => ⟨hr.1, hr.2.2⟩
  exact rel_map hrel fun r r' hr => ⟨hr.1, hr.2.heap, by rw [h.info, hr.2.dns], h.saw⟩

theorem SameParse.setGateway (h : SameParse v v') (grants : Nat → Bool) (value : CString) :
    SameResult (setGateway grants value v) (setGateway grants value v') := by
  unfold Connect.setGateway VpnInfo.dropGateway VpnInfo.free
  dsimp only
  rw [h.arena.asked]
  split
  · exact ⟨rfl, ⟨rfl, h.arena.options, h.arena.routes⟩, h.info, h.saw⟩
  · exact ⟨rfl, ⟨rfl, h.arena.options, h.arena.routes⟩, h.info, h.saw⟩

theorem SameResult.dumped {r r' : Option (Int × VpnInfo)} (o : Outside) (header : Header)
    (hrel : Option.Rel SameResult r r') :
    Option.Rel SameResult (r.bind (dumped o header)) (r'.bind (dumped o header)) := by
  cases hrel with
  | none => exact .none
  | some hr =>
    simp only [Option.bind_some, SessionMemory.dumped, hr.1]
    split
    · exact .none
    · exact .some hr

theorem SameParse.header (h : SameParse v v') (header : Header) :
    Option.Rel SameResult (getVpnParamFromHeaders atoi o header v)
      (getVpnParamFromHeaders atoi o header v') := by
  refine SameResult.dumped o header ?_
  repeat' split
  · exact .some (h.setAddress o.grants header.value)
  · exact h.setNetmask o.grants _
  · exact h.setRoutes o.grants header.value header.behind
  · exact h.setDns o.grants header.value header.behind
  · exact .some (h.setGateway o.grants header.value)
  · exact .some ⟨rfl, h.arena, h.info, h.saw⟩
  · exact .some ⟨rfl, h.arena, h.info, h.saw⟩
  · exact .some ⟨rfl, (h.arena.addOptionDup o.grants header.name header.value.bytes).2, h.info,
      h.saw⟩

theorem SameParse.readHeaders (h : SameParse v v') (headers : List Header) :
    Option.Rel SameParse (readHeaders atoi o headers v) (readHeaders atoi o headers v') := by
  induction headers generalizing v v' with
  | nil => exact .some h
  | cons header headers ih =>
    unfold Connect.readHeaders
    have hrel : Option.Rel SameResult (getVpnParamFromHeaders atoi o header v)
        (getVpnParamFromHeaders atoi o header v') := h.header header
    revert hrel
    generalize getVpnParamFromHeaders atoi o header v = r
    generalize getVpnParamFromHeaders atoi o header v' = r'
    rintro (hr | _)
    · exact ih hr.2
    · exact .none

end Headers

section Attempts
variable {atoi : Bytes → Int} {o : Outside} {v v' : VpnInfo} {ret : Int}

/-- What is installed. -/
def installed (v : VpnInfo) : IpInfo × List VpnOption × List Nat :=
  (v.ipInfo, v.cstpOptions, v.ipRoutes)

/-- The session in which the connection is open. -/
def opened (o : Outside) (v : VpnInfo) : VpnInfo :=
  (v.resetParseState.countAnew.setCookies (v.cookies || o.splitCookies.2)).setSsl true

/-- And in which the headers are read. -/
def begun (o : Outside) (v : VpnInfo) : VpnInfo := (opened o v).malloc.dropUrlpath.dupUrlpath

/-- The answers that a call gets to before it sends its request. -/
structure Sends (o : Outside) : Prop where
  openHttps : o.openHttps = 0
  bufAlloc : o.bufAlloc = true
  urlpathDup : o.urlpathDup = true

theorem installed_eq (h : SameInstalled v v') : installed v' = installed v := by
  rw [installed, installed, h.info, h.options, h.routes]

/-- What a call comes to: it fails early, or reads headers. -/
theorem h3cConnect_cases (hr : h3cConnect atoi o v = some (ret, v')) :
    (ret ≠ 0 ∧ installed v' = installed v) ∨
      Sends o ∧ ∃ w, v.getState o.calloc = some w ∧
        netExtend atoi o (opened o w).nextBlock (begun o w) = some (ret, v') := by
  unfold Connect.h3cConnect at hr
  split at hr
  · cases hr
    exact Or.inl ⟨by decide, rfl⟩
  · rename_i w hw
    have hsame := installed_eq (sameInstalled_getState hw)
    dsimp only at hr
    split at hr
    · rename_i hcookies
      cases hr
      exact Or.inl ⟨by simpa using (Bool.and_eq_true_iff.mp hcookies).2, hsame⟩
    · split at hr
      · rename_i hopen
        cases hr
        exact Or.inl ⟨hopen, hsame⟩
      · rename_i hopen
        unfold Connect.request at hr
        split at hr
        · rename_i hbuf
          dsimp only at hr
          split at hr
          · rename_i hdup
            exact Or.inr ⟨⟨not_not.mp hopen, hbuf, hdup⟩, w, hw, hr⟩
          · cases hr
            exact Or.inl ⟨by decide, hsame⟩
        · cases hr
          exact Or.inl ⟨by decide, hsame⟩

/-- The other way round, where the answers are there. -/
theorem h3cConnect_of_sends {w : VpnInfo} (hsends : Sends o) (hcookies : o.splitCookies.1 = 0)
    (hw : v.getState o.calloc = some w) :
    h3cConnect atoi o v = netExtend atoi o (opened o w).nextBlock (begun o w) := by
  unfold Connect.h3cConnect Connect.request
  simp [hw, hsends.openHttps, hsends.bufAlloc, hsends.urlpathDup, hcookies]
  rfl

/-- An attempt that fails, wherever it fails, leaves what is installed. -/
theorem installed_of_failed (hr : h3cConnect atoi o v = some (ret, v')) (hret : ret ≠ 0) :
    installed v' = installed v := by
  rcases h3cConnect_cases hr with ⟨-, hsame⟩ | ⟨-, w, hw, hr⟩
  · exact hsame
  · have hbegun : installed (begun o w) = installed v :=
      (installed_eq (sameInstalled_getState hw) :)
    rw [netExtend_eq] at hr
    obtain ⟨u, hheaders, hexit⟩ := Option.map_eq_some_iff.mp hr
    have hread : installed (answered o (opened o w).nextBlock u) = installed v :=
      (installed_eq ((sameSession_readHeaders hheaders).trans
        (sameSession_answered _)).toSameInstalled).trans hbegun
    rcases concluded_cases o (opened o w).nextBlock u with
      ⟨-, -, hends⟩ | ⟨-, -, hends⟩ | ⟨_, -, hends⟩
    · cases hends.symm.trans hexit
      exact hread
    · cases hends.symm.trans hexit
      exact absurd rfl hret
    · cases hends.symm.trans hexit
      exact hread

/-- The option in which a login stores a `Location-Action`. -/
def locationAction (value : Bytes) : String × Bytes := ("Location-Action", value)

/-- The same addresses, routes and servers are installed, from the same options; before them stand
those that logins have stored since. -/
structure SameParams (since : List Bytes) (v v' : VpnInfo) : Prop where
  info : v.ipInfo = v'.ipInfo
  options : v.cstpOptions.map named = since.map locationAction ++ v'.cstpOptions.map named
  routes : v.ipRoutes.length = v'.ipRoutes.length

theorem sameParse_begun (o o' : Outside) (v v' : VpnInfo) :
    SameParse (begun o v) (begun o' v') :=
  ⟨⟨rfl, rfl, rfl⟩, rfl, rfl⟩

theorem SameParse.answered (h : SameParse v v') (requestData requestData' : Nat) :
    SameParse (answered o requestData v) (answered o requestData' v') := by
  unfold SessionMemory.answered VpnInfo.receiveBody
  split
  · exact ⟨⟨h.arena.asked, h.arena.options, h.arena.routes⟩, h.info, h.saw⟩
  · exact ⟨⟨h.arena.asked, h.arena.options, h.arena.routes⟩, h.info, h.saw⟩

theorem SameParse.install (h : SameParse v v') : SameParams [] (install o v) (install o v') := by
  refine ⟨?_, h.arena.options, h.arena.routes⟩
  unfold Connect.install
  dsimp only
  rw [h.info]

theorem answered_saw (requestData : Nat) :
    (answered o requestData v).parseSawAddress = v.parseSawAddress := by
  obtain ⟨arena, hanswered⟩ := answered_eq o requestData v
  rw [hanswered]

/-- When an attempt installs. -/
theorem netExtend_zero {requestData : Nat} : netExtend atoi o requestData v = some (0, v') ↔
    ∃ u, readHeaders atoi o o.headers v = some u ∧ u.parseSawAddress = true ∧ o.install = 0 ∧
      v' = install o (answered o requestData u) := by
  rw [netExtend_eq, Option.map_eq_some_iff]
  constructor
  · rintro ⟨u, hheaders, hexit⟩
    rcases concluded_cases o requestData u with ⟨-, hfails, hends⟩ | ⟨hsaw, hinstalls, hends⟩ |
      ⟨_, hneg, hends⟩
    · exact absurd (congrArg Prod.fst (hends.symm.trans hexit)) hfails
    · exact ⟨u, hheaders, answered_saw requestData ▸ hsaw, hinstalls,
        (congrArg Prod.snd (hends.symm.trans hexit)).symm⟩
    · exact absurd (congrArg Prod.fst (hends.symm.trans hexit)) (Int.ne_of_lt hneg)
  · rintro ⟨u, hheaders, hsaw, hinstalls, rfl⟩
    refine ⟨u, hheaders, ?_⟩
    unfold concluded
    dsimp only
    rw [answered_saw, if_pos hsaw, if_neg (not_not.mpr hinstalls)]

/-- Where one attempt installs, another that gets the same answers installs the same. -/
theorem netExtend_alike {requestData : Nat} {w w' : VpnInfo} (requestData' : Nat)
    (h : SameParse w w') (hr : netExtend atoi o requestData w = some (0, v)) :
    ∃ v', netExtend atoi o requestData' w' = some (0, v') ∧ SameParams [] v v' := by
  obtain ⟨u, hheaders, hsaw, hinstalls, rfl⟩ := netExtend_zero.mp hr
  have hrel : Option.Rel SameParse (readHeaders atoi o o.headers w)
      (readHeaders atoi o o.headers w') := h.readHeaders o.headers
  rw [hheaders] at hrel
  generalize hheaders' : readHeaders atoi o o.headers w' = r at hrel
  cases hrel with
  | some hu =>
    refine ⟨_, netExtend_zero.mpr ⟨_, hheaders', hu.saw ▸ hsaw, hinstalls, rfl⟩, ?_⟩
    exact (hu.answered _ _).install

/-- The same answers, to a session that has no state and no cookies yet. -/
def toFresh (o : Outside) : Outside := { o with calloc := true, splitCookies := (0, true) }

theorem readHeaders_toFresh (headers : List Header) (v : VpnInfo) :
    readHeaders atoi (toFresh o) headers v = readHeaders atoi o headers v := by
  induction headers generalizing v with
  | nil => rfl
  | cons header headers ih =>
    simp only [readHeaders, ih]
    rfl

/-- What an attempt installs, a session that is quite new installs from the same answers. -/
theorem fresh_of_connected (hr : h3cConnect atoi o v = some (0, v')) :
    ∃ w, h3cConnect atoi (toFresh o) {} = some (0, w) ∧ SameParams [] v' w := by
  rcases h3cConnect_cases hr with ⟨hret, -⟩ | ⟨hsends, u, -, hr⟩
  · exact absurd rfl hret
  · obtain ⟨w, hw⟩ : ∃ w, ({} : VpnInfo).getState (toFresh o).calloc = some w := ⟨_, rfl⟩
    obtain ⟨w', hr', hsame⟩ := netExtend_alike (opened (toFresh o) w).nextBlock
      (sameParse_begun o (toFresh o) u w) hr
    have hsends' : Sends (toFresh o) := ⟨hsends.openHttps, hsends.bufAlloc, hsends.urlpathDup⟩
    refine ⟨w', ?_, hsame⟩
    rw [h3cConnect_of_sends hsends' rfl hw, ← hr', netExtend_eq, netExtend_eq]
    exact congrArg (Option.map _) (readHeaders_toFresh o.headers _)

/-- The `Location-Action` that a step of a login stores. -/
def stored : LoginStep → List Bytes
  | .locationAction value => [value]
  | _ => []

/-- The answers to the last attempt that succeeded, and the `Location-Action` values that logins
have stored since, the newest first. -/
abbrev History := Option Outside × List Bytes

def lastConnected (last : History) (v : VpnInfo) (event : Event) (ret : Option Int) : History :=
  match event with
  | .connect o => if ret = some 0 then (some o, []) else last
  | .login calloc steps =>
    if (v.getState calloc).isSome then
      (last.1, steps.foldl (fun since s => stored s ++ since) last.2)
    else last
  | _ => last

/-- A session that is quite new, before an attempt or after one that got the answers `last` and
succeeded. -/
def FreshAfter (atoi : Bytes → Int) : Option Outside → VpnInfo → Prop
  | none, w => w = {}
  | some o, w => h3cConnect atoi (toFresh o) {} = some (0, w)

/-- Nothing is installed before the first success, and from then on what a new session would
install from the answers to the last one, but for what logins have stored since. -/
def Installed (atoi : Bytes → Int) (last : History) (v : VpnInfo) : Prop :=
  ∃ w, FreshAfter atoi last.1 w ∧ SameParams last.2 v w

theorem SameParams.keep {since : List Bytes} {w : VpnInfo} (h : SameParams since v w)
    (hsame : installed v' = installed v) : SameParams since v' w := by
  have hinfo : v'.ipInfo = v.ipInfo := congrArg Prod.fst hsame
  have hoptions : v'.cstpOptions = v.cstpOptions := congrArg (Prod.fst ∘ Prod.snd) hsame
  have hroutes : v'.ipRoutes = v.ipRoutes := congrArg (Prod.snd ∘ Prod.snd) hsame
  exact ⟨hinfo.trans h.info, hoptions ▸ h.options, hroutes ▸ h.routes⟩

theorem Installed.keep {last : History} (h : Installed atoi last v)
    (hsame : installed v' = installed v) : Installed atoi last v' := by
  obtain ⟨w, hw, hparams⟩ := h
  exact ⟨w, hw, hparams.keep hsame⟩

theorem SameParams.loginStep {since : List Bytes} {w : VpnInfo} (h : SameParams since v w)
    (s : LoginStep) : SameParams (stored s ++ since) (loginStep v s) w := by
  cases s with
  | buffer => exact h.keep rfl
  | keep => exact h.keep rfl
  | locationAction value =>
    exact ⟨h.info, congrArg (locationAction value :: ·) h.options, h.routes⟩
  | redirect dup => cases dup <;> exact h.keep rfl
  | urlpath dup => cases dup <;> exact h.keep rfl
  | setUrl url text dup =>
    cases text with
    | none => exact h.keep rfl
    | some text => cases dup <;> exact h.keep rfl
  | cookies cookies => exact h.keep rfl
  | ssl sslOpen => exact h.keep rfl

/-- A login as a whole, by induction on its steps. -/
theorem SameParams.loginSteps {since : List Bytes} {w : VpnInfo} (h : SameParams since v w)
    (steps : List LoginStep) :
    SameParams (steps.foldl (fun since s => stored s ++ since) since)
      (steps.foldl Connect.loginStep v) w := by
  induction steps generalizing v since with
  | nil => exact h
  | cons s steps ih => exact ih (h.loginStep s)

theorem Installed.obtainCookie {last : History} (h : Installed atoi last v) (calloc : Bool)
    (steps : List LoginStep) :
    Installed atoi (lastConnected last v (.login calloc steps) none)
      (v.obtainCookie calloc steps) := by
  cases hs : v.getState calloc with
  | none => simpa [lastConnected, VpnInfo.obtainCookie, hs] using h
  | some u =>
    obtain ⟨w, hw, hparams⟩ := h.keep (installed_eq (sameInstalled_getState hs))
    simp only [lastConnected, VpnInfo.obtainCookie, hs, Option.isSome_some, if_true]
    exact ⟨w, hw, hparams.loginSteps steps⟩

/-- In every run: no address, route, name server or option of an attempt that failed, or of any
attempt but the last that succeeded, is ever installed. -/
theorem session_installed {rets : List Int} {s : History × VpnInfo}
    (run : System.Reachable ((session atoi).watched (none, []) lastConnected) rets s) :
    Installed atoi s.1 s.2 := by
  refine run.invariant (I := fun _ s => Installed atoi s.1 s.2) ?_ ?_
  · rintro ⟨_, _⟩ ⟨rfl, rfl⟩
    exact ⟨{}, rfl, rfl, rfl, rfl⟩
  · rintro rets ⟨last, v⟩ event ⟨last', v'⟩ ret _ h - moves
    obtain ⟨moves, rfl⟩ := System.watched_step.mp moves
    cases event with
    | connect o =>
      obtain ⟨⟨ret, w⟩, hr, heq⟩ := Option.map_eq_some_iff.mp moves
      cases heq
      by_cases hret : ret = 0
      · subst hret
        obtain ⟨u, hu, hparams⟩ := fresh_of_connected hr
        exact ⟨u, hu, hparams⟩
      · have hkept := h.keep (installed_of_failed hr hret)
        simpa [lastConnected, hret] using hkept
    | bye o =>
      cases moves
      exact h.keep (installed_eq (sameInstalled_h3cBye o v))
    | login calloc steps =>
      cases moves
      exact h.obtainCookie calloc steps
    | traffic transport =>
      cases moves
      exact h.keep rfl
    | freeState =>
      cases moves
      exact h.keep (installed_eq (sameInstalled_freeState v))

end Attempts

/-- A login, a connection, a second login and an attempt that fails. -/
theorem session_installed_once : ∃ rets s,
    System.Reachable ((session fun _ => 0).watched (none, []) lastConnected) rets s ∧
      (rets = [0, -EINVAL] ∧ (s.1.1.isSome ∧ s.1.2 = [[67]]) ∧
        s.2.ipInfo.addr = some address.bytes ∧ s.2.cstpOptions.map (·.option) =
          ["Location-Action", "Server", "ipaddr"]) ∧
      Installed (fun _ => 0) s.1 s.2 := by
  obtain ⟨rets, s, run, hend⟩ := System.exists_reach
    (M := (session fun _ => 0).watched (none, []) lastConnected) (s := ((none, []), {}))
    (fun _ _ => true)
    [.login true loggedIn, .connect assigned, .login true loggedIn, .connect {}, .freeState]
    (fun rets s => decide (rets = [0, -EINVAL] ∧ (s.1.1.isSome ∧ s.1.2 = [[67]]) ∧
      s.2.ipInfo.addr = some address.bytes ∧ s.2.cstpOptions.map (·.option) =
        ["Location-Action", "Server", "ipaddr"])) ⟨rfl, rfl⟩ (by decide)
  exact ⟨rets, s, run, of_decide_eq_true hend, session_installed run⟩

end InodeVpn.Proofs.NetExtend
