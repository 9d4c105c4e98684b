import InodeVpn.Fork.Connect

namespace InodeVpn.Proofs.SessionMemory
open InodeVpn.Fork hiding VpnInfo Outside
open InodeVpn.Fork.Connect Lib
open Wire (Bytes)

/-- An option of the list has the value. -/
def Has (options : List VpnOption) (option : String) (value : Bytes) : Prop :=
  ∃ block, ⟨block, option, value⟩ ∈ options

/-- Every string of an `oc_ip_info` is the value of an option, and every split route has its
block. -/
structure Backed (info : IpInfo) (options : List VpnOption) (routes : List Nat) : Prop where
  addr : ∀ a ∈ info.addr, Has options "ipaddr" a
  netmask : ∀ a ∈ info.netmask, Has options "netmask" a
  dns : ∀ i, ∀ a ∈ info.dns i, Has options "DNS" a
  route : ∀ r ∈ info.splitIncludes, Has options "split-include" r
  structs : routes.length = info.splitIncludes.length

/-- The blocks of the parse buffers, and those that `others` own, are all there are; and
`parse_ip_info` points into the buffers. -/
structure Sound (others : List Nat) (info : IpInfo) (a : Arena) : Prop where
  balanced : a.ledger.Balanced (a.routeBlocks ++ blocks a.parseOpts ++ others)
  backed : Backed info a.parseOpts a.routeBlocks

section Loop
variable {σ τ : Type} {more : σ → Bool} {more' : τ → Bool} {store : Bytes → σ → σ × Bool}
  {store' : Bytes → τ → τ × Bool} {R : σ → τ → Prop}

/-- Two loops over the same memory that store alike leave alike. -/
theorem eachSegment_rel (hmore : ∀ st st', R st st' → more st = more' st')
    (hstore : ∀ seg st st', R st st' →
      (store seg st).2 = (store' seg st').2 ∧ R (store seg st).1 (store' seg st').1)
    (pos : Nat) (mem : Bytes) {st : σ} {st' : τ} (h : R st st') :
    Option.Rel (fun r r' => r.1 = r'.1 ∧ R r.2 r'.2) (eachSegment more store pos mem st).value
      (eachSegment more' store' pos mem st').value := by
  induction hn : mem.length using Nat.strong_induction_on generalizing pos mem st st' with
  | _ n ih =>
    subst hn
    cases mem with
    | nil =>
      rw [eachSegment, eachSegment]
      exact .none
    | cons c tail =>
      rw [eachSegment, eachSegment, ← hmore st st' h]
      split
      · exact .some ⟨rfl, h⟩
      · dsimp only
        split
        · exact .none
        · rename_i seg stop hscan
          have hnext : (if seg = [] then (st, true) else store seg st).2 =
              (if seg = [] then (st', true) else store' seg st').2 ∧
              R (if seg = [] then (st, true) else store seg st).1
                (if seg = [] then (st', true) else store' seg st').1 := by
            split
            · exact ⟨rfl, h⟩
            · exact hstore seg st st' h
          have hshort : stop.tail.length < (c :: tail).length := by
            have hlength := congrArg List.length (scan_value hscan)
            simp only [List.length_append, List.length_cons, List.length_tail] at hlength ⊢
            omega
          generalize (if seg = [] then (st, true) else store seg st) = next at hnext ⊢
          generalize (if seg = [] then (st', true) else store' seg st') = next' at hnext ⊢
          rw [← hnext.1]
          split
          · exact ih _ hshort _ _ hnext.2 rfl
          · exact .some ⟨rfl, hnext.2⟩

/-- What storing a segment keeps, the loop keeps. -/
theorem eachSegment_keeps {I : σ → Prop} (hstore : ∀ seg st, I st → I (store seg st).1)
    {pos : Nat} {mem : Bytes} {st : σ} {r : Int × σ} (h : I st)
    (hr : (eachSegment more store pos mem st).value = some r) : I r.2 := by
  have hrel : Option.Rel (fun r r' => r.1 = r'.1 ∧ r.2 = r'.2 ∧ I r.2)
      (eachSegment more store pos mem st).value (eachSegment more store pos mem st).value := by
    refine eachSegment_rel (R := fun st st' => st = st' ∧ I st) ?_ ?_ pos mem ⟨rfl, h⟩
    · rintro st _ ⟨rfl, -⟩
      rfl
    · rintro seg st _ ⟨rfl, hst⟩
      exact ⟨rfl, rfl, hstore seg st hst⟩
  rw [hr] at hrel
  cases hrel with
  | some hr => exact hr.2.2

end Loop

section Heap
variable {grants : Nat → Bool} {others : List Nat} {info : IpInfo} {a : Arena}
  {options options' : List VpnOption} {routes : List Nat}

theorem Has.mono {option : String} {value : Bytes} (h : Has options option value)
    (hsub : options ⊆ options') : Has options' option value := by
  obtain ⟨block, hmem⟩ := h
  exact ⟨block, hsub hmem⟩

theorem Backed.mono (h : Backed info options routes) (hsub : options ⊆ options') :
    Backed info options' routes where
  addr x hx := (h.addr x hx).mono hsub
  netmask x hx := (h.netmask x hx).mono hsub
  dns i x hx := (h.dns i x hx).mono hsub
  route x hx := (h.route x hx).mono hsub
  structs := h.structs

theorem backed_empty : Backed {} options [] where
  addr x hx := by cases hx
  netmask x hx := by cases hx
  dns i x hx := by cases hx
  route x hx := by cases hx
  structs := rfl

/-- `add_option_dup` fails, or puts a block of its own in front. -/
theorem Sound.addOptionDup (h : Sound others info a) (grants : Nat → Bool) (option : String)
    (value : Bytes) :
    Sound others info ((arenaHeap grants).addOptionDup option value a).1 ∧
      (((arenaHeap grants).addOptionDup option value a).2 = true →
        Has ((arenaHeap grants).addOptionDup option value a).1.parseOpts option value) := by
  unfold arenaHeap
  dsimp only
  split
  · refine ⟨⟨?_, h.backed.mono (List.subset_cons_self _ _)⟩, fun _ => ⟨_, List.mem_cons_self⟩⟩
    refine h.balanced.malloc.perm ?_
    simp only [blocks, List.map_cons, List.append_assoc, List.cons_append]
    exact List.perm_middle
  · exact ⟨⟨h.balanced, h.backed⟩, fun hfalse => by cases hfalse⟩

/-- A segment of `ROUTES` is stored with its option and its block, or not at all. -/
theorem Sound.addRoute {st : ParseState Arena}
    (h : Sound others { info with splitIncludes := st.splitIncludes } st.heap) (seg : Bytes) :
    Sound others { info with splitIncludes := (addRoute (arenaHeap grants) seg st).1.splitIncludes }
      (addRoute (arenaHeap grants) seg st).1.heap := by
  obtain ⟨hdup, hhas⟩ := h.addOptionDup grants "split-include" seg
  unfold Fork.addRoute
  dsimp only
  split
  · rename_i hstored
    obtain ⟨hbalanced, hbacked⟩ := hdup
    replace hhas := hhas hstored
    generalize ((arenaHeap grants).addOptionDup "split-include" seg st.heap).1 = b at *
    unfold arenaHeap
    dsimp only
    split
    · refine ⟨hbalanced.malloc, ?_⟩
      exact {
        addr := hbacked.addr
        netmask := hbacked.netmask
        dns := hbacked.dns
        route := List.forall_mem_cons.mpr ⟨hhas, hbacked.route⟩
        structs := congrArg (· + 1) hbacked.structs }
    · exact ⟨hbalanced, hbacked⟩
  · exact hdup

theorem Sound.addDns {st : Nat × ParseState Arena}
    (h : Sound others { info with dns := st.2.dns } st.2.heap) (seg : Bytes) :
    Sound others { info with dns := (addDns (arenaHeap grants) seg st).1.2.dns }
      (addDns (arenaHeap grants) seg st).1.2.heap := by
  obtain ⟨hdup, hhas⟩ := h.addOptionDup grants "DNS" seg
  unfold Fork.addDns
  dsimp only
  split
  · rename_i hstored
    refine ⟨hdup.balanced, ?_⟩
    exact {
      addr := hdup.backed.addr
      netmask := hdup.backed.netmask
      dns := by
        intro i x hx
        dsimp only at hx
        split at hx
        · cases hx
          exact hhas hstored
        · exact hdup.backed.dns i x hx
      route := hdup.backed.route
      structs := hdup.backed.structs }
  · exact hdup

theorem Sound.perm {others' : List Nat} (h : Sound others info a) (hp : others'.Perm others) :
    Sound others' info a :=
  ⟨h.balanced.perm (hp.append_left _), h.backed⟩

theorem Sound.asked (h : Sound others info a) (n : Nat) : Sound others info { a with asked := n } :=
  ⟨h.balanced, h.backed⟩

/-- A block that is handed out. -/
theorem Sound.take (h : Sound others info a) :
    Sound (a.ledger.next :: others) info { a with ledger := a.ledger.malloc } :=
  ⟨h.balanced.malloc.perm List.perm_middle, h.backed⟩

/-- Blocks that are given back. -/
theorem Sound.give {given : List Nat} (h : Sound (given ++ others) info a) :
    Sound others info { a with ledger := a.ledger.free given } :=
  ⟨(h.balanced.perm (List.perm_append_comm_assoc given _ others)).free, h.backed⟩

end Heap

/-- The blocks of the login's URLs. -/
def urlBlocks (urls : StateUrl → Option (Nat × String)) : List Nat :=
  ((urls .login).map Prod.fst).toList ++ ((urls .logout).map Prod.fst).toList ++
    ((urls .checkonline).map Prod.fst).toList ++ ((urls .challenge).map Prod.fst).toList

/-- The blocks of a session, apart from those of the parse buffers. -/
def keeps (v : VpnInfo) : List Nat :=
  v.state.toList ++ (v.tunnelGateway.map Prod.fst).toList ++ v.ipRoutes ++ blocks v.cstpOptions ++
    v.urlpath.toList ++ urlBlocks v.urls

/-- In a call, whose local variables hold some blocks. -/
def Parsing (held : List Nat) (v : VpnInfo) : Prop :=
  Sound (keeps v ++ v.lost ++ held) v.parseIpInfo v.arena

/-- What is installed is as it was, and nothing is lost. -/
structure SameInstalled (v v' : VpnInfo) : Prop where
  lost : v'.lost = v.lost
  options : v'.cstpOptions = v.cstpOptions
  info : v'.ipInfo = v.ipInfo
  routes : v'.ipRoutes = v.ipRoutes

/-- And the state is the one that was there. -/
structure SameSession (v v' : VpnInfo) : Prop extends SameInstalled v v' where
  state : v'.state = v.state

section Headers
variable {atoi : Bytes → Int} {o : Outside} {held : List Nat} {v v' : VpnInfo} {ret : Int}

theorem SameInstalled.trans {w : VpnInfo} (h : SameInstalled v v') (h' : SameInstalled v' w) :
    SameInstalled v w :=
  ⟨h'.lost.trans h.lost, h'.options.trans h.options, h'.info.trans h.info,
    h'.routes.trans h.routes⟩

theorem SameSession.refl (v : VpnInfo) : SameSession v v := ⟨⟨rfl, rfl, rfl, rfl⟩, rfl⟩

theorem SameSession.trans {w : VpnInfo} (h : SameSession v v') (h' : SameSession v' w) :
    SameSession v w :=
  ⟨h.toSameInstalled.trans h'.toSameInstalled, h'.state.trans h.state⟩

theorem Parsing.dropGateway (h : Parsing held v) : Parsing held v.dropGateway := by
  refine Sound.give (h.perm ?_)
  simp only [keeps, VpnInfo.dropGateway, VpnInfo.free, List.perm_iff_count, List.count_append,
    Option.map_none, Option.toList_none, List.count_nil]
  omega

/-- The dump that ends the callback, where its buffer is large enough. -/
def dumped (o : Outside) (header : Header) (r : Int × VpnInfo) : Option (Int × VpnInfo) :=
  if r.1 = 0 ∧ o.dumpHttpTraffic ∧
    1000 < header.name.utf8ByteSize + header.value.bytes.length + 2 then none else some r

theorem eq_of_dumped {header : Header} {r r' : Int × VpnInfo} (h : dumped o header r = some r') :
    r = r' := by
  unfold dumped at h
  split at h
  · cases h
  · exact Option.some.inj h

theorem sameSession_header {header : Header}
    (hr : getVpnParamFromHeaders atoi o header v = some (ret, v')) : SameSession v v' := by
  obtain ⟨r, hset, hdump⟩ := Option.bind_eq_some_iff.mp hr
  have hv' : v' = r.2 := (congrArg Prod.snd (eq_of_dumped hdump)).symm
  subst hv'
  repeat' split at hset
  · cases hset
    unfold Connect.setAddress
    dsimp only
    split <;> exact ⟨⟨rfl, rfl, rfl, rfl⟩, rfl⟩
  · obtain ⟨_, _, rfl⟩ := Option.map_eq_some_iff.mp hset
    exact ⟨⟨rfl, rfl, rfl, rfl⟩, rfl⟩
  · obtain ⟨_, _, rfl⟩ := Option.map_eq_some_iff.mp hset
    exact ⟨⟨rfl, rfl, rfl, rfl⟩, rfl⟩
  · obtain ⟨_, _, rfl⟩ := Option.map_eq_some_iff.mp hset
    exact ⟨⟨rfl, rfl, rfl, rfl⟩, rfl⟩
  · cases hset
    unfold Connect.setGateway
    dsimp only
    split <;> exact ⟨⟨rfl, rfl, rfl, rfl⟩, rfl⟩
  · cases hset
    exact ⟨⟨rfl, rfl, rfl, rfl⟩, rfl⟩
  · cases hset
    exact ⟨⟨rfl, rfl, rfl, rfl⟩, rfl⟩
  · cases hset
    exact ⟨⟨rfl, rfl, rfl, rfl⟩, rfl⟩

theorem sameSession_readHeaders {headers : List Header}
    (hr : readHeaders atoi o headers v = some v') : SameSession v v' := by
  induction headers generalizing v with
  | nil =>
    cases hr
    exact .refl _
  | cons header headers ih =>
    obtain ⟨⟨ret, w⟩, hheader, hrest⟩ := Option.bind_eq_some_iff.mp hr
    exact (sameSession_header hheader).trans (ih hrest)

theorem Parsing.setAddress (h : Parsing held v) (grants : Nat → Bool) (value : CString) :
    Parsing held (setAddress grants value v).2 := by
  obtain ⟨hdup, hhas⟩ := Sound.addOptionDup h grants "ipaddr" value.bytes
  unfold Connect.setAddress
  dsimp only
  split
  · rename_i hstored
    refine ⟨hdup.balanced, ?_⟩
    exact {
      addr := by
        rintro x hx
        cases hx
        exact hhas hstored
      netmask := hdup.backed.netmask
      dns := hdup.backed.dns
      route := hdup.backed.route
      structs := hdup.backed.structs }
  · exact hdup

theorem Parsing.setNetmask (h : Parsing held v) {grants : Nat → Bool} {masklen : Int}
    {r : Int × VpnInfo} (hr : setNetmask grants v masklen = some r) : Parsing held r.2 := by
  obtain ⟨⟨ret, st⟩, hmask, rfl⟩ := Option.map_eq_some_iff.mp hr
  obtain ⟨addr, -, hvalue⟩ := Option.map_eq_some_iff.mp hmask
  obtain ⟨hdup, hhas⟩ := Sound.addOptionDup h grants "netmask" (inetNtop addr)
  dsimp only at hvalue
  split at hvalue
  · rename_i hstored
    cases hvalue
    refine ⟨hdup.balanced, ?_⟩
    exact {
      addr := hdup.backed.addr
      netmask := by
        rintro x hx
        cases hx
        exact hhas hstored
      dns := hdup.backed.dns
      route := hdup.backed.route
      structs := hdup.backed.structs }
  · cases hvalue
    exact hdup

theorem Parsing.setRoutes (h : Parsing held v) {grants : Nat → Bool} {value : CString}
    {behind : Bytes} {r : Int × VpnInfo} (hr : setRoutes grants value v behind = some r) :
    Parsing held r.2 := by
  obtain ⟨⟨ret, st⟩, hwalk, rfl⟩ := Option.map_eq_some_iff.mp hr
  refine eachSegment_keeps (I := fun st : ParseState Arena =>
    Sound (keeps v ++ v.lost ++ held)
      { v.parseIpInfo with splitIncludes := st.splitIncludes } st.heap) ?_ ?_ hwalk
  · exact fun seg st hst => hst.addRoute seg
  · exact h

theorem Parsing.setDns (h : Parsing held v) {grants : Nat → Bool} {value : CString}
    {behind : Bytes} {r : Int × VpnInfo} (hr : setDns grants value v behind = some r) :
    Parsing held r.2 := by
  obtain ⟨⟨ret, st⟩, hwalk, rfl⟩ := Option.map_eq_some_iff.mp hr
  obtain ⟨⟨ret', n, st'⟩, heach, heq⟩ := Option.map_eq_some_iff.mp hwalk
  cases heq
  refine eachSegment_keeps (I := fun st : Nat × ParseState Arena =>
    Sound (keeps v ++ v.lost ++ held) { v.parseIpInfo with dns := st.2.dns } st.2.heap) ?_ ?_ heach
  · exact fun seg st hst => hst.addDns seg
  · exact h

theorem Parsing.setGateway (h : Parsing held v) (grants : Nat → Bool) (value : CString) :
    Parsing held (setGateway grants value v).2 := by
  have hdropped := h.dropGateway
  unfold Connect.setGateway
  dsimp only
  split
  · refine (Sound.take (Sound.asked hdropped _)).perm ?_
    simp only [keeps, VpnInfo.dropGateway, VpnInfo.free, VpnInfo.malloc, VpnInfo.nextBlock,
      List.perm_iff_count, List.count_append, List.count_cons, Option.map_some,
      Option.map_none, Option.toList_some, Option.toList_none, List.count_nil]
    omega
  · exact Sound.asked hdropped _

theorem Parsing.header {header : Header} (h : Parsing held v)
    (hr : getVpnParamFromHeaders atoi o header v = some (ret, v')) : Parsing held v' := by
  obtain ⟨r, hset, hdump⟩ := Option.bind_eq_some_iff.mp hr
  have hv' : v' = r.2 := (congrArg Prod.snd (eq_of_dumped hdump)).symm
  subst hv'
  repeat' split at hset
  · cases hset
    exact h.setAddress o.grants header.value
  · exact h.setNetmask hset
  · exact h.setRoutes hset
  · exact h.setDns hset
  · cases hset
    exact h.setGateway o.grants header.value
  · cases hset
    exact h
  · cases hset
    exact h
  · cases hset
    exact (Sound.addOptionDup h o.grants header.name header.value.bytes).1

/-- Whatever headers come, and whichever of them fail. -/
theorem Parsing.readHeaders {headers : List Header} (h : Parsing held v)
    (hr : readHeaders atoi o headers v = some v') : Parsing held v' := by
  induction headers generalizing v with
  | nil =>
    cases hr
    exact h
  | cons header headers ih =>
    obtain ⟨⟨ret, w⟩, hheader, hrest⟩ := Option.bind_eq_some_iff.mp hr
    exact ih (h.header hheader) hrest

end Headers

/-- Between two calls: every block ever handed out has one owner, or has been given back or lost
once, the parse buffers are empty, and what is installed points into the installed options. -/
structure Memory (v : VpnInfo) : Prop where
  balanced : v.arena.ledger.Balanced (keeps v ++ v.lost)
  options : v.arena.parseOpts = []
  structs : v.arena.routeBlocks = []
  info : v.parseIpInfo = {}
  idle : v.state = none → v.tunnelGateway = none ∧ ∀ url, v.urls url = none
  installed : Backed v.ipInfo v.cstpOptions v.ipRoutes

section Calls
variable {atoi : Bytes → Int} {o : Outside} {held : List Nat} {v v' : VpnInfo}

theorem Memory.parsing (h : Memory v) : Parsing [] v := by
  refine ⟨?_, ?_⟩
  · rw [h.structs, h.options, List.append_nil]
    exact h.balanced
  · rw [h.info, h.structs]
    exact backed_empty

/-- What is installed, and the parse buffers empty, in a session without local blocks. -/
theorem Parsing.memory (h : Parsing [] v) (hoptions : v.arena.parseOpts = [])
    (hstructs : v.arena.routeBlocks = []) (hinfo : v.parseIpInfo = {})
    (hidle : v.state = none → v.tunnelGateway = none ∧ ∀ url, v.urls url = none)
    (hinstalled : Backed v.ipInfo v.cstpOptions v.ipRoutes) : Memory v where
  balanced := by
    have hbalanced := h.balanced
    rw [hstructs, hoptions, List.append_nil] at hbalanced
    exact hbalanced
  options := hoptions
  structs := hstructs
  info := hinfo
  idle := hidle
  installed := hinstalled

theorem Parsing.dropParsed (h : Parsing held v) : Parsing held v.dropParsed :=
  ⟨h.balanced.free, backed_empty⟩

theorem Parsing.resetParseState (h : Parsing held v) : Parsing held v.resetParseState :=
  h.dropParsed.dropGateway

theorem Parsing.malloc (h : Parsing held v) : Parsing (v.nextBlock :: held) v.malloc :=
  (Sound.take h).perm List.perm_middle

theorem Parsing.free {given : List Nat} (h : Parsing (given ++ held) v) :
    Parsing held (v.free given) :=
  Sound.give (h.perm (List.perm_append_comm_assoc _ _ _))

theorem Parsing.dropUrlpath (h : Parsing held v) : Parsing held v.dropUrlpath := by
  refine Sound.give (h.perm ?_)
  simp only [keeps, VpnInfo.dropUrlpath, VpnInfo.free, List.perm_iff_count, List.count_append,
    Option.toList_none, List.count_nil]
  omega

/-- A block for `urlpath`, which had none. -/
theorem Parsing.dupUrlpath (h : Parsing held v) (hnone : v.urlpath = none) :
    Parsing held v.dupUrlpath := by
  refine (Sound.take h).perm ?_
  simp only [keeps, hnone, VpnInfo.dupUrlpath, VpnInfo.malloc, VpnInfo.nextBlock,
    List.perm_iff_count, List.count_append, List.count_cons, Option.toList_some,
    Option.toList_none, List.count_nil]
  omega

/-- The blocks of what was installed go back, and those of the parse buffers take their place. -/
theorem Parsing.install (h : Parsing held v) : Parsing held (install o v) := by
  refine ⟨?_, backed_empty⟩
  refine Ledger.Balanced.free (h.balanced.perm ?_)
  simp only [keeps, Connect.install, blocks, List.map_nil, List.perm_iff_count,
    List.count_append, List.count_nil]
  omega

theorem Backed.mtu {info : IpInfo} {options : List VpnOption} {routes : List Nat} (mtu : Int)
    (h : Backed info options routes) : Backed { info with mtu := mtu } options routes :=
  ⟨h.addr, h.netmask, h.dns, h.route, h.structs⟩

theorem installed_install (h : Parsing held v) :
    Backed (Connect.install o v).ipInfo (Connect.install o v).cstpOptions
      (Connect.install o v).ipRoutes := by
  unfold Connect.install
  dsimp only
  split
  · exact Backed.mtu 1400 h.backed
  · exact h.backed

theorem Parsing.receiveBody (h : Parsing held v) (body : Bool) :
    Parsing held (v.receiveBody body) := by
  unfold VpnInfo.receiveBody
  split
  · exact Parsing.free h.malloc
  · exact h

/-- What `netExtend` goes on with once the headers are read. -/
def answered (o : Outside) (requestData : Nat) (v : VpnInfo) : VpnInfo :=
  (v.receiveBody o.body).free [requestData]

theorem Parsing.answered {requestData : Nat} (h : Parsing [requestData] v) :
    Parsing [] (answered o requestData v) :=
  Parsing.free (h.receiveBody o.body)

/-- The body of an answer is given back, and nothing else changes. -/
theorem receiveBody_eq (body : Bool) (v : VpnInfo) :
    ∃ arena, v.receiveBody body = { v with arena } := by
  unfold VpnInfo.receiveBody
  split <;> exact ⟨_, rfl⟩

theorem answered_eq (o : Outside) (requestData : Nat) (v : VpnInfo) :
    ∃ arena, answered o requestData v = { v with arena } := by
  obtain ⟨arena, hbody⟩ := receiveBody_eq o.body v
  rw [answered, hbody]
  exact ⟨_, rfl⟩

theorem sameSession_answered (requestData : Nat) :
    SameSession v (answered o requestData v) := by
  obtain ⟨arena, hanswered⟩ := answered_eq o requestData v
  rw [hanswered]
  exact ⟨⟨rfl, rfl, rfl, rfl⟩, rfl⟩

/-- And what it makes of them. -/
def concluded (o : Outside) (requestData : Nat) (v : VpnInfo) : Int × VpnInfo :=
  let v := answered o requestData v
  if v.parseSawAddress then
    if o.install ≠ 0 then (o.install, v.dropParsed) else (0, install o v)
  else (if o.ret < 0 then o.ret else -EINVAL, v.resetParseState)

theorem netExtend_eq (requestData : Nat) : netExtend atoi o requestData v =
    (readHeaders atoi o o.headers v).map (concluded o requestData) := rfl

theorem concluded_cases (o : Outside) (requestData : Nat) (v : VpnInfo) :
    ((answered o requestData v).parseSawAddress = true ∧ o.install ≠ 0 ∧
        concluded o requestData v = (o.install, (answered o requestData v).dropParsed)) ∨
      ((answered o requestData v).parseSawAddress = true ∧ o.install = 0 ∧
        concluded o requestData v = (0, install o (answered o requestData v))) ∨
      ∃ ret, ret < 0 ∧
        concluded o requestData v = (ret, (answered o requestData v).resetParseState) := by
  unfold concluded
  dsimp only
  split
  · rename_i hsaw
    split
    · rename_i hfails
      exact Or.inl ⟨hsaw, hfails, rfl⟩
    · rename_i hinstalls
      exact Or.inr (Or.inl ⟨hsaw, not_not.mp hinstalls, rfl⟩)
  · refine Or.inr (Or.inr ⟨_, ?_, rfl⟩)
    split
    · assumption
    · decide

/-- A session whose state is there. -/
structure Open (v : VpnInfo) : Prop extends Memory v where
  state : v.state.isSome

theorem Parsing.opened (h : Parsing [] v) (hoptions : v.arena.parseOpts = [])
    (hstructs : v.arena.routeBlocks = []) (hinfo : v.parseIpInfo = {}) (hstate : v.state.isSome)
    (hinstalled : Backed v.ipInfo v.cstpOptions v.ipRoutes) : Open v where
  toMemory := h.memory hoptions hstructs hinfo (fun hnone => by simp [hnone] at hstate) hinstalled
  state := hstate

theorem Memory.getState (h : Memory v) {calloc : Bool} (hs : v.getState calloc = some v') :
    Open v' := by
  unfold VpnInfo.getState at hs
  split at hs
  · rename_i hsome
    cases hs
    exact ⟨h, hsome⟩
  · rename_i hnone
    have hstate : v.state = none := by simpa using hnone
    split at hs
    · cases hs
      refine Parsing.opened ⟨?_, backed_empty⟩ rfl rfl rfl rfl h.installed
      refine h.balanced.malloc.perm ?_
      obtain ⟨hgateway, hurls⟩ := h.idle hstate
      have hnone : v.urls = fun _ => none := funext hurls
      simp [keeps, hstate, hgateway, hnone, blocks, VpnInfo.nextBlock]
    · cases hs

theorem Open.resetParseState (h : Open v) : Open v.resetParseState :=
  h.parsing.resetParseState.opened rfl rfl rfl h.state h.installed

theorem Open.countAnew (h : Open v) : Open v.countAnew :=
  ⟨⟨h.balanced, h.options, h.structs, h.info, h.idle, h.installed⟩, h.state⟩

theorem Open.setCookies (h : Open v) (cookies : Bool) : Open (v.setCookies cookies) :=
  ⟨⟨h.balanced, h.options, h.structs, h.info, h.idle, h.installed⟩, h.state⟩

theorem Memory.setSsl (h : Memory v) (sslOpen : Bool) : Memory (v.setSsl sslOpen) :=
  ⟨h.balanced, h.options, h.structs, h.info, h.idle, h.installed⟩

theorem Open.setSsl (h : Open v) (sslOpen : Bool) : Open (v.setSsl sslOpen) :=
  ⟨h.toMemory.setSsl sslOpen, h.state⟩

theorem Open.receiveBody (h : Open v) (body : Bool) : Open (v.receiveBody body) := by
  have hparsing := h.parsing.receiveBody body
  unfold VpnInfo.receiveBody at hparsing ⊢
  split
  · rename_i hbody
    rw [if_pos hbody] at hparsing
    exact hparsing.opened h.options h.structs h.info h.state h.installed
  · exact h

theorem netExtend_memory {requestData : Nat} {ret : Int} (h : Parsing [requestData] v)
    (hstate : v.state.isSome) (hinstalled : Backed v.ipInfo v.cstpOptions v.ipRoutes)
    (hr : netExtend atoi o requestData v = some (ret, v')) : Open v' := by
  rw [netExtend_eq] at hr
  obtain ⟨w, hheaders, hexit⟩ := Option.map_eq_some_iff.mp hr
  have hparsing : Parsing [] (answered o requestData w) := (h.readHeaders hheaders).answered
  have hsame : SameSession v (answered o requestData w) :=
    (sameSession_readHeaders hheaders).trans (sameSession_answered requestData)
  have hstate' : (answered o requestData w).state.isSome := hsame.state ▸ hstate
  have hinstalled' : Backed (answered o requestData w).ipInfo
      (answered o requestData w).cstpOptions (answered o requestData w).ipRoutes := by
    rw [hsame.info, hsame.options, hsame.routes]
    exact hinstalled
  rcases concluded_cases o requestData w with ⟨-, -, hends⟩ | ⟨-, -, hends⟩ | ⟨_, -, hends⟩
  · cases hends.symm.trans hexit
    exact hparsing.dropParsed.opened rfl rfl rfl hstate' hinstalled'
  · cases hends.symm.trans hexit
    exact hparsing.install.opened rfl rfl rfl hstate' (installed_install hparsing)
  · cases hends.symm.trans hexit
    exact hparsing.resetParseState.opened rfl rfl rfl hstate' hinstalled'

theorem Open.request {ret : Int} (h : Open v) (hr : request atoi o v = some (ret, v')) :
    Open v' := by
  have hparsing := h.parsing.malloc.dropUrlpath
  unfold Connect.request at hr
  split at hr
  · dsimp only at hr
    split at hr
    · exact netExtend_memory (hparsing.dupUrlpath rfl) h.state h.installed hr
    · cases hr
      exact hparsing.free.opened h.options h.structs h.info h.state h.installed
  · cases hr
    exact h

theorem Memory.h3cConnect {ret : Int} (h : Memory v)
    (hr : h3cConnect atoi o v = some (ret, v')) : Memory v' := by
  unfold Connect.h3cConnect at hr
  split at hr
  · cases hr
    exact h
  · rename_i w hw
    have hready := (h.getState hw).resetParseState.countAnew
    dsimp only at hr
    split at hr
    · cases hr
      exact (hready.setCookies _).toMemory
    · split at hr
      · cases hr
        exact (hready.setCookies _).toMemory
      · exact (((hready.setCookies _).setSsl true).request hr).toMemory

theorem Parsing.dropUrl (h : Parsing held v) (url : StateUrl) : Parsing held (v.dropUrl url) := by
  refine Sound.give (h.perm ?_)
  cases url
  all_goals
    simp [keeps, urlBlocks, VpnInfo.dropUrl, VpnInfo.free, List.perm_iff_count, List.count_append]
    omega

theorem Parsing.dropUrls (h : Parsing held v) : Parsing held v.dropUrls :=
  (((h.dropUrl .login).dropUrl .logout).dropUrl .checkonline).dropUrl .challenge

theorem dropUrls_eq (v : VpnInfo) :
    ∃ arena, v.dropUrls = { v with arena, urls := fun _ => none } := by
  refine ⟨v.dropUrls.arena, ?_⟩
  have hurls : v.dropUrls.urls = fun _ => none := by
    funext url
    cases url <;> simp [VpnInfo.dropUrls, VpnInfo.dropUrl, VpnInfo.free]
  rw [← hurls]
  rfl

theorem Memory.freeState (h : Memory v) : Memory v.freeState := by
  unfold VpnInfo.freeState
  split
  · exact h
  · rename_i block hstate
    have hparsing := h.parsing.dropUrls.dropGateway.dropParsed
    obtain ⟨arena, hurls⟩ := dropUrls_eq v
    rw [hurls] at hparsing ⊢
    refine Parsing.memory ?_ rfl rfl rfl (fun _ => ⟨rfl, fun _ => rfl⟩) h.installed
    refine Sound.give (hparsing.perm ?_)
    simp only [keeps, hstate, VpnInfo.dropParsed, VpnInfo.dropGateway, VpnInfo.free,
      List.perm_iff_count, List.count_append, List.count_cons, Option.map_none,
      Option.toList_none, Option.toList_some, List.count_nil]
    omega

theorem Memory.h3cBye (h : Memory v) (o : ByeOutside) : Memory (h3cBye o v).2 := by
  unfold Connect.h3cBye
  split
  · exact h.setSsl false
  · rename_i w hw
    have hclosed := (h.getState hw).setSsl false
    have hdropped : Open (w.setSsl false).dropUrlpath :=
      hclosed.parsing.dropUrlpath.opened hclosed.options hclosed.structs hclosed.info
        hclosed.state hclosed.installed
    have hdup : Open (w.setSsl false).dropUrlpath.dupUrlpath :=
      (hdropped.parsing.dupUrlpath rfl).opened hclosed.options hclosed.structs hclosed.info
        hclosed.state hclosed.installed
    dsimp only
    split
    · exact hclosed.toMemory
    · split
      · exact hclosed.toMemory
      · split
        · exact (hdup.receiveBody o.body).toMemory
        · exact (hdropped.setSsl true).toMemory

theorem Parsing.storeLocationAction (h : Parsing held v) (value : Bytes) :
    Parsing held (v.storeLocationAction value) := by
  refine (Sound.take h).perm ?_
  simp only [keeps, blocks, VpnInfo.storeLocationAction, VpnInfo.malloc, VpnInfo.nextBlock,
    List.map_cons, List.perm_iff_count, List.count_append, List.count_cons]
  omega

theorem Parsing.lose (h : Parsing held v) : Parsing held v.lose := by
  refine (Sound.take h).perm ?_
  simp only [keeps, VpnInfo.lose, VpnInfo.malloc, VpnInfo.nextBlock, List.perm_iff_count,
    List.count_append, List.count_cons]
  omega

theorem Parsing.loseUrlpath (h : Parsing held v) : Parsing held v.loseUrlpath := by
  refine h.perm ?_
  simp only [keeps, VpnInfo.loseUrlpath, List.perm_iff_count, List.count_append,
    Option.toList_none, List.count_nil]
  omega

/-- The new text has a block, and the old one goes back. -/
theorem Parsing.setUrl (h : Parsing held v) (url : StateUrl) (text : Option String) (dup : Bool) :
    Parsing held (v.setUrl url text dup) := by
  have hdropped := h.dropUrl url
  unfold VpnInfo.setUrl
  dsimp only
  split
  · exact hdropped
  split
  · refine (Sound.take hdropped).perm ?_
    cases url
    all_goals
      simp [keeps, urlBlocks, VpnInfo.dropUrl, VpnInfo.free, VpnInfo.malloc, VpnInfo.nextBlock,
        List.perm_iff_count, List.count_append, List.count_cons]
      omega
  · exact hdropped

theorem setUrl_eq (url : StateUrl) (text : Option String) (dup : Bool) (v : VpnInfo) :
    ∃ arena urls, v.setUrl url text dup =
      { v with arena, urls } ∧ arena.parseOpts = v.arena.parseOpts ∧
        arena.routeBlocks = v.arena.routeBlocks := by
  unfold VpnInfo.setUrl
  dsimp only
  split
  · exact ⟨_, _, rfl, rfl, rfl⟩
  split
  · exact ⟨_, _, rfl, rfl, rfl⟩
  · exact ⟨_, _, rfl, rfl, rfl⟩

/-- One step of a login, whichever it is. -/
theorem Open.loginStep (h : Open v) (s : LoginStep) : Open (loginStep v s) := by
  have keep {w : VpnInfo} (hparsing : Parsing [] w) (hoptions : w.arena.parseOpts = [])
      (hstructs : w.arena.routeBlocks = []) (hinfo : w.parseIpInfo = v.parseIpInfo)
      (hstate : w.state = v.state) (hinstalled : Backed w.ipInfo w.cstpOptions w.ipRoutes) :
      Open w :=
    hparsing.opened hoptions hstructs (hinfo.trans h.info) (hstate ▸ h.state) hinstalled
  cases s with
  | buffer => exact h.receiveBody true
  | keep => exact keep h.parsing.lose h.options h.structs rfl rfl h.installed
  | locationAction value =>
    exact keep (h.parsing.storeLocationAction value) h.options h.structs rfl rfl
      (h.installed.mono (List.subset_cons_self _ _))
  | redirect dup =>
    unfold Connect.loginStep
    dsimp only
    split
    · exact keep (h.parsing.dropUrlpath.dupUrlpath rfl) h.options h.structs rfl rfl h.installed
    · exact keep h.parsing.dropUrlpath h.options h.structs rfl rfl h.installed
  | urlpath dup =>
    unfold Connect.loginStep
    dsimp only
    split
    · exact keep (h.parsing.loseUrlpath.dupUrlpath rfl) h.options h.structs rfl rfl h.installed
    · exact keep h.parsing.loseUrlpath h.options h.structs rfl rfl h.installed
  | setUrl url text dup =>
    have hparsing := h.parsing.setUrl url text dup
    obtain ⟨arena, urls, hset, hoptions, hstructs⟩ := setUrl_eq url text dup v
    unfold Connect.loginStep
    dsimp only
    rw [hset] at hparsing ⊢
    exact keep hparsing (hoptions.trans h.options) (hstructs.trans h.structs) rfl rfl h.installed
  | cookies cookies => exact h.setCookies cookies
  | ssl sslOpen => exact h.setSsl sslOpen

theorem Memory.obtainCookie (h : Memory v) (calloc : Bool) (steps : List LoginStep) :
    Memory (v.obtainCookie calloc steps) := by
  unfold VpnInfo.obtainCookie
  split
  · exact h
  · rename_i w hw
    have hopen := h.getState hw
    clear hw
    induction steps generalizing w with
    | nil => exact hopen.toMemory
    | cons s steps ih => exact ih _ (hopen.loginStep s)

theorem memory_empty : Memory {} :=
  ⟨Ledger.balanced_empty, rfl, rfl, rfl, fun _ => ⟨rfl, fun _ => rfl⟩, backed_empty⟩

theorem memory_run {rets : List Int} (run : System.Reachable (session atoi) rets v) :
    Memory v := by
  refine run.invariant (I := fun _ v => Memory v) ?_ ?_
  · rintro v rfl
    exact memory_empty
  · rintro rets v event v' ret _ h - moves
    cases event with
    | connect o =>
      obtain ⟨r, hr, heq⟩ := Option.map_eq_some_iff.mp moves
      cases heq
      exact h.h3cConnect hr
    | bye o =>
      cases moves
      exact h.h3cBye o
    | login calloc steps =>
      cases moves
      exact h.obtainCookie calloc steps
    | traffic transport =>
      cases moves
      exact ⟨h.balanced, h.options, h.structs, h.info, h.idle, h.installed⟩
    | freeState =>
      cases moves
      exact h.freeState

theorem sameInstalled_getState {calloc : Bool} (hs : v.getState calloc = some v') :
    SameInstalled v v' := by
  unfold VpnInfo.getState at hs
  split at hs
  · cases hs
    exact ⟨rfl, rfl, rfl, rfl⟩
  · split at hs <;> cases hs
    exact ⟨rfl, rfl, rfl, rfl⟩

theorem sameInstalled_h3cBye (o : ByeOutside) (v : VpnInfo) :
    SameInstalled v (h3cBye o v).2 := by
  unfold Connect.h3cBye
  split
  · exact ⟨rfl, rfl, rfl, rfl⟩
  · rename_i w hw
    refine (sameInstalled_getState hw).trans ?_
    dsimp only
    split
    · exact ⟨rfl, rfl, rfl, rfl⟩
    split
    · exact ⟨rfl, rfl, rfl, rfl⟩
    split
    · obtain ⟨arena, hbody⟩ := receiveBody_eq o.body (w.setSsl false).dropUrlpath.dupUrlpath
      rw [hbody]
      exact ⟨rfl, rfl, rfl, rfl⟩
    · exact ⟨rfl, rfl, rfl, rfl⟩

theorem sameInstalled_freeState (v : VpnInfo) : SameInstalled v v.freeState := by
  unfold VpnInfo.freeState
  split <;> exact ⟨rfl, rfl, rfl, rfl⟩

theorem lost_netExtend {requestData : Nat} {ret : Int}
    (hr : netExtend atoi o requestData v = some (ret, v')) : v'.lost = v.lost := by
  rw [netExtend_eq] at hr
  obtain ⟨w, hheaders, hexit⟩ := Option.map_eq_some_iff.mp hr
  have hsame : (answered o requestData w).lost = v.lost :=
    ((sameSession_readHeaders hheaders).trans (sameSession_answered requestData)).lost
  rcases concluded_cases o requestData w with ⟨-, -, hends⟩ | ⟨-, -, hends⟩ | ⟨_, -, hends⟩
  all_goals
    cases hends.symm.trans hexit
    exact hsame

theorem lost_h3cConnect {ret : Int} (hr : h3cConnect atoi o v = some (ret, v')) :
    v'.lost = v.lost := by
  unfold Connect.h3cConnect at hr
  split at hr
  · cases hr
    rfl
  · rename_i w hw
    have hstate := (sameInstalled_getState hw).lost
    dsimp only at hr
    split at hr
    · cases hr
      exact hstate
    split at hr
    · cases hr
      exact hstate
    unfold Connect.request at hr
    dsimp only at hr
    split at hr
    · split at hr
      · exact (lost_netExtend hr).trans hstate
      · cases hr
        exact hstate
    · cases hr
      exact hstate

/-- A block is lost by a login only. -/
theorem lost_step {event : Connect.Event} {ret : Option Int}
    (h : step atoi v event = some (v', ret)) :
    v'.lost = v.lost ∨ ∃ calloc steps, event = .login calloc steps := by
  cases event with
  | connect o =>
    obtain ⟨r, hr, heq⟩ := Option.map_eq_some_iff.mp h
    cases heq
    exact Or.inl (lost_h3cConnect hr)
  | bye o =>
    cases h
    exact Or.inl (sameInstalled_h3cBye o v).lost
  | login calloc steps => exact Or.inr ⟨calloc, steps, rfl⟩
  | traffic transport =>
    cases h
    exact Or.inl rfl
  | freeState =>
    cases h
    exact Or.inl (sameInstalled_freeState v).lost

/-- Whatever happens to a session, in whatever order: no block is given back twice or used after
it, none is lost but by a login, attempts leave nothing in the parse buffers, and the installed
`ip_info` points into the installed options. -/
theorem session_memory {rets : List Int} (run : System.Reachable (session atoi) rets v) :
    v.arena.ledger.freed.Nodup ∧ (∀ b ∈ keeps v, b ∉ v.arena.ledger.freed) ∧
      (∀ b < v.arena.ledger.next, b ∈ keeps v ∨ b ∈ v.arena.ledger.freed ∨ b ∈ v.lost) ∧
      (∀ event v' ret, step atoi v event = some (v', ret) →
        v'.lost = v.lost ∨ ∃ calloc steps, event = .login calloc steps) ∧
      (v.arena.parseOpts = [] ∧ v.arena.routeBlocks = [] ∧ v.parseIpInfo.splitIncludes = []) ∧
      Backed v.ipInfo v.cstpOptions v.ipRoutes := by
  have h := memory_run run
  refine ⟨h.balanced.freed_nodup, fun b hb => h.balanced.not_freed (List.mem_append_left _ hb),
    fun b hb => ?_, fun _ _ _ => lost_step, ⟨h.options, h.structs, ?_⟩, h.installed⟩
  · have hblock := h.balanced.accounted hb
    rw [List.mem_append, or_assoc] at hblock
    exact hblock.imp_right Or.symm
  · rw [h.info]

end Calls

/-- `10.0.0.2` -/
def address : CString where
  bytes := [49, 48, 46, 48, 46, 48, 46, 50]
  noNul := by decide

/-- An answer that assigns the address. -/
def assigned : Outside where
  headers := [⟨"GATEWAY", address, []⟩, ⟨"IPADDRESS", address, []⟩, ⟨"Server", address, []⟩]

/-- A login behind a redirect. -/
def loggedIn : List LoginStep :=
  [.keep, .keep, .locationAction [67], .redirect true, .keep, .setUrl .login (some "/l") true,
    .setUrl .logout (some "/o") true, .setUrl .checkonline (some "/k") true,
    .setUrl .challenge (some "/c") true, .keep, .keep, .urlpath true, .keep, .keep, .cookies true]

/-- A login, a connection with traffic, its end, and an attempt that fails. -/
theorem session_memory_twice : ∃ rets v, System.Reachable (session fun _ => 0) rets v ∧
    (rets = [0, 0, 0, -EINVAL] ∧ v.cstpOptions.length = 2 ∧ v.lost.length = 8 ∧
      v.state = none) ∧ v.arena.ledger.freed.Nodup := by
  obtain ⟨rets, v, run, hend⟩ := System.exists_reach (M := session fun _ => 0) (fun _ _ => true)
    [.login true loggedIn, .connect assigned, .traffic { lastRx := 7 }, .connect assigned, .bye {},
      .connect {}, .freeState]
    (fun rets v => decide (rets = [0, 0, 0, -EINVAL] ∧ v.cstpOptions.length = 2 ∧
      v.lost.length = 8 ∧ v.state = none)) rfl (by decide)
  exact ⟨rets, v, run, of_decide_eq_true hend, (session_memory run).1⟩

end InodeVpn.Proofs.SessionMemory
