import InodeVpn.Routectl.Linux
import Mathlib.Data.List.Basic

namespace InodeVpn.Proofs.LinuxRoutes
open Lib Routectl Routectl.Linux

/-- The hop over a physical path of which both parts are known. -/
def path (phys : PhysicalState) : Option Hop :=
  match phys.gateway, phys.iface with
  | some gw, some iface => some ⟨some gw, iface⟩
  | _, _ => none

/-- The destinations that are kept on the physical path. -/
def guarded (plan : RoutePlan) (phys : PhysicalState) : List String :=
  (plan.vpnGateway.map (· ++ "/32")).toList ++ (phys.localIp.map (· ++ "/32")).toList ++
    phys.localPrefix.toList ++ plan.preserveCidrs

def guards (plan : RoutePlan) (phys : PhysicalState) : List (String × Hop) :=
  (path phys).elim [] fun hop => (guarded plan phys).map (·, hop)

def splits (plan : RoutePlan) : List (String × Hop) :=
  plan.splitRoutes.map (·, ⟨none, plan.tunIface⟩)

/-- The routes of a plan over a physical path. -/
def planned (plan : RoutePlan) (phys : PhysicalState) : List (String × Hop) :=
  guards plan phys ++ splits plan

theorem mem_of_planned {plan : RoutePlan} {phys : PhysicalState} {r : String × Hop}
    (hr : r ∈ planned plan phys) : r.1 ∈ guarded plan phys ++ plan.splitRoutes := by
  rcases List.mem_append.mp hr with hr | hr
  · unfold guards at hr
    cases hpath : path phys with
    | none => simp [hpath] at hr
    | some hop =>
      rw [hpath] at hr
      obtain ⟨text, htext, rfl⟩ := List.mem_map.mp hr
      exact List.mem_append_left _ htext
  · obtain ⟨text, htext, rfl⟩ := List.mem_map.mp hr
    exact List.mem_append_right _ htext

/-- The destinations that a plan names over a physical path. -/
def destinations {D : Type} (destination : String → Option D) (plan : RoutePlan)
    (phys : PhysicalState) : List D :=
  (guarded plan phys ++ plan.splitRoutes).filterMap destination

theorem mem_destinations {D : Type} {destination : String → Option D} {plan : RoutePlan}
    {phys : PhysicalState} {r : String × Hop} {d : D} (hr : r ∈ planned plan phys)
    (hd : destination r.1 = some d) : d ∈ destinations destination plan phys :=
  List.mem_filterMap.mpr ⟨r.1, mem_of_planned hr, hd⟩

def tunSteps (plan : RoutePlan) : List (IpCommand × Bool) :=
  match plan.tunIp, plan.prefixLen with
  | some ip, some len =>
    [(.addrReplace (ip ++ "/" ++ toString len) plan.tunIface, true), (.linkUp plan.tunIface, true)]
  | _, _ => []

def mtuSteps (plan : RoutePlan) : List (IpCommand × Bool) :=
  (plan.mtu.map fun mtu => (.linkMtu plan.tunIface mtu, false)).toList

def addition (route : String × Hop) : IpCommand × Bool := (.routeReplace route.1 route.2, true)

/-- The runs of `ip` in a connect, and whether it stops at one that fails. -/
def steps (plan : RoutePlan) (phys : PhysicalState) : List (IpCommand × Bool) :=
  tunSteps plan ++ mtuSteps plan ++ (planned plan phys).map addition

section Scripts
variable {D : Type} [DecidableEq D]

section Steps
variable (ip : Ip D)

def execute (o : Outside) : IpCommand × Bool → Script D Unit
  | (command, true) => run ip o command
  | (command, false) => ignoring (run ip o command)

theorem configureTun_eq (o : Outside) (plan : RoutePlan) :
    configureTun ip o plan = (tunSteps plan).forM (execute ip o) := by
  cases hip : plan.tunIp <;> cases hlen : plan.prefixLen <;>
    simp [configureTun, tunSteps, execute, hip, hlen]

theorem setMtu_eq (o : Outside) (plan : RoutePlan) :
    setMtu ip o plan = (mtuSteps plan).forM (execute ip o) := by
  cases hmtu : plan.mtu <;> simp [setMtu, mtuSteps, execute, hmtu]

theorem guards_eq (o : Outside) (plan : RoutePlan) (phys : PhysicalState) :
    (do keepControlPath ip o plan phys; protectManagement ip o plan phys) =
      ((guards plan phys).map addition).forM (execute ip o) := by
  cases hgw : phys.gateway <;> cases hif : phys.iface <;> cases hvpn : plan.vpnGateway <;>
    simp [keepControlPath, protectManagement, guards, path, hgw, hif, hvpn]
  all_goals
    cases hip : phys.localIp <;> cases hprefix : phys.localPrefix <;>
      simp [guarded, addition, execute, hvpn, hip, hprefix]

theorem addSplitRoutes_eq (o : Outside) (plan : RoutePlan) :
    addSplitRoutes ip o plan =
      ((splits plan).map addition).forM (execute ip o) := by
  simp [addSplitRoutes, splits, addition, execute]

/-- A connect saves the physical path, then runs its steps. -/
theorem connect_eq (o : Outside) (plan : RoutePlan) :
    connect ip o plan = (do
      saveState o plan (.discover o plan)
      (steps plan (.discover o plan)).forM (execute ip o)
      applyDns o plan) := by
  have hguards := guards_eq ip o plan (.discover o plan)
  simp only [connect, configureTun_eq, setMtu_eq, addSplitRoutes_eq, steps, planned]
  simp only [List.map_append, List.forM_eq_forM, List.forM_append, bind_assoc] at hguards ⊢
  rw [← hguards, bind_assoc]

end Steps

variable (destination : String → Option D)

/-- The routes that a command installs. -/
def places : IpCommand → List (D × Hop)
  | .routeReplace dst hop => ((destination dst).map (·, hop)).toList
  | _ => []

def goesThrough (o : Outside) (n : Nat) : IpCommand → Bool
  | .routeReplace dst _ => (o.failure n).isNone && (destination dst).isSome
  | _ => (o.failure n).isNone

/-- The routes that get installed by steps of which the first is run `n`. -/
def carriedOut (o : Outside) : Nat → List (IpCommand × Bool) → List (D × Hop)
  | _, [] => []
  | n, (command, needed) :: rest =>
    if goesThrough destination o n command then
      places destination command ++ carriedOut o (n + 1) rest
    else if needed then []
    else carriedOut o (n + 1) rest

/-- From `h` to `h'` a list of routes was installed and no file touched. -/
structure Installed (entries : List (D × Hop)) (h h' : Host D) : Prop where
  table : h'.table = h.table.installAll entries
  installed : h'.installed = h.installed ++ entries
  files : h'.files = h.files

theorem Installed.counted (h : Host D) (n : Nat) : Installed [] h { h with ran := n } :=
  ⟨rfl, (List.append_nil _).symm, rfl⟩

theorem Installed.trans {entries more : List (D × Hop)} {h h' h'' : Host D}
    (first : Installed entries h h') (second : Installed more h' h'') :
    Installed (entries ++ more) h h'' where
  table := by rw [second.table, first.table, Table.installAll_append]
  installed := by rw [second.installed, first.installed, List.append_assoc]
  files := second.files.trans first.files

/-- A command that installs what it names, and changes nothing else. -/
def Adds (kernel : Kernel D) : IpCommand → Prop
  | .routeDel _ _ => False
  | .routeReplace _ _ => True
  | command => ∀ n T, kernel n command T = T

section Runs
variable {destination} {kernel : Kernel D} {o : Outside} {h : Host D} {command : IpCommand}

theorem run_ok (hadds : Adds kernel command)
    (hrun : goesThrough destination o h.ran command = true) :
    ∃ h', run ⟨destination, kernel⟩ o command h = .ok () h' ∧ h'.ran = h.ran + 1 ∧
      Installed (places destination command) h h' := by
  cases command with
  | routeDel dst hop => exact hadds.elim
  | routeReplace dst hop =>
    simp only [goesThrough, Bool.and_eq_true, Option.isNone_iff_eq_none,
      Option.isSome_iff_exists] at hrun
    obtain ⟨hfail, d, hd⟩ := hrun
    simp only [run, hfail, IpCommand.exec, places, hd]
    exact ⟨_, rfl, rfl, rfl, rfl, rfl⟩
  | _ =>
    simp only [goesThrough, Option.isNone_iff_eq_none] at hrun
    simp only [run, hrun, IpCommand.exec]
    exact ⟨_, rfl, rfl, hadds _ _, (List.append_nil _).symm, rfl⟩

theorem run_fails (hadds : Adds kernel command)
    (hrun : goesThrough destination o h.ran command = false) :
    ∃ e, run ⟨destination, kernel⟩ o command h = .error e { h with ran := h.ran + 1 } := by
  unfold run
  cases hfail : o.failure h.ran with
  | some failure => exact ⟨_, rfl⟩
  | none =>
    cases command with
    | routeDel dst hop => exact hadds.elim
    | routeReplace dst hop =>
      simp only [goesThrough, hfail, Option.isNone_none, Bool.true_and,
        Option.isSome_eq_false_iff, Option.isNone_iff_eq_none] at hrun
      simp only [IpCommand.exec, hrun]
      exact ⟨_, rfl⟩
    | _ => simp [goesThrough, hfail] at hrun

/-- A step either goes through, or stops the script, or fails and is passed over. -/
theorem execute_cases (needed : Bool) (hadds : Adds kernel command) :
    (goesThrough destination o h.ran command = true ∧
      ∃ h', execute ⟨destination, kernel⟩ o (command, needed) h = .ok () h' ∧
        h'.ran = h.ran + 1 ∧ Installed (places destination command) h h') ∨
    (goesThrough destination o h.ran command = false ∧ needed = true ∧
      ∃ e, execute ⟨destination, kernel⟩ o (command, needed) h =
        .error e { h with ran := h.ran + 1 }) ∨
    (goesThrough destination o h.ran command = false ∧ needed = false ∧
      execute ⟨destination, kernel⟩ o (command, needed) h =
        .ok () { h with ran := h.ran + 1 }) := by
  cases hrun : goesThrough destination o h.ran command with
  | true =>
    obtain ⟨h', hok, hran, hinst⟩ := run_ok hadds hrun
    refine Or.inl ⟨rfl, h', ?_, hran, hinst⟩
    cases needed with
    | true => exact hok
    | false => simp only [execute, ignoring, hok]
  | false =>
    obtain ⟨e, herr⟩ := run_fails hadds hrun
    cases needed with
    | true => exact Or.inr (Or.inl ⟨rfl, rfl, e, herr⟩)
    | false => exact Or.inr (Or.inr ⟨rfl, rfl, by simp only [execute, ignoring, herr]⟩)

variable (destination o h) in
/-- Steps install what `carriedOut` says, whether they get to their end or not. -/
theorem steps_left {l : List (IpCommand × Bool)} (hadds : ∀ s ∈ l, Adds kernel s.1) :
    Installed (carriedOut destination o h.ran l) h
      (left (l.forM (execute ⟨destination, kernel⟩ o) h)) := by
  induction l generalizing h with
  | nil => exact .counted h h.ran
  | cons s l ih =>
    obtain ⟨command, needed⟩ := s
    have hrest := fun h => ih (h := h) fun s hs => hadds s (List.mem_cons_of_mem _ hs)
    simp only [List.forM_eq_forM, List.forM_cons, carriedOut] at hrest ⊢
    rcases execute_cases (h := h) needed (hadds _ List.mem_cons_self) with
      ⟨hrun, h', hok, hran, hinst⟩ | ⟨hrun, rfl, e, herr⟩ | ⟨hrun, rfl, hok⟩
    · rw [bind_of_ok hok, if_pos hrun, ← hran]
      exact hinst.trans (hrest h')
    · rw [bind_of_error herr, hrun]
      exact .counted h (h.ran + 1)
    · rw [bind_of_ok hok, hrun]
      exact (Installed.counted h (h.ran + 1)).trans (hrest { h with ran := h.ran + 1 })

/-- Steps that get to their end have installed every route of theirs. -/
theorem carriedOut_of_ok {l : List (IpCommand × Bool)} {h' : Host D}
    (hadds : ∀ s ∈ l, Adds kernel s.1)
    (hplaces : ∀ s ∈ l, s.2 = false → places destination s.1 = [])
    (hok : l.forM (execute ⟨destination, kernel⟩ o) h = .ok () h') :
    carriedOut destination o h.ran l = l.flatMap fun s => places destination s.1 := by
  induction l generalizing h with
  | nil => rfl
  | cons s l ih =>
    obtain ⟨command, needed⟩ := s
    have hrest := fun h => ih (h := h) (fun s hs => hadds s (List.mem_cons_of_mem _ hs))
      fun s hs => hplaces s (List.mem_cons_of_mem _ hs)
    simp only [List.forM_eq_forM, List.forM_cons, carriedOut, List.flatMap_cons] at hrest hok ⊢
    rcases execute_cases (h := h) needed (hadds _ List.mem_cons_self) with
      ⟨hrun, h₁, hstep, hran, -⟩ | ⟨hrun, rfl, e, herr⟩ | ⟨hrun, rfl, hstep⟩
    · rw [bind_of_ok hstep] at hok
      rw [if_pos hrun, ← hran, hrest h₁ hok]
    · rw [bind_of_error herr] at hok
      cases hok
    · rw [bind_of_ok hstep] at hok
      rw [hrun, hplaces _ List.mem_cons_self rfl]
      exact hrest { h with ran := h.ran + 1 } hok

end Runs

/-- The entries that `ip` makes of routes. -/
def entries (routes : List (String × Hop)) : List (D × Hop) :=
  routes.filterMap fun r => (destination r.1).map (·, r.2)

omit [DecidableEq D] in
theorem mem_entries {routes : List (String × Hop)} {d : D} {hop : Hop} :
    (d, hop) ∈ entries destination routes ↔ ∃ r ∈ routes, destination r.1 = some d ∧ r.2 = hop := by
  simp [entries]

/-- Of routes that share their hop, the last is any of them. -/
theorem last_entries {texts : List String} {hop : Hop} {d : D} :
    Table.last (entries destination (texts.map (·, hop))) d =
      if d ∈ texts.filterMap destination then some hop else none := by
  split
  · rename_i hd
    have hsome : (Table.last (entries destination (texts.map (·, hop))) d).isSome = true := by
      simpa [Table.last_isSome, mem_entries] using hd
    obtain ⟨hop', hlast⟩ := Option.isSome_iff_exists.mp hsome
    obtain ⟨r, hr, -, rfl⟩ := (mem_entries destination).mp (Table.last_eq_some_mem hlast)
    obtain ⟨text, -, rfl⟩ := List.mem_map.mp hr
    exact hlast
  · rename_i hd
    simpa [Table.last_eq_none, mem_entries] using hd

/-- The networks that a plan keeps on a physical path, when there is one. -/
def kept (plan : RoutePlan) (phys : PhysicalState) : List D :=
  (path phys).elim [] fun _ => (guarded plan phys).filterMap destination

def splitNets (plan : RoutePlan) : List D := plan.splitRoutes.filterMap destination

/-- Split routes come last and win. -/
theorem last_planned {plan : RoutePlan} {phys : PhysicalState} {d : D} :
    Table.last (entries destination (planned plan phys)) d =
      if d ∈ splitNets destination plan then some ⟨none, plan.tunIface⟩
      else if d ∈ kept destination plan phys then path phys else none := by
  have hguards : Table.last (entries destination (guards plan phys)) d =
      if d ∈ kept destination plan phys then path phys else none := by
    cases hpath : path phys with
    | none => simp [guards, kept, hpath, entries]
    | some hop => simp only [guards, kept, hpath, Option.elim, last_entries]
  have happend : entries destination (planned plan phys) =
      entries destination (guards plan phys) ++ entries destination (splits plan) :=
    List.filterMap_append
  rw [happend, Table.last_append, hguards, splits, last_entries, splitNets]
  split <;> rfl

omit [DecidableEq D] in
theorem steps_adds (plan : RoutePlan) (phys : PhysicalState) :
    ∀ s ∈ steps plan phys, Adds (quiet destination).kernel s.1 := by
  intro s hs
  simp only [steps, tunSteps, mtuSteps, List.mem_append, List.mem_map, Option.mem_toList,
    Option.map_eq_some_iff] at hs
  rcases hs with (hs | ⟨mtu, -, rfl⟩) | ⟨route, -, rfl⟩
  · split at hs
    · simp only [List.mem_cons, List.not_mem_nil, or_false] at hs
      rcases hs with rfl | rfl <;> exact fun _ _ => rfl
    · cases hs
  · exact fun _ _ => rfl
  · trivial

omit [DecidableEq D] in
theorem additions_places (routes : List (String × Hop)) :
    ((routes.map addition).flatMap fun s => places destination s.1) =
      entries destination routes := by
  rw [List.flatMap_map, entries, List.filterMap_eq_flatMap_toList]
  rfl

omit [DecidableEq D] in
theorem steps_places (plan : RoutePlan) (phys : PhysicalState) :
    (∀ s ∈ steps plan phys, s.2 = false → places destination s.1 = []) ∧
      ((steps plan phys).flatMap fun s => places destination s.1) =
        entries destination (planned plan phys) := by
  have htun : ∀ s ∈ tunSteps plan, places destination s.1 = [] := by
    intro s hs
    unfold tunSteps at hs
    split at hs
    · simp only [List.mem_cons, List.not_mem_nil, or_false] at hs
      rcases hs with rfl | rfl <;> rfl
    · cases hs
  have hmtu : ∀ s ∈ mtuSteps plan, places destination s.1 = [] := by
    intro s hs
    simp only [mtuSteps, Option.mem_toList, Option.map_eq_some_iff] at hs
    obtain ⟨mtu, -, rfl⟩ := hs
    rfl
  constructor
  · intro s hs hneeded
    rcases List.mem_append.mp hs with hs | hs
    · exact (List.mem_append.mp hs).elim (htun s) (hmtu s)
    · obtain ⟨route, -, rfl⟩ := List.mem_map.mp hs
      cases hneeded
  · rw [steps, List.flatMap_append, List.flatMap_append, List.flatMap_eq_nil_iff.mpr htun,
      List.flatMap_eq_nil_iff.mpr hmtu, additions_places]
    rfl

section Connect
variable {destination} {o : Outside} {plan : RoutePlan} {h : Host D}

omit [DecidableEq D] in
theorem saveState_ok (o : Outside) (plan : RoutePlan) (phys : PhysicalState) (h : Host D) :
    ∃ h', saveState o plan phys h = .ok () h' ∧ h'.table = h.table ∧
      h'.installed = h.installed ∧ h'.ran = h.ran ∧
      (o.stateWrite = .done →
        h'.files = Function.update h.files (statePath o plan) (some phys)) := by
  refine ⟨_, rfl, ?_⟩
  cases o.stateWrite <;> simp [setFile]

omit [DecidableEq D] in
theorem applyDns_ok (o : Outside) (plan : RoutePlan) (h : Host D) :
    ∃ r, applyDns o plan h = .ok () { h with resolver := r } := by
  unfold applyDns
  split
  · exact ⟨_, rfl⟩
  · cases o.resolvectl <;> exact ⟨_, rfl⟩

variable (destination o plan h) in
/-- A connect installs what its steps get to, and files the physical path. -/
theorem connect_left :
    (left (connect destination o plan h)).table = h.table.installAll
        (carriedOut destination o h.ran (steps plan (.discover o plan))) ∧
      (left (connect destination o plan h)).installed = h.installed ++
        carriedOut destination o h.ran (steps plan (.discover o plan)) ∧
      (o.stateWrite = .done → (left (connect destination o plan h)).files =
        Function.update h.files (statePath o plan) (some (.discover o plan))) := by
  obtain ⟨h₁, hsave, htable, hinst, hran, hfiles⟩ :=
    saveState_ok o plan (.discover o plan) h
  have hsteps := steps_left destination o h₁ (steps_adds destination plan (.discover o plan))
  rw [hran] at hsteps
  rw [connect_eq, bind_of_ok hsave]
  cases hrun : (steps plan (.discover o plan)).forM (execute destination o) h₁ with
  | error e h₂ =>
    rw [hrun] at hsteps
    rw [bind_of_error hrun]
    exact ⟨htable ▸ hsteps.table, hinst ▸ hsteps.installed,
      fun hdone => hsteps.files.trans (hfiles hdone)⟩
  | ok _ h₂ =>
    obtain ⟨r, hdns⟩ := applyDns_ok o plan h₂
    rw [hrun] at hsteps
    rw [bind_of_ok hrun, hdns]
    exact ⟨htable ▸ hsteps.table, hinst ▸ hsteps.installed,
      fun hdone => hsteps.files.trans (hfiles hdone)⟩

/-- A connect that succeeds has installed every route of its plan. -/
theorem connect_ok {h' : Host D} (hok : connect destination o plan h = .ok () h') :
    carriedOut destination o h.ran (steps plan (.discover o plan)) =
      entries destination (planned plan (.discover o plan)) := by
  obtain ⟨h₁, hsave, -, -, hran, -⟩ :=
    saveState_ok o plan (.discover o plan) h
  rw [connect_eq, bind_of_ok hsave] at hok
  obtain ⟨_, h₂, hrun, -⟩ := ok_of_bind hok
  obtain ⟨hnone, hall⟩ := steps_places destination plan (.discover o plan)
  rw [← hran, carriedOut_of_ok (steps_adds destination plan _) hnone hrun, hall]

theorem connect_table {h' : Host D} (hok : connect destination o plan h = .ok () h') (d : D) :
    h'.table d = if d ∈ splitNets destination plan then some ⟨none, plan.tunIface⟩
      else if d ∈ kept destination plan (.discover o plan) then path (.discover o plan)
      else h.table d := by
  have htable := (connect_left destination o plan h).1
  rw [hok, connect_ok hok] at htable
  simp only [left] at htable
  rw [htable, Table.installAll_apply, last_planned]
  split
  · rfl
  · split
    · rename_i hkept
      cases hpath : path (.discover o plan) with
      | none => simp [kept, hpath] at hkept
      | some hop => rfl
    · rfl

end Connect

/-- The deletions of a plan over a physical path name a route. -/
def Revokes (plan : RoutePlan) (phys : PhysicalState) (d : D) (hop : Hop) : Prop :=
  ∃ r ∈ planned plan phys, destination r.1 = some d ∧ r.2.fits hop = true

omit [DecidableEq D] in
/-- What a plan revokes, by the kinds of its routes. -/
theorem revokes_iff {plan : RoutePlan} {phys : PhysicalState} {d : D} {hop : Hop} :
    Revokes destination plan phys d hop ↔
      (d ∈ splitNets destination plan ∧ Hop.fits ⟨none, plan.tunIface⟩ hop = true) ∨
        (d ∈ kept destination plan phys ∧ ∃ g, path phys = some g ∧ g.fits hop = true) := by
  have hshared (texts : List String) (g : Hop) :
      (∃ r ∈ texts.map (·, g), destination r.1 = some d ∧ r.2.fits hop = true) ↔
        d ∈ texts.filterMap destination ∧ g.fits hop = true := by
    simp only [List.mem_map, List.mem_filterMap, exists_exists_and_eq_and]
    simp only [← and_assoc, exists_and_right]
  have hguards : (∃ r ∈ guards plan phys, destination r.1 = some d ∧ r.2.fits hop = true) ↔
      d ∈ kept destination plan phys ∧ ∃ g, path phys = some g ∧ g.fits hop = true := by
    cases hpath : path phys with
    | none => simp [guards, kept, hpath]
    | some g =>
      simp only [guards, kept, hpath, Option.elim, hshared, Option.some.injEq, exists_eq_left']
  simp only [Revokes, planned, List.mem_append, or_and_right, exists_or, hguards, splits,
    hshared, splitNets]
  exact or_comm

/-- The deletions in the order in which they are made. -/
def deletions (plan : RoutePlan) (phys : PhysicalState) : List (String × Hop) :=
  splits plan ++ guards plan phys

omit [DecidableEq D] in
theorem recalled_of_file {o : Outside} {plan : RoutePlan} {h : Host D} {phys : PhysicalState}
    (hfile : h.files (statePath o plan) = some phys) :
    recalled o plan h =
      if phys.gateway.isSome || phys.iface.isSome then phys else .discover o plan := by
  simp only [recalled, loadState, hfile, Option.getD_some]

/-- The physical path that a disconnect goes by after a connect, however that has ended. -/
theorem recalled_left {o leave : Outside} {plan : RoutePlan} {h : Host D}
    (hsaved : o.stateWrite = .done) (hdir : leave.stateDir = o.stateDir) :
    recalled leave plan (left (connect destination o plan h)) =
      if (PhysicalState.discover o plan).gateway.isSome ||
          (PhysicalState.discover o plan).iface.isSome then .discover o plan
      else .discover leave plan := by
  refine recalled_of_file ?_
  have hpath : statePath leave plan = statePath o plan := by simp only [statePath, hdir]
  rw [hpath, (connect_left destination o plan h).2.2 hsaved, Function.update_self]

section Disconnect
variable {destination} {o : Outside} {plan : RoutePlan} {h h' : Host D}

variable (o plan) in
theorem releases_eq (ip : Ip D) (phys : PhysicalState) :
    (do releaseControlPath ip o plan phys; releaseManagement ip o plan phys) =
      (guards plan phys).forM fun r => delete ip o r.1 r.2 := by
  cases hgw : phys.gateway <;> cases hif : phys.iface <;> cases hvpn : plan.vpnGateway <;>
    simp [releaseControlPath, releaseManagement, guards, path, hgw, hif, hvpn]
  all_goals
    cases hip : phys.localIp <;> cases hprefix : phys.localPrefix <;>
      simp [guarded, hvpn, hip, hprefix]

theorem disconnect_eq {ip : Ip D} : disconnect ip o plan h = (do
    (deletions plan (recalled o plan h)).forM fun r => delete ip o r.1 r.2
    tunDown ip o plan
    revertDns plan
    modify (setFile (statePath o plan) none) : Script D Unit) h := by
  have hguards := releases_eq o plan ip (recalled o plan h)
  have hget : disconnect ip o plan h = (do
      removeSplitRoutes ip o plan
      releaseControlPath ip o plan (recalled o plan h)
      releaseManagement ip o plan (recalled o plan h)
      tunDown ip o plan
      revertDns plan
      modify (setFile (statePath o plan) none) : Script D Unit) h := rfl
  rw [hget]
  simp only [removeSplitRoutes, deletions, splits]
  simp only [List.forM_eq_forM, List.forM_append, List.forM_map, bind_assoc] at hguards ⊢
  rw [← hguards, bind_assoc]

/-- From `h` to `h'` entries were deleted. -/
structure Removed (removals : List (D × Hop)) (h h' : Host D) : Prop where
  table : h'.table = h.table.removeAll (removals.map fun e => (e.1, e.2.fits))
  installed : h'.installed = h.installed

theorem Removed.trans {removals more : List (D × Hop)} {h'' : Host D}
    (first : Removed removals h h') (second : Removed more h' h'') :
    Removed (removals ++ more) h h'' where
  table := by rw [second.table, first.table, List.map_append, Table.removeAll_append]
  installed := second.installed.trans first.installed

variable (destination o) in
/-- Of these deletions, each that matches an entry when its turn comes is not made to fail. -/
def MatchesSucceed : Host D → List (String × Hop) → Prop
  | _, [] => True
  | h, r :: l =>
    (∀ d, destination r.1 = some d → (h.table d).any r.2.fits = true → o.failure h.ran = none) ∧
      MatchesSucceed (left (delete destination o r.1 r.2 h)) l

theorem matchesSucceed_of (hruns : ∀ n, o.failure n = none) (l : List (String × Hop)) :
    MatchesSucceed destination o h l := by
  induction l generalizing h with
  | nil => trivial
  | cons r l ih => exact ⟨fun _ _ _ => hruns h.ran, ih⟩

theorem delete_ok (r : String × Hop) (hmatch : ∀ d, destination r.1 = some d →
    (h.table d).any r.2.fits = true → o.failure h.ran = none) :
    ∃ h', delete destination o r.1 r.2 h = .ok () h' ∧ Removed (entries destination [r]) h h' := by
  cases hd : destination r.1 with
  | none =>
    cases hfail : o.failure h.ran with
    | none =>
      simp only [delete, ignoring, run, hfail, IpCommand.exec, hd]
      exact ⟨_, rfl, by simp [entries, hd, Table.removeAll], rfl⟩
    | some failure =>
      simp only [delete, ignoring, run, hfail]
      exact ⟨_, rfl, by simp [entries, hd, Table.removeAll], rfl⟩
  | some d =>
    cases hfits : (h.table d).any r.2.fits with
    | true =>
      simp only [delete, ignoring, run, hmatch d hd hfits, IpCommand.exec, hd, hfits, if_true]
      exact ⟨_, rfl, by simp [entries, hd, Table.removeAll], rfl⟩
    | false =>
      -- nothing is deleted, whatever the reason
      have hsame : h.table.remove d r.2.fits = h.table := by simp [Table.remove, hfits]
      cases hfail : o.failure h.ran with
      | none =>
        simp only [delete, ignoring, run, hfail, IpCommand.exec, hd, hfits]
        exact ⟨_, rfl, by simp [entries, hd, Table.removeAll, hsame], rfl⟩
      | some failure =>
        simp only [delete, ignoring, run, hfail]
        exact ⟨_, rfl, by simp [entries, hd, Table.removeAll, hsame], rfl⟩

theorem deletes_ok {l : List (String × Hop)} (hmatch : MatchesSucceed destination o h l) :
    ∃ h', l.forM (fun r => delete destination o r.1 r.2) h = .ok () h' ∧
      Removed (entries destination l) h h' := by
  induction l generalizing h with
  | nil => exact ⟨h, rfl, rfl, rfl⟩
  | cons r l ih =>
    obtain ⟨hhead, htail⟩ := hmatch
    obtain ⟨h₁, hfirst, hremoved⟩ := delete_ok r hhead
    rw [hfirst] at htail
    obtain ⟨h₂, hrest, hmore⟩ := ih (h := h₁) htail
    refine ⟨h₂, ?_, ?_⟩
    · simp only [List.forM_eq_forM, List.forM_cons] at hrest ⊢
      rw [bind_of_ok hfirst, hrest]
    · have hsplit : entries destination (r :: l) =
          entries destination [r] ++ entries destination l :=
        List.filterMap_append (l := [r])
      rw [hsplit]
      exact hremoved.trans hmore

variable (destination o plan h) in
theorem tunDown_ok : ∃ h', tunDown destination o plan h = .ok () h' ∧ h'.table = h.table ∧
    h'.installed = h.installed := by
  unfold tunDown
  split
  · cases hfail : o.failure h.ran with
    | none =>
      simp only [ignoring, run, hfail, IpCommand.exec]
      exact ⟨_, rfl, rfl, rfl⟩
    | some failure =>
      simp only [ignoring, run, hfail]
      exact ⟨_, rfl, rfl, rfl⟩
  · exact ⟨h, rfl, rfl, rfl⟩

/-- Deletions take away exactly what fits one of them. -/
theorem Removed.table_iff {routes : List (String × Hop)}
    (hremoved : Removed (entries destination routes) h h') (d : D) (hop : Hop) :
    h'.table d = some hop ↔ h.table d = some hop ∧
      ¬ ∃ r ∈ routes, destination r.1 = some d ∧ r.2.fits hop = true := by
  have hany : (((entries destination routes).map fun e => (e.1, e.2.fits)).any fun r =>
      r.1 = d ∧ (h.table d).any r.2) = true ↔
        ∃ r ∈ routes, destination r.1 = some d ∧ (h.table d).any r.2.fits = true := by
    simp only [List.any_map, List.any_eq_true, Function.comp_apply, decide_eq_true_eq, Prod.exists,
      mem_entries]
    grind
  rw [hremoved.table, Table.removeAll_apply]
  cases htable : h.table d with
  | none => simp
  | some old =>
    rw [htable] at hany
    simp only [Option.any_some] at hany ⊢
    split
    · rename_i hin
      have hex := hany.mp hin
      grind
    · rename_i hnot
      have hex := mt hany.mpr hnot
      grind

/-- A disconnect leaves every entry but those that its plan revokes. -/
theorem disconnect_left
    (hmatch : MatchesSucceed destination o h (deletions plan (recalled o plan h))) :
    ∃ h', disconnect destination o plan h = .ok () h' ∧ h'.installed = h.installed ∧
      ∀ d hop, h'.table d = some hop ↔
        h.table d = some hop ∧ ¬ Revokes destination plan (recalled o plan h) d hop := by
  obtain ⟨h₁, hdel, hremoved⟩ := deletes_ok hmatch
  obtain ⟨h₂, hdown, htable, hinst⟩ := tunDown_ok destination o plan h₁
  rw [disconnect_eq, bind_of_ok hdel, bind_of_ok hdown]
  refine ⟨_, rfl, hinst.trans hremoved.installed, fun d hop => ?_⟩
  have hsame (r) : r ∈ deletions plan (recalled o plan h) ↔
      r ∈ planned plan (recalled o plan h) := by
    rw [deletions, planned, List.mem_append, List.mem_append, or_comm]
  have hiff := hremoved.table_iff d hop
  simp only [hsame] at hiff
  exact htable ▸ hiff

variable (destination plan h) in
theorem disconnect_ok (hruns : ∀ n, o.failure n = none) :
    ∃ h', disconnect destination o plan h = .ok () h' ∧ h'.installed = h.installed ∧
      ∀ d hop, h'.table d = some hop ↔
        h.table d = some hop ∧ ¬ Revokes destination plan (recalled o plan h) d hop :=
  disconnect_left (matchesSucceed_of hruns _)

end Disconnect

end Scripts

/-- A laptop on its home network. -/
def laptop : Outside where
  routeShowVia := some "default via 192.168.1.1 dev wlan0 proto dhcp metric 600"
  routeShowDev := some "default via 192.168.1.1 dev wlan0 proto dhcp metric 600"
  addrShow := some "3: wlan0    inet 192.168.1.23/24 brd 192.168.1.255 scope global wlan0"

/-- A plan with one split route. -/
def planFor (cidr : String) : RoutePlan where
  reason := "connect"
  tunIface := "tun0"
  vpnGateway := some "140.206.103.26"
  tunIp := some "10.1.1.20"
  prefixLen := some 24
  mtu := some 1400
  dns := ["223.5.5.5"]
  dnsMode := "server"
  splitRoutes := [cidr]
  preserveCidrs := []
  physGatewayOverride := none
  physIfaceOverride := none

/-- The network of an address with the netmask 255.255.255.0. -/
def subnet (addr : Ipv4Addr) : Prefix 32 := .of addr 24 (by decide)

/-- The default route, and the route that the address on `wlan0` came with. -/
def athome : Host (Prefix 32) where
  table p :=
    if p.len = 0 then some ⟨some "192.168.1.1", "wlan0"⟩
    else if p = subnet (Ipv4Addr.ofOctets 192 168 1 0) then some ⟨none, "wlan0"⟩
    else none

end InodeVpn.Proofs.LinuxRoutes
