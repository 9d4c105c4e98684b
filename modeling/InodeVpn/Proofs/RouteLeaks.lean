import InodeVpn.Proofs.LinuxRoutes

namespace InodeVpn.Proofs.RouteLeaks
open Lib Routectl Routectl.Linux LinuxRoutes

/-- One run of routectl in a session. -/
structure Phase where
  plan : RoutePlan
  outside : Outside

/-- The plan of a disconnect, in an environment that is otherwise the same. -/
def leaving (plan : RoutePlan) : RoutePlan := { plan with reason := "disconnect" }

section Sessions
variable {D : Type} [DecidableEq D] (destination : String → Option D)

/-- A phase is a process of its own, so its runs of `ip` are numbered from the first. -/
def phase (h : Host D) (p : Phase) : Host D :=
  left (apply destination p.outside p.plan { h with ran := 0 })

def session (h : Host D) (phases : List Phase) : Host D := phases.foldl (phase destination) h

/-- The routes that a phase gets to install. -/
def installs (p : Phase) : List (D × Hop) :=
  if p.plan.isUpPhase then
    carriedOut destination p.outside 0 (steps p.plan (.discover p.outside p.plan))
  else []

/-- The physical path that a phase files. -/
def saves (p : Phase) : List (String × PhysicalState) :=
  if p.plan.isUpPhase then
    [(statePath p.outside p.plan, .discover p.outside p.plan)]
  else []

/-- The physical path that a disconnect goes by after some phases. -/
def remembered (files : Table String PhysicalState) (phases : List Phase) (leave : Outside)
    (plan : RoutePlan) : PhysicalState :=
  let saved := ((files.installAll (phases.flatMap saves)) (statePath leave plan)).getD {}
  if saved.gateway.isSome || saved.iface.isSome then saved else .discover leave plan

end Sessions

section Runs
variable {D : Type} [DecidableEq D] {destination : String → Option D} {h : Host D}

theorem apply_up {ip : Ip D} {o : Outside} {plan : RoutePlan} (hup : plan.isUpPhase = true) :
    apply ip o plan = connect ip o plan := by
  simp only [RoutePlan.isUpPhase, Bool.or_eq_true, beq_iff_eq] at hup
  rcases hup with (hr | hr) | hr <;> simp [apply, hr]

theorem apply_other {ip : Ip D} {o : Outside} {plan : RoutePlan} (hup : plan.isUpPhase = false)
    (hreason : plan.reason ≠ "disconnect") : left (apply ip o plan h) = h := by
  simp only [RoutePlan.isUpPhase, Bool.or_eq_false_iff, beq_eq_false_iff_ne] at hup
  have hnothing : apply ip o plan = pure () ∨ ∃ e, apply ip o plan = throw e := by
    unfold apply
    split
    · exact Or.inl rfl
    · exact absurd ‹_› hup.1.1
    · exact absurd ‹_› hup.1.2
    · exact absurd ‹_› hup.2
    · exact absurd ‹_› hreason
    · exact Or.inr ⟨_, rfl⟩
  rcases hnothing with happly | ⟨e, happly⟩ <;> rw [happly] <;> rfl

variable (destination h) in
/-- What one phase does to the table, to the record and to the files. -/
theorem phase_left {p : Phase} (hreason : p.plan.reason ≠ "disconnect")
    (hsaved : p.outside.stateWrite = .done) :
    (phase destination h p).table = h.table.installAll (installs destination p) ∧
      (phase destination h p).installed = h.installed ++ installs destination p ∧
      (phase destination h p).files = Table.installAll h.files (saves p) := by
  unfold phase installs saves
  cases hup : p.plan.isUpPhase with
  | true =>
    obtain ⟨htable, hinst, hfiles⟩ := connect_left destination p.outside p.plan
      { h with ran := 0 }
    rw [apply_up hup, if_pos rfl, if_pos rfl]
    exact ⟨htable, hinst, hfiles hsaved⟩
  | false =>
    rw [apply_other hup hreason]
    exact ⟨rfl, (List.append_nil _).symm, rfl⟩

variable (destination h) in
/-- What any number of phases do. -/
theorem session_left (phases : List Phase) (hreasons : ∀ p ∈ phases, p.plan.reason ≠ "disconnect")
    (hsaved : ∀ p ∈ phases, p.outside.stateWrite = .done) :
    (session destination h phases).table =
        h.table.installAll (phases.flatMap (installs destination)) ∧
      (session destination h phases).installed =
        h.installed ++ phases.flatMap (installs destination) ∧
      (session destination h phases).files =
        Table.installAll h.files (phases.flatMap saves) := by
  induction phases generalizing h with
  | nil => exact ⟨rfl, (List.append_nil _).symm, rfl⟩
  | cons p phases ih =>
    obtain ⟨htable, hinst, hfiles⟩ := phase_left destination h
      (hreasons p List.mem_cons_self) (hsaved p List.mem_cons_self)
    obtain ⟨htable', hinst', hfiles'⟩ := ih (phase destination h p)
      (fun q hq => hreasons q (List.mem_cons_of_mem _ hq))
      fun q hq => hsaved q (List.mem_cons_of_mem _ hq)
    simp only [session, List.foldl_cons, List.flatMap_cons] at htable' hinst' hfiles' ⊢
    rw [htable', hinst', hfiles', htable, hinst, hfiles, Table.installAll_append,
      Table.installAll_append, List.append_assoc]
    exact ⟨rfl, rfl, rfl⟩

variable (destination) in
/-- What phases and a disconnect with the last plan leave in the table. -/
theorem session_leaves (table : Table D Hop) (files : String → Option PhysicalState)
    (phases : List Phase) (last : Phase) (leave : Outside)
    (hreasons : ∀ p ∈ phases ++ [last], p.plan.reason ≠ "disconnect")
    (hsaved : ∀ p ∈ phases ++ [last], p.outside.stateWrite = .done)
    (hruns : ∀ n, leave.failure n = none) (d : D) (hop : Hop) :
    (phase destination (session destination { table, files } (phases ++ [last]))
        ⟨leaving last.plan, leave⟩).table d = some hop ↔
      (Table.last ((phases ++ [last]).flatMap (installs destination)) d).or (table d) = some hop ∧
        ¬ Revokes destination last.plan (remembered files (phases ++ [last]) leave last.plan)
          d hop := by
  obtain ⟨htable, -, hfiles⟩ := session_left destination { table, files } _ hreasons hsaved
  generalize session destination { table, files } (phases ++ [last]) = h at htable hfiles ⊢
  obtain ⟨h', hleave, -, hafter⟩ :=
    disconnect_ok destination (leaving last.plan) { h with ran := 0 } hruns
  have hpath : recalled leave (leaving last.plan) { h with ran := 0 } =
      remembered files (phases ++ [last]) leave last.plan := by
    simp only [recalled, remembered, loadState, hfiles]
    rfl
  have hphase : phase destination h ⟨leaving last.plan, leave⟩ = h' := by
    have happly : apply (quiet destination) leave (leaving last.plan) =
        disconnect destination leave (leaving last.plan) := rfl
    rw [phase, happly, hleave]
    rfl
  rw [hphase, ← Table.installAll_apply, ← htable, ← hpath]
  exact hafter d hop

/-- After phases and a disconnect with the last plan no route of theirs is left when, for
each destination, that plan revokes the last route that they gave it, and only then. -/
theorem session_leaks_nothing (table : Table D Hop) (files : String → Option PhysicalState)
    (phases : List Phase) (last : Phase) (leave : Outside)
    (hreasons : ∀ p ∈ phases ++ [last], p.plan.reason ≠ "disconnect")
    (hsaved : ∀ p ∈ phases ++ [last], p.outside.stateWrite = .done)
    (hruns : ∀ n, leave.failure n = none) :
    (∀ d hop, (d, hop) ∈ (session destination { table, files } (phases ++ [last])).installed →
        (phase destination (session destination { table, files } (phases ++ [last]))
          ⟨leaving last.plan, leave⟩).table d ≠ some hop) ↔
      ∀ d hop, Table.last ((phases ++ [last]).flatMap (installs destination)) d = some hop →
        Revokes destination last.plan (remembered files (phases ++ [last]) leave last.plan)
          d hop := by
  have hleaves := session_leaves destination table files phases last leave hreasons hsaved hruns
  obtain ⟨-, hinst, -⟩ := session_left destination { table, files } _ hreasons hsaved
  rw [hinst, List.nil_append]
  constructor
  · intro hgone d hop hlast
    refine Classical.byContradiction fun hkeeps => ?_
    refine hgone d hop (Table.last_eq_some_mem hlast) ((hleaves d hop).mpr ⟨?_, hkeeps⟩)
    rw [hlast, Option.some_or]
  · intro hrevokes d hop hmem hleft
    obtain ⟨hentry, hkeeps⟩ := (hleaves d hop).mp hleft
    obtain ⟨hop', hlast⟩ := Option.isSome_iff_exists.mp
      (Table.last_isSome.mpr (List.mem_map_of_mem hmem))
    rw [hlast, Option.some_or] at hentry
    cases hentry
    exact hkeeps (hrevokes d hop hlast)

end Runs

/-- The same laptop on another network. -/
def office : Outside where
  routeShowVia := some "default via 10.0.0.1 dev eth0"
  routeShowDev := some "default via 10.0.0.1 dev eth0"
  addrShow := some "2: eth0    inet 10.0.0.7/24 scope global eth0"

/-- A session starts at home and goes on at the office. -/
def home : Phase := ⟨planFor "10.8.0.0/16", laptop⟩

def moved : Phase := ⟨planFor "10.8.0.0/16", office⟩

theorem session_leaks_nothing_sample :
    (∀ d hop, (d, hop) ∈
        (session Ipv4Addr.network { table := fun _ => none, files := fun _ => none }
          ([home] ++ [moved])).installed →
        (phase Ipv4Addr.network
          (session Ipv4Addr.network { table := fun _ => none, files := fun _ => none }
            ([home] ++ [moved])) ⟨leaving moved.plan, office⟩).table d ≠ some hop) ↔
      ∀ d hop, Table.last (([home] ++ [moved]).flatMap (installs Ipv4Addr.network)) d = some hop →
        Revokes Ipv4Addr.network moved.plan
          (remembered (fun _ => none) ([home] ++ [moved]) office moved.plan) d hop :=
  session_leaks_nothing (fun _ => none) (fun _ => none) [home] moved office (by decide)
    (by decide) fun _ => rfl

/-- The route to the laptop's address at home stays behind. -/
theorem home_route_left :
    ∃ d hop, (d, hop) ∈ (session Ipv4Addr.network
        { table := fun _ => none, files := fun _ => none } ([home] ++ [moved])).installed ∧
      (phase Ipv4Addr.network
        (session Ipv4Addr.network { table := fun _ => none, files := fun _ => none }
          ([home] ++ [moved])) ⟨leaving moved.plan, office⟩).table d = some hop := by
  obtain ⟨-, hinst, -⟩ := session_left Ipv4Addr.network
    { table := fun _ => none, files := fun _ => none } [home, moved] (by decide) (by decide)
  refine ⟨.of (Ipv4Addr.ofOctets 192 168 1 23) 32 (by decide), ⟨some "192.168.1.1", "wlan0"⟩,
    ?_, ?_⟩
  · rw [List.singleton_append, hinst]
    decide +kernel
  · refine (session_leaves Ipv4Addr.network (fun _ => none) (fun _ => none) [home] moved office
      (by decide) (by decide) (fun _ => rfl) _ _).mpr ⟨by decide +kernel, ?_⟩
    unfold Revokes
    decide +kernel

end InodeVpn.Proofs.RouteLeaks
