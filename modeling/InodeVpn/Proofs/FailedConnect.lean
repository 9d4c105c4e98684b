import InodeVpn.Proofs.LinuxRoutes

namespace InodeVpn.Proofs.FailedConnect
open Lib Routectl Routectl.Linux LinuxRoutes

section Cleanup
variable {D : Type} [DecidableEq D] {destination : String → Option D} {o leave : Outside}
  {plan : RoutePlan} {h : Host D} {d : D} {hop : Hop}

omit [DecidableEq D] in
theorem mem_carriedOut {n : Nat} {l : List (IpCommand × Bool)}
    (hmem : (d, hop) ∈ carriedOut destination o n l) :
    (d, hop) ∈ l.flatMap fun s => places destination s.1 := by
  induction l generalizing n with
  | nil => cases hmem
  | cons s l ih =>
    obtain ⟨command, needed⟩ := s
    rw [carriedOut] at hmem
    rw [List.flatMap_cons]
    split at hmem
    · rcases List.mem_append.mp hmem with hmem | hmem
      · exact List.mem_append_left _ hmem
      · exact List.mem_append_right _ (ih hmem)
    · split at hmem
      · cases hmem
      · exact List.mem_append_right _ (ih hmem)

omit [DecidableEq D] in
/-- A connect gets to write routes of its plan only. -/
theorem planned_of_carriedOut {n : Nat}
    (hmem : (d, hop) ∈ carriedOut destination o n (steps plan (.discover o plan))) :
    ∃ r ∈ planned plan (.discover o plan), destination r.1 = some d ∧ r.2 = hop := by
  have hplaces := mem_carriedOut hmem
  rw [(steps_places destination plan _).2] at hplaces
  exact (mem_entries destination).mp hplaces

/-- The disconnect revokes whatever route of the plan the connect has written. -/
theorem planned_revoked (hsaved : o.stateWrite = .done) (hdir : leave.stateDir = o.stateDir)
    {r : String × Hop} (hr : r ∈ planned plan (.discover o plan)) (hd : destination r.1 = some d) :
    Revokes destination plan (recalled leave plan (left (connect destination o plan h))) d r.2 := by
  refine ⟨r, ?_, hd, Hop.fits_self r.2⟩
  rw [recalled_left destination hsaved hdir]
  split
  · exact hr
  · rename_i hunknown
    -- no path was known, so only split routes were planned
    have hpath : path (.discover o plan) = none := by
      unfold path
      split
      · rename_i hgw _
        simp [hgw] at hunknown
      · rfl
    rw [planned, guards, hpath] at hr
    exact List.mem_append_right _ (by simpa using hr)

/-- However far a connect gets, the disconnect that follows leaves no entry that it has written,
and no other entry changed, but for those with the destinations of the plan. -/
theorem failed_connect_cleaned (hsaved : o.stateWrite = .done) (hdir : leave.stateDir = o.stateDir)
    (table : Table D Hop) (files : String → Option PhysicalState)
    (hmatch : MatchesSucceed destination leave (left (connect destination o plan { table, files }))
      (deletions plan (recalled leave plan (left (connect destination o plan { table, files }))))) :
    (∀ d hop, (d, hop) ∈ (left (connect destination o plan { table, files })).installed →
      (left (disconnect destination leave plan
        (left (connect destination o plan { table, files })))).table d ≠ some hop) ∧
    ∀ d, d ∉ destinations destination plan
        (recalled leave plan (left (connect destination o plan { table, files }))) →
      (left (disconnect destination leave plan
        (left (connect destination o plan { table, files })))).table d = table d := by
  obtain ⟨htable, hinst, -⟩ := connect_left destination o plan { table, files }
  have hrevoked (d : D) (r : String × Hop) (hr : r ∈ planned plan (.discover o plan))
      (hd : destination r.1 = some d) :=
    planned_revoked (h := { table, files }) hsaved hdir hr hd
  generalize hh : left (connect destination o plan { table, files }) = h at *
  obtain ⟨h', hleave, -, hleaves⟩ := disconnect_left hmatch
  rw [hleave]
  simp only [left, List.nil_append] at hinst ⊢
  constructor
  · intro d hop hwritten hleft
    rw [hinst] at hwritten
    obtain ⟨hentry, hkeeps⟩ := (hleaves d hop).mp hleft
    -- the entry that is left is the last one written for its destination
    obtain ⟨last, hlast⟩ := Option.isSome_iff_exists.mp
      (Table.last_isSome.mpr (List.mem_map_of_mem hwritten))
    rw [htable, Table.installAll_apply, hlast, Option.some_or] at hentry
    cases hentry
    obtain ⟨r, hr, hd, rfl⟩ := planned_of_carriedOut (Table.last_eq_some_mem hlast)
    exact hkeeps (hrevoked d r hr hd)
  · intro d hother
    have hunwritten : h.table d = table d := by
      rw [htable, Table.installAll_apply, Table.last_eq_none.mpr, Option.none_or]
      intro hin
      obtain ⟨⟨d', hop⟩, hwritten, rfl⟩ := List.mem_map.mp hin
      obtain ⟨r, hr, hd, rfl⟩ := planned_of_carriedOut hwritten
      obtain ⟨r', hr', hd', -⟩ := hrevoked d' r hr hd
      exact hother (mem_destinations hr' hd')
    refine Option.ext fun hop => ?_
    rw [hleaves, hunwritten, and_iff_left_iff_imp]
    rintro - ⟨r, hr, hd, -⟩
    exact hother (mem_destinations hr hd)

end Cleanup

/-- The tun device refuses the split route. -/
def refusing : Outside :=
  { laptop with
    failure := fun n => if n = 6 then some (.exited "exit status: 2" "Error: Invalid") else none }

def attempted : Host (Prefix 32) :=
  left (connect Ipv4Addr.network refusing (planFor "10.8.0.0/16") { table := athome.table })

def cleaned : Host (Prefix 32) :=
  left (disconnect Ipv4Addr.network laptop (planFor "10.8.0.0/16") attempted)

theorem failed_connect_cleaned_sample : attempted.installed.length = 3 ∧
    (∀ d hop, (d, hop) ∈ attempted.installed → cleaned.table d ≠ some hop) ∧
    ∀ d, d ∉ destinations Ipv4Addr.network (planFor "10.8.0.0/16")
        (recalled laptop (planFor "10.8.0.0/16") attempted) → cleaned.table d = athome.table d := by
  have hsaved : refusing.stateWrite = .done := rfl
  have hdir : laptop.stateDir = refusing.stateDir := rfl
  have hruns : ∀ n, laptop.failure n = none := fun _ => rfl
  refine ⟨by decide +kernel, ?_⟩
  unfold cleaned attempted
  exact failed_connect_cleaned hsaved hdir athome.table (fun _ => none) (matchesSucceed_of hruns _)

/-- The default route is there as before. -/
example : cleaned.table (.of 0 0 (by decide)) = some ⟨some "192.168.1.1", "wlan0"⟩ := by
  decide +kernel

end InodeVpn.Proofs.FailedConnect
