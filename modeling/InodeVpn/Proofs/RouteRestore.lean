import InodeVpn.Proofs.LinuxRoutes

namespace InodeVpn.Proofs.RouteRestore
open Lib Routectl Routectl.Linux LinuxRoutes

section Session
variable {D : Type} [DecidableEq D] {destination : String → Option D} {plan : RoutePlan}
  {o leave : Outside} {h h' : Host D} {d : D} {hop : Hop}

theorem recalled_after (hok : connect destination o plan h = .ok () h')
    (hsaved : o.stateWrite = .done) (hdir : leave.stateDir = o.stateDir) :
    recalled leave plan h' =
      if (PhysicalState.discover o plan).gateway.isSome ||
          (PhysicalState.discover o plan).iface.isSome then .discover o plan
      else .discover leave plan := by
  have hrecalled : recalled leave plan (left (connect destination o plan h)) = _ :=
    recalled_left destination hsaved hdir
  rwa [hok] at hrecalled

/-- The disconnect deletes whatever the connect installed. -/
theorem installed_revoked (hok : connect destination o plan h = .ok () h')
    (hsaved : o.stateWrite = .done) (hdir : leave.stateDir = o.stateDir)
    (hd : d ∈ splitNets destination plan ∨ d ∈ kept destination plan (.discover o plan))
    (htable : h'.table d = some hop) :
    Revokes destination plan (recalled leave plan h') d hop := by
  rw [connect_table hok] at htable
  by_cases hsplit : d ∈ splitNets destination plan
  · rw [if_pos hsplit] at htable
    cases htable
    exact (revokes_iff destination).mpr (Or.inl ⟨hsplit, Hop.fits_self _⟩)
  · have hkept := hd.resolve_left hsplit
    rw [if_neg hsplit, if_pos hkept] at htable
    -- a path is known, so the saved one is used
    have hgw : (PhysicalState.discover o plan).gateway.isSome = true := by
      cases hgw : (PhysicalState.discover o plan).gateway with
      | none => simp [path, hgw] at htable
      | some gw => rfl
    rw [recalled_after hok hsaved hdir, hgw, Bool.true_or, if_pos rfl]
    exact (revokes_iff destination).mpr (Or.inr ⟨hkept, hop, htable, Hop.fits_self _⟩)

/-- Only the destinations of the plan change in a connect. -/
theorem table_untouched (hok : connect destination o plan h = .ok () h')
    (hd : ¬ (d ∈ splitNets destination plan ∨ d ∈ kept destination plan (.discover o plan))) :
    h'.table d = h.table d := by
  obtain ⟨hsplit, hkept⟩ := not_or.mp hd
  rw [connect_table hok, if_neg hsplit, if_neg hkept]

/-- No destination of the plan has an entry after the disconnect. -/
theorem gone_after (hok : connect destination o plan h = .ok () h')
    (hsaved : o.stateWrite = .done) (hdir : leave.stateDir = o.stateDir)
    (hruns : ∀ n, leave.failure n = none)
    (hd : d ∈ splitNets destination plan ∨ d ∈ kept destination plan (.discover o plan)) :
    (left (disconnect destination leave plan h')).table d = none := by
  obtain ⟨h'', hleave, -, htable⟩ := disconnect_ok destination plan h' hruns
  rw [hleave]
  refine Option.eq_none_iff_forall_ne_some.mpr fun hop hentry => ?_
  obtain ⟨hinst, hkeeps⟩ := (htable d hop).mp hentry
  exact hkeeps (installed_revoked hok hsaved hdir hd hinst)

/-- A connect and its disconnect leave the table as it was when no destination of the plan
had an entry, and only then. Where the connect had found no physical path, the disconnect
must also find none that names an entry of others. -/
theorem disconnect_undoes_connect (hok : connect destination o plan h = .ok () h')
    (hsaved : o.stateWrite = .done) (hdir : leave.stateDir = o.stateDir)
    (hruns : ∀ n, leave.failure n = none) :
    (left (disconnect destination leave plan h')).table = h.table ↔
      (∀ d, d ∈ splitNets destination plan ∨ d ∈ kept destination plan (.discover o plan) →
          h.table d = none) ∧
        ((PhysicalState.discover o plan).gateway = none →
          (PhysicalState.discover o plan).iface = none → ∀ d hop, h.table d = some hop →
            ¬ Revokes destination plan (.discover leave plan) d hop) := by
  have hrecalled := recalled_after hok hsaved hdir
  have hgone (d : D) := gone_after (d := d) hok hsaved hdir hruns
  obtain ⟨h'', hleave, -, htable⟩ := disconnect_ok destination plan h' hruns
  rw [hleave] at hgone ⊢
  simp only [left] at hgone ⊢
  constructor
  · intro hsame
    refine ⟨fun d hd => ?_, fun hgw hif d hop hentry => ?_⟩
    · rw [← hsame]
      exact hgone d hd
    · rw [hgw, hif] at hrecalled
      rw [← hsame] at hentry
      rw [← show recalled leave plan h' = .discover leave plan from hrecalled]
      exact ((htable d hop).mp hentry).2
  · rintro ⟨hfree, hothers⟩
    funext d
    by_cases hd : d ∈ splitNets destination plan ∨ d ∈ kept destination plan (.discover o plan)
    · rw [hfree d hd]
      exact hgone d hd
    · refine Option.ext fun hop => (htable d hop).trans ?_
      rw [table_untouched hok hd, and_iff_left_iff_imp]
      intro hentry
      rw [hrecalled]
      split
      · exact fun hrevokes => hd (((revokes_iff destination).mp hrevokes).imp And.left And.left)
      · rename_i hnone
        simp only [Bool.or_eq_true, not_or, Bool.not_eq_true, Option.isSome_eq_false_iff,
          Option.isNone_iff_eq_none] at hnone
        exact hothers hnone.1 hnone.2 d hop hentry

end Session

theorem disconnect_undoes_connect_sample :
    (left (disconnect Ipv4Addr.network laptop (planFor "10.8.0.0/16")
        (left (connect Ipv4Addr.network laptop (planFor "10.8.0.0/16") athome)))).table =
          athome.table ↔
      (∀ d, d ∈ splitNets Ipv4Addr.network (planFor "10.8.0.0/16") ∨
          d ∈ kept Ipv4Addr.network (planFor "10.8.0.0/16")
            (.discover laptop (planFor "10.8.0.0/16")) → athome.table d = none) ∧
        ((PhysicalState.discover laptop (planFor "10.8.0.0/16")).gateway = none →
          (PhysicalState.discover laptop (planFor "10.8.0.0/16")).iface = none →
          ∀ d hop, athome.table d = some hop →
            ¬ Revokes Ipv4Addr.network (planFor "10.8.0.0/16")
              (.discover laptop (planFor "10.8.0.0/16")) d hop) :=
  disconnect_undoes_connect (eq_ok_of_isOk (by decide +kernel)) rfl rfl fun _ => rfl

/-- The local network's own route does not come back. -/
theorem local_route_lost :
    ∃ h', connect Ipv4Addr.network laptop (planFor "10.8.0.0/16") athome = .ok () h' ∧
      (left (disconnect Ipv4Addr.network laptop (planFor "10.8.0.0/16") h')).table ≠
        athome.table := by
  refine ⟨_, eq_ok_of_isOk (by decide +kernel), fun hsame => ?_⟩
  have hlost := congrFun hsame (subnet (Ipv4Addr.ofOctets 192 168 1 0))
  revert hlost
  decide +kernel

end InodeVpn.Proofs.RouteRestore
