import InodeVpn.Proofs.LinuxRoutes

namespace InodeVpn.Proofs.ManagementPlane
open Lib Routectl Routectl.Linux LinuxRoutes

section Networks
variable {w : Nat} (destination : String → Option (Prefix w)) (plan : RoutePlan)
  (phys : PhysicalState)

/-- The addresses of the management plane: the VPN gateway's, the local one, and those of
the local network and of the preserved ones. -/
def Protected (a : BitVec w) : Prop :=
  ∃ text ∈ guarded plan phys, ∃ p, destination text = some p ∧ p.contains a = true

/-- An address is forwarded through the physical interface, and that is not the tun. -/
def OverPhysical (T : Table (Prefix w) Hop) (a : BitVec w) : Prop :=
  ∃ iface, phys.iface = some iface ∧ iface ≠ plan.tunIface ∧
    ∃ hop, T.forward a = some hop ∧ hop.dev = iface

/-- A network that no split route takes: it is kept, or has an entry through `iface`. -/
def Shields (T : Table (Prefix w) Hop) (iface : String) (p : Prefix w) : Prop :=
  p ∉ splitNets destination plan ∧
    (p ∈ kept destination plan phys ∨ ∃ hop, T p = some hop ∧ hop.dev = iface)

/-- A network of a split route, or one with an entry through another interface. -/
def Rivals (T : Table (Prefix w) Hop) (iface : String) (p : Prefix w) : Prop :=
  p ∈ splitNets destination plan ∨
    (p ∉ kept destination plan phys ∧ ∃ hop, T p = some hop ∧ hop.dev ≠ iface)

/-- Some shield of an address is longer than each of its rivals. -/
def Shielded (T : Table (Prefix w) Hop) (a : BitVec w) : Prop :=
  ∃ iface, phys.iface = some iface ∧ iface ≠ plan.tunIface ∧
    ∃ p, p.contains a = true ∧ Shields destination plan phys T iface p ∧
      ∀ q, q.contains a = true → Rivals destination plan phys T iface q → q.len < p.len

end Networks

section Connected
variable {w : Nat} {destination : String → Option (Prefix w)} {plan : RoutePlan} {o : Outside}
  {h h' : Host (Prefix w)} {iface : String} {a : BitVec w} {p : Prefix w}

theorem kept_dev (hif : (PhysicalState.discover o plan).iface = some iface)
    (hp : p ∈ kept destination plan (.discover o plan)) :
    ∃ hop, path (.discover o plan) = some hop ∧ hop.dev = iface := by
  cases hgw : (PhysicalState.discover o plan).gateway with
  | none => simp [kept, path, hgw] at hp
  | some gw => exact ⟨⟨some gw, iface⟩, by simp [path, hgw, hif], rfl⟩

theorem shields_iff (hok : connect destination o plan h = .ok () h')
    (hif : (PhysicalState.discover o plan).iface = some iface) (htun : iface ≠ plan.tunIface) :
    Shields destination plan (.discover o plan) h.table iface p ↔
      ∃ hop, h'.table p = some hop ∧ hop.dev = iface := by
  rw [connect_table hok, Shields]
  by_cases hsplit : p ∈ splitNets destination plan
  · simp [hsplit, htun.symm]
  · by_cases hkept : p ∈ kept destination plan (.discover o plan)
    · simp [hsplit, hkept, kept_dev hif hkept]
    · simp [hsplit, hkept]

theorem rivals_iff (hok : connect destination o plan h = .ok () h')
    (hif : (PhysicalState.discover o plan).iface = some iface) (htun : iface ≠ plan.tunIface) :
    Rivals destination plan (.discover o plan) h.table iface p ↔
      ∃ hop, h'.table p = some hop ∧ hop.dev ≠ iface := by
  rw [connect_table hok, Rivals]
  by_cases hsplit : p ∈ splitNets destination plan
  · simp [hsplit, htun.symm]
  · by_cases hkept : p ∈ kept destination plan (.discover o plan)
    · obtain ⟨hop, hpath, hdev⟩ := kept_dev hif hkept
      simp [hsplit, hkept, hpath, hdev]
    · simp [hsplit, hkept]

theorem overPhysical_iff (hok : connect destination o plan h = .ok () h') :
    OverPhysical plan (.discover o plan) h'.table a ↔
      Shielded destination plan (.discover o plan) h.table a := by
  unfold OverPhysical Shielded
  refine exists_congr fun iface => and_congr_right fun hif => and_congr_right fun htun => ?_
  simp only [shields_iff hok hif htun, rivals_iff hok hif htun]
  exact Table.forward_iff_longer

/-- The management plane is kept when its addresses are shielded, and only then: for each
there is a network on the physical interface that is longer than every network of a split
route, or of another interface, that it is in. -/
theorem management_plane_kept (hok : connect destination o plan h = .ok () h') :
    (∀ a, Protected destination plan (.discover o plan) a →
        OverPhysical plan (.discover o plan) h'.table a) ↔
      ∀ a, Protected destination plan (.discover o plan) a →
        Shielded destination plan (.discover o plan) h.table a :=
  forall_congr' fun _ => imp_congr_right fun _ => overPhysical_iff hok

end Connected

/-- Only the default route. -/
def online : Host (Prefix 32) where
  table p := if p.len = 0 then some ⟨some "192.168.1.1", "wlan0"⟩ else none

theorem management_plane_kept_sample :
    (∀ a, Protected Ipv4Addr.network (planFor "10.8.0.0/16")
          (.discover laptop (planFor "10.8.0.0/16")) a →
        OverPhysical (planFor "10.8.0.0/16") (.discover laptop (planFor "10.8.0.0/16"))
          (left (connect Ipv4Addr.network laptop (planFor "10.8.0.0/16") online)).table a) ↔
      ∀ a, Protected Ipv4Addr.network (planFor "10.8.0.0/16")
          (.discover laptop (planFor "10.8.0.0/16")) a →
        Shielded Ipv4Addr.network (planFor "10.8.0.0/16")
          (.discover laptop (planFor "10.8.0.0/16")) online.table a :=
  management_plane_kept (eq_ok_of_isOk (by decide +kernel))

/-- The gateway pushes one half of the local network: the tun takes the router's address. -/
theorem management_plane_cut :
    ∃ h', connect Ipv4Addr.network laptop (planFor "192.168.1.0/25") online = .ok () h' ∧
      ∃ a, Protected Ipv4Addr.network (planFor "192.168.1.0/25")
          (.discover laptop (planFor "192.168.1.0/25")) a ∧
        h'.table.forward a = some ⟨none, "tun0"⟩ ∧
        ¬ OverPhysical (planFor "192.168.1.0/25")
          (.discover laptop (planFor "192.168.1.0/25")) h'.table a := by
  have hforward : (left (connect Ipv4Addr.network laptop (planFor "192.168.1.0/25")
      online)).table.forward (Ipv4Addr.ofOctets 192 168 1 1) = some ⟨none, "tun0"⟩ := by
    decide +kernel
  refine ⟨_, eq_ok_of_isOk (by decide +kernel), Ipv4Addr.ofOctets 192 168 1 1, ?_, hforward, ?_⟩
  · exact ⟨"192.168.1.0/24", by decide +kernel, subnet (Ipv4Addr.ofOctets 192 168 1 0),
      by decide +kernel, by decide +kernel⟩
  · rintro ⟨iface, -, htun, hop, hhop, hdev⟩
    rw [hforward] at hhop
    cases hhop
    exact htun hdev.symm

end InodeVpn.Proofs.ManagementPlane
