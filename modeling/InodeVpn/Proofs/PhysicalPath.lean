import InodeVpn.Proofs.LinuxRoutes

namespace InodeVpn.Proofs.PhysicalPath
open Lib Routectl Routectl.Linux LinuxRoutes

/-- The gateway that a line of `ip route show default` names. -/
def viaOf (line : String) : Option String := wordAfter "via" (words line)

/-- The interface that it names. -/
def devOf (line : String) : Option String := wordAfter "dev" (words line)

/-- What `ip` shows: on no line is `via` or `dev` the last word. -/
def Shown (text : String) : Prop :=
  ∀ line ∈ lines text, (words line).getLast? ≠ some "via" ∧ (words line).getLast? ≠ some "dev"

/-- A gateway and an interface that have both been found are those of one line. -/
def RealPath (text : String) (phys : PhysicalState) : Prop :=
  ∀ gw iface, phys.gateway = some gw → phys.iface = some iface →
    ∃ line ∈ lines text, viaOf line = some gw ∧ devOf line = some iface

/-- The first line that names a gateway, or an interface. -/
def firstWith (named : String → Option String) (text : String) : Option String :=
  (lines text).find? fun line => (named line).isSome

/-- Some line has both the gateway that is named first and the interface that is named first,
unless one of these is never named. -/
def NamedTogether (text : String) : Prop :=
  ∀ route, firstWith viaOf text = some route → ∀ link, firstWith devOf text = some link →
    ∃ line ∈ lines text, viaOf line = viaOf route ∧ devOf line = devOf link

section Words
variable {field : String} {ws rest : List String} {text : String}

/-- What follows does not change what a keyword that has its value says. -/
theorem wordAfter_append (hlast : ws.getLast? ≠ some field) :
    wordAfter field (ws ++ rest) = (wordAfter field ws).or (wordAfter field rest) := by
  induction ws with
  | nil => rfl
  | cons word ws ih =>
    cases ws with
    | nil =>
      have hword : ¬word = field := fun heq => hlast (by rw [heq]; rfl)
      rw [List.singleton_append, wordAfter, wordAfter, if_neg hword, if_neg hword]
      rfl
    | cons next ws =>
      rw [List.cons_append, wordAfter, wordAfter]
      split
      · rfl
      · rw [ih (by simpa [List.getLast?_cons_cons] using hlast)]

/-- Over the words of some lines it is the first line with the keyword that counts. -/
theorem wordAfter_lines {ls : List String}
    (hlast : ∀ line ∈ ls, (words line).getLast? ≠ some field) :
    wordAfter field (ls.flatMap words) = ls.findSome? fun line => wordAfter field (words line) := by
  induction ls with
  | nil => rfl
  | cons line ls ih =>
    obtain ⟨hline, hls⟩ := List.forall_mem_cons.mp hlast
    rw [List.flatMap_cons, wordAfter_append hline, ih hls, List.findSome?_cons]
    cases wordAfter field (words line) <;> rfl

theorem parse_eq (hlast : ∀ line ∈ lines text, (words line).getLast? ≠ some field) :
    parseDefaultRouteField field (some text) =
      (lines text).findSome? fun line => wordAfter field (words line) := by
  rw [← wordAfter_lines hlast, words_lines]
  rfl

theorem findSome_eq (named : String → Option String) (ls : List String) :
    ls.findSome? named = (ls.find? fun line => (named line).isSome).bind named := by
  induction ls with
  | nil => rfl
  | cons line ls ih =>
    rw [List.findSome?_cons, List.find?_cons]
    cases hnamed : named line with
    | none => simpa using ih
    | some v => simp [hnamed]

end Words

/-- What is discovered without overrides is the path of one default route when the gateway and
the interface that are named first are named together, and only then. -/
theorem discovers_real_path {o : Outside} {plan : RoutePlan} {text : String}
    (hgateway : plan.physGatewayOverride = none) (hiface : plan.physIfaceOverride = none)
    (hvia : o.routeShowVia = some text) (hdev : o.routeShowDev = some text) (hshown : Shown text) :
    RealPath text (.discover o plan) ↔ NamedTogether text := by
  have hgw : (PhysicalState.discover o plan).gateway = (firstWith viaOf text).bind viaOf := by
    rw [firstWith, ← findSome_eq]
    simp only [PhysicalState.discover, hgateway, hvia, Option.none_or]
    exact parse_eq fun line hline => (hshown line hline).1
  have hif : (PhysicalState.discover o plan).iface = (firstWith devOf text).bind devOf := by
    rw [firstWith, ← findSome_eq]
    simp only [PhysicalState.discover, hiface, hdev, Option.none_or]
    exact parse_eq fun line hline => (hshown line hline).2
  rw [RealPath, hgw, hif, NamedTogether]
  constructor
  · intro hreal route hroute link hlink
    have hnamed := List.find?_some hroute
    have hnamed' := List.find?_some hlink
    obtain ⟨gw, hgw⟩ := Option.isSome_iff_exists.mp hnamed
    obtain ⟨iface, hif⟩ := Option.isSome_iff_exists.mp hnamed'
    rw [hgw, hif]
    have hfound : (some route).bind viaOf = some gw := hgw
    have hfound' : (some link).bind devOf = some iface := hif
    exact hreal gw iface (hroute ▸ hfound) (hlink ▸ hfound')
  · intro htogether gw iface hgw hif
    obtain ⟨route, hroute, hgw⟩ := Option.bind_eq_some_iff.mp hgw
    obtain ⟨link, hlink, hif⟩ := Option.bind_eq_some_iff.mp hif
    rw [← hgw, ← hif]
    exact htogether route hroute link hlink

def shows (text : String) : Outside where
  routeShowVia := some text
  routeShowDev := some text

/-- At home over the cable and over the air, and a tunnel behind them. -/
def threeDefaults : String :=
  "default via 192.168.1.1 dev eth0 proto dhcp metric 100\n" ++
    "default via 192.168.1.1 dev wlan0 proto dhcp metric 600\n" ++
    "default dev ppp0 scope link metric 700\n"

theorem discovers_real_path_sample :
    RealPath threeDefaults (.discover (shows threeDefaults) (planFor "10.8.0.0/16")) ↔
      NamedTogether threeDefaults :=
  discovers_real_path rfl rfl rfl rfl (by unfold Shown; decide +kernel)

/-- A default route without a gateway in front of one that has one. -/
def twoDefaults : String :=
  "default dev ppp0 scope link metric 50\ndefault via 192.168.1.1 dev wlan0 proto dhcp metric 600\n"

/-- The gateway of the one network on the interface of the other. -/
theorem path_of_two_routes :
    Shown twoDefaults ∧
      ¬RealPath twoDefaults (.discover (shows twoDefaults) (planFor "10.8.0.0/16")) := by
  refine ⟨by unfold Shown; decide +kernel, fun hreal => ?_⟩
  have hline := hreal "192.168.1.1" "ppp0" (by decide +kernel) (by decide +kernel)
  revert hline
  decide +kernel

end InodeVpn.Proofs.PhysicalPath
