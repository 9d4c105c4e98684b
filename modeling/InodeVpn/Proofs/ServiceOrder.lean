import InodeVpn.Lib.SplitOn
import InodeVpn.Routectl.MacOs
import Mathlib.Data.List.Find
import Mathlib.Data.List.Nodup

namespace InodeVpn.Proofs.ServiceOrder
open Lib Routectl.MacOs

/-- What stands in front of the device in a listing. -/
def mark : List Char := "Device:".toList

/-- A network service. Its name and its hardware port are free text on one line. -/
structure Service where
  name : String
  port : String
  device : String
  name_line : '\n' ∉ name.toList
  name_trimmed : trim name = name
  port_line : '\n' ∉ port.toList
  port_trimmed : trim port = port
  port_unmarked : ¬ mark <:+: port.toList
  device_line : '\n' ∉ device.toList
  device_unopened : '(' ∉ device.toList
  device_unclosed : ')' ∉ device.toList

/-- The services in their order. No two of them have one device. -/
structure Listing where
  services : List Service
  distinct : (services.map Service.device).Nodup

/-- The lines that `networksetup` prints for the service with number `n`. -/
def Service.lines (n : Nat) (s : Service) : List String :=
  ["(" ++ toString n ++ ") " ++ s.name,
    "(Hardware Port: " ++ s.port ++ ", Device: " ++ s.device ++ ")", ""]

def linesFrom : Nat → List Service → List String
  | _, [] => []
  | n, s :: rest => s.lines n ++ linesFrom (n + 1) rest

/-- The output of `networksetup -listnetworkserviceorder`. -/
def Listing.render (l : Listing) : String := unlines (linesFrom 1 l.services)

/-- The lookup takes a listing back to its services. -/
structure Inverted (l : Listing) : Prop where
  found : ∀ s ∈ l.services, parseServiceOrder l.render s.device = some s.name
  unknown : ∀ iface, (∀ s ∈ l.services, s.device ≠ iface) →
    parseServiceOrder l.render iface = none

/-- The listing shows the device of the service as it is: nothing around it is trimmed off, it
does not look like the beginning of another, and no parenthesis is closed in front of it. -/
structure Legible (s : Service) : Prop where
  trimmed : trim s.device = s.device
  unmarked : ¬ mark <:+: s.device.toList
  unclosed : ')' ∈ s.port.toList → s.device = ""

section Lines
variable {line iface : String} {current : Option String} {rest : List String}
variable {before after : List Char}

/-- A line with a parenthesis is split where that is closed first. -/
theorem opened_of (hline : line.toList = '(' :: (before ++ ')' :: after))
    (hbefore : ')' ∉ before) : (stripPrefix "(" (trim line)).bind (splitOnce ')') =
      some (String.ofList before, String.ofList (after.rdropWhile isWhitespace)) := by
  have htrim : (trim line).toList = '(' :: (before ++ ')' :: after.rdropWhile isWhitespace) := by
    have hopen : '(' :: (before ++ ')' :: after) = ('(' :: before) ++ ')' :: after := rfl
    rw [toList_trim, hline, List.dropWhile_cons_of_neg (by decide), hopen,
      rdropWhile_append_cons (by decide)]
    rfl
  have hstrip : stripPrefix "(" (trim line) =
      some (String.ofList (before ++ ')' :: after.rdropWhile isWhitespace)) := by
    simp [stripPrefix, htrim]
  rw [hstrip, Option.bind_some, splitOnce_of String.toList_ofList hbefore]

/-- A line that names a service. -/
theorem parse_name (hline : line.toList = '(' :: (before ++ ')' :: after))
    (hbefore : ')' ∉ before)
    (hport : ¬ "Hardware Port:".toList <+: (trim (String.ofList before)).toList) :
    parseServiceLines iface current (line :: rest) =
      parseServiceLines iface (some (trim (String.ofList after))) rest := by
  have hnone := mt stripPrefix_isSome.mp hport
  have hafter : trim (String.ofList (after.rdropWhile isWhitespace)) = trim (String.ofList after) :=
    trim_eq_of (Or.inr (by simp))
  rw [parseServiceLines, opened_of hline hbefore]
  simp only [if_neg hnone, hafter]

/-- A line that names a device. -/
theorem parse_port (hline : line.toList = '(' :: (before ++ ')' :: after))
    (hbefore : ')' ∉ before)
    (hport : "Hardware Port:".toList <+: (trim (String.ofList before)).toList) :
    parseServiceLines iface current (line :: rest) =
      if ((((trim (String.ofList before)).splitOn "Device:")[1]?).map trim).getD "" = iface then
        current
      else parseServiceLines iface current rest := by
  have hsome := stripPrefix_isSome.mpr hport
  rw [parseServiceLines, opened_of hline hbefore]
  simp only [if_pos hsome]

theorem parse_blank : parseServiceLines iface current ("" :: rest) =
    parseServiceLines iface current rest := rfl

end Lines

section Device
variable {port device : List Char}

/-- The device as the lookup reads it out of the line. -/
def Service.shown (s : Service) : String :=
  if ')' ∈ s.port.toList then ""
  else
    trim (String.ofList
      ((splitPattern mark ((' ' :: s.device.toList).rdropWhile isWhitespace)).headD []))

theorem toList_device : "Device:".toList = mark := rfl

theorem mark_ne_nil : mark ≠ [] := by decide

/-- A text with the mark in it has the mark on one side of a character that the mark lacks. -/
theorem mark_notInfix {before after : List Char} {c : Char} (hc : c ∉ mark)
    (hbefore : ¬ mark <:+: before) (hafter : ¬ mark <:+: after) :
    ¬ mark <:+: before ++ c :: after := fun hin =>
  (infix_append_cons hc hin).elim hbefore hafter

theorem trim_port (text : List Char) :
    (trim (String.ofList ("Hardware Port: ".toList ++ text))).toList =
      "Hardware Port:".toList ++ (' ' :: text).rdropWhile isWhitespace := by
  have hends : "Hardware Port: ".toList ++ text =
      'H' :: ("ardware Port".toList ++ ':' :: ' ' :: text) := by
    have hport : "Hardware Port: ".toList = 'H' :: "ardware Port".toList ++ [':', ' '] := by decide
    rw [hport, List.append_assoc]
    rfl
  have hfront : 'H' :: ("ardware Port".toList ++ ':' :: ' ' :: text) =
      ('H' :: "ardware Port".toList) ++ ':' :: ' ' :: text := rfl
  have hport : "Hardware Port:".toList = ('H' :: "ardware Port".toList) ++ [':'] := by decide
  rw [toList_trim, String.toList_ofList, hends, List.dropWhile_cons_of_neg (by decide), hfront,
    rdropWhile_append_cons (by decide), hport, List.append_assoc]
  rfl

/-- Cut short in the port, the line shows no device. -/
theorem device_of_closed (hport : ¬ mark <:+: port) :
    (((trim (String.ofList ("Hardware Port: ".toList ++ port))).splitOn "Device:")[1]?.map
      trim).getD "" = "" := by
  have hprefix : "Hardware Port:".toList ++ (' ' :: port).rdropWhile isWhitespace <+:
      "Hardware Port:".toList ++ ' ' :: port :=
    (List.prefix_append_right_inj _).mpr (List.rdropWhile_prefix _ _)
  have hfree : ¬ mark <:+: "Hardware Port:".toList ++ (' ' :: port).rdropWhile isWhitespace :=
    fun hin => mark_notInfix (by decide) (by decide) hport (hin.trans hprefix.isInfix)
  rw [splitOn_eq _ (by decide), trim_port, toList_device,
    splitPattern_of_not_infix mark_ne_nil hfree]
  rfl

/-- Not cut short, it shows what is between two marks, or behind the only one. -/
theorem device_of_open (hport : ¬ mark <:+: port) :
    (((trim (String.ofList ("Hardware Port: ".toList ++ (port ++ ", Device: ".toList ++ device)))
      ).splitOn "Device:")[1]?.map trim).getD "" =
      trim (String.ofList ((splitPattern mark ((' ' :: device).rdropWhile isWhitespace)).headD
        [])) := by
  have htext : (' ' :: (port ++ ", Device: ".toList ++ device)).rdropWhile isWhitespace =
      ' ' :: port ++ ',' :: ' ' :: (mark ++ (' ' :: device).rdropWhile isWhitespace) := by
    have hcolon : ' ' :: (port ++ ", Device: ".toList ++ device) =
        (' ' :: port ++ ", Device".toList) ++ ':' :: ' ' :: device := by
      have hliteral : ", Device: ".toList = ", Device".toList ++ [':', ' '] := by decide
      rw [hliteral, List.cons_append, List.cons_append, List.append_assoc, List.append_assoc,
        List.append_assoc]
      rfl
    have hmark : ", Device".toList ++ [':'] = ',' :: ' ' :: mark := by decide
    rw [hcolon, rdropWhile_append_cons (by decide), List.append_assoc, List.append_cons, hmark]
    rfl
  have hfree : ¬ mark <:+: "Hardware Port:".toList ++ ' ' :: (port ++ [',']) :=
    mark_notInfix (by decide) (by decide) (mark_notInfix (by decide) hport (by decide))
  have hline : "Hardware Port:".toList ++ (' ' :: port ++ ',' :: ' ' ::
      (mark ++ (' ' :: device).rdropWhile isWhitespace)) =
      ("Hardware Port:".toList ++ ' ' :: (port ++ [','])) ++ ' ' ::
        (mark ++ (' ' :: device).rdropWhile isWhitespace) := by
    simp
  obtain ⟨piece, pieces, hsplit, -, -⟩ :=
    splitPattern_cons mark_ne_nil ((' ' :: device).rdropWhile isWhitespace)
  rw [splitOn_eq _ (by decide), trim_port, htext, hline, toList_device,
    splitPattern_append mark_ne_nil (by decide) hfree, hsplit]
  rfl

end Device

section Services
variable {s : Service} {iface : String} {current : Option String} {rest : List String}

theorem nameLine_eq (n : Nat) (s : Service) : ("(" ++ toString n ++ ") " ++ s.name).toList =
    '(' :: ((toString n).toList ++ ')' :: ' ' :: s.name.toList) := by
  simp

theorem portLine_eq (s : Service) :
    ("(Hardware Port: " ++ s.port ++ ", Device: " ++ s.device ++ ")").toList =
      '(' :: (("Hardware Port: ".toList ++ (s.port.toList ++ ", Device: ".toList ++
        s.device.toList)) ++ ')' :: []) := by
  have hopen : "(Hardware Port: ".toList = '(' :: "Hardware Port: ".toList := by decide
  simp only [String.toList_append, hopen, List.cons_append, List.append_assoc]
  rfl

theorem parse_nameLine (n : Nat) (s : Service) :
    parseServiceLines iface current (("(" ++ toString n ++ ") " ++ s.name) :: rest) =
      parseServiceLines iface (some s.name) rest := by
  have hport : ¬ "Hardware Port:".toList <+: (trim (String.ofList (toString n).toList)).toList := by
    intro hprefix
    have hmem : 'H' ∈ (trim (String.ofList (toString n).toList)).toList :=
      hprefix.subset (by decide)
    rw [toList_trim, String.toList_ofList] at hmem
    exact notMem_toString (by decide) n
      ((List.dropWhile_suffix _).mem ((List.rdropWhile_prefix _ _).mem hmem))
  have hname : trim (String.ofList (' ' :: s.name.toList)) = s.name := by
    rw [trim_cons (by decide), String.ofList_toList, s.name_trimmed]
  rw [parse_name (nameLine_eq n s) (notMem_toString (by decide) n) hport, hname]

theorem port_begins (text : List Char) : "Hardware Port:".toList <+:
    (trim (String.ofList ("Hardware Port: ".toList ++ text))).toList := by
  rw [trim_port]
  exact List.prefix_append _ _

theorem parse_portLine (s : Service) :
    parseServiceLines iface current
        (("(Hardware Port: " ++ s.port ++ ", Device: " ++ s.device ++ ")") :: rest) =
      if s.shown = iface then current else parseServiceLines iface current rest := by
  by_cases hclosed : ')' ∈ s.port.toList
  · obtain ⟨p, q, hport, hp⟩ := List.eq_append_cons_of_mem hclosed
    have hfree : ¬ mark <:+: p := fun hin =>
      s.port_unmarked (hin.trans (hport ▸ List.prefix_append p (')' :: q)).isInfix)
    have hline : ("(Hardware Port: " ++ s.port ++ ", Device: " ++ s.device ++ ")").toList =
        '(' :: (("Hardware Port: ".toList ++ p) ++
          ')' :: (q ++ ", Device: ".toList ++ s.device.toList ++ [')'])) := by
      rw [portLine_eq, hport]
      simp only [List.append_assoc, List.cons_append]
    have hbefore : ')' ∉ "Hardware Port: ".toList ++ p := by
      rw [List.mem_append, not_or]
      exact ⟨by decide, hp⟩
    rw [parse_port hline hbefore (port_begins p), device_of_closed hfree, Service.shown,
      if_pos hclosed]
  · have hbefore : ')' ∉ "Hardware Port: ".toList ++ (s.port.toList ++ ", Device: ".toList ++
        s.device.toList) := by
      simp only [List.mem_append, not_or]
      exact ⟨by decide, ⟨hclosed, by decide⟩, s.device_unclosed⟩
    rw [parse_port (portLine_eq s) hbefore (port_begins _), device_of_open s.port_unmarked,
      Service.shown, if_neg hclosed]

/-- The lines of a service: it is found by the device that is shown. -/
theorem parse_service (n : Nat) (s : Service) :
    parseServiceLines iface current (s.lines n ++ rest) =
      if s.shown = iface then some s.name else parseServiceLines iface (some s.name) rest := by
  rw [Service.lines, List.cons_append, List.cons_append, List.cons_append, List.nil_append,
    parse_nameLine, parse_portLine, parse_blank]

/-- The first service with this device is found, whatever was current in front of the lines. -/
theorem parse_linesFrom (services : List Service) (n : Nat) :
    parseServiceLines iface current (linesFrom n services) =
      (services.find? fun s => s.shown = iface).map Service.name := by
  induction services generalizing n current with
  | nil => rfl
  | cons s rest ih =>
    rw [linesFrom, parse_service, ih]
    by_cases hshown : s.shown = iface
    · rw [if_pos hshown, List.find?_cons_of_pos (by simpa using hshown)]
      rfl
    · rw [if_neg hshown, List.find?_cons_of_neg (by simpa using hshown)]

theorem parse_stripCr (ls : List String) : parseServiceLines iface current (ls.map stripCr) =
    parseServiceLines iface current ls := by
  induction ls generalizing current with
  | nil => rfl
  | cons line ls ih =>
    rw [List.map_cons, parseServiceLines, parseServiceLines, trim_stripCr]
    split
    · exact ih
    · simp only [ih]

theorem newline_notMem (n : Nat) (s : Service) : ∀ line ∈ s.lines n, '\n' ∉ line.toList := by
  simp only [Service.lines, List.forall_mem_cons, List.not_mem_nil, false_implies, implies_true,
    and_true]
  refine ⟨?_, ?_, by decide⟩
  · simp only [String.toList_append, List.mem_append, not_or]
    exact ⟨⟨⟨by decide, notMem_toString (by decide) n⟩, by decide⟩, s.name_line⟩
  · simp only [String.toList_append, List.mem_append, not_or]
    exact ⟨⟨⟨⟨by decide, s.port_line⟩, by decide⟩, s.device_line⟩, by decide⟩

theorem newline_notMem_linesFrom (services : List Service) (n : Nat) :
    ∀ line ∈ linesFrom n services, '\n' ∉ line.toList := by
  induction services generalizing n with
  | nil => exact fun line hline => absurd hline List.not_mem_nil
  | cons s rest ih =>
    intro line hline
    rcases List.mem_append.mp hline with hline | hline
    · exact newline_notMem n s line hline
    · exact ih (n + 1) line hline

/-- What the lookup finds is the first service that shows this device. -/
theorem lookup_eq (l : Listing) (iface : String) : parseServiceOrder l.render iface =
    (l.services.find? fun s => s.shown = iface).map Service.name := by
  rw [parseServiceOrder, Listing.render, lines_unlines (newline_notMem_linesFrom l.services 1),
    parse_stripCr, parse_linesFrom]

end Services

section Shown
variable {s : Service} {l : Listing}

theorem trim_shown (s : Service) : trim s.shown = s.shown := by
  unfold Service.shown
  split
  · decide
  · exact trim_trim _

theorem shown_unmarked (s : Service) : ¬ mark <:+: s.shown.toList := by
  unfold Service.shown
  split
  · decide
  · obtain ⟨piece, pieces, hsplit, -, hfree⟩ :=
      splitPattern_cons mark_ne_nil ((' ' :: s.device.toList).rdropWhile isWhitespace)
    rw [hsplit, List.headD_cons, toList_trim, String.toList_ofList]
    exact fun hin => hfree (hin.trans ((List.rdropWhile_prefix _ _).isInfix.trans
      (List.dropWhile_suffix _).isInfix))

/-- A trimmed device without the mark is shown as it is, if it is shown at all. -/
theorem shown_of_open (htrim : trim s.device = s.device) (hmark : ¬ mark <:+: s.device.toList)
    (hport : ')' ∉ s.port.toList) : s.shown = s.device := by
  have hspace : ¬ mark <:+: [] ++ ' ' :: s.device.toList :=
    mark_notInfix (by decide) (by decide) hmark
  have hfree : ¬ mark <:+: (' ' :: s.device.toList).rdropWhile isWhitespace := fun hin =>
    hspace (hin.trans (List.rdropWhile_prefix _ _).isInfix)
  have hends : trim (String.ofList ((' ' :: s.device.toList).rdropWhile isWhitespace)) =
      trim (String.ofList (' ' :: s.device.toList)) := trim_eq_of (Or.inr (by simp))
  rw [Service.shown, if_neg hport, splitPattern_of_not_infix mark_ne_nil hfree, List.headD_cons,
    hends, trim_cons (by decide), String.ofList_toList, htrim]

theorem Legible.shown_eq (h : Legible s) : s.shown = s.device := by
  by_cases hport : ')' ∈ s.port.toList
  · rw [Service.shown, if_pos hport, h.unclosed hport]
  · exact shown_of_open h.trimmed h.unmarked hport

theorem Inverted.exists_shown (h : Inverted l) (hs : s ∈ l.services) :
    ∃ t ∈ l.services, t.shown = s.device := by
  have hfound := h.found s hs
  rw [lookup_eq, Option.map_eq_some_iff] at hfound
  obtain ⟨t, ht, -⟩ := hfound
  exact ⟨t, List.mem_of_find?_eq_some ht, by simpa using List.find?_some ht⟩

theorem Listing.eq_of_device (hs : s ∈ l.services) {t : Service} (ht : t ∈ l.services)
    (hdevice : t.device = s.device) : t = s :=
  List.inj_on_of_nodup_map l.distinct ht hs hdevice

theorem Inverted.legible (h : Inverted l) (hs : s ∈ l.services) : Legible s := by
  have hplain : ∀ t ∈ l.services, trim t.device = t.device ∧ ¬ mark <:+: t.device.toList := by
    intro t ht
    obtain ⟨u, -, hu⟩ := h.exists_shown ht
    rw [← hu]
    exact ⟨trim_shown u, shown_unmarked u⟩
  refine ⟨(hplain s hs).1, (hplain s hs).2, fun hclosed => ?_⟩
  obtain ⟨t, ht, hshown⟩ := h.exists_shown hs
  by_cases hport : ')' ∈ t.port.toList
  · rw [← hshown, Service.shown, if_pos hport]
  · -- Only the service itself has this device, and its own line is cut short.
    rw [shown_of_open (hplain t ht).1 (hplain t ht).2 hport] at hshown
    rw [Listing.eq_of_device hs ht hshown] at hport
    exact absurd hclosed hport

theorem inverted_of_legible (h : ∀ s ∈ l.services, Legible s) : Inverted l := by
  have hlookup : ∀ iface, parseServiceOrder l.render iface =
      (l.services.find? fun s => s.device = iface).map Service.name := by
    intro iface
    rw [lookup_eq]
    congr 1
    exact List.find?_congr fun s hs => by rw [(h s hs).shown_eq]
  constructor
  · intro s hs
    have hsome : (l.services.find? fun t => t.device = s.device).isSome = true :=
      List.find?_isSome.mpr ⟨s, hs, by simp⟩
    obtain ⟨t, ht⟩ := Option.isSome_iff_exists.mp hsome
    have hdevice : t.device = s.device := by simpa using List.find?_some ht
    rw [hlookup, ht, Listing.eq_of_device hs (List.mem_of_find?_eq_some ht) hdevice]
    rfl
  · intro iface hiface
    rw [hlookup, List.find?_eq_none.mpr fun s hs => by simpa using hiface s hs]
    rfl

/-- DNS servers are set for the service that the interface belongs to. -/
theorem serviceForIface_eq {o : Outside} (hlisting : o.serviceOrder = some l.render)
    (h : ∀ s ∈ l.services, Legible s) (hs : s ∈ l.services) :
    serviceForIface o s.device = some s.name := by
  rw [serviceForIface, hlisting]
  exact (inverted_of_legible h).found s hs

end Shown

/-- The lookup takes a listing back to its services exactly when every one is legible. -/
theorem service_order_inverted (l : Listing) : Inverted l ↔ ∀ s ∈ l.services, Legible s :=
  ⟨fun h _ hs => h.legible hs, inverted_of_legible⟩

/-- An adapter that has its device in its name. -/
def adapter : Service where
  name := "Ethernet Adapter (en4)"
  port := "Ethernet Adapter (en4)"
  device := "en4"
  name_line := by decide
  name_trimmed := by decide
  port_line := by decide
  port_trimmed := by decide
  port_unmarked := by decide
  device_line := by decide
  device_unopened := by decide
  device_unclosed := by decide

def adapterOnly : Listing where
  services := [adapter]
  distinct := by decide

/-- Its line is cut at the parenthesis of the port, in front of the device. -/
theorem adapter_not_found : adapterOnly.render =
      "(1) Ethernet Adapter (en4)\n(Hardware Port: Ethernet Adapter (en4), Device: en4)\n\n" ∧
    adapter ∈ adapterOnly.services ∧ parseServiceOrder adapterOnly.render "en4" = none ∧
    ¬Inverted adapterOnly := by
  have hnone : parseServiceOrder adapterOnly.render "en4" = none := by
    rw [lookup_eq]
    decide
  have hadapter : adapter ∈ adapterOnly.services := List.mem_singleton_self adapter
  refine ⟨by decide, hadapter, hnone, fun h => ?_⟩
  have hfound : parseServiceOrder adapterOnly.render "en4" = some adapter.name :=
    h.found adapter hadapter
  rw [hnone] at hfound
  cases hfound

end InodeVpn.Proofs.ServiceOrder
