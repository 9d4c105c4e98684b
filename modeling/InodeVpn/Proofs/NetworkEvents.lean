import InodeVpn.Daemon.Netwatch
import InodeVpn.Lib.Ipv4
import InodeVpn.Lib.Replace

namespace InodeVpn.Proofs.NetworkEvents
open Lib Daemon.Netwatch

/-- A name as `ip` prints it: one word, and no colon in it. -/
structure Name where
  text : String
  nonempty : text ≠ ""
  word : ∀ c ∈ text.toList, isWhitespace c = false
  noColon : ':' ∉ text.toList

/-- The interfaces that the watcher is to ignore: `lo`, and those that begin with `tun`. -/
def Name.Internal (name : Name) : Prop := name.text = "lo" ∨ "tun".toList <+: name.text.toList

/-- A text that is on one line. -/
abbrev Line := { s : String // '\n' ∉ s.toList }

/-- What is behind the name on the header line of an event, address or link. A link is shown with
its peer if it has one. -/
inductive Form
  | address (text : Line)
  | link (peer : Option Name) (text : Line)

def Form.peer : Form → Option Name
  | .address _ => none
  | .link peer _ => peer

def Form.text : Form → String
  | .address text => "    " ++ text.val
  | .link peer text => (peer.elim "" fun peer => "@" ++ peer.text) ++ ": " ++ text.val

structure Header where
  deleted : Bool
  index : Nat
  name : Name
  form : Form

def Header.line (h : Header) : String :=
  (if h.deleted then "Deleted " else "") ++ toString h.index ++ ": " ++ h.name.text ++ h.form.text

/-- `%02x` -/
def hexByte (b : UInt8) : List Char := [(b.toNat / 16).digitChar, (b.toNat % 16).digitChar]

/-- What the addresses of links are made of. -/
def isAddressChar (c : Char) : Bool := c.isDigit || "abcdef:.".toList.contains c

/-- An IPv6 address, in front of its first colon and behind it. -/
structure Ipv6Text where
  front : List Char
  behind : List Char
  frontNoColon : ':' ∉ front
  behindNonempty : behind ≠ []
  chars : ∀ c ∈ front ++ behind, isAddressChar c = true

/-- The address of a link: bytes with colons between them, or the end of a tunnel. -/
inductive Address
  | bytes (first : UInt8) (rest : List UInt8)
  | ipv4 (addr : Ipv4Addr)
  | ipv6 (addr : Ipv6Text)

def hexBytes (first : UInt8) (rest : List UInt8) : List Char :=
  hexByte first ++ rest.flatMap fun b => ':' :: hexByte b

def Address.text : Address → String
  | .bytes first rest => String.ofList (hexBytes first rest)
  | .ipv4 addr => addr.format
  | .ipv6 addr => String.ofList (addr.front ++ ':' :: addr.behind)

/-- What stands behind the first colon. -/
def Address.behind : Address → Option (List Char)
  | .bytes _ [] => none
  | .bytes _ (b :: rest) => some (hexBytes b rest)
  | .ipv4 _ => none
  | .ipv6 addr => some addr.behind

/-- Something else than colons. -/
def isName (behind : List Char) : Bool := behind.any (· ≠ ':')

/-- A line that continues an event. A link is shown with its broadcast address, or with the other
end of a link that has just two. -/
inductive Continuation
  | link (type : Name) (address : Address) (peer : Bool) (other : Address)
  | linkNone
  | lifetime (valid preferred : Option Nat)

/-- The time that an address is left; for ever, if there is no limit. -/
def lifetimeText (seconds : Option Nat) : String :=
  seconds.elim "forever" fun seconds => toString seconds ++ "sec"

def Continuation.line : Continuation → String
  | .link type address peer other =>
    "    link/" ++ type.text ++ " " ++ address.text ++ (if peer then " peer " else " brd ") ++
      other.text
  | .linkNone => "    link/none"
  | .lifetime valid preferred =>
    "       valid_lft " ++ lifetimeText valid ++ " preferred_lft " ++ lifetimeText preferred

/-- Behind the first colon of the line, if it has one, stands something else than colons. -/
def Continuation.named : Continuation → Bool
  | .link _ address _ other => (address.behind.or other.behind).any isName
  | _ => false

/-- An event of `ip monitor`. -/
structure Event where
  header : Header
  continuation : List Continuation

def Event.lines (e : Event) : List String := e.header.line :: e.continuation.map Continuation.line

/-- An event is passed over as a whole when its interface is internal, and is noticed by its
header when it is not. -/
structure Classified (e : Event) : Prop where
  ignored : e.header.name.Internal → ∀ line ∈ e.lines, interestingEvent line = false
  noticed : ¬e.header.name.Internal → interestingEvent e.header.line = true

/-- An event on an internal interface shows no address with a colon that has more than colons behind
it; nor does `lo` show a peer. -/
structure Quiet (e : Event) : Prop where
  addresses : e.header.name.Internal → ∀ c ∈ e.continuation, c.named = false
  peer : e.header.name.text = "lo" → e.header.form.peer = none

section Words
variable {w l rest : List Char} {name : Name}

/-- Colons at the end are dropped, and nothing else. -/
theorem trimEndColons_of (hw : w.getLast? ≠ some ':') (hl : ∀ c ∈ l, c = ':') :
    trimEndColons (String.ofList (w ++ l)) = String.ofList w := by
  have hall : l.rdropWhile (· == ':') = [] :=
    List.rdropWhile_eq_nil_iff.mpr fun c hc => by simp [hl c hc]
  rw [trimEndColons, String.toList_ofList]
  rcases List.eq_nil_or_concat w with rfl | ⟨w', c, rfl⟩
  · rw [List.nil_append, hall]
  · have hc : (c == ':') = false := beq_false_of_ne fun heq => hw (by simp [heq])
    rw [List.concat_eq_append, List.append_assoc, List.singleton_append,
      rdropWhile_append_cons (p := (· == ':')) hc, hall]

theorem interestingIface_iff {iface : String} : interestingIface iface = true ↔
    iface ≠ "" ∧ iface ≠ "lo" ∧ ¬"tun".toList <+: iface.toList := by
  simp [interestingIface, stripPrefix, and_assoc]

theorem interestingIface_name : interestingIface name.text = true ↔ ¬name.Internal := by
  rw [interestingIface_iff, Name.Internal, not_or]
  exact and_iff_right name.nonempty

/-- With a peer, the interface is ignored only for its `tun`. -/
theorem interestingIface_peer (peer : Name) :
    interestingIface (name.text ++ "@" ++ peer.text) = true ↔
      ¬"tun".toList <+: name.text.toList := by
  have htext : (name.text ++ "@" ++ peer.text).toList =
      name.text.toList ++ '@' :: peer.text.toList := by simp
  have hprefix : "tun".toList <+: (name.text ++ "@" ++ peer.text).toList ↔
      "tun".toList <+: name.text.toList := by
    rw [htext]
    exact ⟨prefix_append_cons (by decide), fun h => h.trans (List.prefix_append _ _)⟩
  have hat : ∀ s : String, '@' ∉ s.toList → name.text ++ "@" ++ peer.text ≠ s := by
    rintro s hs rfl
    exact hs (by simp)
  rw [interestingIface_iff, hprefix]
  exact ⟨fun h => h.2.2, fun h => ⟨hat "" (by decide), hat "lo" (by decide), h⟩⟩

/-- A line is judged by the first word behind its first colon, without colons at its end. -/
theorem interestingEvent_shown {line : String} {before : List Char}
    (hline : line.toList = before ++ ':' :: ' ' :: (w ++ l ++ ' ' :: rest))
    (hbefore : ':' ∉ before) (hne : w ≠ []) (hword : ∀ c ∈ w, isWhitespace c = false)
    (hlast : w.getLast? ≠ some ':') (hl : ∀ c ∈ l, c = ':') :
    interestingEvent line = interestingIface (String.ofList w) := by
  have hall : ∀ c ∈ w ++ l, isWhitespace c = false := by
    intro c hc
    rcases List.mem_append.mp hc with hc | hc
    · exact hword c hc
    · rw [hl c hc]
      decide
  have hfirst : wordsOf (' ' :: (w ++ l ++ ' ' :: rest)) = (w ++ l) :: wordsOf rest := by
    rw [wordsOf_cons (by decide), wordsOf_append (by decide), wordsOf_word (by simp [hne]) hall,
      List.singleton_append]
  rw [interestingEvent_of_word hline hbefore hfirst, trimEndColons_of hlast hl]

end Words

section Headers

/-- The interface as a header line shows it. -/
def Header.shown (h : Header) : String :=
  h.form.peer.elim h.name.text fun peer => h.name.text ++ "@" ++ peer.text

theorem headerLine_eq (h : Header) : ∃ before, ':' ∉ before ∧
    h.line.toList = before ++ ':' :: ' ' :: (h.name.text.toList ++ h.form.text.toList) := by
  refine ⟨(if h.deleted then "Deleted " else "").toList ++ (toString h.index).toList, ?_, ?_⟩
  · rw [List.mem_append, not_or]
    constructor
    · split <;> decide
    · exact notMem_toString (by decide) h.index
  · simp [Header.line]

theorem Name.getLast_text (name : Name) : name.text.toList.getLast? ≠ some ':' :=
  fun h => name.noColon (List.mem_of_getLast? h)

theorem Name.text_ne_nil (name : Name) : name.text.toList ≠ [] :=
  fun h => name.nonempty (String.toList_eq_nil_iff.mp h)

theorem interestingEvent_header (h : Header) :
    interestingEvent h.line = interestingIface h.shown := by
  obtain ⟨before, hbefore, hline⟩ := headerLine_eq h
  cases hform : h.form with
  | address text =>
    have hshown : h.line.toList = before ++ ':' :: ' ' ::
        (h.name.text.toList ++ [] ++ ' ' :: ("   ".toList ++ text.val.toList)) := by
      simpa [hform, Form.text] using hline
    rw [interestingEvent_shown hshown hbefore h.name.text_ne_nil h.name.word h.name.getLast_text
      (by simp), String.ofList_toList]
    simp [Header.shown, hform, Form.peer]
  | link peer text =>
    cases peer with
    | none =>
      have hshown : h.line.toList = before ++ ':' :: ' ' ::
          (h.name.text.toList ++ [':'] ++ ' ' :: text.val.toList) := by
        simpa [hform, Form.text] using hline
      rw [interestingEvent_shown hshown hbefore h.name.text_ne_nil h.name.word h.name.getLast_text
        (by simp), String.ofList_toList]
      simp [Header.shown, hform, Form.peer]
    | some peer =>
      have hshown : h.line.toList = before ++ ':' :: ' ' ::
          ((h.name.text.toList ++ '@' :: peer.text.toList) ++ [':'] ++ ' ' :: text.val.toList) := by
        simpa [hform, Form.text] using hline
      have hword : ∀ c ∈ h.name.text.toList ++ '@' :: peer.text.toList,
          isWhitespace c = false := by
        simp only [List.mem_append, List.mem_cons]
        rintro c (hc | rfl | hc)
        · exact h.name.word c hc
        · decide
        · exact peer.word c hc
      have hcolon : ':' ∉ h.name.text.toList ++ '@' :: peer.text.toList := by
        simp [h.name.noColon, peer.noColon]
      rw [interestingEvent_shown hshown hbefore (by simp) hword
        (fun h => hcolon (List.mem_of_getLast? h)) (by simp)]
      congr 1
      apply String.toList_inj.mp
      simp [Header.shown, hform, Form.peer]

/-- A header is noticed unless its interface is shown as `lo` or begins with `tun`. -/
theorem interestingEvent_header_iff (h : Header) : interestingEvent h.line = true ↔
    ¬"tun".toList <+: h.name.text.toList ∧ (h.form.peer = none → h.name.text ≠ "lo") := by
  rw [interestingEvent_header, Header.shown]
  cases h.form.peer with
  | none =>
    rw [Option.elim_none, interestingIface_name, Name.Internal, not_or, and_comm]
    simp
  | some peer =>
    rw [Option.elim_some, interestingIface_peer]
    simp

end Headers

section Addresses
variable {first b : UInt8} {rest : List UInt8} {l : List Char} {a : Address}

theorem isAddressChar_cases {c : Char} (h : isAddressChar c = true) :
    isWhitespace c = false ∧ c ≠ 'l' ∧ c ≠ 't' := by
  rcases Bool.or_eq_true _ _ |>.mp h with hdigit | hmem
  · simp only [Char.isDigit, Bool.and_eq_true, decide_eq_true_eq] at hdigit
    have hlow : 48 ≤ c.toNat := hdigit.1
    have hhigh : c.toNat ≤ 57 := hdigit.2
    refine ⟨?_, ?_, ?_⟩
    · simp only [isWhitespace]
      simp
      omega
    · rintro rfl
      exact absurd hhigh (by decide)
    · rintro rfl
      exact absurd hhigh (by decide)
  · have hletters : ("abcdef:.".toList.all fun c =>
        !isWhitespace c && decide (c ≠ 'l') && decide (c ≠ 't')) = true := by
      decide
    have hc := List.all_eq_true.mp hletters c (List.contains_iff_mem.mp hmem)
    simpa only [Bool.and_eq_true, Bool.not_eq_true', decide_eq_true_eq, and_assoc] using hc

theorem isAddressChar_digitChar : ∀ n < 16, isAddressChar (Nat.digitChar n) = true := by
  decide

theorem digitChar_ne_colon : ∀ n < 16, Nat.digitChar n ≠ ':' := by
  decide

theorem mem_hexByte {c : Char} (hc : c ∈ hexByte b) : ∃ n < 16, c = Nat.digitChar n := by
  have hb := b.toNat_lt
  rcases List.mem_cons.mp hc with rfl | hc
  · exact ⟨_, by omega, rfl⟩
  · rw [List.mem_singleton.mp hc]
    exact ⟨_, by omega, rfl⟩

theorem hexByte_noColon (b : UInt8) : ':' ∉ hexByte b := by
  intro hc
  obtain ⟨n, hn, heq⟩ := mem_hexByte hc
  exact digitChar_ne_colon n hn heq.symm

theorem hexBytes_chars : ∀ c ∈ hexBytes first rest, isAddressChar c = true := by
  intro c hc
  have hbyte : ∀ b : UInt8, c ∈ hexByte b → isAddressChar c = true := by
    intro b hc
    obtain ⟨n, hn, rfl⟩ := mem_hexByte hc
    exact isAddressChar_digitChar n hn
  rcases List.mem_append.mp hc with hc | hc
  · exact hbyte first hc
  · obtain ⟨b, -, hc⟩ := List.mem_flatMap.mp hc
    rcases List.mem_cons.mp hc with rfl | hc
    · decide
    · exact hbyte b hc

theorem Address.noColon_of_behind (ha : a.behind = none) : ':' ∉ a.text.toList := by
  cases a with
  | bytes first rest =>
    cases rest with
    | nil => simpa [Address.text, hexBytes] using hexByte_noColon first
    | cons b rest => cases ha
  | ipv4 addr => exact fun hcolon => absurd (Ipv4Addr.format_chars addr hcolon) (by decide)
  | ipv6 addr => cases ha

/-- What stands behind the first colon of an address is one word. -/
theorem Address.text_of_behind (ha : a.behind = some l) :
    ∃ front, ':' ∉ front ∧ a.text.toList = front ++ ':' :: l ∧ l ≠ [] ∧
      ∀ c ∈ l, isAddressChar c = true := by
  cases a with
  | bytes first rest =>
    cases rest with
    | nil => cases ha
    | cons b rest =>
      cases ha
      exact ⟨hexByte first, hexByte_noColon first, by simp [Address.text, hexBytes],
        by simp [hexBytes, hexByte], hexBytes_chars⟩
  | ipv4 addr => cases ha
  | ipv6 addr =>
    cases ha
    exact ⟨addr.front, addr.frontNoColon, String.toList_ofList, addr.behindNonempty,
      fun c hc => addr.chars c (List.mem_append_right _ hc)⟩

/-- It is taken for an interface, unless it has nothing but colons. -/
theorem interestingIface_behind (hchars : ∀ c ∈ l, isAddressChar c = true) :
    interestingIface (trimEndColons (String.ofList l)) = isName l := by
  have htrim : (trimEndColons (String.ofList l)).toList = l.rdropWhile (· == ':') := by
    rw [trimEndColons, String.toList_ofList, String.toList_ofList]
  have hsub : ∀ c ∈ l.rdropWhile (· == ':'), isAddressChar c = true :=
    fun c hc => hchars c ((List.rdropWhile_prefix _ _).mem hc)
  have hnone {c : Char} (hc : isAddressChar c = false) : c ∉ l.rdropWhile (· == ':') := by
    intro hmem
    rw [hsub c hmem] at hc
    cases hc
  rw [Bool.eq_iff_iff, interestingIface_iff, htrim]
  constructor
  · rintro ⟨hne, -⟩
    by_contra hcolons
    refine hne (String.toList_eq_nil_iff.mp (htrim.trans ?_))
    rw [List.rdropWhile_eq_nil_iff]
    simpa [isName] using hcolons
  · intro hname
    refine ⟨fun hempty => ?_, fun hlo => ?_, fun htun => ?_⟩
    · have hnil := htrim.symm.trans (String.toList_eq_nil_iff.mpr hempty)
      rw [List.rdropWhile_eq_nil_iff] at hnil
      simp only [isName, List.any_eq_true, decide_eq_true_eq] at hname
      obtain ⟨c, hc, hcolon⟩ := hname
      exact hcolon (by simpa using hnil c hc)
    · refine hnone (c := 'l') (by decide) ?_
      rw [← htrim, hlo]
      decide
    · exact hnone (c := 't') (by decide) (htun.mem (by decide))

end Addresses

section Lines

theorem notMem_lifetimeText {c : Char} (hc : c.isDigit = false) (hforever : c ∉ "forever".toList)
    (hsec : c ∉ "sec".toList) (seconds : Option Nat) : c ∉ (lifetimeText seconds).toList := by
  cases seconds with
  | none => exact hforever
  | some n =>
    rw [lifetimeText, Option.elim_some, String.toList_append, List.mem_append, not_or]
    exact ⟨notMem_toString hc n, hsec⟩

theorem lifetimeText_noColon (seconds : Option Nat) : ':' ∉ (lifetimeText seconds).toList :=
  notMem_lifetimeText (by decide) (by decide) (by decide) seconds

/-- A line is judged by what stands behind the first colon of an address, behind text without
one. -/
theorem interestingEvent_address {line : String} {before after l : List Char} {a : Address}
    (ha : a.behind = some l) (hbefore : ':' ∉ before) (hafter : after = [] ∨ ∃ l, after = ' ' :: l)
    (hline : line.toList = before ++ a.text.toList ++ after) :
    interestingEvent line = isName l := by
  obtain ⟨front, hfront, htext, hne, hchars⟩ := Address.text_of_behind ha
  have hsplit : line.toList = (before ++ front) ++ ':' :: (l ++ after) := by
    simpa [htext] using hline
  have hnone : ':' ∉ before ++ front := by simp [hbefore, hfront]
  have hword : ∀ c ∈ l, isWhitespace c = false := fun c hc => (isAddressChar_cases (hchars c hc)).1
  have hfirst : ∃ ws, wordsOf (l ++ after) = l :: ws := by
    rcases hafter with rfl | ⟨l', rfl⟩
    · exact ⟨[], by rw [List.append_nil, wordsOf_word hne hword]⟩
    · exact ⟨wordsOf l', by rw [wordsOf_append (by decide), wordsOf_word hne hword]; rfl⟩
  obtain ⟨ws, hws⟩ := hfirst
  rw [interestingEvent_of_word hsplit hnone hws, interestingIface_behind hchars]

theorem link_line (type : Name) (address : Address) (peer : Bool) (other : Address) :
    (Continuation.link type address peer other).line =
      "    link/" ++ type.text ++ " " ++ address.text ++ (if peer then " peer " else " brd ") ++
        other.text := rfl

theorem lifetime_line (valid preferred : Option Nat) :
    (Continuation.lifetime valid preferred).line =
      "       valid_lft " ++ lifetimeText valid ++ " preferred_lft " ++ lifetimeText preferred :=
  rfl

/-- A line that continues an event is noticed for what stands behind its first colon. -/
theorem interestingEvent_continuation (c : Continuation) :
    interestingEvent c.line = c.named := by
  cases c with
  | linkNone => decide +kernel
  | lifetime valid preferred =>
    refine interestingEvent_of_no_colon ?_
    rw [lifetime_line]
    simp only [String.toList_append, List.mem_append, not_or]
    exact ⟨⟨⟨by decide, lifetimeText_noColon valid⟩, by decide⟩, lifetimeText_noColon preferred⟩
  | link type address peer other =>
    have htype : ':' ∉ "    link/".toList ++ type.text.toList ++ " ".toList := by
      simp only [List.mem_append, not_or]
      exact ⟨⟨by decide, type.noColon⟩, by decide⟩
    obtain ⟨between, hbetween, hblank, hnone⟩ : ∃ between,
        (if peer then " peer " else " brd ").toList = between ∧
          (∃ l, between = ' ' :: l) ∧ ':' ∉ between := by
      cases peer
      · exact ⟨_, rfl, ⟨_, rfl⟩, by decide⟩
      · exact ⟨_, rfl, ⟨_, rfl⟩, by decide⟩
    have hline : (Continuation.link type address peer other).line.toList =
        ("    link/".toList ++ type.text.toList ++ " ".toList) ++ address.text.toList ++
          (between ++ other.text.toList) := by
      simp only [link_line, String.toList_append, List.append_assoc, hbetween]
    rw [Continuation.named]
    cases haddress : address.behind with
    | some l =>
      obtain ⟨l', rfl⟩ := hblank
      exact interestingEvent_address haddress htype (Or.inr ⟨_, rfl⟩) hline
    | none =>
      have hfront : ':' ∉ ("    link/".toList ++ type.text.toList ++ " ".toList) ++
          address.text.toList ++ between := by
        rw [List.mem_append, List.mem_append, not_or, not_or]
        exact ⟨⟨htype, Address.noColon_of_behind haddress⟩, hnone⟩
      rw [← List.append_assoc] at hline
      rw [Option.none_or]
      cases hother : other.behind with
      | some l =>
        refine interestingEvent_address hother hfront (Or.inl rfl) ?_
        rw [hline, List.append_nil]
      | none =>
        refine interestingEvent_of_no_colon ?_
        rw [hline, List.mem_append, not_or]
        exact ⟨hfront, Address.noColon_of_behind hother⟩

end Lines

section Events
variable {e : Event}

theorem Quiet.classified (h : Quiet e) : Classified e := by
  constructor
  · intro hinternal line hline
    rcases List.mem_cons.mp hline with rfl | hline
    · refine Bool.eq_false_iff.mpr fun hheader => ?_
      obtain ⟨hnoTun, hnoLo⟩ := (interestingEvent_header_iff e.header).mp hheader
      rcases hinternal with hlo | htun
      · exact hnoLo (h.peer hlo) hlo
      · exact hnoTun htun
    · obtain ⟨c, hc, rfl⟩ := List.mem_map.mp hline
      rw [interestingEvent_continuation, h.addresses hinternal c hc]
  · intro hexternal
    obtain ⟨hnoLo, hnoTun⟩ := not_or.mp hexternal
    exact (interestingEvent_header_iff e.header).mpr ⟨hnoTun, fun _ => hnoLo⟩

theorem Classified.quiet (h : Classified e) : Quiet e := by
  constructor
  · intro hinternal c hc
    rw [← interestingEvent_continuation]
    exact h.ignored hinternal c.line (List.mem_cons_of_mem _ (List.mem_map_of_mem hc))
  · intro hlo
    have hheader := h.ignored (Or.inl hlo) e.header.line List.mem_cons_self
    by_contra hpeer
    have hnoTun : ¬"tun".toList <+: e.header.name.text.toList := by
      rw [hlo]
      decide
    have hnoticed := (interestingEvent_header_iff e.header).mpr
      ⟨hnoTun, fun hnone => absurd hnone hpeer⟩
    rw [hheader] at hnoticed
    cases hnoticed

end Events

/-- The filter classifies an event as a whole exactly when the event is quiet. -/
theorem event_classified (e : Event) : Classified e ↔ Quiet e :=
  ⟨Classified.quiet, Quiet.classified⟩

/-- The link event of `lo` when it comes up. -/
def loopbackUp : Event where
  header :=
    { deleted := false
      index := 1
      name := ⟨"lo", by decide, by simp [isWhitespace], by decide⟩
      form :=
        .link none
          ⟨"<LOOPBACK,UP,LOWER_UP> mtu 65536 qdisc noqueue state UNKNOWN", by decide⟩ }
  continuation :=
    [.link ⟨"loopback", by decide, by simp [isWhitespace], by decide⟩ (.bytes 0 [0, 0, 0, 0, 0])
      false (.bytes 0 [0, 0, 0, 0, 0])]

/-- Its second line is taken for an event of an interface `00:00:00:00:00`. -/
theorem loopback_noticed : loopbackUp.lines =
      ["1: lo: <LOOPBACK,UP,LOWER_UP> mtu 65536 qdisc noqueue state UNKNOWN",
        "    link/loopback 00:00:00:00:00:00 brd 00:00:00:00:00:00"] ∧
    interestingEvent "    link/loopback 00:00:00:00:00:00 brd 00:00:00:00:00:00" = true ∧
    ¬Classified loopbackUp := by
  have hlines : loopbackUp.lines =
      ["1: lo: <LOOPBACK,UP,LOWER_UP> mtu 65536 qdisc noqueue state UNKNOWN",
        "    link/loopback 00:00:00:00:00:00 brd 00:00:00:00:00:00"] := by
    decide +kernel
  have hline : interestingEvent "    link/loopback 00:00:00:00:00:00 brd 00:00:00:00:00:00" =
      true := by
    decide +kernel
  refine ⟨hlines, hline, fun h => ?_⟩
  have hignored := h.ignored (Or.inl rfl)
    "    link/loopback 00:00:00:00:00:00 brd 00:00:00:00:00:00" (by rw [hlines]; simp)
  rw [hline] at hignored
  cases hignored

section Output
variable {events : List Event}

theorem notMem_of_word {c : Char} {l : List Char} (hc : isWhitespace c = true)
    (hl : ∀ d ∈ l, isWhitespace d = false) : c ∉ l := by
  intro hmem
  rw [hl c hmem] at hc
  cases hc

theorem newline_notMem_name (name : Name) : '\n' ∉ name.text.toList :=
  notMem_of_word (by decide) name.word

theorem newline_notMem_header (h : Header) : '\n' ∉ h.line.toList := by
  have hform : '\n' ∉ h.form.text.toList := by
    cases h.form with
    | address text => simp [Form.text, text.property]
    | link peer text =>
      cases peer with
      | none => simp [Form.text, text.property]
      | some peer => simp [Form.text, text.property, newline_notMem_name]
  have hdeleted : '\n' ∉ (if h.deleted then "Deleted " else "").toList := by
    split <;> decide
  simp only [Header.line, String.toList_append, List.mem_append, not_or]
  exact ⟨⟨⟨⟨hdeleted, notMem_toString (by decide) h.index⟩, by decide⟩, newline_notMem_name h.name⟩,
    hform⟩

theorem newline_notMem_address (a : Address) : '\n' ∉ a.text.toList := by
  have hnone {l : List Char} (hl : ∀ c ∈ l, isAddressChar c = true) : '\n' ∉ l := fun hmem =>
    absurd (hl '\n' hmem) (by decide)
  cases a with
  | bytes first rest =>
    rw [Address.text, String.toList_ofList]
    exact hnone hexBytes_chars
  | ipv4 addr => exact fun hnewline => absurd (Ipv4Addr.format_chars addr hnewline) (by decide)
  | ipv6 addr =>
    have hchars := hnone addr.chars
    simp only [List.mem_append, not_or] at hchars
    simp [Address.text, hchars.1, hchars.2]

theorem newline_notMem_continuation (c : Continuation) : '\n' ∉ c.line.toList := by
  cases c with
  | linkNone => decide
  | link type address peer other =>
    rw [link_line]
    cases peer <;> simp [newline_notMem_name, newline_notMem_address]
  | lifetime valid preferred =>
    have hlifetime := notMem_lifetimeText (c := '\n') (by decide) (by decide) (by decide)
    rw [lifetime_line]
    simp [hlifetime]

/-- The watcher is called for the lines of the events, one at a time. -/
theorem changes_events : changes (unlines (events.flatMap Event.lines)) =
    ((events.flatMap Event.lines).filter interestingEvent).map stripCr := by
  have hlines : lines (unlines (events.flatMap Event.lines)) =
      (events.flatMap Event.lines).map stripCr := by
    refine lines_unlines fun line hline => ?_
    obtain ⟨e, -, he⟩ := List.mem_flatMap.mp hline
    rcases List.mem_cons.mp he with rfl | he
    · exact newline_notMem_header e.header
    · obtain ⟨c, -, rfl⟩ := List.mem_map.mp he
      exact newline_notMem_continuation c
  have hcomp : interestingEvent ∘ stripCr = interestingEvent := by
    funext line
    rw [Function.comp_apply, interestingEvent_stripCr]
  rw [changes, hlines, List.filter_map, hcomp]

/-- Quiet events of internal interfaces leave the daemon alone. -/
theorem changes_eq_nil (h : ∀ e ∈ events, e.header.name.Internal ∧ Quiet e) :
    changes (unlines (events.flatMap Event.lines)) = [] := by
  rw [changes_events, List.map_eq_nil_iff, List.filter_eq_nil_iff]
  intro line hline
  obtain ⟨e, he, hline⟩ := List.mem_flatMap.mp hline
  obtain ⟨hinternal, hquiet⟩ := h e he
  rw [hquiet.classified.ignored hinternal line hline]
  exact Bool.false_ne_true

end Output

end InodeVpn.Proofs.NetworkEvents
