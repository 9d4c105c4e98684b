import InodeVpn.Lib.Text

namespace InodeVpn.Daemon.Netwatch
open Lib

/-- `str::trim_end_matches(':')`. -/
def trimEndColons (s : String) : String := String.ofList (s.toList.rdropWhile (· == ':'))

/-- The interfaces we care about: not the engine's own `tun0`, and not `lo`. -/
def interestingIface (iface : String) : Bool :=
  iface ≠ "" && iface ≠ "lo" && !(stripPrefix "tun" iface).isSome

/-- True for address/link events on interfaces we care about. `ip monitor`
line shapes are `3: wlo1    inet ...` (address) and `3: wlo1: <...>`
(link); everything else, including the engine's own `tun0` and `lo`,
is ignored. -/
def interestingEvent (line : String) : Bool :=
  let trimmed := trim line
  if trimmed = "" then false
  else
    match splitOnce ':' trimmed with
    | none => false
    | some (_, rest) => interestingIface (trimEndColons ((words rest).head?.getD ""))

/-- The lines of the output of `ip monitor address link` at which the watcher calls
`network_changed`. -/
def changes (output : String) : List String := (lines output).filter interestingEvent

section Lines
variable {line : String} {before after : List Char}

/-- Only the first word behind the first colon counts. -/
theorem interestingEvent_eq (line : String) : interestingEvent line =
    (splitOnce ':' line).any fun kv =>
      interestingIface (trimEndColons ((words kv.2).head?.getD "")) := by
  have htrim := splitOnce_trim (s := line) (c := ':') (by decide)
  unfold interestingEvent
  cases htrimmed : splitOnce ':' (trim line) with
  | none =>
    cases hline : splitOnce ':' line with
    | none => simp [htrimmed]
    | some kv => simp [htrimmed, hline] at htrim
  | some kv =>
    cases hline : splitOnce ':' line with
    | none => simp [htrimmed, hline] at htrim
    | some kv' =>
      have hne : trim line ≠ "" := by
        intro hempty
        rw [hempty] at htrimmed
        cases htrimmed
      simp only [htrimmed, hline, Option.map_some, Option.some.injEq, Prod.mk.injEq] at htrim
      have hwords : words kv.2 = words kv'.2 := by
        rw [← words_trim kv.2, htrim.2, words_trim]
      simp only [if_neg hne, htrimmed, hwords, Option.any_some]

theorem interestingEvent_of_word (hline : line.toList = before ++ ':' :: after)
    (hbefore : ':' ∉ before) {w : List Char} {ws : List (List Char)}
    (hafter : wordsOf after = w :: ws) :
    interestingEvent line = interestingIface (trimEndColons (String.ofList w)) := by
  rw [interestingEvent_eq, splitOnce_of hline hbefore, Option.any_some, words_eq,
    String.toList_ofList, hafter]
  rfl

theorem interestingEvent_of_no_colon (hline : ':' ∉ line.toList) :
    interestingEvent line = false := by
  rw [interestingEvent_eq, splitOnce_eq_none hline]
  rfl

@[simp] theorem interestingEvent_stripCr (line : String) :
    interestingEvent (stripCr line) = interestingEvent line := by
  unfold interestingEvent
  rw [trim_stripCr]

end Lines

end InodeVpn.Daemon.Netwatch
