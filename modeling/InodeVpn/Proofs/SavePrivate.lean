import InodeVpn.Core.Save

namespace InodeVpn.Proofs.SavePrivate
open Lib InodeVpn.Core InodeVpn.Core.Config

/-- What the destination has been up to now; where the process dies here, the last of these
stays. -/
def states (d : Disk) : List (Option File) := d.past ++ [d.file]

/-- A beginning of the new contents is in the destination, where others cannot get at it. -/
def Begun (new : List UInt8) (state : Option File) : Prop :=
  ∃ file, state = some file ∧ file.bytes <+: new ∧ (file.bytes ≠ [] → file.mode &&& 0o77 = 0)

/-- The destination was what it had been, then opened, and a beginning of the new contents has
been in it since. -/
def Opened (createMode : Nat) (old : Option File) (new : List UInt8) (d : Disk) : Prop :=
  ∃ rest, states d = old :: some (.create createMode old) :: rest ∧ ∀ state ∈ rest, Begun new state

/-- Every operation goes through. -/
structure Succeeds (o : SaveOutside) : Prop where
  createDirAll : o.createDirAll = none
  create : o.create = none
  setPermissions : o.setPermissions = none
  writes : ∀ w ∈ o.writes, ∃ n, w = .ok (n + 1)

/-- The destination gets opened, which truncates it. -/
def Opens (o : SaveOutside) : Prop := (o.parent ≠ none → o.createDirAll = none) ∧ o.create = none

section Saves
variable {o : SaveOutside} {createMode : Nat} {old : Option File} {new done rest : List UInt8}
  {d : Disk} {context : String}

theorem create_bytes (createMode : Nat) (old : Option File) :
    (File.create createMode old).bytes = [] := by
  cases old <;> rfl

theorem opened_create (hd : states d = [old]) :
    Opened createMode old new (d.change (some (.create createMode old))) := by
  refine ⟨[], ?_, fun _ hstate => absurd hstate List.not_mem_nil⟩
  change states d ++ [some (.create createMode old)] = _
  rw [hd]
  rfl

/-- One change more, to a beginning of the new contents too. -/
theorem Opened.change {file : Option File} (h : Opened createMode old new d)
    (hfile : Begun new file) : Opened createMode old new (d.change file) := by
  obtain ⟨rest, hstates, hrest⟩ := h
  refine ⟨rest ++ [file], ?_, fun state hstate => ?_⟩
  · change states d ++ [file] = _
    rw [hstates]
    rfl
  · rcases List.mem_append.mp hstate with hpast | hnow
    · exact hrest state hpast
    · rw [List.mem_singleton.mp hnow]
      exact hfile

theorem begun_private (hdone : done <+: new) : Begun new (some ⟨0o600, done⟩) :=
  ⟨_, rfl, hdone, fun _ => show 0o600 &&& 0o77 = 0 by decide⟩

/-- The destination has been private since anything of the new contents is in it. -/
structure Writing (createMode : Nat) (old : Option File) (new done : List UInt8) (d : Disk) :
    Prop where
  opened : Opened createMode old new d
  file : d.file = some ⟨0o600, done⟩

theorem Writing.append {more : List UInt8} (h : Writing createMode old new done d)
    (hmore : done ++ more <+: new) :
    Writing createMode old new (done ++ more) (d.change (d.file.map (File.append more))) := by
  have hfile : d.file.map (File.append more) = some ⟨0o600, done ++ more⟩ := by
    rw [h.file]
    rfl
  refine ⟨h.opened.change ?_, hfile⟩
  rw [hfile]
  exact begun_private hmore

/-- The write goes on from what it has done, and ends with all of it unless a `write` fails. -/
theorem writeAll_ends {answers : List (Except String Nat)}
    (h : Writing createMode old new done d) (hnew : done ++ rest = new) :
    Ends (fun _ => Writing createMode old new new)
      (fun d' => Opened createMode old new d' ∧ ¬∀ w ∈ answers, ∃ n, w = .ok (n + 1))
      (writeAll context answers rest d) := by
  induction answers generalizing done rest d with
  | nil =>
    cases rest with
    | nil =>
      rw [List.append_nil] at hnew
      exact hnew ▸ h
    | cons b rest =>
      have hall := h.append (hnew ▸ List.prefix_refl _ : done ++ b :: rest <+: new)
      exact hnew ▸ hall
  | cons answer answers ih =>
    cases rest with
    | nil =>
      rw [List.append_nil] at hnew
      exact hnew ▸ h
    | cons b rest =>
      match answer with
      | .error e => exact ⟨h.opened, fun hall => by simpa using hall _ List.mem_cons_self⟩
      | .ok 0 => exact ⟨h.opened, fun hall => by simpa using hall _ List.mem_cons_self⟩
      | .ok (n + 1) =>
        have hsplit : done ++ (b :: rest).take (n + 1) ++ (b :: rest).drop (n + 1) = new := by
          rw [List.append_assoc, List.take_append_drop, hnew]
        have hrest := ih (h.append ⟨_, hsplit⟩) hsplit
        exact hrest.imp (fun _ _ hdone => hdone) fun _ hfailed =>
          ⟨hfailed.1, fun hall => hfailed.2 fun w hw => hall w (List.mem_cons_of_mem _ hw)⟩

theorem attempt_ends (error : Option String) (context : String) (d : Disk) :
    Ends (fun _ d' => d' = d ∧ error = none) (fun d' => d' = d ∧ error ≠ none)
      (attempt error context d) := by
  cases error with
  | none => exact ⟨rfl, rfl⟩
  | some e => exact ⟨rfl, Option.some_ne_none e⟩

theorem createParent_ends (o : SaveOutside) (d : Disk) :
    Ends (fun _ d' => d' = d ∧ (o.parent ≠ none → o.createDirAll = none))
      (fun d' => d' = d ∧ o.parent ≠ none ∧ o.createDirAll ≠ none) (createParent o d) := by
  unfold createParent
  cases hparent : o.parent with
  | none => exact ⟨rfl, fun hsome => absurd rfl hsome⟩
  | some parent =>
    exact (attempt_ends o.createDirAll _ d).imp (fun _ _ h => ⟨h.1, fun _ => h.2⟩)
      fun _ h => ⟨h.1, Option.some_ne_none parent, h.2⟩

/-- What a save comes to, however it ends. -/
theorem savePrivate_ends (o : SaveOutside) (path contents : String) (hpast : d.past = []) :
    Ends (fun _ d' => Writing o.createMode d.file (utf8 contents) (utf8 contents) d' ∧ Opens o)
      (fun d' => (Opens o → Opened o.createMode d.file (utf8 contents) d') ∧ ¬Succeeds o ∧
        (¬Opens o → d' = d))
      (savePrivate o path contents d) := by
  have hstart : states d = [d.file] := by rw [states, hpast, List.nil_append]
  unfold savePrivate
  refine Ends.bind ((createParent_ends o d).imp (fun _ _ h => h) ?_) ?_
  · rintro _ ⟨rfl, hparent, herror⟩
    exact ⟨fun hopens => absurd (hopens.1 hparent) herror, fun hall => herror hall.createDirAll,
      fun _ => rfl⟩
  rintro _ d ⟨rfl, hdir⟩
  refine Ends.bind ((attempt_ends o.create _ _).imp (fun _ _ h => h) ?_) ?_
  · rintro _ ⟨rfl, herror⟩
    exact ⟨fun hopens => absurd hopens.2 herror, fun hall => herror hall.create, fun _ => rfl⟩
  rintro _ d ⟨rfl, hcreate⟩
  have hopens : Opens o := ⟨hdir, hcreate⟩
  -- truncated, whatever its permission bits are
  have hcreated : Opened o.createMode d.file (utf8 contents)
      (d.change (some (.create o.createMode d.file))) := opened_create hstart
  refine Ends.bind (m := fun _ d' => d' = d.change (some (.create o.createMode d.file))) rfl ?_
  rintro _ _ rfl
  refine Ends.bind ((attempt_ends o.setPermissions _ _).imp (fun _ _ h => h) ?_) ?_
  · rintro _ ⟨rfl, herror⟩
    exact ⟨fun _ => hcreated, fun hall => herror hall.setPermissions,
      fun hshut => absurd hopens hshut⟩
  rintro _ _ ⟨rfl, hperm⟩
  refine Ends.bind (m := fun _ => Writing o.createMode d.file (utf8 contents) []) ?_ ?_
  · have hfile : ((d.change (some (.create o.createMode d.file))).file.map
        (File.setPermissions 0o600)) = some ⟨0o600, []⟩ := by
      rw [Disk.change, Option.map_some, File.setPermissions, create_bytes]
    refine ⟨hcreated.change ?_, hfile⟩
    rw [hfile]
    exact begun_private List.nil_prefix
  intro _ d₂ hprivate
  refine (writeAll_ends hprivate rfl).imp (fun _ _ h => ⟨h, hopens⟩) ?_
  exact fun _ hfailed => ⟨fun _ => hfailed.1, fun hall => hfailed.2 hall.writes,
    fun hshut => absurd hopens hshut⟩

end Saves

/-- A save that stops at any point has not touched the destination, if it did not get to open
it. Else the destination is left empty at first, and then with a beginning of the new contents,
all of them when the save succeeds. Nothing of them is in a file that others can get at. -/
theorem save_leaves_prefix (o : SaveOutside) (path contents : String) (old : File) :
    (¬Opens o → states (left (savePrivate o path contents { file := some old })) = [some old]) ∧
    (Opens o → ∃ rest,
      states (left (savePrivate o path contents { file := some old })) =
        some old :: some { old with bytes := [] } :: rest ∧
      ∀ state ∈ rest, Begun (utf8 contents) state) ∧
    ∀ d, savePrivate o path contents { file := some old } = .ok () d →
      d.file = some ⟨0o600, utf8 contents⟩ := by
  have hends := savePrivate_ends o path contents (d := { file := some old }) rfl
  refine ⟨fun hshut => ?_, fun hopens => ?_, fun d hok => (hends.ok hok).1.file⟩
  · have hleft : left (savePrivate o path contents { file := some old }) = { file := some old } :=
      hends.left (fun _ _ h => absurd h.2 hshut) fun _ h => h.2.2 hshut
    rw [hleft]
    rfl
  · exact hends.left (P := Opened o.createMode (some old) (utf8 contents))
      (fun _ _ h => h.1.opened) fun _ h => h.1 hopens

/-- The disk is full when a password is changed. -/
def fullDisk : SaveOutside where
  writes := [.error "No space left on device (os error 28)"]

/-- The old contents are lost and the new ones not there. -/
theorem contents_destroyed :
    ∃ file, some file ∈ states (left (savePrivate fullDisk "config.toml" "new"
        { file := some ⟨0o600, utf8 "old"⟩ })) ∧
      file.bytes ≠ utf8 "old" ∧ file.bytes ≠ utf8 "new" :=
  ⟨⟨0o600, []⟩, by decide, by decide, by decide⟩

end InodeVpn.Proofs.SavePrivate
