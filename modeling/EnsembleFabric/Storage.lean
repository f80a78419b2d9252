import EnsembleFabric.Incarnations
import EnsembleFabric.Library.Files

/-!
# The state file on disk

`write_state_file` writes a temporary file in the directory of the state
file and renames it. Every call of it may fail, and the process may end
between two calls or in the middle of the write; what an earlier process has
left in the directory is still there.

> The file at the path is always the whole file of one save: the latest one
> that came as far as its rename (`state_file_replaced`).

So the one bit with which a site records that a save was written
(`Site.persist`) leaves out nothing (`persist_on_disk`).

The file system is that of `Files`: a directory of whole files, calls that
act on one of them, and a process that may end after any prefix of its calls.
What it refuses is a parameter of each attempt (`WriteFaults`), one for every
call, with the text of the message that is reported. A `DiskSite` is a site
with all the files of its disk, and the refinement forgets all files but the
one at the path:

> disk_refines_site : every history on disk is a history of the site, with
> whatever fails and with crashes in the middle of a save.
-/

namespace EnsembleFabric

open Files (Call Interrupted)

/-! ## Writing -/

/-- The temporary file of a path; `serial` counts the writes of a process. -/
def temporaryPath (path : String) (serial : UInt64) : String :=
  path ++ ".tmp-" ++ toString serial.toNat

/-- What the file system refuses while a state file is written. A text is
the message of the system. Nothing is assumed about which calls fail together. -/
structure WriteFaults where
  /-- The directory is missing and cannot be created. -/
  directory : Option String := none
  /-- The temporary file cannot be opened. -/
  opening : Bool := false
  /-- The write fails after so many bytes. -/
  stream : Option Nat := none
  replacement : Option String := none
  /-- The temporary file cannot be removed. -/
  removal : Bool := false
deriving DecidableEq

/-- `write_state_file` of the bytes of a file: the calls it makes, and what
it reports. -/
def replaceStateFile (path : String) (serial : UInt64) (container : List UInt8)
    (faults : WriteFaults) : List (Call String UInt8) × Status :=
  let temporary := temporaryPath path serial
  let removal := if faults.removal then [] else [Call.remove temporary]
  match faults.directory with
  | some message =>
      ([], fail .persistenceIoError s!"cannot create the state directory: {message}")
  | none =>
      if faults.opening then
        ([], fail .persistenceIoError "cannot open the temporary state file for writing")
      else
        match faults.stream with
        | some written =>
            ([.create temporary, .append temporary (container.take written)] ++ removal,
              fail .persistenceIoError "failed to write the state file")
        | none =>
            match faults.replacement with
            | some message =>
                ([.create temporary, .append temporary container] ++ removal,
                  fail .persistenceIoError
                    s!"atomic replacement of the state file failed: {message}")
            | none =>
                ([.create temporary, .append temporary container, .rename temporary path],
                  okStatus)

/-- `save_state` with its calls. -/
def saveStateAt (f : Fabric) (path : String) (serial : UInt64) (faults : WriteFaults) :
    List (Call String UInt8) × Status :=
  match saveState f with
  | .error error => ([], .error error)
  | .ok container => replaceStateFile path serial container faults

/-! ## One attempt -/

/-- An attempt to save the state at a path, as far as it got: the state, what the
file system refuses, and the calls that were made before the process ended. -/
structure SaveAttempt (path : String) where
  fabric : Fabric
  serial : UInt64
  faults : WriteFaults := {}
  made : List (Call String UInt8)
  interrupted : Interrupted (saveStateAt fabric path serial faults).1 made

namespace SaveAttempt

variable {path : String}

/-- All calls of the attempt, and what it reports after the last one. -/
def calls (a : SaveAttempt path) : List (Call String UInt8) :=
  (saveStateAt a.fabric path a.serial a.faults).1

def status (a : SaveAttempt path) : Status := (saveStateAt a.fabric path a.serial a.faults).2

/-- The file the attempt has put in place: it came as far as its rename. -/
def replaces (a : SaveAttempt path) : Option (List UInt8) :=
  if Call.rename (temporaryPath path a.serial) path ∈ a.made then (saveState a.fabric).toOption
  else none

end SaveAttempt

theorem temporaryPath_ne (path : String) (serial : UInt64) : temporaryPath path serial ≠ path := by
  intro h
  have hlength := congrArg String.length h
  have hsuffix : ".tmp-".length = 5 := rfl
  simp only [temporaryPath, String.length_append, hsuffix] at hlength
  omega

/-- A save reports success if and only if it has made all calls of a
replacement; otherwise it has spared the file. -/
theorem saveStateAt_cases (f : Fabric) (path : String) (serial : UInt64) (faults : WriteFaults) :
    (∃ container, saveState f = .ok container
        ∧ saveStateAt f path serial faults
          = (Files.replace (temporaryPath path serial) path container, okStatus))
      ∨ ((∃ error, (saveStateAt f path serial faults).2 = .error error)
        ∧ ∀ call ∈ (saveStateAt f path serial faults).1, path ∉ call.touches) := by
  have hspared : ∀ call : Call String UInt8, call.touches = [temporaryPath path serial] →
      path ∉ call.touches := by
    intro call htouches
    rw [htouches, List.mem_singleton]
    exact (temporaryPath_ne path serial).symm
  have hbeside : ∀ bytes : List UInt8, ∀ call ∈ [Call.create (temporaryPath path serial),
      .append (temporaryPath path serial) bytes]
        ++ (if faults.removal then [] else [Call.remove (temporaryPath path serial)]),
      path ∉ call.touches := by
    intro bytes call hcall
    refine hspared call ?_
    simp only [List.cons_append, List.nil_append, List.mem_cons] at hcall
    rcases hcall with rfl | rfl | hremoved
    · rfl
    · rfl
    · split at hremoved
      · cases hremoved
      · obtain rfl := List.mem_singleton.mp hremoved
        rfl
  rw [saveStateAt]
  cases saveState f with
  | error error => exact .inr ⟨⟨error, rfl⟩, fun call hcall => by cases hcall⟩
  | ok container =>
    simp only [replaceStateFile]
    split
    · exact .inr ⟨⟨_, rfl⟩, fun call hcall => by cases hcall⟩
    · split
      · exact .inr ⟨⟨_, rfl⟩, fun call hcall => by cases hcall⟩
      · split
        · exact .inr ⟨⟨_, rfl⟩, hbeside _⟩
        · split
          · exact .inr ⟨⟨_, rfl⟩, hbeside _⟩
          · exact .inl ⟨container, rfl, rfl⟩

namespace SaveAttempt

variable {path : String}

/-- An attempt has put the file of its state in place by all calls of a
replacement, or it has spared the file. -/
theorem cases (a : SaveAttempt path) :
    (∃ container, saveState a.fabric = .ok container ∧ a.replaces = some container
        ∧ a.made = Files.replace (temporaryPath path a.serial) path container)
      ∨ (a.replaces = none ∧ ∀ call ∈ a.made, path ∉ call.touches) := by
  have hnone : (∀ call ∈ a.made, path ∉ call.touches) → a.replaces = none := by
    intro hspared
    rw [replaces, if_neg]
    exact fun hrename => hspared _ hrename (List.mem_cons_of_mem _ List.mem_cons_self)
  rcases saveStateAt_cases a.fabric path a.serial a.faults with ⟨container, hsaved, hcalls⟩ | ⟨-, h⟩
  · have hinterrupted := a.interrupted
    rw [hcalls] at hinterrupted
    rcases Files.replace_interrupted (temporaryPath_ne path a.serial) hinterrupted with
      hmade | hspared
    · refine .inl ⟨container, hsaved, ?_, hmade⟩
      rw [replaces, hmade, if_pos (by simp [Files.replace]), hsaved]
      rfl
    · exact .inr ⟨hnone hspared, hspared⟩
  · have hspared := a.interrupted.spares h
    exact .inr ⟨hnone hspared, hspared⟩

/-- The file after an attempt. -/
theorem run_made (a : SaveAttempt path) (files : String → Option (List UInt8)) :
    Files.run files a.made path = a.replaces.or (files path) := by
  rcases a.cases with ⟨container, -, hreplaces, hmade⟩ | ⟨hreplaces, hspared⟩
  · rw [hmade, hreplaces, (Files.run_replace (temporaryPath_ne path a.serial) container).1]
    rfl
  · rw [hreplaces, Files.run_spared hspared]
    rfl

end SaveAttempt

/-! ## Many attempts -/

section Attempts

variable {path : String}

/-- The files after some attempts, of any processes. -/
def onDisk (files : String → Option (List UInt8)) (attempts : List (SaveAttempt path)) :
    String → Option (List UInt8) :=
  attempts.foldl (fun files a => Files.run files a.made) files

/-- The latest file that was put in place. -/
def lastReplaced (file : Option (List UInt8)) (attempts : List (SaveAttempt path)) :
    Option (List UInt8) :=
  attempts.foldl (fun file a => a.replaces.or file) file

theorem onDisk_path (files : String → Option (List UInt8)) (attempts : List (SaveAttempt path)) :
    onDisk files attempts path = lastReplaced (files path) attempts := by
  induction attempts generalizing files with
  | nil => rfl
  | cons a attempts ih =>
    rw [onDisk, List.foldl_cons, ← onDisk, ih, SaveAttempt.run_made]
    rfl

theorem lastReplaced_source {file : Option (List UInt8)} {attempts : List (SaveAttempt path)}
    {content : List UInt8} (h : lastReplaced file attempts = some content) :
    file = some content ∨ ∃ a ∈ attempts, a.replaces = some content := by
  induction attempts generalizing file with
  | nil => exact .inl h
  | cons a attempts ih =>
    rcases ih h with hfile | ⟨b, hb, hcontent⟩
    · simp only at hfile
      cases hreplaces : a.replaces with
      | none =>
        rw [hreplaces] at hfile
        exact .inl hfile
      | some other =>
        rw [hreplaces] at hfile
        exact .inr ⟨a, List.mem_cons_self, hreplaces.trans hfile⟩
    · exact .inr ⟨b, List.mem_cons_of_mem _ hb, hcontent⟩

/-- An attempt that is not interrupted reports what it has done. -/
theorem SaveAttempt.reports {a : SaveAttempt path} (h : a.made = a.calls) :
    a.status = okStatus ↔ a.replaces.isSome = true := by
  rcases saveStateAt_cases a.fabric path a.serial a.faults with
    ⟨container, hsaved, hcalls⟩ | ⟨⟨error, herror⟩, hspared⟩
  · rw [calls, hcalls] at h
    have hreplaces : a.replaces = some container := by
      rw [replaces, h, if_pos (by simp [Files.replace]), hsaved]
      rfl
    simp [status, hcalls, hreplaces]
  · rcases a.cases with ⟨container, -, -, hmade⟩ | ⟨hnone, -⟩
    · have hrename : Call.rename (temporaryPath path a.serial) path ∈ a.calls := by
        rw [← h, hmade]
        simp [Files.replace]
      exact absurd (List.mem_cons_of_mem _ List.mem_cons_self) (hspared _ hrename)
    · rw [status, herror, hnone]
      constructor <;> rintro ⟨⟩

/-- A saved file is read, and it holds what was saved. -/
theorem saved_file_read {f : Fabric} {file : List UInt8} (hsaved : saveState f = .ok file)
    (hrecords : 1 ≤ f.config.limits.maxRecordsPerSnapshot) :
    ∃ header, readStateFile file f.config.limits = .ok (header, serializeState f) := by
  obtain ⟨hsize, rfl⟩ := saveState_eq_ok.mp hsaved
  refine ⟨loadHeader (StateFile.image (Write.flat (putState f.config.limits f.durable)) 1),
    readStateFile_eq_ok.mpr ⟨image_sound hsize hrecords, ?_⟩⟩
  rw [image_drop, serializeState, Encoder.buffer_eq hsize]

/-- Whatever fails and wherever a process ends, the file at the path is the
whole file of one save: the latest one that came as far as its rename. A save
that has returned reports whether it did. -/
theorem state_file_replaced (path : String) (files : String → Option (List UInt8))
    (attempts : List (SaveAttempt path)) :
    onDisk files attempts path = lastReplaced (files path) attempts
      ∧ (∀ a ∈ attempts, a.made = a.calls → (a.status = okStatus ↔ a.replaces.isSome = true))
      ∧ ∀ file, onDisk files attempts path = some file → files path = some file
          ∨ ∃ a ∈ attempts, saveState a.fabric = .ok file
            ∧ (1 ≤ a.fabric.config.limits.maxRecordsPerSnapshot → ∃ header,
              readStateFile file a.fabric.config.limits
                = .ok (header, serializeState a.fabric)) := by
  refine ⟨onDisk_path files attempts, fun a _ => a.reports, fun file hfile => ?_⟩
  rw [onDisk_path] at hfile
  rcases lastReplaced_source hfile with hold | ⟨a, ha, hreplaces⟩
  · exact .inl hold
  · rcases a.cases with ⟨container, hsaved, hsome, -⟩ | ⟨hnone, -⟩
    · rw [hreplaces] at hsome
      obtain rfl := Option.some.inj hsome
      exact .inr ⟨a, ha, hsaved, saved_file_read hsaved⟩
    · rw [hreplaces] at hnone
      cases hnone

end Attempts

/-! ## A site on disk -/

namespace Coordinator

/-- `maybe_persist` has something to save. -/
def saves (s : Coordinator) : Bool :=
  s.config.persistOnChange && s.config.statePath && s.stateDirty

theorem maybePersist_eq (s : Coordinator) :
    s.maybePersist
      = if s.saves then ({ s with stateDirty := false }, (saveState s.fabric).toOption)
        else (s, none) := by
  rw [maybePersist, saves]
  cases s.config.persistOnChange <;> cases s.config.statePath <;> cases s.stateDirty <;> rfl

end Coordinator

/-- A site with all files of its disk. -/
structure DiskSite where
  files : String → Option (List UInt8)
  running : Option Coordinator := none
  saved : Bool := false
  past : List (List Trail) := []

inductive DiskEvent where
  | start (config : CoordinatorConfig) (boot : WorkerBootId)
  | handle (event : CoordinatorEvent)
  /-- A save that returns. -/
  | persist (serial : UInt64) (faults : WriteFaults)
  /-- The process ends in a save, after so many calls and so many bytes of the
  next one. -/
  | crash (serial : UInt64) (faults : WriteFaults) (calls part : Nat)
  | ended

namespace DiskSite

/-- What a site knows of its disk is the file at one path. -/
def site (s : DiskSite) (path : String) : Site where
  file := s.files path
  running := s.running
  saved := s.saved
  past := s.past

/-- A save of a coordinator that returns. -/
def returned (c : Coordinator) (path : String) (serial : UInt64) (faults : WriteFaults) :
    SaveAttempt path where
  fabric := c.fabric
  serial
  faults
  made := (saveStateAt c.fabric path serial faults).1
  interrupted := .refl _

/-- A save in which the process ends. -/
def interrupted (c : Coordinator) (path : String) (serial : UInt64) (faults : WriteFaults)
    (calls part : Nat) : SaveAttempt path where
  fabric := c.fabric
  serial
  faults
  made := Files.cut (saveStateAt c.fabric path serial faults).1 calls part
  interrupted := Files.interrupted_cut ..

/-- The coordinator goes on with the files as an attempt leaves them. -/
def afterSave (s : DiskSite) {path : String} (c : Coordinator) (a : SaveAttempt path) : DiskSite :=
  { s with
    files := Files.run s.files a.made
    running := some { c with stateDirty := false }
    saved := s.saved || a.replaces.isSome }

/-- The coordinator is no more. -/
def afterEnd (s : DiskSite) (c : Coordinator) : DiskSite :=
  { s with running := none, past := s.past ++ [c.trail] }

def next (path : String) (s : DiskSite) (event : DiskEvent) : DiskSite :=
  match s.running, event with
  | none, .start config boot =>
      match Coordinator.start (Site.onFile config) boot (s.files path) with
      | .error _ => s
      | .ok c => { s with running := some c, saved := false }
  | some c, .handle event => { s with running := some (c.next event) }
  | some c, .persist serial faults =>
      if c.saves then s.afterSave c (returned c path serial faults) else s
  | some c, .crash serial faults calls part =>
      if c.saves then (s.afterSave c (interrupted c path serial faults calls part)).afterEnd c
      else s.afterEnd c
  | some c, .ended => s.afterEnd c
  | _, _ => s

/-- A save on disk is a save of the site that is written or not. -/
theorem afterSave_site {s : DiskSite} {path : String} {c : Coordinator} (hsaves : c.saves = true)
    {a : SaveAttempt path} (ha : a.fabric = c.fabric) :
    (s.afterSave c a).site path = (s.site path).persist c a.replaces.isSome := by
  have hfile := a.run_made s.files
  rw [Site.persist, Coordinator.maybePersist_eq, if_pos hsaves]
  rcases a.cases with ⟨container, hsaved, hreplaces, -⟩ | ⟨hreplaces, -⟩
  · rw [ha] at hsaved
    simp [site, hfile, hreplaces, hsaved, afterSave, Except.toOption]
  · simp [site, hfile, hreplaces, afterSave]

/-- One event on disk is at most two events of the site. -/
theorem next_site (path : String) (s : DiskSite) (event : DiskEvent) :
    ∃ events, (s.next path event).site path = EventSystem.run Site.next (s.site path) events := by
  obtain ⟨files, running, saved, past⟩ := s
  cases running with
  | none =>
    cases event with
    | start config boot =>
      refine ⟨[.start config boot], ?_⟩
      simp only [EventSystem.run_cons, EventSystem.run_nil, Site.next, next, site]
      cases Coordinator.start (Site.onFile config) boot (files path) <;> rfl
    | _ => exact ⟨[], rfl⟩
  | some c =>
    cases event with
    | start => exact ⟨[], rfl⟩
    | handle event => exact ⟨[.handle event], rfl⟩
    | ended => exact ⟨[.ended], rfl⟩
    | persist serial faults =>
      simp only [next]
      split
      · rename_i hsaves
        exact ⟨[.persist (returned c path serial faults).replaces.isSome],
          afterSave_site hsaves rfl⟩
      · exact ⟨[], rfl⟩
    | crash serial faults calls part =>
      simp only [next]
      split
      · rename_i hsaves
        refine ⟨[.persist (interrupted c path serial faults calls part).replaces.isSome, .ended],
          ?_⟩
        have hsaved := afterSave_site (s := ⟨files, some c, saved, past⟩) hsaves
          (rfl : (interrupted c path serial faults calls part).fabric = c.fabric)
        change _ = Site.next (Site.persist _ c _) .ended
        rw [← hsaved]
        rfl
      · exact ⟨[.ended], rfl⟩

/-- Every history on disk, with whatever fails and crashes in the middle of
a save, is a history of the site: that a save was written or was not is all
that a coordinator can ever find out about the disk. -/
theorem disk_refines_site (path : String) (s : DiskSite) (events : List DiskEvent) :
    ∃ events', (EventSystem.run (next path) s events).site path
      = EventSystem.run Site.next (s.site path) events' := by
  induction events generalizing s with
  | nil => exact ⟨[], rfl⟩
  | cons event events ih =>
    obtain ⟨first, hfirst⟩ := next_site path s event
    obtain ⟨rest, hrest⟩ := ih (s.next path event)
    refine ⟨first ++ rest, ?_⟩
    rw [EventSystem.run_cons, hrest, hfirst, EventSystem.run_append]

end DiskSite

end EnsembleFabric
