import EnsembleFabric.Recovering
import EnsembleFabric.Restarting
import EnsembleFabric.Speaking

/-!
# Incarnations of a coordinator

A site is one state file and the coordinators that run over it, one after
the other. A coordinator takes up the state in the file, if there is a file,
handles events, writes the file when its state has been marked dirty, and
ends at any point. Whether it stops or crashes makes no difference: a
coordinator that stops writes nothing, and a write that is cut short leaves
the file as it was.

A recovery moves the epoch past the one in the file, but the new epoch is
only in memory until the file is written again, and a handshake that hands
it out marks nothing dirty. The next coordinator has a greater epoch if and
only if this one has written the file (`incarnations_increase`).

The invariant of a site (`Ordered`) compares the epoch in the file with those
the coordinators have handed out: the file is not behind any coordinator that
has ended, and one step behind the running one until that one has written it.
What a running coordinator hands out is the epoch of its runtime, and no event
of it changes that epoch (`HandsOut`), since restarts of the runtime are no
operation of a coordinator.

The first eight bytes of a payload after its first word are the epoch
(`fileEpoch_payload`), so the epoch of a file can be read off without
decoding it.
-/

namespace EnsembleFabric

open EventSystem

/-! ## Starting and saving -/

namespace Coordinator

/-- `start`, with a file of these bytes or without one; `boot` is drawn when
no incarnation is configured. -/
def start (config : CoordinatorConfig) (boot : WorkerBootId) (file : Option (List UInt8)) :
    Outcome Coordinator :=
  let config :=
    { config with
      coordinatorBoot := if config.coordinatorBoot.valid then config.coordinatorBoot else boot }
  -- live authority never survives a restart
  let begin := fun (f : Fabric) => create config (invalidateDynamicAuthority f "coordinator start")
  match if config.statePath then file else none with
  | none => .ok (begin (freshFabric config))
  | some content =>
      match recoverState (freshFabric config) content boot with
      | (_, .error error) => .error error
      | (fabric, .ok _) => .ok (begin fabric)

/-- `maybe_persist`: the coordinator after it, and the file it writes. A save
that fails leaves nothing dirty. -/
def maybePersist (s : Coordinator) : Coordinator × Option (List UInt8) :=
  if !s.config.persistOnChange || !s.config.statePath then (s, none)
  else if !s.stateDirty then (s, none)
  else ({ s with stateDirty := false }, (saveState s.fabric).toOption)

end Coordinator

/-! ## A site -/

structure Site where
  file : Option (List UInt8) := none
  running : Option Coordinator := none
  /-- The running coordinator has written the file. -/
  saved : Bool := false
  /-- What the earlier coordinators have done. -/
  past : List (List Trail) := []

inductive SiteEvent where
  /-- A coordinator is started over the file, unless one is running. -/
  | start (config : CoordinatorConfig) (boot : WorkerBootId)
  | handle (event : CoordinatorEvent)
  /-- `written` says whether the file system takes the file. -/
  | persist (written : Bool)
  /-- The coordinator stops or crashes. -/
  | ended

namespace Site

/-- The coordinators of a site write their state when it changes. -/
def onFile (config : CoordinatorConfig) : CoordinatorConfig :=
  { config with statePath := true, persistOnChange := true }

def persist (s : Site) (c : Coordinator) (written : Bool) : Site :=
  let (c, file) := c.maybePersist
  match if written then file else none with
  | none => { s with running := some c }
  | some content => { s with running := some c, file := some content, saved := true }

def next (s : Site) (event : SiteEvent) : Site :=
  match s.running, event with
  | none, .start config boot =>
      match Coordinator.start (onFile config) boot s.file with
      | .error _ => s
      | .ok c => { s with running := some c, saved := false }
  | some c, .handle event => { s with running := some (c.next event) }
  | some c, .persist written => s.persist c written
  | some c, .ended => { s with running := none, past := s.past ++ [c.trail] }
  | _, _ => s

/-- What all coordinators of the site have done, the running one last. -/
def incarnations (s : Site) : List (List Trail) := s.past ++ (s.running.map (·.trail)).toList

end Site

/-! ## Epochs -/

/-- The epoch of an acknowledged handshake. -/
def Trail.handshake : Trail → Option CoordinatorEpoch
  | .sent _ frame => if frame.type = .helloAck then some frame.epoch else none
  | .dropped .. => none
  | .routed .. => none
  | .unrouted .. => none
  | .submitted .. => none

/-- The epochs a coordinator has handed out. -/
def handedOut (trail : List Trail) : List CoordinatorEpoch := trail.filterMap Trail.handshake

/-- Every epoch of the first coordinator is smaller than every epoch of the
second. -/
def Precedes (earlier later : List Trail) : Prop :=
  ∀ e ∈ handedOut earlier, ∀ e' ∈ handedOut later, e.value < e'.value

instance (earlier later : List Trail) : Decidable (Precedes earlier later) :=
  inferInstanceAs (Decidable (∀ e ∈ handedOut earlier, ∀ e' ∈ handedOut later, e.value < e'.value))

/-- Each coordinator hands out greater epochs than all before it, and no epoch
that was handed out earlier is the current one. Coordinators that have handed
out nothing do not count. -/
structure EpochsIncrease (s : Site) : Prop where
  increasing : s.incarnations.Pairwise Precedes
  past : ∀ c, s.running = some c → ∀ trail ∈ s.past, ∀ e ∈ handedOut trail,
    e.value < c.fabric.core.epoch.value

/-- A coordinator that has answered a handshake ends only after it has written
the file. -/
def endsSaved (s : Site) : SiteEvent → Bool
  | .ended => s.saved || s.running.all fun c => (handedOut c.trail).isEmpty
  | _ => true

/-! ## The epoch of a file -/

/-- The epoch that a file holds; without a file, the one before the first. -/
def fileEpoch : Option (List UInt8) → Nat
  | none => 0
  | some content => (loadU64 content 44).toNat

/-- The payload of a file begins with an extension word and the epoch. -/
theorem fileEpoch_payload {header rest : List UInt8} {epoch : CoordinatorEpoch}
    (h : header.length = StateFile.headerBytes) :
    fileEpoch (some (header
        ++ (Write.flat (Encoder.u32 0) ++ (Write.flat (putId epoch) ++ rest))))
      = epoch.value.toNat := by
  have hfront : (header ++ Write.flat (Encoder.u32 0)).length = 44 := by
    rw [List.length_append, h]
    rfl
  have hword : Write.flat (putId epoch) = LittleEndian.bytes 8 epoch.value.toNat :=
    List.append_nil _
  have hslice : LittleEndian.slice (header ++ Write.flat (Encoder.u32 0)
      ++ (LittleEndian.bytes 8 epoch.value.toNat ++ rest)) 44 8
      = LittleEndian.bytes 8 epoch.value.toNat := by
    rw [LittleEndian.slice, List.drop_left' hfront, List.take_left' (LittleEndian.bytes_length ..)]
  rw [← List.append_assoc, hword, fileEpoch, loadU64, hslice]
  exact congrArg UInt64.toNat (loadU64_bytes _)

/-- What is read of a file begins with its epoch. -/
theorem decodeState_epoch {payload : List UInt8} {limits : Limits} {state : DurableState}
    (h : decodeState payload limits = .ok state) :
    ∃ rest, payload = Write.flat (Encoder.u32 0) ++ (Write.flat (putId state.epoch) ++ rest) := by
  simp only [decodeState, requireExhausted, Checks.bind_eq_ok] at h
  obtain ⟨⟨read, remaining⟩, hread, -, -, hstate⟩ := h
  obtain rfl : read = state := Except.ok.inj hstate
  rw [getState, Reader.run_bind_eq_ok] at hread
  obtain ⟨reserved, middle, hreserved, hread⟩ := hread
  obtain ⟨-, -, rfl⟩ := (Decoder.u32_exact _ _ _).mp hreserved
  split at hread
  · cases hread
  · rename_i hzero
    obtain rfl : reserved = 0 := not_not.mp hzero
    rw [Reader.run_bind_eq_ok] at hread
    obtain ⟨epoch, rest, hepoch, hread⟩ := hread
    obtain ⟨-, -, rfl⟩ := (getId_exact _ _ _).mp hepoch
    refine ⟨rest, ?_⟩
    -- what is read from here on says nothing of the epoch
    simp only [Reader.run_bind_eq_ok] at hread
    obtain ⟨_, _, -, _, _, -, _, _, -, _, _, -, _, _, -, _, _, -, _, _, -, _, _, -, _, _, -,
      _, _, -, _, _, -, _, _, -, _, _, -, _, _, -, _, _, -, _, _, -, _, _, -, _, _, -, hread⟩ :=
      hread
    obtain ⟨rfl, -⟩ := Prod.mk.injEq .. |>.mp (Except.ok.inj hread)
    rfl

/-- A file that is read holds the epoch that is read. -/
theorem Reads.epoch {limits : Limits} {content : List UInt8} {state : DurableState}
    (h : Reads limits content state) : fileEpoch (some content) = state.epoch.value.toNat := by
  obtain ⟨header, payload, hread, hdecoded⟩ := h
  obtain ⟨hsound, hpayload⟩ := readStateFile_eq_ok.mp hread
  obtain rfl : payload = content.drop StateFile.headerBytes := (Prod.mk.injEq .. |>.mp hpayload).2
  obtain ⟨rest, hrest⟩ := decodeState_epoch hdecoded
  rw [← List.take_append_drop StateFile.headerBytes content, hrest]
  exact fileEpoch_payload (List.length_take_of_le hsound.size)

/-- A file that is written holds the epoch of the runtime. -/
theorem saveState_epoch {f : Fabric} {file : List UInt8} (h : saveState f = .ok file) :
    fileEpoch (some file) = f.core.epoch.value.toNat := by
  obtain ⟨-, rfl⟩ := saveState_eq_ok.mp h
  obtain ⟨rest, hrest⟩ : ∃ rest, Write.flat (putState f.config.limits f.durable)
      = Write.flat (Encoder.u32 0) ++ (Write.flat (putId f.core.epoch) ++ rest) :=
    ⟨_, by rw [putState, List.flatten_cons, Write.flat_append, List.flatten_cons,
      Write.flat_append]; rfl⟩
  rw [StateFile.image, hrest]
  exact fileEpoch_payload (StateFile.header_length ..)

/-! ## One step -/

theorem named_invalidate {f : Fabric} (h : Named f) (reason : String) :
    Named (invalidateDynamicAuthority f reason) := by
  have hrefines : Refines (runScope {}) f (invalidateDynamicAuthority f reason) :=
    invalidateDynamicAuthority_refines f reason
  exact hrefines.named h

/-- A recovered runtime goes on under the epoch after that of the file. -/
theorem recoverState_epoch {f f' : Fabric} {content : List UInt8} {boot : WorkerBootId}
    {epoch : CoordinatorEpoch} (h : recoverState f content boot = (f', .ok epoch)) :
    Named f' ∧ f'.core.epoch.value.toNat = fileEpoch (some content) + 1 := by
  have hrecovery := recoverState_recovery f content boot
  rw [h] at hrecovery
  cases hrecovery with
  | @recovered state reads hlast =>
    refine ⟨named_invalidate (named_adopt hlast) recoveryReason, ?_⟩
    have hvalue : state.epoch.value.toNat ≠ lastWord.toNat := fun heq =>
      hlast (UInt64.toNat_inj.mp heq)
    have hlt := state.epoch.value.toNat_lt
    have hword : lastWord.toNat = 2 ^ 64 - 1 := rfl
    have hadopted : (adoptState f state.loaded boot).1.core.epoch = state.epoch.next :=
      adoptState_epoch hlast
    rw [reads.epoch]
    change (adoptState f state.loaded boot).1.core.epoch.value.toNat = _
    rw [hadopted, StrongId.next_toNat (by omega)]

namespace Coordinator

/-- What is known of a running coordinator: its handshakes hand out the epoch
of its runtime. -/
structure HandsOut (epoch : CoordinatorEpoch) (s : Coordinator) : Prop where
  named : Named s.fabric
  current : s.fabric.core.epoch = epoch
  handed : ∀ e ∈ handedOut s.trail, e = epoch

theorem handedOut_note {s : Coordinator} {entry : Trail} :
    handedOut (s.note entry).trail = handedOut s.trail ++ entry.handshake.toList := by
  rw [note, handedOut, handedOut, List.filterMap_append]
  cases h : entry.handshake <;> simp [h]

/-- No event changes the epoch, or hands out another. -/
theorem next_handsOut {epoch : CoordinatorEpoch} {s : Coordinator} (h : s.HandsOut epoch)
    (event : CoordinatorEvent) : (s.next event).HandsOut epoch := by
  have hcall : ∀ {s : Coordinator} {e : Event}, (e.serves = true ∨ e.registers = true) →
      s.HandsOut epoch → (s.withFabric (s.fabric.after e)).HandsOut epoch := by
    intro s e he h
    refine ⟨(next_viewSteps (s := { fabric := s.fabric }) rfl h.named (allows_all _ _ e) ⟨0⟩).2.1,
      (next_epoch (s := { fabric := s.fabric }) h.named ?_).trans h.current, h.handed⟩
    rintro client boot rfl
    rcases he with he | he <;> cases he
  have hnote : ∀ {s : Coordinator} {entry : Trail},
      (∀ c frame, entry = .sent c frame → s.Stamped frame) →
      s.HandsOut epoch → (s.note entry).HandsOut epoch := by
    intro s entry hstamped h
    refine ⟨h.named, h.current, fun e he => ?_⟩
    rw [handedOut_note, List.mem_append, Option.mem_toList] at he
    rcases he with hold | hnew
    · exact h.handed e hold
    · cases entry with
      | sent c frame =>
        rw [Trail.handshake, Option.ite_none_right_eq_some] at hnew
        obtain ⟨htype, hframe⟩ := hnew
        obtain rfl : frame.epoch = e := Option.some.inj hframe
        exact (hstamped c frame rfl htype).trans h.current
      | _ => cases hnew
  have hserved : Served fun s => s.HandsOut epoch :=
    served_of_entries (fun he h => hcall (.inl he) h) (fun _ hstamped h => hnote hstamped h)
      (fun h => ⟨h.named, h.current, h.handed⟩) fun h => ⟨h.named, h.current, h.handed⟩
  refine hserved.next (fun h => ⟨h.named, h.current, h.handed⟩) (fun h => hcall (.inr rfl) h) h ?_
  rintro id frame c call authority - - hsubmits
  exact hnote (by simp) (hcall (.inl hsubmits.serves) h)

/-- A coordinator starts under the epoch after that of the file, and has
handed out nothing. -/
theorem start_epoch {config : CoordinatorConfig} {boot : WorkerBootId}
    {file : Option (List UInt8)} {c : Coordinator}
    (h : start (Site.onFile config) boot file = .ok c) :
    Named c.fabric ∧ c.fabric.core.epoch.value.toNat = fileEpoch file + 1 ∧ c.trail = [] := by
  have hpath : (Site.onFile config).statePath = true := rfl
  rw [start] at h
  simp only [hpath, if_true] at h
  cases file with
  | none =>
    obtain rfl := Except.ok.inj h
    exact ⟨named_invalidate (fun id e he => by cases he) _, rfl, rfl⟩
  | some content =>
    simp only at h
    split at h
    · cases h
    · rename_i hrecovered
      obtain rfl := Except.ok.inj h
      obtain ⟨hnamed, hepoch⟩ := recoverState_epoch hrecovered
      exact ⟨named_invalidate hnamed _, hepoch, rfl⟩

theorem maybePersist_file {s c : Coordinator} {content : List UInt8}
    (h : s.maybePersist = (c, some content)) :
    fileEpoch (some content) = s.fabric.core.epoch.value.toNat := by
  rw [maybePersist] at h
  split at h
  · cases h
  · split at h
    · cases h
    · cases hsave : saveState s.fabric with
      | error error =>
        rw [hsave] at h
        cases h
      | ok file =>
        rw [hsave] at h
        obtain rfl : file = content := Option.some.inj (Prod.mk.inj h).2
        exact saveState_epoch hsave

/-- A save looks at the runtime and leaves it alone. -/
theorem maybePersist_same (s : Coordinator) :
    s.maybePersist.1.fabric = s.fabric ∧ s.maybePersist.1.trail = s.trail := by
  rw [maybePersist]
  split
  · exact ⟨rfl, rfl⟩
  · split <;> exact ⟨rfl, rfl⟩

end Coordinator

namespace Site

/-- What is known of a site: the file is not behind any coordinator that has
ended, and one step behind the running one until that one has written it. It
is the invariant of all histories whose coordinators end saved. -/
structure Ordered (s : Site) : Prop where
  increasing : s.past.Pairwise Precedes
  behind : ∀ trail ∈ s.past, ∀ e ∈ handedOut trail, e.value.toNat ≤ fileEpoch s.file
  running : ∀ c, s.running = some c → c.HandsOut c.fabric.core.epoch
  ahead : ∀ c, s.running = some c →
    c.fabric.core.epoch.value.toNat = fileEpoch s.file + if s.saved then 0 else 1
  past : ∀ c, s.running = some c → ∀ trail ∈ s.past, ∀ e ∈ handedOut trail,
    e.value.toNat < c.fabric.core.epoch.value.toNat

theorem Ordered.started {s : Site} (h : s.Ordered) {config : CoordinatorConfig}
    {boot : WorkerBootId} {c : Coordinator}
    (hstart : Coordinator.start (onFile config) boot s.file = .ok c) :
    Ordered { s with running := some c, saved := false } := by
  obtain ⟨hnamed, hepoch, htrail⟩ := Coordinator.start_epoch hstart
  refine ⟨h.increasing, h.behind, ?_, ?_, ?_⟩
  · rintro _ ⟨⟩
    refine ⟨hnamed, rfl, fun e he => ?_⟩
    rw [htrail] at he
    cases he
  · rintro _ ⟨⟩
    exact hepoch
  · rintro _ ⟨⟩ trail htrail e he
    have hbehind := h.behind trail htrail e he
    omega

theorem Ordered.handled {s : Site} (h : s.Ordered) {c : Coordinator} (hc : s.running = some c)
    (event : CoordinatorEvent) : Ordered { s with running := some (c.next event) } := by
  have hnext := Coordinator.next_handsOut (h.running c hc) event
  refine ⟨h.increasing, h.behind, ?_, ?_, ?_⟩
  · rintro _ ⟨⟩
    rw [hnext.current]
    exact hnext
  · rintro _ ⟨⟩
    rw [hnext.current]
    exact h.ahead c hc
  · rintro _ ⟨⟩
    rw [hnext.current]
    exact h.past c hc

theorem Ordered.persisted {s : Site} (h : s.Ordered) {c : Coordinator} (hc : s.running = some c)
    (written : Bool) : (s.persist c written).Ordered := by
  have hsame := Coordinator.maybePersist_same c
  have hrunning := h.running c hc
  cases hout : c.maybePersist with
  | mk c' file =>
  rw [hout] at hsame
  obtain ⟨hfabric, htrail⟩ := hsame
  have hhands : c'.HandsOut c'.fabric.core.epoch := by
    simp only at hfabric htrail
    refine ⟨hfabric ▸ hrunning.named, rfl, ?_⟩
    rw [hfabric, htrail]
    exact hrunning.handed
  simp only at hfabric
  simp only [persist, hout]
  split
  · refine ⟨h.increasing, h.behind, ?_, ?_, ?_⟩
    · rintro _ ⟨⟩
      exact hhands
    · rintro _ ⟨⟩
      rw [hfabric]
      exact h.ahead c hc
    · rintro _ ⟨⟩
      rw [hfabric]
      exact h.past c hc
  · rename_i content hwritten
    -- the file catches up with the coordinator
    obtain rfl : file = some content := by
      split at hwritten
      · exact hwritten
      · cases hwritten
    have hepoch := Coordinator.maybePersist_file hout
    refine ⟨h.increasing, fun trail htrail e he => ?_, ?_, ?_, ?_⟩
    · rw [hepoch]
      exact (h.past c hc trail htrail e he).le
    · rintro _ ⟨⟩
      exact hhands
    · rintro _ ⟨⟩
      rw [hfabric, hepoch]
      rfl
    · rintro _ ⟨⟩
      rw [hfabric]
      exact h.past c hc

/-- A coordinator that has written the file, or handed out nothing, may end. -/
theorem Ordered.ended {s : Site} (h : s.Ordered) {c : Coordinator} (hc : s.running = some c)
    (hsaved : endsSaved s .ended = true) :
    Ordered { s with running := none, past := s.past ++ [c.trail] } := by
  have hrunning := h.running c hc
  refine ⟨?_, ?_, fun _ h => (by cases h), fun _ h => (by cases h), fun _ h => (by cases h)⟩
  · refine List.pairwise_append.mpr ⟨h.increasing, List.pairwise_singleton _ _, ?_⟩
    rintro trail htrail _ hlast e he e' he'
    obtain rfl := List.mem_singleton.mp hlast
    rw [hrunning.handed e' he', UInt64.lt_iff_toNat_lt]
    exact h.past c hc trail htrail e he
  · intro trail htrail e he
    rcases List.mem_append.mp htrail with hpast | hlast
    · exact h.behind trail hpast e he
    · obtain rfl := List.mem_singleton.mp hlast
      rw [endsSaved, hc, Bool.or_eq_true] at hsaved
      rcases hsaved with hsaved | hnothing
      · have hahead := h.ahead c hc
        rw [hsaved] at hahead
        rw [hrunning.handed e he]
        exact hahead.le
      · rw [List.isEmpty_iff.mp hnothing] at he
        cases he

theorem Ordered.next {s : Site} (h : s.Ordered) {event : SiteEvent}
    (hsaved : endsSaved s event = true) : (s.next event).Ordered := by
  cases hc : s.running with
  | none =>
    cases event with
    | start config boot =>
      simp only [Site.next, hc]
      split
      · exact h
      · rename_i hstart
        exact h.started hstart
    | _ =>
      simp only [Site.next, hc]
      exact h
  | some c =>
    cases event with
    | start config boot =>
      simp only [Site.next, hc]
      exact h
    | handle event =>
      simp only [Site.next, hc]
      exact h.handled hc event
    | persist written =>
      simp only [Site.next, hc]
      exact h.persisted hc written
    | ended =>
      simp only [Site.next, hc]
      exact h.ended hc hsaved

theorem ordered_initial (file : Option (List UInt8)) : Ordered { file } :=
  ⟨List.Pairwise.nil, fun _ h => (by cases h), fun _ h => (by cases h), fun _ h => (by cases h),
    fun _ h => by cases h⟩

theorem Ordered.epochsIncrease {s : Site} (h : s.Ordered) : EpochsIncrease s := by
  refine ⟨?_, fun c hc trail htrail e he =>
    UInt64.lt_iff_toNat_lt.mpr (h.past c hc trail htrail e he)⟩
  rw [incarnations]
  refine List.pairwise_append.mpr ⟨h.increasing, ?_, ?_⟩
  · cases s.running with
    | none => exact List.Pairwise.nil
    | some c => exact List.pairwise_singleton _ _
  · rintro trail htrail _ hlast e he e' he'
    rw [Option.mem_toList, Option.map_eq_some_iff] at hlast
    obtain ⟨c, hc, rfl⟩ := hlast
    rw [(h.running c hc).handed e' he', UInt64.lt_iff_toNat_lt]
    exact h.past c hc trail htrail e he

/-- The coordinator that starts next has a greater epoch if and only if the
one before it has written the file. -/
theorem Ordered.succeeded {s : Site} (h : s.Ordered) {c c' : Coordinator}
    {config : CoordinatorConfig} {boot : WorkerBootId} (hc : s.running = some c)
    (hc' : ((s.next .ended).next (.start config boot)).running = some c') :
    c.fabric.core.epoch.value < c'.fabric.core.epoch.value ↔ s.saved = true := by
  have hahead := h.ahead c hc
  simp only [Site.next, hc] at hc'
  cases hstart : Coordinator.start (onFile config) boot s.file with
  | error error =>
    simp only [hstart] at hc'
    cases hc'
  | ok started =>
    simp only [hstart] at hc'
    obtain rfl := Option.some.inj hc'
    obtain ⟨-, hepoch, -⟩ := Coordinator.start_epoch hstart
    rw [UInt64.lt_iff_toNat_lt, hahead, hepoch]
    cases s.saved <;> simp

end Site

/-- In every sequence of coordinators on one state file, each of which has
written the file before it ends if it has answered a handshake: each hands out
greater epochs than all before it, no epoch of an earlier one is current
again, and the next one has a greater epoch than this one if and only if this
one has written the file. -/
theorem incarnations_increase (file : Option (List UInt8)) (events : List SiteEvent)
    (h : Along Site.next (fun s event => endsSaved s event = true) { file } events) :
    EpochsIncrease (run Site.next { file } events)
      ∧ ∀ c c' config boot, (run Site.next { file } events).running = some c →
        (((run Site.next { file } events).next .ended).next (.start config boot)).running
          = some c' →
        (c.fabric.core.epoch.value < c'.fabric.core.epoch.value
          ↔ (run Site.next { file } events).saved = true) := by
  have hordered : (run Site.next { file } events).Ordered :=
    run_invariant_along (fun _ _ hsaved h => h.next hsaved) h (Site.ordered_initial file)
  exact ⟨hordered.epochsIncrease, fun _ _ _ _ hc hc' => hordered.succeeded hc hc'⟩

namespace Sample

/-- A worker greets a coordinator, and what it sends is persisted. -/
def greeted (boot : UInt64) (frames : List Frame) : List SiteEvent :=
  [.start {} ⟨boot⟩, .handle .accepted, .handle (.frame 1 (hello 1))]
    ++ frames.map (fun frame => .handle (.frame 1 frame)) ++ [.handle .flush, .persist true]

/-- Nothing is there to be cancelled; the state is marked dirty all the same. -/
def cancelling : Frame :=
  frame .cancelEnsemble (encodeCancelEnsemble
    { ensemble := ⟨1⟩, ensembleGeneration := ⟨1⟩, reason := [] })

/-- Two coordinators; the first one has something to write. -/
def written : List SiteEvent := greeted 7 [cancelling] ++ [.ended] ++ greeted 8 []

/-- Two coordinators that have nothing to write. -/
def unwritten : List SiteEvent := greeted 7 [] ++ [.ended] ++ greeted 8 []

end Sample

/-- The second coordinator takes up the file of the first. -/
theorem written_epoch_is_over : EpochsIncrease (run Site.next { file := none } Sample.written) :=
  (incarnations_increase none Sample.written (by decide +kernel)).1

/-- Without a change that marks the state dirty the file is not written: the
second coordinator hands out the epoch of the first. -/
theorem unwritten_epoch_is_handed_out_again :
    ¬ EpochsIncrease (run Site.next { file := none } Sample.unwritten) := by
  have hagain : ¬ (run Site.next { file := none } Sample.unwritten).incarnations.Pairwise
      Precedes := by
    decide +kernel
  exact fun h => hagain h.increasing

end EnsembleFabric
