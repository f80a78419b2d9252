import Mathlib.Logic.Function.Basic

/-!
# Files

A file system is the content of the file at each path. A process changes it
by calls, and it may end between two calls or in the middle of a write
(`Interrupted`).

> A file that is written beside its path and renamed once it is whole
> replaces the old file at once or not at all.

`replace_interrupted` is this law for one process; nothing is assumed about
what an earlier process has left at the path beside. `run_replace` is the
process that comes to its end.

Paths and contents are arbitrary types, and a content is a list of elements,
so that a write can be interrupted in the middle. A rename is one step: it is
made or it is not.
-/

namespace Files

universe u v

variable {π : Type u} {β : Type v}

/-! ## Calls -/

inductive Call (π : Type u) (β : Type v) where
  /-- The file is there and empty, whatever it was. -/
  | create (path : π)
  | append (path : π) (bytes : List β)
  | remove (path : π)
  | rename (source target : π)
deriving DecidableEq

/-- The paths whose files a call may change. -/
def Call.touches : Call π β → List π
  | create path => [path]
  | append path _ => [path]
  | remove path => [path]
  | rename source target => [source, target]

/-- What has been done of some calls when a process ends: the calls up to
some point, and perhaps a part of a write. -/
inductive Interrupted : List (Call π β) → List (Call π β) → Prop where
  | stopped (calls : List (Call π β)) : Interrupted calls []
  | torn {path : π} {bytes part : List β} (calls : List (Call π β)) (front : part <+: bytes) :
      Interrupted (.append path bytes :: calls) [.append path part]
  | made {call : Call π β} {calls done : List (Call π β)} (rest : Interrupted calls done) :
      Interrupted (call :: calls) (call :: done)

/-- The process ends after so many calls, or so many elements into the next
one. -/
def cut : List (Call π β) → Nat → Nat → List (Call π β)
  | [], _, _ => []
  | call :: calls, count + 1, part => call :: cut calls count part
  | .append path bytes :: _, 0, part => [.append path (bytes.take part)]
  | _ :: _, 0, _ => []

theorem interrupted_cut (calls : List (Call π β)) (count part : Nat) :
    Interrupted calls (cut calls count part) := by
  induction calls generalizing count with
  | nil => exact .stopped []
  | cons call calls ih =>
    cases count with
    | succ count => exact .made (ih count)
    | zero =>
      cases call with
      | append path bytes => exact .torn calls (List.take_prefix part bytes)
      | _ => exact .stopped _

/-- A process need not be interrupted. -/
theorem Interrupted.refl (calls : List (Call π β)) : Interrupted calls calls := by
  induction calls with
  | nil => exact .stopped []
  | cons call calls ih => exact .made ih

/-- An interrupted process touches no more files than it would have. -/
theorem Interrupted.spares {path : π} {calls done : List (Call π β)} (h : Interrupted calls done)
    (hcalls : ∀ call ∈ calls, path ∉ call.touches) : ∀ call ∈ done, path ∉ call.touches := by
  induction h with
  | stopped => exact fun call hcall => by cases hcall
  | @torn other bytes part calls front =>
    intro call hcall
    obtain rfl := List.mem_singleton.mp hcall
    exact hcalls (.append other bytes) List.mem_cons_self
  | made rest ih =>
    intro call hcall
    rcases List.mem_cons.mp hcall with rfl | hcall
    · exact hcalls call List.mem_cons_self
    · exact ih (fun c hc => hcalls c (List.mem_cons_of_mem _ hc)) call hcall

/-- The calls that replace the file at a path, by way of a temporary one. -/
def replace (temporary path : π) (content : List β) : List (Call π β) :=
  [.create temporary, .append temporary content, .rename temporary path]

/-- A replacement that is interrupted anywhere has been made, or has left the
file alone. -/
theorem replace_interrupted {temporary path : π} (hbeside : temporary ≠ path) {content : List β}
    {done : List (Call π β)} (h : Interrupted (replace temporary path content) done) :
    done = replace temporary path content ∨ ∀ call ∈ done, path ∉ call.touches := by
  have hspared : ∀ call : Call π β, call.touches = [temporary] → path ∉ call.touches := by
    intro call htouches
    rw [htouches, List.mem_singleton]
    exact hbeside.symm
  cases h with
  | stopped => exact .inr fun call hcall => by cases hcall
  | made rest =>
    cases rest with
    | stopped => exact .inr (List.forall_mem_singleton.mpr (hspared _ rfl))
    | torn =>
      exact .inr (List.forall_mem_cons.mpr
        ⟨hspared _ rfl, List.forall_mem_singleton.mpr (hspared _ rfl)⟩)
    | made rest =>
      cases rest with
      | stopped =>
        exact .inr (List.forall_mem_cons.mpr
          ⟨hspared _ rfl, List.forall_mem_singleton.mpr (hspared _ rfl)⟩)
      | made rest =>
        cases rest
        exact .inl rfl

/-! ## Contents -/

variable [DecidableEq π]

/-- The files after a call. -/
def Call.after (files : π → Option (List β)) : Call π β → π → Option (List β)
  | create path => Function.update files path (some [])
  | append path bytes => Function.update files path ((files path).map (· ++ bytes))
  | remove path => Function.update files path none
  | rename source target =>
      match files source with
      | none => files
      | some content =>
          Function.update (Function.update files source none) target (some content)

theorem Call.after_rename {files : π → Option (List β)} {source target : π} {content : List β}
    (h : files source = some content) :
    (Call.rename source target).after files
      = Function.update (Function.update files source none) target (some content) := by
  simp only [Call.after, h]

/-- The files after some calls. -/
def run (files : π → Option (List β)) (calls : List (Call π β)) : π → Option (List β) :=
  calls.foldl Call.after files

@[simp] theorem run_nil (files : π → Option (List β)) : run files [] = files := rfl

@[simp] theorem run_cons (files : π → Option (List β)) (call : Call π β)
    (calls : List (Call π β)) : run files (call :: calls) = run (call.after files) calls := rfl

variable {files : π → Option (List β)} {path : π}

theorem Call.after_spared {call : Call π β} (h : path ∉ call.touches) :
    call.after files path = files path := by
  cases call with
  | create | append | remove =>
    exact Function.update_of_ne (fun heq => h (by simp [touches, heq])) ..
  | rename source target =>
    simp only [touches, List.mem_cons, List.not_mem_nil, or_false, not_or] at h
    cases hsource : files source with
    | none => simp only [after, hsource]
    | some content =>
      rw [after_rename hsource, Function.update_of_ne h.2, Function.update_of_ne h.1]

theorem run_spared {calls : List (Call π β)} (h : ∀ call ∈ calls, path ∉ call.touches) :
    run files calls path = files path := by
  induction calls generalizing files with
  | nil => rfl
  | cons call calls ih =>
    rw [run_cons, ih fun c hc => h c (List.mem_cons_of_mem _ hc)]
    exact Call.after_spared (h call List.mem_cons_self)

/-- A replacement that runs to its end has put the new file in place; the
temporary one is gone. -/
theorem run_replace {temporary : π} (hbeside : temporary ≠ path) (content : List β) :
    run files (replace temporary path content) path = some content
      ∧ run files (replace temporary path content) temporary = none := by
  have hwritten : (Call.append temporary content).after
      ((Call.create temporary).after files) temporary = some content := by
    simp [Call.after]
  rw [replace, run_cons, run_cons, run_cons, run_nil, Call.after_rename hwritten,
    Function.update_self, Function.update_of_ne hbeside, Function.update_self]
  exact ⟨rfl, rfl⟩

end Files
