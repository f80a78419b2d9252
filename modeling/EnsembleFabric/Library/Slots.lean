import Mathlib.Data.List.Forall2

/-!
# Lists of slots

A list whose positions are slots that change in place: a step relates the
list before and after position by position (`List.Forall₂`). Lookups by a
key that no step changes find related slots.

The first group of lemmas makes such relations: from a write at one
position (`forall₂_set`), from a change of one slot (`forall₂_modify`),
from a change of all (`forall₂_map`). The second group reads them: a slot
on one side has its partner on the other (`exists_left`,
`exists_right`), at the same position (`forall₂_getElem?`). The third is
about lookups: the first slots that pass a test are related when the test
reads a key (`find?_related`), and where keys are all different a slot is
found by its own key (`find?_of_nodup`).
-/

namespace Slots

open List

variable {α β κ : Type*}

theorem forall₂_set {R : α → α → Prop} (hrefl : ∀ a, R a a) {xs : List α} {i : Nat} {a b : α}
    (ha : xs[i]? = some a) (hab : R a b) : Forall₂ R xs (xs.set i b) := by
  induction xs generalizing i with
  | nil => simp at ha
  | cons x xs ih =>
    cases i with
    | zero =>
      obtain rfl : x = a := by simpa using ha
      exact .cons hab (forall₂_same.mpr fun y _ => hrefl y)
    | succ i => exact .cons (hrefl x) (ih (by simpa using ha))

theorem forall₂_modify {R : α → α → Prop} (hrefl : ∀ a, R a a) {f : α → α}
    (h : ∀ a, R a (f a)) (xs : List α) (i : Nat) : Forall₂ R xs (xs.modify i f) := by
  induction xs generalizing i with
  | nil => simp
  | cons x xs ih =>
    cases i with
    | zero => exact .cons (h x) (forall₂_same.mpr fun y _ => hrefl y)
    | succ i => exact .cons (hrefl x) (ih i)

theorem forall₂_map {R : α → α → Prop} {f : α → α} {xs : List α} (h : ∀ a ∈ xs, R a (f a)) :
    Forall₂ R xs (xs.map f) := by
  rw [forall₂_map_right_iff, forall₂_same]
  exact h

theorem exists_left {R : α → β → Prop} {xs : List α} {ys : List β} (h : Forall₂ R xs ys) {b : β}
    (hb : b ∈ ys) : ∃ a ∈ xs, R a b := by
  induction h with
  | nil => simp at hb
  | cons hab _ ih =>
    rcases List.mem_cons.mp hb with rfl | hb
    · exact ⟨_, mem_cons_self, hab⟩
    · obtain ⟨a, ha, hr⟩ := ih hb
      exact ⟨a, mem_cons_of_mem _ ha, hr⟩

theorem exists_right {R : α → β → Prop} {xs : List α} {ys : List β} (h : Forall₂ R xs ys)
    {a : α} (ha : a ∈ xs) : ∃ b ∈ ys, R a b := by
  induction h with
  | nil => simp at ha
  | cons hab _ ih =>
    rcases List.mem_cons.mp ha with rfl | ha
    · exact ⟨_, mem_cons_self, hab⟩
    · obtain ⟨b, hb, hr⟩ := ih ha
      exact ⟨b, mem_cons_of_mem _ hb, hr⟩

theorem forall₂_trans {R : α → α → Prop} (htrans : ∀ {a b c}, R a b → R b c → R a c)
    {xs ys zs : List α} (h : Forall₂ R xs ys) (h' : Forall₂ R ys zs) : Forall₂ R xs zs := by
  induction h generalizing zs with
  | nil => exact h'
  | cons hab _ ih =>
    obtain ⟨c, rest, hbc, hrest, rfl⟩ := forall₂_cons_left_iff.mp h'
    exact .cons (htrans hab hbc) (ih hrest)

/-- Slots at one position are related. -/
theorem forall₂_getElem? {R : α → β → Prop} {xs : List α} {ys : List β} (h : Forall₂ R xs ys)
    {i : Nat} {a : α} {b : β} (ha : xs[i]? = some a) (hb : ys[i]? = some b) : R a b := by
  induction h generalizing i with
  | nil => cases ha
  | cons hab _ ih =>
    cases i with
    | zero =>
      obtain rfl := Option.some.inj ha
      obtain rfl := Option.some.inj hb
      exact hab
    | succ i => exact ih ha hb

/-- A key that no step changes reads the same before and after. -/
theorem map_key {R : α → β → Prop} {key : α → κ} {key' : β → κ}
    (hkey : ∀ {a b}, R a b → key' b = key a) {xs : List α} {ys : List β} (h : Forall₂ R xs ys) :
    ys.map key' = xs.map key := by
  induction h with
  | nil => rfl
  | cons hab _ ih => rw [map_cons, map_cons, hkey hab, ih]

/-- Writing a slot under the key it has. -/
theorem map_key_set {key : α → κ} {xs : List α} {i : Nat} {a b : α} (ha : xs[i]? = some a)
    (hkey : key b = key a) : (xs.set i b).map key = xs.map key :=
  map_key (R := fun a b => key b = key a) (fun h => h)
    (forall₂_set (R := fun a b => key b = key a) (fun _ => rfl) ha hkey)

/-- The first slots with a key are related, or neither list has one. -/
theorem find?_related {R : α → β → Prop} (test : α → Bool) (test' : β → Bool)
    (htest : ∀ {a b}, R a b → test' b = test a) {xs : List α} {ys : List β}
    (h : Forall₂ R xs ys) :
    (xs.find? test = none ∧ ys.find? test' = none)
      ∨ ∃ a b, xs.find? test = some a ∧ ys.find? test' = some b ∧ R a b := by
  induction h with
  | nil => exact .inl ⟨rfl, rfl⟩
  | @cons x y xs ys hab _ ih =>
    cases hx : test x with
    | true =>
      have hy : test' y = true := (htest hab).trans hx
      exact .inr ⟨x, y, find?_cons_of_pos hx, find?_cons_of_pos hy, hab⟩
    | false =>
      have hy : test' y = false := (htest hab).trans hx
      rwa [find?_cons_of_neg (by simp [hx]), find?_cons_of_neg (by simp [hy])]

/-- The first slot with a key is followed by the first slot with that key. -/
theorem find?_follows {R : α → β → Prop} (test : α → Bool) (test' : β → Bool)
    (htest : ∀ {a b}, R a b → test' b = test a) {xs : List α} {ys : List β}
    (h : Forall₂ R xs ys) {a : α} (ha : xs.find? test = some a) :
    ∃ b, ys.find? test' = some b ∧ R a b := by
  rcases find?_related test test' htest h with ⟨hnone, -⟩ | ⟨a', b, ha', hb, hab⟩
  · rw [hnone] at ha
    cases ha
  · obtain rfl := Option.some.inj (ha.symm.trans ha')
    exact ⟨b, hb, hab⟩

/-- A first position and the slot there are the first slot. -/
theorem find?_of_findIdx? {test : α → Bool} {xs : List α} {i : Nat} {a : α}
    (hi : xs.findIdx? test = some i) (ha : xs[i]? = some a) : xs.find? test = some a := by
  obtain ⟨hlt, htrue, hbefore⟩ := List.findIdx?_eq_some_iff_getElem.mp hi
  rw [List.find?_eq_some_iff_getElem]
  have hget : xs[i] = a := by
    rw [List.getElem?_eq_getElem hlt] at ha
    exact Option.some.inj ha
  subst hget
  exact ⟨htrue, i, hlt, rfl, fun j hj => by simpa using hbefore j hj⟩

/-- Replacing the first slot with a key by one with that key. -/
theorem find?_set {test : α → Bool} {xs : List α} {i : Nat} {b : α}
    (hi : xs.findIdx? test = some i) (hb : test b = true) : (xs.set i b).find? test = some b := by
  obtain ⟨hlt, -, hbefore⟩ := List.findIdx?_eq_some_iff_getElem.mp hi
  rw [List.find?_eq_some_iff_getElem]
  refine ⟨hb, i, by simpa using hlt, by simp, fun j hj => ?_⟩
  rw [List.getElem_set_ne (by omega)]
  simpa using hbefore j hj

/-- Replacing a slot that is not looked for by another one. -/
theorem find?_set_of_neg {test : α → Bool} {xs : List α} {i : Nat} {a b : α}
    (ha : xs[i]? = some a) (hta : test a = false) (htb : test b = false) :
    (xs.set i b).find? test = xs.find? test := by
  induction xs generalizing i with
  | nil => rfl
  | cons x xs ih =>
    cases i with
    | zero =>
      obtain rfl : x = a := by simpa using ha
      rw [set_cons_zero, find?_cons_of_neg (by simp [htb]), find?_cons_of_neg (by simp [hta])]
    | succ i =>
      rw [set_cons_succ, find?_cons, find?_cons, ih (by simpa using ha)]

/-- Where keys are all different, a slot is found by its key. -/
theorem find?_of_nodup [BEq κ] [LawfulBEq κ] {key : α → κ} {xs : List α}
    (h : (xs.map key).Nodup) {a : α} (ha : a ∈ xs) :
    xs.find? (fun b => key b == key a) = some a := by
  induction xs with
  | nil => cases ha
  | cons x xs ih =>
    rw [map_cons, nodup_cons] at h
    rcases List.mem_cons.mp ha with rfl | hrest
    · exact find?_cons_of_pos (by simp)
    · have hne : key x ≠ key a := by
        intro heq
        exact h.1 (heq ▸ mem_map_of_mem hrest)
      rw [find?_cons_of_neg (by simpa using hne)]
      exact ih h.2 hrest

/-- Where keys are all different, changing the first slot with a key changes
every slot with it. -/
theorem modify_found [BEq κ] [LawfulBEq κ] {key : α → κ} {xs : List α}
    (h : (xs.map key).Nodup) (k : κ) (f : α → α) :
    ((xs.findIdx? (key · == k)).elim xs fun i => xs.modify i f)
      = xs.map fun a => if key a == k then f a else a := by
  induction xs with
  | nil => rfl
  | cons x xs ih =>
    rw [map_cons, nodup_cons] at h
    rw [findIdx?_cons, map_cons]
    cases hx : key x == k with
    | true =>
      have hrest : ∀ a ∈ xs, (if key a == k then f a else a) = a := by
        intro a ha
        refine if_neg fun hak => h.1 ?_
        rw [eq_of_beq hx, ← eq_of_beq hak]
        exact mem_map_of_mem ha
      rw [if_pos rfl, if_pos rfl, map_congr_left hrest, map_id']
      rfl
    | false =>
      rw [if_neg (by simp), if_neg (by simp), ← ih h.2]
      cases findIdx? (key · == k) xs <;> rfl

theorem findIdx?_of_find? {test : α → Bool} {xs : List α} {a : α}
    (h : xs.find? test = some a) : ∃ i, xs.findIdx? test = some i ∧ xs[i]? = some a := by
  obtain ⟨htrue, i, hlt, hget, hbefore⟩ := List.find?_eq_some_iff_getElem.mp h
  refine ⟨i, List.findIdx?_eq_some_iff_getElem.mpr ⟨hlt, by rw [hget]; exact htrue, ?_⟩, ?_⟩
  · intro j hj
    simpa using hbefore j hj
  · rw [List.getElem?_eq_getElem hlt, hget]

end Slots
