import Mathlib

/-!
# Tables

A finite map as the list of its entries, no key twice: a `HashMap` without the order of its entries,
which is the list's and means nothing.  Every operation is a filter, possibly with one entry in
front, so what a table holds afterwards is said once by `get_retain` and `get_insert`.
-/

set_option autoImplicit false

/-- A finite map from `κ` to `ν`. -/
structure Table (κ ν : Type) where
  entries : List (κ × ν)
  nodup : (entries.map Prod.fst).Nodup

namespace Table

variable {κ ν : Type} [DecidableEq κ]

def empty : Table κ ν := ⟨[], List.nodup_nil⟩

def size (t : Table κ ν) : ℕ := t.entries.length

def get (t : Table κ ν) (k : κ) : Option ν := (t.entries.find? fun e ↦ e.1 = k).map Prod.snd

/-- Keep the entries that satisfy `p`. -/
def retain (t : Table κ ν) (p : κ → ν → Bool) : Table κ ν where
  entries := t.entries.filter fun e ↦ p e.1 e.2
  nodup := t.nodup.sublist (List.filter_sublist.map _)

def erase (t : Table κ ν) (k : κ) : Table κ ν := t.retain fun k' _ ↦ k' ≠ k

def insert (t : Table κ ν) (k : κ) (v : ν) : Table κ ν where
  entries := (k, v) :: (t.erase k).entries
  nodup := by
    rw [List.map_cons, List.nodup_cons]
    refine ⟨fun hmem ↦ ?_, (t.erase k).nodup⟩
    obtain ⟨e, he, hk⟩ := List.mem_map.mp hmem
    exact absurd hk (by simpa using (List.mem_filter.mp he).2)

variable {t : Table κ ν} {k k' : κ} {v : ν} {p : κ → ν → Bool}

/-! ## Looking up -/

theorem get_eq_some_iff : t.get k = some v ↔ (k, v) ∈ t.entries := by
  constructor
  · intro h
    obtain ⟨e, he, rfl⟩ := Option.map_eq_some_iff.mp h
    have hk : e.1 = k := by simpa using List.find?_some he
    exact hk ▸ List.mem_of_find?_eq_some he
  · intro h
    have hsome : (t.entries.find? fun e ↦ e.1 = k).isSome = true :=
      List.find?_isSome.mpr ⟨(k, v), h, by simp⟩
    obtain ⟨e, he⟩ := Option.isSome_iff_exists.mp hsome
    have hk : e.1 = k := by simpa using List.find?_some he
    have heq : e = (k, v) :=
      List.inj_on_of_nodup_map t.nodup (List.mem_of_find?_eq_some he) h hk
    rw [get, he, heq]
    rfl

theorem get_retain_eq_some_iff :
    (t.retain p).get k = some v ↔ t.get k = some v ∧ p k v = true := by
  rw [get_eq_some_iff, get_eq_some_iff, retain, List.mem_filter]

theorem get_erase_eq_some_iff : (t.erase k').get k = some v ↔ t.get k = some v ∧ k ≠ k' := by
  rw [erase, get_retain_eq_some_iff, decide_eq_true_eq]

theorem get_erase_self : (t.erase k).get k = none :=
  Option.eq_none_iff_forall_ne_some.mpr fun _ h ↦ (get_erase_eq_some_iff.mp h).2 rfl

theorem get_erase_of_ne (h : k ≠ k') : (t.erase k').get k = t.get k :=
  Option.ext fun v ↦ by rw [get_erase_eq_some_iff, and_iff_left h]

theorem get_insert_self : (t.insert k v).get k = some v :=
  get_eq_some_iff.mpr List.mem_cons_self

theorem get_insert_of_ne (h : k ≠ k') : (t.insert k' v).get k = t.get k := by
  refine Option.ext fun w ↦ ?_
  rw [get_eq_some_iff, insert, List.mem_cons, ← get_eq_some_iff, get_erase_of_ne h,
    or_iff_right fun heq ↦ h (congrArg Prod.fst heq)]

@[simp] theorem get_empty : (empty : Table κ ν).get k = none := rfl

/-! ## Counting -/

omit [DecidableEq κ] in
theorem size_retain_le : (t.retain p).size ≤ t.size := List.length_filter_le _ _

theorem size_erase_le : (t.erase k).size ≤ t.size := size_retain_le

/-- Erasing an entry makes room for one. -/
theorem size_erase_of_get (h : t.get k = some v) : (t.erase k).size < t.size :=
  List.length_filter_lt_length_iff_exists.mpr ⟨(k, v), get_eq_some_iff.mp h, by simp⟩

theorem size_insert_le : (t.insert k v).size ≤ t.size + 1 := Nat.succ_le_succ size_erase_le

/-- The keys, as many as the entries. -/
def keys (t : Table κ ν) : Finset κ := (t.entries.map Prod.fst).toFinset

theorem mem_keys : k ∈ t.keys ↔ ∃ v, t.get k = some v := by
  simp [keys, get_eq_some_iff]

theorem card_keys : t.keys.card = t.size := by
  rw [keys, List.toFinset_card_of_nodup t.nodup, List.length_map, size]

end Table
