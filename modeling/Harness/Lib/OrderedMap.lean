/-
# Harness.Lib.OrderedMap — finite maps that remember the order of insertion.

The `Map` of ECMAScript: `set` on a new key appends an entry, `set` on a known key replaces the value
in place, `delete` removes the entry, iteration is in the order of the entries. The keys of a map are
distinct by construction.

`keys_set` and `keys_delete` say that the key list after an operation is a function of the key list
before it. Two maps that are always written together therefore keep equal key lists, whatever they
hold, and that is an argument about lists of keys only.
-/
import Mathlib.Data.List.Basic
import Mathlib.Data.List.Nodup

namespace Harness.Lib

/-- Entries in insertion order, keys distinct. -/
structure OrderedMap (K V : Type*) where
  entries : List (K × V)
  nodup : (entries.map (·.1)).Nodup

namespace OrderedMap

variable {K V W : Type*}

/-- Keys in insertion order. -/
def keys (m : OrderedMap K V) : List K := m.entries.map (·.1)

/-- Values in insertion order. -/
def values (m : OrderedMap K V) : List V := m.entries.map (·.2)

def size (m : OrderedMap K V) : Nat := m.entries.length

instance : EmptyCollection (OrderedMap K V) := ⟨⟨[], List.nodup_nil⟩⟩

variable [DecidableEq K]

def get (m : OrderedMap K V) (k : K) : Option V := (m.entries.find? fun e => e.1 == k).map (·.2)

/-- Replace the value of `k` where it stands. -/
def replace (es : List (K × V)) (k : K) (v : V) : List (K × V) :=
  es.map fun e => if e.1 = k then (k, v) else e

theorem map_fst_replace (es : List (K × V)) (k : K) (v : V) :
    (replace es k v).map (·.1) = es.map (·.1) := by
  unfold replace
  rw [List.map_map]
  refine List.map_congr_left fun e _ => ?_
  by_cases h : e.1 = k
  · simp [h]
  · simp [h]

def set (m : OrderedMap K V) (k : K) (v : V) : OrderedMap K V :=
  if h : k ∈ m.entries.map (·.1) then
    ⟨replace m.entries k v, by rw [map_fst_replace]; exact m.nodup⟩
  else
    ⟨m.entries ++ [(k, v)], by
      rw [List.map_append]
      exact m.nodup.append (List.nodup_singleton k) (by simpa using h)⟩

def delete (m : OrderedMap K V) (k : K) : OrderedMap K V where
  entries := m.entries.filter fun e => decide (e.1 ≠ k)
  nodup := m.nodup.sublist (List.filter_sublist.map _)

/-! ## Key lists -/

theorem keys_set (m : OrderedMap K V) (k : K) (v : V) :
    (m.set k v).keys = if k ∈ m.keys then m.keys else m.keys ++ [k] := by
  unfold set keys
  split
  · exact map_fst_replace m.entries k v
  · exact List.map_append

theorem keys_delete (m : OrderedMap K V) (k : K) :
    (m.delete k).keys = m.keys.filter fun k' => decide (k' ≠ k) := by
  simp only [keys, delete, List.filter_map]
  rfl

theorem mem_keys_set {m : OrderedMap K V} {k k' : K} {v : V} :
    k' ∈ (m.set k v).keys ↔ k' = k ∨ k' ∈ m.keys := by
  rw [keys_set]
  split
  · rename_i h
    constructor
    · exact Or.inr
    · rintro (rfl | h')
      · exact h
      · exact h'
  · rw [List.mem_append, List.mem_singleton, or_comm]

theorem mem_keys_delete {m : OrderedMap K V} {k k' : K} :
    k' ∈ (m.delete k).keys ↔ k' ∈ m.keys ∧ k' ≠ k := by
  rw [keys_delete, List.mem_filter, decide_eq_true_iff]

/-! ## Entries -/

theorem mem_entries_set {m : OrderedMap K V} {k : K} {v : V} {e : K × V} :
    e ∈ (m.set k v).entries ↔ e = (k, v) ∨ (e ∈ m.entries ∧ e.1 ≠ k) := by
  unfold set
  split
  · rename_i h
    obtain ⟨e₀, he₀, hk⟩ := List.mem_map.mp h
    show e ∈ replace m.entries k v ↔ _
    rw [replace, List.mem_map]
    constructor
    · rintro ⟨d, hd, rfl⟩
      by_cases hdk : d.1 = k
      · exact .inl (if_pos hdk)
      · rw [if_neg hdk]
        exact .inr ⟨hd, hdk⟩
    · rintro (rfl | ⟨he, hne⟩)
      · exact ⟨e₀, he₀, if_pos hk⟩
      · exact ⟨e, he, if_neg hne⟩
  · rename_i h
    show e ∈ m.entries ++ [(k, v)] ↔ _
    rw [List.mem_append, List.mem_singleton, or_comm]
    refine or_congr_right ⟨fun he => ⟨he, fun hk => h ?_⟩, And.left⟩
    exact hk ▸ List.mem_map_of_mem he

theorem mem_entries_delete {m : OrderedMap K V} {k : K} {e : K × V} :
    e ∈ (m.delete k).entries ↔ e ∈ m.entries ∧ e.1 ≠ k := by
  show e ∈ m.entries.filter _ ↔ _
  rw [List.mem_filter, decide_eq_true_iff]

/-! ## Lookup -/

theorem mem_entries_of_get {m : OrderedMap K V} {k : K} {v : V} (h : m.get k = some v) :
    (k, v) ∈ m.entries := by
  obtain ⟨e, he, rfl⟩ := Option.map_eq_some_iff.mp h
  have hk : e.1 = k := by simpa using List.find?_some he
  rw [← hk]
  exact List.mem_of_find?_eq_some he

theorem get_isSome_iff {m : OrderedMap K V} {k : K} : (m.get k).isSome ↔ k ∈ m.keys := by
  simp [get, keys, List.find?_isSome]

theorem mem_keys_of_get {m : OrderedMap K V} {k : K} {v : V} (h : m.get k = some v) :
    k ∈ m.keys :=
  get_isSome_iff.mp (by rw [h]; rfl)

end OrderedMap

end Harness.Lib
