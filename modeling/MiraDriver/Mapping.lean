import Mathlib.Algebra.BigOperators.Group.List.Basic
import Mathlib.Algebra.Ring.Int.Defs
import Mathlib.Algebra.Ring.Nat

/-!
# Insertion-ordered dictionaries

Python's `dict`: each key occurs once, iteration follows first insertion, and
assigning to a key already present replaces its value in place. The keys of a
value of `Dict` are distinct by construction.
-/
namespace MiraDriver.Mapping

variable {κ ν : Type} [DecidableEq κ]

/-- Assign on the bare list of entries. -/
def put (k : κ) (v : ν) : List (κ × ν) → List (κ × ν)
  | [] => [(k, v)]
  | e :: rest => if e.1 = k then (k, v) :: rest else e :: put k v rest

theorem mem_keys_put (k j : κ) (v : ν) (l : List (κ × ν)) :
    j ∈ (put k v l).map Prod.fst ↔ j = k ∨ j ∈ l.map Prod.fst := by
  induction l with
  | nil => simp [put]
  | cons e rest ih =>
    by_cases h : e.1 = k
    · simp [put, h]
    · simp only [put, if_neg h, List.map_cons, List.mem_cons, ih]
      exact or_left_comm

theorem length_put_le (k : κ) (v : ν) (l : List (κ × ν)) : (put k v l).length ≤ l.length + 1 := by
  induction l with
  | nil => simp [put]
  | cons e l ih =>
    unfold put
    split
    · simp
    · rw [List.length_cons, List.length_cons]
      omega

theorem mem_put {k : κ} {v : ν} {l : List (κ × ν)} {e : κ × ν} (h : e ∈ put k v l) :
    e = (k, v) ∨ e ∈ l := by
  induction l with
  | nil => exact .inl (List.mem_singleton.mp h)
  | cons f l ih =>
    unfold put at h
    split at h
    · exact (List.mem_cons.mp h).imp_right (List.mem_cons_of_mem f)
    · cases List.mem_cons.mp h with
      | inl h => exact .inr (h ▸ List.mem_cons_self)
      | inr h => exact (ih h).imp_right (List.mem_cons_of_mem f)

theorem nodup_put (k : κ) (v : ν) (l : List (κ × ν)) (h : (l.map Prod.fst).Nodup) :
    ((put k v l).map Prod.fst).Nodup := by
  induction l with
  | nil => simp [put]
  | cons e rest ih =>
    rw [List.map_cons, List.nodup_cons] at h
    by_cases hk : e.1 = k
    · subst hk
      simpa only [put, ↓reduceIte, List.map_cons, List.nodup_cons] using h
    · simp only [put, if_neg hk, List.map_cons, List.nodup_cons, mem_keys_put]
      exact ⟨by simpa [hk] using h.1, ih h.2⟩

/-- A map that leaves the keys as they are. -/
theorem map_put {ω : Type} {f : κ × ν → κ × ω} (hf : ∀ e, (f e).1 = e.1) (k : κ) (v : ν) (l : List (κ × ν)) :
    (put k v l).map f = put k (f (k, v)).2 (l.map f) := by
  have hk : f (k, v) = (k, (f (k, v)).2) := Prod.ext (hf (k, v)) rfl
  induction l with
  | nil => rw [put, List.map_singleton, List.map_nil, put, ← hk]
  | cons e l ih =>
    rw [put, List.map_cons, put, hf e]
    split
    · rw [List.map_cons, ← hk]
    · rw [List.map_cons, ih]

/-- The value stored under a key of the bare list. -/
def find (k : κ) : List (κ × ν) → Option ν
  | [] => none
  | e :: rest => if e.1 = k then some e.2 else find k rest

theorem find_put (k j : κ) (v : ν) (l : List (κ × ν)) :
    find j (put k v l) = if k = j then some v else find j l := by
  induction l with
  | nil => simp [put, find]
  | cons e rest ih =>
    by_cases h : e.1 = k
    · by_cases hj : k = j <;> simp [put, find, h, hj]
    · by_cases hj : k = j
      · subst hj
        simp [put, find, h, ih]
      · simp [put, find, h, ih, hj]

theorem find_eq_some_iff (k : κ) (v : ν) (l : List (κ × ν)) (h : (l.map Prod.fst).Nodup) :
    find k l = some v ↔ (k, v) ∈ l := by
  induction l with
  | nil => simp [find]
  | cons e rest ih =>
    obtain ⟨a, b⟩ := e
    rw [List.map_cons, List.nodup_cons] at h
    by_cases ha : a = k
    · subst ha
      have hnot : (a, v) ∉ rest := fun hm => h.1 (List.mem_map.mpr ⟨_, hm, rfl⟩)
      simp [find, hnot, eq_comm]
    · have hne : k ≠ a := fun he => ha he.symm
      simp [find, ha, hne, ih h.2]

structure Dict (κ ν : Type) where
  entries : List (κ × ν)
  nodup : (entries.map Prod.fst).Nodup

namespace Dict

def empty : Dict κ ν := ⟨[], List.nodup_nil⟩

def get? (d : Dict κ ν) (k : κ) : Option ν := find k d.entries

def set (d : Dict κ ν) (k : κ) (v : ν) : Dict κ ν := ⟨put k v d.entries, nodup_put k v _ d.nodup⟩

def erase (d : Dict κ ν) (k : κ) : Dict κ ν :=
  ⟨d.entries.filter (fun e => e.1 ≠ k), (List.filter_sublist.map Prod.fst).nodup d.nodup⟩

def keys (d : Dict κ ν) : List κ := d.entries.map Prod.fst

def values (d : Dict κ ν) : List ν := d.entries.map Prod.snd

/-- `dict(pairs)`: a later pair overwrites an earlier one with its key. -/
def ofList (l : List (κ × ν)) : Dict κ ν := l.foldl (fun d e => d.set e.1 e.2) empty

@[simp] theorem get?_empty (k : κ) : (empty : Dict κ ν).get? k = none := rfl

theorem get?_set (d : Dict κ ν) (k j : κ) (v : ν) :
    (d.set k v).get? j = if k = j then some v else d.get? j := find_put k j v d.entries

@[simp] theorem get?_set_self (d : Dict κ ν) (k : κ) (v : ν) : (d.set k v).get? k = some v := by
  simp [get?_set]

theorem get?_set_ne (d : Dict κ ν) (k j : κ) (v : ν) (h : k ≠ j) :
    (d.set k v).get? j = d.get? j := by simp [get?_set, h]

@[simp] theorem mem_keys_set (d : Dict κ ν) (k j : κ) (v : ν) :
    j ∈ (d.set k v).keys ↔ j = k ∨ j ∈ d.keys := mem_keys_put k j v d.entries

theorem get?_eq_some_iff (d : Dict κ ν) (k : κ) (v : ν) :
    d.get? k = some v ↔ (k, v) ∈ d.entries := find_eq_some_iff k v d.entries d.nodup

theorem mem_keys_foldl_set (k : κ) (l : List (κ × ν)) (d : Dict κ ν) :
    k ∈ (l.foldl (fun d e => d.set e.1 e.2) d).keys ↔ k ∈ l.map Prod.fst ∨ k ∈ d.keys := by
  induction l generalizing d with
  | nil => simp
  | cons e rest ih =>
    rw [List.foldl_cons, ih, mem_keys_set, List.map_cons, List.mem_cons]
    tauto

theorem mem_keys_ofList (k : κ) (l : List (κ × ν)) : k ∈ (ofList l).keys ↔ k ∈ l.map Prod.fst := by
  rw [ofList, mem_keys_foldl_set]
  simp [keys, empty]

theorem get?_foldl_set_of_not_mem (k : κ) (l : List (κ × ν)) (d : Dict κ ν)
    (h : k ∉ l.map Prod.fst) : (l.foldl (fun d e => d.set e.1 e.2) d).get? k = d.get? k := by
  induction l generalizing d with
  | nil => rfl
  | cons e rest ih =>
    rw [List.map_cons, List.mem_cons, not_or] at h
    rw [List.foldl_cons, ih _ h.2, get?_set_ne d e.1 k e.2 (Ne.symm h.1)]

/-- Pairs with distinct keys are all found. -/
theorem get?_ofList_eq_some (k : κ) (v : ν) (l : List (κ × ν)) (hl : (l.map Prod.fst).Nodup)
    (h : (k, v) ∈ l) : (ofList l).get? k = some v := by
  obtain ⟨l₁, l₂, rfl⟩ := List.append_of_mem h
  have hk : k ∉ l₂.map Prod.fst := by
    rw [List.map_append, List.map_cons, List.nodup_append] at hl
    exact (List.nodup_cons.mp hl.2.1).1
  rw [ofList, List.foldl_append, List.foldl_cons, get?_foldl_set_of_not_mem k l₂ _ hk, get?_set_self]

theorem get?_ofList_eq_none (k : κ) (l : List (κ × ν)) (h : k ∉ l.map Prod.fst) :
    (ofList l).get? k = none := by
  rw [ofList, get?_foldl_set_of_not_mem k l _ h, get?_empty]

/-- `defaultdict(list)`: the values of each key, in order. -/
def group (l : List (κ × ν)) : Dict κ (List ν) :=
  l.foldl (fun d e => d.set e.1 ((d.get? e.1).getD [] ++ [e.2])) empty

/-- The values that a list of pairs holds for a key. -/
def matching (k : κ) (l : List (κ × ν)) : List ν := (l.filter (fun e => e.1 = k)).map Prod.snd

theorem matching_cons (k : κ) (e : κ × ν) (l : List (κ × ν)) :
    matching k (e :: l) = if e.1 = k then e.2 :: matching k l else matching k l := by
  by_cases h : e.1 = k <;> simp [matching, h]

theorem get?_foldl_append (k : κ) (l : List (κ × ν)) (d : Dict κ (List ν)) :
    (l.foldl (fun d e => d.set e.1 ((d.get? e.1).getD [] ++ [e.2])) d).get? k =
      if matching k l = [] then d.get? k else some ((d.get? k).getD [] ++ matching k l) := by
  induction l generalizing d with
  | nil => simp [matching]
  | cons e rest ih =>
    rw [List.foldl_cons, ih, matching_cons]
    by_cases h : e.1 = k
    · subst h
      by_cases hm : matching e.1 rest = [] <;> simp [hm]
    · simp [get?_set_ne d e.1 k _ h, h]

theorem get?_group (k : κ) (l : List (κ × ν)) :
    (group l).get? k = if matching k l = [] then none else some (matching k l) := by
  rw [group, get?_foldl_append]
  simp

/-- The groups are the keys that occur, each with all of its values. -/
theorem mem_entries_group (k : κ) (items : List ν) (l : List (κ × ν)) :
    (k, items) ∈ (group l).entries ↔ items = matching k l ∧ items ≠ [] := by
  rw [← get?_eq_some_iff, get?_group]
  split
  · rename_i h
    simp_all
  · rename_i h
    simp only [Option.some.injEq]
    exact ⟨fun he => ⟨he.symm, he ▸ h⟩, fun he => he.1.symm⟩

theorem mem_matching (k : κ) (v : ν) (l : List (κ × ν)) : v ∈ matching k l ↔ (k, v) ∈ l := by
  simp [matching]

/-- A grouping is determined by its keys. -/
theorem entries_group (l : List (κ × ν)) :
    (group l).entries = (group l).keys.map fun k => (k, matching k l) := by
  rw [keys, List.map_map]
  have hid : ∀ e ∈ (group l).entries, e = (e.1, matching e.1 l) := by
    rintro ⟨k, items⟩ he
    rw [((mem_entries_group k items l).mp he).1]
  conv_lhs => rw [← List.map_id (group l).entries]
  exact List.map_congr_left hid

theorem mem_keys_group (k : κ) (l : List (κ × ν)) : k ∈ (group l).keys ↔ ∃ v, (k, v) ∈ l := by
  simp only [← mem_matching]
  constructor
  · intro h
    obtain ⟨⟨_, items⟩, he, rfl⟩ := List.mem_map.mp h
    obtain ⟨rfl, hne⟩ := (mem_entries_group _ items l).mp he
    exact List.exists_mem_of_ne_nil _ hne
  · rintro ⟨v, hv⟩
    exact List.mem_map.mpr ⟨(k, matching k l),
      (mem_entries_group k _ l).mpr ⟨rfl, List.ne_nil_of_mem hv⟩, rfl⟩

omit [DecidableEq κ] in
theorem nodup_keys (d : Dict κ ν) : d.keys.Nodup := d.nodup

/-- Permuting the pairs permutes the keys. -/
theorem keys_group_perm {l l' : List (κ × ν)} (h : l.Perm l') :
    (group l).keys.Perm (group l').keys := by
  rw [List.perm_ext_iff_of_nodup (nodup_keys _) (nodup_keys _)]
  intro k
  simp only [mem_keys_group, h.mem_iff]

theorem sum_indicator {keys : List κ} (hkeys : keys.Nodup) {k : κ} (hk : k ∈ keys) :
    (keys.map fun j => if k = j then 1 else 0).sum = 1 := by
  induction keys with
  | nil => cases hk
  | cons j keys ih =>
    obtain ⟨hj, hkeys⟩ := List.nodup_cons.mp hkeys
    rw [List.map_cons, List.sum_cons]
    by_cases h : k = j
    · subst h
      have hzero : ∀ i ∈ keys, (if k = i then 1 else 0) = 0 := by
        intro i hi
        rw [if_neg]
        rintro rfl
        exact hj hi
      rw [if_pos rfl, List.map_congr_left hzero]
      simp
    · rw [if_neg h, ih hkeys ((List.mem_cons.mp hk).resolve_left h)]

/-- Distinct keys that occur for every pair split the pairs among them. -/
theorem sum_length_matching {keys : List κ} (hkeys : keys.Nodup) {l : List (κ × ν)}
    (hcover : ∀ e ∈ l, e.1 ∈ keys) : (keys.map fun k => (matching k l).length).sum = l.length := by
  induction l with
  | nil => simp [matching]
  | cons e l ih =>
    have hcons : ∀ k, (matching k (e :: l)).length =
        (if e.1 = k then 1 else 0) + (matching k l).length := by
      intro k
      rw [matching_cons]
      split
      · rw [List.length_cons, Nat.add_comm]
      · rw [Nat.zero_add]
    simp only [hcons]
    rw [List.sum_map_add, sum_indicator hkeys (hcover e List.mem_cons_self),
      ih fun d hd => hcover d (List.mem_cons_of_mem e hd), List.length_cons, Nat.add_comm]

end Dict

end MiraDriver.Mapping
