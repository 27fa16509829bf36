import Mathlib.Data.List.AList
import Mathlib.Data.Multiset.Filter

/-!
# Maps without a fixed iteration order

An unordered map is an association list with distinct keys, and its
operations carry the names they have in C++. What a program computes from
such a map must not depend on the order of iteration, so the values are read
as a multiset.
-/

namespace ByeByeVpn

universe u v

/-- A finite map from `κ` to `ν`. The keys are distinct. -/
abbrev KeyMap (κ : Type u) (ν : Type v) := AList fun _ : κ => ν

namespace KeyMap

variable {κ : Type u} {ν : Type v}

def size (m : KeyMap κ ν) : Nat := m.entries.length

def values (m : KeyMap κ ν) : Multiset ν := (m.entries.map Sigma.snd : List ν)

def keySet (m : KeyMap κ ν) : Multiset κ := (AList.keys m : List κ)

def eraseIf (p : κ → ν → Bool) (m : KeyMap κ ν) : KeyMap κ ν :=
  ⟨m.entries.filter fun e => !p e.1 e.2, m.nodupKeys.sublist List.filter_sublist⟩

def valuesIf (p : κ → ν → Bool) (m : KeyMap κ ν) : Multiset ν :=
  ((m.entries.filter fun e => p e.1 e.2).map Sigma.snd : List ν)

@[simp] theorem size_empty : size (∅ : KeyMap κ ν) = 0 := rfl
@[simp] theorem values_empty : values (∅ : KeyMap κ ν) = 0 := rfl
@[simp] theorem keySet_empty : keySet (∅ : KeyMap κ ν) = 0 := rfl

@[simp] theorem card_values (m : KeyMap κ ν) : m.values.card = m.size := by
  simp [values, size]

theorem size_eq_zero {m : KeyMap κ ν} : m.size = 0 ↔ m = ∅ := by
  constructor
  · exact fun h => AList.ext (List.length_eq_zero_iff.mp h)
  · rintro rfl
    rfl

theorem keySet_eq_zero {m : KeyMap κ ν} : m.keySet = 0 ↔ m = ∅ := by
  rw [← size_eq_zero, ← Multiset.card_eq_zero, keySet, Multiset.coe_card, AList.keys, List.keys,
    List.length_map, size]

theorem values_eraseIf (p : κ → ν → Bool) (m : KeyMap κ ν) :
    m.values = m.valuesIf p + (m.eraseIf p).values := by
  simp only [values, valuesIf, eraseIf, Multiset.coe_add, Multiset.coe_eq_coe]
  rw [← List.map_append]
  exact ((List.filter_append_perm _ _).map _).symm

theorem size_eraseIf (p : κ → ν → Bool) (m : KeyMap κ ν) :
    m.size = (m.valuesIf p).card + (m.eraseIf p).size := by
  rw [← card_values m, values_eraseIf p m, Multiset.card_add, card_values]

theorem mem_keySet {k : κ} {m : KeyMap κ ν} : k ∈ m.keySet ↔ k ∈ m := by
  rw [keySet, Multiset.mem_coe, AList.mem_keys]

section
variable [DecidableEq κ]

def find (k : κ) (m : KeyMap κ ν) : Option ν := AList.lookup k m

def erase (k : κ) (m : KeyMap κ ν) : KeyMap κ ν := AList.erase k m

/-- An entry under a key that is present is left as it is. -/
def emplace (k : κ) (v : ν) (m : KeyMap κ ν) : KeyMap κ ν :=
  if k ∈ m then m else AList.insert k v m

theorem mem_of_find {k : κ} {v : ν} {m : KeyMap κ ν} (h : m.find k = some v) : k ∈ m :=
  AList.lookup_isSome.mp (by rw [find] at h; simp [h])

theorem exists_find {k : κ} {m : KeyMap κ ν} (h : k ∈ m) : ∃ v, m.find k = some v :=
  Option.isSome_iff_exists.mp (AList.lookup_isSome.mpr h)

@[simp] theorem find_empty (k : κ) : find k (∅ : KeyMap κ ν) = none := AList.lookup_empty k

theorem entries_emplace {k : κ} {m : KeyMap κ ν} (v : ν) (h : k ∉ m) :
    (m.emplace k v).entries = ⟨k, v⟩ :: m.entries := by
  rw [emplace, if_neg h, AList.entries_insert_of_notMem h]

theorem size_emplace {k : κ} {m : KeyMap κ ν} (v : ν) (h : k ∉ m) :
    (m.emplace k v).size = m.size + 1 := by
  simp [size, entries_emplace v h]

theorem values_emplace {k : κ} {m : KeyMap κ ν} (v : ν) (h : k ∉ m) :
    (m.emplace k v).values = v ::ₘ m.values := by
  simp [values, entries_emplace v h]

theorem mem_emplace {k k' : κ} {v : ν} {m : KeyMap κ ν} :
    k' ∈ m.emplace k v ↔ k' = k ∨ k' ∈ m := by
  unfold emplace
  split
  · next h => exact ⟨.inr, fun h' => h'.elim (fun e => e ▸ h) id⟩
  · exact AList.mem_insert m

theorem find_emplace {k k' : κ} {v : ν} {m : KeyMap κ ν} (h : k ∉ m) :
    (m.emplace k v).find k' = if k' = k then some v else m.find k' := by
  rw [emplace, if_neg h]
  split
  · next e =>
    subst e
    exact AList.lookup_insert m
  · next e => exact AList.lookup_insert_ne e

theorem find_eraseIf {p : κ → ν → Bool} {k : κ} {v : ν} {m : KeyMap κ ν} :
    (m.eraseIf p).find k = some v ↔ m.find k = some v ∧ p k v = false := by
  simp only [find, ← Option.mem_def, AList.mem_lookup_iff, eraseIf, List.mem_filter,
    Bool.not_eq_true']

theorem mem_eraseIf {p : κ → ν → Bool} {k : κ} {m : KeyMap κ ν} :
    k ∈ m.eraseIf p ↔ ∃ v, m.find k = some v ∧ p k v = false := by
  simp only [← find_eraseIf]
  exact ⟨exists_find, fun ⟨_, hv⟩ => mem_of_find hv⟩

theorem values_erase {k : κ} {v : ν} {m : KeyMap κ ν} (h : m.find k = some v) :
    m.values = v ::ₘ (m.erase k).values := by
  obtain ⟨w, l₁, l₂, hk, he, hr⟩ := List.exists_of_kerase (AList.mem_keys.mp (mem_of_find h))
  have hw : w = v := by
    have hd : m.entries.dlookup k = some v := h
    rw [he, List.dlookup_append, List.dlookup_eq_none.mpr hk] at hd
    simpa using hd
  subst hw
  have hv : (m.erase k).values = ((l₁ ++ l₂).map Sigma.snd : List ν) := by
    rw [← hr]
    rfl
  rw [hv, values, he, Multiset.cons_coe, Multiset.coe_eq_coe]
  simp

theorem size_erase {k : κ} {v : ν} {m : KeyMap κ ν} (h : m.find k = some v) :
    m.size = (m.erase k).size + 1 := by
  rw [← card_values m, values_erase h, Multiset.card_cons, card_values]

theorem find_erase {k k' : κ} {m : KeyMap κ ν} :
    (m.erase k).find k' = if k' = k then none else m.find k' := by
  split
  · next e =>
    subst e
    exact AList.lookup_erase k' m
  · next e => exact AList.lookup_erase_ne e

theorem mem_erase {k k' : κ} {m : KeyMap κ ν} : k' ∈ m.erase k ↔ k' ≠ k ∧ k' ∈ m :=
  AList.mem_erase

theorem keySet_emplace {k : κ} {m : KeyMap κ ν} (v : ν) (h : k ∉ m) :
    (m.emplace k v).keySet = k ::ₘ m.keySet := by
  simp [keySet, AList.keys, List.keys, entries_emplace v h]

theorem keySet_erase (k : κ) (m : KeyMap κ ν) : (m.erase k).keySet = m.keySet.erase k := by
  rw [keySet, erase, AList.keys_erase]
  rfl

end

end KeyMap

end ByeByeVpn
