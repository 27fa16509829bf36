import Mathlib.Data.Multiset.MapFold
import Mathlib.Data.Multiset.AddSub
import Mathlib.Data.Multiset.ZeroCons
import Mathlib.Logic.Function.Basic

/-!
# Objects in custody

A program holds objects at addresses, which an allocator may hand out again
once an object is destroyed. Another party has been given some of the
addresses and owes one packet for each of them. The record tells the objects
apart by the order in which they were made; it is sound when every packet is
owed for the object that is held at its address.
-/

namespace ByeByeVpn

/-- What was made with which data, who lives at an address, what is
destroyed, and the packets still owed. -/
structure Custody (κ ν : Type*) where
  made : List ν := []
  owner : κ → Nat := fun _ => 0
  destroyed : Multiset Nat := 0
  packets : List (κ × Nat) := []

namespace Custody

variable {κ ν : Type*}

def make [DecidableEq κ] (g : Custody κ ν) (k : κ) (v : ν) : Custody κ ν :=
  { g with made := g.made ++ [v], owner := Function.update g.owner k g.made.length }

def destroy (g : Custody κ ν) (ks : Multiset κ) : Custody κ ν :=
  { g with destroyed := g.destroyed + ks.map g.owner }

/-- A packet is owed for each of these addresses. -/
def owe (g : Custody κ ν) (ks : List κ) : Custody κ ν :=
  { g with packets := g.packets ++ ks.map fun k => (k, g.owner k) }

def deliver (g : Custody κ ν) (i : Nat) : Custody κ ν :=
  { g with packets := g.packets.eraseIdx i }

/-- The addresses in `held` are in use, and packets are owed for those in `owed`. -/
structure Sound (g : Custody κ ν) (held owed : Multiset κ) : Prop where
  nodup : held.Nodup
  owed_le : owed ≤ held
  owner_lt : ∀ k ∈ held, g.owner k < g.made.length
  owner_inj : ∀ k ∈ held, ∀ k' ∈ held, g.owner k = g.owner k' → k = k'
  destroyed : ∀ id ∈ g.destroyed, id < g.made.length ∧ ∀ k ∈ held, g.owner k ≠ id
  packets : (g.packets : Multiset (κ × Nat)) = owed.map fun k => (k, g.owner k)

variable {g : Custody κ ν} {held held' owed : Multiset κ} {k : κ} {p : κ × Nat}

theorem Sound.opening : Sound ({} : Custody κ ν) 0 0 where
  nodup := Multiset.nodup_zero
  owed_le := le_rfl
  owner_lt := by simp
  owner_inj := by simp
  destroyed := by simp
  packets := rfl

theorem Sound.owner_eq (h : g.Sound held owed) (hp : p ∈ g.packets) :
    p.1 ∈ owed ∧ g.owner p.1 = p.2 := by
  rw [← Multiset.mem_coe, h.packets, Multiset.mem_map] at hp
  obtain ⟨k, hk, rfl⟩ := hp
  exact ⟨hk, rfl⟩

theorem Sound.alive (h : g.Sound held owed) (hp : p ∈ g.packets) : p.2 ∉ g.destroyed := by
  obtain ⟨hk, he⟩ := h.owner_eq hp
  exact fun hd => (h.destroyed p.2 hd).2 p.1 (Multiset.mem_of_le h.owed_le hk) he

theorem made_make [DecidableEq κ] {id : Nat} {v v' : ν} (h : g.made[id]? = some v') :
    (g.make k v).made[id]? = some v' := by
  obtain ⟨hlt, -⟩ := List.getElem?_eq_some_iff.mp h
  rw [Custody.make, List.getElem?_append_left hlt, h]

theorem owner_make [DecidableEq κ] (hk : k' ≠ k) (v : ν) : (g.make k v).owner k' = g.owner k' :=
  Function.update_of_ne hk ..

theorem made_owner_make [DecidableEq κ] (g : Custody κ ν) (k : κ) (v : ν) :
    (g.make k v).made[(g.make k v).owner k]? = some v := by
  simp [Custody.make]

theorem destroy_of_le [DecidableEq κ] (g : Custody κ ν) (h : held ≤ held') :
    g.destroy (held - held') = g := by
  have hz : held - held' = 0 := Multiset.le_zero.mp (Multiset.sub_le_iff_le_add.mpr (by simpa))
  simp [Custody.destroy, hz]

theorem Sound.make [DecidableEq κ] (h : g.Sound held owed) (hk : k ∉ held) (v : ν) :
    (g.make k v).Sound (k ::ₘ held) owed := by
  have old : ∀ k' ∈ held, (g.make k v).owner k' = g.owner k' := fun k' hk' =>
    owner_make (ne_of_mem_of_not_mem hk' hk) v
  have new : (g.make k v).owner k = g.made.length := Function.update_self ..
  have len : (g.make k v).made.length = g.made.length + 1 := by simp [Custody.make]
  have fresh : ∀ k' ∈ held, (g.make k v).owner k' ≠ g.made.length := fun k' hk' => by
    have := h.owner_lt k' hk'
    rw [old k' hk']
    omega
  refine ⟨Multiset.nodup_cons.mpr ⟨hk, h.nodup⟩, h.owed_le.trans (Multiset.le_cons_self ..), ?_, ?_,
    ?_, ?_⟩
  · intro k' hk'
    rcases Multiset.mem_cons.mp hk' with rfl | hk'
    · omega
    · have := h.owner_lt k' hk'
      rw [old k' hk']
      omega
  · intro k₁ m₁ k₂ m₂ he
    rcases Multiset.mem_cons.mp m₁ with rfl | h₁ <;> rcases Multiset.mem_cons.mp m₂ with rfl | h₂
    · rfl
    · exact absurd (he.symm.trans new) (fresh k₂ h₂)
    · exact absurd (he.trans new) (fresh k₁ h₁)
    · rw [old k₁ h₁, old k₂ h₂] at he
      exact h.owner_inj k₁ h₁ k₂ h₂ he
  · intro id hid
    obtain ⟨hlt, hne⟩ := h.destroyed id hid
    refine ⟨by omega, ?_⟩
    intro k' hk'
    rcases Multiset.mem_cons.mp hk' with rfl | hk'
    · omega
    · rw [old k' hk']
      exact hne k' hk'
  · rw [Custody.make, h.packets]
    exact Multiset.map_congr rfl fun k' hk' => by
      rw [← old k' (Multiset.mem_of_le h.owed_le hk')]
      rfl

theorem Sound.destroy [DecidableEq κ] (h : g.Sound held owed) (hle : held' ≤ held)
    (ho : owed ≤ held') :
    (g.destroy (held - held')).Sound held' owed := by
  have sub : ∀ k ∈ held', k ∈ held := fun k => Multiset.mem_of_le hle
  refine ⟨Multiset.nodup_of_le hle h.nodup, ho, fun k hk => h.owner_lt k (sub k hk),
    fun k₁ h₁ k₂ h₂ => h.owner_inj k₁ (sub k₁ h₁) k₂ (sub k₂ h₂), ?_, h.packets⟩
  intro id hid
  rcases Multiset.mem_add.mp hid with hid | hid
  · obtain ⟨hlt, hne⟩ := h.destroyed id hid
    exact ⟨hlt, fun k hk => hne k (sub k hk)⟩
  · obtain ⟨k, hk, rfl⟩ := Multiset.mem_map.mp hid
    obtain ⟨hk, hout⟩ := (Multiset.mem_sub_of_nodup h.nodup).mp hk
    refine ⟨h.owner_lt k hk, fun k' hk' he => hout ?_⟩
    rwa [← h.owner_inj k' (sub k' hk') k hk he]

/-- Destroying an object for which a packet is owed leaves the packet behind. -/
theorem Sound.stranded (h : g.Sound held owed) (hk : k ∈ owed) {ks : Multiset κ} (hks : k ∈ ks) :
    (k, g.owner k) ∈ (g.destroy ks).packets ∧ g.owner k ∈ (g.destroy ks).destroyed := by
  refine ⟨?_, Multiset.mem_add.mpr (.inr (Multiset.mem_map_of_mem _ hks))⟩
  have hm := Multiset.mem_map_of_mem (fun k => (k, g.owner k)) hk
  rwa [← h.packets, Multiset.mem_coe] at hm

theorem Sound.owe (h : g.Sound held owed) (ks : List κ) (hle : owed + ks ≤ held) :
    (g.owe ks).Sound held (owed + ks) where
  nodup := h.nodup
  owed_le := hle
  owner_lt := h.owner_lt
  owner_inj := h.owner_inj
  destroyed := h.destroyed
  packets := by
    simp only [Custody.owe, ← Multiset.coe_add, h.packets, Multiset.map_add, Multiset.map_coe]

theorem Sound.deliver [DecidableEq κ] (h : g.Sound held owed) (hp : g.packets[i]? = some p) :
    (g.deliver i).Sound held (owed.erase p.1) := by
  obtain ⟨hi, rfl⟩ := List.getElem?_eq_some_iff.mp hp
  obtain ⟨hk, he⟩ := h.owner_eq (List.getElem_mem hi)
  refine ⟨h.nodup, (Multiset.erase_le ..).trans h.owed_le, h.owner_lt, h.owner_inj, h.destroyed, ?_⟩
  have hperm : (g.packets : Multiset (κ × Nat)) = g.packets[i] ::ₘ (g.packets.eraseIdx i) :=
    Multiset.coe_eq_coe.mpr (List.getElem_cons_eraseIdx_perm hi).symm
  rw [h.packets, ← Multiset.cons_erase hk, Multiset.map_cons, he] at hperm
  exact ((Multiset.cons_inj_right _).mp hperm).symm

end Custody

end ByeByeVpn
