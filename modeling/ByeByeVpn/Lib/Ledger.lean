import Mathlib.Algebra.Order.BigOperators.Group.Finset
import Mathlib.Algebra.Order.BigOperators.Group.Multiset
import Mathlib.Algebra.BigOperators.Group.Finset.Piecewise
import Mathlib.Algebra.Order.Group.Multiset
import Mathlib.Tactic.Abel

/-!
# Work in flight

A request is a list of items. An item waits, is in flight, or has been
settled with a verdict, and it is never in two places. This is the abstract
account of a scanner that keeps a bounded number of probes open: whatever
order the replies come in, the three parts together are the request.
-/

namespace ByeByeVpn

/-- Where the items of a request are. Items are moved in the order of the
request, but nothing is said about the order in which they are settled. -/
@[ext] structure Ledger (α κ : Type*) where
  waiting : List α
  inflight : Multiset α
  settled : κ → Multiset α

namespace Ledger

variable {α κ : Type*} [DecidableEq κ]

def opening (request : List α) : Ledger α κ := ⟨request, 0, fun _ => 0⟩

def book (settled : κ → Multiset α) (c : κ) (s : Multiset α) : κ → Multiset α :=
  Function.update settled c (s + settled c)

@[simp] theorem book_self (settled : κ → Multiset α) (c : κ) (s : Multiset α) :
    book settled c s c = s + settled c := Function.update_self ..

theorem book_of_ne (settled : κ → Multiset α) {c d : κ} (s : Multiset α) (h : d ≠ c) :
    book settled c s d = settled d := Function.update_of_ne h ..

inductive Move : Ledger α κ → Ledger α κ → Prop
  | launch {a : α} {rest : List α} {inflight : Multiset α} {settled : κ → Multiset α} :
      Move ⟨a :: rest, inflight, settled⟩ ⟨rest, a ::ₘ inflight, settled⟩
  | reject {a : α} {rest : List α} {inflight : Multiset α} {settled : κ → Multiset α} (c : κ) :
      Move ⟨a :: rest, inflight, settled⟩ ⟨rest, inflight, book settled c {a}⟩
  | settle {rest : List α} {inflight : Multiset α} {settled : κ → Multiset α}
      (s : Multiset α) (c : κ) :
      Move ⟨rest, s + inflight, settled⟩ ⟨rest, inflight, book settled c s⟩

/-- The ledgers that movements lead to from the opening of `request`. -/
inductive Kept (request : List α) : Ledger α κ → Prop
  | opening : Kept request (opening request)
  | move {l l' : Ledger α κ} : Kept request l → Move l l' → Kept request l'

variable [Fintype κ]

def done (l : Ledger α κ) : Multiset α := ∑ c, l.settled c

def total (l : Ledger α κ) : Multiset α := (l.waiting : Multiset α) + l.inflight + l.done

theorem sum_book (settled : κ → Multiset α) (c : κ) (s : Multiset α) :
    ∑ d, book settled c s d = s + ∑ d, settled d := by
  unfold book
  rw [Finset.sum_update_of_mem (Finset.mem_univ c),
    ← Finset.add_sum_erase Finset.univ settled (Finset.mem_univ c), add_assoc,
    Finset.sdiff_singleton_eq_erase]

theorem Move.total {l l' : Ledger α κ} (h : Move l l') : l'.total = l.total := by
  cases h with
  | launch =>
    simp only [Ledger.total, done, ← Multiset.cons_coe, Multiset.cons_add, Multiset.add_cons]
  | reject c =>
    simp only [Ledger.total, done, sum_book, ← Multiset.cons_coe, ← Multiset.singleton_add]
    abel
  | settle s c =>
    simp only [Ledger.total, done, sum_book]
    abel

/-- Every item of the request is in exactly one place, as often as it was
requested. -/
theorem Kept.total {request : List α} {l : Ledger α κ} (h : Kept request l) :
    l.total = (request : Multiset α) := by
  induction h with
  | opening => simp [Ledger.total, done, Ledger.opening]
  | move _ hm ih => rw [hm.total, ih]

theorem Kept.card {request : List α} {l : Ledger α κ} (h : Kept request l) :
    l.waiting.length + l.inflight.card + l.done.card = request.length := by
  simpa [Ledger.total] using congrArg Multiset.card h.total

theorem Kept.settled_le {request : List α} {l : Ledger α κ} (h : Kept request l) (c : κ) :
    l.settled c ≤ (request : Multiset α) := by
  rw [← h.total]
  exact (Finset.single_le_sum (f := l.settled) (fun _ _ => Multiset.zero_le _)
    (Finset.mem_univ c)).trans (Multiset.le_add_left _ _)

end Ledger

end ByeByeVpn
