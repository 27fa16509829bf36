import Mathlib.Data.List.Infix

/-!
# Searching in a string

`std::string::find`, which returns the first position of a pattern, with the
rules to move through a string piece by piece.
-/

namespace ByeByeVpn.Search

variable {α : Type*} [DecidableEq α]

/-- `s.find(pat)` -/
def find (pat : List α) : List α → Option Nat
  | [] => if pat.isEmpty then some 0 else none
  | c :: s => if pat.isPrefixOf (c :: s) then some 0 else (find pat s).map (· + 1)

/-- `s.find(pat, pos)` -/
def findFrom (pat s : List α) (pos : Nat) : Option Nat := (find pat (s.drop pos)).map (· + pos)

/-- `s.rfind(c)` -/
def rfind (c : α) (s : List α) : Option Nat := (find [c] s.reverse).map (s.length - 1 - ·)

variable {pat a b s : List α} {c : α} {i : Nat}

theorem exists_first {β : Type*} {p : β → Prop} {l : List β} (h : ∃ x ∈ l, p x) :
    ∃ before x after, l = before ++ x :: after ∧ (∀ y ∈ before, ¬p y) ∧ p x := by
  induction l with
  | nil => simp at h
  | cons d l ih =>
    by_cases hd : p d
    · exact ⟨[], d, l, rfl, by simp, hd⟩
    · obtain ⟨before, x, after, rfl, hbefore, hx⟩ :=
        ih ((List.exists_mem_cons_iff ..).mp h |>.resolve_left hd)
      exact ⟨d :: before, x, after, rfl, List.forall_mem_cons.mpr ⟨hd, hbefore⟩, hx⟩

theorem find_at_start (h : pat <+: s) : find pat s = some 0 := by
  cases s with
  | nil =>
    obtain rfl := List.prefix_nil.mp h
    rfl
  | cons c s => rw [find, if_pos (List.isPrefixOf_iff_prefix.mpr h)]

theorem find_cons (h : ¬pat <+: c :: s) : find pat (c :: s) = (find pat s).map (· + 1) := by
  rw [find, if_neg (List.isPrefixOf_iff_prefix.not.mpr h)]

theorem length_of_find (h : find pat s = some i) : i + pat.length ≤ s.length := by
  induction s generalizing i with
  | nil =>
    unfold find at h
    split_ifs at h with he
    obtain rfl := List.isEmpty_iff.mp he
    obtain rfl := Option.some.inj h
    exact Nat.le_refl 0
  | cons c s ih =>
    by_cases hp : pat <+: c :: s
    · rw [find_at_start hp] at h
      obtain rfl := Option.some.inj h
      rw [Nat.zero_add]
      exact hp.length_le
    · rw [find_cons hp] at h
      obtain ⟨j, hj, rfl⟩ := Option.map_eq_some_iff.mp h
      have := ih hj
      rw [List.length_cons]
      omega

theorem find_append (h : ∀ j < a.length, ¬pat <+: a.drop j ++ b) :
    find pat (a ++ b) = (find pat b).map (· + a.length) := by
  induction a with
  | nil => simp
  | cons c a ih =>
    have hp : ¬pat <+: c :: (a ++ b) := h 0 (Nat.zero_lt_succ _)
    have ha : find pat (a ++ b) = (find pat b).map (· + a.length) :=
      ih fun j hj => h (j + 1) (Nat.succ_lt_succ hj)
    rw [List.cons_append, find_cons hp, ha, Option.map_map]
    rfl

/-- A pattern is not found where its first letter does not occur. -/
theorem find_skip (h : c ∉ a) :
    find (c :: pat) (a ++ b) = (find (c :: pat) b).map (· + a.length) := by
  refine find_append fun j hj hp => h ?_
  rw [List.drop_eq_getElem_cons hj] at hp
  rw [(List.cons_prefix_cons.mp hp).1]
  exact List.getElem_mem hj

theorem find_eq_none_iff : find pat s = none ↔ ¬pat <:+: s := by
  induction s with
  | nil => simp [find]
  | cons c s ih =>
    by_cases hp : pat <+: c :: s
    · simp [find_at_start hp, hp.isInfix]
    · rw [find_cons hp, Option.map_eq_none_iff, ih, List.infix_cons_iff]
      simp [hp]

theorem find_eq_none (h : c ∉ s) : find (c :: pat) s = none := by
  have hs : find (c :: pat) (s ++ []) = (find (c :: pat) []).map (· + s.length) := find_skip h
  rwa [List.append_nil, find, if_neg (by simp), Option.map_none] at hs

theorem find_letter (h : c ∉ a) (b : List α) : find [c] (a ++ c :: b) = some a.length := by
  have hc : find [c] (c :: b) = some 0 := find_at_start (List.prefix_append [c] b)
  rw [find_skip h, hc, Option.map_some, Nat.zero_add]

theorem prefix_of_find (h : find pat s = some i) : pat <+: s.drop i := by
  induction s generalizing i with
  | nil =>
    unfold find at h
    split_ifs at h with he
    rw [List.isEmpty_iff.mp he]
    exact List.nil_prefix
  | cons c s ih =>
    by_cases hp : pat <+: c :: s
    · rw [find_at_start hp] at h
      obtain rfl := Option.some.inj h
      exact hp
    · rw [find_cons hp] at h
      obtain ⟨j, hj, rfl⟩ := Option.map_eq_some_iff.mp h
      exact ih hj

theorem find_append_iff (hi : i + pat.length ≤ a.length) :
    find pat (a ++ b) = some i ↔ find pat a = some i := by
  induction a generalizing i with
  | nil =>
    obtain rfl := List.eq_nil_of_length_eq_zero (Nat.le_zero.mp ((Nat.le_add_left _ _).trans hi))
    rw [find_at_start List.nil_prefix, find_at_start List.nil_prefix]
  | cons c a ih =>
    by_cases hp : pat <+: c :: a
    · rw [find_at_start hp, find_at_start (hp.trans (List.prefix_append (c :: a) b))]
    · have hp' : pat.length ≤ (c :: a).length → ¬pat <+: c :: (a ++ b) := fun hle h =>
        hp (List.prefix_of_prefix_length_le h (List.prefix_append (c :: a) b) hle)
      rw [List.cons_append, find_cons hp, find_cons (hp' (by omega))]
      cases i with
      | zero => simp
      | succ i =>
        have hi' : i + pat.length ≤ a.length := by
          rw [List.length_cons] at hi
          omega
        simpa using ih hi'

/-- A pattern does not reach over a letter that it does not have. -/
theorem prefix_of_not_mem {β : Type*} {pat a b : List β} {c : β} (h : pat <+: a ++ c :: b)
    (hc : c ∉ pat) : pat <+: a := by
  have hac : a ++ [c] <+: a ++ c :: b := ⟨b, by simp⟩
  by_cases hle : pat.length ≤ a.length
  · exact List.prefix_of_prefix_length_le h (List.prefix_append a (c :: b)) hle
  · refine absurd ((List.prefix_of_prefix_length_le hac h ?_).subset (by simp)) hc
    rw [List.length_append, List.length_singleton]
    omega

/-- A pattern is found before a letter that it does not have, or behind it. -/
theorem find_around (hc : c ∉ pat) :
    find pat (a ++ c :: b) = (find pat a).or ((find pat b).map (· + (a.length + 1))) := by
  cases hfind : find pat a with
  | some i =>
    rw [Option.some_or]
    exact (find_append_iff (length_of_find hfind)).mpr hfind
  | none =>
    have hskip : ∀ j < (a ++ [c]).length, ¬pat <+: (a ++ [c]).drop j ++ b := by
      intro j hj hp
      rw [List.length_append, List.length_singleton] at hj
      rw [List.drop_append_of_le_length (by omega), List.append_assoc, List.singleton_append] at hp
      have hin := (prefix_of_not_mem hp hc).isInfix.trans (List.drop_suffix j a).isInfix
      exact find_eq_none_iff.mp hfind hin
    rw [Option.none_or, List.append_cons, find_append hskip, List.length_append,
      List.length_singleton]

theorem find_first (hc : c ∉ pat) (h : ¬c :: pat <:+: a) (b : List α) :
    find (c :: pat) (a ++ (c :: pat ++ b)) = some a.length := by
  have hskip : ∀ j < a.length, ¬c :: pat <+: a.drop j ++ (c :: pat ++ b) := by
    intro j hj hp
    rw [List.drop_eq_getElem_cons hj, List.cons_append, List.cons_prefix_cons] at hp
    have hin : c :: pat <+: a.drop j := by
      rw [List.drop_eq_getElem_cons hj, List.cons_prefix_cons]
      exact ⟨hp.1, prefix_of_not_mem hp.2 hc⟩
    exact h (hin.isInfix.trans (List.drop_suffix j a).isInfix)
  rw [find_append hskip, find_at_start (List.prefix_append _ b), Option.map_some, Nat.zero_add]

theorem not_infix_take_of_find (hpat : pat ≠ []) (h : find pat s = some i) :
    ¬pat <:+: s.take i := by
  intro hin
  have hpos := List.length_pos_iff.mpr hpat
  cases hfind : find pat (s.take i) with
  | none => exact find_eq_none_iff.mp hfind hin
  | some j =>
    have hlen := length_of_find hfind
    have hj : find pat (s.take i ++ s.drop i) = some j := (find_append_iff hlen).mpr hfind
    rw [List.take_append_drop, h, Option.some.injEq] at hj
    rw [List.length_take] at hlen
    omega

theorem le_of_findFrom {pos : Nat} (h : findFrom pat s pos = some i) : pos ≤ i := by
  obtain ⟨j, -, rfl⟩ := Option.map_eq_some_iff.mp h
  exact Nat.le_add_left _ _

theorem findFrom_letter_iff {pos : Nat} (hpos : pos ≤ a.length) :
    findFrom [c] (a ++ c :: b) pos = some a.length ↔ c ∉ a.drop pos := by
  rw [findFrom, List.drop_append_of_le_length hpos]
  constructor
  · intro h hc
    obtain ⟨u, v, hu, hcu⟩ := List.eq_append_cons_of_mem hc
    have hlen : (u ++ c :: v).length = a.length - pos := by rw [← hu, List.length_drop]
    rw [hu, List.append_assoc, List.cons_append, find_letter hcu, Option.map_some,
      Option.some.injEq] at h
    rw [List.length_append, List.length_cons] at hlen
    omega
  · intro hc
    rw [find_letter hc, Option.map_some, List.length_drop, Nat.sub_add_cancel hpos]

theorem of_find_letter (h : find [c] s = some i) :
    ∃ a b, s = a ++ c :: b ∧ a.length = i ∧ c ∉ a := by
  obtain ⟨b, hb⟩ := prefix_of_find h
  have hlen := length_of_find h
  rw [List.length_singleton] at hlen
  refine ⟨s.take i, b, ?_, List.length_take_of_le (by omega), fun hc => ?_⟩
  · rw [← List.singleton_append, hb, List.take_append_drop]
  · exact not_infix_take_of_find (List.cons_ne_nil _ _) h ((List.singleton_infix_iff _ _).mpr hc)

theorem of_findFrom_letter {pos : Nat} (hpos : pos ≤ s.length)
    (h : findFrom [c] s pos = some i) : ∃ a b, s = a ++ c :: b ∧ a.length = i := by
  obtain ⟨j, hj, rfl⟩ := Option.map_eq_some_iff.mp h
  obtain ⟨a, b, hsplit, rfl, -⟩ := of_find_letter hj
  refine ⟨s.take pos ++ a, b, ?_, ?_⟩
  · rw [List.append_assoc, ← hsplit, List.take_append_drop]
  · rw [List.length_append, List.length_take_of_le hpos, Nat.add_comm]

theorem rfind_letter (a : List α) (h : c ∉ b) : rfind c (a ++ c :: b) = some a.length := by
  have hb : c ∉ b.reverse := List.mem_reverse.not.mpr h
  rw [rfind, List.reverse_append, List.reverse_cons, List.append_assoc, List.singleton_append,
    find_letter hb, Option.map_some, List.length_reverse, List.length_append, List.length_cons]
  congr 1
  omega

end ByeByeVpn.Search
