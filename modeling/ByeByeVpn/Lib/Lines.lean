import ByeByeVpn.Lib.Search

/-!
# Lines

A string is lines with a separator between them, `List.splitOn`. The search for
the separator and a text behind it finds the first line, after the one at the
start, that begins with the text.
-/

namespace ByeByeVpn.Lines

open Search

variable {α : Type*} [DecidableEq α] {c : α} {f : α → α} {l pat rest s : List α}

theorem induction {motive : List α → Prop} (last : ∀ l, c ∉ l → motive l)
    (line : ∀ l s, c ∉ l → motive s → motive (l ++ c :: s)) (s : List α) : motive s := by
  induction hn : s.length using Nat.strong_induction_on generalizing s with
  | _ n ih =>
    by_cases hc : c ∈ s
    · obtain ⟨l, rest, rfl, hl⟩ := List.eq_append_cons_of_mem hc
      refine line l rest hl (ih rest.length ?_ rest rfl)
      rw [← hn, List.length_append, List.length_cons]
      omega
    · exact last s hc

def EndsLine (c : α) (rest : List α) : Prop := ∀ d ∈ rest.head?, d = c

omit [DecidableEq α] in
theorem EndsLine.map (h : EndsLine c rest) (hf : f c = c) : EndsLine c (rest.map f) := by
  intro d hd
  rw [List.head?_map] at hd
  obtain ⟨e, he, rfl⟩ := Option.map_eq_some_iff.mp hd
  rw [h e he, hf]

omit [DecidableEq α] in
theorem not_mem_map (hf : ∀ x, f x = c ↔ x = c) (h : c ∉ l) : c ∉ l.map f := by
  rw [List.mem_map]
  rintro ⟨x, hx, hxc⟩
  exact h ((hf x).mp hxc ▸ hx)

omit [DecidableEq α] in
/-- A text without a separator stands at the start of the string when it stands
at the start of its first line. -/
theorem prefix_append_sep (hpat : c ∉ pat) : pat <+: l ++ c :: s ↔ pat <+: l := by
  refine ⟨fun h => ?_, fun h => h.trans (List.prefix_append ..)⟩
  induction pat generalizing l with
  | nil => exact List.nil_prefix
  | cons d pat ih =>
    obtain ⟨hd, hpat⟩ := not_or.mp (List.mem_cons.not.mp hpat)
    cases l with
    | nil => exact absurd (List.cons_prefix_cons.mp h).1.symm hd
    | cons e l =>
      rw [List.cons_append, List.cons_prefix_cons] at h
      exact List.cons_prefix_cons.mpr ⟨h.1, ih hpat h.2⟩

theorem find_sep (hl : c ∉ l) :
    find (c :: pat) (l ++ c :: s) =
      if pat <+: s then some l.length else (find (c :: pat) s).map (· + (l.length + 1)) := by
  rw [find_skip hl]
  split_ifs with hp
  · rw [find_at_start (List.cons_prefix_cons.mpr ⟨rfl, hp⟩), Option.map_some, Nat.zero_add]
  · rw [find_cons fun h => hp (List.cons_prefix_cons.mp h).2, Option.map_map]
    congr 1
    funext n
    simp
    omega

theorem exists_firstLine (c : α) (s : List α) :
    ∃ l ls rest, s.splitOn c = l :: ls ∧ s = l ++ rest ∧ c ∉ l ∧ EndsLine c rest := by
  induction s using induction (c := c) with
  | last l hl => exact ⟨l, [], [], List.splitOn_eq_singleton hl, by simp, hl, by simp [EndsLine]⟩
  | line l s hl _ =>
    exact ⟨l, s.splitOn c, c :: s, List.splitOn_append_cons_self_of_not_mem hl s, rfl, hl,
      by simp [EndsLine]⟩

omit [DecidableEq α] in
theorem prefix_append_rest (hpat : c ∉ pat) (hrest : EndsLine c rest) :
    pat <+: l ++ rest ↔ pat <+: l := by
  cases rest with
  | nil => rw [List.append_nil]
  | cons d rest =>
    obtain rfl := hrest d rfl
    exact prefix_append_sep hpat

theorem endOfLine {j : Nat} (hl : c ∉ l) (hrest : EndsLine c rest) (hj : j ≤ l.length)
    (a : List α) :
    (findFrom [c] (a ++ (l ++ rest)) (a.length + j)).getD (a ++ (l ++ rest)).length =
      a.length + l.length := by
  have hdrop : (a ++ (l ++ rest)).drop (a.length + j) = l.drop j ++ rest := by
    rw [List.drop_length_add_append, List.drop_append_of_le_length hj]
  have hl' : c ∉ l.drop j := fun h => hl (List.mem_of_mem_drop h)
  rw [findFrom, hdrop]
  cases rest with
  | nil =>
    rw [List.append_nil, find_eq_none hl', Option.map_none, Option.getD_none]
    simp
  | cons d rest =>
    obtain rfl := hrest d rfl
    rw [find_letter hl', Option.map_some, Option.getD_some, List.length_drop]
    omega

/-- A line that begins with the text, each letter of the line taken through `f`. -/
def begins (f : α → α) (pat l : List α) : Bool := pat.isPrefixOf (l.map f)

theorem begins_iff : begins f pat l = true ↔ pat <+: l.map f := List.isPrefixOf_iff_prefix

/-- The text behind a separator is found where the first line begins with it,
the line at the start left out. -/
theorem find_line (hf : ∀ x, f x = c ↔ x = c) (hpat : c ∉ pat) (s : List α) :
    (find (c :: pat) (s.map f) = none ∧ (s.splitOn c).tail.find? (begins f pat) = none) ∨
      ∃ before l rest, s = before ++ c :: (l ++ rest) ∧ c ∉ l ∧ EndsLine c rest ∧
        pat <+: l.map f ∧ find (c :: pat) (s.map f) = some before.length ∧
        (s.splitOn c).tail.find? (begins f pat) = some l := by
  have hfc : f c = c := (hf c).mpr rfl
  induction s using induction (c := c) with
  | last l hl =>
    left
    rw [List.splitOn_eq_singleton hl]
    exact ⟨find_eq_none (not_mem_map hf hl), rfl⟩
  | line l s hl ih =>
    obtain ⟨l₁, ls, rest, hls, hs, hl₁, hrest⟩ := exists_firstLine c s
    have hstart : pat <+: s.map f ↔ pat <+: l₁.map f := by
      rw [hs, List.map_append]
      exact prefix_append_rest hpat (hrest.map hfc)
    have hfind : find (c :: pat) (l.map f ++ c :: s.map f) =
        if pat <+: s.map f then some l.length
        else (find (c :: pat) (s.map f)).map (· + (l.length + 1)) := by
      rw [find_sep (not_mem_map hf hl), List.length_map]
    rw [List.splitOn_append_cons_self_of_not_mem hl, List.map_append, List.map_cons, hfc, hfind,
      List.tail_cons, hls]
    rw [hls, List.tail_cons] at ih
    by_cases hp : pat <+: l₁.map f
    · right
      refine ⟨l, l₁, rest, by rw [hs], hl₁, hrest, hp, by rw [if_pos (hstart.mpr hp)], ?_⟩
      rw [List.find?_cons_of_pos (begins_iff.mpr hp)]
    · rw [if_neg (hstart.not.mpr hp), List.find?_cons_of_neg (begins_iff.not.mpr hp)]
      rcases ih with ⟨hnone, hlines⟩ | ⟨before, l', rest', rfl, hl', hend, hp', hsome, hlines⟩
      · left
        rw [hnone]
        exact ⟨rfl, hlines⟩
      · right
        refine ⟨l ++ c :: before, l', rest', by simp, hl', hend, hp', ?_, hlines⟩
        rw [hsome, Option.map_some, List.length_append, List.length_cons]
        congr 1
        omega

end ByeByeVpn.Lines
