import ByeByeVpn.Lib.Bytes
import Mathlib.Data.List.DropRight

/-! # String utilities (`core/utils.cpp`) -/

namespace ByeByeVpn

def tolowerS (s : Bytes) : Bytes := s.map tolower

def contains (haystack needle : Bytes) : Bool := haystack.tails.any fun t => needle.isPrefixOf t

theorem contains_iff {haystack needle : Bytes} :
    contains haystack needle = true ↔ needle <:+: haystack := by
  simp only [contains, List.any_eq_true, List.mem_tails, List.isPrefixOf_iff_prefix,
    List.infix_iff_prefix_suffix, and_comm]

def startsWith (s pre : Bytes) : Bool := pre.isPrefixOf s

theorem startsWith_iff {s pre : Bytes} : startsWith s pre = true ↔ pre <+: s :=
  List.isPrefixOf_iff_prefix

def trim (s : Bytes) : Bytes := (s.dropWhile isspace).rdropWhile isspace

theorem rdropWhile_append {p : UInt8 → Bool} {b : Bytes} (h : ∃ c ∈ b, p c = false) (a : Bytes) :
    (a ++ b).rdropWhile p = a ++ b.rdropWhile p := by
  have hne : ¬(b.reverse.dropWhile p).isEmpty = true := by
    obtain ⟨c, hc, hp⟩ := h
    rw [List.isEmpty_iff, List.dropWhile_eq_nil_iff]
    intro hall
    rw [hall c (List.mem_reverse.mpr hc)] at hp
    cases hp
  unfold List.rdropWhile
  rw [List.reverse_append, List.dropWhile_append, if_neg hne, List.reverse_append,
    List.reverse_reverse]

theorem rdropWhile_append_of_forall {p : UInt8 → Bool} {b : Bytes} (h : ∀ c ∈ b, p c = true)
    (a : Bytes) : (a ++ b).rdropWhile p = a.rdropWhile p := by
  unfold List.rdropWhile
  rw [List.reverse_append, List.dropWhile_append_of_pos fun c hc => h c (List.mem_reverse.mp hc)]

theorem trim_append_space {c : UInt8} (hc : isspace c = true) (s : Bytes) :
    trim (s ++ [c]) = trim s := by
  unfold trim
  rw [List.dropWhile_append]
  split_ifs with he
  · rw [List.dropWhile_cons_of_pos hc, List.isEmpty_iff.mp he]
    rfl
  · rw [List.rdropWhile_concat_pos _ _ _ hc]

theorem trim_around {before after : Bytes} (hb : ∀ c ∈ before, isspace c = true)
    (ha : ∀ c ∈ after, isspace c = true) (s : Bytes) : trim (before ++ s ++ after) = trim s := by
  have hafter : after.dropWhile isspace = [] := List.dropWhile_eq_nil_iff.mpr ha
  unfold trim
  rw [List.append_assoc, List.dropWhile_append_of_pos hb, List.dropWhile_append]
  split_ifs with he
  · rw [hafter, List.isEmpty_iff.mp he]
  · exact rdropWhile_append_of_forall ha _

theorem exists_rdropWhile (p : UInt8 → Bool) (s : Bytes) :
    ∃ after, s = s.rdropWhile p ++ after ∧ ∀ c ∈ after, p c = true := by
  refine ⟨(s.reverse.takeWhile p).reverse, ?_, fun c hc => ?_⟩
  · rw [List.rdropWhile, ← List.reverse_append, List.takeWhile_append_dropWhile,
      List.reverse_reverse]
  · exact List.mem_takeWhile_imp (List.mem_reverse.mp hc)

theorem exists_trim (s : Bytes) :
    ∃ before after, s = before ++ trim s ++ after ∧ (∀ c ∈ before, isspace c = true) ∧
      ∀ c ∈ after, isspace c = true := by
  obtain ⟨after, hsplit, hafter⟩ := exists_rdropWhile isspace (s.dropWhile isspace)
  refine ⟨s.takeWhile isspace, after, ?_, fun c hc => List.mem_takeWhile_imp hc, hafter⟩
  rw [List.append_assoc, trim, ← hsplit, List.takeWhile_append_dropWhile]

theorem mem_of_mem_trim {c : UInt8} {s : Bytes} (h : c ∈ trim s) : c ∈ s := by
  obtain ⟨before, after, hsplit, -⟩ := exists_trim s
  rw [hsplit]
  exact List.mem_append_left after (List.mem_append_right before h)

/-- The loop of `split`, with the part that is being collected. -/
def splitFrom (sep : UInt8) : Bytes → Bytes → List Bytes
  | current, [] => [current]
  | current, c :: s =>
    if c = sep then current :: splitFrom sep [] s else splitFrom sep (current ++ [c]) s

def split (s : Bytes) (sep : UInt8) : List Bytes := splitFrom sep [] s

def hexDigit (n : UInt8) : UInt8 := (ascii "0123456789abcdef").getD n.toNat 0

def hexS (spaces : Bool) : Bytes → Bytes
  | [] => []
  | c :: s =>
    hexDigit ((c >>> 4) &&& 0xF) :: hexDigit (c &&& 0xF) ::
      ((if spaces && !s.isEmpty then ascii " " else []) ++ hexS spaces s)

/-- `std::to_string` -/
def decimal (n : Int) : Bytes := ascii (toString n)

end ByeByeVpn
