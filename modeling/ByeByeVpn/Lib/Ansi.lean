import ByeByeVpn.Lib.Bytes

/-!
# Terminal sequences

A control sequence is `ESC [` with its parameters, up to its final byte or the
end of the text. A text is read piece by piece from the left, and each piece is
such a sequence or a single byte.
-/

namespace ByeByeVpn.Ansi

def esc : UInt8 := 0x1b

/-- `ESC [` -/
def introducer : Bytes := [esc, chr '[']

def isFinal (c : UInt8) : Bool := chr '@' ≤ c && c ≤ chr '~'

inductive Piece
  | byte (c : UInt8)
  | sequence (params : Bytes) (final : Option UInt8)

def Piece.byte? : Piece → Option UInt8
  | .byte c => some c
  | .sequence .. => none

inductive Reads : List Piece → Bytes → Prop
  | nil : Reads [] []
  | byte {ps : List Piece} {c : UInt8} {s : Bytes} (alone : ¬introducer <+: c :: s)
      (rest : Reads ps s) : Reads (.byte c :: ps) (c :: s)
  | sequence {ps : List Piece} {params s : Bytes} {c : UInt8}
      (inner : ∀ d ∈ params, isFinal d = false) (final : isFinal c = true) (rest : Reads ps s) :
      Reads (.sequence params (some c) :: ps) (introducer ++ (params ++ c :: s))
  | cut {params : Bytes} (inner : ∀ d ∈ params, isFinal d = false) :
      Reads [.sequence params none] (introducer ++ params)

/-- Behind a lone `ESC`, sequences and nothing else stand before a lone `[`. -/
def Joins (s : Bytes) : Prop :=
  ∃ before between after, Reads (before ++ .byte esc :: (between ++ .byte (chr '[') :: after)) s ∧
    ∀ p ∈ between, p.byte? = none

theorem params_cases (s : Bytes) :
    (∀ d ∈ s, isFinal d = false) ∨
      ∃ params c rest, s = params ++ c :: rest ∧ (∀ d ∈ params, isFinal d = false) ∧
        isFinal c = true := by
  cases hfind : s.find? isFinal with
  | none => exact .inl fun d hd => Bool.eq_false_iff.mpr (List.find?_eq_none.mp hfind d hd)
  | some c =>
    obtain ⟨hc, params, rest, hsplit, hparams⟩ := List.find?_eq_some_iff_append.mp hfind
    exact .inr ⟨params, c, rest, hsplit, fun d hd => by simpa using hparams d hd, hc⟩

theorem exists_reads (s : Bytes) : ∃ ps, Reads ps s := by
  induction hn : s.length using Nat.strongRecOn generalizing s with
  | ind n ih =>
    subst hn
    by_cases hintro : introducer <+: s
    · obtain ⟨w, rfl⟩ := hintro
      rcases params_cases w with hcut | ⟨params, c, rest, rfl, hparams, hc⟩
      · exact ⟨_, .cut hcut⟩
      · obtain ⟨ps, hps⟩ := ih rest.length (by simp; omega) rest rfl
        exact ⟨_, .sequence hparams hc hps⟩
    · cases s with
      | nil => exact ⟨[], .nil⟩
      | cons c s =>
        obtain ⟨ps, hps⟩ := ih s.length (Nat.lt_succ_self _) s rfl
        exact ⟨_, .byte hintro hps⟩

/-- What is left side by side stood with only dropped elements between. -/
theorem pair_infix_filterMap_iff {α β : Type*} {f : α → Option β} {l : List α} {x y : β} :
    [x, y] <:+: l.filterMap f ↔
      ∃ before p between q after, l = before ++ p :: (between ++ q :: after) ∧ f p = some x ∧
        (∀ m ∈ between, f m = none) ∧ f q = some y := by
  constructor
  · rintro ⟨u, v, h⟩
    rw [List.append_assoc, eq_comm, List.filterMap_eq_append_iff] at h
    obtain ⟨before, l, rfl, -, h⟩ := h
    obtain ⟨skipped, p, l, rfl, -, hp, h⟩ := List.filterMap_eq_cons_iff.mp h
    obtain ⟨between, q, after, rfl, hbetween, hq, -⟩ := List.filterMap_eq_cons_iff.mp h
    exact ⟨before ++ skipped, p, between, q, after, by rw [List.append_assoc], hp, hbetween, hq⟩
  · rintro ⟨before, p, between, q, after, rfl, hp, hbetween, hq⟩
    have hnone : between.filterMap f = [] := List.filterMap_eq_nil_iff.mpr hbetween
    refine ⟨before.filterMap f, after.filterMap f, ?_⟩
    simp [hp, hq, hnone]

theorem Piece.byte?_eq_some {p : Piece} {c : UInt8} : p.byte? = some c ↔ p = .byte c := by
  cases p <;> simp [Piece.byte?]

theorem introducer_infix_filterMap_iff {ps : List Piece} :
    introducer <:+: ps.filterMap Piece.byte? ↔
      ∃ before between after,
        ps = before ++ .byte esc :: (between ++ .byte (chr '[') :: after) ∧
        ∀ p ∈ between, p.byte? = none := by
  rw [introducer, pair_infix_filterMap_iff]
  constructor
  · rintro ⟨before, p, between, q, after, rfl, hp, hbetween, hq⟩
    obtain rfl := Piece.byte?_eq_some.mp hp
    obtain rfl := Piece.byte?_eq_some.mp hq
    exact ⟨before, between, after, rfl, hbetween⟩
  · rintro ⟨before, between, after, rfl, hbetween⟩
    exact ⟨before, _, between, _, after, rfl, rfl, hbetween, rfl⟩

end ByeByeVpn.Ansi
