import ByeByeVpn.Lib.Bytes

/-!
# Lists of short texts with their lengths in front

Each text is written behind one byte that says how long it is. Only texts of
1 to 255 bytes can be written, and the reader refuses everything else.
-/

namespace ByeByeVpn.LengthPrefixed

def Fits (t : Bytes) : Prop := 0 < t.length ∧ t.length ≤ 255

instance (t : Bytes) : Decidable (Fits t) := by
  unfold Fits
  infer_instance

def encode (ts : List Bytes) : Bytes := ts.flatMap fun t => UInt8.ofNat t.length :: t

theorem encode_cons (t : Bytes) (ts : List Bytes) :
    encode (t :: ts) = UInt8.ofNat t.length :: (t ++ encode ts) := rfl

/-- The reader, with what is missing of the text that is being read and the
part of it that is there. -/
def readFrom : Nat → Bytes → Bytes → Option (List Bytes)
  | 0, _, [] => some []
  | _ + 1, _, [] => none
  | 0, _, n :: wire => if n = 0 then none else readFrom n.toNat [] wire
  | 1, t, c :: wire => (readFrom 0 [] wire).map ((t ++ [c]) :: ·)
  | left + 2, t, c :: wire => readFrom (left + 1) (t ++ [c]) wire

def decode (wire : Bytes) : Option (List Bytes) := readFrom 0 [] wire

theorem readFrom_text {left : Nat} (t rest wire : Bytes) (h : rest.length = left + 1) :
    readFrom (left + 1) t (rest ++ wire) = (decode wire).map ((t ++ rest) :: ·) := by
  induction left generalizing t rest with
  | zero =>
    obtain ⟨c, rfl⟩ := List.length_eq_one_iff.mp h
    rfl
  | succ left ih =>
    cases rest with
    | nil => cases h
    | cons c rest =>
      rw [List.cons_append, readFrom, ih (t ++ [c]) rest (by simpa using h), List.append_assoc]
      rfl

theorem decode_cons {t : Bytes} (ht : Fits t) (wire : Bytes) :
    decode (UInt8.ofNat t.length :: (t ++ wire)) = (decode wire).map (t :: ·) := by
  obtain ⟨hpos, hle⟩ := ht
  have hn : (UInt8.ofNat t.length).toNat = t.length := by
    rw [UInt8.toNat_ofNat', Nat.mod_eq_of_lt (by omega)]
  have hne : UInt8.ofNat t.length ≠ 0 := fun h => by
    rw [h] at hn
    exact absurd hn.symm (by simpa using Nat.ne_of_gt hpos)
  obtain ⟨left, hleft⟩ := Nat.exists_eq_add_of_lt hpos
  rw [decode, readFrom, if_neg hne, hn, hleft, Nat.zero_add, readFrom_text [] t wire (by omega)]
  rfl

theorem decode_encode {ts : List Bytes} (h : ∀ t ∈ ts, Fits t) : decode (encode ts) = some ts := by
  induction ts with
  | nil => rfl
  | cons t ts ih =>
    obtain ⟨ht, hts⟩ := List.forall_mem_cons.mp h
    rw [encode_cons, decode_cons ht, ih hts]
    rfl

theorem readFrom_eq_some {left : Nat} {t wire : Bytes} {ts : List Bytes}
    (h : readFrom left t wire = some ts) (hle : t.length + left ≤ 255) :
    if left = 0 then wire = encode ts ∧ ∀ u ∈ ts, Fits u
    else ∃ rest us, rest.length = left ∧ ts = (t ++ rest) :: us ∧ wire = rest ++ encode us ∧
      ∀ u ∈ us, Fits u := by
  induction wire generalizing left t ts with
  | nil =>
    cases left with
    | zero =>
      obtain rfl : [] = ts := Option.some.inj h
      exact ⟨rfl, fun _ hu => nomatch hu⟩
    | succ left => cases h
  | cons c wire ih =>
    match left with
    | 0 =>
      rw [readFrom] at h
      split_ifs at h with hc
      have hpos : c.toNat ≠ 0 := fun h0 => hc (UInt8.toNat_inj.mp h0)
      have hlt := c.toNat_lt
      have hrest := ih h (by simpa using Nat.le_of_lt_succ hlt)
      rw [if_neg hpos] at hrest
      obtain ⟨rest, us, hlen, rfl, rfl, hus⟩ := hrest
      refine ⟨?_, List.forall_mem_cons.mpr ⟨⟨?_, ?_⟩, hus⟩⟩
      · rw [List.nil_append, encode_cons, hlen, UInt8.ofNat_toNat]
      · exact hlen ▸ Nat.pos_of_ne_zero hpos
      · exact hlen ▸ Nat.le_of_lt_succ hlt
    | 1 =>
      rw [readFrom, Option.map_eq_some_iff] at h
      obtain ⟨us, hus, rfl⟩ := h
      have hrest := ih hus (Nat.zero_le _)
      exact ⟨[c], us, rfl, rfl, congrArg (c :: ·) hrest.1, hrest.2⟩
    | left + 2 =>
      have hrest := ih h (by rw [List.length_append, List.length_singleton]; omega)
      obtain ⟨rest, us, hlen, rfl, rfl, hus⟩ := hrest
      refine ⟨c :: rest, us, by rw [List.length_cons, hlen], ?_, rfl, hus⟩
      rw [List.append_assoc]
      rfl

/-- The reader takes exactly what the writer makes of texts that fit. -/
theorem decode_eq_some_iff {wire : Bytes} {ts : List Bytes} :
    decode wire = some ts ↔ wire = encode ts ∧ ∀ t ∈ ts, Fits t :=
  ⟨fun h => readFrom_eq_some h (by decide), fun ⟨hwire, hts⟩ => hwire ▸ decode_encode hts⟩

end ByeByeVpn.LengthPrefixed
