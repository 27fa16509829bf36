import ByeByeVpn.Lib.JsonText

/-!
# Members of an object at their places

A text whose document is an object, cut at the value of one member: what
stands before the value and what stands after it.
-/

namespace ByeByeVpn.JsonText

variable {ws : UInt8 → Bool}

theorem Spaces.nil (ws : UInt8 → Bool) : Spaces ws [] := fun _ hc => by cases hc

/-- Members with a comma behind each. -/
inductive Before (ws : UInt8 → Bool) : Bytes → List (Bytes × Doc) → Prop
  | nil : Before ws [] []
  | cons {t w w' ts : Bytes} {m : Bytes × Doc} {ms : List (Bytes × Doc)} : Member ws t m →
      Spaces ws w → Spaces ws w' → Before ws ts ms →
      Before ws (t ++ w ++ chr ',' :: (w' ++ ts)) (m :: ms)

/-- What comes behind a member: white space, then nothing or more members. -/
inductive After (ws : UInt8 → Bool) : Bytes → List (Bytes × Doc) → Prop
  | nil {w : Bytes} : Spaces ws w → After ws w []
  | cons {w w' ts : Bytes} {ms : List (Bytes × Doc)} : Spaces ws w → Spaces ws w' →
      Members ws ts ms → After ws (w ++ chr ',' :: (w' ++ ts)) ms

/-- A member of the members `ms`, with its value `t` between `pre` and `post`. -/
inductive MemberAt (ws : UInt8 → Bool) :
    Bytes → Bytes → Bytes → Bytes → Doc → List (Bytes × Doc) → Prop
  | mk {pre w w' t post : Bytes} {items : List Item} {d : Doc} {ms₁ ms₂ : List (Bytes × Doc)} :
      Before ws pre ms₁ → (∀ i ∈ items, i.Valid) → Spaces ws w → Spaces ws w' → Value ws t d →
      After ws post ms₂ →
      MemberAt ws (pre ++ (quoted items ++ w ++ chr ':' :: w')) t post (decode items) d
        (ms₁ ++ (decode items, d) :: ms₂)

/-- A member of the object that a whole text is about. -/
inductive RootMember (ws : UInt8 → Bool) :
    Bytes → Bytes → Bytes → Bytes → Doc → List (Bytes × Doc) → Prop
  | mk {w₁ w₂ w₃ pre t post k : Bytes} {d : Doc} {ms : List (Bytes × Doc)} : Spaces ws w₁ →
      Spaces ws w₂ → Spaces ws w₃ → MemberAt ws pre t post k d ms →
      RootMember ws (w₁ ++ chr '\x7b' :: (w₂ ++ pre)) t (post ++ chr '\x7d' :: w₃) k d ms

theorem After.members {t post : Bytes} {m : Bytes × Doc} {ms : List (Bytes × Doc)}
    (hm : Member ws t m) (h : After ws post ms) : Members ws (t ++ post) (m :: ms) := by
  cases h with
  | nil hw => exact .last hm hw
  | cons hw hw' hts =>
    have hmembers := Members.cons hm hw hw' hts
    rwa [List.append_assoc] at hmembers

theorem Before.members {pre t : Bytes} {ms₁ ms₂ : List (Bytes × Doc)} (h : Before ws pre ms₁)
    (ht : Members ws t ms₂) : Members ws (pre ++ t) (ms₁ ++ ms₂) := by
  induction h with
  | nil => exact ht
  | cons hm hw hw' _ ih =>
    have hmembers := Members.cons hm hw hw' ih
    simpa only [List.append_assoc, List.cons_append] using hmembers

variable {pre t post k : Bytes} {d : Doc} {ms : List (Bytes × Doc)}

theorem MemberAt.members (h : MemberAt ws pre t post k d ms) :
    Members ws (pre ++ t ++ post) ms := by
  cases h with
  | mk hpre hitems hw hw' ht hpost =>
    have hmem := hpost.members (.mk hitems hw hw' ht)
    simpa only [List.append_assoc, List.cons_append] using hpre.members hmem

theorem RootMember.text (h : RootMember ws pre t post k d ms) :
    Text ws (pre ++ t ++ post) (.object ms) := by
  cases h with
  | mk hw₁ hw₂ hw₃ hm =>
    have hobject : Value ws _ (.object ms) := .object hw₂ hm.members
    simpa only [List.append_assoc, List.cons_append, List.nil_append, List.singleton_append] using
      Text.mk hw₁ hobject hw₃

theorem RootMember.value (h : RootMember ws pre t post k d ms) : Value ws t d := by
  cases h with
  | mk _ _ _ hm => cases hm with | mk _ _ _ _ ht _ => exact ht

theorem MemberAt.cons {t' w w' : Bytes} {m : Bytes × Doc} (hm : Member ws t' m) (hw : Spaces ws w)
    (hw' : Spaces ws w') (h : MemberAt ws pre t post k d ms) :
    MemberAt ws (t' ++ w ++ chr ',' :: (w' ++ pre)) t post k d (m :: ms) := by
  cases h with
  | mk hpre hitems hv hv' ht hpost =>
    have hplace := MemberAt.mk (.cons hm hw hw' hpre) hitems hv hv' ht hpost
    simpa only [List.append_assoc, List.cons_append] using hplace

theorem Members.place {ts : Bytes} {ms : List (Bytes × Doc)} (h : Members ws ts ms)
    (hmem : (k, d) ∈ ms) :
    ∃ pre t post, ts = pre ++ t ++ post ∧ MemberAt ws pre t post k d ms := by
  cases h with
  | last hm hw =>
    obtain rfl := List.mem_singleton.mp hmem
    obtain ⟨hitems, hv, hv', ht⟩ := hm
    exact ⟨_, _, _, by simp, .mk .nil hitems hv hv' ht (.nil hw)⟩
  | cons hm hw hw' hts =>
    rcases List.mem_cons.mp hmem with rfl | hmem
    · obtain ⟨hitems, hv, hv', ht⟩ := hm
      exact ⟨_, _, _, by simp, .mk .nil hitems hv hv' ht (.cons hw hw' hts)⟩
    · obtain ⟨pre, t, post, rfl, hplace⟩ := hts.place hmem
      exact ⟨_, t, post, by simp, hplace.cons hm hw hw'⟩

theorem Text.place {text : Bytes} (h : Text ws text (.object ms)) (hmem : (k, d) ∈ ms) :
    ∃ pre t post, text = pre ++ t ++ post ∧ RootMember ws pre t post k d ms := by
  obtain ⟨hw₁, hv, hw₃⟩ := h
  cases hv with
  | emptyObject => cases hmem
  | object hw₂ hms =>
    obtain ⟨pre, t, post, rfl, hplace⟩ := hms.place hmem
    exact ⟨_, t, _, by simp, .mk hw₁ hw₂ hw₃ hplace⟩

-- ---------------------------------------------------------------------------
-- Strings without escapes
-- ---------------------------------------------------------------------------

def PlainString (t : Bytes) : Prop := ∀ b ∈ t, (Item.raw b).Valid

instance (t : Bytes) : Decidable (PlainString t) :=
  List.decidableBAll (fun b => 0x20 ≤ b ∧ b ≠ chr '"' ∧ b ≠ chr '\\') t

theorem textOf_raw (t : Bytes) : textOf (t.map .raw) = t := by
  rw [textOf, List.flatMap_map]
  exact List.flatMap_singleton' t

theorem decode_map_raw (t : Bytes) : decode (t.map .raw) = t := by
  induction t with
  | nil => rfl
  | cons b t ih => exact congrArg (b :: ·) ih

theorem PlainString.valid (h : PlainString t) : ∀ i ∈ t.map Item.raw, i.Valid := by
  intro i hi
  obtain ⟨b, hb, rfl⟩ := List.mem_map.mp hi
  exact h b hb

theorem PlainString.value (h : PlainString t) :
    Value ws (chr '"' :: (t ++ [chr '"'])) (.string t) := by
  have hvalue : Value ws (quoted (t.map .raw)) (.string (decode (t.map .raw))) := .string h.valid
  rwa [quoted, textOf_raw, decode_map_raw] at hvalue

theorem PlainString.member {v : Bytes} (h : PlainString t) (hv : Value ws v d) :
    Member ws (chr '"' :: (t ++ [chr '"']) ++ chr ':' :: v) (t, d) := by
  have hnil := Spaces.nil ws
  have hmember : Member ws (quoted (t.map .raw) ++ [] ++ chr ':' :: ([] ++ v))
      (decode (t.map .raw), d) := .mk h.valid hnil hnil hv
  simpa only [quoted, textOf_raw, decode_map_raw, List.append_nil, List.nil_append] using hmember

theorem PlainString.rootMember {v : Bytes} {ms₁ ms₂ : List (Bytes × Doc)} (h : PlainString t)
    (hpre : Before ws pre ms₁) (hv : Value ws v d) (hpost : After ws post ms₂) :
    RootMember ws (chr '\x7b' :: (pre ++ (chr '"' :: (t ++ [chr '"']) ++ [chr ':']))) v
      (post ++ [chr '\x7d']) t d (ms₁ ++ (t, d) :: ms₂) := by
  have hnil := Spaces.nil ws
  have hroot := RootMember.mk hnil hnil hnil (.mk hpre h.valid hnil hnil hv hpost)
  simpa only [quoted, textOf_raw, decode_map_raw, List.append_nil, List.nil_append] using hroot

end ByeByeVpn.JsonText
