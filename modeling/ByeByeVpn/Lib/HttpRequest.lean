import ByeByeVpn.Lib.HttpMessage

/-!
# HTTP/1.1 requests

A request without a body is a line with a method and a target, header fields,
and a blank line. A text can be read in at most one way.
-/

namespace ByeByeVpn.Http

structure Request where
  method : Bytes
  target : Bytes
  fields : List Field

structure Word (s : Bytes) : Prop where
  nonempty : s ≠ []
  plain : ∀ c ∈ s, isspace c = false

def fieldLines (fields : List Field) : Bytes := (fields.flatMap fun f => f.text ++ crlf) ++ crlf

namespace Request

variable (r : Request)

def line : Bytes := r.method ++ chr ' ' :: (r.target ++ ascii " HTTP/1.1")

def text : Bytes := r.line ++ crlf ++ fieldLines r.fields

structure WellFormed : Prop where
  method : Word r.method
  target : Word r.target
  fields : ∀ f ∈ r.fields, f.WellFormed

/-- The text is this request, and no other one. -/
structure Only (text : Bytes) : Prop where
  wellFormed : r.WellFormed
  reads : r.text = text
  unique : ∀ r' : Request, r'.WellFormed → r'.text = text → r' = r

end Request

theorem cut_inj {a b s t : Bytes} {x : UInt8} (ha : x ∉ a) (hb : x ∉ b)
    (h : a ++ x :: s = b ++ x :: t) : a = b ∧ s = t := by
  have hcut {l : Bytes} (hl : x ∉ l) (r : Bytes) : (l ++ x :: r).takeWhile (· != x) = l := by
    refine takeWhile_append_rest (fun c hc => bne_iff_ne.mpr fun he => hl (he ▸ hc)) fun c hc => ?_
    obtain rfl := Option.some.inj hc
    exact bne_self_eq_false x
  obtain rfl : a = b := by rw [← hcut ha s, h, hcut hb t]
  exact ⟨rfl, (List.cons.inj (List.append_cancel_left h)).2⟩

theorem Word.not_mem {s : Bytes} (h : Word s) {c : UInt8} (hc : isspace c = true) : c ∉ s := by
  intro hm
  rw [h.plain c hm] at hc
  cases hc

theorem Field.wellFormed_of_plain {name value : Bytes} (hne : name ≠ [])
    (hname : name.all fun c => c != chr ':' && !isspace c) (hvalue : InLine value) :
    (⟨name, value⟩ : Field).WellFormed :=
  ⟨hne, fun c hc => by simpa using List.all_eq_true.mp hname c hc, hvalue⟩

theorem inLine_append {s t : Bytes} : InLine (s ++ t) ↔ InLine s ∧ InLine t := by
  simp only [InLine, List.mem_append, not_or]
  tauto

theorem Field.text_inj {f g : Field} (hf : f.WellFormed) (hg : g.WellFormed)
    (h : f.text = g.text) : f = g := by
  have hname {f : Field} (hf : f.WellFormed) : chr ':' ∉ f.name := fun hm => (hf.name _ hm).1 rfl
  obtain ⟨hn, hv⟩ := cut_inj (hname hf) (hname hg) h
  cases f
  cases g
  exact congrArg₂ Field.mk hn hv

theorem fieldLines_cons (f : Field) (fields : List Field) :
    fieldLines (f :: fields) = f.text ++ 13 :: 10 :: fieldLines fields := by
  simp [fieldLines, crlf]

theorem fieldLines_cons_ne {f : Field} (hf : f.WellFormed) (fields : List Field) :
    fieldLines (f :: fields) ≠ fieldLines [] := by
  intro h
  obtain ⟨c, s, htext⟩ := List.exists_cons_of_ne_nil f.text_ne_nil
  rw [fieldLines_cons, htext] at h
  obtain rfl := (List.cons.inj h).1
  exact Field.not_mem_text hf (htext ▸ List.mem_cons_self)

theorem fieldLines_inj {fs gs : List Field} (hf : ∀ f ∈ fs, f.WellFormed)
    (hg : ∀ g ∈ gs, g.WellFormed) (h : fieldLines fs = fieldLines gs) : fs = gs := by
  induction fs generalizing gs with
  | nil =>
    cases gs with
    | nil => rfl
    | cons g gs => exact absurd h.symm (fieldLines_cons_ne (hg g List.mem_cons_self) gs)
  | cons f fs ih =>
    have hwf := hf f List.mem_cons_self
    cases gs with
    | nil => exact absurd h (fieldLines_cons_ne hwf fs)
    | cons g gs =>
      have hwg := hg g List.mem_cons_self
      rw [fieldLines_cons, fieldLines_cons] at h
      obtain ⟨htext, hrest⟩ := cut_inj (Field.not_mem_text hwf) (Field.not_mem_text hwg) h
      have htail := ih (fun f hm => hf f (List.mem_cons_of_mem _ hm))
        (fun g hm => hg g (List.mem_cons_of_mem _ hm)) (List.cons.inj hrest).2
      rw [Field.text_inj hwf hwg htext, htail]

namespace Request

variable {r r' : Request}

theorem WellFormed.not_mem_line (h : r.WellFormed) : (13 : UInt8) ∉ r.line := by
  have hm := h.method.not_mem (c := 13) (by decide)
  have ht := h.target.not_mem (c := 13) (by decide)
  have hv : (13 : UInt8) ∉ ascii " HTTP/1.1" := by decide
  have hs : (13 : UInt8) ≠ chr ' ' := by decide
  simp [line, hm, ht, hv, hs]

theorem text_inj (h : r.WellFormed) (h' : r'.WellFormed) (heq : r.text = r'.text) : r = r' := by
  have hlines : r.line ++ 13 :: 10 :: fieldLines r.fields =
      r'.line ++ 13 :: 10 :: fieldLines r'.fields := by simpa [text, crlf] using heq
  obtain ⟨hline, hrest⟩ := cut_inj h.not_mem_line h'.not_mem_line hlines
  have hspace : isspace (chr ' ') = true := by decide
  obtain ⟨hmethod, htail⟩ := cut_inj (h.method.not_mem hspace) (h'.method.not_mem hspace) hline
  obtain ⟨htarget, -⟩ := cut_inj (h.target.not_mem hspace) (h'.target.not_mem hspace) htail
  have hfields := fieldLines_inj h.fields h'.fields (List.cons.inj hrest).2
  cases r
  cases r'
  simp only at hmethod htarget hfields
  rw [hmethod, htarget, hfields]

theorem WellFormed.only (h : r.WellFormed) : r.Only r.text where
  wellFormed := h
  reads := rfl
  unique _ h' heq := text_inj h' h heq

end Request

end ByeByeVpn.Http
