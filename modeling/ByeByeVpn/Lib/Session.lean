import ByeByeVpn.Lib.Runs

/-!
# Programs that record their calls

A program is the list of the calls that it makes and, once it has returned,
its result. A protocol is a machine whose actions are the calls. Whether a
program keeps to it follows from the way the program is put together.
-/

namespace ByeByeVpn

structure Session (κ α : Type) where
  calls : List κ
  /-- Nothing while the program still runs. -/
  result : Option α

namespace Session

variable {κ α β σ : Type}

instance : Monad (Session κ) where
  pure x := ⟨[], some x⟩
  bind m f :=
    match m.result with
    | some x => ⟨m.calls ++ (f x).calls, (f x).result⟩
    | none => ⟨m.calls, none⟩

def call (c : κ) : Session κ Unit := ⟨[c], some ()⟩

/-- A block that gives back at its end what it took at its start. -/
def within (enter leave : κ) (body : Session κ α) : Session κ α := do
  call enter
  let x ← body
  call leave
  return x

variable {step : σ → κ → Option σ} {s t u : σ} {m : Session κ α} {f : α → Session κ β}

theorem bind_of_some {x : α} (h : m.result = some x) :
    m >>= f = ⟨m.calls ++ (f x).calls, (f x).result⟩ := by
  change (match m.result with
    | some x => ⟨m.calls ++ (f x).calls, (f x).result⟩
    | none => ⟨m.calls, none⟩ : Session κ β) = _
  rw [h]

theorem bind_of_none (h : m.result = none) : m >>= f = ⟨m.calls, none⟩ := by
  change (match m.result with
    | some x => ⟨m.calls ++ (f x).calls, (f x).result⟩
    | none => ⟨m.calls, none⟩ : Session κ β) = _
  rw [h]

theorem within_of_some {enter leave : κ} {x : α} (h : m.result = some x) :
    within enter leave m = ⟨enter :: (m.calls ++ [leave]), some x⟩ := by
  have hbody : (m >>= fun x => (call leave >>= fun _ => pure x : Session κ α)) = _ :=
    bind_of_some h
  change (call enter >>= fun _ => m >>= fun x => call leave >>= fun _ => pure x) = _
  rw [hbody]
  rfl

theorem within_of_none {enter leave : κ} (h : m.result = none) :
    within enter leave m = ⟨enter :: m.calls, none⟩ := by
  have hbody : (m >>= fun x => (call leave >>= fun _ => pure x : Session κ α)) = _ :=
    bind_of_none h
  change (call enter >>= fun _ => m >>= fun x => call leave >>= fun _ => pure x) = _
  rw [hbody]
  rfl

theorem exec_append (step : σ → κ → Option σ) (s : σ) (cs ds : List κ) :
    Runs.exec step s (cs ++ ds) = (Runs.exec step s cs).bind fun t => Runs.exec step t ds := by
  induction cs generalizing s with
  | nil => rfl
  | cons c cs ih =>
    rw [List.cons_append, Runs.exec, Runs.exec, Option.bind_assoc]
    exact congrArg _ (funext ih)

/-- The protocol allows the calls, and `post` holds when the program returns. -/
def Leads (step : σ → κ → Option σ) (s : σ) (m : Session κ α) (post : α → σ → Prop) : Prop :=
  ∃ t, Runs.exec step s m.calls = some t ∧ ∀ x, m.result = some x → post x t

variable {post : α → σ → Prop} {post' : β → σ → Prop}

theorem Leads.pure {x : α} (h : post x s) : Leads step s (Pure.pure x : Session κ α) post :=
  ⟨s, rfl, fun y hy => by
    obtain rfl : x = y := Option.some.inj hy
    exact h⟩

theorem Leads.bind (hm : Leads step s m post)
    (hf : ∀ x t, post x t → Leads step t (f x) post') : Leads step s (m >>= f) post' := by
  obtain ⟨t, hexec, hpost⟩ := hm
  change Leads step s (match m.result with
    | some x => ⟨m.calls ++ (f x).calls, (f x).result⟩
    | none => ⟨m.calls, none⟩) post'
  cases hr : m.result with
  | none => exact ⟨t, hexec, fun x hx => by cases hx⟩
  | some x =>
    obtain ⟨u, hexec', hpost'⟩ := hf x t (hpost x hr)
    refine ⟨u, ?_, hpost'⟩
    rw [exec_append, hexec]
    exact hexec'

theorem Leads.call {c : κ} {post : Unit → σ → Prop} (hstep : step s c = some t)
    (h : post () t) : Leads step s (call c) post :=
  ⟨t, by rw [Session.call, Runs.exec, hstep]; rfl, fun _ _ => h⟩

theorem Leads.mono {post₁ post₂ : α → σ → Prop} (hm : Leads step s m post₁)
    (h : ∀ x t, post₁ x t → post₂ x t) : Leads step s m post₂ := by
  obtain ⟨t, hexec, hpost⟩ := hm
  exact ⟨t, hexec, fun x hx => h x t (hpost x hx)⟩

theorem Leads.returns (hm : Leads step s m post) :
    Leads step s m fun x t => post x t ∧ m.result = some x := by
  obtain ⟨t, hexec, hpost⟩ := hm
  exact ⟨t, hexec, fun x hx => ⟨hpost x hx, hx⟩⟩

theorem Leads.seq {c : κ} {rest : Unit → Session κ α} (hstep : step s c = some t)
    (h : Leads step t (rest ()) post) : Leads step s (Session.call c >>= rest) post := by
  have hcall : Leads step s (Session.call c) fun _ u => u = t := .call hstep rfl
  exact hcall.bind fun _ _ hu => hu ▸ h

/-- The end of the block must be possible wherever its body returns. -/
theorem Leads.within {enter leave : κ} (henter : step s enter = some t)
    (hbody : Leads step t m fun x u => ∃ v, step u leave = some v ∧ post x v) :
    Leads step s (Session.within enter leave m) post :=
  .seq henter (hbody.bind fun _ _ ⟨_, hleave, hx⟩ => .seq hleave (.pure hx))

theorem Leads.ite {c : Prop} [Decidable c] {m m' : Session κ α}
    (hthen : c → Leads step s m post) (helse : ¬c → Leads step s m' post) :
    Leads step s (if c then m else m') post := by
  split_ifs with hc
  · exact hthen hc
  · exact helse hc

end Session

end ByeByeVpn
