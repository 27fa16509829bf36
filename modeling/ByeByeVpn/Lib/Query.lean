import Mathlib.Data.List.Basic

/-!
# Programs that ask

What a program asks next may depend on the answers so far. With something that
answers, it has a result and the list of what it asked; and nothing else that
could have been asked matters.
-/

namespace ByeByeVpn

/-- The answer to the question `q` is a value of `ρ q`. -/
inductive Query (ι : Type) (ρ : ι → Type) (α : Type)
  | ret (x : α)
  | ask (q : ι) (next : ρ q → Query ι ρ α)

namespace Query

variable {ι : Type} {ρ : ι → Type} {α β : Type}

def bind : Query ι ρ α → (α → Query ι ρ β) → Query ι ρ β
  | .ret x, f => f x
  | .ask q next, f => .ask q fun a => (next a).bind f

instance : Monad (Query ι ρ) where
  pure := .ret
  bind := .bind

theorem bind_ret (m : Query ι ρ α) : m.bind .ret = m := by
  induction m with
  | ret x => rfl
  | ask q next ih => exact congrArg (ask q) (funext ih)

theorem bind_assoc {γ : Type} (m : Query ι ρ α) (f : α → Query ι ρ β) (g : β → Query ι ρ γ) :
    (m.bind f).bind g = m.bind fun x => (f x).bind g := by
  induction m with
  | ret x => rfl
  | ask q next ih => exact congrArg (ask q) (funext ih)

instance : LawfulMonad (Query ι ρ) := .mk' _ bind_ret (fun _ _ => rfl) bind_assoc

def get (q : ι) : Query ι ρ (ρ q) := .ask q .ret

variable (answer : (q : ι) → ρ q)

def run : Query ι ρ α → α
  | .ret x => x
  | .ask q next => (next (answer q)).run

def asked : Query ι ρ α → List ι
  | .ret _ => []
  | .ask q next => q :: (next (answer q)).asked

@[simp] theorem run_pure (x : α) : (pure x : Query ι ρ α).run answer = x := rfl

@[simp] theorem asked_pure (x : α) : (pure x : Query ι ρ α).asked answer = [] := rfl

@[simp] theorem run_get (q : ι) : (get q : Query ι ρ (ρ q)).run answer = answer q := rfl

@[simp] theorem asked_get (q : ι) : (get q : Query ι ρ (ρ q)).asked answer = [q] := rfl

@[simp] theorem run_bind (m : Query ι ρ α) (f : α → Query ι ρ β) :
    (m >>= f).run answer = (f (m.run answer)).run answer := by
  induction m with
  | ret x => rfl
  | ask q next ih => exact ih (answer q)

@[simp] theorem asked_bind (m : Query ι ρ α) (f : α → Query ι ρ β) :
    (m >>= f).asked answer = m.asked answer ++ (f (m.run answer)).asked answer := by
  induction m with
  | ret x => rfl
  | ask q next ih => exact congrArg (q :: ·) (ih (answer q))

@[simp] theorem run_map (f : α → β) (m : Query ι ρ α) :
    (f <$> m).run answer = f (m.run answer) := by
  rw [map_eq_pure_bind, run_bind, run_pure]

@[simp] theorem asked_map (f : α → β) (m : Query ι ρ α) :
    (f <$> m).asked answer = m.asked answer := by
  rw [map_eq_pure_bind, asked_bind, asked_pure, List.append_nil]

@[simp] theorem run_ite (c : Prop) [Decidable c] (m m' : Query ι ρ α) :
    (if c then m else m').run answer = if c then m.run answer else m'.run answer := by
  split <;> rfl

@[simp] theorem asked_ite (c : Prop) [Decidable c] (m m' : Query ι ρ α) :
    (if c then m else m').asked answer = if c then m.asked answer else m'.asked answer := by
  split <;> rfl

@[simp] theorem run_mapM {γ : Type} (f : γ → Query ι ρ α) (l : List γ) :
    (l.mapM f).run answer = l.map fun x => (f x).run answer := by
  induction l with
  | nil => rfl
  | cons x l ih => simp [ih]

@[simp] theorem asked_mapM {γ : Type} (f : γ → Query ι ρ α) (l : List γ) :
    (l.mapM f).asked answer = l.flatMap fun x => (f x).asked answer := by
  induction l with
  | nil => rfl
  | cons x l ih => simp [ih]

/-- The same program, with a mark on all its questions. -/
def mark {κ : Type} (k : κ) : Query ι ρ α → Query (κ × ι) (fun q => ρ q.2) α
  | .ret x => .ret x
  | .ask q next => .ask (k, q) fun a => (next a).mark k

@[simp] theorem run_mark {κ : Type} (k : κ) (m : Query ι ρ α) (answer : (q : κ × ι) → ρ q.2) :
    (m.mark k).run answer = m.run fun q => answer (k, q) := by
  induction m with
  | ret x => rfl
  | ask q next ih => exact ih (answer (k, q))

@[simp] theorem asked_mark {κ : Type} (k : κ) (m : Query ι ρ α) (answer : (q : κ × ι) → ρ q.2) :
    (m.mark k).asked answer = (m.asked fun q => answer (k, q)).map (Prod.mk k) := by
  induction m with
  | ret x => rfl
  | ask q next ih => exact congrArg ((k, q) :: ·) (ih (answer (k, q)))

variable {answer}

/-- The frame rule: the answers to what is not asked may be any. -/
theorem run_frame {answer' : (q : ι) → ρ q} {m : Query ι ρ α}
    (h : ∀ q ∈ m.asked answer, answer' q = answer q) :
    m.run answer' = m.run answer ∧ m.asked answer' = m.asked answer := by
  induction m with
  | ret x => exact ⟨rfl, rfl⟩
  | ask q next ih =>
    obtain ⟨hq, hrest⟩ := List.forall_mem_cons.mp h
    obtain ⟨hrun, hasked⟩ := ih (answer q) hrest
    simp only [run, asked, hq]
    exact ⟨hrun, congrArg (q :: ·) hasked⟩

end Query

end ByeByeVpn
