/-! # Changes of a state that can fail

What a change does that is put together from smaller ones, told by its result.

* **`finalState`** — the state that a change leaves, whether or not it met a fault;
  **`finalState_bind_induct`** — what is kept by one change after the other.
* **`answer`** — what a change gives, whatever state it leaves.
* **`yields`** — what a change yields, where a fault forgets the state.
* **`Stateful.run_bind`** and the others — the results of the parts that changes are made of. -/

namespace Deployment

/-- The state that a change leaves, whether or not it met a fault. -/
def finalState {ε σ α : Type} (x : EStateM ε σ α) (s : σ) : σ :=
  match x s with
  | .ok _ s' => s'
  | .error _ s' => s'

variable {ε σ α β : Type}

/-- A computation that succeeds leaves the state that it gives. -/
theorem finalState_of_ok {x : EStateM ε σ α} {s s' : σ} {a : α} (h : x s = .ok a s') :
    finalState x s = s' := by
  simp [finalState, h]

/-- A computation that fails leaves the state that it failed in. -/
theorem finalState_of_error {x : EStateM ε σ α} {s s' : σ} {e : ε} (h : x s = .error e s') :
    finalState x s = s' := by
  simp [finalState, h]

/-- Runs that are equal leave equal states. -/
theorem finalState_congr {x y : EStateM ε σ α} {s s' : σ} (h : x s = y s') :
    finalState x s = finalState y s' := by
  simp [finalState, h]

/-- One change after the other. -/
theorem finalState_bind (x : EStateM ε σ α) (f : α → EStateM ε σ β) (s : σ) :
    finalState (x >>= f) s =
      match x s with
      | .ok a s' => finalState (f a) s'
      | .error _ s' => s' := by
  simp only [finalState, bind, EStateM.bind]
  cases x s <;> rfl

/-- What holds of the state that one change leaves, and is kept by the other where that comes after
it, holds of the state that both leave. -/
theorem finalState_bind_induct {P : σ → Prop} {x : EStateM ε σ α} {f : α → EStateM ε σ β} {s : σ}
    (first : P (finalState x s))
    (kept : ∀ a s', x s = .ok a s' → P s' → P (finalState (f a) s')) :
    P (finalState (x >>= f) s) := by
  rw [finalState_bind]
  cases h : x s with
  | error e s' => rwa [finalState_of_error h] at first
  | ok a s' =>
    rw [finalState_of_ok h] at first
    exact kept a s' h first

/-- What a change gives, whatever state it leaves. -/
def answer (x : EStateM ε σ α) (s : σ) : Except ε α :=
  match x s with
  | .ok a _ => .ok a
  | .error e _ => .error e

/-- What a change yields: its result with the state that it leaves, or its fault alone. -/
def yields (x : EStateM ε σ α) (s : σ) : Except ε (α × σ) :=
  match x s with
  | .ok a s' => .ok (a, s')
  | .error e _ => .error e

/-- A run that succeeds yields its value with the state that it leaves. -/
theorem yields_of_ok {x : EStateM ε σ α} {s s' : σ} {a : α} (h : x s = .ok a s') :
    yields x s = .ok (a, s') := by
  simp [yields, h]

/-- A run that fails yields its fault, without a state. -/
theorem yields_of_error {x : EStateM ε σ α} {s s' : σ} {e : ε} (h : x s = .error e s') :
    yields x s = .error e := by
  simp [yields, h]

/-- A run succeeds with what it yields. -/
theorem eq_ok_of_yields {x : EStateM ε σ α} {s s' : σ} {a : α} (h : yields x s = .ok (a, s')) :
    x s = .ok a s' := by
  simp only [yields] at h
  split at h <;> cases h
  assumption

/-- A change without a fault has a result and leaves a state. -/
theorem exists_ok_of_isOk {x : EStateM ε σ α} {s : σ} (h : (yields x s).isOk = true) :
    ∃ a s', x s = .ok a s' := by
  cases hx : x s with
  | ok a s' => exact ⟨a, s', rfl⟩
  | error e s' => rw [yields_of_error hx] at h; cases h

/-- What one change after the other yields. -/
theorem yields_bind (x : EStateM ε σ α) (f : α → EStateM ε σ β) (s : σ) :
    yields (x >>= f) s = yields x s >>= fun r => yields (f r.1) r.2 := by
  simp only [yields, bind, EStateM.bind]
  cases x s <;> rfl

namespace Stateful

/-- A computation goes on from the state in which the first one has succeeded. -/
theorem run_bind (x : EStateM ε σ α) (f : α → EStateM ε σ β) (s : σ) :
    (x >>= f) s = match x s with
      | .ok a s' => f a s'
      | .error e s' => .error e s' := rfl

/-- One change after the other succeeds where both do. -/
theorem run_bind_ok {x : EStateM ε σ α} {f : α → EStateM ε σ β} {s s'' : σ} {b : β} :
    (x >>= f) s = .ok b s'' ↔ ∃ a s', x s = .ok a s' ∧ f a s' = .ok b s'' := by
  rw [run_bind]
  cases x s with
  | error e s' => simp
  | ok a s' =>
    constructor
    · exact fun h => ⟨a, s', rfl, h⟩
    · rintro ⟨_, _, hx, h⟩
      cases hx
      exact h

/-- A change that only gives another result has the faults that it had. -/
theorem run_bind_pure_error {x : EStateM ε σ α} {f : α → β} {s s' : σ} {e : ε}
    (h : (x >>= fun a => pure (f a)) s = .error e s') : x s = .error e s' := by
  rw [run_bind] at h
  cases hx : x s with
  | ok a s'' => rw [hx] at h; cases h
  | error e' s'' => rw [hx] at h; cases h; rfl

/-- A value is given, and the state stays as it is. -/
@[simp] theorem run_pure (a : α) (s : σ) : (pure a : EStateM ε σ α) s = .ok a s := rfl

/-- A fault is given, and the state stays as it is. -/
@[simp] theorem run_throw (e : ε) (s : σ) : (throw e : EStateM ε σ α) s = .error e s := rfl

/-- The state is given, and stays as it is. -/
@[simp] theorem run_get (s : σ) : (get : EStateM ε σ σ) s = .ok s s := rfl

/-- The state is changed, and no value is given. -/
@[simp] theorem run_modify (f : σ → σ) (s : σ) :
    (modify f : EStateM ε σ PUnit) s = .ok ⟨⟩ (f s) := rfl

/-- A computation under a condition runs as the one that the condition chooses. -/
theorem run_ite {c : Prop} [Decidable c] (x y : EStateM ε σ α) (s : σ) :
    (if c then x else y) s = if c then x s else y s := by
  split <;> rfl

/-- A loop whose every turn leaves the state as it is does so as a whole. -/
theorem run_forM_of_unchanged {l : List α} {f : α → EStateM ε σ Unit} {s : σ}
    (h : ∀ a ∈ l, f a s = .ok () s) : l.forM f s = .ok () s := by
  induction l with
  | nil => rfl
  | cons a rest ih =>
    show (f a >>= fun _ => rest.forM f) s = _
    rw [run_bind, h a List.mem_cons_self]
    exact ih fun b hb => h b (List.mem_cons_of_mem a hb)

end Stateful

namespace Failing

/-- What follows a success goes on with its value. -/
@[simp] theorem ok_bind (a : α) (f : α → Except ε β) : (Except.ok a >>= f) = f a := rfl

/-- What follows a fault is not done. -/
@[simp] theorem error_bind (e : ε) (f : α → Except ε β) : (Except.error e >>= f) = .error e := rfl

/-- A success has no fault to change. -/
@[simp] theorem mapError_ok {ε' : Type} (f : ε → ε') (a : α) :
    (Except.ok a).mapError f = .ok a := rfl

/-- A fault that is thrown is the result. -/
@[simp] theorem throw_eq (e : ε) : (throw e : Except ε α) = .error e := rfl

/-- A value that is given is the result. -/
@[simp] theorem pure_eq (a : α) : (pure a : Except ε α) = .ok a := rfl

/-- What gives a value without its faults gives it with them. -/
theorem eq_ok_of_toOption {x : Except ε α} {a : α} (h : x.toOption = some a) : x = .ok a := by
  cases x with
  | ok b => rw [Option.some.inj h]
  | error e => cases h

/-- A change undone item by item is undone on a list. -/
theorem mapM_map_ok {f : β → Except ε α} {g : α → β} {l : List α}
    (h : ∀ a ∈ l, f (g a) = .ok a) : (l.map g).mapM f = .ok l := by
  induction l with
  | nil => rfl
  | cons a l ih =>
    rw [List.map_cons, List.mapM_cons, h a List.mem_cons_self,
      ih fun b hb => h b (List.mem_cons_of_mem a hb)]
    rfl

/-- A fold that takes up every item takes them up in order. -/
theorem foldlM_take {τ : Type} {step : τ × List β → β → Except ε (τ × List β)} {l : List β}
    (h : ∀ b ∈ l, ∀ t taken, step (t, taken) b = .ok (t, taken ++ [b])) (t : τ)
    (taken : List β) : l.foldlM step (t, taken) = .ok (t, taken ++ l) := by
  induction l generalizing taken with
  | nil => rw [List.append_nil]; rfl
  | cons b l ih =>
    have hmore := ih (fun c hc => h c (List.mem_cons_of_mem _ hc)) (taken ++ [b])
    rw [List.append_assoc, List.singleton_append] at hmore
    rw [List.foldlM_cons, h b List.mem_cons_self t taken]
    exact hmore

end Failing

end Deployment
