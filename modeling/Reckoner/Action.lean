/-
# Actions on a state that outlives a failure

A cursor, the reading of a line and a loop are each a state that actions change,
and an action that fails leaves a state behind as well.  `EStateM` has such
actions; this file says when two actions in a row succeed or fail, and that they
keep what both of them keep (`Keeps.bind`).
-/

namespace Reckoner

variable {ε σ α β : Type}

/-- The state that an action leaves, whether it succeeds or fails. -/
def stateAfter : EStateM.Result ε σ α → σ
  | .ok _ state => state
  | .error _ state => state

/-- Behind an action that succeeds the second one goes on. -/
theorem bind_of_ok {first : EStateM ε σ α} {second : α → EStateM ε σ β} {s t : σ} {a : α}
    (h : first s = .ok a t) : (first >>= second) s = second a t := by
  change EStateM.bind first second s = _
  rw [EStateM.bind, h]

/-- Behind an action that fails nothing goes on. -/
theorem bind_of_error {first : EStateM ε σ α} {second : α → EStateM ε σ β} {s t : σ} {e : ε}
    (h : first s = .error e t) : (first >>= second) s = .error e t := by
  change EStateM.bind first second s = _
  rw [EStateM.bind, h]

/-- **Two actions in a row succeed** if both do, the second from the state that
the first leaves. -/
theorem bind_eq_ok_iff {first : EStateM ε σ α} {second : α → EStateM ε σ β} {s t : σ} {b : β} :
    (first >>= second) s = .ok b t ↔ ∃ a u, first s = .ok a u ∧ second a u = .ok b t := by
  change EStateM.bind first second s = .ok b t ↔ _
  unfold EStateM.bind
  cases first s with
  | ok a u => exact ⟨fun h => ⟨a, u, rfl, h⟩, by rintro ⟨_, _, ⟨⟩, h⟩; exact h⟩
  | error e u => simp

/-- **Two actions in a row fail** if the first does, or if it succeeds and the
second fails. -/
theorem bind_eq_error_iff {first : EStateM ε σ α} {second : α → EStateM ε σ β} {s t : σ} {e : ε} :
    (first >>= second) s = .error e t ↔
      first s = .error e t ∨ ∃ a u, first s = .ok a u ∧ second a u = .error e t := by
  change EStateM.bind first second s = .error e t ↔ _
  unfold EStateM.bind
  cases first s with
  | ok a u => exact ⟨fun h => .inr ⟨a, u, rfl, h⟩, by rintro (⟨⟨⟩⟩ | ⟨_, _, ⟨⟩, h⟩); exact h⟩
  | error e u => simp

/-- A function is applied to what the action gives. -/
theorem map_of_ok {action : EStateM ε σ α} {s t : σ} {a : α} (f : α → β)
    (h : action s = .ok a t) : (f <$> action) s = .ok (f a) t := by
  change EStateM.map f action s = _
  rw [EStateM.map, h]

/-- Behind an action that fails there is nothing to apply a function to. -/
theorem map_of_error {action : EStateM ε σ α} {s t : σ} {e : ε} (f : α → β)
    (h : action s = .error e t) : (f <$> action) s = .error e t := by
  change EStateM.map f action s = _
  rw [EStateM.map, h]

/-- An action that only gives a value gives this one and leaves the state as it is. -/
@[simp] theorem pure_eq_ok_iff {a b : α} {s t : σ} :
    (pure a : EStateM ε σ α) s = .ok b t ↔ a = b ∧ s = t := by
  change EStateM.Result.ok a s = .ok b t ↔ _
  simp

/-- Whether an action keeps a property of the state, also where it fails. -/
def Keeps (property : σ → Prop) (action : EStateM ε σ α) : Prop :=
  ∀ s, property s → property (stateAfter (action s))

section Keeps

variable {property : σ → Prop}

/-- Giving a value changes no state, so it keeps every property. -/
theorem keeps_pure (a : α) : Keeps property (pure a : EStateM ε σ α) := fun _ h => h

/-- Failing changes no state either. -/
theorem keeps_throw (e : ε) : Keeps property (throw e : EStateM ε σ α) := fun _ h => h

/-- Two actions in a row keep what both of them keep. -/
theorem Keeps.bind {first : EStateM ε σ α} {second : α → EStateM ε σ β}
    (hf : Keeps property first) (hs : ∀ a, Keeps property (second a)) :
    Keeps property (first >>= second) := by
  intro s h
  have hfirst := hf s h
  cases hrun : first s with
  | ok a t =>
    rw [hrun] at hfirst
    rw [bind_of_ok hrun]
    exact hs a t hfirst
  | error e t =>
    rw [hrun] at hfirst
    rwa [bind_of_error hrun]

/-- What an action gives has no part in what it keeps. -/
theorem Keeps.map {action : EStateM ε σ α} (h : Keeps property action) (f : α → β) :
    Keeps property (f <$> action) := by
  intro s hs
  have haction := h s hs
  cases hrun : action s with
  | ok a t =>
    rw [hrun] at haction
    rwa [map_of_ok f hrun]
  | error e t =>
    rw [hrun] at haction
    rwa [map_of_error f hrun]

end Keeps

end Reckoner
