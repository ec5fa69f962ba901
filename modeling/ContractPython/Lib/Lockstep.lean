import ContractPython.Lib.Program

/-!
# Two programs in lockstep

Rules for two computations that do the same on two states, step for step, and for computations that
do not look at a part of the state: whatever stands there, they do the same and leave it there.
-/

namespace Program

variable {ε σ τ α β ι : Type}

/-! ### The same outcome -/

/-- The two results return the same value in states that `Q` relates for it, or throw the same
exception in states that `E` relates. -/
inductive InStep (E : σ → τ → Prop) (Q : α → σ → τ → Prop) :
    EStateM.Result ε σ α → EStateM.Result ε τ α → Prop
  | ok {a : α} {s : σ} {t : τ} (h : Q a s t) : InStep E Q (.ok a s) (.ok a t)
  | error {e : ε} {s : σ} {t : τ} (h : E s t) : InStep E Q (.error e s) (.error e t)

namespace InStep

variable {E : σ → τ → Prop} {Q : α → σ → τ → Prop} {Q' : β → σ → τ → Prop}
  {x : EStateM ε σ α} {y : EStateM ε τ α} {f : α → EStateM ε σ β} {g : α → EStateM ε τ β} {s : σ} {t : τ}

lemma mono {P : α → σ → τ → Prop} {r : EStateM.Result ε σ α} {r' : EStateM.Result ε τ α}
    (h : InStep E P r r') (hPQ : ∀ a s t, P a s t → Q a s t) : InStep E Q r r' := by
  cases h with
  | ok h => exact .ok (hPQ _ _ _ h)
  | error h => exact .error h

/-- What the first of two equal results is known to satisfy. -/
lemma and_left {P : α → σ → Prop} {r : EStateM.Result ε σ α} {r' : EStateM.Result ε τ α}
    (h : InStep E Q r r') (hP : ∀ a s, r = .ok a s → P a s) :
    InStep E (fun a s t => Q a s t ∧ P a s) r r' := by
  cases h with
  | ok h => exact .ok ⟨h, hP _ _ rfl⟩
  | error h => exact .error h

/-- What the second of two equal results is known to satisfy. -/
lemma and_right {P : α → τ → Prop} {r : EStateM.Result ε σ α} {r' : EStateM.Result ε τ α}
    (h : InStep E Q r r') (hP : ∀ a t, r' = .ok a t → P a t) :
    InStep E (fun a s t => Q a s t ∧ P a t) r r' := by
  cases h with
  | ok h => exact .ok ⟨h, hP _ _ rfl⟩
  | error h => exact .error h

lemma bind (h : InStep E Q (x s) (y t)) (hfg : ∀ a s' t', Q a s' t' → InStep E Q' (f a s') (g a t')) :
    InStep E Q' ((x >>= f) s) ((y >>= g) t) := by
  generalize hxs : x s = r at h
  generalize hyt : y t = r' at h
  cases h with
  | ok h =>
    rw [bind_of_ok hxs, bind_of_ok hyt]
    exact hfg _ _ _ h
  | error h =>
    rw [bind_of_error hxs, bind_of_error hyt]
    exact .error h

/-- A step that only the first program makes. -/
lemma bind_left {a : α} {s' : σ} {y' : EStateM ε τ β} (hx : x s = .ok a s') (h : InStep E Q' (f a s') (y' t)) :
    InStep E Q' ((x >>= f) s) (y' t) := by
  rwa [bind_of_ok hx]

/-- A loop over so many rounds, and one over the elements of a list. -/
lemma iterateM {I : List ι → α → σ → τ → Prop} {step : α → EStateM ε σ α} {step' : α → ι → EStateM ε τ α}
    (l : List ι) (hstep : ∀ i rest a s t, I (i :: rest) a s t → InStep E (I rest) (step a s) (step' a i t))
    {a : α} (h : I l a s t) : InStep E (I []) (iterateM l.length step a s) (l.foldlM step' a t) := by
  induction l generalizing a s t with
  | nil => exact .ok h
  | cons i rest ih =>
    rw [List.foldlM_cons]
    exact bind (hstep i rest a s t h) fun a' s' t' h' => ih h'

end InStep

/-! ### A part of the state nobody looks at -/

/-- The result with its state changed. -/
def mapState (g : σ → σ) : EStateM.Result ε σ α → EStateM.Result ε σ α
  | .ok a s => .ok a (g s)
  | .error e s => .error e (g s)

/-- Changing the state before or after `x` makes no difference. -/
def Commutes (g : σ → σ) (α : Type) (x : EStateM ε σ α) : Prop := ∀ s, x (g s) = mapState g (x s)

namespace Commutes

variable {g : σ → σ} {x : EStateM ε σ α} {s s' : σ} {a : α} {e : ε}

lemma of_ok (h : Commutes g α x) (hx : x s = .ok a s') : x (g s) = .ok a (g s') := by
  rw [h s, hx]
  rfl

lemma of_error (h : Commutes g α x) (hx : x s = .error e s') : x (g s) = .error e (g s') := by
  rw [h s, hx]
  rfl

lemma intro (hok : ∀ s a s', x s = .ok a s' → x (g s) = .ok a (g s'))
    (herror : ∀ s e s', x s = .error e s' → x (g s) = .error e (g s')) : Commutes g α x := by
  intro s
  cases hx : x s with
  | ok a s' => exact hok s a s' hx
  | error e s' => exact herror s e s' hx

lemma compositional (g : σ → σ) : Compositional (Commutes g : ∀ α : Type, EStateM ε σ α → Prop) where
  pure _ _ := rfl
  throw _ _ := rfl
  bind {_ _ x f} hx hf s := by
    cases hxs : x s with
    | ok a s₁ => rw [bind_of_ok (hx.of_ok hxs), bind_of_ok hxs, hf a s₁]
    | error e s₁ =>
      rw [bind_of_error (hx.of_error hxs), bind_of_error hxs]
      rfl

end Commutes

end Program
