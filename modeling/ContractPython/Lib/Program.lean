import Mathlib.Logic.Basic

/-!
# Programs with state and exceptions

Loops and case analysis for computations in `EStateM ε σ`, and properties of computations
that sequencing respects: such a property holds of a whole interpreter as soon as it holds
of its primitive steps.
-/

namespace Program

variable {ε σ α β γ : Type}

/-- `for(i = 0; i < n; ++i)` over an accumulator. -/
def iterateM : Nat → (α → EStateM ε σ α) → α → EStateM ε σ α
  | 0, _, a => pure a
  | n + 1, f, a => do
    let a' ← f a
    iterateM n f a'

/-! ### One step of a sequence -/

section Steps

variable {x : EStateM ε σ α} {f : α → EStateM ε σ β} {s s' s₁ : σ} {a : α} {b : β} {e : ε}

@[simp] lemma pure_apply (a : α) (s : σ) : (pure a : EStateM ε σ α) s = .ok a s := rfl

@[simp] lemma throw_apply (e : ε) (s : σ) : (throw e : EStateM ε σ α) s = .error e s := rfl

lemma bind_of_ok (h : x s = .ok a s₁) : (x >>= f) s = f a s₁ := by
  simp only [bind, EStateM.bind, h]

lemma bind_of_error (h : x s = .error e s₁) : (x >>= f) s = .error e s₁ := by
  simp only [bind, EStateM.bind, h]

/-- Two first parts with the same result. -/
lemma bind_of_eq {y : EStateM ε σ α} (h : x s = y s') : (x >>= f) s = (y >>= f) s' := by
  simp only [bind, EStateM.bind, h]

/-- A sequence returns normally when both of its parts do. -/
lemma bind_eq_ok : (x >>= f) s = .ok b s' ↔ ∃ a s₁, x s = .ok a s₁ ∧ f a s₁ = .ok b s' := by
  cases hx : x s with
  | ok a s₁ =>
    rw [bind_of_ok hx]
    exact ⟨fun h => ⟨a, s₁, rfl, h⟩, fun ⟨_, _, hax, h⟩ => by cases hax; exact h⟩
  | error e s₁ => simp [bind_of_error hx]

/-- A loop goes on behind its first rounds. -/
lemma iterateM_of_ok {g : α → EStateM ε σ α} {m : Nat} {a' : α} (h : iterateM m g a s = .ok a' s₁) (n : Nat) :
    iterateM (m + n) g a s = iterateM n g a' s₁ := by
  induction m generalizing a s with
  | zero =>
    cases h
    rw [Nat.zero_add]
  | succ m ih =>
    obtain ⟨b, s₂, hg, hrest⟩ := bind_eq_ok.mp h
    rw [Nat.succ_add]
    exact (bind_of_ok hg).trans (ih hrest)

/-- A sequence throws when one of its parts does. -/
lemma bind_eq_error : (x >>= f) s = .error e s' ↔
    x s = .error e s' ∨ ∃ a s₁, x s = .ok a s₁ ∧ f a s₁ = .error e s' := by
  cases hx : x s with
  | ok a s₁ =>
    rw [bind_of_ok hx]
    exact ⟨fun h => .inr ⟨a, s₁, rfl, h⟩, fun
      | .inr ⟨_, _, hax, h⟩ => by cases hax; exact h⟩
  | error e s₁ => simp [bind_of_error hx]

@[simp] lemma pure_eq_ok {a' : α} : (pure a : EStateM ε σ α) s = .ok a' s' ↔ a = a' ∧ s = s' := by
  simp

@[simp] lemma throw_ne_ok : ¬(throw e : EStateM ε σ α) s = .ok a s' := by simp

end Steps

/-! ### Errors without a state -/

lemma except_bind_eq_error {x : Except ε α} {f : α → Except ε β} {e : ε} (h : x >>= f = .error e) :
    x = .error e ∨ ∃ a, x = .ok a ∧ f a = .error e := by
  cases x with
  | error e' =>
    cases h
    exact .inl rfl
  | ok a => exact .inr ⟨a, rfl, h⟩

/-- A traversal that succeeds has succeeded on every element. -/
lemma mapM_eq_ok {g : α → Except ε β} {l : List α} {bs : List β} (h : l.mapM g = .ok bs) :
    ∀ a ∈ l, ∃ b, g a = .ok b := by
  induction l generalizing bs with
  | nil => exact fun _ ha => absurd ha List.not_mem_nil
  | cons a l ih =>
    rw [List.mapM_cons] at h
    cases ha : g a with
    | error e =>
      rw [ha] at h
      cases h
    | ok b =>
      rw [ha] at h
      cases hl : l.mapM g with
      | error e =>
        replace h : (l.mapM g >>= fun bs => pure (b :: bs)) = .ok bs := h
        rw [hl] at h
        cases h
      | ok bs' => exact List.forall_mem_cons.mpr ⟨⟨b, ha⟩, ih hl⟩

/-- A failed traversal has failed on an element, and on none before it. -/
lemma mapM_eq_error {g : α → Except ε β} {l : List α} {e : ε} (h : l.mapM g = .error e) :
    ∃ pre a post, l = pre ++ a :: post ∧ (∀ x ∈ pre, ∃ b, g x = .ok b) ∧ g a = .error e := by
  induction l with
  | nil => cases h
  | cons a l ih =>
    rw [List.mapM_cons] at h
    obtain ha | ⟨b, hb, h⟩ := except_bind_eq_error h
    · exact ⟨[], a, l, rfl, fun _ hx => absurd hx List.not_mem_nil, ha⟩
    · obtain hl | ⟨bs, -, h⟩ := except_bind_eq_error h
      · obtain ⟨pre, a', post, rfl, hpre, ha'⟩ := ih hl
        exact ⟨a :: pre, a', post, rfl, List.forall_mem_cons.mpr ⟨⟨b, hb⟩, hpre⟩, ha'⟩
      · cases h

/-! ### Properties that sequencing respects -/

/-- A property of computations that holds of returning and passes to sequences. -/
structure Sequential (Φ : ∀ α : Type, EStateM ε σ α → Prop) : Prop where
  pure : ∀ {α : Type} (a : α), Φ α (pure a)
  bind : ∀ {α β : Type} {x : EStateM ε σ α} {f : α → EStateM ε σ β},
    Φ α x → (∀ a, Φ β (f a)) → Φ β (x >>= f)

/-- A property of computations that holds of throwing, too. -/
structure Compositional (Φ : ∀ α : Type, EStateM ε σ α → Prop) : Prop extends Sequential Φ where
  throw : ∀ {α : Type} (e : ε), Φ α (throw e)

namespace Sequential

variable {Φ : ∀ α : Type, EStateM ε σ α → Prop} (h : Sequential Φ)
include h

lemma iterateM {f : α → EStateM ε σ α} (hf : ∀ a, Φ α (f a)) (n : Nat) (a : α) :
    Φ α (iterateM n f a) := by
  induction n generalizing a with
  | zero => exact h.pure a
  | succ n ih => exact h.bind (hf a) ih

lemma forM {f : α → EStateM ε σ PUnit} (hf : ∀ a, Φ PUnit (f a)) (l : List α) : Φ PUnit (l.forM f) := by
  induction l with
  | nil => exact h.pure _
  | cons a l ih => exact h.bind (hf a) fun _ => ih

lemma foldlM {f : β → α → EStateM ε σ β} (hf : ∀ b a, Φ β (f b a)) (l : List α) (b : β) :
    Φ β (l.foldlM f b) := by
  induction l generalizing b with
  | nil => exact h.pure b
  | cons a l ih => exact h.bind (hf b a) ih

end Sequential

/-- A relation between computations that sequencing respects. -/
structure Congruence (Ψ : ∀ α : Type, EStateM ε σ α → EStateM ε σ α → Prop) : Prop where
  pure : ∀ {α : Type} (a : α), Ψ α (pure a) (pure a)
  bind : ∀ {α β : Type} {x y : EStateM ε σ α} {f g : α → EStateM ε σ β},
    Ψ α x y → (∀ a, Ψ β (f a) (g a)) → Ψ β (x >>= f) (y >>= g)

namespace Congruence

variable {Ψ : ∀ α : Type, EStateM ε σ α → EStateM ε σ α → Prop} (h : Congruence Ψ)
include h

/-- A computation is related to itself when its steps are. -/
lemma sequential : Sequential fun α x => Ψ α x x := ⟨h.pure, h.bind⟩

lemma iterateM {f g : α → EStateM ε σ α} (hf : ∀ a, Ψ α (f a) (g a)) (n : Nat) (a : α) :
    Ψ α (iterateM n f a) (iterateM n g a) := by
  induction n generalizing a with
  | zero => exact h.pure a
  | succ n ih => exact h.bind (hf a) ih

lemma forM {f g : α → EStateM ε σ PUnit} (hf : ∀ a, Ψ PUnit (f a) (g a)) (l : List α) :
    Ψ PUnit (l.forM f) (l.forM g) := by
  induction l with
  | nil => exact h.pure _
  | cons a l ih => exact h.bind (hf a) fun _ => ih

end Congruence

/-! ### Relations between the states before and after -/

/-- The state after `x` is related to the state before, in a way that may depend on the
exception that ends `x`. -/
def Relates (R : Option ε → σ → σ → Prop) (α : Type) (x : EStateM ε σ α) : Prop :=
  ∀ s, match x s with
    | .ok _ s' => R none s s'
    | .error e s' => R (some e) s s'

/-- The state of a result. -/
def resultState : EStateM.Result ε σ α → σ
  | .ok _ s => s
  | .error _ s => s

/-- The state a computation ends in. -/
def finalState (x : EStateM ε σ α) (s : σ) : σ := resultState (x s)

lemma finalState_of_ok {x : EStateM ε σ α} {s s' : σ} {a : α} (h : x s = .ok a s') :
    finalState x s = s' := by
  simp only [finalState, resultState, h]

lemma finalState_of_error {x : EStateM ε σ α} {s s' : σ} {e : ε} (h : x s = .error e s') :
    finalState x s = s' := by
  simp only [finalState, resultState, h]

lemma finalState_bind_of_ok {x : EStateM ε σ α} {f : α → EStateM ε σ β} {s s₁ : σ} {a : α}
    (h : x s = .ok a s₁) : finalState (x >>= f) s = finalState (f a) s₁ := by
  simp only [finalState, bind_of_ok h]

lemma finalState_bind_of_error {x : EStateM ε σ α} {f : α → EStateM ε σ β} {s s₁ : σ} {e : ε}
    (h : x s = .error e s₁) : finalState (x >>= f) s = s₁ :=
  finalState_of_error (bind_of_error h)

/-- `x` returns without an exception. -/
def returns (x : EStateM ε σ α) (s : σ) : Bool :=
  match x s with
  | .ok _ _ => true
  | .error _ _ => false

lemma returns_of_ok {x : EStateM ε σ α} {s s' : σ} {a : α} (h : x s = .ok a s') : returns x s = true := by
  unfold returns
  rw [h]

/-- What `x` returns. -/
def returned (x : EStateM ε σ α) (s : σ) : Option α :=
  match x s with
  | .ok a _ => some a
  | .error _ _ => none

lemma eq_ok_of_returned {x : EStateM ε σ α} {s : σ} {a : α} (h : returned x s = some a) :
    x s = .ok a (finalState x s) := by
  unfold returned at h
  cases hx : x s with
  | ok a' s' =>
    rw [hx] at h
    rw [finalState_of_ok hx, Option.some.inj h]
  | error e s' => simp [hx] at h

/-- What `x` throws. -/
def thrown (x : EStateM ε σ α) (s : σ) : Option ε :=
  match x s with
  | .ok _ _ => none
  | .error e _ => some e

lemma thrown_of_error {x : EStateM ε σ α} {s s' : σ} {e : ε} (h : x s = .error e s') :
    thrown x s = some e := by
  unfold thrown
  rw [h]

/-! ### Two runs from related states -/

/-- The two results return the same value or throw the same exception, in related states. -/
inductive SameResult (R : σ → σ → Prop) : EStateM.Result ε σ α → EStateM.Result ε σ α → Prop
  | ok {a : α} {s s' : σ} (h : R s s') : SameResult R (.ok a s) (.ok a s')
  | error {e : ε} {s s' : σ} (h : R s s') : SameResult R (.error e s) (.error e s')

lemma SameResult.mono {R R' : σ → σ → Prop} {r r' : EStateM.Result ε σ α} (h : SameResult R r r')
    (hR : ∀ s s', R s s' → R' s s') : SameResult R' r r' := by
  cases h with
  | ok h => exact .ok (hR _ _ h)
  | error h => exact .error (hR _ _ h)

/-- From related states `x` and `y` do the same and end in related states. -/
def Simulates (R : σ → σ → Prop) (α : Type) (x y : EStateM ε σ α) : Prop :=
  ∀ s s', R s s' → SameResult R (x s) (y s')

namespace Simulates

variable {R : σ → σ → Prop} {x y : EStateM ε σ α}

lemma bind {f g : α → EStateM ε σ β} (hx : Simulates R α x y) (hf : ∀ a, Simulates R β (f a) (g a)) :
    Simulates R β (x >>= f) (y >>= g) := by
  intro s s' hs
  have hxy := hx s s' hs
  generalize hxs : x s = r at hxy
  generalize hys : y s' = r' at hxy
  cases hxy with
  | ok h =>
    rw [bind_of_ok hxs, bind_of_ok hys]
    exact hf _ _ _ h
  | error h =>
    rw [bind_of_error hxs, bind_of_error hys]
    exact .error h

lemma congruence : Congruence (Simulates R : ∀ α : Type, EStateM ε σ α → EStateM ε σ α → Prop) where
  pure _ := fun _ _ hs => .ok hs
  bind := bind

/-- A simulation ends in related states. -/
lemma finalState (h : Simulates R α x y) {s s' : σ} (hs : R s s') :
    R (finalState x s) (finalState y s') := by
  have hxy := h s s' hs
  unfold Program.finalState
  generalize x s = r at hxy
  generalize y s' = r' at hxy
  cases hxy with
  | ok h => exact h
  | error h => exact h

end Simulates

namespace Relates

variable {R : Option ε → σ → σ → Prop} {x : EStateM ε σ α} {s s' : σ} {a : α} {e : ε}

lemma intro (hok : ∀ s a s', x s = .ok a s' → R none s s')
    (herror : ∀ s e s', x s = .error e s' → R (some e) s s') : Relates R α x := by
  intro s
  cases hx : x s with
  | ok a s' => exact hok s a s' hx
  | error e s' => exact herror s e s' hx

lemma of_ok (h : Relates R α x) (hx : x s = .ok a s') : R none s s' := by
  have hs := h s
  rwa [hx] at hs

lemma of_error (h : Relates R α x) (hx : x s = .error e s') : R (some e) s s' := by
  have hs := h s
  rwa [hx] at hs

lemma exists_exn (h : Relates R α x) (s : σ) : ∃ exn, R exn s (finalState x s) := by
  have hs := h s
  unfold finalState resultState
  cases hx : x s with
  | ok a s' => rw [hx] at hs; exact ⟨none, hs⟩
  | error e s' => rw [hx] at hs; exact ⟨some e, hs⟩

/-- A reflexive relation that absorbs normal steps on its left makes a compositional property. -/
lemma compositional (refl : ∀ o s, R o s s)
    (trans : ∀ {o s₁ s₂ s₃}, R none s₁ s₂ → R o s₂ s₃ → R o s₁ s₃) :
    Compositional (Relates R : ∀ α : Type, EStateM ε σ α → Prop) where
  pure _ s := refl none s
  throw e s := refl (some e) s
  bind {_ _ x f} hx hf s := by
    have hs := hx s
    cases hxs : x s with
    | error e s₁ =>
      rw [hxs] at hs
      simpa only [bind_of_error hxs] using hs
    | ok a s₁ =>
      rw [hxs] at hs
      have hfs := hf a s₁
      rw [bind_of_ok hxs]
      cases hf' : f a s₁ with
      | ok b s₂ => rw [hf'] at hfs; exact trans hs hfs
      | error e s₂ => rw [hf'] at hfs; exact trans hs hfs

/-- A relation on a part of the state holds of every computation that leaves this part alone. -/
lemma of_unchanged {V : Type} (view : σ → V) {Q : Option ε → V → V → Prop} (refl : ∀ o v, Q o v v)
    (hx : ∀ s, view (finalState x s) = view s) :
    Relates (fun o s s' => Q o (view s) (view s')) α x := by
  intro s
  have hs := hx s
  unfold finalState resultState at hs
  cases hxs : x s with
  | ok a s' =>
    rw [hxs] at hs
    simpa only [hs] using refl none (view s)
  | error e s' =>
    rw [hxs] at hs
    simpa only [hs] using refl (some e) (view s)

end Relates

/-! ### Checking before changing -/

/-- `x` changes nothing. -/
abbrev ReadsOnly (α : Type) (x : EStateM ε σ α) : Prop := Relates (fun _ s s' => s' = s) α x

lemma readsOnly_compositional :
    Compositional (ReadsOnly : ∀ α : Type, EStateM ε σ α → Prop) :=
  Relates.compositional (fun _ _ => rfl) fun h h' => h'.trans h

/-- When `x` throws in `s`, it leaves a state that `K` relates to `s`. -/
def FailsCleanly (K : σ → σ → Prop) (x : EStateM ε σ α) (s : σ) : Prop :=
  ∀ e s', x s = .error e s' → K s s'

namespace FailsCleanly

variable {K : σ → σ → Prop} {x : EStateM ε σ α} {f : α → EStateM ε σ β} {s s' : σ} {a : α}

lemma of_ok (h : x s = .ok a s') : FailsCleanly K x s := by
  intro e s₁ hx
  rw [h] at hx
  cases hx

lemma throw (hK : K s s) (e : ε) : FailsCleanly K (throw e : EStateM ε σ α) s := by
  intro e' s₁ hx
  cases hx
  exact hK

/-- A check in front. -/
lemma bind_of_reads (hK : K s s) (hx : ReadsOnly α x) (hf : ∀ a, x s = .ok a s → FailsCleanly K (f a) s) :
    FailsCleanly K (x >>= f) s := by
  intro e s' h
  rcases bind_eq_error.mp h with hxs | ⟨a, s₁, hxs, hfs⟩
  · have heq : s' = s := hx.of_error hxs
    exact heq ▸ hK
  · have heq : s₁ = s := hx.of_ok hxs
    subst heq
    exact hf a hxs e s' hfs

/-- Nothing throws behind the last check. -/
lemma bind_of_returns (hx : FailsCleanly K x s)
    (hf : ∀ a s', x s = .ok a s' → returns (f a) s' = true) : FailsCleanly K (x >>= f) s := by
  intro e s' h
  rcases bind_eq_error.mp h with hxs | ⟨a, s₁, hxs, hfs⟩
  · exact hx e s' hxs
  · have hreturns := hf a s₁ hxs
    simp [returns, hfs] at hreturns

end FailsCleanly

end Program
