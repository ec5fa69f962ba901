import ContractPython.Proofs.Related
import ContractPython.Proofs.Steps
import ContractPython.Proofs.Unread

/-!
# Termination of metered runs

The fuel of the model is no bound on a metered run. Every nested node and every round of a loop
charges, a callee starts from the counter of its caller, and a skip reads four bytes before each
level: when the fuel covers the steps that are left, the run does not end for want of it, and more
fuel changes nothing.
-/

namespace ContractPython.Proofs

open Program M

/-! ### The measure -/

/-- The charges that can still return. A counter at or beyond the limit may wrap around once. -/
def stepsLeft (s : State) : Nat :=
  if s.interp.numExecutionSteps.toNat < s.interp.executionStepLimit.toNat then
    s.interp.executionStepLimit.toNat - s.interp.numExecutionSteps.toNat
  else s.interp.executionStepLimit.toNat + 1

/-- The limit is set. -/
def Limited (s : State) : Prop := 0 < s.interp.executionStepLimit.toNat

lemma stepsLeft_pos (s : State) : 0 < stepsLeft s := by
  unfold stepsLeft
  split <;> omega

lemma stepsLeft_le (s : State) : stepsLeft s ≤ s.interp.executionStepLimit.toNat + 1 := by
  unfold stepsLeft
  split <;> omega

/-- A charge that returns uses up a step. -/
lemma stepsLeft_charge {s s' : State} (hlimit : Limited s) (h : charge s = .ok () s') :
    s' = tick s ∧ stepsLeft s' + 1 ≤ stepsLeft s := by
  unfold charge at h
  split at h
  · cases h
  · rename_i hbelow
    cases h
    refine ⟨rfl, ?_⟩
    have hpos : s.interp.executionStepLimit > 0 := UInt32.lt_iff_toNat_lt.mpr hlimit
    have hlt : s.interp.numExecutionSteps + 1 < s.interp.executionStepLimit :=
      UInt32.not_le.mp fun hge => hbelow ⟨hpos, hge⟩
    have hnext := UInt32.lt_iff_toNat_lt.mp hlt
    have hsum : (s.interp.numExecutionSteps + 1).toNat = (s.interp.numExecutionSteps.toNat + 1) % 2 ^ 32 := by
      rw [UInt32.toNat_add, UInt32.toNat_one]
    have hsteps := s.interp.numExecutionSteps.toNat_lt
    have hbound := s.interp.executionStepLimit.toNat_lt
    have htick : (tick s).interp.numExecutionSteps = s.interp.numExecutionSteps + 1 := rfl
    have hsame : (tick s).interp.executionStepLimit = s.interp.executionStepLimit := rfl
    unfold stepsLeft
    rw [htick, hsame, if_pos hnext]
    split
    · rw [hsum, Nat.mod_eq_of_lt (by omega)]
      omega
    · omega

/-! ### Results that are no lack of fuel -/

/-- A result that is not the end of the fuel. Unless the gas is gone, no steps were gained. -/
structure Settles {α : Type} (s : State) (r : EStateM.Result Exn State α) : Prop where
  notStuck : ∀ s', r ≠ .error .outOfFuel s'
  limit_eq : (resultState r).interp.executionStepLimit = s.interp.executionStepLimit
  left_le : (∀ s', r ≠ .error .outOfGas s') → stepsLeft (resultState r) ≤ stepsLeft s

/-- Under a limit, `x` settles. -/
def Settled (α : Type) (x : M α) : Prop := ∀ s, Limited s → Settles s (x s)

/-- The counters of a state. -/
def counters (s : State) : UInt32 × UInt32 := (s.interp.numExecutionSteps, s.interp.executionStepLimit)

lemma stepsLeft_congr {s s' : State} (h : counters s' = counters s) : stepsLeft s' = stepsLeft s := by
  have hsteps : s'.interp.numExecutionSteps = s.interp.numExecutionSteps := congrArg Prod.fst h
  have hlimit : s'.interp.executionStepLimit = s.interp.executionStepLimit := congrArg Prod.snd h
  unfold stepsLeft
  rw [hsteps, hlimit]

lemma settles_ok {α : Type} {s s' : State} {a : α} (h : counters s' = counters s) :
    Settles s (.ok a s') :=
  ⟨nofun, congrArg Prod.snd h, fun _ => (stepsLeft_congr h).le⟩

lemma settles_error {α : Type} {s s' : State} {e : Exn} (he : e ≠ .outOfFuel)
    (h : counters s' = counters s) : Settles s (.error e s' : EStateM.Result Exn State α) := by
  refine ⟨?_, congrArg Prod.snd h, fun _ => (stepsLeft_congr h).le⟩
  rintro s₁ hs₁
  cases hs₁
  exact he rfl

/-- Passing an exception on. -/
lemma Settles.rethrown {α β : Type} {s s₁ s₂ : State} {e : Exn}
    (h : Settles s (.error e s₁ : EStateM.Result Exn State α)) (hcounters : counters s₂ = counters s₁) :
    Settles s (.error e s₂ : EStateM.Result Exn State β) := by
  have he : e ≠ .outOfFuel := by
    rintro rfl
    exact h.notStuck _ rfl
  refine ⟨?_, (congrArg Prod.snd hcounters).trans h.limit_eq, fun hgas => ?_⟩
  · rintro s' hs'
    cases hs'
    exact he rfl
  · refine (stepsLeft_congr hcounters).le.trans (h.left_le ?_)
    rintro s' hs'
    cases hs'
    exact hgas _ rfl

lemma Settles.limited {α : Type} {s : State} {r : EStateM.Result Exn State α} (h : Settles s r)
    (hlimit : Limited s) : Limited (resultState r) := by
  unfold Limited
  rwa [h.limit_eq]

lemma Settles.trans {α : Type} {s s₁ : State} {r : EStateM.Result Exn State α} (h : Settles s₁ r)
    (hlimit : s₁.interp.executionStepLimit = s.interp.executionStepLimit)
    (hleft : stepsLeft s₁ ≤ stepsLeft s) : Settles s r :=
  ⟨h.notStuck, h.limit_eq.trans hlimit, fun hgas => (h.left_le hgas).trans hleft⟩

/-- The relation between a run with fuel `n` and one with more. -/
def SameWithFuel (n : Nat) (α : Type) (x y : M α) : Prop :=
  ∀ s, Limited s → stepsLeft s ≤ n → x s = y s ∧ Settles s (x s)

lemma sameWithFuel_of_settled {n : Nat} {α : Type} {x : M α} (hx : Settled α x) : SameWithFuel n α x x :=
  fun s hlimit _ => ⟨rfl, hx s hlimit⟩

lemma sameWithFuel_bind {n : Nat} {α β : Type} {x y : M α} {f g : α → M β} (hx : SameWithFuel n α x y)
    (hf : ∀ a, SameWithFuel n β (f a) (g a)) : SameWithFuel n β (x >>= f) (y >>= g) := by
  intro s hlimit hleft
  obtain ⟨hxy, hsettles⟩ := hx s hlimit hleft
  cases hxs : x s with
  | error e s₁ =>
    have hys : y s = .error e s₁ := by rw [← hxy, hxs]
    rw [bind_of_error hxs, bind_of_error hys]
    rw [hxs] at hsettles
    exact ⟨rfl, hsettles.rethrown rfl⟩
  | ok a s₁ =>
    have hys : y s = .ok a s₁ := by rw [← hxy, hxs]
    rw [bind_of_ok hxs, bind_of_ok hys]
    rw [hxs] at hsettles
    have hleft₁ : stepsLeft s₁ ≤ stepsLeft s := hsettles.left_le nofun
    obtain ⟨hfg, hsettles'⟩ := hf a s₁ (hsettles.limited hlimit) (hleft₁.trans hleft)
    exact ⟨hfg, hsettles'.trans hsettles.limit_eq hleft₁⟩

lemma settled_bind {α β : Type} {x : M α} {f : α → M β} (hx : Settled α x) (hf : ∀ a, Settled β (f a)) :
    Settled β (x >>= f) := fun s hlimit =>
  (sameWithFuel_bind (sameWithFuel_of_settled hx) (fun a => sameWithFuel_of_settled (hf a)) s hlimit
    le_rfl).2

lemma settled_pure {α : Type} (a : α) : Settled α (pure a) := fun _ _ => settles_ok rfl

lemma settled_throw {α : Type} {e : Exn} (he : e ≠ .outOfFuel) : Settled α (throw e) :=
  fun _ _ => settles_error he rfl

/-! ### The primitive steps -/

lemma settled_charge : Settled _ charge := by
  intro s hlimit
  cases h : charge s with
  | ok u s' =>
    obtain ⟨rfl, hleft⟩ := stepsLeft_charge hlimit h
    exact ⟨nofun, rfl, fun _ => Nat.le_of_succ_le hleft⟩
  | error e s' =>
    unfold charge at h
    split at h
    · cases h
      exact ⟨nofun, rfl, fun hgas => absurd rfl (hgas _)⟩
    · cases h

lemma settled_malloc : Settled _ malloc := by
  intro s _
  unfold malloc
  by_cases h : s.memory.grants s.memory.requests = true
  · simp only [h, if_true]
    exact settles_ok rfl
  · simp only [h]
    exact settles_error nofun rfl

lemma settled_load (r : Ref) : Settled _ (load r) := by
  intro s _
  unfold load
  split
  · exact settles_ok rfl
  · exact settles_error nofun rfl

lemma settled_storeAt (r : Ref) (v : Value) : Settled _ (storeAt r v) := by
  intro s _
  unfold storeAt
  split
  · exact settles_ok rfl
  · exact settles_error nofun rfl

lemma settled_modifyScope (scope : ScopeRef) (f : Frame → Frame) : Settled _ (modifyScope scope f) := by
  intro s _
  cases scope <;> exact settles_ok rfl

lemma settled_onData {α : Type} (f : Bitstream → Option α × Bitstream) : Settled _ (onData f) := by
  intro s _
  unfold onData
  split
  · exact settles_ok rfl
  · exact settles_error nofun rfl

/-- The conversion to a string does not run on fuel. -/
lemma str_ne_outOfFuel (heap : List Value) (n : Nat) (r : Ref) :
    Value.str heap n r ≠ .error .outOfFuel := by
  induction n generalizing r with
  | zero => simp [Value.str]
  | succ n ih =>
    intro h
    rw [Value.str] at h
    split at h
    · cases h
    · cases h
    · cases h
    · cases h
    · rename_i elements _
      obtain hparts | ⟨parts, -, h⟩ := except_bind_eq_error h
      · obtain ⟨_, elem, _, -, -, helem⟩ := mapM_eq_error hparts
        cases elem with
        | none => cases helem
        | some r' =>
          obtain hr | ⟨s, -, helem⟩ := except_bind_eq_error helem
          · exact ih r' hr
          · split at helem <;> cases helem
      · cases h
    · cases h
    · cases h

lemma settled_str (r : Ref) : Settled _ (str r) := by
  intro s _
  unfold M.str
  cases h : Value.str s.heap (s.heap.length + 1) r with
  | ok a => exact settles_ok rfl
  | error e => exact settles_error (fun he => str_ne_outOfFuel _ _ _ (he ▸ h)) rfl

/-! ### Skipping -/

/-- Under a limit, `x` settles unless it lacks fuel. -/
def SettledWithFuel (α : Type) (x : M α) : Prop :=
  ∀ s, Limited s → (∀ s', x s ≠ .error .outOfFuel s') → Settles s (x s)

lemma settledWithFuel_bind {α β : Type} {x : M α} {f : α → M β} (hx : SettledWithFuel α x)
    (hf : ∀ a, SettledWithFuel β (f a)) : SettledWithFuel β (x >>= f) := by
  intro s hlimit hfuel
  cases hxs : x s with
  | error e s₁ =>
    rw [bind_of_error hxs] at hfuel ⊢
    have hsettles := hx s hlimit fun s' hs' => by
      rw [hxs] at hs'
      cases hs'
      exact hfuel _ rfl
    rw [hxs] at hsettles
    exact hsettles.rethrown rfl
  | ok a s₁ =>
    rw [bind_of_ok hxs] at hfuel ⊢
    have hsettles := hx s hlimit fun s' hs' => by
      rw [hxs] at hs'
      cases hs'
    rw [hxs] at hsettles
    exact (hf a s₁ (hsettles.limited hlimit) hfuel).trans hsettles.limit_eq (hsettles.left_le nofun)

lemma settledWithFuel_of_settled {α : Type} {x : M α} (hx : Settled α x) : SettledWithFuel α x :=
  fun s hlimit _ => hx s hlimit

lemma reading_settledWithFuel : Reading SettledWithFuel where
  pure a := settledWithFuel_of_settled (settled_pure a)
  bind := settledWithFuel_bind
  throw _ he := settledWithFuel_of_settled (settled_throw (ne_outOfFuel_of_ordinary he))
  charge := settledWithFuel_of_settled settled_charge
  readWord := settledWithFuel_of_settled (settled_onData _)
  readString := settledWithFuel_of_settled (settled_onData _)
  peekType := settledWithFuel_of_settled (settled_onData _)

lemma settled_skipNext : Settled _ skipNext := by
  intro s hlimit
  have hfew : unread s < 4 * (unread s + 1) := by omega
  obtain ⟨hskip, hfuel⟩ := skipNext_eq_skipFuel s hfew
  rw [hskip] at hfuel ⊢
  have hstuck : SettledWithFuel _ (skipFuel 0) := fun _ _ hfuel => absurd rfl (hfuel _)
  exact reading_settledWithFuel.skipFuel hstuck _ s hlimit hfuel

/-! ### Steps around a computation -/

lemma settles_withFrame {α : Type} {f : Nat → M α} {s : State}
    (h : Settles { s with frames := s.frames ++ [.empty] }
      (f s.frames.length { s with frames := s.frames ++ [.empty] })) : Settles s (withFrame f s) := by
  unfold withFrame
  cases hf : f s.frames.length { s with frames := s.frames ++ [.empty] } with
  | ok a s' =>
    rw [hf] at h
    exact ⟨nofun, h.limit_eq, fun _ => h.left_le nofun⟩
  | error e s' =>
    rw [hf] at h
    have hframes : Settles s (.error e s' : EStateM.Result Exn State α) :=
      h.trans rfl le_rfl
    exact hframes.rethrown rfl

lemma settles_tryNext {r : Ref} {s : State} (h : Settles s (next r s)) : Settles s (tryNext r s) := by
  unfold tryNext
  cases hnext : next r s with
  | ok v s' =>
    rw [hnext] at h
    exact ⟨nofun, h.limit_eq, fun _ => h.left_le nofun⟩
  | error e s' =>
    rw [hnext] at h
    cases e with
    | stopIteration => exact ⟨nofun, h.limit_eq, fun _ => h.left_le nofun⟩
    | _ => exact h.rethrown rfl

/-- The caller takes over what the callee has left, or what it had itself. -/
lemma settles_runCallee {α : Type} {writeBack : Bool} {pyint : Interp} {x : M α} {s : State}
    (h : Settles (calleeState pyint s) (x (calleeState pyint s))) :
    Settles s (runCallee writeBack pyint x s) := by
  unfold runCallee
  have hleft : stepsLeft (calleeState pyint s) = stepsLeft s := stepsLeft_congr rfl
  have hlimit : (calleeState pyint s).interp.executionStepLimit = s.interp.executionStepLimit := rfl
  cases hx : x (calleeState pyint s) with
  | ok a s' =>
    rw [hx] at h
    refine ⟨nofun, by cases writeBack <;> rfl, fun _ => ?_⟩
    have hle := h.left_le nofun
    have hback : stepsLeft (writtenBack s s') = stepsLeft s' := by
      apply stepsLeft_congr
      exact Prod.ext rfl (h.limit_eq.trans hlimit).symm
    have hdropped : stepsLeft (stepsDropped s s') = stepsLeft s := stepsLeft_congr rfl
    cases writeBack with
    | true =>
      simp only [resultState, if_true, hback]
      exact hle.trans hleft.le
    | false =>
      simp only [resultState, Bool.false_eq_true, if_false, hdropped]
      exact le_rfl
  | error e s' =>
    rw [hx] at h
    have hback : counters (writtenBack s s') = counters s' :=
      Prod.ext rfl (h.limit_eq.trans hlimit).symm
    exact (h.rethrown hback).trans hlimit hleft.le

/-! ### The interpreter -/

lemma values_sameWithFuel (n : Nat) : Values fun α x => SameWithFuel n α x x where
  pure a := sameWithFuel_of_settled (settled_pure a)
  bind := sameWithFuel_bind
  throw _ he := sameWithFuel_of_settled (settled_throw (ne_outOfFuel_of_ordinary he))
  malloc := sameWithFuel_of_settled settled_malloc
  makeShared _ := sameWithFuel_of_settled fun _ _ => settles_ok rfl
  load r := sameWithFuel_of_settled (settled_load r)
  storeAt r v _ := sameWithFuel_of_settled (settled_storeAt r v)
  writeStore _ _ := sameWithFuel_of_settled
    (settled_bind (settled_storeAt _ _) fun _ _ _ => settles_ok rfl)
  str r := sameWithFuel_of_settled (settled_str r)
  getChain := sameWithFuel_of_settled fun _ _ => settles_ok rfl
  checkAddress _ := sameWithFuel_of_settled fun _ _ => settles_ok rfl
  rand := sameWithFuel_of_settled fun _ _ => settles_ok rfl
  printProgramOutput _ := sameWithFuel_of_settled fun _ _ => settles_ok rfl
  findModule _ := sameWithFuel_of_settled fun _ _ => settles_ok rfl
  loadRand := by
    have hseq : Sequential fun α x => SameWithFuel n α x x :=
      ⟨fun a => sameWithFuel_of_settled (settled_pure a), sameWithFuel_bind⟩
    exact loadRand_of_steps hseq (sameWithFuel_of_settled settled_malloc)
      (sameWithFuel_of_settled fun _ _ => settles_ok rfl) fun _ =>
      sameWithFuel_of_settled fun _ _ => settles_ok rfl
  catchStop _ hr := fun s hlimit hleft => ⟨rfl, settles_tryNext (hr s hlimit hleft).2⟩

lemma reading_sameWithFuel (n : Nat) : Reading fun α x => SameWithFuel n α x x where
  pure a := sameWithFuel_of_settled (settled_pure a)
  bind := sameWithFuel_bind
  throw _ he := sameWithFuel_of_settled (settled_throw (ne_outOfFuel_of_ordinary he))
  charge := sameWithFuel_of_settled settled_charge
  readWord := sameWithFuel_of_settled (settled_onData _)
  readString := sameWithFuel_of_settled (settled_onData _)
  peekType := sameWithFuel_of_settled (settled_onData _)

lemma looksUp_sameWithFuel (n : Nat) : LooksUp Eq (SameWithFuel n) where
  congruence := ⟨fun a => sameWithFuel_of_settled (settled_pure a), sameWithFuel_bind⟩
  values := values_sameWithFuel n
  findValue _ hs := hs ▸ sameWithFuel_of_settled fun _ _ => settles_ok rfl
  hasValue _ hs := hs ▸ sameWithFuel_of_settled fun _ _ => settles_ok rfl

/-- More fuel than there are steps left changes nothing. -/
lemma related_sameWithFuel (d : Nat) : Related Eq Eq Eq d SameWithFuel where
  congruence n := ⟨fun a => sameWithFuel_of_settled (settled_pure a), sameWithFuel_bind⟩
  values := values_sameWithFuel
  reading := reading_sameWithFuel
  mono h := fun s hlimit hleft => h s hlimit (by omega)
  paid {n α x y} h := fun s hlimit hleft => by
    cases hcharge : charge s with
    | error e s' =>
      have hsettles := settled_charge s hlimit
      rw [hcharge] at hsettles
      rw [bind_of_error hcharge, bind_of_error hcharge]
      exact ⟨rfl, hsettles.rethrown rfl⟩
    | ok u s' =>
      obtain ⟨rfl, hless⟩ := stepsLeft_charge hlimit hcharge
      rw [bind_of_ok hcharge, bind_of_ok hcharge]
      obtain ⟨hxy, hsettles⟩ := h (tick s) hlimit (by omega)
      have hle : stepsLeft (tick s) ≤ stepsLeft s := by omega
      exact ⟨hxy, hsettles.trans rfl hle⟩
  exhausted _ := fun s _ hleft => absurd (stepsLeft_pos s) (by omega)
  skipNext _ := sameWithFuel_of_settled settled_skipNext
  readStub _ _ := sameWithFuel_of_settled
    (settled_bind (settled_onData _) fun _ => settled_bind (settled_onData _) fun _ => settled_pure _)
  record _ _ _ _ := sameWithFuel_of_settled fun _ _ => settles_ok rfl
  returnTo hf := sameWithFuel_bind (sameWithFuel_of_settled fun _ _ => settles_ok rfl) fun start =>
    hf start start fun _ => sameWithFuel_of_settled fun _ _ => settles_ok rfl
  own h := h
  push hid hs := by rw [hid, hs]
  root hid := by rw [hid]
  length_eq hs := by rw [hs]
  findValue n _ _ := (looksUp_sameWithFuel n).findValue
  setValue _ _ _ _ _ hs := hs ▸ sameWithFuel_of_settled fun _ _ => settles_ok rfl
  hasValue n _ _ := (looksUp_sameWithFuel n).hasValue
  send n _ _ hs := (looksUp_sameWithFuel n).send
    (fun _ _ => sameWithFuel_of_settled fun _ _ => settles_ok rfl) hs
  suicide n _ _ hs := (looksUp_sameWithFuel n).suicide
    (fun _ _ => sameWithFuel_of_settled fun _ _ => settles_ok rfl) hs
  setGlobalTag _ _ _ _ hs := hs ▸ sameWithFuel_of_settled (settled_modifyScope _ _)
  requireGlobal _ _ _ hs := hs ▸ sameWithFuel_of_settled (settled_modifyScope _ _)
  terminate _ _ _ hs := hs ▸ sameWithFuel_of_settled (settled_modifyScope _ _)
  isTerminated _ _ _ hs := hs ▸ sameWithFuel_of_settled fun _ _ => by
    unfold isTerminated
    split <;> exact settles_ok rfl
  withFrame {n α f g} hf := fun s hlimit hleft => by
    obtain ⟨hfg, hsettles⟩ := hf s.frames.length s.frames.length rfl
      { s with frames := s.frames ++ [.empty] } hlimit hleft
    refine ⟨?_, settles_withFrame hsettles⟩
    unfold withFrame
    rw [hfg]
  inGlobalScope hf := sameWithFuel_bind (sameWithFuel_of_settled fun _ _ => settles_ok rfl) fun scope =>
    hf scope scope rfl
  checkLimit _ := sameWithFuel_of_settled fun s hlimit => by
    have hne : s.interp.executionStepLimit ≠ 0 := by
      intro hzero
      unfold Limited at hlimit
      rw [hzero] at hlimit
      exact absurd hlimit (by decide)
    have hok : checkLimit s = .ok () { s with log := .functionCalled :: s.log } := if_neg hne
    rw [hok]
    exact settles_ok rfl
  runCallee n {writeBack pyint pyint' sc sc'} hp hs hexec _ := fun s hlimit hleft => by
    obtain rfl : pyint' = pyint := by
      rw [hp.rest, ← hp.scope]
    obtain rfl := hs
    have heval : SameWithFuel n _ (evaluate (executeNext n) sc) (evaluate (executeNext (n + d)) sc) :=
      sameWithFuel_bind hexec fun _ => sameWithFuel_of_settled (settled_pure _)
    have hstart : stepsLeft (calleeState pyint' s) = stepsLeft s := stepsLeft_congr rfl
    obtain ⟨hsame, hsettles⟩ := heval (calleeState pyint' s) hlimit (by omega)
    refine ⟨?_, settles_runCallee hsettles⟩
    unfold runCallee
    rw [hsame]

/-! ### Termination -/

/-- With any fuel from `n` on, `x` ends in the same result, which is no lack of fuel. -/
def HaltsWithin {α : Type} (n : Nat) (x : Nat → M α) (s : State) : Prop :=
  ∀ fuel, n ≤ fuel → x fuel s = x n s ∧ ∀ s', x n s ≠ .error .outOfFuel s'

lemma haltsWithin_of_related {α : Type} {x : Nat → M α} {s : State} (hlimit : Limited s)
    (hx : ∀ n d, SameWithFuel n α (x n) (x (n + d))) :
    HaltsWithin (s.interp.executionStepLimit.toNat + 1) x s := by
  intro fuel hfuel
  obtain ⟨d, rfl⟩ := Nat.exists_eq_add_of_le hfuel
  obtain ⟨hsame, hsettles⟩ := hx _ d s hlimit (stepsLeft_le s)
  exact ⟨hsame.symm, hsettles.notStuck⟩

/-- A loop without an end, under a limit of 50 steps. -/
def endlessLoop : List UInt8 :=
  moduleCode [defStmt "default" [.whileLoop (.name (lit "True")) (.suite (.ofStmts [.pass])) .nullStmt]]

end ContractPython.Proofs
