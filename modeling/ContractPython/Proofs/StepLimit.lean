import ContractPython.Proofs.Gas

/-!
# The step limit

A run that ends before its limit does the same under every larger limit. Without a limit it does
the same as well, unless it calls a function: the callee's interpreter refuses the limit zero.
-/

namespace ContractPython.Proofs

open Program M

/-- The state under another limit. -/
def withLimit (L : UInt32) (s : State) : State :=
  { s with interp := { s.interp with executionStepLimit := L } }

/-- The outcome under another limit. -/
def outcomeUnder {α : Type} (L : UInt32) : EStateM.Result Exn State α → EStateM.Result Exn State α
  | .ok a s => .ok a (withLimit L s)
  | .error e s => .error e (withLimit L s)

/-- The run ends with `OutOfGasException`. -/
def OutOfGas {α : Type} (r : EStateM.Result Exn State α) : Prop := ∃ s, r = .error .outOfGas s

/-- What an interpreter says to the limit zero. -/
def limitRefused : Exn := .runtimeError (lit "Limit has to be larger than 0")

/-- The functions called so far. -/
def callsMade (s : State) : Nat := s.log.count .functionCalled

/-- `x` calls no function when it starts in `s`. -/
def CallsNoFunction {α : Type} (x : M α) (s : State) : Prop := callsMade (finalState x s) = callsMade s

/-- How `x` goes under the limit `L`, when it goes some way from `s`. -/
inductive Follows {α : Type} (x : M α) (s : State) (L : UInt32) : Prop
  | outOfGas (hgas : OutOfGas (x s))
  | same (hsame : x (withLimit L s) = outcomeUnder L (x s)) (hcalls : L = 0 → CallsNoFunction x s)
  | refused (s' : State) (hzero : L = 0) (hcalls : ¬CallsNoFunction x s)
      (herror : x (withLimit L s) = .error limitRefused s') (hlog : callsMade s' = callsMade s)

/-- `x` follows itself under larger limits and without one. -/
def FollowsLimit (α : Type) (x : M α) : Prop :=
  IsMetered α x ∧ ∀ s L, s.interp.numExecutionSteps < s.interp.executionStepLimit →
    s.interp.executionStepLimit ≤ L ∨ L = 0 → Follows x s L

/-- `x` does not look at the limit and calls no function. -/
def IgnoresLimit {α : Type} (x : M α) : Prop :=
  ∀ s, (∀ L, x (withLimit L s) = outcomeUnder L (x s)) ∧ CallsNoFunction x s

lemma followsLimit_of_ignores {α : Type} {x : M α} (hmeter : IsMetered α x) (hx : IgnoresLimit x) :
    FollowsLimit α x :=
  ⟨hmeter, fun s L _ _ => .same ((hx s).1 L) fun _ => (hx s).2⟩

/-- Calls are only added. -/
lemma callsMade_le {α : Type} {x : M α} (hx : IsMetered α x) (s : State) :
    callsMade s ≤ callsMade (finalState x s) := by
  obtain ⟨exn, hmeter⟩ := hx.exists_exn s
  exact hmeter.events_le .functionCalled

section Sequence

variable {α β : Type} {x : M α} {f : α → M β} {s s₁ : State} {a : α}

/-- The calls of a sequence are those of its parts. -/
lemma callsNoFunction_bind_iff (hx : IsMetered α x) (hf : IsMetered β (f a)) (hxs : x s = .ok a s₁) :
    CallsNoFunction (x >>= f) s ↔ CallsNoFunction x s ∧ CallsNoFunction (f a) s₁ := by
  have hle := callsMade_le hx s
  have hle' := callsMade_le hf s₁
  unfold CallsNoFunction
  rw [finalState_bind_of_ok hxs]
  rw [finalState_of_ok hxs] at hle ⊢
  omega

lemma follows_bind (hx : FollowsLimit α x) (hf : ∀ a, FollowsLimit β (f a)) (L : UInt32)
    (hsteps : s.interp.numExecutionSteps < s.interp.executionStepLimit)
    (hL : s.interp.executionStepLimit ≤ L ∨ L = 0) : Follows (x >>= f) s L := by
  cases hxs : x s with
  | error e s₁ =>
    have hbind : (x >>= f) s = .error e s₁ := bind_of_error hxs
    have hcalls : CallsNoFunction (x >>= f) s ↔ CallsNoFunction x s := by
      unfold CallsNoFunction
      rw [finalState_of_error hbind, finalState_of_error hxs]
    cases hx.2 s L hsteps hL with
    | outOfGas hgas =>
      obtain ⟨s', hgas⟩ := hgas
      exact .outOfGas ⟨s', bind_of_error hgas⟩
    | same hsame hno =>
      rw [hxs] at hsame
      exact .same ((bind_of_error hsame).trans (by rw [hbind]; rfl)) fun hzero => hcalls.mpr (hno hzero)
    | refused s' hzero hcall herror hlog =>
      exact .refused s' hzero (mt hcalls.mp hcall) (bind_of_error herror) hlog
  | ok a s₁ =>
    have hbind : (x >>= f) s = f a s₁ := bind_of_ok hxs
    have hcalls := callsNoFunction_bind_iff hx.1 (hf a).1 hxs
    cases hx.2 s L hsteps hL with
    | outOfGas hgas =>
      obtain ⟨s', hgas⟩ := hgas
      cases hxs.symm.trans hgas
    | refused s' hzero hcall herror hlog =>
      exact .refused s' hzero (fun hno => hcall (hcalls.mp hno).1) (bind_of_error herror) hlog
    | same hsame hno =>
      rw [hxs] at hsame
      have hmeter := hx.1.of_ok hxs
      have hpos : 0 < s.interp.executionStepLimit := UInt32.lt_of_le_of_lt UInt32.zero_le hsteps
      have hlimit : s₁.interp.executionStepLimit = s.interp.executionStepLimit := hmeter.limit_eq
      have hsteps₁ : s₁.interp.numExecutionSteps < s₁.interp.executionStepLimit := by
        rw [hlimit]
        exact (hmeter.running hpos hsteps).2.1 (by simp)
      have hother : (x >>= f) (withLimit L s) = f a (withLimit L s₁) := bind_of_ok hsame
      cases (hf a).2 s₁ L hsteps₁ (by rwa [hlimit]) with
      | outOfGas hgas =>
        rw [← hbind] at hgas
        exact .outOfGas hgas
      | same hsame' hno' =>
        refine .same (by rw [hother, hsame', hbind]) fun hzero => ?_
        exact hcalls.mpr ⟨hno hzero, hno' hzero⟩
      | refused s' hzero hcall herror hlog =>
        refine .refused s' hzero (fun hno => hcall (hcalls.mp hno).2) (hother.trans herror) ?_
        have hkept : callsMade s₁ = callsMade s := by
          rw [← finalState_of_ok hxs]
          exact hno hzero
        rw [hlog, hkept]

end Sequence

lemma ignoresLimit_pure {α : Type} (a : α) : IgnoresLimit (pure a : M α) := fun _ => ⟨fun _ => rfl, rfl⟩

lemma ignoresLimit_throw {α : Type} (e : Exn) : IgnoresLimit (throw e : M α) := fun _ => ⟨fun _ => rfl, rfl⟩

lemma followsLimit_compositional : Compositional FollowsLimit where
  pure a := followsLimit_of_ignores (isMetered_compositional.pure a) (ignoresLimit_pure a)
  throw e := followsLimit_of_ignores (isMetered_compositional.throw e) (ignoresLimit_throw e)
  bind hx hf := ⟨isMetered_compositional.bind hx.1 fun a => (hf a).1, fun _ L hsteps hL =>
    follows_bind hx hf L hsteps hL⟩

/-! ### The primitive steps -/

/-- A charge below the limit is one under every larger limit, and without a limit. -/
lemma follows_charge {s : State} {L : UInt32} (hL : s.interp.executionStepLimit ≤ L ∨ L = 0)
    (hsteps : s.interp.numExecutionSteps < s.interp.executionStepLimit) : Follows charge s L := by
  have hno : CallsNoFunction charge s := by
    unfold CallsNoFunction callsMade
    rw [finalState_charge]
    rfl
  rcases charge_run (UInt32.lt_iff_toNat_lt.mp hsteps) with ⟨-, hlast⟩ | ⟨hmore, hok⟩
  · exact .outOfGas ⟨_, hlast⟩
  · refine .same ?_ fun _ => hno
    rw [hok]
    have hnext : ¬(L > 0 ∧ s.interp.numExecutionSteps + 1 ≥ L) := by
      rintro ⟨hpos, hge⟩
      rcases hL with hle | rfl
      · have htick : (s.interp.numExecutionSteps + 1).toNat = s.interp.numExecutionSteps.toNat + 1 :=
          toNat_steps_tick (UInt32.lt_iff_toNat_lt.mp hsteps)
        have hge' := UInt32.le_iff_toNat_le.mp hge
        have hle' := UInt32.le_iff_toNat_le.mp hle
        omega
      · exact absurd hpos (UInt32.lt_irrefl 0)
    exact if_neg hnext

lemma follows_checkLimit {s : State} {L : UInt32} (hL : s.interp.executionStepLimit ≤ L ∨ L = 0)
    (hsteps : s.interp.numExecutionSteps < s.interp.executionStepLimit) : Follows checkLimit s L := by
  have hne : s.interp.executionStepLimit ≠ 0 := by
    intro hzero
    rw [hzero] at hsteps
    exact absurd hsteps (UInt32.not_lt.mpr UInt32.zero_le)
  have hok : checkLimit s = .ok () { s with log := .functionCalled :: s.log } := if_neg hne
  by_cases hzero : L = 0
  · refine .refused (withLimit L s) hzero ?_ ?_ rfl
    · unfold CallsNoFunction
      rw [finalState_of_ok hok]
      simp [callsMade]
    · subst hzero
      rfl
  · refine .same ?_ fun h => absurd h hzero
    rw [hok]
    exact if_neg hzero

lemma ignoresLimit_storeAt (r : Ref) (v : Value) : IgnoresLimit (storeAt r v) := by
  intro s
  constructor
  · intro L
    unfold storeAt
    by_cases h : (s.heap[r]?).map Value.ctorIdx = some v.ctorIdx <;>
      simp only [withLimit, outcomeUnder, h, if_true, if_false]
  · unfold CallsNoFunction
    rw [finalState_storeAt]
    split <;> rfl

lemma ignoresLimit_modifyScope (scope : ScopeRef) (f : Frame → Frame) :
    IgnoresLimit (modifyScope scope f) := by
  cases scope <;> exact fun _ => ⟨fun _ => rfl, rfl⟩

lemma ignoresLimit_onData {α : Type} (f : Bitstream → Option α × Bitstream) : IgnoresLimit (onData f) := by
  intro s
  constructor
  · intro L
    unfold onData
    cases h : (f s.interp.data).1 <;> simp only [withLimit, outcomeUnder, h]
  · unfold CallsNoFunction
    rw [finalState_onData]
    rfl

/-- A computation around another one: what it does before and after does not look at the limit. -/
lemma followsLimit_around {α β : Type} {y : M β} (x : State → M α) (enter : State → State)
    (leave : State → EStateM.Result Exn State α → EStateM.Result Exn State β)
    (hx : ∀ s, FollowsLimit α (x s)) (hmeter : IsMetered β y) (hy : ∀ s, y s = leave s (x s (enter s)))
    (hsame : ∀ s L, x (withLimit L s) = x s ∧ enter (withLimit L s) = withLimit L (enter s))
    (henter : ∀ s, callsMade (enter s) = callsMade s ∧
      (enter s).interp.numExecutionSteps = s.interp.numExecutionSteps ∧
      (enter s).interp.executionStepLimit = s.interp.executionStepLimit)
    (hcount : ∀ s r, callsMade (resultState (leave s r)) = callsMade (resultState r))
    (hleave : ∀ s L r, leave (withLimit L s) (outcomeUnder L r) = outcomeUnder L (leave s r))
    (hgas : ∀ s r, OutOfGas r → OutOfGas (leave s r))
    (hrefused : ∀ s s', ∃ s'', leave s (.error limitRefused s') = .error limitRefused s'') :
    FollowsLimit β y := by
  refine ⟨hmeter, fun s L hsteps hL => ?_⟩
  obtain ⟨hcalls, hsteps', hlimit⟩ := henter s
  have hno : CallsNoFunction y s ↔ CallsNoFunction (x s) (enter s) := by
    unfold CallsNoFunction finalState
    rw [hy, hcount, hcalls]
  obtain ⟨hxL, henterL⟩ := hsame s L
  have hyL : y (withLimit L s) = leave (withLimit L s) (x s (withLimit L (enter s))) := by
    rw [hy, hxL, henterL]
  cases (hx s).2 (enter s) L (by rwa [hsteps', hlimit]) (by rwa [hlimit]) with
  | outOfGas h =>
    apply Follows.outOfGas
    rw [hy]
    exact hgas s _ h
  | same h hcall =>
    refine .same ?_ fun hzero => hno.mpr (hcall hzero)
    rw [hyL, h, hleave, hy]
  | refused s' hzero hcall herror hlog =>
    obtain ⟨s'', hs''⟩ := hrefused (withLimit L s) s'
    refine .refused s'' hzero (mt hno.mp hcall) (by rw [hyL, herror, hs'']) ?_
    have hkept := hcount (withLimit L s) (.error limitRefused s' : EStateM.Result Exn State α)
    rw [hs''] at hkept
    exact hkept.trans (hlog.trans hcalls)

lemma followsLimit_withFrame {α : Type} {f : Nat → M α} (hf : ∀ id, FollowsLimit α (f id)) :
    FollowsLimit α (withFrame f) :=
  followsLimit_around (fun s => f s.frames.length) (fun s => { s with frames := s.frames ++ [.empty] })
    (fun s r => match r with
      | .ok a s' => .ok a { s' with frames := s'.frames.take s.frames.length }
      | .error e s' => .error e { s' with frames := s'.frames.take s.frames.length })
    (fun s => hf _) (closed_isMetered.withFrame fun id _ => (hf id).1) (fun _ => rfl)
    (fun _ _ => ⟨rfl, rfl⟩) (fun _ => ⟨rfl, rfl, rfl⟩) (fun _ r => by cases r <;> rfl)
    (fun _ _ r => by cases r <;> rfl) (fun s r ⟨s', hr⟩ => hr ▸ ⟨_, rfl⟩) fun _ _ => ⟨_, rfl⟩

lemma followsLimit_tryNext {r : Ref} (hr : FollowsLimit _ (next r)) : FollowsLimit _ (tryNext r) :=
  followsLimit_around (fun _ => next r) id (fun _ => stopCaught)
    (fun _ => hr) (closed_isMetered.tryNext r) (fun _ => rfl) (fun _ _ => ⟨rfl, rfl⟩)
    (fun _ => ⟨rfl, rfl, rfl⟩)
    (fun _ res => by
      cases res with
      | ok v s' => rfl
      | error e s' => cases e <;> rfl)
    (fun _ _ res => by
      cases res with
      | ok v s' => rfl
      | error e s' => cases e <;> rfl)
    (fun _ r hr => by
      obtain ⟨s', rfl⟩ := hr
      exact ⟨s', rfl⟩)
    fun _ s' => ⟨s', rfl⟩

lemma followsLimit_runCallee {α : Type} {writeBack : Bool} {pyint : Interp} {x : M α}
    (hmeter : IsMetered α (runCallee writeBack pyint x)) (hx : FollowsLimit α x) :
    FollowsLimit α (runCallee writeBack pyint x) :=
  followsLimit_around (fun _ => x) (calleeState pyint)
    (fun s r => match r with
      | .ok a s' => .ok a (if writeBack then writtenBack s s' else stepsDropped s s')
      | .error e s' => .error e (writtenBack s s'))
    (fun _ => hx) hmeter (fun _ => rfl) (fun _ _ => ⟨rfl, rfl⟩) (fun _ => ⟨rfl, rfl, rfl⟩)
    (fun s r => by
      cases r with
      | ok a s' => cases writeBack <;> simp [resultState, writtenBack, stepsDropped, callsMade]
      | error e s' => rfl)
    (fun s L r => by
      cases r with
      | ok a s' => cases writeBack <;> rfl
      | error e s' => rfl)
    (fun s r ⟨s', hr⟩ => hr ▸ ⟨_, rfl⟩) fun _ _ => ⟨_, rfl⟩

lemma followsLimit_malloc : FollowsLimit _ malloc :=
  followsLimit_of_ignores closed_isMetered.malloc fun s => by
    refine ⟨fun L => ?_, by unfold CallsNoFunction; rw [finalState_malloc]; rfl⟩
    unfold malloc
    cases h : s.memory.grants s.memory.requests <;> simp [withLimit, outcomeUnder, h]

/-- Only charges and calls look at the limit. -/
lemma closed_followsLimit : Closed (fun _ => True) FollowsLimit where
  toSequential := followsLimit_compositional.toSequential
  throw e _ := followsLimit_compositional.throw e
  stuck := followsLimit_compositional.throw _
  malloc := followsLimit_malloc
  makeShared v := followsLimit_of_ignores (closed_isMetered.makeShared v) fun _ => ⟨fun _ => rfl, rfl⟩
  load r := followsLimit_of_ignores (closed_isMetered.load r) fun s => by
    refine ⟨fun L => ?_, by unfold CallsNoFunction; rw [finalState_load]⟩
    unfold load
    cases h : s.heap[r]? <;> simp only [withLimit, outcomeUnder, h]
  storeAt r v hv := followsLimit_of_ignores (closed_isMetered.storeAt r v hv) (ignoresLimit_storeAt r v)
  writeStore r st := followsLimit_compositional.bind
    (followsLimit_of_ignores (isMetered_storeAt _ _) (ignoresLimit_storeAt _ _)) fun _ =>
      followsLimit_of_ignores (fun _ => Metered.logged [_] rfl rfl rfl rfl rfl) fun _ =>
        ⟨fun _ => rfl, rfl⟩
  findValue scope name :=
    followsLimit_of_ignores (closed_isMetered.findValue scope name) fun _ => ⟨fun _ => rfl, rfl⟩
  setValue scope name value :=
    followsLimit_of_ignores (closed_isMetered.setValue scope name value) fun s => by
      refine ⟨fun _ => rfl, ?_⟩
      have hlog : (finalState (setValue scope name value) s).log =
          Scope.setEvents s.frames scope name ++ s.log := rfl
      unfold CallsNoFunction callsMade
      rw [hlog, List.count_append, count_setEvents (by simp) (by simp), Nat.zero_add]
  hasValue scope name :=
    followsLimit_of_ignores (closed_isMetered.hasValue scope name) fun _ => ⟨fun _ => rfl, rfl⟩
  setGlobalTag _ _ _ :=
    followsLimit_of_ignores (isMetered_modifyScope _ _) (ignoresLimit_modifyScope _ _)
  terminate _ _ := followsLimit_of_ignores (isMetered_modifyScope _ _) (ignoresLimit_modifyScope _ _)
  requireGlobal _ _ :=
    followsLimit_of_ignores (isMetered_modifyScope _ _) (ignoresLimit_modifyScope _ _)
  isTerminated scope hs := followsLimit_of_ignores (closed_isMetered.isTerminated scope hs) fun _ => by
    cases scope <;> exact ⟨fun _ => rfl, rfl⟩
  withFrame hf := followsLimit_withFrame fun id => hf id trivial
  str r := followsLimit_of_ignores (closed_isMetered.str r) fun s => by
    refine ⟨fun L => ?_, by unfold CallsNoFunction; rw [finalState_str]⟩
    unfold M.str
    cases h : Value.str s.heap (s.heap.length + 1) r <;> simp only [withLimit, outcomeUnder, h]
  getChain := followsLimit_of_ignores closed_isMetered.getChain fun _ => ⟨fun _ => rfl, rfl⟩
  setFunds m b := followsLimit_of_ignores (closed_isMetered.setFunds m b) fun _ => ⟨fun _ => rfl, rfl⟩
  checkAddress a := followsLimit_of_ignores (closed_isMetered.checkAddress a) fun _ => ⟨fun _ => rfl, rfl⟩
  rand := followsLimit_of_ignores closed_isMetered.rand fun _ => ⟨fun _ => rfl, rfl⟩
  printProgramOutput text :=
    followsLimit_of_ignores (closed_isMetered.printProgramOutput text) fun _ => ⟨fun _ => rfl, rfl⟩
  charge := ⟨isMetered_charge, fun _ _ hsteps hL => follows_charge hL hsteps⟩
  readWord := followsLimit_of_ignores (isMetered_onData _) (ignoresLimit_onData _)
  readString := followsLimit_of_ignores (isMetered_onData _) (ignoresLimit_onData _)
  readStub _ := followsLimit_compositional.bind
    (followsLimit_of_ignores (isMetered_onData _) (ignoresLimit_onData _)) fun _ =>
      followsLimit_compositional.bind
        (followsLimit_of_ignores (isMetered_onData _) (ignoresLimit_onData _)) fun _ =>
          followsLimit_compositional.pure _
  peekType := followsLimit_of_ignores (isMetered_onData _) (ignoresLimit_onData _)
  returnTo hf := followsLimit_compositional.bind
    (followsLimit_of_ignores (isMetered_of_unchanged fun _ => rfl) fun _ => ⟨fun _ => rfl, rfl⟩)
      fun start => hf start
        (followsLimit_of_ignores (isMetered_of_unchanged fun _ => rfl) fun _ => ⟨fun _ => rfl, rfl⟩)
  streamLength := followsLimit_of_ignores closed_isMetered.streamLength fun _ => ⟨fun _ => rfl, rfl⟩
  inGlobalScope hf := followsLimit_compositional.bind
    (followsLimit_of_ignores (isMetered_of_unchanged fun _ => rfl) fun _ => ⟨fun _ => rfl, rfl⟩)
      fun scope => hf scope (by simp [Touches])
  findModule name :=
    followsLimit_of_ignores (closed_isMetered.findModule name) fun _ => ⟨fun _ => rfl, rfl⟩
  loadRand := loadRand_of_steps followsLimit_compositional.toSequential followsLimit_malloc
    (followsLimit_of_ignores (closed_isMetered.makeShared _) fun _ => ⟨fun _ => rfl, rfl⟩)
    fun module => followsLimit_of_ignores (isMetered_addModule _ module) fun _ => ⟨fun _ => rfl, rfl⟩
  catchStop _ hr := followsLimit_tryNext hr
  record type ls depth :=
    followsLimit_of_ignores (closed_isMetered.record type ls depth) fun _ => ⟨fun _ => rfl, rfl⟩
  checkLimit := ⟨closed_isMetered.checkLimit, fun _ _ hsteps hL => follows_checkLimit hL hsteps⟩
  runCallee n writeBack pyint scope hg hs hn hcharged :=
    followsLimit_runCallee
      (closed_isMetered.runCallee n writeBack pyint scope hg hs hn.1 fun k hk => (hcharged k hk).1)
      (followsLimit_compositional.bind hn fun _ => followsLimit_compositional.pure _)

/-! ### Whole runs -/

/-- A run of a contract: the module, then the call; the value is that of the call. -/
def contractRun (fuel : Nat) (data : Str) : M ValuePtr := do
  let _ ← execute fuel
  calldata fuel data

lemma followsLimit_contractRun (fuel : Nat) (data : Str) : FollowsLimit _ (contractRun fuel data) :=
  followsLimit_compositional.bind (closed_followsLimit.execute fuel) fun _ =>
    closed_followsLimit.calldata fuel data

/-- A run that does not run out of gas does the same under every larger limit. Without a limit it
does the same exactly when it calls no function. -/
theorem contractRun_follows_limit (fuel : Nat) (data : Str) (s : State) (L : UInt32)
    (hsteps : s.interp.numExecutionSteps < L)
    (hgas : ¬OutOfGas (contractRun fuel data (withLimit L s))) :
    (∀ L', L ≤ L' → contractRun fuel data (withLimit L' s) =
      outcomeUnder L' (contractRun fuel data (withLimit L s))) ∧
    (contractRun fuel data (withLimit 0 s) = outcomeUnder 0 (contractRun fuel data (withLimit L s)) ↔
      CallsNoFunction (contractRun fuel data) (withLimit L s)) := by
  have hfollows := (followsLimit_contractRun fuel data).2 (withLimit L s)
  constructor
  · intro L' hle
    cases hfollows L' hsteps (.inl hle) with
    | outOfGas h => exact absurd h hgas
    | same h _ => exact h
    | refused _ hzero _ _ _ =>
      -- a limit of zero is not larger than one that leaves a step
      rw [hzero] at hle
      exact absurd (UInt32.lt_of_lt_of_le hsteps hle) (UInt32.not_lt.mpr UInt32.zero_le)
  · cases hfollows 0 hsteps (.inr rfl) with
    | outOfGas h => exact absurd h hgas
    | same h hno => exact ⟨fun _ => hno rfl, fun _ => h⟩
    | refused s' _ hcalls herror hlog =>
      refine ⟨fun hsame => ?_, fun hno => absurd hno hcalls⟩
      have herror' : contractRun fuel data (withLimit 0 s) = .error limitRefused s' := herror
      rw [herror'] at hsame
      cases hrun : contractRun fuel data (withLimit L s) with
      | ok v s₁ =>
        rw [hrun] at hsame
        cases hsame
      | error e s₁ =>
        rw [hrun] at hsame
        obtain ⟨-, rfl⟩ := EStateM.Result.error.inj hsame
        refine absurd ?_ hcalls
        unfold CallsNoFunction
        rw [finalState_of_error hrun]
        exact hlog

/-- A default function that returns a constant. -/
def returnOne : List UInt8 := moduleCode [defStmt "default" [.return (.number (.integer 1))]]

lemma not_outOfGas_of_returns {α : Type} {x : M α} {s : State} (h : returns x s = true) :
    ¬OutOfGas (x s) := by
  rintro ⟨s', hgas⟩
  simp [returns, hgas] at h

/-- Twice the limit does not change the run. -/
theorem contractRun_follows_limit_returnOne :
    contractRun 20 [] (withLimit 2000 (startState returnOne 0)) =
      outcomeUnder 2000 (contractRun 20 [] (withLimit 1000 (startState returnOne 0))) :=
  (contractRun_follows_limit 20 [] (startState returnOne 0) 1000 (by decide)
    (not_outOfGas_of_returns (by decide +kernel))).1 2000 (by decide)

/-- Without a limit the call of the function is refused. -/
theorem contractRun_unlimited_returnOne_false :
    ¬contractRun 20 [] (withLimit 0 (startState returnOne 0)) =
      outcomeUnder 0 (contractRun 20 [] (withLimit 1000 (startState returnOne 0))) := by
  intro hsame
  have hlimited : returns (contractRun 20 []) (withLimit 1000 (startState returnOne 0)) = true := by
    decide +kernel
  have hunlimited : returns (contractRun 20 []) (withLimit 0 (startState returnOne 0)) = false := by
    decide +kernel
  unfold returns at hlimited hunlimited
  rw [hsame] at hunlimited
  cases hrun : contractRun 20 [] (withLimit 1000 (startState returnOne 0)) with
  | ok v s => simp [hrun, outcomeUnder] at hunlimited
  | error e s => simp [hrun] at hlimited

end ContractPython.Proofs
