import ContractPython.Proofs.Closure
import ContractPython.Proofs.Steps

/-!
# Gas accounting

The log counts every `CHARGE_EXECUTION` of a run, in whatever interpreter it happens. An
interpreter's own counter agrees with the log as long as no `Call` node has seen its
callee return: on that path the steps of the callee are dropped.
-/

namespace ContractPython.Proofs

open Program M

/-- What the accounting looks at: the counter, the limit and the log. -/
structure Meter where
  steps : UInt32
  limit : UInt32
  log : List Event

def meter (s : State) : Meter where
  steps := s.interp.numExecutionSteps
  limit := s.interp.executionStepLimit
  log := s.log

/-- The number of charges so far. -/
def Meter.charged (m : Meter) : Nat := m.log.count .charged

/-- The number of callees whose steps were dropped. -/
def Meter.dropped (m : Meter) : Nat := m.log.count .calleeReturned

/-- How the meter moves during a computation that `exn` ends, or that returns. -/
structure Metered (exn : Option Exn) (m m' : Meter) : Prop where
  limit_eq : m'.limit = m.limit
  events_le : ∀ e, m.log.count e ≤ m'.log.count e
  running : 0 < m.limit → m.steps < m.limit →
    m'.steps ≤ m.limit ∧ (exn ≠ some .outOfGas → m'.steps < m.limit) ∧ m.steps ≤ m'.steps ∧
    m'.steps.toNat + m.charged + m'.dropped ≤ m.steps.toNat + m'.charged + m.dropped ∧
    (m'.dropped = m.dropped → m'.steps.toNat + m.charged = m.steps.toNat + m'.charged)

namespace Metered

lemma refl (exn : Option Exn) (m : Meter) : Metered exn m m where
  limit_eq := rfl
  events_le _ := le_refl _
  running _ hlt := ⟨UInt32.le_of_lt hlt, fun _ => hlt, UInt32.le_refl _, by omega, fun _ => rfl⟩

lemma trans {exn : Option Exn} {m₁ m₂ m₃ : Meter} (h : Metered none m₁ m₂)
    (h' : Metered exn m₂ m₃) : Metered exn m₁ m₃ where
  limit_eq := h'.limit_eq.trans h.limit_eq
  events_le e := (h.events_le e).trans (h'.events_le e)
  running hpos hlt := by
    obtain ⟨-, hlt₂, hle, hloss, hexact⟩ := h.running hpos hlt
    have hle' := h'.running
    rw [h.limit_eq] at hle'
    obtain ⟨hbound, hb, hmono, hloss', hexact'⟩ := hle' hpos (hlt₂ (by simp))
    refine ⟨hbound, hb, UInt32.le_trans hle hmono, by omega, fun hd => ?_⟩
    have h₁₂ : m₁.dropped ≤ m₂.dropped := h.events_le _
    have h₂₃ : m₂.dropped ≤ m₃.dropped := h'.events_le _
    have e₁ := hexact (by omega)
    have e₂ := hexact' (by omega)
    omega

/-- Events other than the two that are counted leave the accounts alone. -/
lemma logged {exn : Option Exn} {m m' : Meter} (es : List Event) (hs : m'.steps = m.steps)
    (hl : m'.limit = m.limit) (hlog : m'.log = es ++ m.log) (hc : es.count .charged = 0)
    (hd : es.count .calleeReturned = 0) : Metered exn m m' := by
  have hcharged : m'.charged = m.charged := by simp [Meter.charged, hlog, List.count_append, hc]
  have hdropped : m'.dropped = m.dropped := by simp [Meter.dropped, hlog, List.count_append, hd]
  refine ⟨hl, fun e' => ?_, fun _ hlt => ?_⟩
  · rw [hlog, List.count_append]
    omega
  rw [hs, hcharged, hdropped]
  exact ⟨UInt32.le_of_lt hlt, fun _ => hlt, UInt32.le_refl _, by omega, fun _ => rfl⟩

/-- Handling an exception other than the end of the gas. -/
lemma handled {e : Exn} {m m' : Meter} (h : Metered (some e) m m') (he : e ≠ .outOfGas) :
    Metered none m m' where
  limit_eq := h.limit_eq
  events_le := h.events_le
  running hpos hlt :=
    have ⟨hle, hstill, hrest⟩ := h.running hpos hlt
    ⟨hle, fun _ => hstill (by simpa using he), hrest⟩

end Metered

/-- The meter moves as it should during `x`. -/
abbrev IsMetered (α : Type) (x : M α) : Prop :=
  Relates (fun exn s s' => Metered exn (meter s) (meter s')) α x

lemma isMetered_of_unchanged {α : Type} {x : M α} (hx : ∀ s, meter (finalState x s) = meter s) :
    IsMetered α x :=
  Relates.of_unchanged meter Metered.refl hx

lemma toNat_succ_of_lt {a b : UInt32} (h : a < b) : (a + 1).toNat = a.toNat + 1 := by
  have hlt := UInt32.lt_iff_toNat_lt.mp h
  have hb := b.toNat_lt
  rw [UInt32.toNat_add, UInt32.toNat_one]
  omega

lemma isMetered_charge : IsMetered _ charge := by
  intro s
  have hevents : ∀ e, s.log.count e ≤ (Event.charged :: s.log).count e :=
    fun e => List.count_le_count_cons
  have hcharged : (meter (tick s)).charged = (meter s).charged + 1 := List.count_cons_self
  have hdropped : (meter (tick s)).dropped = (meter s).dropped := by
    simp [Meter.dropped, meter, tick]
  have hsteps : (meter s).steps < (meter s).limit →
      (meter (tick s)).steps.toNat = (meter s).steps.toNat + 1 := toNat_succ_of_lt
  have hmono : (meter s).steps < (meter s).limit → (meter s).steps ≤ (meter (tick s)).steps :=
    fun hlt => UInt32.le_iff_toNat_le.mpr (by rw [hsteps hlt]; omega)
  unfold charge
  by_cases hlimit : s.interp.executionStepLimit > 0 ∧
      s.interp.numExecutionSteps + 1 ≥ s.interp.executionStepLimit
  · rw [if_pos hlimit]
    refine ⟨rfl, hevents, fun _ hlt => ⟨?_, by simp, hmono hlt, ?_, fun _ => ?_⟩⟩
    · have := UInt32.lt_iff_toNat_lt.mp hlt
      exact UInt32.le_iff_toNat_le.mpr (by rw [hsteps hlt]; omega)
    · rw [hsteps hlt, hcharged, hdropped]
      omega
    · rw [hsteps hlt, hcharged]
      omega
  · rw [if_neg hlimit]
    refine ⟨rfl, hevents, fun hpos hlt => ?_⟩
    have hstill : (meter (tick s)).steps < (meter s).limit :=
      UInt32.not_le.mp fun hge => hlimit ⟨hpos, hge⟩
    refine ⟨UInt32.le_of_lt hstill, fun _ => hstill, hmono hlt, ?_, fun _ => ?_⟩
    · rw [hsteps hlt, hcharged, hdropped]
      omega
    · rw [hsteps hlt, hcharged]
      omega

lemma isMetered_compositional : Compositional IsMetered :=
  Relates.compositional (fun exn s => Metered.refl exn (meter s)) Metered.trans

/-- A charge that returns leaves steps to go. -/
lemma charge_eq_ok {s s' : State} (h : charge s = .ok () s') : s' = tick s := by
  unfold charge at h
  split at h <;> cases h
  rfl

/-- A callee that returns has charged its caller's gas at least once. -/
lemma callee_metered {n : Nat} {scope : ScopeRef} {v : ValuePtr} {s s' : State}
    (hn : IsMetered _ (executeNext n scope .none))
    (hcharged : ∀ k, n = k + 1 → IsMetered _ (executeCharged (executeNext k) scope k .none))
    (hs : evaluate (executeNext n) scope s = .ok v s') :
    Metered none (meter s) (meter s') ∧
      (0 < (meter s).limit → (meter s).steps < (meter s).limit →
        (meter s).steps.toNat < (meter s').steps.toNat) := by
  have heval : IsMetered _ (evaluate (executeNext n) scope) :=
    isMetered_compositional.bind hn fun _ => isMetered_compositional.pure _
  refine ⟨heval.of_ok hs, fun hpos hlt => ?_⟩
  obtain ⟨res, s₁, hrec, hret⟩ := bind_eq_ok.mp hs
  obtain ⟨-, rfl⟩ := pure_eq_ok.mp hret
  cases n with
  | zero => simp [executeNext] at hrec
  | succ k =>
    obtain ⟨u, s₂, hcharge, hbody⟩ := bind_eq_ok.mp hrec
    obtain rfl := charge_eq_ok hcharge
    have htick := isMetered_charge.of_ok hcharge
    have hlt' := (htick.running hpos hlt).2.1 (by simp)
    have hrest := ((hcharged k rfl).of_ok hbody).running (by rwa [htick.limit_eq])
      (by rwa [htick.limit_eq])
    have hsteps : (meter (tick s)).steps.toNat = (meter s).steps.toNat + 1 := toNat_succ_of_lt hlt
    have hmono := UInt32.le_iff_toNat_le.mp hrest.2.2.1
    omega

/-- Taking over a callee that returned drops its steps, unless they are written back. -/
lemma Metered.dropped {m m' : Meter} (h : Metered none m m')
    (hstrict : 0 < m.limit → m.steps < m.limit → m.steps.toNat < m'.steps.toNat) :
    Metered none m ⟨m.steps, m.limit, .calleeReturned :: m'.log⟩ where
  limit_eq := rfl
  events_le e := (h.events_le e).trans List.count_le_count_cons
  running hpos hlt := by
    have hcharged : Meter.charged ⟨m.steps, m.limit, .calleeReturned :: m'.log⟩ = m'.charged := by
      simp [Meter.charged]
    have hdropped : Meter.dropped ⟨m.steps, m.limit, .calleeReturned :: m'.log⟩ = m'.dropped + 1 :=
      List.count_cons_self
    have hlost := (h.running hpos hlt).2.2.2.1
    have hsteps := hstrict hpos hlt
    have hevents : m.dropped ≤ m'.dropped := h.events_le _
    rw [hcharged, hdropped]
    exact ⟨UInt32.le_of_lt hlt, fun _ => hlt, UInt32.le_refl _, by simp only; omega,
      fun hd => absurd hd (by omega)⟩

lemma isMetered_storeAt (r : Ref) (v : Value) : IsMetered _ (storeAt r v) :=
  isMetered_of_unchanged fun s => by
    rw [finalState_storeAt]
    split <;> rfl

lemma isMetered_modifyScope (scope : ScopeRef) (f : Frame → Frame) :
    IsMetered _ (modifyScope scope f) :=
  isMetered_of_unchanged fun s => by
    rw [finalState_modifyScope]
    cases scope <;> rfl

lemma isMetered_onData {α : Type} (f : Bitstream → Option α × Bitstream) : IsMetered _ (onData f) :=
  isMetered_of_unchanged fun s => by rw [finalState_onData]; rfl

lemma isMetered_addModule (name : Str) (module : Ref) : IsMetered _ (addModule name module) :=
  isMetered_of_unchanged fun _ => rfl

/-- Every computation of the interpreter keeps its accounts. -/
lemma closed_isMetered : Closed (fun _ => True) IsMetered where
  toSequential := isMetered_compositional.toSequential
  throw e _ := isMetered_compositional.throw e
  stuck := isMetered_compositional.throw _
  malloc := isMetered_of_unchanged fun s => by rw [finalState_malloc]; rfl
  makeShared _ := isMetered_of_unchanged fun _ => rfl
  load r := isMetered_of_unchanged fun s => by rw [finalState_load]
  storeAt r v _ := isMetered_storeAt r v
  writeStore r st := isMetered_compositional.bind (isMetered_storeAt _ _) fun _ _ =>
    Metered.logged [_] rfl rfl rfl rfl rfl
  findValue _ _ _ := Metered.logged [_] rfl rfl rfl rfl rfl
  setValue _ _ _ _ := Metered.logged _ rfl rfl rfl (count_setEvents (by simp) (by simp) _ _ _)
    (count_setEvents (by simp) (by simp) _ _ _)
  hasValue _ _ _ := Metered.logged [_] rfl rfl rfl rfl rfl
  setGlobalTag _ _ _ := isMetered_modifyScope _ _
  terminate _ _ := isMetered_modifyScope _ _
  requireGlobal _ _ := isMetered_modifyScope _ _
  isTerminated scope _ := isMetered_of_unchanged fun s => by rw [finalState_isTerminated]
  withFrame hf := relates_withFrame (fun id => hf id trivial) fun _ _ _ h => h
  str r := isMetered_of_unchanged fun s => by rw [finalState_str]
  getChain := isMetered_of_unchanged fun _ => rfl
  setFunds _ _ _ := Metered.logged [_] rfl rfl rfl rfl rfl
  checkAddress _ := isMetered_of_unchanged fun _ => rfl
  rand _ := Metered.logged [_] rfl rfl rfl rfl rfl
  printProgramOutput _ := isMetered_of_unchanged fun _ => rfl
  charge := isMetered_charge
  readWord := isMetered_onData _
  readString := isMetered_onData _
  readStub _ := isMetered_compositional.bind (isMetered_onData _) fun _ =>
    isMetered_compositional.bind (isMetered_onData _) fun _ => isMetered_compositional.pure _
  peekType := isMetered_onData _
  returnTo hf := isMetered_compositional.bind (isMetered_of_unchanged fun _ => rfl) fun start =>
    hf start (isMetered_of_unchanged fun _ => rfl)
  streamLength := isMetered_of_unchanged fun _ => rfl
  inGlobalScope hf := isMetered_compositional.bind (isMetered_of_unchanged fun _ => rfl) fun scope =>
    hf scope (by simp [Touches])
  findModule _ := isMetered_of_unchanged fun _ => rfl
  loadRand := loadRand_of_steps isMetered_compositional.toSequential
    (isMetered_of_unchanged fun s => by rw [finalState_malloc]; rfl) (isMetered_of_unchanged fun _ => rfl)
    fun _ => isMetered_addModule _ _
  catchStop _ hr := relates_tryNext hr fun _ _ h => h.handled (by simp)
  record _ _ _ _ := Metered.logged [_] rfl rfl rfl rfl rfl
  checkLimit := by
    intro s
    have hlogged : Metered none (meter s) (meter { s with log := .functionCalled :: s.log }) :=
      Metered.logged [.functionCalled] rfl rfl rfl rfl rfl
    by_cases h : s.interp.executionStepLimit = 0
    · simpa only [checkLimit, h, if_true] using Metered.refl _ (meter s)
    · simpa only [checkLimit, h, if_false] using hlogged
  runCallee _ _ _ _ _ _ hn hcharged := by
    refine relates_runCallee (isMetered_compositional.bind hn fun _ => isMetered_compositional.pure _)
      (fun _ _ _ h => ⟨rfl, h.events_le, h.running⟩) fun a s s' hs => ?_
    obtain ⟨hmeter, hstrict⟩ := callee_metered hn hcharged hs
    exact hmeter.dropped hstrict

/-! ### Whole runs -/

/-- The number of charges between two states of a run. -/
def chargesSince (s s' : State) : Nat := (meter s').charged - (meter s).charged

/-- No `Call` node saw its callee return during the run. -/
def NoCalleeReturned (fuel : Nat) (data : Str) (s : State) : Prop :=
  (meter (finalState (runProgram fuel data) s)).dropped = (meter s).dropped

/-- All work of a run is bounded by the limit, and a run that ends without an exception has
counted it. -/
def GasBoundsWork (fuel : Nat) (data : Str) (s : State) : Prop :=
  chargesSince s (finalState (runProgram fuel data) s) ≤ s.interp.executionStepLimit.toNat ∧
    (returns (runProgram fuel data) s = true →
      (finalState (runProgram fuel data) s).interp.numExecutionSteps.toNat =
        chargesSince s (finalState (runProgram fuel data) s))

instance (fuel : Nat) (data : Str) (s : State) : Decidable (GasBoundsWork fuel data s) :=
  inferInstanceAs (Decidable (_ ∧ (_ → _)))

/-- The gas bounds all work of a run in which no `Call` node sees its callee return. A run
that ends normally counts all its charges only in that case. -/
theorem gasBoundsWork_iff_noCalleeReturned (fuel : Nat) (data : Str) (s : State)
    (hsteps : s.interp.numExecutionSteps = 0) (hlimit : 0 < s.interp.executionStepLimit) :
    (NoCalleeReturned fuel data s → GasBoundsWork fuel data s) ∧
      (returns (runProgram fuel data) s = true →
        GasBoundsWork fuel data s → NoCalleeReturned fuel data s) := by
  have hstart : (meter s).steps < (meter s).limit := by simpa [meter, hsteps] using hlimit
  have hzero : (meter s).steps.toNat = 0 := by simp [meter, hsteps]
  obtain ⟨exn, hmeter⟩ := (closed_isMetered.runProgram fuel data).exists_exn s
  set s' := finalState (runProgram fuel data) s with hs'
  obtain ⟨hle, -, -, hloss, hexact⟩ := hmeter.running hlimit hstart
  have hbound : s'.interp.numExecutionSteps.toNat ≤ s.interp.executionStepLimit.toNat :=
    UInt32.le_iff_toNat_le.mp hle
  have hcharged : (meter s).charged ≤ (meter s').charged := hmeter.events_le _
  have hdropped : (meter s).dropped ≤ (meter s').dropped := hmeter.events_le _
  have hfinal : (meter s').steps = s'.interp.numExecutionSteps := rfl
  rw [hzero, hfinal] at hloss hexact
  unfold NoCalleeReturned GasBoundsWork chargesSince
  rw [← hs']
  constructor
  · intro hno
    have := hexact hno
    exact ⟨by omega, fun _ => by omega⟩
  · intro hok hgas
    have := hgas.2 hok
    omega

/-- A default function that calls `f`, which returns 1. -/
def callOnce : List UInt8 :=
  moduleCode [defStmt "f" [.return (.number (.integer 1))],
    defStmt "default" [.expressionStatement (callExpr "f" [])]]

/-- The run makes 13 charges and reports 9 steps. -/
theorem gasBoundsWork_callOnce_false : ¬GasBoundsWork 20 [] (startState callOnce 1000) := by
  decide +kernel

/-- A default function that returns at once: the counter is exact. -/
theorem gasBoundsWork_returnOne :
    GasBoundsWork 20 [] (startState (moduleCode [defStmt "default" [.return (.number (.integer 1))]])
      1000) :=
  (gasBoundsWork_iff_noCalleeReturned _ _ _ rfl (by decide)).1 (by unfold NoCalleeReturned; decide +kernel)

end ContractPython.Proofs
