import ContractPython.Proofs.Closure
import ContractPython.Proofs.Steps

/-!
# What no execution changes

The global scope, the store and the step limit of an interpreter are set before it executes
anything. A callee has an interpreter of its own, and the caller goes on with its own one.
-/

namespace ContractPython.Proofs

open Program M

/-- The members of an interpreter that are set once. -/
def fixedPart (s : State) : ScopeRef × Ref × UInt32 :=
  (s.interp.globalScope, s.interp.store, s.interp.executionStepLimit)

/-- `x` keeps the fixed part. -/
abbrev KeepsFixed (α : Type) (x : M α) : Prop := Relates (fun _ s s' => fixedPart s' = fixedPart s) α x

lemma keepsFixed_of_finalState {α : Type} {x : M α} (hx : ∀ s, fixedPart (finalState x s) = fixedPart s) :
    KeepsFixed α x :=
  Relates.of_unchanged (Q := fun _ v v' => v' = v) fixedPart (fun _ _ => rfl) hx

lemma keepsFixed_compositional : Compositional KeepsFixed :=
  Relates.compositional (fun _ _ => rfl) fun h h' => h'.trans h

lemma keepsFixed_storeAt (r : Ref) (v : Value) : KeepsFixed _ (storeAt r v) :=
  keepsFixed_of_finalState fun s => by
    rw [finalState_storeAt]
    split <;> rfl

lemma keepsFixed_modifyScope (scope : ScopeRef) (f : Frame → Frame) : KeepsFixed _ (modifyScope scope f) :=
  keepsFixed_of_finalState fun s => by
    rw [finalState_modifyScope]
    cases scope <;> rfl

lemma keepsFixed_onData {α : Type} (f : Bitstream → Option α × Bitstream) : KeepsFixed _ (onData f) :=
  keepsFixed_of_finalState fun s => by rw [finalState_onData]; rfl

lemma closed_keepsFixed : Closed (fun _ => True) KeepsFixed where
  toSequential := keepsFixed_compositional.toSequential
  throw e _ := keepsFixed_compositional.throw e
  stuck := keepsFixed_compositional.throw _
  malloc := keepsFixed_of_finalState fun s => by rw [finalState_malloc]; rfl
  makeShared _ := keepsFixed_of_finalState fun _ => rfl
  load r := keepsFixed_of_finalState fun s => by rw [finalState_load]
  storeAt r v _ := keepsFixed_storeAt r v
  writeStore _ _ := keepsFixed_compositional.bind (keepsFixed_storeAt _ _) fun _ _ => rfl
  findValue _ _ := keepsFixed_of_finalState fun _ => rfl
  setValue _ _ _ := keepsFixed_of_finalState fun _ => rfl
  hasValue _ _ := keepsFixed_of_finalState fun _ => rfl
  setGlobalTag _ _ _ := keepsFixed_modifyScope _ _
  terminate _ _ := keepsFixed_modifyScope _ _
  requireGlobal _ _ := keepsFixed_modifyScope _ _
  isTerminated scope _ := keepsFixed_of_finalState fun s => by rw [finalState_isTerminated]
  withFrame hf := relates_withFrame (fun id => hf id trivial) fun _ _ _ h => h
  str r := keepsFixed_of_finalState fun s => by rw [finalState_str]
  getChain := keepsFixed_of_finalState fun _ => rfl
  setFunds _ _ := keepsFixed_of_finalState fun _ => rfl
  checkAddress _ := keepsFixed_of_finalState fun _ => rfl
  rand := keepsFixed_of_finalState fun _ => rfl
  printProgramOutput _ := keepsFixed_of_finalState fun _ => rfl
  charge := keepsFixed_of_finalState fun s => by rw [finalState_charge]; rfl
  readWord := keepsFixed_onData _
  readString := keepsFixed_onData _
  readStub _ := keepsFixed_compositional.bind (keepsFixed_onData _) fun _ =>
    keepsFixed_compositional.bind (keepsFixed_onData _) fun _ => keepsFixed_compositional.pure _
  peekType := keepsFixed_onData _
  returnTo hf := keepsFixed_compositional.bind (keepsFixed_of_finalState fun _ => rfl) fun start =>
    hf start (keepsFixed_of_finalState fun _ => rfl)
  streamLength := keepsFixed_of_finalState fun _ => rfl
  inGlobalScope hf := keepsFixed_compositional.bind (keepsFixed_of_finalState fun _ => rfl)
    fun scope => hf scope (by simp [Touches])
  findModule _ := keepsFixed_of_finalState fun _ => rfl
  loadRand := loadRand_of_steps keepsFixed_compositional.toSequential
    (keepsFixed_of_finalState fun s => by rw [finalState_malloc]; rfl)
    (keepsFixed_of_finalState fun _ => rfl) fun _ => keepsFixed_of_finalState fun _ => rfl
  catchStop _ hr := relates_tryNext hr fun _ _ h => h
  record _ _ _ := keepsFixed_of_finalState fun _ => rfl
  checkLimit := keepsFixed_of_finalState fun s => by
    rw [finalState_checkLimit]
    split <;> rfl
  runCallee _ _ _ _ _ _ hn _ :=
    relates_runCallee (keepsFixed_compositional.bind hn fun _ => keepsFixed_compositional.pure _)
      (fun _ _ _ _ => rfl) fun _ _ _ _ => rfl

end ContractPython.Proofs
