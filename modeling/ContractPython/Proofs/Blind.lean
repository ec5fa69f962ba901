import ContractPython.Lib.Lockstep
import ContractPython.Proofs.Closure
import ContractPython.Proofs.Skip

/-!
# What does not read the stream

All but the reading of the bytecode goes on in the same way whatever the stream of the interpreter
holds. A call belongs to it: the body of a function is read from a stream of its own.
-/

namespace ContractPython.Proofs

open Program M

/-- `x` neither looks at the stream nor moves in it. -/
def Blind (α : Type) (x : M α) : Prop := ∀ b, Commutes (withCode b) α x

lemma blind_compositional : Compositional Blind where
  pure a _ := (Commutes.compositional _).pure a
  throw e _ := (Commutes.compositional _).throw e
  bind hx hf b := (Commutes.compositional _).bind (hx b) fun a => hf a b

namespace Blind

variable {α : Type} {x : M α} {s s' : State} {a : α}

lemma data_eq (h : Blind α x) (hx : x s = .ok a s') : s'.interp.data = s.interp.data := by
  have hsame : x (withCode s.interp.data s) = .ok a (withCode s.interp.data s') := (h _).of_ok hx
  have hs : withCode s.interp.data s = s := rfl
  rw [hs, hx] at hsame
  have hs' : s' = withCode s.interp.data s' := (EStateM.Result.ok.inj hsame).2
  rw [hs']
  rfl

lemma malloc : Blind _ malloc := by
  intro b s
  unfold M.malloc withCode
  dsimp only
  split <;> rfl

lemma makeShared (v : Value) : Blind _ (makeShared v) := fun _ _ => rfl

lemma load (r : Ref) : Blind _ (load r) := by
  intro b s
  unfold M.load withCode
  dsimp only
  split <;> rfl

lemma storeAt (r : Ref) (v : Value) : Blind _ (storeAt r v) := by
  intro b s
  unfold M.storeAt withCode
  dsimp only
  split <;> rfl

lemma str (r : Ref) : Blind _ (str r) := by
  intro b s
  unfold M.str withCode
  dsimp only
  split <;> rfl

lemma record (e : Event) : Blind _ (record e) := fun _ _ => rfl

lemma charge : Blind _ charge := by
  intro b s
  unfold M.charge withCode
  dsimp only
  split <;> rfl

lemma tryNext (r : Ref) (h : Blind _ (next r)) : Blind _ (tryNext r) := by
  intro b s
  unfold M.tryNext
  rw [h b s]
  cases next r s with
  | ok v s' => rfl
  | error e s' => cases e <;> rfl

lemma modifyScope (scope : ScopeRef) (f : Frame → Frame) : Blind _ (modifyScope scope f) := by
  intro b s
  cases scope <;> rfl

lemma isTerminated (scope : ScopeRef) : Blind _ (isTerminated scope) := by
  intro b s
  cases scope <;> rfl

lemma checkLimit : Blind _ checkLimit := by
  intro b s
  unfold M.checkLimit withCode
  dsimp only
  split <;> rfl

lemma withFrame {f : Nat → M α} (hf : ∀ id, Blind α (f id)) : Blind α (withFrame f) := by
  intro b s
  have hbody : f (withCode b s).frames.length { withCode b s with frames := (withCode b s).frames ++ [.empty] } =
      mapState (withCode b) (f s.frames.length { s with frames := s.frames ++ [.empty] }) :=
    hf _ b { s with frames := s.frames ++ [.empty] }
  simp only [M.withFrame, hbody]
  cases f s.frames.length { s with frames := s.frames ++ [.empty] } <;> rfl

/-- A callee reads its own stream. -/
lemma runCallee (writeBack : Bool) (pyint : Interp) (x : M α) : Blind α (runCallee writeBack pyint x) := by
  intro b s
  have hcallee : calleeState pyint (withCode b s) = calleeState pyint s := rfl
  unfold M.runCallee
  rw [hcallee]
  cases x (calleeState pyint s) with
  | ok a s' => cases writeBack <;> rfl
  | error e s' => rfl

end Blind

lemma values_blind : Values Blind where
  toSequential := blind_compositional.toSequential
  throw e _ := blind_compositional.throw e
  malloc := .malloc
  makeShared := .makeShared
  load := .load
  storeAt r v _ := .storeAt r v
  writeStore _ _ := blind_compositional.bind (.storeAt _ _) fun _ => .record _
  str := .str
  getChain := fun _ _ => rfl
  checkAddress _ := fun _ _ => rfl
  rand := fun _ _ => rfl
  printProgramOutput _ := fun _ _ => rfl
  findModule _ := fun _ _ => rfl
  loadRand := loadRand_of_steps blind_compositional.toSequential .malloc (.makeShared _) fun _ _ _ => rfl
  catchStop := .tryNext

lemma blind_transfers (scope : ScopeRef) : Blind _ (send scope) ∧ Blind _ (suicide scope) :=
  values_blind.transfers (fun _ _ _ _ => rfl) (fun _ _ _ => rfl) fun _ _ _ => rfl

/-- Neither does the call of any object. -/
lemma calls_blind : Calls (fun sc sc' => sc.length = sc'.length) (fun sc sc' => sc.length = sc'.length)
    (fun _ _ => True) (fun α x y => Blind α x ∧ Blind α y) where
  congruence := ⟨fun a => ⟨blind_compositional.pure a, blind_compositional.pure a⟩, fun hx hf =>
    ⟨blind_compositional.bind hx.1 fun a => (hf a).1, blind_compositional.bind hx.2 fun a => (hf a).2⟩⟩
  throw e _ := ⟨blind_compositional.throw e, blind_compositional.throw e⟩
  malloc := ⟨.malloc, .malloc⟩
  makeShared v := ⟨.makeShared v, .makeShared v⟩
  own h := h
  push _ h := by simpa using h
  root _ := rfl
  length_eq h := h
  setValue _ _ _ := ⟨fun _ _ => rfl, fun _ _ => rfl⟩
  requireGlobal _ := ⟨.modifyScope _ _, .modifyScope _ _⟩
  withFrame h := ⟨.withFrame fun id => (h id id trivial).1, .withFrame fun id => (h id id trivial).2⟩
  checkLimit := ⟨.checkLimit, .checkLimit⟩
  values := by simpa only [and_self] using values_blind
  findValue _ _ := ⟨fun _ _ => rfl, fun _ _ => rfl⟩
  hasValue _ _ := ⟨fun _ _ => rfl, fun _ _ => rfl⟩
  send _ := ⟨(blind_transfers _).1, (blind_transfers _).1⟩
  suicide _ := ⟨(blind_transfers _).2, (blind_transfers _).2⟩

namespace Blind

lemma call (rec : Rec) (writeBack : Bool) (callable : Ref) (args : List ValuePtr) (scope : ScopeRef) :
    Blind _ (call rec writeBack callable args scope) := by
  have hboth : Blind _ (M.call rec writeBack callable args scope) ∧
      Blind _ (M.call rec writeBack callable args scope) :=
    calls_blind.call (fun _ _ => ⟨.runCallee _ _ _, .runCallee _ _ _⟩) rfl callable args
  exact hboth.1

lemma getValue (scope : ScopeRef) (name : Str) : Blind _ (getValue scope name) :=
  (calls_blind.looksUp.getValue rfl name).1

lemma setValue (scope : ScopeRef) (name : Str) (value : ValuePtr) : Blind _ (setValue scope name value) :=
  fun _ _ => rfl

end Blind

end ContractPython.Proofs
