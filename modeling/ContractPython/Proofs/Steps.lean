import ContractPython.Model.Compiler
import ContractPython.Model.Library

/-!
# The primitive steps

The state each primitive step of the interpreter ends in, whether it returns or throws.
-/

namespace ContractPython.Proofs

open Program M

/-- The memory manager grants the next request. -/
def MemoryLeft (s : State) : Prop := s.memory.grants s.memory.requests = true

instance (s : State) : Decidable (MemoryLeft s) := inferInstanceAs (Decidable (_ = _))

lemma throwIf_eq_ok {cond : Bool} {what : Str} {s s' : State} :
    throwIf cond what s = .ok () s' ↔ cond = false ∧ s = s' := by
  cases cond <;> simp [throwIf, throwRuntime]

lemma load_eq_ok {r : Ref} {v : Value} {s s' : State} :
    load r s = .ok v s' ↔ s.heap[r]? = some v ∧ s = s' := by
  unfold load
  cases h : s.heap[r]? <;> simp

lemma lt_length_of_heap {r : Ref} {v : Value} {s : State} (h : s.heap[r]? = some v) :
    r < s.heap.length :=
  (List.getElem?_eq_some_iff.mp h).1

lemma load_of_heap {r : Ref} {v : Value} {s : State} (h : s.heap[r]? = some v) : load r s = .ok v s :=
  load_eq_ok.mpr ⟨h, rfl⟩

lemma valueCast_of_heap {α : Type} (proj : Value → Option α) {r : Ref} {v : Value} {a : α} {s : State}
    (h : s.heap[r]? = some v) (ha : proj v = some a) : valueCast proj (some r) s = .ok a s := by
  simp only [valueCast, bind_of_ok (load_of_heap h), ha]
  rfl

lemma integerAt_of_heap {r : Ref} {i : Int64} {s : State} (h : s.heap[r]? = some (.integer i)) :
    integerAt (some r) s = .ok (some (r, i)) s := by
  simp only [integerAt, bind_of_ok (load_of_heap h)]
  rfl

/-- Assigning to an object of the same class. -/
lemma storeAt_of_heap {r : Ref} {v v' : Value} {s : State} (h : s.heap[r]? = some v)
    (hv : v.ctorIdx = v'.ctorIdx) : storeAt r v' s = .ok () { s with heap := s.heap.set r v' } := by
  simp only [storeAt, h, Option.map_some, hv, if_true]

/-- A created object is the last one of the heap. -/
lemma create_eq_ok {v : Value} {p : ValuePtr} {s s' : State} (h : create v s = .ok p s') :
    p = some s.heap.length ∧ s'.heap = s.heap ++ [v] := by
  unfold create alloc at h
  by_cases hmem : s.memory.grants s.memory.requests = true
  · simp only [bind, EStateM.bind, malloc, hmem, if_true, makeShared, pure, EStateM.pure] at h
    cases h
    exact ⟨rfl, rfl⟩
  · simp [bind, EStateM.bind, malloc, hmem] at h

/-- The state with a new object. -/
def created (v : Value) (s : State) : State :=
  { s with heap := s.heap ++ [v], memory := { s.memory with requests := s.memory.requests + 1 } }

lemma alloc_of_memoryLeft {s : State} (h : MemoryLeft s) (v : Value) :
    alloc v s = .ok s.heap.length (created v s) := by
  unfold MemoryLeft at h
  simp only [alloc, malloc, makeShared, bind, EStateM.bind, h, if_true]
  rfl

lemma create_of_memoryLeft {s : State} (h : MemoryLeft s) (v : Value) :
    create v s = .ok (some s.heap.length) (created v s) := bind_of_ok (alloc_of_memoryLeft h v)

lemma heap_created (v : Value) (s : State) : (created v s).heap[s.heap.length]? = some v := by
  simp [created]

/-- The memory manager refuses nothing. -/
def Generous (s : State) : Prop := ∀ k, s.memory.grants k = true

/-- The pointer stands for the value, the null pointer for `None`. -/
def StandsFor (p : ValuePtr) (v : Option Value) (s : State) : Prop := loadPtr p s = .ok v s

/-- The object behind a pointer. -/
def content (p : ValuePtr) (s : State) : Option Value := p.bind (s.heap[·]?)

lemma create_refused {s : State} (h : ¬MemoryLeft s) (v : Value) : create v s =
    .error (.runtimeError (lit "out of memory: program tries to allocate too much heap memory!"))
      { s with memory := { s.memory with requests := s.memory.requests + 1 } } := by
  unfold MemoryLeft at h
  rw [Bool.not_eq_true] at h
  simp only [create, alloc, malloc, bind, EStateM.bind, h, Bool.false_eq_true, if_false]

lemma create_of_not_memoryLeft {s : State} (h : ¬MemoryLeft s) (v : Value) :
    ∃ e, create v s = .error e
      { s with memory := { s.memory with requests := s.memory.requests + 1 } } :=
  ⟨_, create_refused h v⟩

@[simp] lemma finalState_malloc (s : State) :
    finalState malloc s = { s with memory := { s.memory with requests := s.memory.requests + 1 } } := by
  unfold malloc finalState resultState
  by_cases h : s.memory.grants s.memory.requests = true <;> simp [h]

@[simp] lemma finalState_load (r : Ref) (s : State) : finalState (load r) s = s := by
  unfold load finalState resultState
  cases h : s.heap[r]? <;> simp only [h]

/-- Assigning to an object never changes its class. -/
@[simp] lemma finalState_storeAt (r : Ref) (v : Value) (s : State) :
    finalState (storeAt r v) s =
      if (s.heap[r]?).map Value.ctorIdx = some v.ctorIdx then { s with heap := s.heap.set r v }
      else s := by
  unfold storeAt finalState resultState
  by_cases h : (s.heap[r]?).map Value.ctorIdx = some v.ctorIdx <;> simp only [h, if_true, if_false]

@[simp] lemma finalState_writeStore (r : Ref) (st : Store) (s : State) :
    finalState (writeStore r st) s =
      if (s.heap[r]?).map Value.ctorIdx = some (Value.persistableDictionary st).ctorIdx then
        { s with heap := s.heap.set r (.persistableDictionary st), log := .storeWritten :: s.log }
      else s := by
  unfold writeStore storeAt finalState resultState
  by_cases h : (s.heap[r]?).map Value.ctorIdx = some (Value.persistableDictionary st).ctorIdx <;>
    simp only [bind, EStateM.bind, h, if_true, if_false, record]

@[simp] lemma finalState_str (r : Ref) (s : State) : finalState (str r) s = s := by
  unfold str finalState resultState
  cases h : Value.str s.heap (s.heap.length + 1) r <;> simp only [h]

@[simp] lemma finalState_onData {α : Type} (f : Bitstream → Option α × Bitstream) (s : State) :
    finalState (onData f) s =
      { s with interp := { s.interp with data := (f s.interp.data).2 } } := by
  unfold onData finalState resultState
  cases h : (f s.interp.data).1 <;> simp only [h]

/-- A read that succeeds. -/
lemma onData_of_some {α : Type} {f : Bitstream → Option α × Bitstream} {s : State} {a : α}
    {b : Bitstream} (h : f s.interp.data = (some a, b)) :
    onData f s = .ok a { s with interp := { s.interp with data := b } } := by
  simp only [onData, h]

@[simp] lemma finalState_modifyScope (scope : ScopeRef) (f : Frame → Frame) (s : State) :
    finalState (modifyScope scope f) s =
      match scope with
      | [] => s
      | id :: _ => { s with frames := s.frames.set id (f (Scope.frame s.frames id)) } := by
  cases scope <;> rfl

@[simp] lemma finalState_isTerminated (scope : ScopeRef) (s : State) :
    finalState (isTerminated scope) s = s := by
  cases scope <;> rfl

@[simp] lemma finalState_checkLimit (s : State) : finalState checkLimit s =
    if s.interp.executionStepLimit = 0 then s else { s with log := .functionCalled :: s.log } := by
  unfold checkLimit finalState resultState
  by_cases h : s.interp.executionStepLimit = 0 <;> simp only [h, if_true, if_false]

/-- An assignment logs its questions and the binding. -/
lemma count_setEvents {e : Event} (ht : ∀ binders, Event.nameTested binders ≠ e)
    (hb : ∀ id, Event.nameBound id ≠ e)
    (frames : List Frame) (scope : ScopeRef) (name : Str) :
    (Scope.setEvents frames scope name).count e = 0 := by
  induction scope with
  | nil => rfl
  | cons id parents ih =>
    simp only [Scope.setEvents]
    repeat' split
    all_goals simp [ih, ht, hb]

@[simp] lemma finalState_charge (s : State) : finalState charge s = tick s := by
  unfold charge finalState resultState
  by_cases h : s.interp.executionStepLimit > 0 ∧
      s.interp.numExecutionSteps + 1 ≥ s.interp.executionStepLimit
  · simp only [if_pos h]
  · simp only [if_neg h]

/-- The counter after a charge below the limit. -/
lemma toNat_steps_tick {s : State}
    (h : s.interp.numExecutionSteps.toNat < s.interp.executionStepLimit.toNat) :
    (tick s).interp.numExecutionSteps.toNat = s.interp.numExecutionSteps.toNat + 1 := by
  have hlimit := s.interp.executionStepLimit.toNat_lt
  have hadd : (tick s).interp.numExecutionSteps = s.interp.numExecutionSteps + 1 := rfl
  rw [hadd, UInt32.toNat_add, UInt32.toNat_one]
  omega

/-- A charge below the limit runs out of gas exactly when it is the last one. -/
lemma charge_run {s : State}
    (h : s.interp.numExecutionSteps.toNat < s.interp.executionStepLimit.toNat) :
    (s.interp.numExecutionSteps.toNat + 1 = s.interp.executionStepLimit.toNat ∧
      charge s = .error .outOfGas (tick s)) ∨
    (s.interp.numExecutionSteps.toNat + 1 < s.interp.executionStepLimit.toNat ∧
      charge s = .ok () (tick s)) := by
  have htick := toNat_steps_tick h
  have hadd : (tick s).interp.numExecutionSteps = s.interp.numExecutionSteps + 1 := rfl
  rw [hadd] at htick
  have hpos : s.interp.executionStepLimit > 0 := UInt32.lt_iff_toNat_lt.mpr (by simp; omega)
  have hge : s.interp.numExecutionSteps + 1 ≥ s.interp.executionStepLimit ↔
      s.interp.executionStepLimit.toNat ≤ s.interp.numExecutionSteps.toNat + 1 := by
    rw [ge_iff_le, UInt32.le_iff_toNat_le, htick]
  unfold charge
  by_cases hlast : s.interp.numExecutionSteps + 1 ≥ s.interp.executionStepLimit
  · rw [if_pos ⟨hpos, hlast⟩]
    exact .inl ⟨by have := hge.mp hlast; omega, rfl⟩
  · rw [if_neg fun hand => hlast hand.2]
    exact .inr ⟨by have := mt hge.mpr hlast; omega, rfl⟩

/-! ### Steps around a computation -/

lemma finalState_withFrame {α : Type} (f : Nat → M α) (s : State) :
    finalState (withFrame f) s =
      { finalState (f s.frames.length) { s with frames := s.frames ++ [.empty] } with
        frames := (finalState (f s.frames.length)
          { s with frames := s.frames ++ [.empty] }).frames.take s.frames.length } := by
  unfold withFrame finalState resultState
  cases hf : f s.frames.length { s with frames := s.frames ++ [.empty] } <;> simp only [hf]

section Brackets

variable {R : Option Exn → State → State → Prop} {α : Type}

lemma relates_withFrame {f : Nat → M α} (hf : ∀ id, Relates R α (f id))
    (hR : ∀ exn s s', R exn { s with frames := s.frames ++ [.empty] } s' →
      R exn s { s' with frames := s'.frames.take s.frames.length }) : Relates R α (withFrame f) := by
  intro s
  have hs := hf s.frames.length { s with frames := s.frames ++ [.empty] }
  unfold withFrame
  cases hfs : f s.frames.length { s with frames := s.frames ++ [.empty] } with
  | ok a s' => rw [hfs] at hs; exact hR none s s' hs
  | error e s' => rw [hfs] at hs; exact hR (some e) s s' hs

/-- What `tryNext` makes of the result of `next`. -/
def stopCaught :
    EStateM.Result Exn State ValuePtr → EStateM.Result Exn State (Option ValuePtr)
  | .ok v s => .ok (some v) s
  | .error .stopIteration s => .ok none s
  | .error e s => .error e s

lemma relates_tryNext {r : Ref} (hr : Relates R _ (next r))
    (hR : ∀ s s', R (some .stopIteration) s s' → R none s s') : Relates R _ (tryNext r) := by
  intro s
  have hs := hr s
  unfold tryNext
  cases hrs : next r s with
  | ok v s' => rw [hrs] at hs; exact hs
  | error e s' =>
    rw [hrs] at hs
    cases e with
    | stopIteration => exact hR s s' hs
    | _ => exact hs

lemma relates_runCallee {writeBack : Bool} {pyint : Interp} {x : M α} (hx : Relates R α x)
    (hback : ∀ exn s s', R exn (calleeState pyint s) s' → R exn s (writtenBack s s'))
    (hdrop : ∀ a s s', x (calleeState pyint s) = .ok a s' → R none s (stepsDropped s s')) :
    Relates R α (runCallee writeBack pyint x) := by
  intro s
  have hs := hx (calleeState pyint s)
  unfold runCallee
  cases hcallee : x (calleeState pyint s) with
  | ok a s' =>
    rw [hcallee] at hs
    cases writeBack with
    | true => exact hback none s s' hs
    | false => exact hdrop a s s' hcallee
  | error e s' =>
    rw [hcallee] at hs
    exact hback (some e) s s' hs

end Brackets

lemma limitFromGas_eq_ok {gas : UInt64} {gasprice : UInt32} {s s' : State}
    (h : limitFromGas gas gasprice s = .ok () s') :
    gasprice ≠ 0 ∧ (gas / gasprice.toUInt64).toUInt32 ≠ 0 ∧
      s' = { s with interp := { s.interp with
        executionStepLimit := (gas / gasprice.toUInt64).toUInt32 } } := by
  unfold limitFromGas at h
  split at h
  · cases h
  · rename_i hprice
    unfold setExecutionStepLimit at h
    split at h
    · cases h
    · rename_i hlimit
      cases h
      exact ⟨hprice, hlimit, rfl⟩

/-! ### Runs of compiled modules -/

/-- An interpreter about to run `code` under a limit. -/
def startState (code : List UInt8) (limit : UInt32) : State where
  interp := ⟨Bitstream.ofBytes code, 0, limit, [0], .empty, 0⟩
  heap := [.persistableDictionary .empty]
  frames := [{ Frame.empty with values := SortedMap.empty.insert (lit "store") (some 0) }]
  chain := Blockchain.ofArguments ⟨[], [], [], 0, 0, 0, [], [], 0, 0⟩ .main
  codec := ⟨fun _ => (0, []), fun _ _ => none⟩
  memory := .dummy
  rand := ⟨fun _ => 0, 0⟩
  stdoutBuffer := []
  log := []

/-- A source of numbers that draws zero every time. -/
def allZero : Nat → Fin 2147483648 := fun _ => 0

/-- `def name(): body`. -/
def defStmt (name : String) (body : List (Ast .stmt)) : Ast .stmt :=
  .functionDef (.name (lit name)) .noExprs .noExprs .noExprs .noExprs .nullExpr .nullExpr
    (.suite (.ofStmts body))

/-- `name(args)`. -/
def callExpr (name : String) (args : List (Ast .expr)) : Ast .expr :=
  .call (.name (lit name)) (.ofExprs args) .noExprs .nullExpr .nullExpr

/-- The bytecode of a module. -/
def moduleCode (body : List (Ast .stmt)) : List UInt8 :=
  match Compiler.run (.suite (.ofStmts body)) with
  | .ok code => code
  | .error _ => []

/-- `from module import name`. -/
def importFromStmt (module name : String) : Ast .stmt :=
  .importFrom (.name (lit module)) (.alias (lit name) none) 0

/-- `name[key] = value`. -/
def assignItem (name key : String) (value : Int64) : Ast .stmt :=
  .assign (.ofExprs [.subscript (.index (.str (lit key))) (.name (lit name))])
    (.number (.integer value))

/-- The text of an archived map: its size, then each key with its length and its value. -/
def archiveMap {ν : Type} (text : ν → Str) (m : SortedMap Str ν) : Str :=
  lit (toString m.size) ++ m.entries.flatMap fun (key, v) =>
    lit " " ++ lit (toString key.length) ++ lit " " ++ key ++ lit " " ++ text v

/-- A text archive; it stands for the boost archives in the runs below, which load nothing. -/
def textArchive : Archive where
  uncompress := id
  load _ := .error (.runtimeError (lit "input stream error"))
  save st :=
    archiveMap (fun s => lit (toString s.length) ++ lit " " ++ s) st.elementsString ++ lit " " ++
      archiveMap (fun i => lit (toString i.toInt)) st.elementsInt ++ lit " " ++
      archiveMap (fun f => lit (toString f.toNat)) st.elementsDouble ++ lit " " ++
      archiveMap (fun b => lit (toString b.toNat)) st.elementsBool

/-- A call of the default function of a contract that owns 100. -/
def callDefault (code : List UInt8) : Arguments where
  raw := code
  network := .main
  blkchn := ⟨lit "t", lit "b", lit "p", 0, 0, 0, lit "s", lit "c", 0, 100⟩
  gas := 1000
  gasprice := 1
  oldStorage := []
  data := []

/-- A process that has drawn `drawn` numbers from `rand()`. -/
def processAfter (numbers : Nat → Fin 2147483648) (drawn : Nat) : Process where
  chain := Blockchain.ofArguments ⟨[], [], [], 0, 0, 0, [], [], 0, 0⟩ .main
  rand := ⟨numbers, drawn⟩
  stdoutBuffer := []
  errorBuffer := []

/-- Decoders that accept no address. -/
def noAddresses : AddressCodec := ⟨fun _ => (0, []), fun _ _ => none⟩

/-- A call in a fresh process. -/
def runDefault (code : List UInt8) : Except Exn Outcome :=
  Library.executeProgram textArchive noAddresses .dummy 30 (callDefault code)
    (processAfter (fun _ => 0) 0)

/-- A check of the outcome of a call. -/
def outcomeSatisfies (p : Outcome → Bool) : Except Exn Outcome → Bool
  | .ok out => p out
  | .error _ => false

lemma exists_outcome {p : Outcome → Bool} {x : Except Exn Outcome} (h : outcomeSatisfies p x = true) :
    ∃ out, x = .ok out ∧ p out = true := by
  cases x with
  | ok out => exact ⟨out, rfl, h⟩
  | error e => simp [outcomeSatisfies] at h

end ContractPython.Proofs
