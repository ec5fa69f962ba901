import ContractPython.Proofs.Encoding
import ContractPython.Proofs.Steps

/-!
# Calls from outside

The guard of `calldata` looks at the first character of the name and at `is_callable`. What
a caller can invoke is therefore whatever the global scope has under a name without a
leading underscore, and the builtin functions, whose names never reach the scope.
-/

namespace ContractPython.Proofs

open Program M

/-- What `calldata` is about to call. -/
structure CalldataTarget where
  function : Str
  callable : Ref
  args : List ValuePtr
  scope : ScopeRef
  deriving DecidableEq

/-- `calldata` up to the call. -/
def calldataTarget (data : Str) : M CalldataTarget := do
  let (function, argsbit) ← calldataFunction data
  let scope ← globalScope
  let callable ← callableNamed function (← getValue scope function)
  let (args, _) ← iterateM (calldataCount argsbit).1 calldataArgument ([], (calldataCount argsbit).2)
  pure ⟨function, callable, args, scope⟩

lemma calldata_eq (fuel : Nat) (data : Str) :
    calldata fuel data = calldataTarget data >>= fun target =>
      call (executeNext fuel) true target.callable target.args target.scope := by
  simp only [calldata, calldataTarget, bind_assoc, pure_bind]

/-! ### Building the arguments -/

/-- The objects that are there stay as they are. -/
abbrev KeepsHeap (α : Type) (x : M α) : Prop := Relates (fun _ s s' => s.heap <+: s'.heap) α x

lemma keepsHeap_compositional : Compositional KeepsHeap :=
  Relates.compositional (fun _ _ => List.prefix_refl _) List.IsPrefix.trans

lemma keepsHeap_create (v : Value) : KeepsHeap _ (create v) := by
  intro s
  unfold create alloc
  by_cases h : s.memory.grants s.memory.requests = true <;>
    simp [bind, EStateM.bind, malloc, h, makeShared, pure, EStateM.pure]

lemma keepsHeap_charge : KeepsHeap _ charge :=
  Relates.of_unchanged State.heap (Q := fun _ h h' => h <+: h')
    (fun _ _ => List.prefix_refl _) fun s => by rw [finalState_charge]; rfl

lemma keepsHeap_fromStream {α : Type} (f : Bitstream → Option α × Bitstream) (b : Bitstream) :
    KeepsHeap _ (fromStream f b) := by
  unfold fromStream
  split
  · exact keepsHeap_compositional.pure _
  · exact keepsHeap_compositional.throw _

lemma keepsHeap_calldataArgument (acc : List ValuePtr × Bitstream) :
    KeepsHeap _ (calldataArgument acc) := by
  have create (acc : List ValuePtr) (v : Value) (b : Bitstream) :
      KeepsHeap (List ValuePtr × Bitstream) (do
        let p ← create v
        pure (acc ++ [p], b)) :=
    keepsHeap_compositional.bind (keepsHeap_create v) fun _ => keepsHeap_compositional.pure _
  refine keepsHeap_compositional.bind keepsHeap_charge fun _ =>
    keepsHeap_compositional.bind (keepsHeap_fromStream _ _) fun (argtype, b) => ?_
  dsimp only
  split
  · exact keepsHeap_compositional.bind (keepsHeap_fromStream _ _) fun _ => create _ _ _
  · exact keepsHeap_compositional.bind (keepsHeap_fromStream _ _) fun _ => create _ _ _
  · exact keepsHeap_compositional.bind (keepsHeap_fromStream _ _) fun _ => create _ _ _
  · exact keepsHeap_compositional.bind (keepsHeap_fromStream _ _) fun _ => create _ _ _
  · exact keepsHeap_compositional.throw _

/-! ### The callable -/

/-- What `calldata` may call in the state `s`: under a name without a leading underscore, a
callable object that is a builtin for a reserved name and otherwise what the global scope binds. -/
structure Public (s : State) (target : CalldataTarget) (v : Value) : Prop where
  no_underscore : target.function.take 1 ≠ lit "_"
  callable : v.isCallable = true
  scope_eq : target.scope = s.interp.globalScope
  looked_up : (∃ type, Scope.builtinNamed target.function = some type ∧ v = .builtin type) ∨
    (Scope.builtinNamed target.function = none ∧
      Scope.findValue s.frames s.interp.globalScope target.function = some (some target.callable))

/-- The object behind a name that can be called. -/
lemma getValue_callable {scope : ScopeRef} {function : Str} {p : ValuePtr} {r : Ref} {s s₁ s₂ : State}
    (hget : getValue scope function s = .ok p s₁) (hcall : callableNamed function p s₁ = .ok r s₂) :
    ∃ v, s₂.heap[r]? = some v ∧ v.isCallable = true ∧ function.take 1 ≠ lit "_" ∧
      ((∃ type, Scope.builtinNamed function = some type ∧ v = .builtin type) ∨
        (Scope.builtinNamed function = none ∧ Scope.findValue s.frames scope function = some (some r))) := by
  cases p with
  | none => simp [callableNamed, throwRuntime] at hcall
  | some r' =>
    obtain ⟨v, s₃, hload, hcall⟩ := bind_eq_ok.mp hcall
    obtain ⟨u, s₄, hthrow, hcall⟩ := bind_eq_ok.mp hcall
    obtain ⟨hguard, rfl⟩ := throwIf_eq_ok.mp hthrow
    obtain ⟨rfl, rfl⟩ := pure_eq_ok.mp hcall
    obtain ⟨hv, rfl⟩ := load_eq_ok.mp hload
    simp only [Bool.or_eq_false_iff, beq_eq_false_iff_ne, Bool.not_eq_false'] at hguard
    refine ⟨v, hv, hguard.2, hguard.1, ?_⟩
    unfold getValue at hget
    by_cases hname : function = lit "None"
    · rw [if_pos hname] at hget
      cases hget
    · rw [if_neg hname] at hget
      cases hbuiltin : Scope.builtinNamed function with
      | some type =>
        rw [hbuiltin] at hget
        obtain ⟨hr, hheap⟩ := create_eq_ok hget
        cases hr
        exact .inl ⟨type, rfl, by simpa [hheap, eq_comm] using hv⟩
      | none =>
        rw [hbuiltin] at hget
        obtain ⟨found, s₅, hfind, hget⟩ := bind_eq_ok.mp hget
        cases hfind
        cases hvalue : Scope.findValue s.frames scope function with
        | none => simp [hvalue, throwRuntime] at hget
        | some value =>
          rw [hvalue] at hget
          cases hget
          exact .inr ⟨rfl, rfl⟩

lemma calldataFunction_eq_ok {data : Str} {x : Str × Bitstream} {s s' : State}
    (h : calldataFunction data s = .ok x s') : s' = s := by
  unfold calldataFunction at h
  by_cases hlen : data.length > 0
  · rw [if_pos hlen] at h
    unfold fromStream at h
    cases hread : (Bitstream.ofBytes data).readString with
    | mk function b =>
      cases function <;> rw [hread] at h <;> cases h
      rfl
  · rw [if_neg hlen] at h
    cases h
    rfl

/-- What `calldata` calls after `execute` has returned is a function of the contract. -/
def CallsContractFunction (fuel : Nat) (data : Str) (s : State) : Prop :=
  ∀ v s₁ target s₂, execute fuel s = .ok v s₁ → calldataTarget data s₁ = .ok target s₂ →
    ∃ code params defaults, s₂.heap[target.callable]? = some (.vmFunction code params defaults)

def isContractFunction : Value → Bool
  | .vmFunction _ _ _ => true
  | _ => false

/-- Whether the object `calldata` calls after `execute` is a function of the contract. -/
def calledContractFunction (fuel : Nat) (data : Str) : M Bool := do
  let _ ← execute fuel
  let target ← calldataTarget data
  let v ← load target.callable
  pure (isContractFunction v)

lemma not_callsContractFunction {fuel : Nat} {data : Str} {s : State}
    (h : returned (calledContractFunction fuel data) s = some false) :
    ¬CallsContractFunction fuel data s := by
  intro hcalls
  obtain ⟨v, s₁, hexec, hrest⟩ := bind_eq_ok.mp (eq_ok_of_returned h)
  obtain ⟨target, s₂, htarget, hrest⟩ := bind_eq_ok.mp hrest
  obtain ⟨v, s₃, hload, hrest⟩ := bind_eq_ok.mp hrest
  obtain ⟨hv, rfl⟩ := load_eq_ok.mp hload
  obtain ⟨code, params, defaults, hfun⟩ := hcalls _ _ _ _ hexec htarget
  obtain rfl := Option.some.inj (hv.symm.trans hfun)
  simp [isContractFunction] at hrest

/-- A module without any function. -/
def emptyModule : List UInt8 := moduleCode [.pass]

/-- A module that imports `send`. -/
def importsSend : List UInt8 := moduleCode [importFromStmt "blockchain" "send", .pass]

/-- `f` starts as a function and is assigned while a loop in the place of an alias runs: its
body is no top-level code. The compiler does not produce this bytecode. -/
def reassigns : List UInt8 :=
  let append : Ast .expr := .attribute (.list .noExprs) (.name (lit "append"))
  let body : Ast .stmt := .suite (.ofStmts [.assign (.ofExprs [.name (lit "f")]) append,
    .return (callExpr "g" [])])
  typeBytes .statementList ++ (sizeBytes 3 ++
    (bytes (defStmt "g" [.return (.alias (lit "rand") none)]) ++ (bytes (defStmt "f" [.pass]) ++
      (typeBytes .import ++ bytes (.whileLoop (.alias (lit "x") none) body .nullStmt : Ast .stmt)))))

/-- An interpreter with the blockchain module that is about to run a module. -/
def registeredState (code : List UInt8) : State :=
  finalState registerBlockchainModule (startState code 1000)

/-- A contract after `execute` whose only function is `default`. -/
def defaultOnly : State :=
  finalState (execute 20) (registeredState (moduleCode [defStmt "default" [.pass]]))

end ContractPython.Proofs
