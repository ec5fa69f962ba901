import ContractPython.Proofs.Evaluation
import ContractPython.Proofs.Fixed

/-!
# Imports

Every call makes an interpreter of its own, and nothing takes the modules of the caller along:
whatever is registered, an import inside a function finds the `rand` module and no other.
-/

namespace ContractPython.Proofs

open Program M Bytes

/-! ### The interpreter of a callee -/

/-- The interpreter `CallableVMFunction::call` makes. -/
def freshInterp (code : List UInt8) (id : Nat) (store : Ref) : Interp where
  data := Bitstream.ofBytes code
  numExecutionSteps := 0
  executionStepLimit := 0
  globalScope := [id]
  loadedModules := .empty
  store := store

lemma withInterpreter_freshInterp {α : Type} (code : List UInt8) (body : Interp → M α) :
    withInterpreter code body = (do
      malloc
      withFrame fun id => do
        let store ← makeShared (.persistableDictionary .empty)
        setValue [id] (lit "store") (some store)
        body (freshInterp code id store)) := rfl

/-- A computation of the interpreter: whatever is composed of its primitive steps. -/
def Interpreted {α : Type} (x : M α) : Prop :=
  ∀ Φ : (∀ α : Type, M α → Prop), Closed (fun _ => True) Φ → Φ α x

/-- The interpreter that runs is the one of a callee, at whatever depth of calls: it has started
the body of a function and gone on from there, maybe into a block with a scope of its own. -/
inductive InCallee : State → Prop
  | start (code : List UInt8) (id : Nat) (store : Ref) (s : State) :
    InCallee (calleeState (freshInterp code id store) s)
  | run {α : Type} {x : M α} {s : State} (hx : Interpreted x) (hs : InCallee s) : InCallee (finalState x s)
  | push {s : State} (hs : InCallee s) : InCallee { s with frames := s.frames ++ [.empty] }

/-- The interpreter has loaded nothing but a `rand` module of its own. -/
def OwnModules (s : State) : Prop :=
  ∀ name r, s.interp.loadedModules.find? name = some r →
    name = lit "rand" ∧ s.heap[r]? = some .randModule

/-- Objects of the class `RandModule` stay there, and nobody registers a module. -/
structure KeepsModules (s s' : State) : Prop where
  rand : ∀ r : Ref, s.heap[r]? = some .randModule → s'.heap[r]? = some .randModule
  own : OwnModules s → OwnModules s'

namespace KeepsModules

variable {s s' s'' : State}

lemma refl (s : State) : KeepsModules s s := ⟨fun _ h => h, fun h => h⟩

lemma trans (h : KeepsModules s s') (h' : KeepsModules s' s'') : KeepsModules s s'' :=
  ⟨fun r hr => h'.rand r (h.rand r hr), fun hs => h'.own (h.own hs)⟩

lemma of_heap (hmodules : s'.interp.loadedModules = s.interp.loadedModules)
    (hheap : ∀ r : Ref, s.heap[r]? = some .randModule → s'.heap[r]? = some .randModule) : KeepsModules s s' := by
  refine ⟨hheap, fun hs name r hr => ?_⟩
  rw [hmodules] at hr
  obtain ⟨hname, hrand⟩ := hs name r hr
  exact ⟨hname, hheap r hrand⟩

lemma of_eq (hmodules : s'.interp.loadedModules = s.interp.loadedModules) (hheap : s'.heap = s.heap) :
    KeepsModules s s' := of_heap hmodules fun _ hr => hheap ▸ hr

end KeepsModules

/-- `x` registers no module. -/
abbrev RegistersNothing (α : Type) (x : M α) : Prop := Relates (fun _ s s' => KeepsModules s s') α x

lemma registersNothing_compositional : Compositional RegistersNothing :=
  Relates.compositional (fun _ s => .refl s) fun h h' => h.trans h'

lemma registersNothing_of_finalState {α : Type} {x : M α} (hx : ∀ s, KeepsModules s (finalState x s)) :
    RegistersNothing α x := by
  intro s
  have hs := hx s
  unfold finalState resultState at hs
  cases hxs : x s with
  | ok a s' => rwa [hxs] at hs
  | error e s' => rwa [hxs] at hs

lemma registersNothing_storeAt (r : Ref) (v : Value) : RegistersNothing _ (storeAt r v) := by
  refine registersNothing_of_finalState fun s => ?_
  rw [finalState_storeAt]
  split
  · rename_i hclass
    refine .of_heap rfl fun r' hr' => ?_
    by_cases heq : r = r'
    · subst heq
      -- the object keeps its class, and a `RandModule` has no members
      rw [hr', Option.map_some, Option.some.injEq] at hclass
      have hv : v = .randModule := by cases v <;> first | rfl | cases hclass
      rw [List.getElem?_set_self (lt_length_of_heap hr'), hv]
    · rw [List.getElem?_set_ne heq]
      exact hr'
  · exact .refl s

lemma registersNothing_makeShared (v : Value) : RegistersNothing _ (makeShared v) :=
  registersNothing_of_finalState fun s => .of_heap rfl fun r hr => by
    show (s.heap ++ [v])[r]? = _
    rw [List.getElem?_append_left (lt_length_of_heap hr), hr]

lemma registersNothing_malloc : RegistersNothing _ malloc :=
  registersNothing_of_finalState fun s => by
    rw [finalState_malloc]
    exact .of_eq rfl rfl

lemma registersNothing_modifyScope (scope : ScopeRef) (f : Frame → Frame) :
    RegistersNothing _ (modifyScope scope f) :=
  registersNothing_of_finalState fun s => by
    rw [finalState_modifyScope]
    cases scope <;> exact .of_eq rfl rfl

lemma registersNothing_onData {α : Type} (f : Bitstream → Option α × Bitstream) :
    RegistersNothing _ (onData f) :=
  registersNothing_of_finalState fun s => by
    rw [finalState_onData]
    exact .of_eq rfl rfl

/-- The module that comes in is a new `RandModule`, under the name of `rand`. -/
lemma registersNothing_loadRand : RegistersNothing _ loadRand := by
  refine registersNothing_of_finalState fun s => ?_
  by_cases hmem : MemoryLeft s
  · have hload : loadRand s = .ok s.heap.length { created .randModule s with
        interp := { s.interp with loadedModules :=
          s.interp.loadedModules.insert (lit "rand") s.heap.length } } := by
      unfold loadRand
      rw [bind_of_ok (alloc_of_memoryLeft hmem .randModule)]
      rfl
    rw [finalState_of_ok hload]
    refine ⟨fun r hr => ?_, fun hs name r hr => ?_⟩
    · show (s.heap ++ [Value.randModule])[r]? = _
      rw [List.getElem?_append_left (lt_length_of_heap hr), hr]
    · by_cases hname : name = lit "rand"
      · subst hname
        dsimp only at hr
        rw [SortedMap.find?_insert_self] at hr
        cases hr
        exact ⟨rfl, heap_created .randModule s⟩
      · dsimp only at hr
        rw [SortedMap.find?_insert_of_ne _ _ _ _ hname] at hr
        exact absurd (hs name r hr).1 hname
  · have hload : loadRand s = .error (.runtimeError
        (lit "out of memory: program tries to allocate too much heap memory!"))
        { s with memory := { s.memory with requests := s.memory.requests + 1 } } := by
      unfold MemoryLeft at hmem
      simp only [loadRand, alloc, malloc, bind, EStateM.bind, hmem, if_false, Bool.false_eq_true]
    rw [finalState_of_error hload]
    exact .of_eq rfl rfl

lemma closed_registersNothing : Closed (fun _ => True) RegistersNothing where
  toSequential := registersNothing_compositional.toSequential
  throw e _ := registersNothing_compositional.throw e
  stuck := registersNothing_compositional.throw _
  malloc := registersNothing_malloc
  makeShared := registersNothing_makeShared
  load r := registersNothing_of_finalState fun s => by rw [finalState_load]; exact .refl s
  storeAt r v _ := registersNothing_storeAt r v
  writeStore _ _ := registersNothing_compositional.bind (registersNothing_storeAt _ _) fun _ =>
    fun _ => .of_eq rfl rfl
  findValue _ _ := fun _ => .of_eq rfl rfl
  setValue _ _ _ := fun _ => .of_eq rfl rfl
  hasValue _ _ := fun _ => .of_eq rfl rfl
  setGlobalTag _ _ _ := registersNothing_modifyScope _ _
  terminate _ _ := registersNothing_modifyScope _ _
  requireGlobal _ _ := registersNothing_modifyScope _ _
  isTerminated scope _ := registersNothing_of_finalState fun s => by
    rw [finalState_isTerminated]
    exact .refl s
  withFrame hf := relates_withFrame (fun id => hf id trivial) fun _ _ _ h =>
    ⟨h.rand, h.own⟩
  str r := registersNothing_of_finalState fun s => by rw [finalState_str]; exact .refl s
  getChain := fun s => .refl s
  setFunds _ _ := fun _ => .of_eq rfl rfl
  checkAddress _ := fun s => .refl s
  rand := fun _ => .of_eq rfl rfl
  printProgramOutput _ := fun _ => .of_eq rfl rfl
  charge := registersNothing_of_finalState fun s => by
    rw [finalState_charge]
    exact .of_eq rfl rfl
  readWord := registersNothing_onData _
  readString := registersNothing_onData _
  readStub _ := registersNothing_compositional.bind (registersNothing_onData _) fun _ =>
    registersNothing_compositional.bind (registersNothing_onData _) fun _ =>
    registersNothing_compositional.pure _
  peekType := registersNothing_onData _
  returnTo hf := registersNothing_compositional.bind (fun s => .refl s) fun start =>
    hf start fun _ => .of_eq rfl rfl
  streamLength := fun s => .refl s
  inGlobalScope hf := registersNothing_compositional.bind (fun s => .refl s)
    fun scope => hf scope (by simp [Touches])
  findModule _ := fun s => .refl s
  loadRand := registersNothing_loadRand
  catchStop _ hr := relates_tryNext hr fun _ _ h => h
  record _ _ _ := fun _ => .of_eq rfl rfl
  checkLimit := registersNothing_of_finalState fun s => by
    rw [finalState_checkLimit]
    split
    · exact .refl s
    · exact .of_eq rfl rfl
  runCallee _ _ _ _ _ _ hn _ :=
    -- the caller goes on with its own modules; the callee has kept the objects
    relates_runCallee (registersNothing_compositional.bind hn fun _ => registersNothing_compositional.pure _)
      (fun _ _ _ h => .of_heap rfl h.rand)
      fun a s s' hcallee => by
        have hbody := (registersNothing_compositional.bind hn fun _ =>
          registersNothing_compositional.pure _).of_ok hcallee
        exact .of_heap rfl hbody.rand

/-- A callee has loaded nothing but its own `rand` module. -/
lemma ownModules_of_inCallee {s : State} (h : InCallee s) : OwnModules s := by
  induction h with
  | start code id store s =>
    intro name r hr
    cases hr
  | run hx _ ih =>
    obtain ⟨exn, hkeeps⟩ := (hx RegistersNothing closed_registersNothing).exists_exn _
    exact hkeeps.own ih
  | push _ ih => exact ih

lemma interpreted_executeNext (n : Nat) (scope : ScopeRef) (ls : LoopState) :
    Interpreted (executeNext n scope ls) := fun _ h => h.executeNext n scope ls fun _ _ => trivial

/-! ### The statements -/

/-- An import of one module or of one member. -/
inductive ImportStatement
  | module (name : Str) (asName : Option Str)
  | member (mname name : Str) (asName : Option Str)

namespace ImportStatement

def ast : ImportStatement → Ast .stmt
  | .module name asName => .importStmt (.alias name asName)
  | .member mname name asName => .importFrom (.name mname) (.alias name asName) 0

/-- The module the statement asks for. -/
def moduleName : ImportStatement → Str
  | .module name _ => cStr name
  | .member mname _ _ => cStr mname

/-- The name the statement binds. -/
def boundName : ImportStatement → Str
  | .module name asName | .member _ name asName =>
    if cStr (asName.getD []) = [] then cStr name else cStr (asName.getD [])

end ImportStatement

/-- The state with other modules registered. -/
def withModules (modules : SortedMap Str Ref) (s : State) : State :=
  { s with interp := { s.interp with loadedModules := modules } }

/-- What becomes of a statement that binds `name`: it throws, or the variables are the old ones
with `name` bound to an object. -/
def Imports {α : Type} (x : M α) (scope : ScopeRef) (name : Str) (s : State) : Option (Option Value) → Prop
  | none => ∃ e s', x s = .error e s'
  | some v => ∃ a p s', x s = .ok a s' ∧ s'.frames = Scope.setValue s.frames scope name p ∧ content p s' = v

/-- The object at `r` is a module, and its functions are objects. -/
def Registered (s : State) (r : Ref) : Prop :=
  match s.heap[r]? with
  | some .randModule => True
  | some (.blockchainModule _ functionMap) => ∀ name f, functionMap.find? name = some f → f < s.heap.length
  | _ => False

/-- The member of the module at `r`, if it has one of this name. -/
def memberOf (s : State) (r : Ref) (name : Str) : Option (Option Value) :=
  match s.heap[r]? with
  | some .randModule => if name = lit "randint" then some (some .randint) else none
  | some (.blockchainModule _ functionMap) => (functionMap.find? name).map (s.heap[·]?)
  | _ => none

/-- The statement means the same in an interpreter with no modules and in one that has the
module at `r` registered. -/
def MeansTheSame (s : State) (r : Ref) : ImportStatement → Prop
  | .module name _ => cStr name = lit "rand" ∧ s.heap[r]? = some .randModule
  | .member mname name _ =>
    if cStr mname = lit "rand" ∧ cStr name = lit "randint" then
      memberOf s r (cStr name) = some (some .randint)
    else memberOf s r (cStr name) = none

/-- Executed in a function and at module level, where `modules` are registered, the statement
throws or binds its name to the same. -/
def SameImport (n : Nat) (scope scope' : ScopeRef) (modules : SortedMap Str Ref) (stmt : ImportStatement)
    (s : State) : Prop :=
  ∃ v, Imports (executeNext n scope .none) scope stmt.boundName s v ∧
    Imports (executeNext n scope' .none) scope' stmt.boundName (withModules modules s) v

/-! ### What is bound is unique -/

lemma setValue_injective {frames : List Frame} {scope : ScopeRef} {name : Str} {p p' : ValuePtr}
    (hlive : Live scope frames)
    (h : Scope.setValue frames scope name p = Scope.setValue frames scope name p') : p = p' := by
  induction scope with
  | nil => exact absurd rfl hlive.1
  | cons id parents ih =>
    have hparents : ∀ id' ∈ parents, id' < frames.length := fun id' hid' =>
      hlive.2 id' (List.mem_cons_of_mem _ hid')
    have hne {b : Bool} (hb : (b && !parents.isEmpty) = true) : parents ≠ [] := by
      rintro rfl
      simp at hb
    unfold Scope.setValue at h
    dsimp only at h
    split at h
    · rename_i hup
      refine ih ⟨hne (b := true) ?_, hparents⟩ h
      simp only [Bool.and_eq_true] at hup ⊢
      exact ⟨trivial, hup.1.2⟩
    · split at h
      · rename_i hup
        refine ih ⟨hne (b := true) ?_, hparents⟩ h
        simp only [Bool.and_eq_true] at hup ⊢
        exact ⟨trivial, hup.2⟩
      · have hid : id < frames.length := hlive.2 id List.mem_cons_self
        have hframe := congrArg (·[id]?) h
        rw [List.getElem?_set_self hid, List.getElem?_set_self hid, Option.some.injEq] at hframe
        have hvalues := congrArg (fun f => f.values.find? name) hframe
        rw [SortedMap.find?_insert_self, SortedMap.find?_insert_self] at hvalues
        exact Option.some.inj hvalues

lemma imports_unique {α : Type} {x : M α} {scope : ScopeRef} {name : Str} {s : State}
    {v v' : Option (Option Value)} (hlive : Live scope s.frames) (h : Imports x scope name s v) (h' : Imports x scope name s v') : v = v' := by
  cases v with
  | none =>
    obtain ⟨e, s₁, hx⟩ := h
    cases v' with
    | none => rfl
    | some v' =>
      obtain ⟨a, p, s₂, hx', -⟩ := h'
      rw [hx] at hx'
      cases hx'
  | some v =>
    obtain ⟨a, p, s₁, hx, hframes, hv⟩ := h
    cases v' with
    | none =>
      obtain ⟨e, s₂, hx'⟩ := h'
      rw [hx] at hx'
      cases hx'
    | some v' =>
      obtain ⟨a', p', s₂, hx', hframes', hv'⟩ := h'
      rw [hx] at hx'
      cases hx'
      have hp : p = p' := setValue_injective hlive (hframes.symm.trans hframes')
      rw [← hv, ← hv', hp]

/-! ### Up to the binding -/

/-- The statement has been read: the variables and the modules are still the same. -/
structure After (t t' : State) : Prop where
  frames_eq : t'.frames = t.frames
  heap_le : t.heap <+: t'.heap
  modules_eq : t'.interp.loadedModules = t.interp.loadedModules
  generous : Generous t'

namespace After

variable {t t' t'' : State}

lemma trans (h : After t t') (h' : After t' t'') : After t t'' :=
  ⟨h'.frames_eq.trans h.frames_eq, h.heap_le.trans h'.heap_le, h'.modules_eq.trans h.modules_eq, h'.generous⟩

lemma of_silent {len steps requests : Nat} (h : Silent len steps requests t t') (hmem : Generous t) :
    After t t' := by
  refine ⟨h.frames_eq, h.heap_le, by rw [h.interp_eq], fun k => ?_⟩
  rw [h.memory_eq]
  exact hmem k

lemma heap_eq (h : After t t') {r : Ref} {v : Value} (hr : t.heap[r]? = some v) : t'.heap[r]? = some v := by
  obtain ⟨new, hnew⟩ := h.heap_le
  rw [← hnew, List.getElem?_append_left (lt_length_of_heap hr), hr]

lemma ownModules (h : After t t') (ht : OwnModules t) : OwnModules t' := by
  intro name r hr
  rw [h.modules_eq] at hr
  exact ⟨(ht name r hr).1, h.heap_eq (ht name r hr).2⟩

end After

section Statements

variable {n : Nat} {scope : ScopeRef} {rest : List UInt8} {t : State}

lemma execAlias_placed {name asName : Str} (hcode : Placed (stringBytes name ++ (stringBytes asName ++ rest)) t)
    (hmem : Generous t) :
    ∃ q t', execAlias t = .ok (some q) t' ∧ t'.heap[q]? = some (.alias name asName) ∧ After t t' := by
  obtain ⟨hname, hplaced⟩ := readString_placed hcode
  obtain ⟨hasName, -⟩ := readString_placed hplaced
  have hnamed := Silent.advance (stringBytes name).length 0 t
  have hmoved := hnamed.trans (.advance (stringBytes asName).length 0 _)
  have hafter := After.of_silent (hmoved.trans (.created (.alias name asName) _)) hmem
  refine ⟨_, _, ?_, heap_created _ _, hafter⟩
  unfold execAlias
  rw [bind_of_ok hname, bind_of_ok hasName]
  exact create_of_memoryLeft ((After.of_silent hmoved hmem).generous _) _

lemma alias_run (n : Nat) (scope : ScopeRef) {name : Str} {asName : Option Str} (hcode : Placed (bytes (.alias name asName) ++ rest) t)
    (hgas : Affords 1 t) (hmem : Generous t) :
    ∃ q t', executeNext (n + 1) scope .ignoreAll t = .ok (some q, .ignoreAll) t' ∧
      t'.heap[q]? = some (.alias (cStr name) (cStr (asName.getD []))) ∧ After t t' := by
  have htype : ∀ c, NodeType.alias ≠ .unknown c := nofun
  simp only [bytes, List.append_assoc] at hcode
  have hswitch := silent_atSwitch .alias .ignoreAll scope t
  have hplaced := hswitch.placed (length_wordBytes _) hcode
  have hentered := After.of_silent hswitch hmem
  obtain ⟨q, t', hrun, hq, hafter⟩ := execAlias_placed hplaced hentered.generous
  have hread := hentered.trans hafter
  -- the cursor goes back to the alias, since the loop state is `IgnoreAll`
  refine ⟨q, finalState (moveTo t.interp.data.pos) t', ?_, hq,
    ⟨hread.frames_eq, hread.heap_le, hread.modules_eq, hread.generous⟩⟩
  rw [executeNext_placed htype (.inr rfl) hcode hgas]
  show (do let res ← keep .ignoreAll execAlias; epilogue _ res) _ = _
  unfold keep
  simp only [bind_assoc, pure_bind]
  rw [bind_of_ok hrun]
  rfl

/-- Reading `import`, whatever modules there are. -/
lemma module_run (n : Nat) (scope : ScopeRef) {name : Str} {asName : Option Str}
    (hcode : Placed (bytes (ImportStatement.module name asName).ast ++ rest) t)
    (hgas : Affords 2 t) (hmem : Generous t) :
    ∃ t', After t t' ∧ executeNext (n + 2) scope .none t = (do
      loadModule scope (cStr name) (cStr (asName.getD []))
      pure (none, LoopState.none)) t' := by
  have htype : ∀ c, NodeType.import ≠ .unknown c := nofun
  simp only [ImportStatement.ast, bytes, List.append_assoc] at hcode
  have hswitch := silent_atSwitch .import .none scope t
  have hplaced := hswitch.placed (length_wordBytes _) hcode
  have halias : Placed (bytes (.alias name asName) ++ rest) (atSwitch .import .none scope t) := by
    simpa only [bytes, List.append_assoc] using hplaced
  have hgas₁ : Affords 1 t := hgas.mono (by omega)
  have hread := After.of_silent hswitch hmem
  obtain ⟨q, t', hrun, hq, hafter⟩ := alias_run n scope halias (hswitch.affords hgas) hread.generous
  refine ⟨t', hread.trans hafter, ?_⟩
  rw [executeNext_placed htype (.inr rfl) hcode hgas₁]
  show (do let res ← keep .none (execImport (executeNext (n + 1)) scope); epilogue _ res) _ = _
  unfold keep execImport
  simp only [bind_assoc, pure_bind]
  rw [bind_of_ok hrun]
  show (do let na ← valueCast Value.alias? (some q); _) t' = _
  rw [bind_of_ok (valueCast_of_heap Value.alias? hq rfl)]
  rfl

/-- Reading `from … import`, whatever modules there are. -/
lemma member_run (n : Nat) (scope : ScopeRef) {mname name : Str} {asName : Option Str}
    (hcode : Placed (bytes (ImportStatement.member mname name asName).ast ++ rest) t)
    (hgas : Affords 2 t) (hmem : Generous t) :
    ∃ t', After t t' ∧ executeNext (n + 2) scope .none t = (do
      loadFromModule scope (cStr mname) (cStr name) (cStr (asName.getD []))
      pure (none, LoopState.none)) t' := by
  have htype : ∀ c, NodeType.importFrom ≠ .unknown c := nofun
  have hgas₁ : Affords 1 t := hgas.mono (by omega)
  simp only [ImportStatement.ast, bytes, List.append_assoc] at hcode
  have hswitch := silent_atSwitch .importFrom .none scope t
  obtain ⟨hmname, hplaced⟩ := readName_placed (hswitch.placed (length_wordBytes _) hcode)
  have hnamed := hswitch.trans (.advance (nameBytes mname).length 0 _)
  have hread := After.of_silent hnamed hmem
  have halias : Placed (bytes (.alias name asName) ++ rest)
      (advance (nameBytes mname).length 0 (atSwitch .importFrom .none scope t)) := by
    simpa only [bytes, List.append_assoc] using hplaced
  obtain ⟨q, t', hrun, hq, hafter⟩ := alias_run n scope halias (hnamed.affords hgas) hread.generous
  refine ⟨t', hread.trans hafter, ?_⟩
  rw [executeNext_placed htype (.inr rfl) hcode hgas₁]
  show (do let res ← keep .none (execImportFrom (executeNext (n + 1)) scope); epilogue _ res) _ = _
  unfold keep execImportFrom
  simp only [bind_assoc, pure_bind]
  rw [bind_of_ok hmname, bind_of_ok hrun]
  dsimp only [assertGeneric]
  rw [pure_bind, bind_of_ok (load_of_heap hq)]
  dsimp only
  simp only [bind_assoc]
  rw [bind_of_ok (valueCast_of_heap Value.alias? hq rfl)]
  rfl

end Statements

/-! ### The modules of the two interpreters -/

section Modules

variable {t t' : State} {r : Ref}

lemma getModule_registered {name : Str} (h : t.interp.loadedModules.find? name = some r) :
    getModule name t = .ok r t := by
  have hfind : findModule name t = .ok (some r) t := by rw [findModule, h]
  unfold getModule
  rw [bind_of_ok hfind]
  rfl

/-- A callee finds the `rand` module. -/
lemma getModule_rand (ht : OwnModules t) (hmem : Generous t) : ∃ r t', getModule (lit "rand") t = .ok r t' ∧
    t'.heap[r]? = some .randModule ∧ t'.frames = t.frames ∧ Generous t' := by
  cases hfind : t.interp.loadedModules.find? (lit "rand") with
  | some r => exact ⟨r, t, getModule_registered hfind, (ht _ r hfind).2, rfl, hmem⟩
  | none =>
    have hnone : findModule (lit "rand") t = .ok none t := by rw [findModule, hfind]
    obtain ⟨r, t₁, halloc, hp⟩ := bind_eq_ok.mp (create_of_memoryLeft (hmem t.memory.requests) .randModule)
    cases hp
    refine ⟨_, finalState (addModule (lit "rand") t.heap.length) (created .randModule t), ?_,
      heap_created .randModule t, rfl, hmem⟩
    unfold getModule
    rw [bind_of_ok hnone]
    dsimp only
    rw [if_pos rfl, bind_of_ok halloc]
    rfl

/-- A callee finds no other module. -/
lemma getModule_unknown {name : Str} (ht : OwnModules t) (hname : name ≠ lit "rand") :
    ∃ e, getModule name t = .error e t := by
  have hnone : findModule name t = .ok none t := by
    unfold findModule
    cases hfind : t.interp.loadedModules.find? name with
    | none => rfl
    | some r => exact absurd (ht name r hfind).1 hname
  refine ⟨.runtimeError (lit "Unknown module: " ++ name), ?_⟩
  unfold getModule
  rw [bind_of_ok hnone]
  dsimp only
  rw [if_neg hname]
  rfl

lemma Registered.heap_lt (h : Registered t r) : r < t.heap.length := by
  unfold Registered at h
  cases hr : t.heap[r]? with
  | none => simp [hr] at h
  | some v => exact lt_length_of_heap hr

/-- Later the module is still there. -/
lemma Registered.later (h : Registered t r) (hafter : After t t') :
    Registered t' r ∧ memberOf t' r = memberOf t r ∧ t'.heap[r]? = t.heap[r]? := by
  obtain ⟨v, hv⟩ : ∃ v, t.heap[r]? = some v := ⟨_, List.getElem?_eq_getElem h.heap_lt⟩
  have hv' := hafter.heap_eq hv
  have hle : t.heap.length ≤ t'.heap.length := hafter.heap_le.length_le
  unfold Registered memberOf at *
  rw [hv] at h ⊢
  rw [hv']
  cases v with
  | randModule => exact ⟨trivial, rfl, rfl⟩
  | blockchainModule prng functionMap =>
    refine ⟨fun name f hf => lt_of_lt_of_le (h name f hf) hle, ?_, rfl⟩
    funext name
    cases hfind : functionMap.find? name with
    | none => simp only [hfind, Option.map_none]
    | some f =>
      obtain ⟨new, hnew⟩ := hafter.heap_le
      simp only [hfind, Option.map_some, ← hnew, List.getElem?_append_left (h name f hfind)]
  | _ => exact absurd h id

/-- `get_member` of a module. -/
lemma getMember_run (hr : Registered t r) (hmem : Generous t) (name : Str) :
    match memberOf t r name with
    | none => ∃ e, getMember r name t = .error e t
    | some v => ∃ p t', getMember r name t = .ok p t' ∧ content p t' = v ∧ t'.frames = t.frames := by
  unfold Registered at hr
  cases hv : t.heap[r]? with
  | none => simp [hv] at hr
  | some v =>
    rw [hv] at hr
    unfold memberOf getMember
    rw [hv]
    cases v with
    | randModule =>
      simp only [bind_of_ok (load_of_heap hv)]
      by_cases hname : name = lit "randint"
      · simp only [hname, if_true]
        exact ⟨_, _, create_of_memoryLeft (hmem _) .randint, heap_created .randint t, rfl⟩
      · simp only [hname, if_false]
        exact ⟨_, rfl⟩
    | blockchainModule prng functionMap =>
      simp only [bind_of_ok (load_of_heap hv)]
      cases hfind : functionMap.find? name with
      | none => exact ⟨_, rfl⟩
      | some f => exact ⟨_, _, rfl, rfl, rfl⟩
    | _ => exact absurd hr id

end Modules

/-! ### The law -/

/-- What the statement binds in an interpreter without modules. -/
def boundInCallee : ImportStatement → Option (Option Value)
  | .module name _ => if cStr name = lit "rand" then some (some .randModule) else none
  | .member mname name _ =>
    if cStr mname = lit "rand" ∧ cStr name = lit "randint" then some (some .randint) else none

/-- What the statement binds where the module at `r` is registered. -/
def boundFrom (s : State) (r : Ref) : ImportStatement → Option (Option Value)
  | .module _ _ => some s.heap[r]?
  | .member _ name _ => memberOf s r (cStr name)

lemma meansTheSame_iff (s : State) (r : Ref) (stmt : ImportStatement) :
    MeansTheSame s r stmt ↔ boundInCallee stmt = boundFrom s r stmt := by
  cases stmt with
  | module name asName =>
    dsimp only [MeansTheSame, boundInCallee, boundFrom]
    by_cases hname : cStr name = lit "rand"
    · simp only [hname, true_and, if_true, Option.some.injEq, eq_comm]
    · simp [hname]
  | member mname name asName =>
    dsimp only [MeansTheSame, boundInCallee, boundFrom]
    split <;> exact eq_comm

section Law

variable {n : Nat} {scope : ScopeRef} {rest : List UInt8} {s : State} {stmt : ImportStatement}

lemma imports_of_setValue {α : Type} {x : M α} {name : Str} {p : ValuePtr} {a : α} {t : State} {v : Option Value}
    (hrun : x s = (do setValue scope name p; pure a) t) (hframes : t.frames = s.frames)
    (hv : content p t = v) : Imports x scope name s (some v) :=
  ⟨a, p, finalState (setValue scope name p) t, hrun, by rw [← hframes]; rfl, hv⟩

/-- In an interpreter that has loaded nothing but its own `rand` module. -/
lemma imports_callee (n : Nat) (scope : ScopeRef) (hown : OwnModules s) (hmem : Generous s) (hgas : Affords 2 s)
    (hcode : Placed (bytes stmt.ast ++ rest) s) :
    Imports (executeNext (n + 2) scope .none) scope stmt.boundName s (boundInCallee stmt) := by
  cases stmt with
  | module name asName =>
    obtain ⟨t, hafter, hrun⟩ := module_run n scope hcode hgas hmem
    unfold loadModule at hrun
    rw [bind_assoc] at hrun
    dsimp only [boundInCallee]
    by_cases hname : cStr name = lit "rand"
    · rw [if_pos hname]
      rw [hname] at hrun
      obtain ⟨r, t', hget, hr, hframes, -⟩ := getModule_rand (hafter.ownModules hown) hafter.generous
      rw [bind_of_ok hget] at hrun
      have hbound : (ImportStatement.module name asName).boundName =
          if cStr (asName.getD []) = [] then lit "rand" else cStr (asName.getD []) := by
        rw [← hname]
        rfl
      rw [← hbound] at hrun
      exact imports_of_setValue hrun (hframes.trans hafter.frames_eq) hr
    · rw [if_neg hname]
      obtain ⟨e, hget⟩ := getModule_unknown (hafter.ownModules hown) hname
      exact ⟨e, t, hrun.trans (bind_of_error hget)⟩
  | member mname name asName =>
    obtain ⟨t, hafter, hrun⟩ := member_run n scope hcode hgas hmem
    unfold loadFromModule at hrun
    rw [bind_assoc] at hrun
    dsimp only [boundInCallee]
    by_cases hmname : cStr mname = lit "rand"
    · rw [hmname] at hrun
      obtain ⟨r, t', hget, hr, hframes, hmem'⟩ := getModule_rand (hafter.ownModules hown) hafter.generous
      have hregistered : Registered t' r := by
        unfold Registered
        rw [hr]
        trivial
      have hmember := getMember_run hregistered hmem' (cStr name)
      have hmemberOf : memberOf t' r (cStr name) =
          if cStr name = lit "randint" then some (some .randint) else none := by
        unfold memberOf
        rw [hr]
      rw [hmemberOf] at hmember
      rw [bind_of_ok hget, bind_assoc] at hrun
      by_cases hname : cStr name = lit "randint"
      · rw [if_pos hname] at hmember
        rw [if_pos ⟨hmname, hname⟩]
        obtain ⟨p, t'', hgot, hp, hframes'⟩ := hmember
        rw [bind_of_ok hgot] at hrun
        exact imports_of_setValue hrun (hframes'.trans (hframes.trans hafter.frames_eq)) hp
      · rw [if_neg hname] at hmember
        rw [if_neg fun h => hname h.2]
        obtain ⟨e, hgot⟩ := hmember
        exact ⟨e, t', hrun.trans (bind_of_error hgot)⟩
    · rw [if_neg fun h => hmname h.1]
      obtain ⟨e, hget⟩ := getModule_unknown (hafter.ownModules hown) hmname
      exact ⟨e, t, hrun.trans (bind_of_error hget)⟩

/-- In an interpreter that has the module registered. -/
lemma imports_registered (n : Nat) (scope : ScopeRef) {r : Ref} (hmodule : s.interp.loadedModules.find? stmt.moduleName = some r)
    (hr : Registered s r) (hmem : Generous s) (hgas : Affords 2 s) (hcode : Placed (bytes stmt.ast ++ rest) s) :
    Imports (executeNext (n + 2) scope .none) scope stmt.boundName s (boundFrom s r stmt) := by
  cases stmt with
  | module name asName =>
    obtain ⟨t, hafter, hrun⟩ := module_run n scope hcode hgas hmem
    have hget : getModule (cStr name) t = .ok r t :=
      getModule_registered (by rw [hafter.modules_eq]; exact hmodule)
    unfold loadModule at hrun
    rw [bind_assoc, bind_of_ok hget] at hrun
    exact imports_of_setValue hrun hafter.frames_eq (hr.later hafter).2.2
  | member mname name asName =>
    obtain ⟨t, hafter, hrun⟩ := member_run n scope hcode hgas hmem
    have hget : getModule (cStr mname) t = .ok r t :=
      getModule_registered (by rw [hafter.modules_eq]; exact hmodule)
    obtain ⟨hlater, hmembers, -⟩ := hr.later hafter
    have hmember := getMember_run hlater hafter.generous (cStr name)
    rw [hmembers] at hmember
    unfold loadFromModule at hrun
    rw [bind_assoc, bind_of_ok hget, bind_assoc] at hrun
    dsimp only [boundFrom]
    cases hof : memberOf s r (cStr name) with
    | none =>
      rw [hof] at hmember
      obtain ⟨e, hgot⟩ := hmember
      exact ⟨e, t, hrun.trans (bind_of_error hgot)⟩
    | some v =>
      rw [hof] at hmember
      obtain ⟨p, t', hgot, hp, hframes⟩ := hmember
      rw [bind_of_ok hgot] at hrun
      exact imports_of_setValue hrun (hframes.trans hafter.frames_eq) hp

end Law

/-- An import in a function means what it means at module level for the `rand` module and its one
member, and for names a module does not have; every other module is unknown there. -/
theorem import_alike_iff {n : Nat} {scope scope' : ScopeRef} {modules : SortedMap Str Ref}
    {stmt : ImportStatement} {r : Ref} {rest : List UInt8} {s : State} (hs : InCallee s) (hmem : Generous s)
    (hgas : Affords 2 s) (hcode : Placed (bytes stmt.ast ++ rest) s) (hscope : Live scope s.frames)
    (hscope' : Live scope' s.frames) (hmodule : modules.find? stmt.moduleName = some r)
    (hr : Registered s r) : SameImport (n + 2) scope scope' modules stmt s ↔ MeansTheSame s r stmt := by
  have hcallee : Imports (executeNext (n + 2) scope .none) scope stmt.boundName s (boundInCallee stmt) :=
    imports_callee n scope (ownModules_of_inCallee hs) hmem hgas hcode
  have hlevel : Imports (executeNext (n + 2) scope' .none) scope' stmt.boundName (withModules modules s)
      (boundFrom s r stmt) :=
    imports_registered n scope' (s := withModules modules s) hmodule hr hmem hgas
      ⟨hcode.good, hcode.here, hcode.inside, hcode.small⟩
  have hscope'' : Live scope' (withModules modules s).frames := hscope'
  rw [meansTheSame_iff]
  constructor
  · rintro ⟨v, hv, hv'⟩
    exact (imports_unique hscope hcallee hv).trans (imports_unique hscope'' hlevel hv').symm
  · intro heq
    exact ⟨boundInCallee stmt, hcallee, heq ▸ hlevel⟩

/-- A function about to execute the statement; `module` is an object of its caller. -/
def importing (stmt : ImportStatement) (module : Value) : State :=
  calleeState (freshInterp (bytes stmt.ast) 0 0)
    { startState [] 0 with heap := [.persistableDictionary .empty, module] }

lemma placed_importing (stmt : ImportStatement) (module : Value) (h : (bytes stmt.ast).length < 2 ^ 32) :
    Placed (bytes stmt.ast ++ []) (importing stmt module) := by
  obtain ⟨hgood, hhere, hinside, hsmall⟩ := placed_startState (bytes stmt.ast) 0 h
  rw [List.append_nil]
  exact ⟨hgood, hhere, hinside, hsmall⟩

/-- `import rand` means the same in a function. -/
theorem import_alike_rand : SameImport 2 [0] [0] (SortedMap.empty.insert (lit "rand") 1)
    (.module (lit "rand") none) (importing (.module (lit "rand") none) .randModule) := by
  have hlive : Live [0] (importing (.module (lit "rand") none) .randModule).frames := ⟨nofun, by decide⟩
  have hcode := placed_importing (.module (lit "rand") none) .randModule (by decide)
  have hmodule : ((SortedMap.empty : SortedMap Str Ref).insert (lit "rand") 1).find?
      (ImportStatement.module (lit "rand") none).moduleName = some 1 := by decide
  exact (import_alike_iff (.start _ _ _ _) (fun _ => rfl) (.inl rfl) hcode hlive hlive hmodule trivial).mpr
    ⟨by decide, rfl⟩

/-- `import blockchain` throws in a function. -/
theorem import_alike_blockchain_false : ¬SameImport 2 [0] [0] (SortedMap.empty.insert (lit "blockchain") 1)
    (.module (lit "blockchain") none)
    (importing (.module (lit "blockchain") none) (.blockchainModule Prng.init .empty)) := by
  have hlive : Live [0] (importing (.module (lit "blockchain") none)
    (.blockchainModule Prng.init .empty)).frames := ⟨nofun, by decide⟩
  have hcode := placed_importing (.module (lit "blockchain") none) (.blockchainModule Prng.init .empty) (by decide)
  have hcallee := imports_callee 0 [0] (ownModules_of_inCallee (.start _ _ _ _))
    (fun _ => rfl) (.inl rfl) hcode
  have hmodule : ((SortedMap.empty : SortedMap Str Ref).insert (lit "blockchain") 1).find?
      (ImportStatement.module (lit "blockchain") none).moduleName = some 1 := by decide
  have hlevel := imports_registered 0 [0] (s := withModules
    (SortedMap.empty.insert (lit "blockchain") 1) (importing (.module (lit "blockchain") none)
    (.blockchainModule Prng.init .empty))) hmodule (r := 1) nofun (fun _ => rfl) (.inl rfl)
    ⟨hcode.good, hcode.here, hcode.inside, hcode.small⟩
  rintro ⟨v, hv, hv'⟩
  have hlive' : Live [0] (withModules (SortedMap.empty.insert (lit "blockchain") 1)
    (importing (.module (lit "blockchain") none) (.blockchainModule Prng.init .empty))).frames := hlive
  have hsame := (imports_unique hlive hcallee hv).trans (imports_unique hlive' hlevel hv').symm
  cases hsame

end ContractPython.Proofs
