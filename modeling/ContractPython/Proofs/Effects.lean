import ContractPython.Proofs.Closure
import ContractPython.Proofs.Steps

/-!
# Effects of a failed transaction

The persistent storage changes only when a store write is logged, and the funds change only
when a movement is logged. Nothing undoes a change: a transaction that fails keeps what it
wrote, so only failing runs without such events leave the storage and the funds as they were.
-/

namespace ContractPython.Proofs

open Program M

/-- How storage objects and funds change between two states. -/
structure Effects (s s' : State) : Prop where
  store_eq : s'.interp.store = s.interp.store
  events_le : ∀ e, s.log.count e ≤ s'.log.count e
  storage : s'.log.count .storeWritten = s.log.count .storeWritten →
    ∀ (r : Ref) (st : Store), s.heap[r]? = some (Value.persistableDictionary st) →
      s'.heap[r]? = some (Value.persistableDictionary st)
  funds : s'.log.count .fundsMoved = s.log.count .fundsMoved → s'.chain = s.chain

namespace Effects

lemma refl (s : State) : Effects s s :=
  ⟨rfl, fun _ => le_refl _, fun _ _ _ h => h, fun _ => rfl⟩

lemma trans {s₁ s₂ s₃ : State} (h : Effects s₁ s₂) (h' : Effects s₂ s₃) : Effects s₁ s₃ where
  store_eq := h'.store_eq.trans h.store_eq
  events_le e := (h.events_le e).trans (h'.events_le e)
  storage hc r st hr := by
    have h₁ := h.events_le .storeWritten
    have h₂ := h'.events_le .storeWritten
    exact h'.storage (by omega) r st (h.storage (by omega) r st hr)
  funds hc := by
    have h₁ := h.events_le .fundsMoved
    have h₂ := h'.events_le .fundsMoved
    exact (h'.funds (by omega)).trans (h.funds (by omega))

/-- A step that leaves the heap, the funds and the log alone. -/
lemma of_eq {s s' : State} (hstore : s'.interp.store = s.interp.store) (hlog : s'.log = s.log)
    (hheap : s'.heap = s.heap) (hchain : s'.chain = s.chain) : Effects s s' :=
  ⟨hstore, fun _ => by rw [hlog], fun _ _ _ h => by rwa [hheap], fun _ => hchain⟩

/-- A step that adds to the log, but no effects. -/
lemma of_logged {s s' : State} (es : List Event) (hstore : s'.interp.store = s.interp.store)
    (hlog : s'.log = es ++ s.log) (hheap : s'.heap = s.heap) (hchain : s'.chain = s.chain) :
    Effects s s' := by
  refine ⟨hstore, fun e => ?_, fun _ _ _ h => by rwa [hheap], fun _ => hchain⟩
  rw [hlog, List.count_append]
  omega

/-- Events only come in. -/
lemma countP_le {s s' : State} (h : Effects s s') (p : Event → Bool) :
    s.log.countP p ≤ s'.log.countP p :=
  (List.subperm_ext_iff.mpr fun e _ => h.events_le e).countP_le p

end Effects

/-- `x` has no effects but the logged ones. -/
abbrev HasEffects (α : Type) (x : M α) : Prop := Relates (fun _ s s' => Effects s s') α x

lemma hasEffects_of_finalState {α : Type} {x : M α} (hx : ∀ s, Effects s (finalState x s)) :
    HasEffects α x := by
  intro s
  have hs := hx s
  unfold finalState resultState at hs
  cases hxs : x s <;> simpa only [hxs] using hs

lemma hasEffects_compositional : Compositional HasEffects :=
  Relates.compositional (fun _ s => Effects.refl s) Effects.trans

lemma hasEffects_storeAt (r : Ref) (v : Value) (hv : v.store? = none) : HasEffects _ (storeAt r v) :=
  hasEffects_of_finalState fun s => by
    rw [finalState_storeAt]
    split
    · rename_i hclass
      refine ⟨rfl, fun _ => le_refl _, fun _ r' st hr' => ?_, fun _ => rfl⟩
      -- the object at `r` is not a storage, because objects keep their class
      have hne : r ≠ r' := by
        rintro rfl
        rw [hr'] at hclass
        cases v <;> simp_all [Value.ctorIdx, Value.store?]
      simpa [List.getElem?_set_ne hne] using hr'
    · exact Effects.refl s

lemma hasEffects_makeShared (v : Value) : HasEffects _ (makeShared v) := by
  intro s
  refine ⟨rfl, fun _ => le_refl _, fun _ r st hr => ?_, fun _ => rfl⟩
  have hlt := (List.getElem?_eq_some_iff.mp hr).1
  simpa [List.getElem?_append_left hlt] using hr

/-- A logged store write may change any storage. -/
lemma hasEffects_writeStore (r : Ref) (st : Store) : HasEffects _ (writeStore r st) :=
  hasEffects_of_finalState fun s => by
    rw [finalState_writeStore]
    split
    · exact ⟨rfl, fun _ => List.count_le_count_cons, fun hc => by simp at hc, fun _ => rfl⟩
    · exact Effects.refl s

lemma hasEffects_malloc : HasEffects _ malloc :=
  hasEffects_of_finalState fun s => by rw [finalState_malloc]; exact .of_eq rfl rfl rfl rfl

lemma hasEffects_addModule (name : Str) (module : Ref) : HasEffects _ (addModule name module) :=
  fun _ => .of_eq rfl rfl rfl rfl

lemma hasEffects_modifyScope (scope : ScopeRef) (f : Frame → Frame) :
    HasEffects _ (modifyScope scope f) :=
  hasEffects_of_finalState fun s => by
    rw [finalState_modifyScope]
    cases scope <;> exact .of_eq rfl rfl rfl rfl

lemma hasEffects_onData {α : Type} (f : Bitstream → Option α × Bitstream) :
    HasEffects _ (onData f) :=
  hasEffects_of_finalState fun s => by rw [finalState_onData]; exact .of_eq rfl rfl rfl rfl

/-- Storage and funds change only where the log says so, whatever the program does. -/
lemma closed_hasEffects : Closed (fun _ => True) HasEffects where
  toSequential := hasEffects_compositional.toSequential
  throw e _ := hasEffects_compositional.throw e
  stuck := hasEffects_compositional.throw _
  malloc := hasEffects_malloc
  makeShared v := hasEffects_makeShared v
  load r := hasEffects_of_finalState fun s => by rw [finalState_load]; exact .refl s
  storeAt r v hv := hasEffects_storeAt r v hv
  writeStore r st := hasEffects_writeStore r st
  findValue _ _ _ := .of_logged [_] rfl rfl rfl rfl
  setValue _ _ _ _ := .of_logged _ rfl rfl rfl rfl
  hasValue _ _ _ := .of_logged [_] rfl rfl rfl rfl
  setGlobalTag _ _ _ := hasEffects_modifyScope _ _
  terminate _ _ := hasEffects_modifyScope _ _
  requireGlobal _ _ := hasEffects_modifyScope _ _
  isTerminated scope _ := hasEffects_of_finalState fun s => by
    rw [finalState_isTerminated]
    exact .refl s
  withFrame hf := relates_withFrame (fun id => hf id trivial) fun _ _ _ h =>
    ⟨h.store_eq, h.events_le, h.storage, h.funds⟩
  str r := hasEffects_of_finalState fun s => by rw [finalState_str]; exact .refl s
  getChain s := .refl s
  setFunds _ _ _ := ⟨rfl, fun _ => List.count_le_count_cons, fun _ _ _ h => h, fun hc => by simp at hc⟩
  checkAddress _ s := .refl s
  rand _ := ⟨rfl, fun _ => List.count_le_count_cons, fun _ _ _ h => h, fun _ => rfl⟩
  printProgramOutput _ _ := .of_eq rfl rfl rfl rfl
  charge := hasEffects_of_finalState fun s => by
    rw [finalState_charge]
    exact ⟨rfl, fun _ => List.count_le_count_cons, fun _ _ _ h => h, fun _ => rfl⟩
  readWord := hasEffects_onData _
  readString := hasEffects_onData _
  readStub _ := hasEffects_compositional.bind (hasEffects_onData _) fun _ =>
    hasEffects_compositional.bind (hasEffects_onData _) fun _ => hasEffects_compositional.pure _
  peekType := hasEffects_onData _
  returnTo hf := hasEffects_compositional.bind (fun s => .refl s) fun start => hf start fun _ => .of_eq rfl rfl rfl rfl
  streamLength s := .refl s
  inGlobalScope hf := hasEffects_compositional.bind (fun s => .refl s) fun scope =>
    hf scope (by simp [Touches])
  findModule _ s := .refl s
  loadRand := loadRand_of_steps hasEffects_compositional.toSequential hasEffects_malloc
    (hasEffects_makeShared _) fun _ => hasEffects_addModule _ _
  catchStop _ hr := relates_tryNext hr fun _ _ h => h
  record _ _ _ _ := .of_logged [_] rfl rfl rfl rfl
  checkLimit := hasEffects_of_finalState fun s => by
    rw [finalState_checkLimit]
    split
    · exact .refl s
    · exact .of_logged [_] rfl rfl rfl rfl
  runCallee n _ pyint scope _ _ hn _ := by
    have heval : HasEffects _ (evaluate (executeNext n) scope) :=
      hasEffects_compositional.bind hn fun _ => hasEffects_compositional.pure _
    refine relates_runCallee heval (fun _ s s' h => ⟨rfl, h.events_le, h.storage, h.funds⟩) ?_
    intro a s s' hs
    have h : Effects (calleeState pyint s) s' := heval.of_ok hs
    refine ⟨rfl, fun e => (h.events_le e).trans List.count_le_count_cons, fun hc => ?_, fun hc => ?_⟩
    · exact h.storage (by simpa [stepsDropped, calleeState] using hc)
    · exact h.funds (by simpa [stepsDropped, calleeState] using hc)

/-! ### Setting up a run -/

/-- `x` logs nothing. -/
abbrev Quiet (α : Type) (x : M α) : Prop := Relates (fun _ s s' => s'.log = s.log) α x

lemma quiet_compositional : Compositional Quiet :=
  Relates.compositional (fun _ _ => rfl) fun h h' => h'.trans h

lemma quiet_of_finalState {α : Type} {x : M α} (hx : ∀ s, (finalState x s).log = s.log) :
    Quiet α x := by
  intro s
  have hs := hx s
  unfold finalState resultState at hs
  cases hxs : x s <;> simpa only [hxs] using hs

lemma quiet_registerBlockchainModule : Quiet _ registerBlockchainModule := by
  have h := quiet_compositional
  have halloc : ∀ v, Quiet _ (alloc v) := fun v =>
    h.bind (quiet_of_finalState fun s => by rw [finalState_malloc]) fun _ => fun _ => rfl
  have hstore : ∀ r v, Quiet _ (storeAt r v) := fun r v =>
    quiet_of_finalState fun s => by
      rw [finalState_storeAt]
      split <;> rfl
  exact h.bind (h.bind (halloc _) fun module =>
    h.bind (h.foldlM (fun _ _ => h.bind (halloc _) fun _ => h.pure _) _ _) fun _ =>
      h.bind (hstore _ _) fun _ => h.pure module) fun _ => fun _ => rfl

/-- The storage a run starts with. -/
def loadedStorage (archive : Archive) (args : Arguments) : Store :=
  if args.oldStorage.length > 0 then
    match archive.load args.oldStorage with
    | .ok st => st
    | .error _ => .empty
  else .empty

lemma newInterpreter_ok {code : Str} {s s' : State} (hheap : s.heap = [])
    (h : newInterpreter code s = .ok () s') :
    s'.heap = [.persistableDictionary .empty] ∧ s'.interp.store = 0 ∧
      s'.log = .nameBound 0 :: s.log ∧ s'.chain = s.chain := by
  obtain ⟨_, s₁, hmalloc, h⟩ := bind_eq_ok.mp h
  have hs₁ := finalState_of_ok hmalloc
  rw [finalState_malloc] at hs₁
  subst hs₁
  cases h
  exact ⟨by simp [hheap], by simp [hheap], rfl, rfl⟩

/-- What holds when `setup` has succeeded: the storage is the loaded one, the funds are those
of the arguments, and the name of the storage is bound. -/
lemma setup_ok {archive : Archive} {args : Arguments} {codec : AddressCodec}
    {memory : MemoryManager} {process : Process} {s : State}
    (h : setup archive args (Library.initialState codec memory process args) = .ok () s) :
    s.heap[s.interp.store]? = some (.persistableDictionary (loadedStorage archive args)) ∧
      s.chain = Blockchain.ofArguments args.blkchn args.network ∧ s.log = [.nameBound 0] := by
  obtain ⟨_, s₁, hnew, h⟩ := bind_eq_ok.mp h
  obtain ⟨hheap₁, hstore₁, hlog₁, hchain₁⟩ := newInterpreter_ok rfl hnew
  obtain ⟨_, s₂, hload, h⟩ := bind_eq_ok.mp h
  have h₂ : s₂.heap = [.persistableDictionary (loadedStorage archive args)] ∧
      s₂.interp.store = 0 ∧ s₂.log = s₁.log ∧ s₂.chain = s₁.chain := by
    unfold loadedStorage
    unfold loadOldStorage at hload
    split at hload
    · rename_i hpos
      rw [if_pos hpos]
      cases harchive : archive.load args.oldStorage with
      | error e => simp [harchive, M.liftExcept, bind, EStateM.bind] at hload
      | ok st =>
        rw [harchive] at hload
        cases hload
        simp [hheap₁, hstore₁]
    · rename_i hpos
      rw [if_neg hpos]
      cases hload
      exact ⟨hheap₁, hstore₁, rfl, rfl⟩
  obtain ⟨_, s₃, hlimit, h⟩ := bind_eq_ok.mp h
  have h₃ : s₃.heap = s₂.heap ∧ s₃.interp.store = s₂.interp.store ∧ s₃.log = s₂.log ∧
      s₃.chain = s₂.chain := by
    unfold limitFromGas at hlimit
    split at hlimit
    · simp at hlimit
    · unfold setExecutionStepLimit at hlimit
      split at hlimit <;> cases hlimit
      exact ⟨rfl, rfl, rfl, rfl⟩
  have hquiet : s.log = s₃.log := quiet_registerBlockchainModule.of_ok h
  have heffects : Effects s₃ s :=
    (closed_hasEffects.bind closed_hasEffects.newBlockchainModule fun _ =>
      hasEffects_addModule _ _).of_ok h
  refine ⟨?_, ?_, ?_⟩
  · refine heffects.storage (by rw [hquiet]) _ _ ?_
    rw [heffects.store_eq, h₃.1, h₃.2.1, h₂.1, h₂.2.1]
    rfl
  · rw [heffects.funds (by rw [hquiet]), h₃.2.2.2, h₂.2.2.2, hchain₁]
    rfl
  · rw [hquiet, h₃.2.2.1, h₂.2.2.1, hlog₁]
    rfl

/-! ### Failed transactions -/

/-- The storage and the funds are those the transaction started with. -/
def NoEffect (archive : Archive) (args : Arguments) (out : Outcome) : Prop :=
  out.storage = archive.save (loadedStorage archive args) ∧
    out.process.chain.sendMap = .empty ∧
    out.process.chain.contractBalance = args.blkchn.contractBalance

/-- A return code other than success and suicide leaves no effect. -/
def FailureHasNoEffect (archive : Archive) (args : Arguments) (out : Outcome) : Prop :=
  out.code = 0x71 ∨ out.code = 0x70 ∨ out.code = 0x80 → NoEffect archive args out

/-- No store write and no movement of funds happened. -/
def NoEffectLogged (out : Outcome) : Prop :=
  .storeWritten ∉ out.log ∧ .fundsMoved ∉ out.log

/-- A run from the state `setup` leaves that logs neither keeps the storage and the funds. -/
lemma noEffect_of_finish {archive : Archive} {args : Arguments} {s s' : State} {errorBuffer : Str}
    {code : Nat} (heffects : Effects s s')
    (hstore : s.heap[s.interp.store]? = some (.persistableDictionary (loadedStorage archive args)))
    (hchain : s.chain = Blockchain.ofArguments args.blkchn args.network)
    (hlog : s.log = [.nameBound 0])
    (hno : NoEffectLogged (Library.finish archive args.gasprice errorBuffer code s')) :
    NoEffect archive args (Library.finish archive args.gasprice errorBuffer code s') := by
  have hwritten : s'.log.count .storeWritten = s.log.count .storeWritten := by
    rw [hlog]
    exact List.count_eq_zero_of_not_mem hno.1
  have hmoved : s'.log.count .fundsMoved = s.log.count .fundsMoved := by
    rw [hlog]
    exact List.count_eq_zero_of_not_mem hno.2
  have hstored := heffects.storage hwritten _ _ hstore
  rw [← heffects.store_eq] at hstored
  have hfunds := (heffects.funds hmoved).trans hchain
  refine ⟨?_, ?_, ?_⟩
  · simp only [Library.finish, storage, hstored]
  · simp only [Library.finish, hfunds, Blockchain.ofArguments]
  · simp only [Library.finish, hfunds, Blockchain.ofArguments]

/-- A transaction that fails before any store write or movement of funds has no effect. -/
theorem failureHasNoEffect_of_noEffectLogged (archive : Archive) (codec : AddressCodec)
    (memory : MemoryManager) (fuel : Nat) (args : Arguments) (process : Process) (out : Outcome)
    (hout : Library.executeProgram archive codec memory fuel args process = .ok out)
    (hno : NoEffectLogged out) : FailureHasNoEffect archive args out := by
  intro _
  unfold Library.executeProgram at hout
  cases hsetup : setup archive args (Library.initialState codec memory process args) with
  | error e s => simp [hsetup] at hout
  | ok u s =>
    obtain ⟨hstore, hchain, hlog⟩ := setup_ok hsetup
    have heffects := closed_hasEffects.runProgram fuel args.data s
    simp only [hsetup] at hout
    cases hrun : runProgram fuel args.data s with
    | ok u' s' =>
      rw [hrun] at heffects
      simp only [hrun] at hout
      cases hout
      exact noEffect_of_finish heffects hstore hchain hlog hno
    | error e s' =>
      rw [hrun] at heffects
      simp only [hrun] at hout
      cases hcode : e.returnCode with
      | none => simp [hcode] at hout
      | some code =>
        simp only [hcode] at hout
        cases hout
        exact noEffect_of_finish heffects hstore hchain hlog hno

instance (archive : Archive) (args : Arguments) (out : Outcome) :
    Decidable (FailureHasNoEffect archive args out) :=
  inferInstanceAs (Decidable ((_ ∨ _ ∨ _) → (_ ∧ _ ∧ _)))

instance (out : Outcome) : Decidable (NoEffectLogged out) :=
  inferInstanceAs (Decidable (_ ∧ _))

/-- A default function that fails at once. -/
def unknownName : List UInt8 :=
  moduleCode [defStmt "default" [.expressionStatement (.name (lit "missing"))]]

theorem failureHasNoEffect_unknownName :
    ∃ out, runDefault unknownName = .ok out ∧ out.code = 0x80 ∧
      FailureHasNoEffect textArchive (callDefault unknownName) out := by
  obtain ⟨out, hout, hcheck⟩ := exists_outcome
    (p := fun out => out.code = 0x80 ∧ NoEffectLogged out) (x := runDefault unknownName)
    (by decide +kernel)
  have ⟨hcode, hno⟩ := of_decide_eq_true hcheck
  exact ⟨out, hout, hcode, failureHasNoEffect_of_noEffectLogged _ _ _ _ _ _ out hout hno⟩

/-- A default function that writes to the storage and then reverts. The statement after
an import is lost, so that the module ends with a `pass` too many. -/
def writeAndRevert : List UInt8 :=
  moduleCode [importFromStmt "blockchain" "revert",
    defStmt "default" [assignItem "store" "a" 7, .expressionStatement (callExpr "revert" [])], .pass]

/-- The reverted transaction serializes its write. -/
theorem failureHasNoEffect_writeAndRevert_false :
    ∃ out, runDefault writeAndRevert = .ok out ∧ out.code = 0x71 ∧
      ¬FailureHasNoEffect textArchive (callDefault writeAndRevert) out := by
  obtain ⟨out, hout, hcheck⟩ := exists_outcome
    (p := fun out => out.code = 0x71 ∧
      ¬FailureHasNoEffect textArchive (callDefault writeAndRevert) out)
    (x := runDefault writeAndRevert) (by decide +kernel)
  exact ⟨out, hout, of_decide_eq_true hcheck⟩

end ContractPython.Proofs
