import ContractPython.Proofs.Effects

/-!
# Determinism

Two calls of `execute_program` with equal arguments start from states that differ in the
state of `rand()` and in the output buffer only. No computation but `rand.randint` looks at
these, so calls that draw no number agree in everything else.
-/

namespace ContractPython.Proofs

open Program M

/-- The state with another state of `rand()` and another output buffer. -/
def withOutside (s : State) (rand : RandState) (stdoutBuffer : Str) : State :=
  { s with rand := rand, stdoutBuffer := stdoutBuffer }

/-- The outcome with another state of `rand()` and another output buffer. -/
def outcomeOutside {α : Type} (rand : RandState) (out : Str) :
    EStateM.Result Exn State α → EStateM.Result Exn State α
  | .ok a s => .ok a (withOutside s rand out)
  | .error e s => .error e (withOutside s rand out)

/-- The two outcomes differ at most in what is outside. -/
def SameOutcome {α : Type} (r r' : EStateM.Result Exn State α) : Prop :=
  ∃ rand out, r' = outcomeOutside rand out r

/-- `x` draws a number when it starts in `s`. -/
def Draws {α : Type} (x : M α) (s : State) : Prop :=
  s.log.count .randDrawn < (finalState x s).log.count .randDrawn

/-- Unless it draws, `x` does the same whatever is outside. -/
def Deterministic (α : Type) (x : M α) : Prop :=
  HasEffects α x ∧ ∀ s rand out, Draws x s ∨ SameOutcome (x s) (x (withOutside s rand out))

/-- `x` does not touch what is outside. -/
def IgnoresOutside (α : Type) (x : M α) : Prop :=
  ∀ s rand out, x (withOutside s rand out) = outcomeOutside rand out (x s)

lemma deterministic_of_ignores {α : Type} {x : M α} (heffects : HasEffects α x)
    (hx : IgnoresOutside α x) : Deterministic α x :=
  ⟨heffects, fun s rand out => .inr ⟨rand, out, hx s rand out⟩⟩

lemma ignoresOutside_compositional : Compositional IgnoresOutside where
  pure _ _ _ _ := rfl
  throw _ _ _ _ := rfl
  bind {_ _ x f} hx hf s rand out := by
    cases hxs : x s with
    | error e s₁ =>
      have hxt : x (withOutside s rand out) = .error e (withOutside s₁ rand out) := by
        rw [hx, hxs]
        rfl
      rw [bind_of_error hxs, bind_of_error hxt]
      rfl
    | ok a s₁ =>
      have hxt : x (withOutside s rand out) = .ok a (withOutside s₁ rand out) := by
        rw [hx, hxs]
        rfl
      rw [bind_of_ok hxs, bind_of_ok hxt, hf]

lemma ignoresOutside_malloc : IgnoresOutside _ malloc := fun s _ _ => by
  unfold malloc
  cases h : s.memory.grants s.memory.requests <;> simp [withOutside, outcomeOutside, h]

lemma ignoresOutside_storeAt (r : Ref) (v : Value) : IgnoresOutside _ (storeAt r v) :=
  fun s rand out => by
    unfold storeAt
    by_cases h : (s.heap[r]?).map Value.ctorIdx = some v.ctorIdx <;>
      simp only [withOutside, outcomeOutside, h, if_true, if_false]

lemma draws_of_first {α β : Type} {x : M α} {f : α → M β} (hf : ∀ a, HasEffects β (f a)) {s : State}
    (hdraw : Draws x s) : Draws (x >>= f) s := by
  unfold Draws at *
  cases hx : x s with
  | error e s₁ =>
    rw [finalState_of_error hx] at hdraw
    rwa [finalState_of_error (bind_of_error hx)]
  | ok a s₁ =>
    rw [finalState_of_ok hx] at hdraw
    obtain ⟨exn, heffects⟩ := (hf a).exists_exn s₁
    have hle := heffects.events_le .randDrawn
    have hfinal : finalState (x >>= f) s = finalState (f a) s₁ := by
      simp only [finalState, bind_of_ok hx]
    rw [hfinal]
    omega

lemma draws_of_second {α β : Type} {x : M α} {f : α → M β} (hx : HasEffects α x) {s s₁ : State} {a : α}
    (hxs : x s = .ok a s₁) (hdraw : Draws (f a) s₁) : Draws (x >>= f) s := by
  unfold Draws at *
  have hle := (hx.of_ok hxs).events_le .randDrawn
  have hfinal : finalState (x >>= f) s = finalState (f a) s₁ := by
    simp only [finalState, bind_of_ok hxs]
  rw [hfinal]
  omega

lemma deterministic_compositional : Compositional Deterministic where
  pure a := deterministic_of_ignores (hasEffects_compositional.pure a) fun _ _ _ => rfl
  throw e := deterministic_of_ignores (hasEffects_compositional.throw e) fun _ _ _ => rfl
  bind {_ _ x f} hx hf := by
    refine ⟨hasEffects_compositional.bind hx.1 fun a => (hf a).1, fun s rand out => ?_⟩
    rcases hx.2 s rand out with hdraw | ⟨rand₁, out₁, hsame⟩
    · exact .inl (draws_of_first (fun a => (hf a).1) hdraw)
    · cases hxs : x s with
      | error e s₁ =>
        rw [hxs] at hsame
        rw [bind_of_error hxs, bind_of_error hsame]
        exact .inr ⟨rand₁, out₁, rfl⟩
      | ok a s₁ =>
        rw [hxs] at hsame
        rw [bind_of_ok hxs, bind_of_ok hsame]
        rcases (hf a).2 s₁ rand₁ out₁ with hdraw | hsame'
        · exact .inl (draws_of_second hx.1 hxs hdraw)
        · exact .inr hsame'

lemma deterministic_modifyScope (scope : ScopeRef) (f : Frame → Frame) :
    Deterministic _ (modifyScope scope f) :=
  deterministic_of_ignores (hasEffects_modifyScope scope f) fun _ _ _ => by cases scope <;> rfl

lemma deterministic_onData {α : Type} (f : Bitstream → Option α × Bitstream) :
    Deterministic _ (onData f) :=
  deterministic_of_ignores (hasEffects_onData f) fun s rand out => by
    unfold onData
    cases h : (f s.interp.data).1 <;> simp only [withOutside, outcomeOutside, h]

/-- A computation around another one: what it does before and after does not look outside. -/
lemma deterministic_around {α β : Type} {y : M β} (x : State → M α) (enter : State → State)
    (leave : State → EStateM.Result Exn State α → EStateM.Result Exn State β)
    (hx : ∀ s, Deterministic α (x s)) (heffects : HasEffects β y)
    (hy : ∀ s, y s = leave s (x s (enter s)))
    (hsame : ∀ s rand out, x (withOutside s rand out) = x s ∧
      enter (withOutside s rand out) = withOutside (enter s) rand out)
    (henter : ∀ s, (enter s).log = s.log)
    (hcount : ∀ s r, (resultState (leave s r)).log.count .randDrawn =
      (resultState r).log.count .randDrawn)
    (hleave : ∀ s r rand out rand' out', leave (withOutside s rand out) (outcomeOutside rand' out' r) =
      outcomeOutside rand' out' (leave s r)) : Deterministic β y := by
  refine ⟨heffects, fun s rand out => ?_⟩
  obtain ⟨hxt, hent⟩ := hsame s rand out
  rcases (hx s).2 (enter s) rand out with hdraw | ⟨rand', out', hout⟩
  · refine .inl ?_
    unfold Draws finalState at *
    rwa [hy, hcount, ← henter]
  · rw [hy, hy, hxt, hent, hout, hleave]
    exact .inr ⟨rand', out', rfl⟩

lemma deterministic_withFrame {α : Type} {f : Nat → M α} (hf : ∀ id, Deterministic α (f id)) :
    Deterministic α (withFrame f) :=
  deterministic_around (fun s => f s.frames.length)
    (fun s => { s with frames := s.frames ++ [.empty] })
    (fun s r => match r with
      | .ok a s' => .ok a { s' with frames := s'.frames.take s.frames.length }
      | .error e s' => .error e { s' with frames := s'.frames.take s.frames.length })
    (fun s => hf _) (closed_hasEffects.withFrame fun id _ => (hf id).1) (fun s => rfl)
    (fun _ _ _ => ⟨rfl, rfl⟩) (fun _ => rfl) (fun _ r => by cases r <;> rfl)
    (fun _ r _ _ _ _ => by cases r <;> rfl)

lemma deterministic_tryNext {r : Ref} (hr : Deterministic _ (next r)) :
    Deterministic _ (tryNext r) :=
  deterministic_around (fun _ => next r) id (fun _ => stopCaught)
    (fun _ => hr) (closed_hasEffects.tryNext r) (fun s => rfl) (fun _ _ _ => ⟨rfl, rfl⟩)
    (fun _ => rfl)
    (fun _ res => by
      cases res with
      | ok v s' => rfl
      | error e s' => cases e <;> rfl)
    (fun _ res _ _ _ _ => by
      cases res with
      | ok v s' => rfl
      | error e s' => cases e <;> rfl)

lemma deterministic_runCallee {α : Type} {writeBack : Bool} {pyint : Interp} {x : M α}
    (heffects : HasEffects α (runCallee writeBack pyint x)) (hx : Deterministic α x) :
    Deterministic α (runCallee writeBack pyint x) :=
  deterministic_around (fun _ => x) (calleeState pyint)
    (fun s r => match r with
      | .ok a s' => .ok a (if writeBack then writtenBack s s' else stepsDropped s s')
      | .error e s' => .error e (writtenBack s s'))
    (fun _ => hx) heffects (fun s => rfl) (fun _ _ _ => ⟨rfl, rfl⟩) (fun _ => rfl)
    (fun s r => by
      cases r with
      | ok a s' => cases writeBack <;> simp [resultState, writtenBack, stepsDropped]
      | error e s' => rfl)
    (fun s r _ _ _ _ => by
      cases r with
      | ok a s' => cases writeBack <;> rfl
      | error e s' => rfl)

/-- No computation but a draw from `rand()` depends on what is outside. -/
lemma closed_deterministic : Closed (fun _ => True) Deterministic where
  toSequential := deterministic_compositional.toSequential
  throw e _ := deterministic_compositional.throw e
  stuck := deterministic_compositional.throw _
  malloc := deterministic_of_ignores closed_hasEffects.malloc ignoresOutside_malloc
  makeShared v := deterministic_of_ignores (hasEffects_makeShared v) fun _ _ _ => rfl
  load r := deterministic_of_ignores (closed_hasEffects.load r) fun s _ _ => by
    unfold load
    cases h : s.heap[r]? <;> simp only [withOutside, outcomeOutside, h]
  storeAt r v hv :=
    deterministic_of_ignores (hasEffects_storeAt r v hv) (ignoresOutside_storeAt r v)
  writeStore r st := deterministic_of_ignores (hasEffects_writeStore r st)
    (ignoresOutside_compositional.bind (ignoresOutside_storeAt _ _) fun _ _ _ _ => rfl)
  findValue scope name :=
    deterministic_of_ignores (closed_hasEffects.findValue scope name) fun _ _ _ => rfl
  setValue scope name value :=
    deterministic_of_ignores (closed_hasEffects.setValue scope name value) fun _ _ _ => rfl
  hasValue scope name :=
    deterministic_of_ignores (closed_hasEffects.hasValue scope name) fun _ _ _ => rfl
  setGlobalTag _ _ _ := deterministic_modifyScope _ _
  terminate _ _ := deterministic_modifyScope _ _
  requireGlobal _ _ := deterministic_modifyScope _ _
  isTerminated scope hs :=
    deterministic_of_ignores (closed_hasEffects.isTerminated scope hs) fun _ _ _ => by
      cases scope <;> rfl
  withFrame hf := deterministic_withFrame fun id => hf id trivial
  str r := deterministic_of_ignores (closed_hasEffects.str r) fun s _ _ => by
    unfold M.str
    cases h : Value.str s.heap (s.heap.length + 1) r <;>
      simp only [withOutside, outcomeOutside, h]
  getChain := deterministic_of_ignores closed_hasEffects.getChain fun _ _ _ => rfl
  setFunds m b := deterministic_of_ignores (closed_hasEffects.setFunds m b) fun _ _ _ => rfl
  checkAddress a := deterministic_of_ignores (closed_hasEffects.checkAddress a) fun _ _ _ => rfl
  rand := ⟨closed_hasEffects.rand, fun s _ _ => .inl (by simp [Draws, finalState, resultState, M.rand])⟩
  printProgramOutput text :=
    ⟨closed_hasEffects.printProgramOutput text, fun s rand out => .inr ⟨rand, out ++ text, rfl⟩⟩
  charge := deterministic_of_ignores closed_hasEffects.charge fun s _ _ => by
    unfold charge
    by_cases h : s.interp.executionStepLimit > 0 ∧
        s.interp.numExecutionSteps + 1 ≥ s.interp.executionStepLimit
    · rw [if_pos h]
      exact if_pos h
    · rw [if_neg h]
      exact if_neg h
  readWord := deterministic_onData _
  readString := deterministic_onData _
  readStub _ := deterministic_compositional.bind (deterministic_onData _) fun _ =>
    deterministic_compositional.bind (deterministic_onData _) fun _ => deterministic_compositional.pure _
  peekType := deterministic_onData _
  returnTo hf := deterministic_compositional.bind
    (deterministic_of_ignores (fun s => .refl s) fun _ _ _ => rfl) fun start => hf start
      (deterministic_of_ignores (fun _ => .of_eq rfl rfl rfl rfl) fun _ _ _ => rfl)
  streamLength := deterministic_of_ignores closed_hasEffects.streamLength fun _ _ _ => rfl
  inGlobalScope hf := deterministic_compositional.bind
    (deterministic_of_ignores (fun s => .refl s) fun _ _ _ => rfl) fun scope =>
      hf scope (by simp [Touches])
  findModule name := deterministic_of_ignores (closed_hasEffects.findModule name) fun _ _ _ => rfl
  loadRand := loadRand_of_steps deterministic_compositional.toSequential
    (deterministic_of_ignores closed_hasEffects.malloc ignoresOutside_malloc)
    (deterministic_of_ignores (hasEffects_makeShared _) fun _ _ _ => rfl)
    fun module => deterministic_of_ignores (hasEffects_addModule _ module) fun _ _ _ => rfl
  catchStop _ hr := deterministic_tryNext hr
  record type ls depth :=
    deterministic_of_ignores (closed_hasEffects.record type ls depth) fun _ _ _ => rfl
  checkLimit := deterministic_of_ignores closed_hasEffects.checkLimit fun s _ _ => by
    unfold checkLimit
    by_cases h : s.interp.executionStepLimit = 0 <;> simp [withOutside, outcomeOutside, h]
  runCallee n writeBack pyint scope hg hs hn hcharged :=
    deterministic_runCallee
      (closed_hasEffects.runCallee n writeBack pyint scope hg hs hn.1 fun k hk => (hcharged k hk).1)
      (deterministic_compositional.bind hn fun _ => deterministic_compositional.pure _)

/-! ### Calls of `execute_program` -/

lemma ignoresOutside_setup (archive : Archive) (args : Arguments) :
    IgnoresOutside _ (setup archive args) := by
  have h := ignoresOutside_compositional
  have halloc : ∀ v, IgnoresOutside _ (alloc v) := fun v =>
    h.bind ignoresOutside_malloc fun _ _ _ _ => rfl
  have hnew : IgnoresOutside _ (newInterpreter (archive.uncompress args.raw)) :=
    h.bind ignoresOutside_malloc fun _ => h.bind (fun _ _ _ => rfl) fun _ =>
      h.bind (fun _ _ _ => rfl) fun _ _ _ _ => rfl
  have hload : IgnoresOutside _ (loadOldStorage archive args.oldStorage) := by
    unfold loadOldStorage
    split
    · cases archive.load args.oldStorage with
      | ok st => exact h.bind (fun _ _ _ => rfl) fun _ _ _ _ => rfl
      | error e => exact h.bind (fun _ _ _ => rfl) fun _ _ _ _ => rfl
    · exact h.pure ()
  have hlimit : IgnoresOutside _ (limitFromGas args.gas args.gasprice) := by
    intro s rand out
    unfold limitFromGas
    by_cases hprice : args.gasprice = 0
    · rw [if_pos hprice]
      rfl
    · rw [if_neg hprice]
      unfold setExecutionStepLimit
      split <;> rfl
  have hregister : IgnoresOutside _ registerBlockchainModule :=
    h.bind (h.bind (halloc _) fun module =>
      h.bind (h.foldlM (fun _ _ => h.bind (halloc _) fun _ => h.pure _) _ _) fun _ =>
        h.bind (ignoresOutside_storeAt _ _) fun _ => h.pure module) fun _ _ _ _ => rfl
  exact h.bind hnew fun _ => h.bind hload fun _ => h.bind hlimit fun _ => hregister

/-- Two calls have the same visible results. -/
structure SameResults (out out' : Outcome) : Prop where
  code_eq : out'.code = out.code
  usedG_eq : out'.usedG = out.usedG
  storage_eq : out'.storage = out.storage
  sendMap_eq : out'.process.chain.sendMap = out.process.chain.sendMap
  balance_eq : out'.process.chain.contractBalance = out.process.chain.contractBalance

lemma sameResults_finish (archive : Archive) (gasprice : UInt32) (code : Nat) (s : State)
    (rand : RandState) (stdoutBuffer errorBuffer errorBuffer' : Str) :
    SameResults (Library.finish archive gasprice errorBuffer code s)
      (Library.finish archive gasprice errorBuffer' code (withOutside s rand stdoutBuffer)) :=
  ⟨rfl, rfl, rfl, rfl, rfl⟩

/-- A default function that stores a constant. -/
def storeConstant : List UInt8 := moduleCode [defStmt "default" [assignItem "store" "a" 7]]

/-- A default function that stores a random number between 0 and 9. -/
def storeRandom : List UInt8 :=
  moduleCode [importFromStmt "rand" "randint",
    defStmt "default" [.assign (.ofExprs [.subscript (.index (.str (lit "a"))) (.name (lit "store"))])
      (callExpr "randint" [.number (.integer 0), .number (.integer 10)])], .pass]

/-- A second call in the process of the first one, with the same arguments. -/
def runAgain (code : List UInt8) (out : Outcome) : Except Exn Outcome :=
  Library.executeProgram textArchive noAddresses .dummy 30 (callDefault code) out.process

end ContractPython.Proofs
