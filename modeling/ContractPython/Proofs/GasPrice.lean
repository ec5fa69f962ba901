import ContractPython.Proofs.Effects
import ContractPython.Proofs.Gas

/-!
# Gas price arithmetic

`execute_program` divides the gas by the gas price, keeps 32 bits of the quotient as step limit,
and multiplies the executed steps by the price in 32 bits again. The result is exact for all
programs precisely when the gas the limit pays for fits 32 bits.
-/

namespace ContractPython.Proofs

open Program M Bytes

/-! ### The law -/

/-- Setting the limit succeeds, and the limit in force is the whole quotient. -/
def LimitIsQuotient (gas : UInt64) (gasprice : UInt32) : Prop :=
  ∀ s, ∃ s', limitFromGas gas gasprice s = .ok () s' ∧
    s'.interp.executionStepLimit.toNat = gas.toNat / gasprice.toNat

/-- The steps of a run. -/
def stepsOf (fuel : Nat) (args : Arguments) (s : State) : Nat :=
  (finalState (runProgram fuel args.data) s).interp.numExecutionSteps.toNat

/-- What a call reports as used gas is the exact price of its steps, and at most its gas. -/
def ReportsPrice (gas : UInt64) (gasprice : UInt32) : Prop :=
  ∀ archive codec memory fuel args process s out,
    args.gas = gas → args.gasprice = gasprice →
    setup archive args (Library.initialState codec memory process args) = .ok () s →
    Library.executeProgram archive codec memory fuel args process = .ok out →
    out.usedG.toNat = stepsOf fuel args s * gasprice.toNat ∧ out.usedG ≤ gas

/-! ### The limit -/

/-- The 32 bits that are kept of the quotient. -/
lemma limit_toNat (gas : UInt64) (gasprice : UInt32) :
    (gas / gasprice.toUInt64).toUInt32.toNat = gas.toNat / gasprice.toNat % 2 ^ 32 := by
  rw [UInt64.toNat_toUInt32, UInt64.toNat_div, UInt32.toNat_toUInt64]

/-- The limit is the quotient when the quotient is a positive 32-bit number. -/
lemma limitIsQuotient_iff (gas : UInt64) (gasprice : UInt32) :
    LimitIsQuotient gas gasprice ↔
      gasprice ≠ 0 ∧ 0 < gas.toNat / gasprice.toNat ∧ gas.toNat / gasprice.toNat < 2 ^ 32 := by
  have hlimit := limit_toNat gas gasprice
  constructor
  · intro h
    obtain ⟨s', hok, hquotient⟩ := h (startState [] 0)
    obtain ⟨hprice, hne, rfl⟩ := limitFromGas_eq_ok hok
    have hpos : (gas / gasprice.toUInt64).toUInt32.toNat ≠ 0 := by
      intro hzero
      exact hne (UInt32.toNat_inj.mp hzero)
    have hsmall := (gas / gasprice.toUInt64).toUInt32.toNat_lt
    simp only at hquotient
    rw [hquotient] at hpos hsmall
    exact ⟨hprice, by omega, hsmall⟩
  · rintro ⟨hprice, hpos, hsmall⟩ s
    rw [Nat.mod_eq_of_lt hsmall] at hlimit
    have hne : (gas / gasprice.toUInt64).toUInt32 ≠ 0 := by
      intro hzero
      rw [hzero] at hlimit
      have hnat : (0 : UInt32).toNat = 0 := rfl
      omega
    refine ⟨{ s with interp := { s.interp with
      executionStepLimit := (gas / gasprice.toUInt64).toUInt32 } }, ?_, hlimit⟩
    simp only [limitFromGas, setExecutionStepLimit, hprice, hne, if_false]

/-! ### The reported gas -/

/-- The counter and the limit a run starts with. -/
lemma setup_meter {archive : Archive} {args : Arguments} {codec : AddressCodec}
    {memory : MemoryManager} {process : Process} {s : State}
    (h : setup archive args (Library.initialState codec memory process args) = .ok () s) :
    s.interp.numExecutionSteps = 0 ∧ 0 < s.interp.executionStepLimit ∧
      s.interp.executionStepLimit = (args.gas / args.gasprice.toUInt64).toUInt32 := by
  obtain ⟨_, s₁, hnew, h⟩ := bind_eq_ok.mp h
  obtain ⟨_, s₀, hmalloc, hnew⟩ := bind_eq_ok.mp hnew
  obtain ⟨_, s₂, hload, h⟩ := bind_eq_ok.mp h
  obtain ⟨_, s₃, hlimit, hregister⟩ := bind_eq_ok.mp h
  have hsteps₁ : s₁.interp.numExecutionSteps = 0 := by
    cases hnew
    rfl
  have hsteps₂ : s₂.interp.numExecutionSteps = s₁.interp.numExecutionSteps := by
    unfold loadOldStorage at hload
    split at hload
    · obtain ⟨st, s', hlift, hload⟩ := bind_eq_ok.mp hload
      cases hload
      cases harchive : archive.load args.oldStorage <;> rw [harchive] at hlift <;> cases hlift
      rfl
    · cases hload
      rfl
  obtain ⟨-, hne, hs₃⟩ := limitFromGas_eq_ok hlimit
  have hsteps₃ : s₃.interp.numExecutionSteps = 0 := by
    rw [hs₃]
    exact hsteps₂.trans hsteps₁
  have hlimit₃ : s₃.interp.executionStepLimit = (args.gas / args.gasprice.toUInt64).toUInt32 := by
    rw [hs₃]
  have hpos : 0 < s₃.interp.executionStepLimit := by
    rw [hlimit₃]
    exact UInt32.pos_iff_ne_zero.mpr hne
  have hmeter : Metered none (meter s₃) (meter s) :=
    (closed_isMetered.bind closed_isMetered.newBlockchainModule fun _ =>
      isMetered_addModule _ _).of_ok hregister
  have hlog : s.log = s₃.log := quiet_registerBlockchainModule.of_ok hregister
  have hlimit_eq : s.interp.executionStepLimit = s₃.interp.executionStepLimit := hmeter.limit_eq
  have hrun := (hmeter.running hpos (by simpa [meter, hsteps₃] using hpos)).2.2.2.2
  simp only [meter, Meter.charged, Meter.dropped, hlog, hsteps₃] at hrun
  have hsteps : s.interp.numExecutionSteps.toNat = 0 := by simpa using hrun trivial
  refine ⟨UInt32.toNat_inj.mp hsteps, ?_, hlimit_eq.trans hlimit₃⟩
  rwa [hlimit_eq]

/-- The gas a handler reports. -/
lemma usedG_of_executeProgram {archive : Archive} {args : Arguments} {codec : AddressCodec}
    {memory : MemoryManager} {process : Process} {fuel : Nat} {s : State} {out : Outcome}
    (hsetup : setup archive args (Library.initialState codec memory process args) = .ok () s)
    (hout : Library.executeProgram archive codec memory fuel args process = .ok out) :
    out.usedG.toNat = stepsOf fuel args s * args.gasprice.toNat % 2 ^ 32 := by
  unfold Library.executeProgram at hout
  simp only [hsetup] at hout
  unfold stepsOf
  cases hrun : runProgram fuel args.data s with
  | ok u s' =>
    simp only [hrun] at hout
    cases hout
    rw [finalState_of_ok hrun]
    simp [Library.finish]
  | error e s' =>
    simp only [hrun] at hout
    rw [finalState_of_error hrun]
    cases hcode : e.returnCode with
    | none => simp [hcode] at hout
    | some code =>
      simp only [hcode] at hout
      cases hout
      simp [Library.finish]

/-- The steps of a run are paid for by its gas. -/
lemma stepsOf_le {archive : Archive} {args : Arguments} {codec : AddressCodec}
    {memory : MemoryManager} {process : Process} {s : State} (fuel : Nat)
    (hsetup : setup archive args (Library.initialState codec memory process args) = .ok () s) :
    stepsOf fuel args s ≤ args.gas.toNat / args.gasprice.toNat := by
  obtain ⟨hsteps, hpos, hlimit⟩ := setup_meter hsetup
  obtain ⟨exn, hmeter⟩ := (closed_isMetered.runProgram fuel args.data).exists_exn s
  have hle := (hmeter.running hpos (by simpa [meter, hsteps] using hpos)).1
  have hnat : stepsOf fuel args s ≤ s.interp.executionStepLimit.toNat := UInt32.le_iff_toNat_le.mp hle
  rw [hlimit, limit_toNat] at hnat
  exact hnat.trans (Nat.mod_le _ _)

/-- When the gas the limit pays for fits 32 bits, every call reports the exact price. -/
lemma reportsPrice_of_fits {gas : UInt64} {gasprice : UInt32}
    (hfits : gas.toNat / gasprice.toNat * gasprice.toNat < 2 ^ 32) : ReportsPrice gas gasprice := by
  rintro archive codec memory fuel args process s out rfl rfl hsetup hout
  have hle := stepsOf_le fuel hsetup
  have hproduct : stepsOf fuel args s * args.gasprice.toNat ≤
      args.gas.toNat / args.gasprice.toNat * args.gasprice.toNat := Nat.mul_le_mul_right _ hle
  have hused := usedG_of_executeProgram hsetup hout
  rw [Nat.mod_eq_of_lt (by omega)] at hused
  have hgas : args.gas.toNat / args.gasprice.toNat * args.gasprice.toNat ≤ args.gas.toNat :=
    Nat.div_mul_le_self _ _
  refine ⟨hused, UInt64.le_iff_toNat_le.mpr ?_⟩
  omega

/-! ### A call that spends all its gas -/

/-- The memory manager grants every request. -/
def Granted (s : State) : Prop := ∀ n, s.memory.grants n = true

lemma alloc_of_granted {s : State} (h : Granted s) (v : Value) :
    ∃ s', alloc v s = .ok s.heap.length s' ∧ Granted s' ∧ s'.heap = s.heap ++ [v] ∧
      s'.interp = s.interp := by
  refine ⟨{ s with
    heap := s.heap ++ [v], memory := { s.memory with requests := s.memory.requests + 1 } }, ?_, h, rfl, rfl⟩
  simp [alloc, malloc, makeShared, bind, EStateM.bind, h s.memory.requests]

lemma create_of_granted {s : State} (h : Granted s) (v : Value) :
    ∃ s', create v s = .ok (some s.heap.length) s' ∧ Granted s' ∧ s'.heap = s.heap ++ [v] ∧
      s'.interp = s.interp := by
  obtain ⟨s', halloc, hrest⟩ := alloc_of_granted h v
  exact ⟨s', bind_of_ok halloc, hrest⟩

/-- Registering the functions of a module. -/
lemma register_of_granted (module : Ref) (table : List (Str × List Str × BlockchainFn)) :
    ∀ (functionMap : SortedMap Str Ref) (s : State), Granted s →
      ∃ functionMap' s', (table.foldlM (fun functionMap (name, params, func) => do
          let f ← alloc (.cFunction params func module)
          pure (functionMap.insert name f)) functionMap : M _) s = .ok functionMap' s' ∧
        Granted s' ∧ s.heap <+: s'.heap ∧ s'.interp = s.interp := by
  induction table with
  | nil => exact fun functionMap s h => ⟨functionMap, s, rfl, h, List.prefix_refl _, rfl⟩
  | cons row table ih =>
    intro functionMap s h
    obtain ⟨name, params, func⟩ := row
    obtain ⟨s₁, halloc, h₁, hheap₁, hinterp₁⟩ := alloc_of_granted h (.cFunction params func module)
    obtain ⟨functionMap', s', hrest, h', hheap', hinterp'⟩ :=
      ih (functionMap.insert name s.heap.length) s₁ h₁
    refine ⟨functionMap', s', ?_, h', ?_, hinterp'.trans hinterp₁⟩
    · have hrow : (do
          let f ← alloc (.cFunction params func module)
          pure (functionMap.insert name f) : M _) s =
          .ok (functionMap.insert name s.heap.length) s₁ := bind_of_ok halloc
      rw [List.foldlM_cons]
      exact (bind_of_ok hrow).trans hrest
    · rw [hheap₁] at hheap'
      exact (List.prefix_append _ _).trans hheap'

lemma registerBlockchainModule_of_granted {s : State} (h : Granted s) :
    ∃ s', registerBlockchainModule s = .ok () s' ∧ Granted s' ∧
      s'.interp.data = s.interp.data ∧ s'.interp.globalScope = s.interp.globalScope := by
  obtain ⟨s₁, halloc, h₁, hheap₁, hinterp₁⟩ :=
    alloc_of_granted h (.blockchainModule Prng.init .empty)
  obtain ⟨functionMap, s₂, hregister, h₂, hheap₂, hinterp₂⟩ :=
    register_of_granted s.heap.length functionTable .empty s₁ h₁
  have hmodule : s₂.heap[s.heap.length]? = some (.blockchainModule Prng.init .empty) := by
    obtain ⟨rest, hrest⟩ := hheap₂
    rw [← hrest, hheap₁, List.append_assoc]
    simp
  have hstore : storeAt s.heap.length (.blockchainModule Prng.init functionMap) s₂ = .ok ()
      { s₂ with heap := s₂.heap.set s.heap.length (.blockchainModule Prng.init functionMap) } := by
    simp [storeAt, hmodule, Value.ctorIdx]
  refine ⟨_, bind_of_ok ((bind_of_ok halloc).trans ((bind_of_ok hregister).trans (bind_of_ok hstore))),
    h₂, ?_, ?_⟩
  · simp only [hinterp₂, hinterp₁]
  · simp only [hinterp₂, hinterp₁]

/-- A call of the builtin `len` with `count` booleans as arguments. -/
def lenCall (count : UInt32) : Str :=
  stringBytes (lit "len") ++ (wordBytes count ++ (List.replicate count.toNat (wordBytes 4 ++ [1])).flatten)

/-- A contract without functions that is called with as many arguments as the limit has steps. -/
def spend (gas : UInt64) (gasprice : UInt32) : Arguments :=
  { callDefault (moduleCode []) with
    gas := gas, gasprice := gasprice, data := lenCall (gas / gasprice.toUInt64).toUInt32 }

/-- One argument costs one step. -/
lemma calldataArgument_bool {acc : List ValuePtr} {b : Bitstream} {s : State} (h : Granted s)
    (hsteps : s.interp.numExecutionSteps.toNat + 1 < s.interp.executionStepLimit.toNat)
    (hfail : b.fail = false) (hhere : OccursAt (wordBytes 4 ++ [1]) b.bytecode b.get) :
    ∃ acc' s', calldataArgument (acc, b) s = .ok (acc', { b with get := b.get + 5 }) s' ∧
      Granted s' ∧ s'.interp.executionStepLimit = s.interp.executionStepLimit ∧
      s'.interp.numExecutionSteps.toNat = s.interp.numExecutionSteps.toNat + 1 := by
  have hcharge : charge s = .ok () (tick s) := by
    rcases charge_run (s := s) (by omega) with ⟨hlast, -⟩ | ⟨-, hcharge⟩
    · omega
    · exact hcharge
  have hgranted : Granted (tick s) := h
  obtain ⟨s', hcreate, h', -, hinterp⟩ := create_of_granted hgranted (.bool true)
  have htick := toNat_steps_tick (s := s) (by omega)
  obtain ⟨hword, hbyte⟩ := (occursAt_append _ _ _ _).mp hhere
  have hlen := length_le_of_occursAt hbyte (by simp)
  have hread : b.readWord = (some 4, { b with get := b.get + 4 }) :=
    Bitstream.readWord_of_occursAt hfail hword
  have hbool : Bitstream.readBool { b with get := b.get + 4 } = (some true, { b with get := b.get + 5 }) := by
    rw [length_wordBytes] at hbyte hlen
    have hone := Bitstream.read_of_occursAt (b := { b with get := b.get + 4 }) hfail hbyte (by simp at hlen ⊢; omega)
    simp only [List.length_singleton] at hone
    simp [Bitstream.readBool, hone, decodeBE]
  refine ⟨acc ++ [some (tick s).heap.length], s', ?_, h', by rw [hinterp]; rfl, by rw [hinterp, htick]⟩
  unfold calldataArgument
  rw [bind_of_ok hcharge]
  have hstream : fromStream Bitstream.readWord b (tick s) = .ok (4, { b with get := b.get + 4 }) (tick s) := by
    simp [fromStream, hread]
  rw [bind_of_ok hstream]
  have hstream' : fromStream Bitstream.readBool { b with get := b.get + 4 } (tick s) =
      .ok (true, { b with get := b.get + 5 }) (tick s) := by
    simp [fromStream, hbool]
  exact (bind_of_ok hstream').trans (bind_of_ok hcreate)

/-- Enough arguments use up the gas. -/
lemma calldataArguments_outOfGas (count : Nat) :
    ∀ (acc : List ValuePtr) (b : Bitstream) (s : State), Granted s →
      s.interp.numExecutionSteps.toNat < s.interp.executionStepLimit.toNat →
      s.interp.executionStepLimit.toNat ≤ s.interp.numExecutionSteps.toNat + count →
      b.fail = false → OccursAt (List.replicate count (wordBytes 4 ++ [1])).flatten b.bytecode b.get →
      ∃ s', iterateM count calldataArgument (acc, b) s = .error .outOfGas s' ∧
        s'.interp.numExecutionSteps = s.interp.executionStepLimit := by
  induction count with
  | zero => intro acc b s _ hlt hle; omega
  | succ count ih =>
    intro acc b s h hlt hle hfail hhere
    rw [List.replicate_succ, List.flatten_cons, occursAt_append] at hhere
    rcases charge_run hlt with ⟨hlast, hcharge⟩ | ⟨hmore, -⟩
    · refine ⟨tick s, bind_of_error (bind_of_error hcharge), UInt32.toNat_inj.mp ?_⟩
      rw [toNat_steps_tick hlt, hlast]
    · obtain ⟨acc', s₁, hfirst, h₁, hlimit, hsteps⟩ := calldataArgument_bool h hmore hfail hhere.1
      obtain ⟨s', hrest, hend⟩ := ih acc' { b with get := b.get + 5 } s₁ h₁
        (by rw [hlimit, hsteps]; exact hmore) (by rw [hlimit, hsteps]; omega) hfail hhere.2
      exact ⟨s', (bind_of_ok hfirst).trans hrest, hend.trans hlimit⟩

/-- The interpreter of a contract without functions, about to run under a limit. -/
structure Ready (limit : UInt32) (s : State) : Prop where
  granted : Granted s
  data_eq : s.interp.data = Bitstream.ofBytes (moduleCode [])
  steps_eq : s.interp.numExecutionSteps = 0
  limit_eq : s.interp.executionStepLimit = limit
  scope_eq : s.interp.globalScope = [0]

/-- Setting up the call succeeds. -/
lemma ready_of_setup {gas : UInt64} {gasprice : UInt32} (h : LimitIsQuotient gas gasprice) :
    ∃ s, setup textArchive (spend gas gasprice) (Library.initialState noAddresses .dummy
        (processAfter (fun _ => 0) 0) (spend gas gasprice)) = .ok () s ∧
      Ready (gas / gasprice.toUInt64).toUInt32 s := by
  set s₀ := Library.initialState noAddresses .dummy (processAfter (fun _ => 0) 0) (spend gas gasprice)
  have h₀ : Granted s₀ := fun _ => rfl
  obtain ⟨s₁, hnew, h₁, hdata₁, hscope₁⟩ : ∃ s₁, newInterpreter (moduleCode []) s₀ = .ok () s₁ ∧
      Granted s₁ ∧ s₁.interp.data = Bitstream.ofBytes (moduleCode []) ∧ s₁.interp.globalScope = [0] :=
    ⟨_, rfl, fun _ => rfl, rfl, rfl⟩
  obtain ⟨s₂, hlimit, -⟩ := h s₁
  have hs₂ := (limitFromGas_eq_ok hlimit).2.2
  have h₂ : Granted s₂ := by
    rw [hs₂]
    exact h₁
  obtain ⟨s, hregister, hgranted, hdata, hscope⟩ := registerBlockchainModule_of_granted h₂
  have hsetup : setup textArchive (spend gas gasprice) s₀ = .ok () s :=
    (bind_of_ok hnew).trans ((bind_of_ok (rfl : loadOldStorage textArchive [] s₁ = .ok () s₁)).trans
      ((bind_of_ok hlimit).trans hregister))
  obtain ⟨hsteps, -, hlimit_eq⟩ := setup_meter hsetup
  refine ⟨s, hsetup, hgranted, ?_, hsteps, hlimit_eq, ?_⟩
  · rw [hdata, hs₂]
    exact hdata₁
  · rw [hscope, hs₂]
    exact hscope₁

/-- The state with the cursor somewhere in the empty module. -/
def standsAt (get : Nat) (s : State) : State :=
  { s with interp := { s.interp with data := { Bitstream.ofBytes (moduleCode []) with get := get } } }

/-- The state with the node of the empty module in its log. -/
def entered (s : State) : State := { s with log := .nodeEntered .statementList .none 0 :: s.log }

/-- Executing the empty module takes one step. -/
lemma execute_empty {limit : UInt32} {s : State} (h : Ready limit s) (hlimit : 1 < limit.toNat) :
    ∃ v s', execute 2 s = .ok v s' ∧ Granted s' ∧ s'.interp.globalScope = [0] ∧
      s'.interp.numExecutionSteps.toNat = 1 ∧ s'.interp.executionStepLimit = limit := by
  have hlt : s.interp.numExecutionSteps.toNat < s.interp.executionStepLimit.toNat := by
    rw [h.steps_eq, h.limit_eq, UInt32.toNat_zero]
    omega
  have hcharge : charge s = .ok () (tick s) := by
    rcases charge_run hlt with ⟨hlast, -⟩ | ⟨-, hcharge⟩
    · rw [h.steps_eq, h.limit_eq, UInt32.toNat_zero] at hlast
      omega
    · exact hcharge
  have hsteps : (tick s).interp.numExecutionSteps.toNat = 1 := by
    rw [toNat_steps_tick hlt, h.steps_eq, UInt32.toNat_zero]
  have hscope : globalScope s = .ok [0] s := by
    rw [← h.scope_eq]
    rfl
  have hdata : (tick s).interp.data = Bitstream.ofBytes (moduleCode []) := h.data_eq
  have htype : M.readType (tick s) = .ok .statementList (standsAt 4 (tick s)) := by
    have hword : (tick s).interp.data.readWord =
        (some 1, { Bitstream.ofBytes (moduleCode []) with get := 4 }) := by
      rw [hdata]
      decide
    exact (bind_of_ok (onData_of_some hword)).trans rfl
  have hsize : M.readWord (standsAt 4 (entered (tick s))) = .ok 0 (standsAt 8 (entered (tick s))) := by
    have hword : (standsAt 4 (entered (tick s))).interp.data.readWord =
        (some 0, { Bitstream.ofBytes (moduleCode []) with get := 8 }) := by
      have hat : (standsAt 4 (entered (tick s))).interp.data =
          { Bitstream.ofBytes (moduleCode []) with get := 4 } := rfl
      rw [hat]
      decide
    exact onData_of_some hword
  have hnode : execNode (executeNext 1) [0] 1 .none .statementList (standsAt 4 (entered (tick s))) =
      .ok (none, .none) (standsAt 8 (entered (tick s))) := bind_of_ok hsize
  have hrecord : record (.nodeEntered .statementList .none (Scope.depth [0])) (standsAt 4 (tick s)) =
      .ok () (standsAt 4 (entered (tick s))) := rfl
  have hcharged : executeCharged (executeNext 1) [0] 1 .none (tick s) =
      .ok (none, .none) (standsAt 8 (entered (tick s))) := by
    unfold executeCharged
    rw [bind_of_ok (rfl : pos (tick s) = .ok _ _), bind_of_ok htype,
      bind_of_ok (rfl : checkTopLevel [0] .none .statementList _ = .ok () _), bind_of_ok hrecord,
      bind_of_ok hnode]
    rfl
  have hnext : executeNext 2 [0] .none s = .ok (none, .none) (standsAt 8 (entered (tick s))) :=
    (bind_of_ok hcharge).trans hcharged
  have hevaluate : evaluate (executeNext 2) [0] s = .ok none (standsAt 8 (entered (tick s))) :=
    bind_of_ok hnext
  exact ⟨none, standsAt 8 (entered (tick s)), (bind_of_ok hscope).trans hevaluate, h.granted, h.scope_eq,
    hsteps, h.limit_eq⟩

/-- The call ends when the gas does. -/
lemma calldata_lenCall {limit : UInt32} {s : State} (h : Granted s) (hscope : s.interp.globalScope = [0])
    (hlt : s.interp.numExecutionSteps.toNat < s.interp.executionStepLimit.toNat)
    (hlimit : s.interp.executionStepLimit = limit) :
    ∃ s', calldata 2 (lenCall limit) s = .error .outOfGas s' ∧ s'.interp.numExecutionSteps = limit := by
  set data := lenCall limit with hdata
  have hname : OccursAt (stringBytes (lit "len")) data 0 := by
    rw [hdata, lenCall]
    exact List.prefix_append _ _
  have hrest : OccursAt (wordBytes limit ++ (List.replicate limit.toNat (wordBytes 4 ++ [1])).flatten)
      data 7 := by
    have hall : OccursAt (stringBytes (lit "len") ++
        (wordBytes limit ++ (List.replicate limit.toNat (wordBytes 4 ++ [1])).flatten)) data 0 :=
      List.prefix_refl _
    exact ((occursAt_append _ _ _ _).mp hall).2
  obtain ⟨hcount, hargs⟩ := (occursAt_append _ _ _ _).mp hrest
  have hfunction : calldataFunction data s = .ok (lit "len", { Bitstream.ofBytes data with get := 7 }) s := by
    have hread : (Bitstream.ofBytes data).readString = (some (lit "len"), { Bitstream.ofBytes data with get := 7 }) :=
      Bitstream.readString_of_occursAt rfl (by decide) hname
    have hpos : data.length > 0 := by
      rw [hdata, lenCall, List.length_append, length_stringBytes]
      omega
    unfold calldataFunction
    rw [if_pos hpos]
    simp [fromStream, hread]
  obtain ⟨s₁, hcreate, h₁, hheap₁, hinterp₁⟩ := create_of_granted h (.builtin .length)
  have hvalue : getValue [0] (lit "len") s = .ok (some s.heap.length) s₁ := hcreate
  have hcallable : callableNamed (lit "len") (some s.heap.length) s₁ = .ok s.heap.length s₁ := by
    have hload : load s.heap.length s₁ = .ok (.builtin .length) s₁ :=
      load_eq_ok.mpr ⟨by rw [hheap₁]; simp, rfl⟩
    exact bind_of_ok hload
  have hwords : calldataCount { Bitstream.ofBytes data with get := 7 } =
      (limit.toNat, { Bitstream.ofBytes data with get := 11 }) := by
    unfold calldataCount
    rw [Bitstream.readWord_of_occursAt rfl hcount]
  obtain ⟨s', hloop, hend⟩ := calldataArguments_outOfGas limit.toNat []
    { Bitstream.ofBytes data with get := 11 } s₁ h₁ (by rw [hinterp₁]; exact hlt)
    (by rw [hinterp₁, hlimit]; omega) rfl hargs
  rw [hinterp₁, hlimit] at hend
  refine ⟨s', ?_, hend⟩
  unfold calldata
  rw [bind_of_ok hfunction]
  have hscope' : globalScope s = .ok [0] s := by
    rw [← hscope]
    rfl
  dsimp only
  rw [bind_of_ok hscope', bind_of_ok hvalue, bind_of_ok hcallable, hwords]
  exact bind_of_error hloop

/-- The call ends when the gas does. -/
lemma runProgram_spend {limit : UInt32} {s : State} (h : Ready limit s)
    (hpos : 0 < limit) :
    ∃ s', runProgram 2 (lenCall limit) s = .error .outOfGas s' ∧ s'.interp.numExecutionSteps = limit := by
  have hlt : s.interp.numExecutionSteps.toNat < s.interp.executionStepLimit.toNat := by
    rw [h.steps_eq, h.limit_eq]
    exact UInt32.lt_iff_toNat_lt.mp hpos
  have hscope : globalScope s = .ok [0] s := by
    rw [← h.scope_eq]
    rfl
  rcases charge_run hlt with ⟨hlast, hcharge⟩ | ⟨hmore, hcharge⟩
  · refine ⟨tick s, ?_, ?_⟩
    · exact bind_of_error ((bind_of_ok hscope).trans (bind_of_error (bind_of_error hcharge)))
    · apply UInt32.toNat_inj.mp
      rw [toNat_steps_tick hlt, hlast, h.limit_eq]
  · rw [h.steps_eq, h.limit_eq, UInt32.toNat_zero] at hmore
    obtain ⟨v, s₁, hexecute, h₁, hscope₁, hsteps₁, hlimit₁⟩ := execute_empty h hmore
    obtain ⟨s', hcall, hend⟩ := calldata_lenCall h₁ hscope₁ (by rw [hsteps₁, hlimit₁]; exact hmore) hlimit₁
    exact ⟨s', (bind_of_ok hexecute).trans (bind_of_error hcall), hend⟩

/-- A call whose gas does not fit 32 bits can report too little. -/
lemma fits_of_reportsPrice {gas : UInt64} {gasprice : UInt32} (hlimit : LimitIsQuotient gas gasprice)
    (h : ReportsPrice gas gasprice) : gas.toNat / gasprice.toNat * gasprice.toNat < 2 ^ 32 := by
  obtain ⟨-, hpos, hsmall⟩ := (limitIsQuotient_iff gas gasprice).mp hlimit
  have hlimit_eq : (gas / gasprice.toUInt64).toUInt32.toNat = gas.toNat / gasprice.toNat := by
    rw [limit_toNat, Nat.mod_eq_of_lt hsmall]
  obtain ⟨s, hsetup, hready⟩ := ready_of_setup hlimit
  obtain ⟨s', hrun, hsteps⟩ := runProgram_spend hready
    (UInt32.lt_iff_toNat_lt.mpr (by rw [hlimit_eq]; exact hpos))
  have hout : ∃ out, Library.executeProgram textArchive noAddresses .dummy 2 (spend gas gasprice)
      (processAfter (fun _ => 0) 0) = .ok out := by
    unfold Library.executeProgram
    simp only [hsetup]
    have hrun' : runProgram 2 (spend gas gasprice).data s = .error .outOfGas s' := hrun
    simp only [hrun', Exn.returnCode]
    exact ⟨_, rfl⟩
  obtain ⟨out, hout⟩ := hout
  obtain ⟨hexact, -⟩ := h _ _ _ _ _ _ s out rfl rfl hsetup hout
  have hsteps' : stepsOf 2 (spend gas gasprice) s = gas.toNat / gasprice.toNat := by
    have hfinal : finalState (runProgram 2 (spend gas gasprice).data) s = s' := finalState_of_error hrun
    unfold stepsOf
    rw [hfinal, hsteps, hlimit_eq]
  have hused := usedG_of_executeProgram hsetup hout
  rw [hsteps'] at hexact
  rw [hexact] at hused
  have hmod : gas.toNat / gasprice.toNat * gasprice.toNat % 2 ^ 32 < 2 ^ 32 := Nat.mod_lt _ (by decide)
  rw [hsteps'] at hused
  have hprice : (spend gas gasprice).gasprice = gasprice := rfl
  rw [hprice] at hused
  omega

/-- The gas price arithmetic is exact and total for all programs exactly when the price is not
zero, the gas buys a step, and the gas the limit pays for fits 32 bits. -/
theorem gasPrice_exact_iff (gas : UInt64) (gasprice : UInt32) :
    LimitIsQuotient gas gasprice ∧ ReportsPrice gas gasprice ↔
      0 < gasprice.toNat ∧ gasprice.toNat ≤ gas.toNat ∧
        gas.toNat / gasprice.toNat * gasprice.toNat < 2 ^ 32 := by
  constructor
  · rintro ⟨hlimit, hreports⟩
    obtain ⟨hprice, hpos, -⟩ := (limitIsQuotient_iff gas gasprice).mp hlimit
    have hprice_pos : 0 < gasprice.toNat := by
      by_contra hzero
      exact hprice (UInt32.toNat_inj.mp (by rw [UInt32.toNat_zero]; omega))
    exact ⟨hprice_pos, (Nat.div_pos_iff.mp hpos).2, fits_of_reportsPrice hlimit hreports⟩
  · rintro ⟨hprice, hle, hfits⟩
    have hne : gasprice ≠ 0 := by
      rintro rfl
      exact absurd hprice (by decide)
    have hquotient : gas.toNat / gasprice.toNat ≤ gas.toNat / gasprice.toNat * gasprice.toNat :=
      Nat.le_mul_of_pos_right _ hprice
    exact ⟨(limitIsQuotient_iff gas gasprice).mpr ⟨hne, Nat.div_pos hle hprice, by omega⟩,
      reportsPrice_of_fits hfits⟩

/-- With the price one, the gas 4294967296 becomes the limit zero. -/
theorem gasPrice_exact_wide_false :
    ¬(LimitIsQuotient 4294967296 1 ∧ ReportsPrice 4294967296 1) := by
  rintro ⟨hlimit, -⟩
  obtain ⟨s', hok, -⟩ := hlimit (startState [] 0)
  have hzero := (limitFromGas_eq_ok hok).2.1
  exact hzero (by decide)

end ContractPython.Proofs
