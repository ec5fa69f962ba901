import ContractPython.Proofs.Nodes

/-!
# Two runs side by side

`Related S T F d Ψ` lists what a relation between two computations has to satisfy so that it
relates every node, every call and every run of the interpreter to itself, whatever the bytecode
is. `S` relates the scopes of the two runs, `T` those whose own flags are touched, and `F` the
frames pushed on the way. The second run has `d` more fuel, and the relation may depend on the
fuel of the first one: each charge pays for one unit of it.
-/

namespace ContractPython.Proofs

open Program M

/-- Two interpreters that differ in their global scopes only. -/
structure Twins (T : ScopeRef → ScopeRef → Prop) (pyint pyint' : Interp) : Prop where
  scope : T pyint.globalScope pyint'.globalScope
  rest : pyint' = { pyint with globalScope := pyint'.globalScope }

/-- The conditions on a relation of computations for what a call does before the body of the
function runs. -/
structure Calling (S T : ScopeRef → ScopeRef → Prop) (F : Nat → Nat → Prop)
    (Ψ : ∀ α : Type, M α → M α → Prop) : Prop where
  congruence : Congruence Ψ
  throw : ∀ {α : Type} (e : Exn), ordinary e = true → Ψ α (throw e) (throw e)
  malloc : Ψ _ malloc malloc
  makeShared : ∀ v, Ψ _ (makeShared v) (makeShared v)
  own : ∀ {sc sc'}, T sc sc' → S sc sc'
  push : ∀ {id id' sc sc'}, F id id' → S sc sc' → T (id :: sc) (id' :: sc')
  root : ∀ {id id'}, F id id' → T [id] [id']
  length_eq : ∀ {sc sc'}, S sc sc' → sc.length = sc'.length
  setValue : ∀ {sc sc'} name value, S sc sc' → Ψ _ (setValue sc name value) (setValue sc' name value)
  requireGlobal : ∀ {sc sc'}, T sc sc' → Ψ _ (requireGlobal sc) (requireGlobal sc')
  withFrame : ∀ {α} {f g : Nat → M α}, (∀ id id', F id id' → Ψ _ (f id) (g id')) →
    Ψ _ (withFrame f) (withFrame g)
  checkLimit : Ψ _ checkLimit checkLimit

namespace Calling

variable {S T : ScopeRef → ScopeRef → Prop} {F : Nat → Nat → Prop}
  {Ψ : ∀ α : Type, M α → M α → Prop} (h : Calling S T F Ψ) {sc sc' : ScopeRef}
include h

lemma pure {α : Type} (a : α) : Ψ α (pure a) (pure a) := h.congruence.pure a

lemma bind {α β : Type} {x y : M α} {f g : α → M β} (hx : Ψ α x y) (hf : ∀ a, Ψ β (f a) (g a)) :
    Ψ β (x >>= f) (y >>= g) := h.congruence.bind hx hf

lemma throwIf (cond : Bool) (what : Str) : Ψ _ (throwIf cond what) (throwIf cond what) := by
  cases cond
  · exact h.pure ()
  · exact h.throw _ rfl

lemma withScope {α : Type} {f g : ScopeRef → M α} (hs : S sc sc')
    (hbody : ∀ {b b'}, T b b' → Ψ _ (f b) (g b')) : Ψ _ (withScope sc f) (withScope sc' g) := by
  unfold M.withScope
  rw [← h.length_eq hs]
  split
  · exact h.throw _ rfl
  · exact h.withFrame fun _ _ hid => hbody (h.push hid hs)

lemma bindDefaults (hs : S sc sc') (l : List (Str × ValuePtr)) :
    Ψ _ (bindDefaults sc l) (bindDefaults sc' l) := by
  induction l with
  | nil => exact h.pure _
  | cons b rest ih =>
    obtain ⟨name, default⟩ := b
    cases default with
    | some v => exact h.bind (h.setValue _ _ hs) fun _ => ih
    | none => exact h.bind ih fun _ => h.pure _

lemma bindArguments (hs : S sc sc') (l : List (Str × ValuePtr)) :
    Ψ _ (bindArguments sc l) (bindArguments sc' l) := by
  induction l with
  | nil => exact h.pure _
  | cons b rest ih => exact h.bind (h.setValue _ _ hs) fun _ => ih

lemma withInterpreter {α : Type} {code : List UInt8} {f g : Interp → M α}
    (hbody : ∀ {pyint pyint'}, Twins T pyint pyint' → Ψ _ (f pyint) (g pyint')) :
    Ψ _ (withInterpreter code f) (withInterpreter code g) :=
  h.bind h.malloc fun _ => h.withFrame fun _ _ hid =>
    h.bind (h.makeShared _) fun _ => h.bind (h.setValue _ _ (h.own (h.root hid))) fun _ =>
    hbody ⟨h.root hid, rfl⟩

/-- A call is related when the runs of the function's body are. -/
lemma callVMFunction {rec rec' : Rec} (writeBack : Bool) (hs : S sc sc')
    (hcallee : ∀ {pyint pyint' b b'}, Twins T pyint pyint' → T b b' →
      Ψ _ (runCallee writeBack pyint (evaluate rec b)) (runCallee writeBack pyint' (evaluate rec' b')))
    (code : List UInt8) (params : List Str) (defaults args : List ValuePtr) :
    Ψ _ (callVMFunction rec writeBack code params defaults args sc)
      (callVMFunction rec' writeBack code params defaults args sc') :=
  h.withScope hs fun hb => h.bind (h.requireGlobal hb) fun _ => h.withInterpreter fun hpyint =>
    h.bind h.checkLimit fun _ => h.bind (h.throwIf _ _) fun _ =>
    h.bind (h.bindDefaults (h.own hb) _) fun _ => h.bind (h.throwIf _ _) fun _ =>
    h.bind (h.bindArguments (h.own hb) _) fun _ => hcallee hpyint hb

end Calling

/-- The conditions on a relation of computations for the member functions that look an address
up. -/
structure LooksUp (S : ScopeRef → ScopeRef → Prop) (Ψ : ∀ α : Type, M α → M α → Prop) : Prop where
  congruence : Congruence Ψ
  values : Values fun α x => Ψ α x x
  findValue : ∀ {sc sc'} name, S sc sc' → Ψ _ (findValue sc name) (findValue sc' name)
  hasValue : ∀ {sc sc'} name, S sc sc' → Ψ _ (hasValue sc name) (hasValue sc' name)

namespace LooksUp

variable {S : ScopeRef → ScopeRef → Prop} {Ψ : ∀ α : Type, M α → M α → Prop} (h : LooksUp S Ψ)
  {sc sc' : ScopeRef}
include h

lemma bind {α β : Type} {x y : M α} {f g : α → M β} (hx : Ψ α x y) (hf : ∀ a, Ψ β (f a) (g a)) :
    Ψ β (x >>= f) (y >>= g) := h.congruence.bind hx hf

lemma throwIf (cond : Bool) (what : Str) : Ψ _ (throwIf cond what) (throwIf cond what) :=
  h.values.objects.throwIf cond what

lemma getValue (hs : S sc sc') (name : Str) : Ψ _ (getValue sc name) (getValue sc' name) :=
  getValue_congr h.congruence h.values.objects (h.findValue name hs)

lemma addressArgument (hs : S sc sc') : Ψ _ (addressArgument sc) (addressArgument sc') := by
  refine h.bind (h.hasValue _ hs) fun _ => h.bind (h.throwIf _ _) fun _ =>
    h.bind (h.getValue hs _) fun v => ?_
  cases v with
  | none => exact h.values.objects.throwRuntime _
  | some p => exact h.values.str p

lemma validAddress (hs : S sc sc') : Ψ _ (validAddress sc) (validAddress sc') :=
  h.bind (h.addressArgument hs) fun a => h.bind (h.throwIf _ _) fun _ =>
    h.bind (h.values.checkAddress a) fun _ => h.bind (h.throwIf _ _) fun _ => h.congruence.pure a

section Transfers

variable (hset : ∀ sendMap balance, Ψ _ (setFunds sendMap balance) (setFunds sendMap balance))
include hset

/-- A transfer is related when each write of the funds is. -/
lemma send (hs : S sc sc') : Ψ _ (send sc) (send sc') :=
  h.bind (h.validAddress hs) fun _ => h.bind (h.hasValue _ hs) fun _ =>
    h.bind (h.throwIf _ _) fun _ => h.bind (h.getValue hs _) fun v =>
    h.bind (h.values.unpackInteger v) fun _ => h.bind h.values.getChain fun _ =>
    h.bind (h.throwIf _ _) fun _ => h.bind (h.values.creditReceiver hset _ _ _) fun _ =>
    h.bind h.values.getChain fun _ => h.bind (hset _ _) fun _ =>
    h.bind (h.throwIf _ _) fun _ => h.values.create _

lemma suicide (hs : S sc sc') : Ψ _ (suicide sc) (suicide sc') :=
  h.bind (h.addressArgument hs) fun _ => h.bind h.values.getChain fun _ =>
    h.bind (h.values.creditReceiver hset _ _ _) fun _ => h.bind h.values.getChain fun _ =>
    h.bind (hset _ _) fun _ => h.values.throw _ rfl

end Transfers

end LooksUp

/-- The conditions on a relation of computations for a call of any callable object. -/
structure Calls (S T : ScopeRef → ScopeRef → Prop) (F : Nat → Nat → Prop)
    (Ψ : ∀ α : Type, M α → M α → Prop) : Prop extends Calling S T F Ψ where
  values : Values fun α x => Ψ α x x
  findValue : ∀ {sc sc'} name, S sc sc' → Ψ _ (findValue sc name) (findValue sc' name)
  hasValue : ∀ {sc sc'} name, S sc sc' → Ψ _ (hasValue sc name) (hasValue sc' name)
  send : ∀ {sc sc'}, S sc sc' → Ψ _ (send sc) (send sc')
  suicide : ∀ {sc sc'}, S sc sc' → Ψ _ (suicide sc) (suicide sc')

namespace Calls

variable {S T : ScopeRef → ScopeRef → Prop} {F : Nat → Nat → Prop}
  {Ψ : ∀ α : Type, M α → M α → Prop} (h : Calls S T F Ψ) {sc sc' : ScopeRef}
include h

lemma looksUp : LooksUp S Ψ where
  congruence := h.congruence
  values := h.values
  findValue := h.findValue
  hasValue := h.hasValue

lemma memberFunction (func : BlockchainFn) (module : Ref) (hs : S sc sc') :
    Ψ _ (memberFunction func module sc) (memberFunction func module sc') := by
  refine h.bind h.values.getChain fun chain => ?_
  cases func with
  | random => exact h.values.getRandom module
  | assertAddress => exact h.bind (h.looksUp.validAddress hs) fun _ => h.values.create _
  | send => exact h.send hs
  | revert => exact h.throw _ rfl
  | suicide => exact h.suicide hs
  | _ => exact h.values.create _

lemma callCFunction (params : List Str) (func : BlockchainFn) (module : Ref) (args : List ValuePtr)
    (hs : S sc sc') :
    Ψ _ (callCFunction params func module args sc) (callCFunction params func module args sc') :=
  h.withScope hs fun hb => h.bind (h.requireGlobal hb) fun _ => h.bind (h.throwIf _ _) fun _ =>
    h.bind (h.congruence.forM (fun _ => h.setValue _ _ (h.own hb)) _) fun _ =>
    h.memberFunction _ _ (h.own hb)

/-- A call is related when the runs of the function's body are. -/
lemma call {rec rec' : Rec} {writeBack : Bool}
    (hcallee : ∀ {pyint pyint' b b'}, Twins T pyint pyint' → T b b' →
      Ψ _ (runCallee writeBack pyint (evaluate rec b)) (runCallee writeBack pyint' (evaluate rec' b')))
    (hs : S sc sc') (callable : Ref) (args : List ValuePtr) :
    Ψ _ (call rec writeBack callable args sc) (call rec' writeBack callable args sc') := by
  refine h.bind (h.values.load callable) fun v => ?_
  split
  · exact h.callVMFunction _ hs hcallee _ _ _ _
  · exact h.values.callBuiltin _ _
  · exact h.callCFunction _ _ _ _ hs
  · split
    · exact h.bind (h.values.objects.listAppend _ _) fun _ => h.pure _
    · exact h.throw _ rfl
  · exact h.values.randint _
  · exact h.bind (h.throwIf _ _) fun _ => h.bind (h.values.objects.valueCast _ _) fun _ => h.values.create _
  · exact h.throw _ rfl

end Calls

/-- The conditions on a relation of computations. A padded read is always followed by another
read, and the cursor only goes back to where it has been. -/
structure Related (S T : ScopeRef → ScopeRef → Prop) (F : Nat → Nat → Prop) (d : Nat)
    (Ψ : Nat → ∀ α : Type, M α → M α → Prop) : Prop where
  congruence : ∀ n, Congruence (Ψ n)
  values : ∀ n, Values fun α x => Ψ n α x x
  reading : ∀ n, Reading fun α x => Ψ n α x x
  mono : ∀ {n α} {x y : M α}, Ψ (n + 1) α x y → Ψ n α x y
  paid : ∀ {n α} {x y : M α}, Ψ n α x y → Ψ (n + 1) α (do charge; x) (do charge; y)
  exhausted : ∀ {α} {y : M α}, (d = 0 → y = throw .outOfFuel) → Ψ 0 α (throw .outOfFuel) y
  skipNext : ∀ n, Ψ n _ skipNext skipNext
  readStub : ∀ n count, Ψ n _ (readStub count) (readStub count)
  record : ∀ n type ls depth,
    Ψ n _ (record (.nodeEntered type ls depth)) (record (.nodeEntered type ls depth))
  returnTo : ∀ {n α} {f g : UInt32 → M α}, (∀ start start',
    (∀ k, Ψ k _ (moveTo start) (moveTo start')) → Ψ n _ (f start) (g start')) →
    Ψ n _ (pos >>= f) (pos >>= g)
  own : ∀ {sc sc'}, T sc sc' → S sc sc'
  push : ∀ {id id' sc sc'}, F id id' → S sc sc' → T (id :: sc) (id' :: sc')
  root : ∀ {id id'}, F id id' → T [id] [id']
  length_eq : ∀ {sc sc'}, S sc sc' → sc.length = sc'.length
  findValue : ∀ n {sc sc'} name, S sc sc' → Ψ n _ (findValue sc name) (findValue sc' name)
  setValue : ∀ n {sc sc'} name value, S sc sc' → Ψ n _ (setValue sc name value) (setValue sc' name value)
  hasValue : ∀ n {sc sc'} name, S sc sc' → Ψ n _ (hasValue sc name) (hasValue sc' name)
  send : ∀ n {sc sc'}, S sc sc' → Ψ n _ (send sc) (send sc')
  suicide : ∀ n {sc sc'}, S sc sc' → Ψ n _ (suicide sc) (suicide sc')
  setGlobalTag : ∀ n {sc sc'} name, T sc sc' → Ψ n _ (setGlobalTag sc name) (setGlobalTag sc' name)
  requireGlobal : ∀ n {sc sc'}, T sc sc' → Ψ n _ (requireGlobal sc) (requireGlobal sc')
  terminate : ∀ n {sc sc'}, T sc sc' → Ψ n _ (terminate sc) (terminate sc')
  isTerminated : ∀ n {sc sc'}, T sc sc' → Ψ n _ (isTerminated sc) (isTerminated sc')
  withFrame : ∀ {n α} {f g : Nat → M α}, (∀ id id', F id id' → Ψ n _ (f id) (g id')) →
    Ψ n _ (withFrame f) (withFrame g)
  inGlobalScope : ∀ {n α} {f g : ScopeRef → M α}, (∀ sc sc', T sc sc' → Ψ n _ (f sc) (g sc')) →
    Ψ n _ (globalScope >>= f) (globalScope >>= g)
  checkLimit : ∀ n, Ψ n _ checkLimit checkLimit
  runCallee : ∀ n {writeBack pyint pyint' sc sc'}, Twins T pyint pyint' → T sc sc' →
    Ψ n _ (executeNext n sc .none) (executeNext (n + d) sc' .none) →
    (∀ k, n = k + 1 → Ψ k _ (executeCharged (executeNext k) sc k .none)
      (executeCharged (executeNext (k + d)) sc' (k + d) .none)) →
    Ψ n _ (runCallee writeBack pyint (evaluate (executeNext n) sc))
      (runCallee writeBack pyint' (evaluate (executeNext (n + d)) sc'))

/-- What the recursive calls of a node satisfy. -/
structure Recursive (T : ScopeRef → ScopeRef → Prop) (Ψ : Nat → ∀ α : Type, M α → M α → Prop)
    (n : Nat) (rec rec' : Rec) : Prop extends Executes T (Ψ n) rec rec' where
  callee : ∀ {writeBack pyint pyint' sc sc'}, Twins T pyint pyint' → T sc sc' →
    Ψ n _ (runCallee writeBack pyint (evaluate rec sc)) (runCallee writeBack pyint' (evaluate rec' sc'))

namespace Related

variable {S T : ScopeRef → ScopeRef → Prop} {F : Nat → Nat → Prop} {d : Nat}
  {Ψ : Nat → ∀ α : Type, M α → M α → Prop} (h : Related S T F d Ψ) {n : Nat} {sc sc' : ScopeRef}
include h

lemma pure {α : Type} (a : α) : Ψ n α (pure a) (pure a) := (h.congruence n).pure a

lemma bind {α β : Type} {x y : M α} {f g : α → M β} (hx : Ψ n α x y) (hf : ∀ a, Ψ n β (f a) (g a)) :
    Ψ n β (x >>= f) (y >>= g) := (h.congruence n).bind hx hf

lemma objects : Objects fun α x => Ψ n α x x := (h.values n).objects

lemma throwRuntime {α : Type} (what : Str) : Ψ n α (throwRuntime what) (throwRuntime what) :=
  h.objects.throwRuntime what

lemma throwIf (cond : Bool) (what : Str) : Ψ n _ (throwIf cond what) (throwIf cond what) :=
  h.objects.throwIf cond what

lemma create (v : Value) : Ψ n _ (create v) (create v) := (h.values n).create v

lemma assertGeneric (p : ValuePtr) : Ψ n _ (assertGeneric p) (assertGeneric p) :=
  h.objects.assertGeneric p

lemma load (r : Ref) : Ψ n _ (load r) (load r) := h.objects.load r

lemma readWord : Ψ n _ readWord readWord := (h.reading n).readWord

lemma readName : Ψ n _ readName readName := (h.reading n).readName

/-- The straight nodes are related. -/
lemma straight : Straight S T (Ψ n) where
  congruence := h.congruence n
  objects := h.objects
  reading := h.reading n
  skipNext := h.skipNext n
  readStub := h.readStub n
  own := h.own
  findValue := h.findValue n
  setValue := h.setValue n
  setGlobalTag := h.setGlobalTag n
  terminate := h.terminate n
  isTerminated := h.isTerminated n
  inGlobalScope := h.inGlobalScope

/-- So is a call. -/
lemma calls : Calls S T F (Ψ n) where
  congruence := h.congruence n
  throw := (h.values n).throw
  malloc := (h.values n).malloc
  makeShared := (h.values n).makeShared
  own := h.own
  push := h.push
  root := h.root
  length_eq := h.length_eq
  setValue := h.setValue n
  requireGlobal := h.requireGlobal n
  withFrame := h.withFrame
  checkLimit := h.checkLimit n
  values := h.values n
  findValue := h.findValue n
  hasValue := h.hasValue n
  send := h.send n
  suicide := h.suicide n

/-! ### Scopes -/

lemma withScope {α : Type} {f g : ScopeRef → M α} (hs : S sc sc')
    (hbody : ∀ {b b'}, T b b' → Ψ n _ (f b) (g b')) : Ψ n _ (withScope sc f) (withScope sc' g) :=
  h.calls.withScope hs hbody

lemma bindNames (hs : S sc sc') (names : List Str) (next : ValuePtr) :
    Ψ n _ (bindNames sc names next) (bindNames sc' names next) := by
  unfold M.bindNames
  split
  · exact h.setValue n _ _ hs
  · exact h.bind (h.objects.valueCast _ _) fun _ => h.bind (h.objects.tupleGet _ _) fun _ =>
      h.bind (h.setValue n _ _ hs) fun _ => h.bind (h.objects.tupleGet _ _) fun _ =>
      h.setValue n _ _ hs
  · exact h.throwRuntime _

/-! ### Calls -/

section Nodes

variable {rec rec' : Rec} (hrec : Recursive T Ψ n rec rec')
include hrec

/-- A call of any callable object. -/
lemma call (hs : S sc sc') (writeBack : Bool) (callable : Ref) (args : List ValuePtr) :
    Ψ n _ (call rec writeBack callable args sc) (call rec' writeBack callable args sc') :=
  h.calls.call hrec.callee hs callable args

/-! ### The nodes -/

lemma assignTarget (hs : T sc sc') (val : Ref) :
    Ψ n _ (assignTarget rec sc val) (assignTarget rec' sc' val) := by
  refine h.bind (h.reading n).peekType fun lookAhead => ?_
  split
  · refine h.bind (h.reading n).readType fun _ => h.bind (h.straight.evaluate hrec.toExecutes hs) fun _ =>
      h.bind (h.assertGeneric _) fun _ => h.bind h.readName fun _ =>
      h.bind (h.straight.getValue (h.own hs) _) fun _ => h.bind (h.objects.subscriptTarget _ _) fun _ =>
      h.bind (h.load _) fun v => ?_
    split
    · exact h.bind (h.objects.dictKey _) fun _ => h.objects.dictInsert _ _ _
    · exact h.bind (h.objects.dictKey _) fun _ => (h.values n).storeInsert _ _ _
    · exact h.bind (h.objects.listKey _) fun _ => h.objects.listSet _ _ _
    · exact h.throwRuntime _
  · refine h.bind (h.reading n).readNames fun names => ?_
    split
    · exact h.setValue n _ _ (h.own hs)
    · refine h.bind (h.load _) fun v => ?_
      split
      · exact h.bind (h.objects.tupleGet _ _) fun _ => h.bind (h.setValue n _ _ (h.own hs)) fun _ =>
          h.bind (h.objects.tupleGet _ _) fun _ => h.setValue n _ _ (h.own hs)
      · exact h.throwRuntime _
    · exact h.throwRuntime _

lemma execAssign (hs : T sc sc') : Ψ n _ (execAssign rec sc) (execAssign rec' sc') :=
  h.bind (h.straight.evaluate hrec.toExecutes hs) fun _ => h.bind (h.assertGeneric _) fun _ =>
    h.bind (h.straight.chargedLoop (h.assignTarget hrec hs _)) fun _ => h.pure _

lemma argumentStep (hs : T sc sc') (args : List ValuePtr) :
    Ψ n _ (argumentStep rec sc args) (argumentStep rec' sc' args) :=
  h.bind (h.reading n).charge fun _ => h.bind (h.straight.evaluate hrec.toExecutes hs) fun _ => h.pure _

lemma execCall (hs : T sc sc') : Ψ n _ (execCall rec sc) (execCall rec' sc') :=
  h.bind (h.straight.evaluate hrec.toExecutes hs) fun _ => h.bind (h.assertGeneric _) fun _ =>
    h.bind (h.load _) fun _ => h.bind (h.throwIf _ _) fun _ => h.bind h.readWord fun _ =>
    h.bind ((h.congruence n).iterateM (h.argumentStep hrec hs) _ _) fun _ =>
    h.call hrec (h.own hs) _ _ _

omit hrec in
lemma propagateReturn {b b' : ScopeRef} (hs : T sc sc') (hb : T b b') (ret : ValuePtr)
    (res : ValuePtr × LoopState) :
    Ψ n _ (propagateReturn sc b ret res) (propagateReturn sc' b' ret res) := by
  refine h.bind (h.isTerminated n hb) fun terminated => ?_
  split
  · exact h.bind (h.terminate n hs) fun _ => h.pure _
  · exact h.pure _

omit hrec in
lemma recursive_mono {k : Nat} (hk : Recursive T Ψ (k + 1) rec rec') : Recursive T Ψ k rec rec' where
  exec ls hs := h.mono (hk.exec ls hs)
  callee hp hs := h.mono (hk.callee hp hs)

end Nodes

/-! ### The loops -/

section Loops

variable {rec rec' : Rec}

lemma whileRounds (hs : T sc sc') {start start' : UInt32}
    (hstart : ∀ k, Ψ k _ (moveTo start) (moveTo start')) (k : Nat) (hrec : Recursive T Ψ k rec rec')
    (ls : LoopState) (ret : ValuePtr) :
    Ψ k _ (whileRounds rec sc start k ls ret) (whileRounds rec' sc' start' (k + d) ls ret) := by
  induction k generalizing ls ret with
  | zero =>
    apply h.exhausted
    rintro rfl
    rfl
  | succ k ih =>
    have hrec' := h.recursive_mono hrec
    rw [Nat.add_right_comm]
    refine h.bind (h.isTerminated _ hs) fun terminated => ?_
    split
    · exact h.pure _
    · refine h.paid (h.bind (hstart k) fun _ => h.bind (h.straight.evaluate hrec'.toExecutes hs) fun _ =>
        h.bind (h.objects.boolTest _) fun b => ?_)
      split
      · exact h.bind (h.withScope (h.own hs) fun hb => h.bind (hrec'.exec _ hb) fun _ =>
          h.propagateReturn hs hb _ _) fun _ => ih hrec' _ _
      · exact h.pure _

lemma execWhileLoop (hs : T sc sc') (hrec : Recursive T Ψ n rec rec') :
    Ψ n _ (execWhileLoop rec sc n) (execWhileLoop rec' sc' (n + d)) :=
  h.returnTo fun _ _ hstart => h.bind (h.whileRounds hs hstart n hrec _ _) fun _ =>
    h.bind (h.skipNext n) fun _ => h.pure _

lemma forRounds (hs : T sc sc') (names : List Str) (iter : Ref) (k : Nat)
    (hrec : Recursive T Ψ k rec rec') (ls : LoopState) (ret : ValuePtr) :
    Ψ k _ (forRounds rec sc names iter k ls ret) (forRounds rec' sc' names iter (k + d) ls ret) := by
  induction k generalizing ls ret with
  | zero =>
    apply h.exhausted
    rintro rfl
    rfl
  | succ k ih =>
    have hrec' := h.recursive_mono hrec
    rw [Nat.add_right_comm]
    refine h.bind (h.isTerminated _ hs) fun terminated => ?_
    split
    · exact h.pure _
    · refine h.paid (h.bind (h.withScope (h.own hs) fun hb =>
        h.bind ((h.values k).tryNext iter) fun next => ?_) fun round => ?_)
      · cases next with
        | none => exact h.pure _
        | some next =>
          exact h.bind (h.bindNames (h.own hb) _ _) fun _ => h.bind (hrec'.exec _ hb) fun _ =>
            h.bind (h.propagateReturn hs hb _ _) fun _ => h.pure _
      · split
        · exact h.pure _
        · exact ih hrec' _ _

lemma execForLoop (hs : T sc sc') (hrec : Recursive T Ψ n rec rec') :
    Ψ n _ (execForLoop rec sc n) (execForLoop rec' sc' (n + d)) :=
  h.bind (h.reading n).readNames fun _ => h.bind (h.straight.evaluate hrec.toExecutes hs) fun _ =>
    h.bind ((h.values n).loopIterator _) fun _ => h.bind (h.forRounds hs _ _ n hrec _ _) fun _ =>
    h.bind (h.skipNext n) fun _ => h.pure _

lemma listCompRounds (hs : T sc sc') (target : Str) (iter list : Ref) {bodyPos bodyPos' : UInt32}
    (hbody : ∀ k, Ψ k _ (moveTo bodyPos) (moveTo bodyPos')) (k : Nat)
    (hrec : Recursive T Ψ k rec rec') (ls : LoopState) :
    Ψ k _ (listCompRounds rec sc target iter list bodyPos k ls)
      (listCompRounds rec' sc' target iter list bodyPos' (k + d) ls) := by
  induction k generalizing ls with
  | zero =>
    apply h.exhausted
    rintro rfl
    rfl
  | succ k ih =>
    have hrec' := h.recursive_mono hrec
    rw [Nat.add_right_comm]
    refine h.bind (h.isTerminated _ hs) fun terminated => ?_
    split
    · exact h.pure _
    · refine h.paid (h.bind ((h.values k).tryNext iter) fun next => ?_)
      split
      · exact h.pure _
      · exact h.bind (h.withScope (h.own hs) fun hb => h.bind (h.setValue k _ _ (h.own hb)) fun _ =>
          h.bind (hbody k) fun _ => h.bind (hrec'.exec _ hb) fun _ =>
          h.bind (h.objects.listAppend _ _) fun _ => h.pure _) fun _ => ih hrec' _

lemma execListComp (hs : T sc sc') (hrec : Recursive T Ψ n rec rec') (ls : LoopState) :
    Ψ n _ (execListComp rec sc n ls) (execListComp rec' sc' (n + d) ls) :=
  h.returnTo fun _ _ hbody => h.bind (h.skipNext n) fun _ => h.bind h.readWord fun _ =>
    h.bind (h.throwIf _ _) fun _ => h.bind (h.reading n).readType fun _ => h.bind (h.throwIf _ _) fun _ =>
    h.bind h.readName fun _ => h.bind ((h.values n).alloc _) fun _ => h.bind (hrec.exec _ hs) fun _ =>
    h.bind (h.objects.castIterator _) fun _ => h.bind (h.skipNext n) fun _ =>
    h.returnTo fun _ _ hend => h.bind (h.listCompRounds hs _ _ _ hbody n hrec _) fun _ =>
    h.bind (hend n) fun _ => h.pure _

lemma execAugmentedAssign (hs : T sc sc') (hrec : Recursive T Ψ n rec rec') :
    Ψ n _ (execAugmentedAssign rec sc) (execAugmentedAssign rec' sc') := by
  refine h.bind h.readWord fun op => h.bind (h.reading n).peekType fun lookAhead => ?_
  split
  · refine h.bind (h.reading n).readType fun _ => h.bind (h.straight.evaluate hrec.toExecutes hs) fun _ =>
      h.bind (h.assertGeneric _) fun _ => h.bind h.readName fun _ =>
      h.bind (h.straight.getValue (h.own hs) _) fun _ => h.bind (h.straight.evaluate hrec.toExecutes hs) fun _ =>
      h.bind (h.objects.subscriptTarget _ _) fun _ => h.bind (h.load _) fun v => ?_
    split
    · exact h.bind (h.objects.dictKey _) fun _ =>
        h.bind ((h.values n).dictApply _ _ _ _) fun _ => h.pure _
    · exact h.bind (h.objects.dictKey _) fun _ =>
        h.bind ((h.values n).storeApply _ _ _ _) fun _ => h.pure _
    · exact h.bind (h.objects.listKey _) fun _ =>
        h.bind ((h.values n).listApply _ _ _ _) fun _ => h.pure _
    · exact h.bind (h.throwRuntime _) fun _ => h.pure _
  · exact h.bind h.readName fun _ => h.bind (h.straight.getValue (h.own hs) _) fun _ =>
      h.bind (h.straight.evaluate hrec.toExecutes hs) fun _ => h.bind ((h.values n).augmentName _ _ _) fun _ => h.pure _

/-! ### Function definitions -/

/-- The switch of `execute_next`. -/
lemma execNode (hs : T sc sc') (hrec : Recursive T Ψ n rec rec') (ls : LoopState) (type : NodeType) :
    Ψ n _ (execNode rec sc n ls type) (execNode rec' sc' (n + d) ls type) := by
  cases type with
  | assign => exact h.straight.keep (h.execAssign hrec hs) ls
  | call => exact h.straight.keep (h.execCall hrec hs) ls
  | whileLoop => exact h.straight.keep (h.execWhileLoop hs hrec) ls
  | forLoop => exact h.straight.keep (h.execForLoop hs hrec) ls
  | listComp => exact h.execListComp hs hrec ls
  | augmentedAssign => exact h.straight.keep (h.execAugmentedAssign hs hrec) ls
  | _ => exact h.straight.execNode hrec.toExecutes hs _ _ ls rfl

/-- `execute_next` after its first charge. -/
lemma executeCharged (hs : T sc sc') (hrec : Recursive T Ψ n rec rec') (ls : LoopState) :
    Ψ n _ (executeCharged rec sc n ls) (executeCharged rec' sc' (n + d) ls) := by
  have hdepth : Scope.depth sc = Scope.depth sc' := by
    unfold Scope.depth
    rw [h.length_eq (h.own hs)]
  unfold M.executeCharged checkTopLevel
  rw [hdepth]
  refine h.returnTo fun start start' hstart => h.bind (h.reading n).readType fun type =>
    h.bind (h.throwIf _ _) fun _ => h.bind (h.record n _ _ _) fun _ =>
    h.bind (h.execNode hs hrec _ _) fun res => ?_
  unfold M.epilogue
  split
  · exact h.bind (hstart n) fun _ => h.pure _
  · exact h.pure _

end Loops

lemma recursive (n : Nat) : Recursive T Ψ n (executeNext n) (executeNext (n + d)) := by
  induction n with
  | zero =>
    have hstuck : ∀ {sc sc' : ScopeRef} (ls : LoopState),
        Ψ 0 _ (M.executeNext 0 sc ls) (M.executeNext (0 + d) sc' ls) := by
      intro sc sc' ls
      apply h.exhausted
      rintro rfl
      rfl
    exact ⟨⟨fun ls _ => hstuck ls⟩, fun hp hs =>
      h.runCallee 0 hp hs (hstuck _) fun k hk => absurd hk (by omega)⟩
  | succ n ih =>
    have hexec : ∀ {sc sc'} ls, T sc sc' →
        Ψ (n + 1) _ (M.executeNext (n + 1) sc ls) (M.executeNext (n + 1 + d) sc' ls) := by
      intro sc sc' ls hs
      rw [Nat.add_right_comm]
      exact h.paid (h.executeCharged hs ih ls)
    refine ⟨⟨hexec⟩, fun hp hs => h.runCallee (n + 1) hp hs (hexec _ hs) ?_⟩
    rintro k hk
    obtain rfl : n = k := by omega
    exact h.executeCharged hs ih .none

/-- The execution of whatever node the cursor stands at is related to itself. -/
theorem executeNext (hs : T sc sc') (ls : LoopState) :
    Ψ n _ (M.executeNext n sc ls) (M.executeNext (n + d) sc' ls) := (h.recursive n).exec ls hs

/-! ### Whole runs -/

lemma execute : Ψ n _ (execute n) (execute (n + d)) :=
  h.inGlobalScope fun _ _ hs => h.straight.evaluate (h.recursive n).toExecutes hs

lemma fromStream {α : Type} (f : Bitstream → Option α × Bitstream) (b : Bitstream) :
    Ψ n _ (fromStream f b) (fromStream f b) := by
  unfold M.fromStream
  split
  · exact h.pure _
  · exact h.throwRuntime _

lemma calldataArgument (acc : List ValuePtr × Bitstream) :
    Ψ n _ (calldataArgument acc) (calldataArgument acc) := by
  refine h.bind (h.reading n).charge fun _ => h.bind (h.fromStream _ _) fun (argtype, b) => ?_
  dsimp only
  split
  · exact h.bind (h.fromStream _ _) fun _ => h.bind (h.create _) fun _ => h.pure _
  · exact h.bind (h.fromStream _ _) fun _ => h.bind (h.create _) fun _ => h.pure _
  · exact h.bind (h.fromStream _ _) fun _ => h.bind (h.create _) fun _ => h.pure _
  · exact h.bind (h.fromStream _ _) fun _ => h.bind (h.create _) fun _ => h.pure _
  · exact h.throwRuntime _

lemma calldataFunction (data : Str) : Ψ n _ (calldataFunction data) (calldataFunction data) := by
  unfold M.calldataFunction
  split
  · exact h.fromStream _ _
  · exact h.pure _

lemma callableNamed (function : Str) (value : ValuePtr) :
    Ψ n _ (callableNamed function value) (callableNamed function value) := by
  cases value with
  | none => exact h.throwRuntime _
  | some r => exact h.bind (h.load r) fun _ => h.bind (h.throwIf _ _) fun _ => h.pure r

/-- A call from outside. -/
lemma calldata (data : Str) : Ψ n _ (calldata n data) (calldata (n + d) data) :=
  h.bind (h.calldataFunction data) fun _ => h.inGlobalScope fun _ _ hs =>
    h.bind (h.straight.getValue (h.own hs) _) fun _ => h.bind (h.callableNamed _ _) fun _ =>
    h.bind ((h.congruence n).iterateM h.calldataArgument _ _) fun _ =>
    h.call (h.recursive n) (h.own hs) _ _ _

/-- A whole run is related to itself. -/
theorem runProgram (data : Str) : Ψ n _ (runProgram n data) (runProgram (n + d) data) :=
  h.bind h.execute fun _ => h.bind (h.calldata data) fun _ => h.pure _

end Related

end ContractPython.Proofs
