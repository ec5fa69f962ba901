import ContractPython.Proofs.Values

/-!
# Straight nodes

Most nodes evaluate their operands in the scope they stand in, make an object of the results or
bind a name to it. `Straight S T Ψ` lists what a relation between two computations has to satisfy
to relate each of these nodes to itself; `S` relates the scopes of the two runs and `T` those
whose own flags are touched. Loops, calls and assignments are not among them.
-/

namespace ContractPython.Proofs

open Program M

/-- `Read`, and the read after it, which fails when `Read` met the end of the stream. -/
def readStub (count : UInt32) : M (Str × UInt32) := do
  let stub ← readPadded count
  let next ← readWord
  pure (stub, next)

/-- A name that is no builtin is looked up. -/
lemma getValue_congr {Ψ : ∀ α : Type, M α → M α → Prop} {sc sc' : ScopeRef} {name : Str}
    (hc : Congruence Ψ) (ho : Objects fun α x => Ψ α x x)
    (hfind : Ψ _ (findValue sc name) (findValue sc' name)) :
    Ψ _ (getValue sc name) (getValue sc' name) := by
  unfold M.getValue
  split
  · exact hc.pure _
  · split
    · exact ho.create _ rfl
    · refine hc.bind hfind fun v => ?_
      cases v with
      | none => exact ho.throwRuntime _
      | some v => exact hc.pure v

/-- The conditions on a relation of computations for the straight nodes. A padded read is always
followed by another read. -/
structure Straight (S T : ScopeRef → ScopeRef → Prop) (Ψ : ∀ α : Type, M α → M α → Prop) : Prop where
  congruence : Congruence Ψ
  objects : Objects fun α x => Ψ α x x
  reading : Reading fun α x => Ψ α x x
  skipNext : Ψ _ skipNext skipNext
  readStub : ∀ count, Ψ _ (readStub count) (readStub count)
  own : ∀ {sc sc'}, T sc sc' → S sc sc'
  findValue : ∀ {sc sc'} name, S sc sc' → Ψ _ (findValue sc name) (findValue sc' name)
  setValue : ∀ {sc sc'} name value, S sc sc' → Ψ _ (setValue sc name value) (setValue sc' name value)
  setGlobalTag : ∀ {sc sc'} name, T sc sc' → Ψ _ (setGlobalTag sc name) (setGlobalTag sc' name)
  terminate : ∀ {sc sc'}, T sc sc' → Ψ _ (terminate sc) (terminate sc')
  isTerminated : ∀ {sc sc'}, T sc sc' → Ψ _ (isTerminated sc) (isTerminated sc')
  inGlobalScope : ∀ {α} {f g : ScopeRef → M α}, (∀ sc sc', T sc sc' → Ψ _ (f sc) (g sc')) →
    Ψ _ (globalScope >>= f) (globalScope >>= g)

/-- The recursive calls of a node are related. -/
structure Executes (T : ScopeRef → ScopeRef → Prop) (Ψ : ∀ α : Type, M α → M α → Prop)
    (rec rec' : Rec) : Prop where
  exec : ∀ {sc sc'} ls, T sc sc' → Ψ _ (rec sc ls) (rec' sc' ls)

/-- The node types that are not straight. -/
def NodeType.isStraight : NodeType → Bool
  | .assign | .augmentedAssign | .call | .whileLoop | .forLoop | .listComp => false
  | _ => true

namespace Straight

variable {S T : ScopeRef → ScopeRef → Prop} {Ψ : ∀ α : Type, M α → M α → Prop} (h : Straight S T Ψ)
  {sc sc' : ScopeRef}
include h

lemma pure {α : Type} (a : α) : Ψ α (pure a) (pure a) := h.congruence.pure a

lemma bind {α β : Type} {x y : M α} {f g : α → M β} (hx : Ψ α x y) (hf : ∀ a, Ψ β (f a) (g a)) :
    Ψ β (x >>= f) (y >>= g) := h.congruence.bind hx hf

lemma chargedLoop {x y : M Unit} (hx : Ψ _ x y) : Ψ _ (chargedLoop x) (chargedLoop y) :=
  Reading.chargedLoop h.congruence h.reading hx

lemma getValue (hs : S sc sc') (name : Str) : Ψ _ (getValue sc name) (getValue sc' name) :=
  getValue_congr h.congruence h.objects (h.findValue name hs)

lemma loadFromModule (hs : S sc sc') (module name asName : Str) :
    Ψ _ (loadFromModule sc module name asName) (loadFromModule sc' module name asName) :=
  h.bind (h.objects.getModule module) fun _ => h.bind (h.objects.getMember _ _) fun _ =>
    h.setValue _ _ hs

lemma loadModule (hs : S sc sc') (name asName : Str) :
    Ψ _ (loadModule sc name asName) (loadModule sc' name asName) :=
  h.bind (h.objects.getModule name) fun _ => h.setValue _ _ hs

section Nodes

variable {rec rec' : Rec} (hrec : Executes T Ψ rec rec')
include hrec

lemma evaluate (hs : T sc sc') : Ψ _ (evaluate rec sc) (evaluate rec' sc') :=
  h.bind (hrec.exec .none hs) fun _ => h.pure _

lemma execImportFrom (hs : T sc sc') : Ψ _ (execImportFrom rec sc) (execImportFrom rec' sc') := by
  refine h.bind h.reading.readName fun module => h.bind (hrec.exec _ hs) fun res =>
    h.bind (h.objects.assertGeneric _) fun r => h.bind (h.objects.load r) fun v => ?_
  split
  · exact h.bind (h.congruence.forM (fun p => h.bind (h.objects.valueCast _ _) fun _ =>
      h.loadFromModule (h.own hs) _ _ _) _) fun _ => h.pure _
  · exact h.bind (h.objects.valueCast _ _) fun _ =>
      h.bind (h.loadFromModule (h.own hs) _ _ _) fun _ => h.pure _

lemma execTuple (hs : T sc sc') : Ψ _ (execTuple rec sc) (execTuple rec' sc') :=
  h.bind h.reading.readWord fun _ => h.bind (h.objects.alloc _ rfl) fun _ =>
    h.bind (h.congruence.iterateM (fun _ => h.bind h.reading.charge fun _ =>
      h.bind (h.evaluate hrec hs) fun _ => h.bind (h.objects.assertGeneric _) fun _ =>
      h.objects.tupleAppend _ _) _ _) fun _ => h.pure _

lemma execImport (hs : T sc sc') : Ψ _ (execImport rec sc) (execImport rec' sc') :=
  h.bind (hrec.exec _ hs) fun _ => h.bind (h.objects.assertGeneric _) fun _ =>
    h.bind (h.objects.valueCast _ _) fun _ => h.bind (h.loadModule (h.own hs) _ _) fun _ => h.pure _

lemma execAttribute (hs : T sc sc') : Ψ _ (execAttribute rec sc) (execAttribute rec' sc') :=
  h.bind (h.evaluate hrec hs) fun _ => h.bind (h.objects.assertGeneric _) fun _ =>
    h.bind h.reading.readName fun _ => h.objects.getMember _ _

omit hrec in
lemma execName (hs : S sc sc') : Ψ _ (execName sc) (execName sc') := by
  refine h.bind h.reading.readString fun str => ?_
  split
  · exact h.objects.create _ rfl
  · split
    · exact h.objects.create _ rfl
    · exact h.getValue hs _

omit hrec in
lemma leaveLoop (target ls : LoopState) : Ψ _ (leaveLoop target ls) (leaveLoop target ls) :=
  h.bind (h.objects.throwIf _ _) fun _ => h.pure _

omit hrec in
lemma execGlobal (hs : T sc sc') : Ψ _ (execGlobal sc) (execGlobal sc') :=
  h.bind (h.chargedLoop (h.bind h.reading.readName fun _ => h.setGlobalTag _ hs)) fun _ => h.pure _

lemma statementListStep (hs : T sc sc') (acc : ValuePtr × LoopState) :
    Ψ _ (statementListStep rec sc acc) (statementListStep rec' sc' acc) := by
  refine h.bind h.reading.charge fun _ => h.bind (h.isTerminated hs) fun terminated => ?_
  split
  · exact h.bind h.skipNext fun _ => h.pure _
  · exact h.bind (hrec.exec _ hs) fun _ => h.pure _

lemma execStatementList (hs : T sc sc') (ls : LoopState) :
    Ψ _ (execStatementList rec sc ls) (execStatementList rec' sc' ls) :=
  h.bind h.reading.readWord fun _ => h.congruence.iterateM (h.statementListStep hrec hs) _ _

lemma execUnaryOp (hs : T sc sc') : Ψ _ (execUnaryOp rec sc) (execUnaryOp rec' sc') := by
  refine h.bind h.reading.readWord fun type => h.bind (h.evaluate hrec hs) fun res =>
    h.bind (h.objects.assertGeneric _) fun _ => h.bind (h.objects.load _) fun operand => ?_
  cases hop : Value.unaryOp (.ofCode type) operand with
  | error e => exact h.objects.throw e (unaryOp_ordinary hop)
  | ok made =>
    cases made with
    | some v => exact h.objects.create v (unaryOp_not_generator hop)
    | none => exact h.pure res

lemma boolOpStep (hs : T sc sc') (short res : Bool) :
    Ψ _ (boolOpStep rec sc short res) (boolOpStep rec' sc' short res) := by
  refine h.bind h.reading.charge fun _ => ?_
  split
  · exact h.bind h.skipNext fun _ => h.pure _
  · refine h.bind (h.evaluate hrec hs) fun _ => h.bind (h.objects.loadPtr _) fun v => ?_
    split
    · exact h.pure _
    · exact h.pure _
    · exact h.objects.throwRuntime _

lemma execBoolOp (hs : T sc sc') : Ψ _ (execBoolOp rec sc) (execBoolOp rec' sc') := by
  refine h.bind h.reading.readWord fun _ => h.bind h.reading.readWord fun _ => ?_
  split
  · exact h.bind (h.congruence.iterateM (h.boolOpStep hrec hs _) _ _) fun _ => h.objects.create _ rfl
  · exact h.bind (h.congruence.iterateM (h.boolOpStep hrec hs _) _ _) fun _ => h.objects.create _ rfl
  · exact h.objects.throwRuntime _

lemma execBinaryOp (hs : T sc sc') : Ψ _ (execBinaryOp rec sc) (execBinaryOp rec' sc') :=
  h.bind h.reading.readWord fun _ => h.bind (h.evaluate hrec hs) fun _ =>
    h.bind (h.evaluate hrec hs) fun _ => h.objects.binaryOp _ _ _

lemma execReturn (hs : T sc sc') : Ψ _ (execReturn rec sc) (execReturn rec' sc') :=
  h.bind (h.evaluate hrec hs) fun _ => h.bind (h.terminate hs) fun _ => h.pure _

lemma execList (hs : T sc sc') : Ψ _ (execList rec sc) (execList rec' sc') :=
  h.bind (h.objects.alloc _ rfl) fun _ => h.bind (h.chargedLoop (h.bind (h.evaluate hrec hs) fun _ =>
    h.bind (h.objects.assertGeneric _) fun _ => h.objects.listAppend _ _)) fun _ => h.pure _

lemma compareStep (hs : T sc sc') (current : ValuePtr) :
    Ψ _ (compareStep rec sc current) (compareStep rec' sc' current) :=
  h.bind h.reading.charge fun _ => h.bind h.reading.readWord fun _ => h.bind (h.evaluate hrec hs) fun _ =>
    h.bind (h.objects.compareOp _ _ _) fun _ => h.objects.create _ rfl

lemma execCompare (hs : T sc sc') : Ψ _ (execCompare rec sc) (execCompare rec' sc') :=
  h.bind (h.evaluate hrec hs) fun _ => h.bind h.reading.readWord fun _ =>
    h.congruence.iterateM (h.compareStep hrec hs) _ _

lemma execIf (hs : T sc sc') (ls : LoopState) : Ψ _ (execIf rec sc ls) (execIf rec' sc' ls) := by
  refine h.bind (hrec.exec _ hs) fun res => h.bind (h.objects.boolTest _) fun b => ?_
  split
  · exact hrec.exec _ hs
  · exact h.bind h.skipNext fun _ => h.pure _

lemma execIfElse (hs : T sc sc') (ls : LoopState) :
    Ψ _ (execIfElse rec sc ls) (execIfElse rec' sc' ls) := by
  refine h.bind (hrec.exec _ hs) fun res => h.bind (h.objects.loadPtr _) fun v => ?_
  split
  · exact h.bind (hrec.exec _ hs) fun _ => h.bind h.skipNext fun _ => h.pure _
  · exact h.bind h.skipNext fun _ => hrec.exec _ hs
  · exact h.bind h.skipNext fun _ => hrec.exec _ hs
  · exact h.objects.throwRuntime _

lemma execDictionary (hs : T sc sc') : Ψ _ (execDictionary rec sc) (execDictionary rec' sc') :=
  h.bind (h.objects.alloc _ rfl) fun _ => h.bind (h.chargedLoop (h.bind h.reading.readName fun _ =>
    h.bind (h.evaluate hrec hs) fun _ => h.bind (h.objects.assertGeneric _) fun _ =>
    h.objects.dictInsert _ _ _)) fun _ => h.pure _

lemma execSubscript (hs : T sc sc') : Ψ _ (execSubscript rec sc) (execSubscript rec' sc') := by
  refine h.bind (h.evaluate hrec hs) fun _ => h.bind (h.evaluate hrec hs) fun _ =>
    h.bind (h.objects.assertGeneric _) fun _ => h.bind (h.objects.assertGeneric _) fun _ =>
    h.bind (h.objects.load _) fun _ => h.bind (h.objects.load _) fun _ => ?_
  split
  · exact h.pure _
  · exact h.objects.storeGet _ _
  · exact h.objects.listGet _ _
  · exact h.objects.tupleGet _ _
  · exact h.objects.throwRuntime _

/-! ### Function definitions -/

omit hrec in
lemma parameterStep (args : List Str) : Ψ _ (parameterStep args) (parameterStep args) :=
  h.bind h.reading.charge fun _ => h.bind h.reading.readName fun _ => h.pure _

lemma defaultStep (acc : List ValuePtr × Bool) :
    Ψ _ (defaultStep rec acc) (defaultStep rec' acc) :=
  h.bind h.reading.charge fun _ => h.inGlobalScope fun _ _ hg => h.bind (h.evaluate hrec hg) fun _ =>
    h.bind (h.objects.throwIf _ _) fun _ => h.pure _

omit hrec in
lemma expectType (type : NodeType) (message : Str) :
    Ψ _ (expectType type message) (expectType type message) :=
  h.bind h.reading.readType fun _ => h.objects.throwIf _ _

omit hrec in
lemma expectAfterStub {α : Type} {f : Str → M α} (count : UInt32) (type : NodeType) (message : Str)
    (hf : ∀ stub, Ψ _ (f stub) (f stub)) :
    Ψ _ (do let stub ← readPadded count; M.expectType type message; f stub)
      (do let stub ← readPadded count; M.expectType type message; f stub) := by
  have hstub : (do let stub ← readPadded count; M.expectType type message; f stub) =
      (do
        let res ← Proofs.readStub count
        M.throwIf (NodeType.ofCode res.2 != type) message
        f res.1) := by
    simp only [Proofs.readStub, M.expectType, M.readType, bind_assoc, pure_bind]
  rw [hstub]
  exact h.bind (h.readStub count) fun _ => h.bind (h.objects.throwIf _ _) fun _ => hf _

lemma readFunctionStub :
    Ψ _ (readFunctionStub rec) (readFunctionStub rec') :=
  h.bind h.reading.readWord fun _ => h.bind (h.expectType _ _) fun _ => h.bind h.reading.readWord fun _ =>
    h.bind (h.congruence.iterateM h.parameterStep _ _) fun _ => h.bind (h.expectType _ _) fun _ =>
    h.bind h.reading.readWord fun _ => h.bind (h.objects.throwIf _ _) fun _ =>
    h.bind (h.congruence.iterateM (h.defaultStep hrec) _ _) fun _ =>
    h.bind (h.expectType _ _) fun _ => h.expectAfterStub _ _ _ fun _ => h.objects.create _ rfl

lemma execFunctionDef (hs : S sc sc') :
    Ψ _ (execFunctionDef rec sc) (execFunctionDef rec' sc') :=
  h.bind h.reading.readName fun _ => h.bind (h.objects.throwIf _ _) fun _ =>
    h.bind (h.readFunctionStub hrec) fun _ => h.bind (h.setValue _ _ hs) fun _ => h.pure _

omit hrec in
lemma keep {x y : M ValuePtr} (hx : Ψ _ x y) (ls : LoopState) : Ψ _ (keep ls x) (keep ls y) :=
  h.bind hx fun _ => h.pure _

/-- The switch of `execute_next` on a straight node. -/
lemma execNode (hs : T sc sc') (n n' : Nat) (ls : LoopState) {type : NodeType}
    (hstraight : NodeType.isStraight type = true) :
    Ψ _ (execNode rec sc n ls type) (execNode rec' sc' n' ls type) := by
  cases type with
  | importFrom => exact h.keep (h.execImportFrom hrec hs) ls
  | tuple => exact h.keep (h.execTuple hrec hs) ls
  | «import» => exact h.keep (h.execImport hrec hs) ls
  | «alias» =>
    exact h.keep (h.bind h.reading.readString fun _ => h.bind h.reading.readString fun _ =>
      h.objects.create _ rfl) ls
  | pass => exact h.pure _
  | «attribute» => exact h.keep (h.execAttribute hrec hs) ls
  | name => exact h.keep (h.execName (h.own hs)) ls
  | «continue» | «break» => exact h.leaveLoop _ ls
  | global => exact h.keep (h.execGlobal hs) ls
  | statementList => exact h.execStatementList hrec hs ls
  | unaryOp => exact h.keep (h.execUnaryOp hrec hs) ls
  | boolOp => exact h.keep (h.execBoolOp hrec hs) ls
  | binaryOp => exact h.keep (h.execBinaryOp hrec hs) ls
  | «return» => exact h.keep (h.execReturn hrec hs) ls
  | list => exact h.keep (h.execList hrec hs) ls
  | string => exact h.keep (h.bind h.reading.readString fun _ => h.objects.create _ rfl) ls
  | compare => exact h.keep (h.execCompare hrec hs) ls
  | index => exact h.keep (h.evaluate hrec hs) ls
  | integer => exact h.keep (h.bind h.reading.readWord fun _ => h.objects.createInteger _) ls
  | «if» => exact h.execIf hrec hs ls
  | ifElse => exact h.execIfElse hrec hs ls
  | dictionary => exact h.keep (h.execDictionary hrec hs) ls
  | subscript => exact h.keep (h.execSubscript hrec hs) ls
  | functionDef => exact h.keep (h.execFunctionDef hrec (h.own hs)) ls
  | assign | augmentedAssign | call | whileLoop | forLoop | listComp => exact absurd hstraight nofun
  | _ => exact h.objects.throwRuntime _

end Nodes

end Straight

end ContractPython.Proofs
