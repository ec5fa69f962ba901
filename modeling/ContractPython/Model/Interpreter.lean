import ContractPython.Lib.Program
import ContractPython.Model.Builtin

/-!
# The interpreter

`Interpreter.cpp` and `CallableVMFunction.h`. `executeNext` is `execute_next` with a bound on
the nesting of calls and the number of loop rounds; each node type is a definition of its own
that takes the recursive call `rec` as a parameter.

Child nodes are evaluated with a `dummy_loop_state` of `None`. A child leaves that state
as it is, so `evaluate` starts each of them at `none` again.
-/

namespace ContractPython

open Program

namespace M

/-! ### Metering and the read cursor -/

/-- `m_num_execution_steps += 1`. -/
def tick (s : State) : State :=
  { s with
    interp := { s.interp with numExecutionSteps := s.interp.numExecutionSteps + 1 }
    log := .charged :: s.log }

/-- `CHARGE_EXECUTION`. -/
def charge : M Unit := fun s =>
  if s.interp.executionStepLimit > 0 ∧
      s.interp.numExecutionSteps + 1 ≥ s.interp.executionStepLimit then
    .error .outOfGas (tick s)
  else .ok () (tick s)

/-- A read operator applied to `m_data`. -/
def onData {α : Type} (f : Bitstream → Option α × Bitstream) : M α := fun s =>
  let s' := { s with interp := { s.interp with data := (f s.interp.data).2 } }
  match (f s.interp.data).1 with
  | some a => .ok a s'
  | none => .error (.runtimeError (lit "Unexpected EOF")) s'

def readWord : M UInt32 := onData Bitstream.readWord

def readString : M Str := onData Bitstream.readString

def readType : M NodeType := do
  let w ← readWord
  pure (.ofCode w)

/-- `operator&`: reads a node type and moves the cursor back. -/
def peekType : M NodeType :=
  onData fun b =>
    match b.readWord with
    | (some w, b') => (some (NodeType.ofCode w), { b' with get := b.get })
    | (none, b') => (none, b')

/-- `m_data.Read(count)`. -/
def readPadded (count : UInt32) : M Str := onData fun b =>
  (some (b.readPadded count.toNat).1, (b.readPadded count.toNat).2)

def pos : M UInt32 := fun s => .ok s.interp.data.pos s

def moveTo (p : UInt32) : M Unit := fun s =>
  .ok () { s with interp := { s.interp with data := s.interp.data.moveTo p } }

/-- `read_name`. -/
def readName : M Str := do
  match ← readType with
  | .name => readString
  | .string => readString
  | _ => throwRuntime (lit "Not a valid name")

/-- `std::to_string((int)type)`. -/
def typeText (type : NodeType) : Str := lit (toString type.code.toInt32.toInt)

/-- `read_names`. -/
def readNames : M (List Str) := do
  match ← readType with
  | .name => do
    let s ← readString
    pure [s]
  | .string => do
    let s ← readString
    pure [s]
  | .tuple => do
    let numElems ← readWord
    throwIf (numElems != 2) (lit "Can only name pairs")
    let first ← readName
    let second ← readName
    pure [first, second]
  | type => throwRuntime (lit "Not a valid name [" ++ typeText type ++ lit "]")

/-! ### Skipping -/

/-- `for(i = 0; i < size; ++i) { CHARGE_EXECUTION; body }` for a size read from the stream. -/
def chargedLoop (body : M Unit) : M Unit := do
  let size ← readWord
  iterateM size.toNat (fun _ => do charge; body) ()

/-- `skip_next` on a node of the given type; `skip` is the recursive call. -/
def skipNode (skip : M Unit) (type : NodeType) : M Unit :=
  match type with
  | .pass => pure ()
  | .name => do
    let _ ← readString
  | .forLoop => do
    let _ ← readNames
    skip
    skip
  | .whileLoop => do
    skip
    skip
  | .assign => do
    skip
    chargedLoop skip
  | .statementList => chargedLoop skip
  | .index => skip
  | .return => skip
  | .string => do
    let _ ← readString
  | .compare => do
    skip
    chargedLoop do
      let _ ← readWord
      skip
  | .integer => do
    let _ ← readWord
  | .call => do
    skip
    chargedLoop skip
  | .ifElse => do
    skip
    skip
    skip
  | .list => chargedLoop skip
  | .tuple => chargedLoop skip
  | .dictionary => chargedLoop do
      skip
      skip
  | .unaryOp => do
    let _ ← readWord
    skip
  | .boolOp => do
    let _ ← readWord
    chargedLoop skip
  | .augmentedAssign => do
    let _ ← readWord
    skip
    skip
  | .binaryOp => do
    let _ ← readWord
    skip
    skip
  | .if => do
    skip
    skip
  | .attribute => do
    skip
    skip
  | .subscript => do
    skip
    skip
  | .break => pure ()
  | .continue => pure ()
  | _ => throwRuntime (lit "Failed to skip unknown node type!")

/-- `skip_next` with a bound on its recursion depth. -/
def skipFuel : Nat → M Unit
  | 0 => throw .outOfFuel
  | n + 1 => do
    let type ← readType
    skipNode (skipFuel n) type

/-- The number of bytes in `m_data`. -/
def streamLength : M Nat := fun s => .ok s.interp.data.bytecode.length s

/-- `skip_next`. Each call reads four bytes, so the length of the bytecode bounds its depth. -/
def skipNext : M Unit := do
  let length ← streamLength
  skipFuel (length + 1)

/-! ### Modules -/

def globalScope : M ScopeRef := fun s => .ok s.interp.globalScope s

/-- A module the interpreter has loaded. -/
def findModule (name : Str) : M (Option Ref) := fun s => .ok (s.interp.loadedModules.find? name) s

def addModule (name : Str) (module : Ref) : M Unit := fun s =>
  .ok () { s with
    interp := { s.interp with loadedModules := s.interp.loadedModules.insert name module } }

/-- `get_module`; `geo` is not part of the default build. -/
def getModule (name : Str) : M Ref := do
  match ← findModule name with
  | some module => pure module
  | none =>
    if name = lit "rand" then do
      let module ← alloc .randModule
      addModule name module
      pure module
    else throwRuntime (lit "Unknown module: " ++ name)

/-- `load_from_module`. -/
def loadFromModule (scope : ScopeRef) (module name asName : Str) : M Unit := do
  let module ← getModule module
  let member ← getMember module name
  setValue scope (if asName = [] then name else asName) member

/-- `load_module`. -/
def loadModule (scope : ScopeRef) (name asName : Str) : M Unit := do
  let module ← getModule name
  setValue scope (if asName = [] then name else asName) (some module)

end M

/-! ### Operators -/

/-- The C++ conversion of a 64-bit result to the `int32_t` of `create_integer`. -/
def Value.ofInt32 (i : Int64) : Value := .integer i.toInt32.toInt64

/-- The operators of a `BinaryOp` node on two objects. -/
def Value.binaryOp (op : BinaryOpType) (left right : Value) : Except Exn Value :=
  match op with
  | .add =>
    match left, right with
    | .integer i1, .integer i2 => .ok (Value.ofInt32 (i1 + i2))
    | .string s1, .string s2 => .ok (.string (s1 ++ s2))
    | _, _ => .error (.runtimeError
        (lit "failed to add: incompatible types " ++ left.type.str ++ right.type.str))
  | .mult =>
    match left, right with
    | .integer i1, .integer i2 => .ok (Value.ofInt32 (i1 * i2))
    | _, _ => .error (.runtimeError (lit "failed to multiply"))
  | .div =>
    match left, right with
    | .integer i1, .integer i2 =>
      if i2 = 0 then .error (.runtimeError (lit "division by zero"))
      -- the quotient does not fit: the machine division traps
      else if i1 = Int64.minValue ∧ i2 = -1 then .error (.crash (lit "division overflow"))
      else .ok (Value.ofInt32 (i1 / i2))
    | .float f1, .float f2 =>
      if f2.toNat % 2 ^ 63 = 0 then .error (.runtimeError (lit "division by zero"))
      else .ok (.float (Float.ofBits f1 / Float.ofBits f2).toBits)
    | _, _ => .error (.runtimeError (lit "failed to multiply"))
  | .mod =>
    match left, right with
    | .integer i1, .integer i2 =>
      if i2 = 0 then .error (.runtimeError (lit "modulus by zero"))
      else if i1 = Int64.minValue ∧ i2 = -1 then .error (.crash (lit "division overflow"))
      else .ok (Value.ofInt32 (i1 % i2))
    | _, _ => .error (.runtimeError (lit "failed apply mod function"))
  | .sub =>
    match left, right with
    | .integer i1, .integer i2 => .ok (Value.ofInt32 (i1 - i2))
    | _, _ => .error (.runtimeError (lit "failed to sub"))
  | _ => .error (.runtimeError (lit "Unknown binary operation"))

/-- The operators of a `UnaryOp` node; `none` means the operand object itself. -/
def Value.unaryOp (op : UnaryOpType) (operand : Value) : Except Exn (Option Value) :=
  match operand with
  | .bool cond =>
    match op with
    | .not => .ok (some (.bool !cond))
    | _ => .error (.runtimeError (lit "Unknown unary operation"))
  | .integer i =>
    match op with
    | .sub => .ok (some (Value.ofInt32 (-1 * i)))
    | .add => .ok none
    | .not => .ok (some (.bool false))
    | _ => .error (.runtimeError (lit "Unknown unary operation"))
  | _ =>
    match op with
    | .not => .ok (some (.bool false))
    | _ => .error (.runtimeError (lit "Unknonw unary op"))

namespace M

/-- The switch of a `BinaryOp` node on the evaluated operands. -/
def binaryOp (op : BinaryOpType) (left right : ValuePtr) : M ValuePtr :=
  match op with
  | .add | .mult | .div | .mod | .sub => do
    let l ← assertGeneric left
    let r ← assertGeneric right
    let v ← liftExcept (Value.binaryOp op (← load l) (← load r))
    create v
  | _ => throwRuntime (lit "Unknown binary operation")

/-- A comparison of two objects; with a null operand it is `onNull` of both being null. -/
def compareWith (test : Value → Value → Bool) (onNull : Bool → Bool) (current rval : ValuePtr) : M Bool :=
  match current, rval with
  | some c, some r => do
    let cv ← load c
    let rv ← load r
    pure (test cv rv)
  | _, _ => pure (onNull (current.isNone && rval.isNone))

/-- `rval` contains `current`. -/
def containedIn (current rval : ValuePtr) : M Bool := do
  let r ← assertGeneric rval
  match ← load r with
  | .list elements => do
    let c ← assertGeneric current
    listContains (← load c) elements
  | _ => throwRuntime (lit "Can only call in on lists")

/-- One comparison of a `Compare` node. -/
def compareOp (op : CompareOpType) (current rval : ValuePtr) : M Bool :=
  match op with
  | .equals => compareWith Value.equals id current rval
  | .moreEqual => compareWith Value.greaterEqual id current rval
  | .more => compareWith Value.greater (fun _ => false) current rval
  | .in => containedIn current rval
  | .notEqual => compareWith (fun c r => !c.equals r) not current rval
  | .notIn => do
    let found ← containedIn current rval
    pure !found
  | .lessEqual => compareWith (fun c r => r.greaterEqual c) id current rval
  | .less => compareWith (fun c r => r.greater c) (fun _ => false) current rval
  | _ => throwRuntime (lit "Unknown op type")

/-- `p && p->bool_test()`. -/
def boolTest (p : ValuePtr) : M Bool := do
  match ← loadPtr p with
  | none => pure false
  | some v => pure v.boolTest

/-- `value_cast<Iterator>(p)`. -/
def castIterator (p : ValuePtr) : M Ref :=
  match p with
  | none => throw (.valueException (lit "Invalid value cast"))
  | some r => do
    if (← load r).isGenerator then pure r
    else throw (.valueException (lit "Invalid value cast"))

/-- `iter->next()`, with `stop_iteration_exception` caught. -/
def tryNext (iter : Ref) : M (Option ValuePtr) := fun s =>
  match next iter s with
  | .ok v s' => .ok (some v) s'
  | .error .stopIteration s' => .ok none s'
  | .error e s' => .error e s'

/-- `Tuple::append`. -/
def tupleAppend (r : Ref) (val : ValuePtr) : M Unit := do
  let content ← valueCast Value.tuple? (some r)
  storeAt r (.tuple (content ++ [val]))

/-! ### Calls -/

/-- `set_execution_step_limit(current_max)` of a callee. -/
def checkLimit : M Unit := fun s =>
  if s.interp.executionStepLimit = 0 then
    .error (.runtimeError (lit "Limit has to be larger than 0")) s
  else .ok () { s with log := .functionCalled :: s.log }

/-- `Interpreter pyint(code, mem);` and the rest of its block: a fresh global scope and a
fresh store, bound to the name `store`. -/
def withInterpreter {α : Type} (code : List UInt8) (body : Interp → M α) : M α := do
  malloc
  withFrame fun id => do
    let store ← makeShared (.persistableDictionary .empty)
    setValue [id] (lit "store") (some store)
    body {
      data := Bitstream.ofBytes code
      numExecutionSteps := 0
      executionStepLimit := 0
      globalScope := [id]
      loadedModules := .empty
      store := store }

/-- The state a callee starts in: `pyint` takes over the step count and the limit. -/
def calleeState (pyint : Interp) (s : State) : State :=
  { s with interp := { pyint with
      numExecutionSteps := s.interp.numExecutionSteps
      executionStepLimit := s.interp.executionStepLimit } }

/-- The caller goes on with the step count of the callee. -/
def writtenBack (s s' : State) : State :=
  { s' with interp := { s.interp with numExecutionSteps := s'.interp.numExecutionSteps } }

/-- The caller goes on with the step count it had before the call. -/
def stepsDropped (s s' : State) : State :=
  { s' with interp := s.interp, log := .calleeReturned :: s'.log }

/-- Runs `body` with `pyint` as the running interpreter. The step count comes back through
`current_num`: an exception makes both callers store it, a normal return only `calldata`
(`writeBack`), while the `Call` node does not. -/
def runCallee {α : Type} (writeBack : Bool) (pyint : Interp) (body : M α) : M α := fun s =>
  match body (calleeState pyint s) with
  | .ok a s' => .ok a (if writeBack then writtenBack s s' else stepsDropped s s')
  | .error e s' => .error e (writtenBack s s')

/-- The recursive call of `execute_next`. -/
abbrev Rec := ScopeRef → LoopState → M (ValuePtr × LoopState)

/-- `execute_next(scope, dummy_loop_state)`. -/
def evaluate (rec : Rec) (scope : ScopeRef) : M ValuePtr := do
  let res ← rec scope .none
  pure res.1

/-- Binds the parameters that have a default; counts the others. -/
def bindDefaults (scope : ScopeRef) : List (Str × ValuePtr) → M Nat
  | [] => pure 0
  | (name, default) :: rest =>
    match default with
    | some _ => do
      setValue scope name default
      bindDefaults scope rest
    | none => do
      let minimum ← bindDefaults scope rest
      pure (minimum + 1)

def bindArguments (scope : ScopeRef) : List (Str × ValuePtr) → M Unit
  | [] => pure ()
  | (name, arg) :: rest => do
    setValue scope name arg
    bindArguments scope rest

/-- `CallableVMFunction::call`. -/
def callVMFunction (rec : Rec) (writeBack : Bool) (code : List UInt8) (params : List Str)
    (defaults : List ValuePtr) (args : List ValuePtr) (scope : ScopeRef) : M ValuePtr :=
  withScope scope fun bodyScope => do
    requireGlobal bodyScope
    withInterpreter code fun pyint => do
      checkLimit
      throwIf (params.length < args.length)
        (lit "You did not provide the correct number of arguments to the function")
      let minimum ← bindDefaults bodyScope (params.zip defaults)
      throwIf (args.length < minimum)
        (lit "You did not provide the correct number of arguments to the function")
      bindArguments bodyScope (params.zip args)
      runCallee writeBack pyint (evaluate rec bodyScope)

/-- `call` of the callable object at `callable`. -/
def call (rec : Rec) (writeBack : Bool) (callable : Ref) (args : List ValuePtr)
    (scope : ScopeRef) : M ValuePtr := do
  match ← load callable with
  | .vmFunction code params defaults => callVMFunction rec writeBack code params defaults args scope
  | .builtin type => callBuiltin type args
  | .cFunction params func module => callCFunction params func module args scope
  | .listAppend list =>
    match args with
    | [arg] => do
      listAppend list arg
      pure none
    | _ => throwRuntime (lit "Invalid number of arguments")
  | .randint => randint args
  | .dictItems dict => do
    throwIf (args.length != 0) (lit "invalid number of arguments")
    let elements ← valueCast Value.dictionary? (some dict)
    create (.dictItemIterator dict elements.first?)
  | _ => throw (.valueException (lit "Invalid value cast"))

/-! ### The node types -/

section Nodes

variable (rec : Rec) (scope : ScopeRef)

def execImportFrom : M ValuePtr := do
  let module ← readName
  let (val, _) ← rec scope .ignoreAll
  let r ← assertGeneric val
  match ← load r with
  | .tuple content => do
    content.forM fun p => do
      let (name, asName) ← valueCast Value.alias? p
      loadFromModule scope module name asName
    pure none
  | _ => do
    let (name, asName) ← valueCast Value.alias? val
    loadFromModule scope module name asName
    pure none

def execTuple : M ValuePtr := do
  let numElems ← readWord
  let tuple ← alloc (.tuple [])
  iterateM numElems.toNat (fun _ => do
    charge
    let val ← evaluate rec scope
    let _ ← assertGeneric val
    tupleAppend tuple val) ()
  pure (some tuple)

def execImport : M ValuePtr := do
  let (val, _) ← rec scope .ignoreAll
  let _ ← assertGeneric val
  let (name, asName) ← valueCast Value.alias? val
  loadModule scope name asName
  pure none

def execAlias : M ValuePtr := do
  let name ← readString
  let asName ← readString
  create (.alias name asName)

def execAttribute : M ValuePtr := do
  let value ← evaluate rec scope
  let r ← assertGeneric value
  let name ← readName
  getMember r name

def execName : M ValuePtr := do
  let str ← readString
  if str = lit "False" then create (.bool false)
  else if str = lit "True" then create (.bool true)
  else getValue scope str

/-- `loop_state` after a `Continue` or `Break` node. -/
def leaveLoop (target : LoopState) (ls : LoopState) : M (ValuePtr × LoopState) := do
  throwIf (ls == .none) (lit "Not a loop")
  pure (none, target)

/-- The string index of a dictionary. -/
def dictKey (index : Ref) : M Str := do
  match ← load index with
  | .string s => pure s
  | _ => throwRuntime (lit "Dictionary indices must be of type 'String'")

/-- The integer index of a list. -/
def listKey (index : Ref) : M Int64 := do
  match ← load index with
  | .integer i => pure i
  | _ => throwRuntime (lit "Array indices must be of type 'Integer'")

/-- The object a subscripted target names. -/
def subscriptTarget (name : Str) (obj : ValuePtr) : M Ref :=
  match obj with
  | some r => pure r
  | none => throwRuntime (lit "Array or dictionary '" ++ name ++ lit "' has not been defined.")

/-- One target of an `Assign` node; `val` is not null. `read_names` gives one or two names. -/
def assignTarget (val : Ref) : M Unit := do
  let lookAhead ← peekType
  if lookAhead = .subscript then do
    let _ ← readType
    let index ← assertGeneric (← evaluate rec scope)
    let sscr ← readName
    let obj ← subscriptTarget sscr (← getValue scope sscr)
    match ← load obj with
    | .dictionary _ => do
      let key ← dictKey index
      dictInsert obj key (some val)
    | .persistableDictionary _ => do
      let key ← dictKey index
      storeInsert obj key val
    | .list _ => do
      let i ← listKey index
      listSet obj i (some val)
    | _ => throwRuntime (lit "Variable '" ++ sscr ++ lit "' is not an array or dictionary.")
  else do
    match ← readNames with
    | [name] => setValue scope name (some val)
    | [first, second] => do
      match ← load val with
      | .tuple content => do
        setValue scope first (← tupleGet content 0)
        setValue scope second (← tupleGet content 1)
      | _ => throwRuntime (lit "cannot unpack value: not a tuple")
    | _ => throwRuntime (lit "invalid number of names")

def execAssign : M ValuePtr := do
  let val ← assertGeneric (← evaluate rec scope)
  chargedLoop (assignTarget rec scope val)
  pure none

def execGlobal : M ValuePtr := do
  chargedLoop do
    let name ← readName
    setGlobalTag scope name
  pure none

/-- One round of a `StatementList`: the value of the last executed statement and the loop
state of the list. -/
def statementListStep (acc : ValuePtr × LoopState) : M (ValuePtr × LoopState) := do
  charge
  let terminated ← isTerminated scope
  if terminated || acc.2 == .break || acc.2 == .continue then do
    skipNext
    pure acc
  else do
    let (final, child) ← rec scope (if acc.2 == .topLevel then .normal else acc.2)
    pure (final, if acc.2 != .none && child != .normal then child else acc.2)

def execStatementList (ls : LoopState) : M (ValuePtr × LoopState) := do
  let size ← readWord
  iterateM size.toNat (statementListStep rec scope) (none, ls)

def execUnaryOp : M ValuePtr := do
  let type ← readWord
  let res ← evaluate rec scope
  let r ← assertGeneric res
  match ← liftExcept (Value.unaryOp (.ofCode type) (← load r)) with
  | some v => create v
  | none => pure res

/-- One operand of a `BoolOp` node, skipped once the result is `short`. -/
def boolOpStep (short : Bool) (res : Bool) : M Bool := do
  charge
  if res == short then do
    skipNext
    pure res
  else do
    match ← loadPtr (← evaluate rec scope) with
    | none => pure false
    | some (.bool b) => pure b
    | some _ => throwRuntime (lit "not a valid bool operation")

def execBoolOp : M ValuePtr := do
  let type ← readWord
  let numVals ← readWord
  match BoolOpType.ofCode type with
  | .and => do
    let res ← iterateM numVals.toNat (boolOpStep rec scope false) true
    create (.bool res)
  | .or => do
    let res ← iterateM numVals.toNat (boolOpStep rec scope true) false
    create (.bool res)
  | _ => throwRuntime (lit "unknown bool op type")

def execBinaryOp : M ValuePtr := do
  let type ← readWord
  let left ← evaluate rec scope
  let right ← evaluate rec scope
  binaryOp (.ofCode type) left right

def execReturn : M ValuePtr := do
  let res ← evaluate rec scope
  terminate scope
  pure res

def execList : M ValuePtr := do
  let list ← alloc (.list [])
  chargedLoop do
    let res ← evaluate rec scope
    let _ ← assertGeneric res
    listAppend list res
  pure (some list)

def execString : M ValuePtr := do
  let s ← readString
  create (.string s)

/-- One comparison of a `Compare` node. -/
def compareStep (current : ValuePtr) : M ValuePtr := do
  charge
  let op ← readWord
  let rval ← evaluate rec scope
  let res ← compareOp (.ofCode op) current rval
  create (.bool res)

def execCompare : M ValuePtr := do
  let current ← evaluate rec scope
  let size ← readWord
  iterateM size.toNat (compareStep rec scope) current

def execInteger : M ValuePtr := do
  let val ← readWord
  createInteger val.toInt32

/-- One argument of a `Call` node. -/
def argumentStep (args : List ValuePtr) : M (List ValuePtr) := do
  charge
  let arg ← evaluate rec scope
  pure (args ++ [arg])

def execCall : M ValuePtr := do
  let callable ← assertGeneric (← evaluate rec scope)
  throwIf (!(← load callable).isCallable) (lit "Cannot call un-callable!")
  let numArgs ← readWord
  let args ← iterateM numArgs.toNat (argumentStep rec scope) []
  call rec false callable args scope

def execIf (ls : LoopState) : M (ValuePtr × LoopState) := do
  let (test, ls) ← rec scope ls
  if ← boolTest test then rec scope ls
  else do
    skipNext
    pure (none, ls)

def execIfElse (ls : LoopState) : M (ValuePtr × LoopState) := do
  let (test, ls) ← rec scope ls
  match ← loadPtr test with
  | some (.bool true) => do
    let res ← rec scope ls
    skipNext
    pure res
  | some (.bool false) => do
    skipNext
    rec scope ls
  | none => do
    skipNext
    rec scope ls
  | some _ => throwRuntime (lit "not a boolean!")

def execDictionary : M ValuePtr := do
  let res ← alloc (.dictionary .empty)
  chargedLoop do
    let name ← readName
    let value ← evaluate rec scope
    let _ ← assertGeneric value
    dictInsert res name value
  pure (some res)

def execSubscript : M ValuePtr := do
  let slice ← evaluate rec scope
  let val ← evaluate rec scope
  let slice ← assertGeneric slice
  let val ← assertGeneric val
  match ← load val, ← load slice with
  | .dictionary elements, .string key => pure (dictGet elements key)
  | .persistableDictionary st, .string key => storeGet st key
  | .list elements, .integer i => listGet elements i
  | .tuple content, .integer i => tupleGet content i.toUInt64.toUInt32
  | _, _ => throwRuntime (lit "Invalid subscript")

/-- A loop body that returned ends the loop and hands its value on; `ret` is the value so far. -/
def propagateReturn (bodyScope : ScopeRef) (ret : ValuePtr) (res : ValuePtr × LoopState) :
    M (ValuePtr × LoopState) := do
  if ← isTerminated bodyScope then do
    terminate scope
    pure res
  else pure (ret, res.2)

/-- The rounds of a `WhileLoop` node. -/
def whileRounds (start : UInt32) : Nat → LoopState → ValuePtr → M ValuePtr
  | 0, _, _ => throw .outOfFuel
  | n + 1, ls, ret => do
    let terminated ← isTerminated scope
    if terminated || ls == .break then pure ret
    else do
      charge
      moveTo start
      let test ← evaluate rec scope
      if ← boolTest test then do
        let (ret', ls') ← withScope scope fun bodyScope => do
          let res ← rec bodyScope ls
          propagateReturn scope bodyScope ret res
        whileRounds start n ls' ret'
      else pure ret

def execWhileLoop (n : Nat) : M ValuePtr := do
  let start ← pos
  let res ← whileRounds rec scope start n .topLevel none
  skipNext
  pure res

/-- Binds the names of a `ForLoop` node to the next element. -/
def bindNames (bodyScope : ScopeRef) (names : List Str) (next : ValuePtr) : M Unit :=
  match names with
  | [name] => setValue bodyScope name next
  | [first, second] => do
    let content ← valueCast Value.tuple? next
    setValue bodyScope first (← tupleGet content 0)
    setValue bodyScope second (← tupleGet content 1)
  | _ => throwRuntime (lit "Cannot handle more than two names")

/-- The rounds of a `ForLoop` node. -/
def forRounds (names : List Str) (iter : Ref) : Nat → LoopState → ValuePtr → M ValuePtr
  | 0, _, _ => throw .outOfFuel
  | n + 1, ls, ret => do
    let terminated ← isTerminated scope
    if terminated || ls == .break then pure ret
    else do
      charge
      let round ← withScope scope fun bodyScope => do
        match ← tryNext iter with
        | none => pure none
        | some next => do
          bindNames bodyScope names next
          let res ← rec bodyScope ls
          let res ← propagateReturn scope bodyScope ret res
          pure (some res)
      match round with
      | none => pure ret
      | some (ret', ls') => forRounds names iter n ls' ret'

/-- The iterator a `ForLoop` node goes through. -/
def loopIterator (obj : ValuePtr) : M Ref := do
  let r ← assertGeneric obj
  let v ← load r
  if v.isGenerator then pure r
  else if v.canIterate then castIterator (← iterate r v)
  else throwRuntime (lit "Can't iterate")

def execForLoop (n : Nat) : M ValuePtr := do
  let names ← readNames
  let obj ← evaluate rec scope
  let iter ← loopIterator obj
  let res ← forRounds rec scope names iter n .topLevel none
  skipNext
  pure res

/-- The rounds of a `ListComp` node. -/
def listCompRounds (target : Str) (iter list : Ref) (bodyPos : UInt32) : Nat → LoopState → M Unit
  | 0, _ => throw .outOfFuel
  | n + 1, ls => do
    let terminated ← isTerminated scope
    if terminated || ls == .break then pure ()
    else do
      charge
      match ← tryNext iter with
      | none => pure ()
      | some next => do
        let ls' ← withScope scope fun bodyScope => do
          setValue bodyScope target next
          moveTo bodyPos
          let (res, ls') ← rec bodyScope ls
          listAppend list res
          pure ls'
        listCompRounds target iter list bodyPos n ls'

def execListComp (n : Nat) (ls : LoopState) : M (ValuePtr × LoopState) := do
  let bodyPos ← pos
  skipNext
  let numLoops ← readWord
  throwIf (numLoops != 1) (lit "Only simple list comprehensions are supported")
  let type2 ← readType
  throwIf (type2 != .comprehension) (lit "invalid type")
  let target ← readName
  let list ← alloc (.list [])
  let (obj, ls) ← rec scope ls
  let iter ← castIterator obj
  -- "no support for if statements yet": the empty list of conditions reads as a `Pass` node
  skipNext
  let endPos ← pos
  listCompRounds rec scope target iter list bodyPos n .topLevel
  moveTo endPos
  pure (some list, ls)

/-- The in-place operators of an `AugmentedAssign` node on a name. -/
def augmentName (op : BinaryOpType) (target value : ValuePtr) : M Unit :=
  match op with
  | .add => updateInteger target value (· + ·)
  | .sub => updateInteger target value (· - ·)
  | .mult => updateInteger target value (· * ·)
  | _ => throwRuntime (lit "Unknown binary op")

def execAugmentedAssign : M ValuePtr := do
  let op ← readWord
  let lookAhead ← peekType
  if lookAhead = .subscript then do
    let _ ← readType
    let index ← assertGeneric (← evaluate rec scope)
    let sscr ← readName
    let obj ← getValue scope sscr
    let val ← evaluate rec scope
    let obj ← subscriptTarget sscr obj
    match ← load obj with
    | .dictionary _ => do
      let key ← dictKey index
      dictApply obj key val (.ofCode op)
    | .persistableDictionary _ => do
      let key ← dictKey index
      storeApply obj key val (.ofCode op)
    | .list _ => do
      let i ← listKey index
      listApply obj i val (.ofCode op)
    | _ => throwRuntime (lit "Variable '" ++ sscr ++ lit "' is not an array or dictionary.")
    pure none
  else do
    let name ← readName
    let target ← getValue scope name
    let value ← evaluate rec scope
    augmentName (.ofCode op) target value
    pure none

/-- One parameter name of a function stub. -/
def parameterStep (args : List Str) : M (List Str) := do
  charge
  let arg ← readName
  pure (args ++ [arg])

/-- One default of a function stub, evaluated in the global scope of the interpreter. -/
def defaultStep (acc : List ValuePtr × Bool) : M (List ValuePtr × Bool) := do
  charge
  let arg ← evaluate rec (← globalScope)
  let nonStandard := acc.2 || arg.isSome
  throwIf (arg.isNone && nonStandard) (lit "Non-default argument follows default argument")
  pure (acc.1 ++ [arg], nonStandard)

def expectType (type : NodeType) (message : Str) : M Unit := do
  let t ← readType
  throwIf (t != type) message

/-- `read_function_stub`. -/
def readFunctionStub : M ValuePtr := do
  let totalStubLen ← readWord
  expectType .functionStart
    (lit "Are you kidding me, you stupid script kiddy? [coder is insane]")
  let numArgs ← readWord
  let args ← iterateM numArgs.toNat parameterStep []
  expectType .functionStartDefaults (lit "Stop hacking the bytecode, you pathetic little worm!")
  let numDefaults ← readWord
  throwIf (numDefaults != numArgs) (lit "Stop hacking the bytecode, you pathetic little worm!")
  let (defaults, _) ← iterateM numDefaults.toNat (defaultStep rec) ([], false)
  expectType .functionStartStub (lit "Stop hacking the bytecode, you pathetic little worm!")
  let stub ← readPadded totalStubLen
  expectType .functionEnd
    (lit "Are you kidding me, you stupid script kiddy? [wrong type order]")
  create (.vmFunction stub args defaults)

def execFunctionDef : M ValuePtr := do
  let name ← readName
  throwIf name.isEmpty (lit "Function name of length zero")
  let jumpPoint ← readFunctionStub rec
  setValue scope name jumpPoint
  pure none

/-- A node type that leaves the loop state alone. -/
def keep (ls : LoopState) (x : M ValuePtr) : M (ValuePtr × LoopState) := do
  let v ← x
  pure (v, ls)

/-- The switch of `execute_next`. -/
def execNode (n : Nat) (ls : LoopState) (type : NodeType) : M (ValuePtr × LoopState) :=
  match type with
  | .importFrom => keep ls (execImportFrom rec scope)
  | .tuple => keep ls (execTuple rec scope)
  | .import => keep ls (execImport rec scope)
  | .alias => keep ls execAlias
  | .pass => pure (none, ls)
  | .attribute => keep ls (execAttribute rec scope)
  | .name => keep ls (execName scope)
  | .continue => leaveLoop .continue ls
  | .break => leaveLoop .break ls
  | .assign => keep ls (execAssign rec scope)
  | .global => keep ls (execGlobal scope)
  | .statementList => execStatementList rec scope ls
  | .unaryOp => keep ls (execUnaryOp rec scope)
  | .boolOp => keep ls (execBoolOp rec scope)
  | .binaryOp => keep ls (execBinaryOp rec scope)
  | .return => keep ls (execReturn rec scope)
  | .list => keep ls (execList rec scope)
  | .string => keep ls execString
  | .compare => keep ls (execCompare rec scope)
  | .index => keep ls (evaluate rec scope)
  | .integer => keep ls execInteger
  | .call => keep ls (execCall rec scope)
  | .if => execIf rec scope ls
  | .ifElse => execIfElse rec scope ls
  | .dictionary => keep ls (execDictionary rec scope)
  | .subscript => keep ls (execSubscript rec scope)
  | .whileLoop => keep ls (execWhileLoop rec scope n)
  | .forLoop => keep ls (execForLoop rec scope n)
  | .listComp => execListComp rec scope n ls
  | .augmentedAssign => keep ls (execAugmentedAssign rec scope)
  | .functionDef => keep ls (execFunctionDef rec scope)
  | _ => throwRuntime (lit "Unknown node type!")

/-- The node types allowed at the top level. -/
def topLevelType (type : NodeType) : Bool :=
  type == .functionDef || type == .statementList || type == .importFrom || type == .import ||
    type == .alias || type == .pass

/-- The check before the switch of `execute_next`. -/
def checkTopLevel (ls : LoopState) (type : NodeType) : M Unit :=
  throwIf (ls != .ignoreAll && Scope.depth scope == 0 && !topLevelType type)
    (lit "Wrong code: you have to put all program logic into functions, no " ++
      lit "code execution on the top level allowed. [" ++ typeText type ++ lit "]")

/-- The epilogue of `execute_next`: every loop state but `Normal` and `None` puts the
cursor back to the start of the node. -/
def epilogue (start : UInt32) (res : ValuePtr × LoopState) : M (ValuePtr × LoopState) := do
  if res.2 != .normal && res.2 != .none then do
    moveTo start
    pure res
  else pure res

/-- `execute_next` after its `CHARGE_EXECUTION`. -/
def executeCharged (n : Nat) (ls : LoopState) : M (ValuePtr × LoopState) := do
  let start ← pos
  let type ← readType
  checkTopLevel scope ls type
  record (.nodeEntered type ls (Scope.depth scope))
  let res ← execNode rec scope n ls type
  epilogue start res

end Nodes

/-- `execute_next`. -/
def executeNext : Nat → Rec
  | 0, _, _ => throw .outOfFuel
  | n + 1, scope, ls => do
    charge
    executeCharged (executeNext n) scope n ls

/-- `execute`. -/
def execute (n : Nat) : M ValuePtr := do
  evaluate (executeNext n) (← globalScope)

/-- `re_assign_bitstream`. -/
def reAssignBitstream (data : List UInt8) : M Unit := fun s =>
  .ok () { s with interp := { s.interp with data := s.interp.data.assign data } }

/-- What `handle_readline` does with a compiled line. -/
def submit (n : Nat) (doc : List UInt8) : M ValuePtr := do
  reAssignBitstream doc
  execute n

/-! ### Calls from outside -/

/-- A read operator applied to a local stream. -/
def fromStream {α : Type} (f : Bitstream → Option α × Bitstream) (b : Bitstream) : M (α × Bitstream) :=
  match f b with
  | (some a, b') => pure (a, b')
  | (none, _) => throwRuntime (lit "Unexpected EOF")

/-- One argument of `calldata`: a type tag and the value. -/
def calldataArgument (acc : List ValuePtr × Bitstream) : M (List ValuePtr × Bitstream) := do
  charge
  let (argtype, b) ← fromStream Bitstream.readWord acc.2
  match argtype.toNat with
  | 1 => do
    let (arg, b) ← fromStream Bitstream.readString b
    let p ← create (.string arg)
    pure (acc.1 ++ [p], b)
  | 2 => do
    let (arg, b) ← fromStream Bitstream.readLong b
    let p ← create (.integer arg.toInt64)
    pure (acc.1 ++ [p], b)
  | 3 => do
    let (arg, b) ← fromStream Bitstream.readLong b
    let p ← create (.float arg)
    pure (acc.1 ++ [p], b)
  | 4 => do
    let (arg, b) ← fromStream Bitstream.readBool b
    let p ← create (.bool arg)
    pure (acc.1 ++ [p], b)
  | _ => throwRuntime (lit "Only string, int, float and bool are allowed as arguments.")

/-- The function name at the head of the call data, `default` when there is none. -/
def calldataFunction (data : Str) : M (Str × Bitstream) :=
  if data.length > 0 then fromStream Bitstream.readString (Bitstream.ofBytes data)
  else pure (lit "default", Bitstream.ofBytes data)

/-- The check of `calldata` on the name and the value it stands for. -/
def callableNamed (function : Str) (value : ValuePtr) : M Ref := do
  match value with
  | none => throwRuntime (lit "Cannot call un-callable or unknown function: " ++ function)
  | some r => do
    throwIf (function.take 1 == lit "_" || !(← load r).isCallable)
      (lit "Cannot call un-callable or unknown function: " ++ function)
    pure r

/-- The number of arguments; a stream that ends here has none. -/
def calldataCount (b : Bitstream) : Nat × Bitstream :=
  match b.readWord with
  | (some n, b') => (n.toNat, b')
  | (none, b') => (0, b')

/-- `calldata`. -/
def calldata (n : Nat) (data : Str) : M ValuePtr := do
  let (function, argsbit) ← calldataFunction data
  let scope ← globalScope
  let callable ← callableNamed function (← getValue scope function)
  let (args, _) ← iterateM (calldataCount argsbit).1 calldataArgument ([], (calldataCount argsbit).2)
  call (executeNext n) true callable args scope

end M

end ContractPython
