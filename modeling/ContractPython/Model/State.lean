import ContractPython.Lib.SortedMap
import ContractPython.Model.Bitstream

/-!
# Values, scopes and the state of a run

Every `shared_ptr<Value>` is a reference into a heap of value objects, so that two
variables holding the same pointer share one object. `Scope` objects live on a stack
of frames; a `Scope &` is the list of frame numbers from the innermost scope out to
the scope without a parent.
-/

namespace ContractPython

/-- The address of a value object. -/
abbrev Ref := Nat

/-- `ValuePtr`; `none` is the null pointer, the value of `None`. -/
abbrev ValuePtr := Option Ref

/-- A `Scope &`: the frame of the scope, then those of its ancestors. -/
abbrev ScopeRef := List Nat

inductive BuiltinType
  | range | makeInt | makeString | min | max | print | length
  deriving DecidableEq, Repr

/-- The member functions `BlockchainModule` registers in its `function_map`. -/
inductive BlockchainFn
  | txid | currentHeight | currentBlock | previousBlock | currentTime | previousTime | sender
  | contractAddress | value | contractBalance | random | assertAddress | send | revert | suicide
  deriving DecidableEq, Repr

/-- The four maps of a `PersistableDictionary`. A `double` is kept as its 64 bits. -/
structure Store where
  elementsString : SortedMap Str Str
  elementsInt : SortedMap Str Int64
  elementsDouble : SortedMap Str UInt64
  elementsBool : SortedMap Str Bool
  deriving DecidableEq

def Store.empty : Store := ⟨.empty, .empty, .empty, .empty⟩

/-- The RC4 state of a `BlockchainModule`. -/
structure Prng where
  s : Vector UInt8 256
  i : Nat
  j : Nat
  seeded : Bool
  deriving DecidableEq

/-- The value objects. A `std::map` iterator is the key it points at, `none` being
`end()`; the references that back an iterator or a bound member are plain addresses. -/
inductive Value
  | bool (val : Bool)
  | string (val : Str)
  | integer (val : Int64)
  | float (val : UInt64)
  | alias (name asName : Str)
  | list (elements : List ValuePtr)
  | tuple (content : List ValuePtr)
  | dictionary (elements : SortedMap Str ValuePtr)
  | persistableDictionary (store : Store)
  | listIterator (list : Ref) (pos : UInt32)
  | rangeIterator (pos stop stepSize : Int32)
  | dictItems (dict : Ref)
  | dictItemIterator (dict : Ref) (it : Option Str)
  | dictKeyIterator (dict : Ref) (it : Option Str)
  | builtin (type : BuiltinType)
  | vmFunction (beginJump : List UInt8) (args : List Str) (defaults : List ValuePtr)
  | listAppend (list : Ref)
  | randint
  | cFunction (args : List Str) (func : BlockchainFn) (module : Ref)
  | randModule
  | blockchainModule (prng : Prng) (functionMap : SortedMap Str Ref)
  deriving DecidableEq

def Value.type : Value → ValueType
  | .bool _ => .bool
  | .string _ => .string
  | .integer _ => .integer
  | .float _ => .float
  | .alias _ _ => .alias
  | .list _ => .list
  | .tuple _ => .tuple
  | .dictionary _ => .dictionary
  | .persistableDictionary _ => .persistableDictionary
  | .listIterator _ _ | .rangeIterator _ _ _ | .dictItemIterator _ _ | .dictKeyIterator _ _ => .iterator
  | .dictItems _ => .dictItems
  | .builtin _ => .builtin
  | .vmFunction _ _ _ | .listAppend _ | .randint | .cFunction _ _ _ => .function
  | .randModule | .blockchainModule _ _ => .module

/-- `is_callable`: the subclasses of `Callable`. -/
def Value.isCallable : Value → Bool
  | .dictItems _ | .builtin _ | .vmFunction _ _ _ | .listAppend _ | .randint | .cFunction _ _ _ => true
  | _ => false

/-- `is_generator`: every iterator of the interpreter is a `Generator`. -/
def Value.isGenerator : Value → Bool
  | .listIterator _ _ | .rangeIterator _ _ _ | .dictItemIterator _ _ | .dictKeyIterator _ _ => true
  | _ => false

/-- `can_iterate`: the subclasses of `IterateableValue`. -/
def Value.canIterate : Value → Bool
  | .list _ | .dictionary _ => true
  | _ => false

/-- `bool_test`: true unless a class overrides it. -/
def Value.boolTest : Value → Bool
  | .bool b => b
  | .integer i => i != 0
  | _ => true

/-- A `Scope` object without its parent pointer, which `ScopeRef` keeps. -/
structure Frame where
  values : SortedMap Str ValuePtr
  globalTags : List Str
  terminated : Bool
  requireGlobal : Bool
  deriving DecidableEq

def Frame.empty : Frame := ⟨.empty, [], false, false⟩

/-- The members of one `Interpreter`. -/
structure Interp where
  data : Bitstream
  numExecutionSteps : UInt32
  executionStepLimit : UInt32
  globalScope : ScopeRef
  loadedModules : SortedMap Str Ref
  store : Ref

inductive NetType
  | main | test | regtest
  deriving DecidableEq, Repr

/-- The process-wide variables of the blockchain module. -/
structure Blockchain where
  txid : Str
  currentBlock : Str
  previousBlock : Str
  currentTime : UInt32
  currentHeight : UInt32
  previousTime : UInt32
  sender : Str
  contractAddress : Str
  value : UInt64
  contractBalance : UInt64
  sendMap : SortedMap Str UInt64
  net : NetType
  deriving DecidableEq

/-- The address decoders of the bitcoin library. `base58DecodeCheck` gives the result
code and the buffer, `segwitAddrDecode` the version and the program on success. -/
structure AddressCodec where
  base58DecodeCheck : Str → Int × List UInt8
  segwitAddrDecode : Str → Str → Option (Int × List UInt8)

/-- A memory manager as its clients see it: which requests it grants. -/
structure MemoryManager where
  grants : Nat → Bool
  requests : Nat

/-- A manager that never refuses, like `DummyMemoryManager`. -/
def MemoryManager.dummy : MemoryManager := ⟨fun _ => true, 0⟩

/-- The generator behind libc's `rand()`: its numbers, at most `RAND_MAX`, and how many of
them the process has drawn. -/
structure RandState where
  numbers : Nat → Fin 2147483648
  drawn : Nat

/-- What the log records. No code reads the log; it only lets statements speak about
what happened during a run. -/
inductive Event
  | charged
  | calleeReturned
  | storeWritten
  | fundsMoved
  | randDrawn
  /-- A VM function is called. -/
  | functionCalled
  /-- A node is executed at a depth of scopes. -/
  | nodeEntered (type : NodeType) (ls : LoopState) (depth : Nat)
  /-- A lookup is answered by a frame, or by none. -/
  | nameFound (frame : Option Nat)
  /-- A `has_value` question; the frames asked that bind the name. -/
  | nameTested (binders : List Nat)
  /-- A name is bound in a frame. -/
  | nameBound (frame : Nat)
  deriving DecidableEq, Repr

/-- The state of a run: the running interpreter, the objects, the process-wide variables. -/
structure State where
  interp : Interp
  heap : List Value
  frames : List Frame
  chain : Blockchain
  codec : AddressCodec
  memory : MemoryManager
  rand : RandState
  stdoutBuffer : Str
  log : List Event

abbrev M := EStateM Exn State

namespace M

/-- `throw std::runtime_error(what)`. -/
def throwRuntime {α : Type} (what : Str) : M α := throw (.runtimeError what)

/-- `if(cond) throw std::runtime_error(what);` -/
def throwIf (cond : Bool) (what : Str) : M Unit := if cond then throwRuntime what else pure ()

def record (e : Event) : M Unit := fun s => .ok () { s with log := e :: s.log }

/-! ### Memory and the heap -/

/-- `MemoryManager::malloc`. -/
def malloc : M Unit := fun s =>
  let s' := { s with memory := { s.memory with requests := s.memory.requests + 1 } }
  if s.memory.grants s.memory.requests then .ok () s'
  else .error (.runtimeError (lit "out of memory: program tries to allocate too much heap memory!")) s'

/-- A new object outside the memory manager's heap, as `std::make_shared` makes it. -/
def makeShared (v : Value) : M Ref := fun s => .ok s.heap.length { s with heap := s.heap ++ [v] }

/-- `new(mem) T(mem, ...)`. -/
def alloc (v : Value) : M Ref := do
  malloc
  makeShared v

/-- `new(mem) T(mem, ...)` wrapped into a `ValuePtr`. -/
def create (v : Value) : M ValuePtr := do
  let r ← alloc v
  pure (some r)

/-- The object at an address. -/
def load (r : Ref) : M Value := fun s =>
  match s.heap[r]? with
  | some v => .ok v s
  | none => .error (.crash (lit "dangling reference")) s

/-- Assigns the members of the object at an address, which keeps its class: `v` is what the
object is afterwards. -/
def storeAt (r : Ref) (v : Value) : M Unit := fun s =>
  if (s.heap[r]?).map Value.ctorIdx = some v.ctorIdx then .ok () { s with heap := s.heap.set r v }
  else .error (.crash (lit "dangling reference")) s

/-- `ASSERT_GENERIC`. -/
def assertGeneric (p : ValuePtr) : M Ref :=
  match p with
  | some r => pure r
  | none => throwRuntime (lit "VM was halted: bytecode is improperly formatted.")

/-- `value_cast<T>`: `proj` tells which objects are a `T`. -/
def valueCast {α : Type} (proj : Value → Option α) (p : ValuePtr) : M α :=
  match p with
  | none => throw (.valueException (lit "Invalid value cast"))
  | some r => do
    match proj (← load r) with
    | some a => pure a
    | none => throw (.valueException (lit "Invalid value cast"))

end M

/-! ### The projections behind `value_cast` -/

namespace Value

def bool? : Value → Option Bool
  | .bool b => some b
  | _ => none

def string? : Value → Option Str
  | .string s => some s
  | _ => none

def integer? : Value → Option Int64
  | .integer i => some i
  | _ => none

def float? : Value → Option UInt64
  | .float f => some f
  | _ => none

def alias? : Value → Option (Str × Str)
  | .alias name asName => some (name, asName)
  | _ => none

def list? : Value → Option (List ValuePtr)
  | .list elements => some elements
  | _ => none

def tuple? : Value → Option (List ValuePtr)
  | .tuple content => some content
  | _ => none

def dictionary? : Value → Option (SortedMap Str ValuePtr)
  | .dictionary elements => some elements
  | _ => none

def store? : Value → Option Store
  | .persistableDictionary store => some store
  | _ => none

end Value

end ContractPython
