import ContractPython.Model.Interpreter

/-!
# Running a contract

`execute_program` in `library.cpp`: it sets the process-wide variables, loads the
contract's storage, runs the program and one call under a step limit, and turns the
exception that ends the run into a return code.
-/

namespace ContractPython

/-- `blockchain_arguments`. -/
structure BlockchainArguments where
  txid : Str
  currentBlock : Str
  previousBlock : Str
  currentTime : UInt32
  currentHeight : UInt32
  previousTime : UInt32
  sender : Str
  contractAddress : Str
  value : UInt64
  contractBalance : UInt64

/-- `snappy::Uncompress` and the boost archives. A storage that is no archive throws. -/
structure Archive where
  uncompress : Str → Str
  load : Str → Except Exn Store
  save : Store → Str

/-- The arguments of `execute_program`. -/
structure Arguments where
  raw : Str
  network : NetType
  blkchn : BlockchainArguments
  gas : UInt64
  gasprice : UInt32
  oldStorage : Str
  data : Str

/-- What outlives a call of `execute_program`: the variables of the blockchain module, the
state of `rand()` and the buffers. -/
structure Process where
  chain : Blockchain
  rand : RandState
  stdoutBuffer : Str
  errorBuffer : Str

/-- What a call of `execute_program` leaves behind. The log is that of the run. -/
structure Outcome where
  code : Nat
  usedG : UInt64
  storage : Str
  process : Process
  log : List Event

/-- The globals `execute_program` sets. -/
def Blockchain.ofArguments (blkchn : BlockchainArguments) (network : NetType) : Blockchain where
  txid := blkchn.txid
  currentBlock := blkchn.currentBlock
  previousBlock := blkchn.previousBlock
  currentTime := blkchn.currentTime
  currentHeight := blkchn.currentHeight
  previousTime := blkchn.previousTime
  sender := blkchn.sender
  contractAddress := blkchn.contractAddress
  value := blkchn.value
  contractBalance := blkchn.contractBalance
  sendMap := .empty
  net := network

namespace M

/-- `Interpreter::set_execution_step_limit`. -/
def setExecutionStepLimit (limit : UInt32) : M Unit := fun s =>
  if limit = 0 then .error (.runtimeError (lit "Limit has to be larger than 0")) s
  else .ok () { s with interp := { s.interp with executionStepLimit := limit } }

/-- `register_blockchain_module`. -/
def registerBlockchainModule : M Unit := do
  let v ← newBlockchainModule
  addModule (lit "blockchain") v

/-- `Interpreter pyint(doc, mem_manager)` for the outermost interpreter. -/
def newInterpreter (code : Str) : M Unit := do
  malloc
  let store ← makeShared (.persistableDictionary .empty)
  fun s => .ok () { s with
    frames := [.empty]
    interp := {
      data := Bitstream.ofBytes code
      numExecutionSteps := 0
      executionStepLimit := 0
      globalScope := [0]
      loadedModules := .empty
      store := store } }
  setValue [0] (lit "store") (some store)

/-- `*get_storage_pointer() = ...`. -/
def setStorage (st : Store) : M Unit := fun s =>
  .ok () { s with heap := s.heap.set s.interp.store (.persistableDictionary st) }

/-- The storage of the outermost interpreter. -/
def storage (s : State) : Store :=
  match s.heap[s.interp.store]? with
  | some (.persistableDictionary st) => st
  | _ => .empty

/-- Unserializes the old storage, if there is one. -/
def loadOldStorage (archive : Archive) (oldStorage : Str) : M Unit :=
  if oldStorage.length > 0 then do
    let st ← liftExcept (archive.load oldStorage)
    setStorage st
  else pure ()

/-- `limit = gas; limit /= gasprice; pyint.set_execution_step_limit((uint32_t)limit);` -/
def limitFromGas (gas : UInt64) (gasprice : UInt32) : M Unit :=
  if gasprice = 0 then throw (.crash (lit "division by zero"))
  else setExecutionStepLimit (gas / gasprice.toUInt64).toUInt32

/-- Everything `execute_program` does before the `try` block. -/
def setup (archive : Archive) (args : Arguments) : M Unit := do
  newInterpreter (archive.uncompress args.raw)
  loadOldStorage archive args.oldStorage
  limitFromGas args.gas args.gasprice
  registerBlockchainModule

/-- The `try` block: run the program, then the call. -/
def runProgram (fuel : Nat) (data : Str) : M Unit := do
  let _ ← execute fuel
  let _ ← calldata fuel data

end M

/-- `what()` of an exception. -/
def Exn.what : Exn → Str
  | .runtimeError what | .languageException what | .valueException what => what
  | .suicide => lit "Contract has suicided and will go into hibernation mode now."
  | .revert => lit "Contract execution has been reverted!"
  | .outOfGas => lit "Contract execution has been aborted because the VM ran out of gas!"
  | .stopIteration | .crash _ | .outOfFuel => []

/-- The return code of the handler that catches an exception; `none` passes through. -/
def Exn.returnCode : Exn → Option Nat
  | .outOfGas => some 0x70
  | .suicide => some 0x69
  | .revert => some 0x71
  | .runtimeError _ | .languageException _ | .valueException _ => some 0x80
  | .stopIteration | .crash _ | .outOfFuel => none

namespace Library

/-- The state `execute_program` starts its interpreter in. -/
def initialState (codec : AddressCodec) (memory : MemoryManager) (process : Process)
    (args : Arguments) : State where
  interp := {
    data := Bitstream.ofBytes []
    numExecutionSteps := 0
    executionStepLimit := 0
    globalScope := [0]
    loadedModules := .empty
    store := 0 }
  heap := []
  frames := []
  chain := Blockchain.ofArguments args.blkchn args.network
  codec := codec
  memory := memory
  rand := process.rand
  stdoutBuffer := process.stdoutBuffer
  log := []

/-- What a handler returns: the gas, the storage and the error text. -/
def finish (archive : Archive) (gasprice : UInt32) (errorBuffer : Str) (code : Nat) (s : State) :
    Outcome where
  code := code
  usedG := (s.interp.numExecutionSteps * gasprice).toUInt64
  storage := archive.save (M.storage s)
  process := {
    chain := s.chain
    rand := s.rand
    stdoutBuffer := s.stdoutBuffer
    errorBuffer := errorBuffer }
  log := s.log

/-- `execute_program`. An exception before the `try` block leaves the function. -/
def executeProgram (archive : Archive) (codec : AddressCodec) (memory : MemoryManager) (fuel : Nat)
    (args : Arguments) (process : Process) : Except Exn Outcome :=
  match M.setup archive args (initialState codec memory process args) with
  | .error e _ => .error e
  | .ok _ s =>
    match M.runProgram fuel args.data s with
    | .ok _ s' => .ok (finish archive args.gasprice process.errorBuffer 0 s')
    | .error e s' =>
      match e.returnCode with
      | none => .error e
      | some code =>
        .ok (finish archive args.gasprice
          (process.errorBuffer ++ lit "ContractError: " ++ e.what ++ lit "\n") code s')

end Library

end ContractPython
