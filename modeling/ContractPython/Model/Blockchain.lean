import ContractPython.Model.Containers

/-!
# The blockchain module

`blockchain_module.cpp`: the address check, the transfer of funds, the RC4 generator
and the member functions a contract can call.
-/

namespace ContractPython

/-! ### Addresses -/

structure ChainParams where
  b58prefixPubkeyAddress : UInt8
  b58prefixScriptAddress : UInt8
  bech32Hrp : Str

/-- `btc_chainparams_main`, `btc_chainparams_test` and `btc_chainparams_regtest`. -/
def chainParams : NetType → ChainParams
  | .main => ⟨0x00, 0x05, lit "bc"⟩
  | .test => ⟨0x6f, 0xc4, lit "tb"⟩
  | .regtest => ⟨0x6f, 0xc4, lit "bcrt"⟩

/-- `addr_check` on a C string. -/
def addrCheck (codec : AddressCodec) (net : NetType) (address : Str) : Bool :=
  let params := chainParams net
  let (r, buf) := codec.base58DecodeCheck address
  if r > 0 && buf.head? == some params.b58prefixPubkeyAddress then true
  else if r > 0 && buf.head? == some params.b58prefixScriptAddress then true
  else
    match codec.segwitAddrDecode params.bech32Hrp address with
    | some (_, program) => program.length == 20
    | none => false

/-! ### The generator -/

namespace Prng

/-- The preseeded state of a fresh module. -/
def init : Prng := ⟨Vector.ofFn fun i : Fin 256 => UInt8.ofNat i.val, 0, 0, false⟩

def swap (p : Prng) (i j : Nat) : Prng :=
  { p with s := (p.s.setIfInBounds i (p.s.getD j 0)).setIfInBounds j (p.s.getD i 0) }

/-- `get_octet`: `key` is treated as a circular array. -/
def getOctet (key : Str) (octetIdx : Nat) : UInt8 := key.getD (octetIdx % key.length) 0

/-- The loop of `prng_seed_bytes`, with `count` rounds left. -/
def seedLoop (key : Str) : Nat → Nat → Nat → Prng → Prng
  | 0, _, _, p => p
  | count + 1, i, j, p =>
    let j' := (j + (p.s.getD i 0).toNat + (getOctet key i).toNat) % 256
    seedLoop key count (i + 1) j' (p.swap i j')

/-- `prng_seed_bytes`. An empty key makes `get_octet` divide by zero. -/
def seedBytes (p : Prng) (key : Str) : Except Exn Prng :=
  if key.length = 0 then .error (.crash (lit "modulo by zero"))
  else .ok { seedLoop key 256 0 0 p with i := 0, j := 0, seeded := true }

/-- `prng_get_octet`. -/
def nextOctet (p : Prng) : UInt8 × Prng :=
  let i := (p.i + 1) % 256
  let j := (p.j + (p.s.getD i 0).toNat) % 256
  let p' := { p with i := i, j := j }.swap i j
  (p'.s.getD (((p'.s.getD i 0).toNat + (p'.s.getD j 0).toNat) % 256) 0, p')

/-- `prng_get_uint`: four octets, the first one most significant. -/
def nextUint (p : Prng) : UInt32 × Prng :=
  let (a, p) := p.nextOctet
  let (b, p) := p.nextOctet
  let (c, p) := p.nextOctet
  let (d, p) := p.nextOctet
  (((a.toUInt32 <<< 8 ||| b.toUInt32) <<< 8 ||| c.toUInt32) <<< 8 ||| d.toUInt32, p)

end Prng

/-- The strings `seed` feeds into the generator, cut at the first NUL by `strlen`. -/
def Blockchain.seedKeys (chain : Blockchain) : List Str :=
  [cStr chain.currentBlock, cStr chain.previousBlock, cStr chain.sender,
    cStr chain.contractAddress, cStr chain.txid]

namespace M

def getChain : M Blockchain := fun s => .ok s.chain s

/-- Writes `send_map` and `contract_balance`. -/
def setFunds (sendMap : SortedMap Str UInt64) (contractBalance : UInt64) : M Unit := fun s =>
  .ok () { s with
    chain := { s.chain with sendMap := sendMap, contractBalance := contractBalance }
    log := .fundsMoved :: s.log }

/-- `addr_check(a.c_str())` on the selected network. -/
def checkAddress (a : Str) : M Bool := fun s =>
  .ok (addrCheck s.codec s.chain.net (cStr a)) s

/-- `rand()`. -/
def rand : M (Fin 2147483648) := fun s =>
  .ok (s.rand.numbers s.rand.drawn)
    { s with rand := { s.rand with drawn := s.rand.drawn + 1 }, log := .randDrawn :: s.log }

/-! ### Member functions -/

/-- The string behind the `address` argument of a member function. -/
def addressArgument (scope : ScopeRef) : M Str := do
  throwIf (!(← hasValue scope (lit "address"))) (lit "address argument not present")
  match ← getValue scope (lit "address") with
  | none => throwRuntime (lit "pointer clash")
  | some p => str p

/-- The checks `assert_address` and `send` make on an address. -/
def validAddress (scope : ScopeRef) : M Str := do
  let a ← addressArgument scope
  throwIf a.isEmpty (lit "address cannot be of length zero")
  throwIf (!(← checkAddress a)) (lit "assert failed: argument is not a valid address")
  pure a

/-- `BlockchainModule::assert_address`. -/
def assertAddress (scope : ScopeRef) : M ValuePtr := do
  let _ ← validAddress scope
  create (.bool true)

/-- Adds `amount` to the receiver's entry of `send_map`; the sum is tested only after it
is stored. -/
def creditReceiver (a : Str) (amount : UInt64) (overflow : Str) : M Unit := do
  let chain ← getChain
  match chain.sendMap.find? a with
  | some old => do
    setFunds (chain.sendMap.insert a (old + amount)) chain.contractBalance
    throwIf (old + amount ≤ old) overflow
  | none => setFunds (chain.sendMap.insert a amount) chain.contractBalance

/-- `unpack_integer`. -/
def unpackInteger (p : ValuePtr) : M Int64 := do
  match ← loadPtr p with
  | some (.integer i) => pure i
  | _ => throwRuntime (lit "value is not an integer")

/-- `BlockchainModule::send`. -/
def send (scope : ScopeRef) : M ValuePtr := do
  let a ← validAddress scope
  throwIf (!(← hasValue scope (lit "value"))) (lit "value argument not present")
  let value ← unpackInteger (← getValue scope (lit "value"))
  let chain ← getChain
  throwIf (value ≤ 0 || value.toUInt64 > chain.contractBalance)
    (lit "sending nothing or more than the contract balance not allowed")
  creditReceiver a value.toUInt64
    (lit "sending produces overflow in receiver balance [receiver's balance]")
  let chain ← getChain
  setFunds chain.sendMap (chain.contractBalance - value.toUInt64)
  throwIf (chain.contractBalance - value.toUInt64 ≥ chain.contractBalance)
    (lit "sending produces overflow in contract balance [sender's balance]")
  create (.bool true)

/-- `BlockchainModule::suicide`. -/
def suicide (scope : ScopeRef) : M ValuePtr := do
  let a ← addressArgument scope
  let chain ← getChain
  creditReceiver a chain.contractBalance (lit "sending produces overflow in receiver balance")
  let chain ← getChain
  setFunds chain.sendMap 0
  throw .suicide

/-- `BlockchainModule::seed`, unless the generator was seeded before. -/
def seeded (prng : Prng) : M Prng := do
  let chain ← getChain
  if prng.seeded then pure prng
  else liftExcept (chain.seedKeys.foldlM (fun p key => p.seedBytes key) prng)

/-- `BlockchainModule::get_random` on the generator of the module object at `module`. -/
def getRandom (module : Ref) : M ValuePtr := do
  match ← load module with
  | .blockchainModule prng functionMap => do
    let prng ← seeded prng
    storeAt module (.blockchainModule prng.nextUint.2 functionMap)
    create (.integer (Int64.ofInt prng.nextUint.1.toNat))
  | _ => throw (.crash (lit "dangling reference"))

/-- The member function behind a `function_map` entry. -/
def memberFunction (func : BlockchainFn) (module : Ref) (scope : ScopeRef) : M ValuePtr := do
  let chain ← getChain
  match func with
  | .txid => create (.string chain.txid)
  | .currentHeight => create (.integer (Int64.ofInt chain.currentHeight.toNat))
  | .currentBlock => create (.string chain.currentBlock)
  | .previousBlock => create (.string chain.previousBlock)
  | .currentTime => create (.integer (Int64.ofInt chain.currentTime.toNat))
  | .previousTime => create (.integer (Int64.ofInt chain.previousTime.toNat))
  | .sender => create (.string chain.sender)
  | .contractAddress => create (.string chain.contractAddress)
  | .value => create (.integer chain.value.toInt64)
  | .contractBalance => create (.integer chain.contractBalance.toInt64)
  | .random => getRandom module
  | .assertAddress => assertAddress scope
  | .send => send scope
  | .revert => throw .revert
  | .suicide => suicide scope

/-- `CallableCFunction::call`. -/
def callCFunction (params : List Str) (func : BlockchainFn) (module : Ref) (args : List ValuePtr)
    (scope : ScopeRef) : M ValuePtr :=
  withScope scope fun bodyScope => do
    requireGlobal bodyScope
    throwIf (args.length != params.length)
      (lit "You did not provide the correct number of arguments to the function")
    (params.zip args).forM fun (name, arg) => setValue bodyScope name arg
    memberFunction func module bodyScope

/-- The names, parameters and functions the constructor registers. -/
def functionTable : List (Str × List Str × BlockchainFn) :=
  [(lit "txid", [], .txid), (lit "current_height", [], .currentHeight),
    (lit "current_block", [], .currentBlock), (lit "previous_block", [], .previousBlock),
    (lit "current_time", [], .currentTime), (lit "previous_time", [], .previousTime),
    (lit "sender", [], .sender), (lit "contract_address", [], .contractAddress),
    (lit "value", [], .value), (lit "contract_balance", [], .contractBalance),
    (lit "random", [], .random), (lit "assert_address", [lit "address"], .assertAddress),
    (lit "send", [lit "address", lit "value"], .send), (lit "revert", [], .revert),
    (lit "suicide", [lit "address"], .suicide)]

/-- `BlockchainModule::BlockchainModule`. -/
def newBlockchainModule : M Ref := do
  let module ← alloc (.blockchainModule Prng.init .empty)
  let functionMap ← functionTable.foldlM (fun functionMap (name, params, func) => do
    let f ← alloc (.cFunction params func module)
    pure (functionMap.insert name f)) (.empty : SortedMap Str Ref)
  storeAt module (.blockchainModule Prng.init functionMap)
  pure module

/-- The lambda behind `rand.randint`. -/
def randint (args : List ValuePtr) : M ValuePtr :=
  match args with
  | [first, second] => do
    let start ← valueCast Value.integer? first
    let stop ← valueCast Value.integer? second
    throwIf (stop ≤ start) (lit "Not a valid range")
    let n ← rand
    create (.integer (start + Int64.ofInt n.val % (stop - start)))
  | _ => throwRuntime (lit "Invalid number of arguments")

end M

end ContractPython
