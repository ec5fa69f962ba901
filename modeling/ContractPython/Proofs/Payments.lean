import Mathlib.Data.List.TakeWhile
import ContractPython.Proofs.Effects
import ContractPython.Proofs.Funds
import ContractPython.Proofs.Scopes

/-!
# Payments

Who is paid by a run of a contract: `send` checks an address as far as its first NUL byte, and
`suicide` does not check it.
-/

namespace ContractPython.Proofs

open Program M

/-- A receiver, and the member function that credits it. -/
inductive Payment
  | send (a : Str)
  | suicide (a : Str)

/-- An address that can be paid. -/
def Payable (codec : AddressCodec) (net : NetType) (a : Str) : Prop :=
  0 ∉ a ∧ addrCheck codec net a = true

namespace Payment

def receiver : Payment → Str
  | send a | suicide a => a

/-- What the member function does not check. -/
def Sound (codec : AddressCodec) (net : NetType) : Payment → Prop
  | send a => 0 ∉ a
  | suicide a => Payable codec net a

end Payment

/-- A run as the accounts see it: its transfers in their order, and between them nothing that
concerns the accounts. -/
inductive Transfers : List Payment → State → State → Prop
  | idle {s s' : State} (hchain : s'.chain = s.chain) (hcodec : s'.codec = s.codec) : Transfers [] s s'
  | send {s s₁ : State} {a : Str} {amount : UInt64} (scope : ScopeRef)
      (h : sendRequest scope s = .ok (a, amount) s₁) :
      Transfers [.send a] s (finalState (send scope) s)
  | suicide {s s₁ : State} {a : Str} (scope : ScopeRef) (h : addressArgument scope s = .ok a s₁) :
      Transfers [.suicide a] s (finalState (suicide scope) s)
  | trans {s s' s'' : State} {payments payments' : List Payment} (h : Transfers payments s s')
      (h' : Transfers payments' s' s'') : Transfers (payments ++ payments') s s''

/-! ### One transfer -/

/-- What `send_map` looks like, and how its keys are checked. -/
def receivers (s : State) : NetType × AddressCodec × SortedMap Str UInt64 :=
  (s.chain.net, s.codec, s.chain.sendMap)

/-- The receiver has an entry now. -/
def Credits (a : Str) (s s' : State) : Prop :=
  ∃ entry, receivers s' = (s.chain.net, s.codec, s.chain.sendMap.insert a entry)

lemma receivers_create (v : Value) (s : State) : receivers (finalState (create v) s) = receivers s := by
  by_cases hmem : MemoryLeft s
  · rw [finalState_of_ok (create_of_memoryLeft hmem v)]
    rfl
  · obtain ⟨e, herror⟩ := create_of_not_memoryLeft hmem v
    rw [finalState_of_error herror]
    rfl

/-- The receiver's entry is written first, whatever comes after it. -/
lemma credits_transfer {a : Str} {amount : UInt64} {what : Str} {α : Type} {rest : M α} {s : State}
    (hrest : ∀ s, receivers (finalState rest s) = receivers s) :
    Credits a s (finalState (do creditReceiver a amount what; rest) s) := by
  have hcredit := creditReceiver_apply a amount what s
  cases hany : (s.chain.sendMap.find? a).any fun old => decide (old + amount ≤ old) with
  | true =>
    rw [hany] at hcredit
    rw [finalState_of_error (bind_of_error (hcredit.trans rfl))]
    exact ⟨_, rfl⟩
  | false =>
    rw [hany] at hcredit
    let credited : State := { s with
      chain := { s.chain with sendMap := creditedMap a amount s }
      log := .fundsMoved :: s.log }
    have hfinal : finalState (do creditReceiver a amount what; rest) s = finalState rest credited :=
      finalState_bind_of_ok (hcredit.trans rfl)
    have hsame : receivers (finalState rest credited) = receivers credited := hrest credited
    rw [hfinal]
    exact ⟨_, hsame⟩

lemma credits_send {scope : ScopeRef} {a : Str} {amount : UInt64} {s s₁ : State}
    (h : sendRequest scope s = .ok (a, amount) s₁) : Credits a s (finalState (send scope) s) := by
  obtain ⟨log, rfl⟩ := (checks_sendRequest scope).of_ok h
  have hcredits : Credits a { s with log := log }
      (finalState (sendTransfer a amount) { s with log := log }) := by
    refine credits_transfer fun s => ?_
    -- the balance is written before its check as well
    let written : State := { s with
      chain := { s.chain with contractBalance := s.chain.contractBalance - amount }
      log := .fundsMoved :: s.log }
    let overflows : Bool := decide (s.chain.contractBalance - amount ≥ s.chain.contractBalance)
    show receivers (finalState (do throwIf overflows _; create (.bool true)) written) = receivers s
    cases overflows with
    | true => rfl
    | false => exact receivers_create _ written
  rw [send_eq, finalState_bind_of_ok h]
  exact hcredits

lemma credits_suicide {scope : ScopeRef} {a : Str} {s s₁ : State}
    (h : addressArgument scope s = .ok a s₁) : Credits a s (finalState (suicide scope) s) := by
  obtain ⟨log, rfl⟩ := (Checks.addressArgument scope).of_ok h
  have hcredits : Credits a { s with log := log }
      (finalState (do
        creditReceiver a s.chain.contractBalance (lit "sending produces overflow in receiver balance")
        let chain ← getChain
        setFunds chain.sendMap 0
        throw .suicide : M ValuePtr) { s with log := log }) := credits_transfer fun s => rfl
  have hfinal : finalState (suicide scope) s = _ := finalState_bind_of_ok h
  rw [hfinal]
  exact hcredits

/-- `send` checks the C string of the address. -/
lemma addrCheck_of_sendRequest {scope : ScopeRef} {a : Str} {amount : UInt64} {s s₁ : State}
    (h : sendRequest scope s = .ok (a, amount) s₁) : addrCheck s.codec s.chain.net (cStr a) = true := by
  obtain ⟨a', s₂, hvalid, h⟩ := bind_eq_ok.mp h
  obtain ⟨a'', s₃, haddr, hvalid⟩ := bind_eq_ok.mp hvalid
  obtain ⟨log, rfl⟩ := (Checks.addressArgument scope).of_ok haddr
  obtain ⟨_, s₄, hthrow, hvalid⟩ := bind_eq_ok.mp hvalid
  obtain ⟨-, rfl⟩ := throwIf_eq_ok.mp hthrow
  obtain ⟨valid, s₅, hcheck, hvalid⟩ := bind_eq_ok.mp hvalid
  cases hcheck
  obtain ⟨_, s₆, hthrow, hvalid⟩ := bind_eq_ok.mp hvalid
  obtain ⟨hcheck, rfl⟩ := throwIf_eq_ok.mp hthrow
  cases hvalid
  have hsame : a' = a := by
    obtain ⟨has, s₇, hhas, h⟩ := bind_eq_ok.mp h
    obtain ⟨_, s₈, hthrow, h⟩ := bind_eq_ok.mp h
    obtain ⟨p, s₉, hp, h⟩ := bind_eq_ok.mp h
    obtain ⟨value, s₁₀, hvalue, h⟩ := bind_eq_ok.mp h
    obtain ⟨chain, s₁₁, hchain, h⟩ := bind_eq_ok.mp h
    obtain ⟨_, s₁₂, hthrow, h⟩ := bind_eq_ok.mp h
    cases h
    rfl
  subst hsame
  simpa using hcheck

/-! ### Runs -/

section Runs

variable {payments : List Payment} {s s' : State}

/-- A string without a NUL byte is its own C string. -/
lemma cStr_of_not_mem {a : Str} (h : 0 ∉ a) : cStr a = a := by
  refine List.takeWhile_eq_self_iff.mpr fun b hb => ?_
  have hne : b ≠ 0 := ne_of_mem_of_not_mem hb h
  simpa using hne

lemma contains_credited {a a' : Str} (h : Credits a s s') :
    s'.chain.sendMap.contains a' = true ↔ s.chain.sendMap.contains a' = true ∨ a' = a := by
  obtain ⟨entry, hentry⟩ := h
  have hmap : s'.chain.sendMap = s.chain.sendMap.insert a entry := congrArg (·.2.2) hentry
  rw [hmap]
  unfold SortedMap.contains
  by_cases ha : a' = a
  · subst ha
    simp
  · rw [SortedMap.find?_insert_of_ne _ _ _ _ ha]
    simp [ha]

/-- After a run, the keys of `send_map` are the old ones and the receivers of its payments, and the
receivers of `send` have passed its check. -/
structure Receives (payments : List Payment) (s s' : State) : Prop where
  net_eq : s'.chain.net = s.chain.net
  codec_eq : s'.codec = s.codec
  keys_iff : ∀ a, s'.chain.sendMap.contains a = true ↔
    s.chain.sendMap.contains a = true ∨ ∃ p ∈ payments, p.receiver = a
  checked : ∀ a, .send a ∈ payments → addrCheck s.codec s.chain.net (cStr a) = true

lemma Transfers.receives (h : Transfers payments s s') : Receives payments s s' := by
  induction h with
  | idle hchain hcodec =>
    refine ⟨by rw [hchain], hcodec, fun a => ?_, by simp⟩
    rw [hchain]
    simp
  | @send s s₁ a amount scope h =>
    have hcredits := credits_send h
    obtain ⟨entry, hentry⟩ := id hcredits
    refine ⟨congrArg (·.1) hentry, congrArg (·.2.1) hentry, fun a' => ?_, fun a' ha' => ?_⟩
    · simp [contains_credited hcredits, Payment.receiver, eq_comm (a := a)]
    · cases List.mem_singleton.mp ha'
      exact addrCheck_of_sendRequest h
  | @suicide s s₁ a scope h =>
    have hcredits := credits_suicide h
    obtain ⟨entry, hentry⟩ := id hcredits
    refine ⟨congrArg (·.1) hentry, congrArg (·.2.1) hentry, fun a' => ?_, by simp⟩
    simp [contains_credited hcredits, Payment.receiver, eq_comm (a := a)]
  | @trans s s' s'' payments payments' h h' ih ih' =>
    refine ⟨ih'.net_eq.trans ih.net_eq, ih'.codec_eq.trans ih.codec_eq, fun a => ?_, fun a ha => ?_⟩
    · rw [ih'.keys_iff, ih.keys_iff]
      simp only [List.mem_append, or_and_right, exists_or, or_assoc]
    · obtain ha | ha := List.mem_append.mp ha
      · exact ih.checked a ha
      · rw [← ih.codec_eq, ← ih.net_eq]
        exact ih'.checked a ha

/-- The receivers can be paid exactly when the payments pass what `send` and `suicide` leave out. -/
lemma Receives.payable_iff (h : Receives payments s s') (hempty : s.chain.sendMap = .empty) :
    (∀ a, s'.chain.sendMap.contains a = true → Payable s.codec s.chain.net a) ↔
      ∀ p ∈ payments, p.Sound s.codec s.chain.net := by
  have hkeys : ∀ a, s'.chain.sendMap.contains a = true ↔ ∃ p ∈ payments, p.receiver = a := by
    intro a
    rw [h.keys_iff, hempty]
    simp [SortedMap.contains]
  constructor
  · intro hpayable p hp
    have hreceiver := hpayable p.receiver ((hkeys _).mpr ⟨p, hp, rfl⟩)
    cases p with
    | send a => exact hreceiver.1
    | suicide a => exact hreceiver
  · intro hsound a ha
    obtain ⟨p, hp, rfl⟩ := (hkeys a).mp ha
    have hp' := hsound p hp
    cases p with
    | send a =>
      have hchecked := h.checked a hp
      rw [cStr_of_not_mem hp'] at hchecked
      exact ⟨hp', hchecked⟩
    | suicide a => exact hp'

end Runs

/-! ### The interpreter -/

/-- `x` touches the accounts by transfers only. -/
abbrev OnlyTransfers (α : Type) (x : M α) : Prop :=
  Relates (fun _ s s' => ∃ payments, Transfers payments s s') α x

lemma onlyTransfers_compositional : Compositional OnlyTransfers :=
  Relates.compositional (fun _ _ => ⟨[], .idle rfl rfl⟩) fun ⟨_, h⟩ ⟨_, h'⟩ => ⟨_, h.trans h'⟩

/-- Whoever keeps the accounts makes no transfer. -/
lemma onlyTransfers_of_finalState {α : Type} {x : M α}
    (hx : ∀ s, ((finalState x s).chain, (finalState x s).codec) = (s.chain, s.codec)) :
    OnlyTransfers α x := by
  intro s
  have hs := hx s
  unfold finalState resultState at hs
  cases hxs : x s with
  | ok a s' =>
    rw [hxs] at hs
    exact ⟨[], .idle (congrArg Prod.fst hs) (congrArg Prod.snd hs)⟩
  | error e s' =>
    rw [hxs] at hs
    exact ⟨[], .idle (congrArg Prod.fst hs) (congrArg Prod.snd hs)⟩

lemma onlyTransfers_storeAt (r : Ref) (v : Value) : OnlyTransfers _ (storeAt r v) :=
  onlyTransfers_of_finalState fun s => by
    rw [finalState_storeAt]
    split <;> rfl

lemma onlyTransfers_modifyScope (scope : ScopeRef) (f : Frame → Frame) :
    OnlyTransfers _ (modifyScope scope f) :=
  onlyTransfers_of_finalState fun s => by
    rw [finalState_modifyScope]
    cases scope <;> rfl

lemma onlyTransfers_onData {α : Type} (f : Bitstream → Option α × Bitstream) :
    OnlyTransfers _ (onData f) :=
  onlyTransfers_of_finalState fun s => by rw [finalState_onData]

/-- A member function transfers when it gets through its checks. -/
lemma onlyTransfers_send (scope : ScopeRef) : OnlyTransfers _ (send scope) := by
  intro s
  cases hrequest : sendRequest scope s with
  | error e s₁ =>
    obtain ⟨⟨log, rfl⟩, -⟩ := (checks_sendRequest scope).of_error hrequest
    have hsend : send scope s = .error e { s with log := log } := by
      rw [send_eq]
      exact bind_of_error hrequest
    rw [hsend]
    exact ⟨[], .idle rfl rfl⟩
  | ok request s₁ =>
    have htransfer := Transfers.send scope hrequest
    unfold finalState resultState at htransfer
    cases hsend : send scope s with
    | ok v s' =>
      rw [hsend] at htransfer
      exact ⟨_, htransfer⟩
    | error e s' =>
      rw [hsend] at htransfer
      exact ⟨_, htransfer⟩

lemma onlyTransfers_suicide (scope : ScopeRef) : OnlyTransfers _ (suicide scope) := by
  intro s
  cases haddress : addressArgument scope s with
  | error e s₁ =>
    obtain ⟨⟨log, rfl⟩, -⟩ := (Checks.addressArgument scope).of_error haddress
    have hsuicide : suicide scope s = .error e { s with log := log } := bind_of_error haddress
    rw [hsuicide]
    exact ⟨[], .idle rfl rfl⟩
  | ok a s₁ =>
    have htransfer := Transfers.suicide scope haddress
    unfold finalState resultState at htransfer
    cases hsuicide : suicide scope s with
    | ok v s' =>
      rw [hsuicide] at htransfer
      exact ⟨_, htransfer⟩
    | error e s' =>
      rw [hsuicide] at htransfer
      exact ⟨_, htransfer⟩

/-- Whatever the program does, it does not touch the accounts in another way. -/
lemma closedOn_onlyTransfers : ClosedOn (fun _ => True) (fun _ => True) OnlyTransfers where
  toSequential := onlyTransfers_compositional.toSequential
  throw e _ := onlyTransfers_compositional.throw e
  stuck := onlyTransfers_compositional.throw _
  malloc := onlyTransfers_of_finalState fun s => by rw [finalState_malloc]
  makeShared _ := onlyTransfers_of_finalState fun _ => rfl
  load r := onlyTransfers_of_finalState fun s => by rw [finalState_load]
  storeAt r v _ := onlyTransfers_storeAt r v
  writeStore _ _ := onlyTransfers_compositional.bind (onlyTransfers_storeAt _ _) fun _ =>
    onlyTransfers_of_finalState fun _ => rfl
  str r := onlyTransfers_of_finalState fun s => by rw [finalState_str]
  getChain := onlyTransfers_of_finalState fun _ => rfl
  checkAddress _ := onlyTransfers_of_finalState fun _ => rfl
  rand := onlyTransfers_of_finalState fun _ => rfl
  printProgramOutput _ := onlyTransfers_of_finalState fun _ => rfl
  findModule _ := onlyTransfers_of_finalState fun _ => rfl
  loadRand := loadRand_of_steps onlyTransfers_compositional.toSequential
    (onlyTransfers_of_finalState fun s => by rw [finalState_malloc])
    (onlyTransfers_of_finalState fun _ => rfl) fun _ => onlyTransfers_of_finalState fun _ => rfl
  catchStop _ hr := relates_tryNext hr fun _ _ h => h
  charge := onlyTransfers_of_finalState fun s => by rw [finalState_charge]; rfl
  readWord := onlyTransfers_onData _
  readString := onlyTransfers_onData _
  peekType := onlyTransfers_onData _
  readStub _ := onlyTransfers_compositional.bind (onlyTransfers_onData _) fun _ =>
    onlyTransfers_compositional.bind (onlyTransfers_onData _) fun _ => onlyTransfers_compositional.pure _
  streamLength := onlyTransfers_of_finalState fun _ => rfl
  push _ _ := trivial
  root _ := trivial
  findValue _ _ _ := onlyTransfers_of_finalState fun _ => rfl
  setValue _ _ _ _ := onlyTransfers_of_finalState fun _ => rfl
  hasValue _ _ _ := onlyTransfers_of_finalState fun _ => rfl
  send scope _ := onlyTransfers_send scope
  suicide scope _ := onlyTransfers_suicide scope
  setGlobalTag _ _ _ := onlyTransfers_modifyScope _ _
  requireGlobal _ _ := onlyTransfers_modifyScope _ _
  terminate _ _ := onlyTransfers_modifyScope _ _
  isTerminated scope _ := onlyTransfers_of_finalState fun s => by rw [finalState_isTerminated]
  withFrame hf := relates_withFrame (fun id => hf id trivial) fun _ s s' ⟨payments, h⟩ => by
    have hpush : Transfers [] s { s with frames := s.frames ++ [.empty] } := .idle rfl rfl
    have hpop : Transfers [] s' { s' with frames := s'.frames.take s.frames.length } := .idle rfl rfl
    exact ⟨_, (hpush.trans h).trans hpop⟩
  record _ _ _ := onlyTransfers_of_finalState fun _ => rfl
  returnTo hf := onlyTransfers_compositional.bind (onlyTransfers_of_finalState fun _ => rfl) fun start =>
    hf start (onlyTransfers_of_finalState fun _ => rfl)
  inGlobalScope hf := onlyTransfers_compositional.bind (onlyTransfers_of_finalState fun _ => rfl)
    fun scope => hf scope trivial
  checkLimit := onlyTransfers_of_finalState fun s => by
    rw [finalState_checkLimit]
    split <;> rfl
  runCallee n _ pyint scope _ _ hn _ := by
    have heval : OnlyTransfers _ (evaluate (executeNext n) scope) :=
      onlyTransfers_compositional.bind hn fun _ => onlyTransfers_compositional.pure _
    have hin : ∀ s, Transfers [] s (calleeState pyint s) := fun s => .idle rfl rfl
    refine relates_runCallee heval (fun _ s s' ⟨payments, h⟩ => ?_) fun a s s' hs => ?_
    · have hback : Transfers [] s' (writtenBack s s') := .idle rfl rfl
      exact ⟨_, ((hin s).trans h).trans hback⟩
    · have hdrop : Transfers [] s' (stepsDropped s s') := .idle rfl rfl
      obtain ⟨payments, h⟩ := heval.of_ok hs
      exact ⟨_, ((hin s).trans h).trans hdrop⟩

/-- The transfers of a whole run. -/
lemma exists_transfers (fuel : Nat) (data : Str) (s : State) :
    ∃ payments, Transfers payments s (finalState (runProgram fuel data) s) := by
  have hrun : OnlyTransfers _ (runProgram fuel data) := (closedOn_onlyTransfers.related.runProgram data).1
  obtain ⟨exn, htransfers⟩ := hrun.exists_exn s
  exact htransfers

lemma onlyTransfers_setup (archive : Archive) (args : Arguments) : OnlyTransfers _ (setup archive args) := by
  have h := onlyTransfers_compositional
  have hnew : OnlyTransfers _ (newInterpreter (archive.uncompress args.raw)) :=
    h.bind closedOn_onlyTransfers.malloc fun _ => h.bind (closedOn_onlyTransfers.makeShared _) fun _ =>
      h.bind (onlyTransfers_of_finalState fun _ => rfl) fun _ =>
      closedOn_onlyTransfers.setValue _ _ _ trivial
  have hload : OnlyTransfers _ (loadOldStorage archive args.oldStorage) := by
    unfold loadOldStorage
    split
    · cases archive.load args.oldStorage with
      | ok st => exact h.bind (h.pure st) fun _ => onlyTransfers_of_finalState fun _ => rfl
      | error e => exact h.bind (h.throw e) fun _ => onlyTransfers_of_finalState fun _ => rfl
    · exact h.pure ()
  have hlimit : OnlyTransfers _ (limitFromGas args.gas args.gasprice) := by
    unfold limitFromGas
    split
    · exact h.throw _
    · refine onlyTransfers_of_finalState fun s => ?_
      by_cases hzero : (args.gas / args.gasprice.toUInt64).toUInt32 = 0
      · simp only [setExecutionStepLimit, finalState, resultState, if_pos hzero]
      · simp only [setExecutionStepLimit, finalState, resultState, if_neg hzero]
  exact h.bind hnew fun _ => h.bind hload fun _ => h.bind hlimit fun _ =>
    h.bind closedOn_onlyTransfers.newBlockchainModule fun _ => onlyTransfers_of_finalState fun _ => rfl

lemma codec_setup {archive : Archive} {args : Arguments} {codec : AddressCodec} {memory : MemoryManager}
    {process : Process} {s : State}
    (h : setup archive args (Library.initialState codec memory process args) = .ok () s) :
    s.codec = codec := by
  obtain ⟨payments, htransfers⟩ := (onlyTransfers_setup archive args).of_ok h
  exact htransfers.receives.codec_eq

/-- After a run the receivers can be paid exactly when `send` is only given addresses without a NUL
byte and `suicide` only addresses that can be paid. -/
theorem receivers_payable_iff {archive : Archive} {args : Arguments} {codec : AddressCodec}
    {memory : MemoryManager} {process : Process} {s : State} (fuel : Nat)
    (hsetup : setup archive args (Library.initialState codec memory process args) = .ok () s) :
    ∃ payments, Transfers payments s (finalState (runProgram fuel args.data) s) ∧
      ((∀ a, (finalState (runProgram fuel args.data) s).chain.sendMap.contains a = true →
        Payable codec args.network a) ↔ ∀ p ∈ payments, p.Sound codec args.network) := by
  obtain ⟨payments, htransfers⟩ := exists_transfers fuel args.data s
  have hchain := (setup_ok hsetup).2.1
  have hempty : s.chain.sendMap = .empty := by rw [hchain]; rfl
  have hnet : s.chain.net = args.network := by rw [hchain]; rfl
  refine ⟨payments, htransfers, ?_⟩
  rw [← hnet, ← codec_setup hsetup]
  exact htransfers.receives.payable_iff hempty

/-- A default function that gives everything to nobody. -/
def payNobody : List UInt8 :=
  moduleCode [importFromStmt "blockchain" "suicide",
    defStmt "default" [.expressionStatement (callExpr "suicide" [.str (lit "nobody")])], .pass]

/-- The state a call of the default function starts its run in. -/
def defaultStart (code : List UInt8) : State :=
  finalState (setup textArchive (callDefault code))
    (Library.initialState noAddresses .dummy (processAfter allZero 0) (callDefault code))

theorem receivers_payable_payNobody : ∃ payments, Transfers payments (defaultStart payNobody)
    (finalState (runProgram 30 (callDefault payNobody).data) (defaultStart payNobody)) ∧
      ((∀ a, (finalState (runProgram 30 (callDefault payNobody).data)
          (defaultStart payNobody)).chain.sendMap.contains a = true →
        Payable noAddresses (callDefault payNobody).network a) ↔
          ∀ p ∈ payments, p.Sound noAddresses (callDefault payNobody).network) := by
  have hreturned : returned (setup textArchive (callDefault payNobody))
      (Library.initialState noAddresses .dummy (processAfter (fun _ => 0) 0) (callDefault payNobody)) =
        some () := by decide +kernel
  have hsetup : setup textArchive (callDefault payNobody)
      (Library.initialState noAddresses .dummy (processAfter (fun _ => 0) 0) (callDefault payNobody)) =
        .ok () (defaultStart payNobody) := eq_ok_of_returned hreturned
  exact receivers_payable_iff 30 hsetup

/-- The contract has suicided, and its receiver is no address. -/
theorem receivers_payable_payNobody_false : ∃ out, runDefault payNobody = .ok out ∧ out.code = 0x69 ∧
    out.process.chain.sendMap.contains (lit "nobody") = true ∧
      ¬Payable noAddresses .main (lit "nobody") := by
  obtain ⟨out, hout, hcheck⟩ := exists_outcome
    (p := fun out => out.code = 0x69 ∧ out.process.chain.sendMap.contains (lit "nobody") = true)
    (x := runDefault payNobody) (by decide +kernel)
  have ⟨hcode, hreceiver⟩ := of_decide_eq_true hcheck
  refine ⟨out, hout, hcode, hreceiver, ?_⟩
  rintro ⟨-, hvalid⟩
  exact absurd hvalid (by decide)

/-! ### The end of a contract -/

/-- The `address` argument is the string `a`. -/
def AddressGiven (scope : ScopeRef) (a : Str) (s : State) : Prop :=
  ∃ r, Scope.findValue s.frames scope (lit "address") = some (some r) ∧ s.heap[r]? = some (.string a)

/-- `suicide` adds the whole balance to the entry of the receiver and throws its own exception. -/
def SuicideCompletes (scope : ScopeRef) (a : Str) (s : State) : Prop :=
  ∃ s', suicide scope s = .error .suicide s' ∧ s'.chain.contractBalance = 0 ∧
    (funds s').ledger = (funds s).ledger.transfer a (funds s).ledger.balance

lemma hasValue_of_findValue {frames : List Frame} {scope : ScopeRef} {name : Str} {value : ValuePtr}
    (h : Scope.findValue frames scope name = some value) : Scope.hasValue frames scope name = true := by
  induction scope with
  | nil => cases h
  | cons id parents ih =>
    rw [Scope.findValue] at h
    rw [Scope.hasValue, Bool.or_eq_true]
    split at h
    · rename_i value' hfind
      exact .inr (by simp [SortedMap.contains, hfind])
    · exact .inl (ih h)

lemma AddressGiven.addressArgument {scope : ScopeRef} {a : Str} {s : State} (h : AddressGiven scope a s) :
    ∃ s', addressArgument scope s = .ok a s' := by
  obtain ⟨r, hfind, hr⟩ := h
  have hhas : hasValue scope (lit "address") s = .ok true { s with
      log := .nameTested (Scope.binders s.frames scope (lit "address")) :: s.log } := by
    unfold M.hasValue
    rw [hasValue_of_findValue hfind]
  have hget : ∀ log, ∃ log', getValue scope (lit "address") { s with log := log } =
      .ok (some r) { s with log := log' } := by
    intro log
    have hnamed : Scope.builtinNamed (lit "address") = none := by decide
    have hfound : findValue scope (lit "address") { s with log := log } = .ok (some (some r)) { s with
        log := .nameFound (Scope.binders s.frames scope (lit "address")).head? :: log } := by
      unfold M.findValue
      rw [hfind]
    unfold M.getValue
    rw [if_neg (by decide), hnamed]
    exact ⟨_, bind_of_ok hfound⟩
  have hstr : ∀ log, str r { s with log := log } = .ok a { s with log := log } := by
    intro log
    unfold M.str
    rw [Value.str, hr]
  obtain ⟨log, hget⟩ := hget (.nameTested (Scope.binders s.frames scope (lit "address")) :: s.log)
  refine ⟨{ s with log := log }, ?_⟩
  unfold M.addressArgument
  rw [bind_of_ok hhas]
  exact (bind_of_ok rfl).trans ((bind_of_ok hget).trans (hstr log))

/-- After any sequence of transfers, `suicide` completes unless the balance is zero and the receiver
has been paid before. -/
theorem suicide_completes_iff {balance : UInt64} {s : State} (h : Reaches balance s) {scope : ScopeRef}
    {a : Str} (ha : AddressGiven scope a s) : SuicideCompletes scope a s ↔
      s.chain.contractBalance ≠ 0 ∨ s.chain.sendMap.find? a = none := by
  have hlt : (funds s).total < 2 ^ 64 := h.total_eq ▸ balance.toNat_lt
  obtain ⟨s₁, haddress⟩ := ha.addressArgument
  obtain ⟨hbalance, hfind, e, s', he, hsuicide, -⟩ | ⟨hcondition, s', hsuicide, hfunds⟩ :=
    suicide_run hlt haddress
  · refine iff_of_false ?_ (not_or.mpr ⟨not_not.mpr hbalance, hfind⟩)
    rintro ⟨s'', hcompletes, -⟩
    cases hsuicide.symm.trans hcompletes
    exact he rfl
  · refine iff_of_true ⟨s', hsuicide, ?_, ?_⟩ hcondition
    · have hleft : (funds s').balance = (funds s).balance - (funds s).balance := congrArg Funds.balance hfunds
      exact hleft.trans (UInt64.sub_self _)
    · rw [hfunds]
      exact Funds.ledger_pay hlt (UInt64.le_refl _)

/-- A call of `send("a", amount)` in a contract that owns 100. -/
def sending (amount : Int64) : State :=
  { sendFive (fun _ => true) with
    heap := [.persistableDictionary .empty, .string (lit "a"), .integer amount] }

/-- The amount is sent, and `suicide("a")` is called next. -/
def sent (amount : Int64) : State := finalState (send [0]) (sending amount)

lemma reaches_sent (amount : Int64) : Reaches 100 (sent amount) := by
  have hstart : Reaches 100 (sending amount) := .start rfl rfl
  exact hstart.send [0]

/-- Five are sent, and the rest follows. -/
theorem suicide_completes_five : SuicideCompletes [0] (lit "a") (sent 5) := by
  have haddress : AddressGiven [0] (lit "a") (sent 5) := ⟨1, by decide +kernel, by decide +kernel⟩
  exact (suicide_completes_iff (reaches_sent 5) haddress).mpr (.inl (by decide +kernel))

/-- Everything is sent, and then there is nothing left to add. -/
theorem suicide_completes_hundred_false :
    Reaches 100 (sent 100) ∧ AddressGiven [0] (lit "a") (sent 100) ∧
      ¬SuicideCompletes [0] (lit "a") (sent 100) := by
  refine ⟨reaches_sent 100, ⟨1, by decide +kernel, by decide +kernel⟩, ?_⟩
  rintro ⟨s', hsuicide, -⟩
  have hthrown : thrown (suicide [0]) (sent 100) ≠ some .suicide := by decide +kernel
  exact hthrown (thrown_of_error hsuicide)

end ContractPython.Proofs
