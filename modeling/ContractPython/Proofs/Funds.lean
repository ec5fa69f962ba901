import Mathlib.Logic.Function.Basic
import ContractPython.Proofs.Steps

/-!
# Conservation of funds

`Ledger` says what the two operations are for: they move an amount from the balance of the
contract to the account of a receiver. The 64-bit code does this without ever wrapping,
because all entries of `send_map` and the balance add up to the balance of the start.
-/

namespace ContractPython.Proofs

open Program M

/-! ### Accounts as numbers -/

/-- What was sent to each address, and what is left. -/
structure Ledger where
  sent : Str → Nat
  balance : Nat

/-- Moves an amount from the balance to an address. -/
def Ledger.transfer (l : Ledger) (a : Str) (amount : Nat) : Ledger where
  sent := Function.update l.sent a (l.sent a + amount)
  balance := l.balance - amount

/-- `send_map` and `contract_balance`. -/
structure Funds where
  sendMap : SortedMap Str UInt64
  balance : UInt64

namespace Funds

/-- All entries of `send_map` and the balance. -/
def total (f : Funds) : Nat := SortedMap.total UInt64.toNat f.sendMap + f.balance.toNat

def ledger (f : Funds) : Ledger where
  sent a := ((f.sendMap.find? a).getD 0).toNat
  balance := f.balance.toNat

/-- A transfer as the code makes it, modulo `2 ^ 64`. -/
def pay (f : Funds) (a : Str) (amount : UInt64) : Funds where
  sendMap := f.sendMap.insert a ((f.sendMap.find? a).getD 0 + amount)
  balance := f.balance - amount

variable {f : Funds} {a : Str} {amount : UInt64}

lemma entry_le_total (f : Funds) (a : Str) :
    ((f.sendMap.find? a).getD 0).toNat + f.balance.toNat ≤ f.total := by
  unfold total
  cases h : f.sendMap.find? a with
  | none => simp
  | some old =>
    have := SortedMap.le_total_of_find? UInt64.toNat f.sendMap a old h
    simp only [Option.getD_some]
    omega

/-- The receiver's entry does not wrap. -/
lemma toNat_credited (h : f.total < 2 ^ 64) (hle : amount ≤ f.balance) :
    ((f.sendMap.find? a).getD 0 + amount).toNat =
      ((f.sendMap.find? a).getD 0).toNat + amount.toNat := by
  have hentry := entry_le_total f a
  have hamount := UInt64.le_iff_toNat_le.mp hle
  rw [UInt64.toNat_add]
  omega

/-- A transfer of at most the balance does what the numbers do. -/
lemma ledger_pay (h : f.total < 2 ^ 64) (hle : amount ≤ f.balance) :
    (f.pay a amount).ledger = f.ledger.transfer a amount.toNat := by
  have hbalance : (f.balance - amount).toNat = f.balance.toNat - amount.toNat :=
    UInt64.toNat_sub_of_le _ _ hle
  have hsent : (f.pay a amount).ledger.sent = (f.ledger.transfer a amount.toNat).sent := by
    funext a'
    by_cases ha : a' = a
    · subst ha
      simp [ledger, pay, Ledger.transfer, toNat_credited h hle]
    · simp [ledger, pay, Ledger.transfer, ha, SortedMap.find?_insert_of_ne _ _ _ _ ha]
  simp only [Ledger.transfer, ledger, pay, hbalance] at hsent ⊢
  rw [hsent]

/-- A transfer of at most the balance conserves the total. -/
lemma total_pay (h : f.total < 2 ^ 64) (hle : amount ≤ f.balance) : (f.pay a amount).total = f.total := by
  have hinsert := SortedMap.total_insert UInt64.toNat f.sendMap a
    ((f.sendMap.find? a).getD 0 + amount)
  have hold : ((f.sendMap.find? a).map UInt64.toNat).getD 0 = ((f.sendMap.find? a).getD 0).toNat := by
    cases f.sendMap.find? a <;> rfl
  have hbalance : (f.balance - amount).toNat = f.balance.toNat - amount.toNat :=
    UInt64.toNat_sub_of_le _ _ hle
  have hamount := UInt64.le_iff_toNat_le.mp hle
  rw [toNat_credited h hle, hold] at hinsert
  simp only [total, pay, hbalance]
  omega

end Funds

def funds (s : State) : Funds := ⟨s.chain.sendMap, s.chain.contractBalance⟩

/-! ### The checks before a transfer -/

/-- The texts of the two overflow checks of `send`. -/
def sendOverflows : List Exn :=
  [.runtimeError (lit "sending produces overflow in receiver balance [receiver's balance]"),
    .runtimeError (lit "sending produces overflow in contract balance [sender's balance]")]

/-- `m` only looks at the state, and throws neither of the overflow errors of `send`. -/
def Checks {α : Type} (m : M α) : Prop :=
  ∀ s, match m s with
    | .ok _ s' => ∃ log, s' = { s with log := log }
    | .error e s' => (∃ log, s' = { s with log := log }) ∧ e ∉ sendOverflows

namespace Checks

variable {α β : Type} {m : M α} {f : α → M β}

lemma pure (a : α) : Checks (Pure.pure a) := fun s => ⟨s.log, rfl⟩

lemma throw {e : Exn} (he : e ∉ sendOverflows) : Checks (MonadExcept.throw e : M α) :=
  fun s => ⟨⟨s.log, rfl⟩, he⟩

lemma bind (h : Checks m) (h' : ∀ a, Checks (f a)) : Checks (m >>= f) := by
  intro s
  have hs := h s
  cases hm : m s with
  | error e s₁ =>
    rw [hm] at hs
    rw [bind_of_error hm]
    exact hs
  | ok a s₁ =>
    rw [hm] at hs
    obtain ⟨log, rfl⟩ := hs
    rw [bind_of_ok hm]
    exact h' a { s with log := log }

lemma of_ok (h : Checks m) {s s' : State} {a : α} (hm : m s = .ok a s') :
    ∃ log, s' = { s with log := log } := by
  have hs := h s
  rwa [hm] at hs

lemma of_error (h : Checks m) {s s' : State} {e : Exn} (hm : m s = .error e s') :
    (∃ log, s' = { s with log := log }) ∧ e ∉ sendOverflows := by
  have hs := h s
  rwa [hm] at hs

lemma throwIf (cond : Bool) {what : Str} (he : .runtimeError what ∉ sendOverflows) :
    Checks (throwIf cond what) := by
  cases cond
  · exact pure ()
  · exact throw he

lemma load (r : Ref) : Checks (load r) := by
  intro s
  unfold M.load
  cases s.heap[r]? with
  | some v => exact ⟨s.log, rfl⟩
  | none => exact ⟨⟨s.log, rfl⟩, by decide⟩

lemma loadPtr (p : ValuePtr) : Checks (loadPtr p) := by
  cases p with
  | none => exact pure _
  | some r => exact (load r).bind fun _ => pure _

/-- A name that is no builtin is looked up. -/
lemma getValue (scope : ScopeRef) {name : Str} (hnone : name ≠ lit "None")
    (hname : Scope.builtinNamed name = none)
    (he : .runtimeError (lit "No such value: " ++ name) ∉ sendOverflows) :
    Checks (getValue scope name) := by
  unfold M.getValue
  rw [if_neg hnone, hname]
  refine bind (m := findValue scope name) (fun _ => ⟨_, rfl⟩) fun v => ?_
  cases v with
  | none => exact throw he
  | some v => exact pure v

/-- The errors of the conversion to a string. -/
lemma str_error (heap : List Value) (n : Nat) (r : Ref) {e : Exn} (h : Value.str heap n r = .error e) :
    e ∉ sendOverflows := by
  induction n generalizing r with
  | zero =>
    cases h
    decide
  | succ n ih =>
    rw [Value.str] at h
    split at h
    · cases h
    · cases h
    · cases h
    · cases h
    · rename_i elements _
      obtain hparts | ⟨parts, -, h⟩ := except_bind_eq_error h
      · obtain ⟨_, elem, _, -, -, helem⟩ := mapM_eq_error hparts
        cases elem with
        | none => cases helem
        | some r' =>
          obtain hr | ⟨s, -, helem⟩ := except_bind_eq_error helem
          · exact ih r' hr
          · split at helem <;> cases helem
      · cases h
    · cases h
      decide
    · cases h
      decide

lemma str (r : Ref) : Checks (str r) := by
  intro s
  unfold M.str
  cases h : Value.str s.heap (s.heap.length + 1) r with
  | ok a => exact ⟨s.log, rfl⟩
  | error e => exact ⟨⟨s.log, rfl⟩, str_error _ _ _ h⟩

lemma addressArgument (scope : ScopeRef) : Checks (addressArgument scope) := by
  refine bind (m := hasValue scope _) (fun _ => ⟨_, rfl⟩) fun _ => (throwIf _ (by decide)).bind fun _ =>
    (getValue scope (by decide) (by decide) (by decide)).bind fun p => ?_
  cases p with
  | none => exact throw (by decide)
  | some p => exact str p

lemma validAddress (scope : ScopeRef) : Checks (validAddress scope) :=
  (addressArgument scope).bind fun a => (throwIf _ (by decide)).bind fun _ =>
    bind (m := checkAddress a) (fun s => ⟨s.log, rfl⟩) fun _ => (throwIf _ (by decide)).bind fun _ => pure a

lemma unpackInteger (p : ValuePtr) : Checks (unpackInteger p) := by
  refine (loadPtr p).bind fun v => ?_
  split
  · exact pure _
  · exact throw (by decide)

end Checks

/-- The part of `send` before the first write: the receiver and the amount. -/
def sendRequest (scope : ScopeRef) : M (Str × UInt64) := do
  let a ← validAddress scope
  throwIf (!(← hasValue scope (lit "value"))) (lit "value argument not present")
  let value ← unpackInteger (← getValue scope (lit "value"))
  let chain ← getChain
  throwIf (value ≤ 0 || value.toUInt64 > chain.contractBalance)
    (lit "sending nothing or more than the contract balance not allowed")
  pure (a, value.toUInt64)

lemma checks_sendRequest (scope : ScopeRef) : Checks (sendRequest scope) :=
  (Checks.validAddress scope).bind fun _ => Checks.bind (m := hasValue scope _) (fun _ => ⟨_, rfl⟩) fun _ =>
    (Checks.throwIf _ (by decide)).bind fun _ =>
    (Checks.getValue scope (by decide) (by decide) (by decide)).bind fun v =>
    (Checks.unpackInteger v).bind fun _ => Checks.bind (m := getChain) (fun s => ⟨s.log, rfl⟩) fun _ =>
    (Checks.throwIf _ (by decide)).bind fun _ => Checks.pure _

/-- A request that passes is for something the contract has. -/
lemma sendRequest_eq_ok {scope : ScopeRef} {a : Str} {amount : UInt64} {s s' : State}
    (h : sendRequest scope s = .ok (a, amount) s') : 0 < amount ∧ amount ≤ (funds s).balance := by
  obtain ⟨a', s₁, ha, h⟩ := bind_eq_ok.mp h
  obtain ⟨log, rfl⟩ := (Checks.validAddress scope).of_ok ha
  obtain ⟨has, s₂, hhas, h⟩ := bind_eq_ok.mp h
  cases hhas
  obtain ⟨u, s₃, hthrow, h⟩ := bind_eq_ok.mp h
  obtain ⟨-, rfl⟩ := throwIf_eq_ok.mp hthrow
  obtain ⟨p, s₄, hp, h⟩ := bind_eq_ok.mp h
  obtain ⟨log', rfl⟩ := (Checks.getValue scope (by decide) (by decide) (by decide)).of_ok hp
  obtain ⟨value, s₅, hvalue, h⟩ := bind_eq_ok.mp h
  obtain ⟨log'', rfl⟩ := (Checks.unpackInteger p).of_ok hvalue
  obtain ⟨chain, s₆, hchain, h⟩ := bind_eq_ok.mp h
  cases hchain
  obtain ⟨u, s₇, hthrow, h⟩ := bind_eq_ok.mp h
  obtain ⟨hcheck, rfl⟩ := throwIf_eq_ok.mp hthrow
  cases h
  simp only [Bool.or_eq_false_iff, decide_eq_false_iff_not, gt_iff_lt, UInt64.not_lt] at hcheck
  refine ⟨UInt64.pos_iff_ne_zero.mpr fun hzero => hcheck.1 ?_, hcheck.2⟩
  have hvalue : value = 0 := by simpa using congrArg UInt64.toInt64 hzero
  exact hvalue ▸ Int64.le_refl 0

/-! ### The transfers -/

/-- The state after a transfer. -/
def paid (a : Str) (amount : UInt64) (s : State) : State :=
  { s with
    chain := { s.chain with
      sendMap := ((funds s).pay a amount).sendMap
      contractBalance := ((funds s).pay a amount).balance }
    log := .fundsMoved :: .fundsMoved :: s.log }

/-- The part of `send` from the first write on. -/
def sendTransfer (a : Str) (amount : UInt64) : M ValuePtr := do
  creditReceiver a amount (lit "sending produces overflow in receiver balance [receiver's balance]")
  let chain ← getChain
  setFunds chain.sendMap (chain.contractBalance - amount)
  throwIf (chain.contractBalance - amount ≥ chain.contractBalance)
    (lit "sending produces overflow in contract balance [sender's balance]")
  create (.bool true)

lemma send_eq (scope : ScopeRef) :
    send scope = sendRequest scope >>= fun request => sendTransfer request.1 request.2 := by
  simp only [send, sendRequest, sendTransfer, bind_assoc, pure_bind]

/-- `send_map` after the receiver's entry is changed. -/
def creditedMap (a : Str) (amount : UInt64) (s : State) : SortedMap Str UInt64 :=
  ((funds s).pay a amount).sendMap

/-- The receiver's entry is changed before its overflow check. -/
lemma creditReceiver_apply (a : Str) (amount : UInt64) (what : Str) (s : State) :
    creditReceiver a amount what s =
      (do
        setFunds (creditedMap a amount s) s.chain.contractBalance
        throwIf ((s.chain.sendMap.find? a).any fun old => old + amount ≤ old) what) s := by
  unfold creditReceiver
  rw [bind_of_ok (rfl : getChain s = .ok s.chain s)]
  cases hfind : s.chain.sendMap.find? a with
  | some old => simp [creditedMap, Funds.pay, funds, hfind]
  | none =>
    simp only [creditedMap, Funds.pay, funds, hfind, Option.getD_none, UInt64.zero_add, Option.any_none]
    rfl

/-- Neither overflow check fires when the amount is positive and owned. -/
lemma sendTransfer_apply {a : Str} {amount : UInt64} {s : State} (h : (funds s).total < 2 ^ 64)
    (hpos : 0 < amount) (hle : amount ≤ (funds s).balance) :
    sendTransfer a amount s = create (.bool true) (paid a amount s) := by
  have hamount := UInt64.lt_iff_toNat_lt.mp hpos
  have hreceiver : ((s.chain.sendMap.find? a).any fun old => decide (old + amount ≤ old)) = false := by
    have hcredited := Funds.toNat_credited (a := a) h hle
    cases hfind : s.chain.sendMap.find? a with
    | none => rfl
    | some old =>
      simp only [funds, hfind, Option.getD_some] at hcredited
      simp only [Option.any_some, decide_eq_false_iff_not, UInt64.le_iff_toNat_le]
      simp only [UInt64.toNat_zero] at hamount
      omega
  have hbalance : decide (s.chain.contractBalance - amount ≥ s.chain.contractBalance) = false := by
    have hsub : (s.chain.contractBalance - amount).toNat =
        s.chain.contractBalance.toNat - amount.toNat := UInt64.toNat_sub_of_le _ _ hle
    have hle := UInt64.le_iff_toNat_le.mp hle
    simp only [funds, UInt64.toNat_zero] at hle hamount
    simp only [decide_eq_false_iff_not, ge_iff_le, UInt64.le_iff_toNat_le]
    omega
  have hcredit (what : Str) : creditReceiver a amount what s = .ok () { s with
      chain := { s.chain with sendMap := creditedMap a amount s }
      log := .fundsMoved :: s.log } := by
    rw [creditReceiver_apply, hreceiver]
    rfl
  unfold sendTransfer
  rw [bind_of_ok (hcredit _)]
  show (do throwIf (decide (s.chain.contractBalance - amount ≥ s.chain.contractBalance)) _
           create (.bool true)) (paid a amount s) = _
  rw [hbalance]
  rfl

lemma funds_paid (a : Str) (amount : UInt64) (s : State) :
    funds (paid a amount s) = (funds s).pay a amount := rfl

/-- `create` throws exactly when the memory manager refuses the object. -/
lemma create_eq_error {v : Value} {s : State} : (∃ e s', create v s = .error e s') ↔ ¬MemoryLeft s := by
  unfold create alloc MemoryLeft
  by_cases h : s.memory.grants s.memory.requests = true <;>
    simp [bind, EStateM.bind, malloc, h, makeShared, pure, EStateM.pure]

lemma create_error {v : Value} {s s' : State} {e : Exn} (h : create v s = .error e s') :
    e ∉ sendOverflows ∧ funds s' = funds s := by
  unfold create alloc at h
  by_cases hmem : s.memory.grants s.memory.requests = true
  · simp [bind, EStateM.bind, malloc, hmem, makeShared, pure, EStateM.pure] at h
  · simp only [bind, EStateM.bind, malloc, hmem] at h
    cases h
    exact ⟨by decide, rfl⟩

lemma funds_create (v : Value) (s : State) : funds (finalState (create v) s) = funds s := by
  unfold create alloc finalState resultState
  by_cases h : s.memory.grants s.memory.requests = true <;>
    simp [bind, EStateM.bind, malloc, h, makeShared, pure, EStateM.pure, funds]

/-- What `send` does: its checks fail and nothing happens, or it makes a transfer and then
creates the result. -/
lemma send_cases (scope : ScopeRef) {s : State} (h : (funds s).total < 2 ^ 64) :
    (∃ e log, e ∉ sendOverflows ∧ sendRequest scope s = .error e { s with log := log } ∧
      send scope s = .error e { s with log := log }) ∨
    (∃ a amount log, amount ≤ (funds s).balance ∧
      sendRequest scope s = .ok (a, amount) { s with log := log } ∧
      send scope s = create (.bool true) (paid a amount { s with log := log })) := by
  rw [send_eq]
  cases hreq : sendRequest scope s with
  | error e s' =>
    obtain ⟨⟨log, rfl⟩, he⟩ := (checks_sendRequest scope).of_error hreq
    exact .inl ⟨e, log, he, rfl, bind_of_error hreq⟩
  | ok request s' =>
    obtain ⟨a, amount⟩ := request
    obtain ⟨log, rfl⟩ := (checks_sendRequest scope).of_ok hreq
    obtain ⟨hpos, hle⟩ := sendRequest_eq_ok hreq
    exact .inr ⟨a, amount, log, hle, rfl, (bind_of_ok hreq).trans (sendTransfer_apply h hpos hle)⟩

/-- The call leaves the funds alone, or it pays something out of the balance. -/
def Pays (call : M ValuePtr) (s : State) : Prop :=
  funds (finalState call s) = funds s ∨
    ∃ a amount, amount ≤ (funds s).balance ∧ funds (finalState call s) = (funds s).pay a amount

lemma pays_send (scope : ScopeRef) {s : State} (h : (funds s).total < 2 ^ 64) : Pays (send scope) s := by
  rcases send_cases scope h with ⟨e, log, -, -, hsend⟩ | ⟨a, amount, log, hle, -, hsend⟩
  · left
    rw [finalState_of_error hsend]
    rfl
  · right
    have hfinal : finalState (send scope) s =
        finalState (create (.bool true)) (paid a amount { s with log := log }) := by
      unfold finalState
      rw [hsend]
    have hfunds : funds { s with log := log } = funds s := rfl
    exact ⟨a, amount, hle, by rw [hfinal, funds_create, funds_paid, hfunds]⟩

/-- The overflow check of `suicide` fires only when there is nothing to send to a known receiver. -/
lemma suicide_run {scope : ScopeRef} {a : Str} {s s₁ : State} (h : (funds s).total < 2 ^ 64)
    (haddr : addressArgument scope s = .ok a s₁) :
    (s.chain.contractBalance = 0 ∧ s.chain.sendMap.find? a ≠ none ∧ ∃ e s', e ≠ .suicide ∧
      suicide scope s = .error e s' ∧ funds s' = (funds s).pay a (funds s).balance) ∨
    ((s.chain.contractBalance ≠ 0 ∨ s.chain.sendMap.find? a = none) ∧ ∃ s',
      suicide scope s = .error .suicide s' ∧ funds s' = (funds s).pay a (funds s).balance) := by
  obtain ⟨log, rfl⟩ := (Checks.addressArgument scope).of_ok haddr
  have hcredit := creditReceiver_apply a s.chain.contractBalance
    (lit "sending produces overflow in receiver balance") { s with log := log }
  have hzero : s.chain.contractBalance - s.chain.contractBalance = 0 := UInt64.sub_self _
  have hsuicide : suicide scope s = _ := (bind_of_ok haddr).trans (bind_of_ok rfl)
  cases hany : (s.chain.sendMap.find? a).any fun old => decide (old + s.chain.contractBalance ≤ old) with
  | true =>
    left
    obtain ⟨old, hfind, hle⟩ := Option.any_eq_true .. |>.mp hany
    have hbalance : s.chain.contractBalance = 0 := by
      have hcredited := Funds.toNat_credited (a := a) h (UInt64.le_refl _)
      have hle := UInt64.le_iff_toNat_le.mp (of_decide_eq_true hle)
      simp only [funds, hfind, Option.getD_some] at hcredited
      rw [← UInt64.toNat_inj, UInt64.toNat_zero]
      omega
    rw [hany] at hcredit
    refine ⟨hbalance, by simp [hfind], .runtimeError (lit "sending produces overflow in receiver balance"),
      _, by decide, hsuicide.trans (bind_of_error (hcredit.trans rfl)), ?_⟩
    simp only [Funds.pay, funds, hzero]
    exact congrArg _ hbalance
  | false =>
    right
    rw [hany] at hcredit
    refine ⟨?_, _, hsuicide.trans ((bind_of_ok (hcredit.trans rfl)).trans rfl), ?_⟩
    · by_contra hnot
      obtain ⟨hbalance, hfind⟩ := not_or.mp hnot
      obtain ⟨old, hfind⟩ := Option.ne_none_iff_exists'.mp hfind
      simp [hfind, not_not.mp hbalance] at hany
    · simp only [Funds.pay, funds, hzero]
      rfl

/-- `suicide` fails before anything happens, or it pays the whole balance. -/
lemma pays_suicide (scope : ScopeRef) {s : State} (h : (funds s).total < 2 ^ 64) :
    Pays (suicide scope) s := by
  unfold Pays
  cases haddr : addressArgument scope s with
  | error e s' =>
    obtain ⟨⟨log, rfl⟩, -⟩ := (Checks.addressArgument scope).of_error haddr
    have hsuicide : suicide scope s = .error e { s with log := log } := bind_of_error haddr
    rw [finalState_of_error hsuicide]
    exact .inl rfl
  | ok a s' =>
    right
    obtain ⟨-, -, e, s₁, -, hsuicide, hfunds⟩ | ⟨-, s₁, hsuicide, hfunds⟩ := suicide_run h haddr
    · rw [finalState_of_error hsuicide]
      exact ⟨a, _, UInt64.le_refl _, hfunds⟩
    · rw [finalState_of_error hsuicide]
      exact ⟨a, _, UInt64.le_refl _, hfunds⟩

/-- The call does nothing to the accounts, or it is a transfer in the arithmetic of numbers. -/
def TransfersExactly (call : M ValuePtr) (s : State) : Prop :=
  (funds (finalState call s)).ledger = (funds s).ledger ∨
    ∃ a amount, amount ≤ (funds s).ledger.balance ∧
      (funds (finalState call s)).ledger = (funds s).ledger.transfer a amount

namespace Pays

variable {call : M ValuePtr} {s : State}

lemma total_eq (h : Pays call s) (hlt : (funds s).total < 2 ^ 64) :
    (funds (finalState call s)).total = (funds s).total := by
  rcases h with h | ⟨a, amount, hle, h⟩
  · rw [h]
  · rw [h, Funds.total_pay hlt hle]

lemma transfersExactly (h : Pays call s) (hlt : (funds s).total < 2 ^ 64) : TransfersExactly call s := by
  rcases h with h | ⟨a, amount, hle, h⟩
  · exact .inl (congrArg _ h)
  · exact .inr ⟨a, amount.toNat, UInt64.le_iff_toNat_le.mp hle, by rw [h, Funds.ledger_pay hlt hle]⟩

end Pays

/-! ### Sequences of calls -/

/-- The states between the calls of `send` and `suicide` in a process that starts with an
empty `send_map` and `balance`. Whatever runs between two calls leaves the funds alone. -/
inductive Reaches (balance : UInt64) : State → Prop
  | start {s : State} (hmap : s.chain.sendMap = .empty) (hbalance : s.chain.contractBalance = balance) :
      Reaches balance s
  | between {s s' : State} (h : Reaches balance s) (hfunds : funds s' = funds s) : Reaches balance s'
  | send {s : State} (h : Reaches balance s) (scope : ScopeRef) :
      Reaches balance (finalState (send scope) s)
  | suicide {s : State} (h : Reaches balance s) (scope : ScopeRef) :
      Reaches balance (finalState (suicide scope) s)

/-- Every state of a sequence of calls has the funds of the start. -/
lemma Reaches.total_eq {balance : UInt64} {s : State} (h : Reaches balance s) :
    (funds s).total = balance.toNat := by
  induction h with
  | start hmap hbalance => simp [funds, Funds.total, hmap, hbalance]
  | between _ hfunds ih => rw [hfunds, ih]
  | @send s _ scope ih =>
    have hlt : (funds s).total < 2 ^ 64 := ih ▸ balance.toNat_lt
    exact (pays_send scope hlt).total_eq hlt |>.trans ih
  | @suicide s _ scope ih =>
    have hlt : (funds s).total < 2 ^ 64 := ih ▸ balance.toNat_lt
    exact (pays_suicide scope hlt).total_eq hlt |>.trans ih

/-- A `send` that throws leaves the funds as they are. -/
def FailedSendKeepsFunds (scope : ScopeRef) (s : State) : Prop :=
  ∀ e s', send scope s = .error e s' → funds s' = funds s

/-- After every sequence of calls the funds add up to those of the start, the next call does
not wrap, and `send` never throws one of its overflow errors. A `send` that throws leaves the
funds as they are if and only if its checks fail or the memory manager grants its result. -/
theorem funds_conserved {balance : UInt64} {s : State} (h : Reaches balance s) :
    (funds s).total = balance.toNat ∧
    (∀ scope, TransfersExactly (send scope) s ∧ TransfersExactly (suicide scope) s) ∧
    (∀ scope e s', send scope s = .error e s' → e ∉ sendOverflows) ∧
    (∀ scope, FailedSendKeepsFunds scope s ↔ (returns (sendRequest scope) s = true → MemoryLeft s)) := by
  have hlt : (funds s).total < 2 ^ 64 := h.total_eq ▸ balance.toNat_lt
  refine ⟨h.total_eq, fun scope => ⟨(pays_send scope hlt).transfersExactly hlt,
    (pays_suicide scope hlt).transfersExactly hlt⟩, fun scope e s' he => ?_, fun scope => ?_⟩
  · rcases send_cases scope hlt with ⟨e', log, he', -, hsend⟩ | ⟨a, amount, log, hle, -, hsend⟩
    · cases hsend.symm.trans he
      exact he'
    · exact (create_error (hsend.symm.trans he)).1
  · unfold FailedSendKeepsFunds
    rcases send_cases scope hlt with ⟨e, log, -, hreq, hsend⟩ | ⟨a, amount, log, hle, hreq, hsend⟩
    · have hreturns : returns (sendRequest scope) s = false := by simp [returns, hreq]
      have hkeeps : ∀ e' s', send scope s = .error e' s' → funds s' = funds s := by
        intro e' s' he'
        cases hsend.symm.trans he'
        rfl
      rw [hreturns]
      exact ⟨fun _ hfalse => absurd hfalse Bool.false_ne_true, fun _ => hkeeps⟩
    · have hreturns : returns (sendRequest scope) s = true := by simp [returns, hreq]
      have hpos := (sendRequest_eq_ok hreq).1
      rw [hsend, hreturns]
      constructor
      · intro hkeeps _
        by_contra hmem
        have hrefused : ¬MemoryLeft (paid a amount { s with log := log }) := hmem
        obtain ⟨e, s', he⟩ := create_eq_error.mpr hrefused
        have hfunds := (create_error he).2.symm.trans (hkeeps e s' he)
        have hbalance : (funds s).balance - amount = (funds s).balance := congrArg Funds.balance hfunds
        have hsub := UInt64.toNat_sub_of_le _ _ hle
        rw [hbalance] at hsub
        have hle := UInt64.le_iff_toNat_le.mp hle
        have hpos := UInt64.lt_iff_toNat_lt.mp hpos
        simp only [UInt64.toNat_zero] at hpos
        omega
      · intro hmem e s' he
        have hleft : MemoryLeft (paid a amount { s with log := log }) := hmem rfl
        exact absurd hleft (create_eq_error.mp ⟨e, s', he⟩)

/-- A call of `send("a", 5)` in a contract that owns 100; the address decodes to 20 bytes. -/
def sendFive (grants : Nat → Bool) : State :=
  { startState [] 1000 with
    heap := [.persistableDictionary .empty, .string (lit "a"), .integer 5]
    frames := [{ Frame.empty with
      values := (SortedMap.empty.insert (lit "address") (some 1)).insert (lit "value") (some 2) }]
    chain := Blockchain.ofArguments ⟨[], [], [], 0, 0, 0, [], [], 0, 100⟩ .main
    codec := ⟨fun _ => (0, []), fun _ _ => some (0, List.replicate 20 0)⟩
    memory := ⟨grants, 0⟩ }

/-- When no memory is left for the result of `send`, it throws after the transfer. -/
theorem funds_conserved_refused_false :
    Reaches 100 (sendFive fun _ => false) ∧ ¬FailedSendKeepsFunds [0] (sendFive fun _ => false) := by
  refine ⟨.start rfl rfl, fun hkeeps => ?_⟩
  have hthrows : returns (send [0]) (sendFive fun _ => false) = false := by decide +kernel
  have hbalance : (finalState (send [0]) (sendFive fun _ => false)).chain.contractBalance = 95 := by
    decide +kernel
  cases hsend : send [0] (sendFive fun _ => false) with
  | ok v s' => simp [returns, hsend] at hthrows
  | error e s' =>
    rw [finalState_of_error hsend] at hbalance
    have hfunds : s'.chain.contractBalance = 100 := congrArg Funds.balance (hkeeps e s' hsend)
    rw [hbalance] at hfunds
    exact absurd hfunds (by decide)

/-- The funds after one transfer. -/
theorem funds_conserved_sendFive :
    (funds (finalState (send [0]) (sendFive fun _ => true))).total = (100 : UInt64).toNat :=
  (funds_conserved (.send (.start rfl rfl) [0])).1

end ContractPython.Proofs
