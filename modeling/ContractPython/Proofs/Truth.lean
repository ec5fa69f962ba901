import ContractPython.Proofs.Arithmetic
import ContractPython.Proofs.Evaluation

/-!
# Truth

Five nodes look at the truth of a value, each in its own way: `If` and `WhileLoop` ask
`bool_test`, `IfElse` takes a Bool or `None`, `not` knows Bools only and answers false for
everything else, and an operand of `and` or `or` is a Bool or `None`. Bools are the values they
agree on.
-/

namespace ContractPython.Proofs

open Program M

/-! ### What a node decides -/

/-- An `If` node whose test is `v` executes its body, skips it, or rejects the value. -/
def IfDecides (v : Option Value) (decision : Option Bool) : Prop :=
  ∀ (rec : Rec) (scope : ScopeRef) (ls ls' : LoopState) (s s' : State) (p : ValuePtr), rec scope ls s = .ok (p, ls') s' → StandsFor p v s' →
    match decision with
    | some true => execIf rec scope ls s = rec scope ls' s'
    | some false => execIf rec scope ls s = (do skipNext; pure (none, ls')) s'
    | none => ∃ e, execIf rec scope ls s = .error e s'

/-- An `IfElse` node whose test is `v` executes its first body, its second one, or rejects. -/
def IfElseDecides (v : Option Value) (decision : Option Bool) : Prop :=
  ∀ (rec : Rec) (scope : ScopeRef) (ls ls' : LoopState) (s s' : State) (p : ValuePtr), rec scope ls s = .ok (p, ls') s' → StandsFor p v s' →
    match decision with
    | some true => execIfElse rec scope ls s = (do let res ← rec scope ls'; skipNext; pure res) s'
    | some false => execIfElse rec scope ls s = (do skipNext; rec scope ls') s'
    | none => ∃ e, execIfElse rec scope ls s = .error e s'

/-- The test of a `WhileLoop` node. -/
def whileTest (rec : Rec) (scope : ScopeRef) (start : UInt32) : M ValuePtr := do
  charge
  moveTo start
  evaluate rec scope

/-- The body of a `WhileLoop` node, and the rounds after it. -/
def whileBody (rec : Rec) (scope : ScopeRef) (start : UInt32) (n : Nat) (ls : LoopState) (ret : ValuePtr) :
    M ValuePtr := do
  let (ret', ls') ← withScope scope fun bodyScope => do
    let res ← rec bodyScope ls
    propagateReturn scope bodyScope ret res
  whileRounds rec scope start n ls' ret'

/-- A `WhileLoop` node whose test is `v` executes its body, ends, or rejects the value. -/
def WhileDecides (v : Option Value) (decision : Option Bool) : Prop :=
  ∀ (rec : Rec) (scope : ScopeRef) (start : UInt32) (n : Nat) (ls : LoopState) (ret p : ValuePtr)
    (s s' : State), isTerminated scope s = .ok false s → ls ≠ .break →
    whileTest rec scope start s = .ok p s' → StandsFor p v s' →
    match decision with
    | some true => whileRounds rec scope start (n + 1) ls ret s = whileBody rec scope start n ls ret s'
    | some false => whileRounds rec scope start (n + 1) ls ret s = .ok ret s'
    | none => ∃ e, whileRounds rec scope start (n + 1) ls ret s = .error e s'

/-- `not v` makes a Bool, or rejects the value. -/
def NotDecides (v : Option Value) (decision : Option Bool) : Prop :=
  ∀ (rec : Rec) (scope : ScopeRef) (s s' : State) (p : ValuePtr), unaryOperand rec scope s = .ok (.not, p) s' → StandsFor p v s' →
    match decision with
    | some b => execUnaryOp rec scope s = create (.bool b) s'
    | none => ∃ e, execUnaryOp rec scope s = .error e s'

/-- An operand `v` of `and` and `or` counts as a Bool, or is rejected. -/
def OperandDecides (v : Option Value) (decision : Option Bool) : Prop :=
  ∀ (rec : Rec) (scope : ScopeRef) (short : Bool) (s s' : State) (p : ValuePtr), (do charge; evaluate rec scope) s = .ok p s' → StandsFor p v s' →
    match decision with
    | some b => boolOpStep rec scope short (!short) s = .ok b s'
    | none => ∃ e, boolOpStep rec scope short (!short) s = .error e s'

/-- The nodes agree on the truth of `v`, or all conditions reject it. -/
def OneTruth (v : Option Value) : Prop :=
  ∃ t, (IfDecides v t ∧ IfElseDecides v t ∧ WhileDecides v t) ∧
    ∀ b, t = some b → NotDecides v (some !b) ∧ OperandDecides v (some b)

/-! ### What each node decides -/

/-- The condition of `If` and `WhileLoop` nodes. -/
def testTruth : Option Value → Bool
  | none => false
  | some v => v.boolTest

/-- The condition of `IfElse` nodes, and what an operand of `and` and `or` counts as. -/
def strictTruth : Option Value → Option Bool
  | none => some false
  | some (.bool b) => some b
  | some _ => none

/-- What `not` makes of a value. -/
def negation : Option Value → Option Bool
  | none => none
  | some (.bool b) => some !b
  | some _ => some false

section Decisions

variable {rec : Rec} {scope : ScopeRef} {p : ValuePtr} {v : Option Value} {s s' : State}

lemma boolTest_apply (h : StandsFor p v s) : boolTest p s = .ok (testTruth v) s := by
  unfold boolTest
  rw [bind_of_ok h]
  cases v <;> rfl

lemma ifDecides (v : Option Value) : IfDecides v (some (testTruth v)) := by
  intro rec scope ls ls' s s' p hrec hp
  have hnode : execIf rec scope ls s =
      (if testTruth v then rec scope ls' else do skipNext; pure (none, ls')) s' := by
    unfold execIf
    rw [bind_of_ok hrec]
    dsimp only
    rw [bind_of_ok (boolTest_apply hp)]
  cases ht : testTruth v with
  | true => rwa [ht] at hnode
  | false => rwa [ht] at hnode

lemma whileDecides (v : Option Value) : WhileDecides v (some (testTruth v)) := by
  intro rec scope start n ls ret p s s' hrunning hls htest hp
  have hround : whileRounds rec scope start (n + 1) ls ret s =
      (if testTruth v then whileBody rec scope start n ls ret else pure ret) s' := by
    obtain ⟨_, s₁, hcharge, htest⟩ := bind_eq_ok.mp htest
    obtain ⟨_, s₂, hmove, heval⟩ := bind_eq_ok.mp htest
    have hgo : (false || ls == .break) = false := by simpa using hls
    unfold whileRounds
    rw [bind_of_ok hrunning, hgo, if_neg Bool.false_ne_true, bind_of_ok hcharge, bind_of_ok hmove,
      bind_of_ok heval, bind_of_ok (boolTest_apply hp)]
    rfl
  cases ht : testTruth v with
  | true => rwa [ht] at hround
  | false => rwa [ht] at hround

lemma ifElseDecides (v : Option Value) : IfElseDecides v (strictTruth v) := by
  intro rec scope ls ls' s s' p hrec hp
  unfold execIfElse
  rw [bind_of_ok hrec]
  dsimp only
  rw [bind_of_ok hp]
  cases v with
  | none => rfl
  | some v =>
    cases v with
    | bool b => cases b <;> rfl
    | _ => exact ⟨_, rfl⟩

lemma notDecides (v : Option Value) : NotDecides v (negation v) := by
  intro rec scope s s' p hoperand hp
  obtain ⟨w, s₁, hword, hoperand⟩ := bind_eq_ok.mp hoperand
  obtain ⟨res, s₂, heval, hoperand⟩ := bind_eq_ok.mp hoperand
  obtain ⟨hpair, rfl⟩ := pure_eq_ok.mp hoperand
  obtain ⟨hop, rfl⟩ := Prod.mk.inj hpair
  unfold execUnaryOp
  rw [bind_of_ok hword, bind_of_ok heval, hop]
  cases res with
  | none =>
    cases hp
    exact ⟨_, rfl⟩
  | some r =>
    obtain ⟨v, s₃, hload, hv⟩ := bind_eq_ok.mp hp
    obtain ⟨rfl, rfl⟩ := pure_eq_ok.mp hv
    simp only [assertGeneric, pure_bind, bind_of_ok hload]
    cases v with
    | bool b => rfl
    | _ => rfl

lemma operandDecides (v : Option Value) : OperandDecides v (strictTruth v) := by
  intro rec scope short s s' p hoperand hp
  obtain ⟨_, s₁, hcharge, heval⟩ := bind_eq_ok.mp hoperand
  have hlong : ((!short) == short) = false := by cases short <;> rfl
  unfold boolOpStep
  rw [bind_of_ok hcharge, hlong, if_neg Bool.false_ne_true, bind_of_ok heval, bind_of_ok hp]
  cases v with
  | none => rfl
  | some v =>
    cases v with
    | bool b => rfl
    | _ => exact ⟨_, rfl⟩

end Decisions

/-- The nodes agree on Bools. -/
lemma oneTruth_bool (b : Bool) : OneTruth (some (.bool b)) := by
  refine ⟨some b, ⟨ifDecides _, ifElseDecides _, whileDecides _⟩, ?_⟩
  intro b' hb'
  cases hb'
  exact ⟨notDecides _, operandDecides _⟩

/-! ### Where they differ -/

/-- A state with the object `v`, about to read `code`. -/
def holding (v : Option Value) (code : List UInt8) : State :=
  { startState code 1000 with heap := v.toList }

/-- The pointer to the only object. -/
def pointer (v : Option Value) : ValuePtr := v.map fun _ => 0

/-- A test that evaluates to `p`, and a body that tells where the cursor is. -/
def evaluatesTo (p : ValuePtr) : Rec := fun _ ls s =>
  .ok (p, if s.interp.data.get = 0 then ls else .normal) s

/-- Two bodies that do nothing. -/
def passes : List UInt8 := typeBytes .pass ++ typeBytes .pass

lemma standsFor_pointer (v : Option Value) : StandsFor (pointer v) v (holding v passes) := by
  cases v <;> rfl

/-- The cursor behind the first body. -/
lemma skipNext_holding (v : Option Value) :
    skipNext (holding v passes) = .ok () (advance 4 0 (holding v passes)) := rfl

lemma run_evaluatesTo (v : Option Value) : evaluatesTo (pointer v) [1, 0] .none (holding v passes) =
    .ok (pointer v, .none) (holding v passes) := rfl

lemma holding_ne_advance (v : Option Value) : holding v passes ≠ advance 4 0 (holding v passes) := by
  intro h
  have hget : (holding v passes).interp.data.get = (advance 4 0 (holding v passes)).interp.data.get := by
    rw [← h]
  cases hget

lemma ifDecides_unique {v : Option Value} {t : Option Bool} (h : IfDecides v t) :
    t = some (testTruth v) := by
  have htake : ∀ b, IfDecides v (some b) → execIf (evaluatesTo (pointer v)) [1, 0] .none (holding v passes) =
      if b then .ok (pointer v, .none) (holding v passes)
      else .ok (none, .none) (advance 4 0 (holding v passes)) := by
    intro b hb
    have hnode := hb _ _ _ _ _ _ _ (run_evaluatesTo v) (standsFor_pointer v)
    cases b with
    | true => exact hnode
    | false => exact hnode.trans (bind_of_ok (skipNext_holding v))
  have hreal := htake _ (ifDecides v)
  have hne := holding_ne_advance v
  cases t with
  | none =>
    obtain ⟨e, he⟩ := h _ _ _ _ _ _ _ (run_evaluatesTo v) (standsFor_pointer v)
    rw [hreal] at he
    split at he <;> cases he
  | some b =>
    have hb := htake b h
    rw [hreal] at hb
    cases b <;> cases htest : testTruth v <;> simp_all

lemma ifElseDecides_unique {v : Option Value} {t : Option Bool} (h : IfElseDecides v t) :
    t = strictTruth v := by
  have htake : ∀ b, IfElseDecides v (some b) →
      execIfElse (evaluatesTo (pointer v)) [1, 0] .none (holding v passes) =
        .ok (pointer v, if b then .none else .normal) (advance 4 0 (holding v passes)) := by
    intro b hb
    have hnode := hb _ _ _ _ _ _ _ (run_evaluatesTo v) (standsFor_pointer v)
    cases b with
    | true => exact hnode.trans ((bind_of_ok (run_evaluatesTo v)).trans (bind_of_ok (skipNext_holding v)))
    | false => exact hnode.trans (bind_of_ok (skipNext_holding v))
  have hreject : IfElseDecides v none →
      ∃ e, execIfElse (evaluatesTo (pointer v)) [1, 0] .none (holding v passes) = .error e (holding v passes) :=
    fun hnone => hnone _ _ _ _ _ _ _ (run_evaluatesTo v) (standsFor_pointer v)
  have hreal := ifElseDecides v
  cases t with
  | none =>
    obtain ⟨e, he⟩ := hreject h
    cases hstrict : strictTruth v with
    | none => rfl
    | some b =>
      rw [hstrict] at hreal
      rw [htake b hreal] at he
      cases he
  | some b =>
    have hb := htake b h
    cases hstrict : strictTruth v with
    | none =>
      rw [hstrict] at hreal
      obtain ⟨e, he⟩ := hreject hreal
      rw [he] at hb
      cases hb
    | some b' =>
      rw [hstrict] at hreal
      rw [htake b' hreal] at hb
      cases b <;> cases b' <;> simp_all

/-- `not None` is rejected. -/
lemma not_notDecides_none (b : Bool) : ¬NotDecides none (some b) := by
  have hoperand : unaryOperand (evaluatesTo none) [1, 0] (holding none (wordBytes UnaryOpType.not.code)) =
      .ok (.not, none) (advance 4 0 (holding none (wordBytes UnaryOpType.not.code))) := rfl
  intro h
  have hmade := h _ _ _ _ _ hoperand rfl
  obtain ⟨e, hthrown⟩ := notDecides none _ _ _ _ _ hoperand rfl
  rw [hthrown] at hmade
  have hmem : MemoryLeft (advance 4 0 (holding none (wordBytes UnaryOpType.not.code))) := rfl
  have hcreated := hmade.trans (create_of_memoryLeft hmem _)
  cases hcreated

/-- The conditions agree on nothing but Bools and `None`, and `not` rejects `None`. -/
lemma isBool_of_oneTruth {v : Option Value} (h : OneTruth v) : ∃ b, v = some (.bool b) := by
  obtain ⟨t, ⟨hif, helse, -⟩, hrest⟩ := h
  have ht := ifDecides_unique hif
  have hstrict := ifElseDecides_unique helse
  rw [ht] at hstrict
  cases v with
  | none => exact absurd (hrest _ ht).1 (not_notDecides_none _)
  | some v =>
    cases v with
    | bool b => exact ⟨b, rfl⟩
    | _ => cases hstrict

/-- The five nodes have one notion of truth for the Bools, and for no other value. -/
theorem oneTruth_iff_bool (v : Option Value) : OneTruth v ↔ ∃ b, v = some (.bool b) := by
  constructor
  · exact isBool_of_oneTruth
  · rintro ⟨b, rfl⟩
    exact oneTruth_bool b

/-- `if 1: pass`, with an `else` or without. -/
def ifOne (orelse : Ast .stmt) : Ast .stmt :=
  .ifStmt (.number (.integer 1)) (.suite (.ofStmts [.pass])) orelse

/-- A function that is about to execute a statement. -/
def bodyOf (a : Ast .stmt) : State :=
  { startState (bytes a) 1000 with frames := (startState [] 1000).frames ++ [.empty] }

/-- The integer one is true for an `if`, but not for an `if` with an `else`. -/
theorem oneTruth_one_false :
    ¬OneTruth (some (.integer 1)) ∧
      returns (executeNext 5 [1, 0] .none) (bodyOf (ifOne .nullStmt)) = true ∧
      returns (executeNext 5 [1, 0] .none) (bodyOf (ifOne (.suite (.ofStmts [.pass])))) = false := by
  refine ⟨fun h => ?_, by decide +kernel, by decide +kernel⟩
  obtain ⟨b, hb⟩ := isBool_of_oneTruth h
  cases hb

end ContractPython.Proofs
