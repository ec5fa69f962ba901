import ContractPython.Proofs.Steps

/-!
# Results of functions

A call gives the value of the last statement of the body. How the body comes to its end is told by a
second execution, which keeps apart the operand of a return and the value of any other statement.
-/

namespace ContractPython.Proofs

open Program M

/-! ### How a body ends -/

/-- A body ends with a return, which has an operand, or behind its last statement, if there is one: a
node with a value. -/
inductive Ending
  | returned (operand : ValuePtr)
  | ended (last : Option (NodeType × ValuePtr))
  deriving DecidableEq

namespace Ending

/-- The value of the last statement, whatever it is. -/
def value : Ending → ValuePtr
  | .returned operand => operand
  | .ended last => last.bind fun last => last.2

/-- The operand of the return, and `None` if there is none. -/
def result : Ending → ValuePtr
  | .returned operand => operand
  | .ended _ => none

end Ending

/-- The executions that tell how they end. -/
abbrev Ends := ScopeRef → LoopState → M (Ending × LoopState)

section Nodes

variable (rec : Rec) (ends : Ends) (scope : ScopeRef)

/-- One round of a `StatementList`. -/
def endStatementListStep (acc : Ending × LoopState) : M (Ending × LoopState) := do
  charge
  let terminated ← isTerminated scope
  if terminated || acc.2 == .break || acc.2 == .continue then do
    skipNext
    pure acc
  else do
    let (final, child) ← ends scope (if acc.2 == .topLevel then .normal else acc.2)
    pure (final, if acc.2 != .none && child != .normal then child else acc.2)

def endStatementList (ls : LoopState) : M (Ending × LoopState) := do
  let size ← readWord
  iterateM size.toNat (endStatementListStep ends scope) (.ended none, ls)

def endReturn (ls : LoopState) : M (Ending × LoopState) := do
  let operand ← evaluate rec scope
  terminate scope
  pure (.returned operand, ls)

def endIf (ls : LoopState) : M (Ending × LoopState) := do
  let (test, ls) ← rec scope ls
  if ← boolTest test then ends scope ls
  else do
    skipNext
    pure (.ended none, ls)

def endIfElse (ls : LoopState) : M (Ending × LoopState) := do
  let (test, ls) ← rec scope ls
  match ← loadPtr test with
  | some (.bool true) => do
    let res ← ends scope ls
    skipNext
    pure res
  | some (.bool false) => do
    skipNext
    ends scope ls
  | none => do
    skipNext
    ends scope ls
  | some _ => throwRuntime (lit "not a boolean!")

/-- A loop body that returned ends the loop. -/
def propagateEnding (bodyScope : ScopeRef) (ret : Ending) (res : Ending × LoopState) : M (Ending × LoopState) := do
  if ← isTerminated bodyScope then do
    terminate scope
    pure res
  else pure (ret, res.2)

def endWhileRounds (start : UInt32) : Nat → LoopState → Ending → M Ending
  | 0, _, _ => throw .outOfFuel
  | n + 1, ls, ret => do
    let terminated ← isTerminated scope
    if terminated || ls == .break then pure ret
    else do
      charge
      moveTo start
      let test ← evaluate rec scope
      if ← boolTest test then do
        let (ret', ls') ← withScope scope fun bodyScope => do
          let res ← ends bodyScope ls
          propagateEnding scope bodyScope ret res
        endWhileRounds start n ls' ret'
      else pure ret

def endWhileLoop (n : Nat) : M Ending := do
  let start ← pos
  let res ← endWhileRounds rec ends scope start n .topLevel (.ended none)
  skipNext
  pure res

def endForRounds (names : List Str) (iter : Ref) : Nat → LoopState → Ending → M Ending
  | 0, _, _ => throw .outOfFuel
  | n + 1, ls, ret => do
    let terminated ← isTerminated scope
    if terminated || ls == .break then pure ret
    else do
      charge
      let round ← withScope scope fun bodyScope => do
        match ← tryNext iter with
        | none => pure none
        | some next => do
          bindNames bodyScope names next
          let res ← ends bodyScope ls
          let res ← propagateEnding scope bodyScope ret res
          pure (some res)
      match round with
      | none => pure ret
      | some (ret', ls') => endForRounds names iter n ls' ret'

def endForLoop (n : Nat) : M Ending := do
  let names ← readNames
  let obj ← evaluate rec scope
  let iter ← loopIterator obj
  let res ← endForRounds ends scope names iter n .topLevel (.ended none)
  skipNext
  pure res

def keepEnding (ls : LoopState) (x : M Ending) : M (Ending × LoopState) := do
  let e ← x
  pure (e, ls)

/-- A statement: a return, one with statements inside, or any other node, which has a value. -/
def endNode (n : Nat) (ls : LoopState) (type : NodeType) : M (Ending × LoopState) :=
  match type with
  | .statementList => endStatementList ends scope ls
  | .return => endReturn rec scope ls
  | .if => endIf rec ends scope ls
  | .ifElse => endIfElse rec ends scope ls
  | .whileLoop => keepEnding ls (endWhileLoop rec ends scope n)
  | .forLoop => keepEnding ls (endForLoop rec ends scope n)
  | _ => do
    let (v, ls') ← execNode rec scope n ls type
    pure (.ended (some (type, v)), ls')

def endEpilogue (start : UInt32) (res : Ending × LoopState) : M (Ending × LoopState) := do
  if res.2 != .normal && res.2 != .none then do
    moveTo start
    pure res
  else pure res

def endCharged (n : Nat) (ls : LoopState) : M (Ending × LoopState) := do
  let start ← pos
  let type ← readType
  checkTopLevel scope ls type
  record (.nodeEntered type ls (Scope.depth scope))
  let res ← endNode rec ends scope n ls type
  endEpilogue start res

end Nodes

/-- The execution of a statement that tells how it ends. -/
def endNext : Nat → Ends
  | 0, _, _ => throw .outOfFuel
  | n + 1, scope, ls => do
    charge
    endCharged (executeNext n) (endNext n) scope n ls

/-- A call that tells how the body ends. -/
def endOfCall (n : Nat) (writeBack : Bool) (code : List UInt8) (params : List Str) (defaults : List ValuePtr)
    (args : List ValuePtr) (scope : ScopeRef) : M Ending :=
  withScope scope fun bodyScope => do
    requireGlobal bodyScope
    withInterpreter code fun pyint => do
      checkLimit
      throwIf (params.length < args.length)
        (lit "You did not provide the correct number of arguments to the function")
      let minimum ← bindDefaults bodyScope (params.zip defaults)
      throwIf (args.length < minimum)
        (lit "You did not provide the correct number of arguments to the function")
      bindArguments bodyScope (params.zip args)
      runCallee writeBack pyint do
        let res ← endNext n bodyScope .none
        pure res.1

/-! ### The code hands on the value of the last statement -/

/-- What the code keeps of an ending. -/
def forget (res : Ending × LoopState) : ValuePtr × LoopState := (res.1.value, res.2)

section Forget

variable {rec : Rec} {ends : Ends} {scope : ScopeRef} {n : Nat} {ls : LoopState}

lemma map_withFrame {α β : Type} (g : α → β) (f : Nat → M α) :
    withFrame (fun id => g <$> f id) = g <$> withFrame f := by
  funext s
  simp only [withFrame, Functor.map, EStateM.map]
  cases f s.frames.length { s with frames := s.frames ++ [.empty] } <;> rfl

lemma map_withScope {α β : Type} (g : α → β) (parent : ScopeRef) (f : ScopeRef → M α) :
    withScope parent (fun id => g <$> f id) = g <$> withScope parent f := by
  unfold withScope
  split
  · rfl
  · exact map_withFrame g fun id => f (id :: parent)

lemma map_runCallee {α β : Type} (g : α → β) (writeBack : Bool) (pyint : Interp) (x : M α) :
    runCallee writeBack pyint (g <$> x) = g <$> runCallee writeBack pyint x := by
  funext s
  simp only [runCallee, Functor.map, EStateM.map]
  cases x (calleeState pyint s) <;> rfl

/-- A loop over accumulators of which one keeps more. -/
lemma iterateM_map {α β : Type} {g : β → α} {f : α → M α} {f' : β → M β} (h : ∀ b, f (g b) = g <$> f' b) (n : Nat)
    (b : β) : iterateM n f (g b) = g <$> iterateM n f' b := by
  induction n generalizing b with
  | zero => rfl
  | succ n ih =>
    show f (g b) >>= iterateM n f = g <$> (f' b >>= iterateM n f')
    rw [h, map_bind, bind_map_left]
    exact bind_congr fun b' => ih b'

variable (hrec : ∀ scope ls, rec scope ls = forget <$> ends scope ls)
include hrec

lemma execStatementList_eq : execStatementList rec scope ls = forget <$> endStatementList ends scope ls := by
  have hstep (acc : Ending × LoopState) :
      statementListStep rec scope (forget acc) = forget <$> endStatementListStep ends scope acc := by
    unfold statementListStep endStatementListStep
    rw [map_bind]
    refine bind_congr fun _ => ?_
    rw [map_bind]
    refine bind_congr fun terminated => ?_
    by_cases hskip : (terminated || acc.2 == .break || acc.2 == .continue) = true
    · have hskip' : (terminated || (forget acc).2 == .break || (forget acc).2 == .continue) = true := hskip
      rw [if_pos hskip, if_pos hskip', map_bind]
      rfl
    · have hskip' : ¬(terminated || (forget acc).2 == .break || (forget acc).2 == .continue) = true := hskip
      rw [if_neg hskip, if_neg hskip', hrec, map_bind, bind_map_left]
      rfl
  unfold execStatementList endStatementList
  rw [map_bind]
  exact bind_congr fun size => iterateM_map hstep size.toNat (.ended none, ls)

omit hrec in
lemma execReturn_eq : keep ls (execReturn rec scope) = forget <$> endReturn rec scope ls := by
  unfold keep execReturn endReturn
  simp only [bind_assoc, map_bind, pure_bind]
  rfl

lemma execIf_eq : execIf rec scope ls = forget <$> endIf rec ends scope ls := by
  unfold execIf endIf
  rw [map_bind]
  refine bind_congr fun test => ?_
  rw [map_bind]
  refine bind_congr fun b => ?_
  by_cases hb : b = true
  · rw [if_pos hb, if_pos hb]
    exact hrec _ _
  · rw [if_neg hb, if_neg hb, map_bind]
    rfl

lemma execIfElse_eq : execIfElse rec scope ls = forget <$> endIfElse rec ends scope ls := by
  unfold execIfElse endIfElse
  rw [map_bind]
  refine bind_congr fun test => ?_
  rw [map_bind]
  refine bind_congr fun v => ?_
  have hskipped : (do skipNext; rec scope test.2) = forget <$> (do skipNext; ends scope test.2) := by
    rw [map_bind]
    exact bind_congr fun _ => hrec _ _
  have hdone : (do let res ← rec scope test.2; skipNext; pure res) =
      forget <$> (do let res ← ends scope test.2; skipNext; pure res) := by
    rw [hrec, map_bind, bind_map_left]
    refine bind_congr fun res => ?_
    rw [map_bind]
    rfl
  cases v with
  | none => exact hskipped
  | some v =>
    cases v with
    | bool b =>
      cases b with
      | true => exact hdone
      | false => exact hskipped
    | _ => rfl

omit hrec in
lemma propagateReturn_eq (bodyScope : ScopeRef) (ret : Ending) (res : Ending × LoopState) :
    propagateReturn scope bodyScope ret.value (forget res) = forget <$> propagateEnding scope bodyScope ret res := by
  unfold propagateReturn propagateEnding
  rw [map_bind]
  refine bind_congr fun terminated => ?_
  by_cases hflag : terminated = true
  · rw [if_pos hflag, if_pos hflag, map_bind]
    rfl
  · rw [if_neg hflag, if_neg hflag]
    rfl

lemma whileRounds_eq (start : UInt32) (ret : Ending) : whileRounds rec scope start n ls ret.value =
    Ending.value <$> endWhileRounds rec ends scope start n ls ret := by
  induction n generalizing ls ret with
  | zero => rfl
  | succ n ih =>
    rw [whileRounds, endWhileRounds, map_bind]
    refine bind_congr fun terminated => ?_
    by_cases hstop : (terminated || ls == .break) = true
    · rw [if_pos hstop, if_pos hstop]
      rfl
    rw [if_neg hstop, if_neg hstop, map_bind]
    refine bind_congr fun _ => ?_
    rw [map_bind]
    refine bind_congr fun _ => ?_
    rw [map_bind]
    refine bind_congr fun test => ?_
    rw [map_bind]
    refine bind_congr fun b => ?_
    by_cases hb : b = true
    · have hround (bodyScope : ScopeRef) : (do
          let res ← rec bodyScope ls
          propagateReturn scope bodyScope ret.value res) = forget <$> (do
          let res ← ends bodyScope ls
          propagateEnding scope bodyScope ret res) := by
        rw [hrec, map_bind, bind_map_left]
        exact bind_congr fun res => propagateReturn_eq bodyScope ret res
      rw [if_pos hb, if_pos hb, map_bind]
      simp only [hround]
      rw [map_withScope, bind_map_left]
      exact bind_congr fun res => ih res.1
    · rw [if_neg hb, if_neg hb]
      rfl

lemma forRounds_eq (names : List Str) (iter : Ref) (ret : Ending) : forRounds rec scope names iter n ls ret.value =
    Ending.value <$> endForRounds ends scope names iter n ls ret := by
  induction n generalizing ls ret with
  | zero => rfl
  | succ n ih =>
    rw [forRounds, endForRounds, map_bind]
    refine bind_congr fun terminated => ?_
    by_cases hstop : (terminated || ls == .break) = true
    · rw [if_pos hstop, if_pos hstop]
      rfl
    rw [if_neg hstop, if_neg hstop, map_bind]
    refine bind_congr fun _ => ?_
    have hround (bodyScope : ScopeRef) : (do
        match ← tryNext iter with
        | none => pure none
        | some next => do
          bindNames bodyScope names next
          let res ← rec bodyScope ls
          let res ← propagateReturn scope bodyScope ret.value res
          pure (some res)) = Option.map forget <$> (do
        match ← tryNext iter with
        | none => pure none
        | some next => do
          bindNames bodyScope names next
          let res ← ends bodyScope ls
          let res ← propagateEnding scope bodyScope ret res
          pure (some res)) := by
      rw [map_bind]
      refine bind_congr fun next => ?_
      cases next with
      | none => rfl
      | some next =>
        rw [map_bind]
        refine bind_congr fun _ => ?_
        rw [hrec, map_bind, bind_map_left]
        refine bind_congr fun res => ?_
        rw [propagateReturn_eq, map_bind, bind_map_left]
        rfl
    have hscope := (congrArg (withScope scope) (funext hround)).trans (map_withScope _ _ _)
    rw [map_bind]
    refine (congrArg (· >>= _) hscope).trans ?_
    rw [bind_map_left]
    refine bind_congr fun round => ?_
    cases round with
    | none => rfl
    | some res => exact ih res.1

omit hrec in
/-- A node that leaves the loop state alone. -/
lemma keep_map (x : M Ending) : keep ls (Ending.value <$> x) = forget <$> keepEnding ls x := by
  unfold keep keepEnding
  rw [bind_map_left, map_bind]
  rfl

lemma execWhileLoop_eq : execWhileLoop rec scope n = Ending.value <$> endWhileLoop rec ends scope n := by
  unfold execWhileLoop endWhileLoop
  rw [map_bind]
  refine bind_congr fun start => ?_
  have hrounds : whileRounds rec scope start n .topLevel none =
      Ending.value <$> endWhileRounds rec ends scope start n .topLevel (.ended none) :=
    whileRounds_eq hrec start (.ended none)
  rw [map_bind]
  refine (congrArg (· >>= _) hrounds).trans ?_
  rw [bind_map_left]
  refine bind_congr fun res => ?_
  rw [map_bind]
  rfl

lemma execForLoop_eq : execForLoop rec scope n = Ending.value <$> endForLoop rec ends scope n := by
  unfold execForLoop endForLoop
  rw [map_bind]
  refine bind_congr fun names => ?_
  rw [map_bind]
  refine bind_congr fun obj => ?_
  rw [map_bind]
  refine bind_congr fun iter => ?_
  have hrounds : forRounds rec scope names iter n .topLevel none =
      Ending.value <$> endForRounds ends scope names iter n .topLevel (.ended none) :=
    forRounds_eq hrec names iter (.ended none)
  rw [map_bind]
  refine (congrArg (· >>= _) hrounds).trans ?_
  rw [bind_map_left]
  refine bind_congr fun res => ?_
  rw [map_bind]
  rfl

lemma execNode_eq (type : NodeType) : execNode rec scope n ls type = forget <$> endNode rec ends scope n ls type := by
  have hother : execNode rec scope n ls type = forget <$> (do
      let (v, ls') ← execNode rec scope n ls type
      pure (Ending.ended (some (type, v)), ls')) := by
    rw [map_bind]
    exact (bind_pure _).symm
  cases type with
  | statementList => exact execStatementList_eq hrec
  | «return» => exact execReturn_eq
  | «if» => exact execIf_eq hrec
  | ifElse => exact execIfElse_eq hrec
  | whileLoop => exact (congrArg (keep ls) (execWhileLoop_eq hrec)).trans (keep_map _)
  | forLoop => exact (congrArg (keep ls) (execForLoop_eq hrec)).trans (keep_map _)
  | _ => exact hother

end Forget

/-- A statement has the value of the last statement in it. -/
lemma executeNext_eq (n : Nat) (scope : ScopeRef) (ls : LoopState) :
    executeNext n scope ls = forget <$> endNext n scope ls := by
  induction n generalizing scope ls with
  | zero => rfl
  | succ n ih =>
    have hepilogue (start : UInt32) (res : Ending × LoopState) :
        epilogue start (forget res) = forget <$> endEpilogue start res := by
      unfold epilogue endEpilogue
      by_cases hback : (res.2 != .normal && res.2 != .none) = true
      · have hback' : ((forget res).2 != .normal && (forget res).2 != .none) = true := hback
        rw [if_pos hback, if_pos hback', map_bind]
        rfl
      · have hback' : ¬((forget res).2 != .normal && (forget res).2 != .none) = true := hback
        rw [if_neg hback, if_neg hback']
        rfl
    show (do charge; executeCharged (executeNext n) scope n ls) =
      forget <$> (do charge; endCharged (executeNext n) (endNext n) scope n ls)
    unfold executeCharged endCharged
    simp only [map_bind]
    refine bind_congr fun _ => bind_congr fun start => bind_congr fun type => bind_congr fun _ =>
      bind_congr fun _ => ?_
    rw [execNode_eq ih, bind_map_left]
    exact bind_congr fun res => hepilogue start res

/-- A call gives the value of the last statement of the body. -/
lemma callVMFunction_eq (n : Nat) (writeBack : Bool) (code : List UInt8) (params : List Str) (defaults : List ValuePtr)
    (args : List ValuePtr) (scope : ScopeRef) :
    callVMFunction (executeNext n) writeBack code params defaults args scope =
      Ending.value <$> endOfCall n writeBack code params defaults args scope := by
  have hbody (bodyScope : ScopeRef) : evaluate (executeNext n) bodyScope = Ending.value <$> (do
      let res ← endNext n bodyScope .none
      pure res.1) := by
    unfold evaluate
    rw [executeNext_eq, bind_map_left, map_bind]
    rfl
  have hinterpreter (f : Interp → M Ending) :
      withInterpreter code (fun pyint => Ending.value <$> f pyint) = Ending.value <$> withInterpreter code f := by
    unfold withInterpreter
    rw [map_bind]
    refine bind_congr fun _ => ?_
    rw [← map_withFrame]
    refine congrArg withFrame (funext fun id => ?_)
    simp only [map_bind]
  unfold callVMFunction endOfCall
  rw [← map_withScope]
  refine congrArg (withScope scope) (funext fun bodyScope => ?_)
  rw [map_bind]
  refine bind_congr fun _ => ?_
  rw [← hinterpreter]
  refine congrArg (withInterpreter code) (funext fun pyint => ?_)
  simp only [hbody, map_runCallee]
  simp only [map_bind]

/-! ### The nodes that have a value -/

/-- The node types whose execution gives an object. -/
def NodeType.givesValue : NodeType → Bool
  | .tuple | .alias | .attribute | .name | .unaryOp | .boolOp | .binaryOp | .list | .string | .compare | .index
  | .integer | .call | .dictionary | .subscript | .listComp => true
  | _ => false

/-- A statement at the end that is no expression has the value `None`. -/
def Ending.Sound (e : Ending) : Prop :=
  ∀ type v, e = .ended (some (type, v)) → NodeType.givesValue type = false → v = none

/-- What `x` returns satisfies `Q`. -/
def Ensures {α : Type} (Q : α → Prop) (x : M α) : Prop := ∀ s a s', x s = .ok a s' → Q a

section Ensures

variable {α β : Type} {P : α → Prop} {Q : β → Prop}

lemma ensures_pure {a : α} (h : P a) : Ensures P (pure a) := by
  intro s a' s' hrun
  cases hrun
  exact h

lemma ensures_throw (e : Exn) : Ensures P (throw e : M α) := fun _ _ _ hrun => nomatch hrun

lemma ensures_bind {x : M α} {f : α → M β} (hx : Ensures P x) (hf : ∀ a, P a → Ensures Q (f a)) :
    Ensures Q (x >>= f) := by
  intro s b s' hrun
  obtain ⟨a, s₁, hfirst, hrest⟩ := bind_eq_ok.mp hrun
  exact hf a (hx s a s₁ hfirst) s₁ b s' hrest

/-- Nothing is asked of the first part. -/
lemma ensures_after {x : M α} {f : α → M β} (hf : ∀ a, Ensures Q (f a)) : Ensures Q (x >>= f) :=
  ensures_bind (P := fun _ => True) (fun _ _ _ _ => trivial) fun a _ => hf a

lemma ensures_iterateM {f : α → M α} (hf : ∀ a, P a → Ensures P (f a)) (n : Nat) {a : α} (ha : P a) :
    Ensures P (iterateM n f a) := by
  induction n generalizing a with
  | zero => exact ensures_pure ha
  | succ n ih => exact ensures_bind (hf a ha) fun a' ha' => ih ha'

lemma ensures_withFrame {f : Nat → M α} (hf : ∀ id, Ensures P (f id)) : Ensures P (withFrame f) := by
  intro s a s' hrun
  unfold withFrame at hrun
  cases hbody : f s.frames.length { s with frames := s.frames ++ [.empty] } with
  | error e s₁ =>
    rw [hbody] at hrun
    cases hrun
  | ok a' s₁ =>
    rw [hbody] at hrun
    cases hrun
    exact hf _ _ _ _ hbody

lemma ensures_withScope {parent : ScopeRef} {f : ScopeRef → M α} (hf : ∀ scope, Ensures P (f scope)) :
    Ensures P (withScope parent f) := by
  unfold withScope
  split
  · exact ensures_throw _
  · exact ensures_withFrame fun id => hf _

end Ensures

section Sound

variable {rec : Rec} {ends : Ends} {scope : ScopeRef} {n : Nat} {ls : LoopState}

/-- The ending is sound. -/
abbrev SoundEnd (x : M (Ending × LoopState)) : Prop := Ensures (fun res : Ending × LoopState => res.1.Sound) x

lemma sound_none : Ending.Sound (.ended none) := by
  intro type v h
  cases h

lemma sound_returned (operand : ValuePtr) : Ending.Sound (.returned operand) := by
  intro type v h
  cases h

/-- The node types `endNode` looks into. -/
def NodeType.isNested : NodeType → Bool
  | .statementList | .return | .if | .ifElse | .whileLoop | .forLoop => true
  | _ => false

/-- A statement without a value. -/
lemma execNode_none {type : NodeType} (hvalue : NodeType.givesValue type = false)
    (hnested : NodeType.isNested type = false) :
    Ensures (fun res : ValuePtr × LoopState => res.1 = none) (execNode rec scope n ls type) := by
  have quiet {x : M ValuePtr} (hx : Ensures (fun v => v = none) x) :
      Ensures (fun res : ValuePtr × LoopState => res.1 = none) (keep ls x) :=
    ensures_bind hx fun v hv => ensures_pure hv
  have leave (target : LoopState) : Ensures (fun res : ValuePtr × LoopState => res.1 = none) (leaveLoop target ls) :=
    ensures_after fun _ => ensures_pure rfl
  cases type with
  | pass => exact ensures_pure rfl
  | «continue» => exact leave .continue
  | «break» => exact leave .break
  | assign => exact quiet (ensures_after fun _ => ensures_after fun _ => ensures_after fun _ => ensures_pure rfl)
  | global => exact quiet (ensures_after fun _ => ensures_pure rfl)
  | «import» =>
    exact quiet (ensures_after fun _ => ensures_after fun _ => ensures_after fun _ => ensures_after fun _ =>
      ensures_pure rfl)
  | importFrom =>
    refine quiet (ensures_after fun _ => ensures_after fun _ => ensures_after fun _ => ensures_after fun v => ?_)
    split
    · exact ensures_after fun _ => ensures_pure rfl
    · exact ensures_after fun _ => ensures_after fun _ => ensures_pure rfl
  | functionDef =>
    exact quiet (ensures_after fun _ => ensures_after fun _ => ensures_after fun _ => ensures_after fun _ =>
      ensures_pure rfl)
  | augmentedAssign =>
    refine quiet (ensures_after fun _ => ensures_after fun lookAhead => ?_)
    split
    · refine ensures_after fun _ => ensures_after fun _ => ensures_after fun _ => ensures_after fun _ =>
        ensures_after fun _ => ensures_after fun _ => ensures_after fun _ => ensures_after fun v => ?_
      split
      · exact ensures_after fun _ => ensures_after fun _ => ensures_pure rfl
      · exact ensures_after fun _ => ensures_after fun _ => ensures_pure rfl
      · exact ensures_after fun _ => ensures_after fun _ => ensures_pure rfl
      · exact ensures_after fun _ => ensures_pure rfl
    · exact ensures_after fun _ => ensures_after fun _ => ensures_after fun _ => ensures_after fun _ =>
        ensures_pure rfl
  | _ => first | exact Bool.noConfusion hvalue | exact Bool.noConfusion hnested | exact ensures_throw _

/-! ### Every ending is sound -/

variable (hends : ∀ scope ls, SoundEnd (ends scope ls))
include hends

lemma sound_endStatementList : SoundEnd (endStatementList ends scope ls) := by
  refine ensures_after fun size => ensures_iterateM (fun acc hacc => ?_) _ sound_none
  refine ensures_after fun _ => ensures_after fun terminated => ?_
  split
  · exact ensures_after fun _ => ensures_pure hacc
  · exact ensures_bind (hends _ _) fun res hres => ensures_pure hres

lemma sound_endIf : SoundEnd (endIf rec ends scope ls) := by
  refine ensures_after fun test => ensures_after fun b => ?_
  split
  · exact hends _ _
  · exact ensures_after fun _ => ensures_pure sound_none

lemma sound_endIfElse : SoundEnd (endIfElse rec ends scope ls) := by
  refine ensures_after fun test => ensures_after fun v => ?_
  split
  · exact ensures_bind (hends _ _) fun res hres => ensures_after fun _ => ensures_pure hres
  · exact ensures_after fun _ => hends _ _
  · exact ensures_after fun _ => hends _ _
  · exact ensures_throw _

omit hends in
lemma sound_propagateEnding {bodyScope : ScopeRef} {ret : Ending} {res : Ending × LoopState} (hret : ret.Sound)
    (hres : res.1.Sound) : SoundEnd (propagateEnding scope bodyScope ret res) := by
  refine ensures_after fun terminated => ?_
  split
  · exact ensures_after fun _ => ensures_pure hres
  · exact ensures_pure hret

lemma sound_endWhileRounds (start : UInt32) {ret : Ending} (hret : ret.Sound) :
    Ensures Ending.Sound (endWhileRounds rec ends scope start n ls ret) := by
  induction n generalizing ls ret with
  | zero => exact ensures_throw _
  | succ n ih =>
    refine ensures_after fun terminated => ?_
    split
    · exact ensures_pure hret
    refine ensures_after fun _ => ensures_after fun _ => ensures_after fun test => ensures_after fun b => ?_
    split
    · refine ensures_bind (P := fun res => Ending.Sound res.1) (ensures_withScope fun bodyScope => ?_) fun res hres => ih hres
      exact ensures_bind (hends _ _) fun res hres => sound_propagateEnding hret hres
    · exact ensures_pure hret

lemma sound_endForRounds (names : List Str) (iter : Ref) {ret : Ending} (hret : ret.Sound) :
    Ensures Ending.Sound (endForRounds ends scope names iter n ls ret) := by
  induction n generalizing ls ret with
  | zero => exact ensures_throw _
  | succ n ih =>
    refine ensures_after fun terminated => ?_
    split
    · exact ensures_pure hret
    refine ensures_after fun _ => ?_
    refine ensures_bind (P := fun round => ∀ res ∈ round, Ending.Sound res.1)
      (ensures_withScope fun bodyScope => ensures_after fun next => ?_) fun round hround => ?_
    · cases next with
      | none => exact ensures_pure nofun
      | some next =>
        refine ensures_after fun _ => ensures_bind (hends _ _) fun res hres => ?_
        refine ensures_bind (sound_propagateEnding hret hres) fun res' hres' => ensures_pure ?_
        rintro _ ⟨⟩
        exact hres'
    · cases round with
      | none => exact ensures_pure hret
      | some res => exact ih (hround res rfl)

lemma sound_endNode (type : NodeType) : SoundEnd (endNode rec ends scope n ls type) := by
  have hother (hnested : NodeType.isNested type = false) : SoundEnd (do
      let (v, ls') ← execNode rec scope n ls type
      pure (Ending.ended (some (type, v)), ls')) := by
    cases hvalue : NodeType.givesValue type with
    | true =>
      refine ensures_after fun res => ensures_pure ?_
      intro type' v h hvalue'
      cases h
      rw [hvalue] at hvalue'
      cases hvalue'
    | false =>
      refine ensures_bind (execNode_none hvalue hnested) fun res hres => ensures_pure ?_
      intro type' v h _
      cases h
      exact hres
  cases type with
  | statementList => exact sound_endStatementList hends
  | «return» => exact ensures_after fun operand => ensures_after fun _ => ensures_pure (sound_returned operand)
  | «if» => exact sound_endIf hends
  | ifElse => exact sound_endIfElse hends
  | whileLoop =>
    exact ensures_bind (ensures_after fun start => ensures_bind (sound_endWhileRounds hends start sound_none)
      fun e he => ensures_after fun _ => ensures_pure he) fun e he => ensures_pure he
  | forLoop =>
    exact ensures_bind (ensures_after fun names => ensures_after fun obj => ensures_after fun iter =>
      ensures_bind (sound_endForRounds hends names iter sound_none) fun e he => ensures_after fun _ => ensures_pure he)
      fun e he => ensures_pure he
  | _ => exact hother rfl

end Sound

/-- Only an expression leaves a value behind. -/
lemma sound_endNext (n : Nat) (scope : ScopeRef) (ls : LoopState) : SoundEnd (endNext n scope ls) := by
  induction n generalizing scope ls with
  | zero => exact ensures_throw _
  | succ n ih =>
    refine ensures_after fun _ => ensures_after fun start => ensures_after fun type => ensures_after fun _ =>
      ensures_after fun _ => ensures_bind (sound_endNode ih type) fun res hres => ?_
    unfold endEpilogue
    split
    · exact ensures_after fun _ => ensures_pure hres
    · exact ensures_pure hres

lemma ensures_runCallee {α : Type} {P : α → Prop} {writeBack : Bool} {pyint : Interp} {x : M α} (hx : Ensures P x) :
    Ensures P (runCallee writeBack pyint x) := by
  intro s a s' hrun
  unfold runCallee at hrun
  cases hbody : x (calleeState pyint s) with
  | error e s₁ =>
    rw [hbody] at hrun
    cases hrun
  | ok a' s₁ =>
    rw [hbody] at hrun
    cases hrun
    exact hx _ _ _ hbody

lemma sound_endOfCall (n : Nat) (writeBack : Bool) (code : List UInt8) (params : List Str) (defaults : List ValuePtr)
    (args : List ValuePtr) (scope : ScopeRef) :
    Ensures Ending.Sound (endOfCall n writeBack code params defaults args scope) := by
  refine ensures_withScope fun bodyScope => ensures_after fun _ => ensures_after fun _ => ensures_withFrame fun id =>
    ensures_after fun _ => ensures_after fun _ => ensures_after fun _ => ensures_after fun _ => ensures_after fun _ =>
    ensures_after fun _ => ensures_after fun _ => ensures_runCallee ?_
  exact ensures_bind (sound_endNext n bodyScope .none) fun res hres => ensures_pure hres

/-! ### Results -/

/-- The call gives the operand of the return its body ended with, and `None` if there was none. -/
def ResultFromReturn (n : Nat) (writeBack : Bool) (code : List UInt8) (params : List Str) (defaults : List ValuePtr)
    (args : List ValuePtr) (scope : ScopeRef) (s : State) (p : ValuePtr) : Prop :=
  ∃ e s', endOfCall n writeBack code params defaults args scope s = .ok e s' ∧ p = e.result

/-- The body does not end with an expression that has a value. -/
def EndsQuietly (n : Nat) (writeBack : Bool) (code : List UInt8) (params : List Str) (defaults : List ValuePtr)
    (args : List ValuePtr) (scope : ScopeRef) (s : State) : Prop :=
  ∀ type v s', endOfCall n writeBack code params defaults args scope s = .ok (.ended (some (type, v))) s' →
    NodeType.givesValue type = true → v = none

/-- `while c: return x`. -/
def returnInLoop : List UInt8 :=
  moduleCode [.whileLoop (.name (lit "c")) (.suite (.ofStmts [.return (.name (lit "x"))])) .nullStmt]

/-- The objects 7 and `True`. -/
def stateWithArguments : State := { startState [] 1000 with heap := [.persistableDictionary .empty, .integer 7, .bool true] }

/-- The statement `x`. -/
def nameStatement : List UInt8 := moduleCode [.expressionStatement (.name (lit "x"))]

end ContractPython.Proofs
