import ContractPython.Model.Library
import ContractPython.Trees.Control

/-!
# Programs

The simulation, by induction on the fuel: a child, the body of a loop and the default of a parameter are
executed with less of it. From it, what a call of a compiled function and a whole transaction do.
-/

namespace ContractPython.Proofs

open Program M Bytes

variable {n : Nat} {nullOk : Bool}

lemma means_keep {k : Kind} {a : Ast k} {rest : List UInt8} {x y : ScopeRef → M ValuePtr}
    (h : ∀ scope, Mirrors rest (x scope) (y scope))
    (hbytes : bytes a = typeBytes (Tree.nodeType a) ++ rest := by rfl)
    (hx : ∀ scope ls, execNode (executeNext n) scope n ls (Tree.nodeType a) = keep ls (x scope) := by intros; rfl)
    (hy : ∀ scope ls, Tree.node (Tree.execute n) scope (executeNext n) n ls a = keep ls (y scope) := by intros; rfl) :
    Means (n + 1) a :=
  means_of_acts hbytes (acts_keep hx hy h)

/-- `continue` and `break` take the cursor back. -/
lemma acts_leaveLoop {a : Ast .stmt} {target : LoopState} (htarget : target = .break ∨ target = .continue)
    (hx : ∀ scope ls, execNode (executeNext n) scope n ls (Tree.nodeType a) = leaveLoop target ls)
    (hy : ∀ scope ls, Tree.node (Tree.execute n) scope (executeNext n) n ls a = leaveLoop target ls) :
    Acts n a [] := by
  intro scope ls s t hst _ _
  rw [hx, hy]
  unfold leaveLoop
  by_cases hnone : ls = .none
  · subst hnone
    exact .error hst
  · have hgoes : throwIf (ls == .none) (lit "Not a loop") = pure () := by simp [throwIf, hnone]
    rw [hgoes, pure_bind]
    refine .ok ⟨hst, .inr ⟨rfl, hnone, htarget⟩, fun hends => ?_⟩
    rcases htarget with rfl | rfl <;> simp [EndsBehind] at hends

lemma blind_nameValue (scope : ScopeRef) (id : Str) : Blind _ (Tree.nameValue scope id) := by
  unfold Tree.nameValue
  split
  · exact values_blind.create _
  · split
    · exact values_blind.create _
    · exact .getValue scope id

/-- One more unit of fuel. -/
lemma MeansAll.succ (hn : MeansAll n) : MeansAll (n + 1) := by
  intro k a nullOk hk hfit
  induction a generalizing nullOk with
  | nullExpr | nullSlice | nullStmt | pass =>
    exact means_keep (x := fun _ => pure none) (y := fun _ => pure none) (fun _ => Mirrors.pure none)
      (List.append_nil _).symm
  | name id => exact means_keep fun scope => Mirrors.stringLast (Mirrors.blind (blind_nameValue scope _))
  | str value | docString value =>
    exact means_keep fun scope => Mirrors.stringLast (Mirrors.blind (values_blind.create _))
  | number num =>
    cases num with
    | integer i => exact means_keep fun scope => Mirrors.wordLast (Mirrors.blind (values_blind.create _))
    | long str | floating bits => cases hfit.1
  | «alias» name asName =>
    exact means_keep fun scope => Mirrors.string (Mirrors.stringLast (Mirrors.blind (values_blind.create _)))
  | tuple elements => exact means_keep fun scope => Mirrors.tuple hn elements hfit
  | list elements => exact means_keep fun scope => Mirrors.list hn elements hfit
  | dict entries => exact means_keep fun scope => Mirrors.dict hn entries hfit
  | compare left comparators =>
    obtain ⟨hleft, hcomparators⟩ := hfit.both rfl rfl
    exact means_keep fun scope => Mirrors.compare hn left comparators hleft hcomparators
  | call function arguments =>
    obtain ⟨hfunction, harguments⟩ := hfit.both rfl rfl
    exact means_keep fun scope => Mirrors.call hn function arguments hfunction harguments
  | «attribute» value attr =>
    obtain ⟨hvalue, hattr⟩ := Bool.and_eq_true_iff.mp hfit.1
    exact means_keep fun scope => Mirrors.attributeOf hn value attr ⟨hvalue, hfit.2⟩ hattr
  | unaryOp op operand => exact means_keep fun scope => Mirrors.unaryOp hn op operand hfit
  | boolOp op values =>
    obtain rfl := Tree.eq_noExprs_of_length (a := values) (beq_iff_eq.mp hfit.1)
    exact means_keep fun scope => Mirrors.boolOp op
  | binOp op left right =>
    obtain ⟨hleft, hright⟩ := hfit.both rfl rfl
    exact means_keep fun scope => Mirrors.binOp hn op left right hleft hright
  | subscript slice value =>
    obtain ⟨hslice, hvalue⟩ := hfit.both rfl rfl
    exact means_keep fun scope => Mirrors.subscript hn slice value hslice hvalue
  | index value => exact means_keep fun scope => hn.expression value hfit
  | listComp element generators =>
    obtain ⟨helement, hgenerators⟩ := hfit.both rfl rfl
    exact means_of_acts rfl (acts_listComp hn element generators helement hgenerators)
  | suite stmts => exact means_of_acts rfl (acts_suite hn stmts hfit)
  | assign targets value =>
    obtain ⟨hvalue, htargets⟩ := Bool.and_eq_true_iff.mp hfit.1
    obtain ⟨hplain, hplain'⟩ := Bool.and_eq_true_iff.mp hfit.2
    exact means_keep fun scope => Mirrors.assign hn targets value ⟨htargets, hplain⟩ ⟨hvalue, hplain'⟩
  | augAssign op target value =>
    obtain ⟨htarget, hvalue⟩ := hfit.both rfl rfl
    exact means_keep fun scope => Mirrors.augAssign hn op target value htarget hvalue
  | «return» value => exact means_keep fun scope => Mirrors.returnStmt hn value hfit
  | ifStmt test body orelse =>
    have hacc : (accepted false test && (accepted false body && (orelse.isNull || accepted false orelse))) = true :=
      hfit.1
    have hplain : (Tree.plain test && ((Tree.plain body && !Tree.isWhile body) &&
      (Tree.plain orelse && !Tree.isWhile orelse))) = true := hfit.2
    simp only [Bool.and_eq_true, Bool.not_eq_true'] at hacc hplain
    cases hnull : orelse.isNull with
    | true =>
      have htype : Tree.nodeType (.ifStmt test body orelse) = .if := if_pos hnull
      refine means_of_acts (by rw [bytes, if_pos hnull, htype]) ?_
      exact acts_ifStmt hn test body orelse hnull ⟨hacc.1, hplain.1⟩ ⟨hacc.2.1, hplain.2.1.1⟩ hplain.2.1.2
    | false =>
      have horelse : accepted false orelse = true := by simpa [hnull] using hacc.2.2
      have htype : Tree.nodeType (.ifStmt test body orelse) = .ifElse := if_neg (by simp [hnull])
      refine means_of_acts (by rw [bytes, if_neg (by simp [hnull]), htype]) ?_
      exact acts_ifElse hn test body orelse hnull ⟨hacc.1, hplain.1⟩ ⟨hacc.2.1, hplain.2.1.1⟩
        ⟨horelse, hplain.2.2.1⟩ hplain.2.1.2 hplain.2.2.2
  | forLoop target iter body orelse =>
    have hacc : (accepted false target && (accepted false iter && accepted false body)) = true := hfit.1
    have hplain : (Tree.plain iter && (Tree.plain body && Tree.isSuite body)) = true := hfit.2
    simp only [Bool.and_eq_true] at hacc hplain
    exact means_of_acts rfl (acts_forLoop hn target iter body orelse hacc.1 ⟨hacc.2.1, hplain.1⟩
      ⟨hacc.2.2, hplain.2.1⟩ hplain.2.2)
  | whileLoop test body orelse =>
    have hacc : (accepted false test && accepted false body) = true := hfit.1
    have hplain : (Tree.plain test && (Tree.plain body && Tree.isSuite body)) = true := hfit.2
    simp only [Bool.and_eq_true] at hacc hplain
    exact means_of_acts rfl (acts_whileLoop hn test body orelse ⟨hacc.1, hplain.1⟩ ⟨hacc.2, hplain.2.1⟩ hplain.2.2)
  | expressionStatement expr ih =>
    intro scope ls s t hst hs henters
    have hls : EndsBehind ls := henters.settled rfl
    have henters' : Enters expr scope ls s :=
      ⟨hls.imp id .inl, fun hwhile => by simp [isWhile_of_ne_stmt expr (by simp)] at hwhile⟩
    refine (ih (.inl rfl) hfit scope ls s t hst hs henters').mono fun res s' t' hcame => ?_
    have hsame : res.2 = ls := hcame.leads.resolve_right fun h => by simp at h
    exact ⟨⟨hcame.offStream, .inl hsame, hcame.behind⟩, hcame.back⟩
  | «continue» =>
    exact means_of_acts (List.append_nil _).symm (acts_leaveLoop (.inr rfl) (fun _ _ => rfl) fun _ _ => rfl)
  | «break» =>
    exact means_of_acts (List.append_nil _).symm (acts_leaveLoop (.inl rfl) (fun _ _ => rfl) fun _ _ => rfl)
  | importStmt | importFrom => cases hfit.2
  | global ids => exact means_keep fun scope => Mirrors.global ids
  | functionDef id arguments defaults keywords decorators args kwargs body =>
    have hacc : (accepted false id && (accepted true arguments && accepted true defaults && accepted false body)) = true :=
      hfit.1
    simp only [Bool.and_eq_true] at hacc
    exact means_keep fun scope => Mirrors.functionDef hn id arguments defaults body hacc.1 hacc.2.1.1
      ⟨hacc.2.1.2, hfit.2⟩
  | comprehension => exact means_of_acts rfl fun _ _ _ _ hst _ _ => .error hst
  | otherExpr | otherSlice | otherStmt => cases hfit.1
  | noExprs | consExpr | noStmts | consStmt | noItems | consItem | noComparisons | consComparison => simp at hk

/-- Whatever the fuel is, at the encoding of a tree `execute_next` does what the execution of the tree does. -/
lemma meansAll (n : Nat) : MeansAll n := by
  induction n with
  | zero => exact fun _ _ _ _ _ _ _ _ hst _ _ => .error hst
  | succ n ih => exact ih.succ

/-- At the first byte of an encoding `execute_next` returns what executing the tree returns, or throws
what it throws, in the same state but for the stream. A node that returns leaves the cursor behind the
encoding in the loop states `none` and `normal`, and at the first byte in any other. -/
theorem executeNext_agrees {k : Kind} (a : Ast k) (hk : k = .expr ∨ k = .stmt ∨ k = .slice) (code : List UInt8)
    (hcode : Encodes a code) (hplain : Tree.plain a = true) (n : Nat) (scope : ScopeRef) (ls : LoopState)
    (s t : State) (hst : OffStream s t) (hs : Placed code s) (henters : Enters a scope ls s) :
    InStep OffStream (fun res => Came k ls code.length s.interp.data res.2)
      (executeNext n scope ls s) (Tree.execute n a scope ls t) := by
  have hlen : code.length < 2 ^ 32 := by
    have hinside := hs.inside
    have hsmall := hs.small
    omega
  obtain ⟨hacc, rfl⟩ := (encodes_iff a code hlen).mp hcode
  exact meansAll n a hk ⟨hacc, hplain⟩ scope ls s t hst hs henters

/-- `n = 3`, `while n: n -= 1`, `return n`. -/
def countDown : Ast .stmt :=
  let n : Ast .expr := .name (lit "n")
  .suite (.ofStmts [
    .assign (.ofExprs [n]) (.number (.integer 3)),
    .whileLoop (.compare n (.consComparison .more (.number (.integer 0)) .noComparisons))
      (.suite (.ofStmts [.augAssign .sub n (.number (.integer 1))])) .nullStmt,
    .return n])

lemma encodes_countDown : Encodes countDown (bytes countDown) :=
  (encodes_iff _ _ (by decide)).mpr ⟨by decide, rfl⟩

/-- In the body of a function. -/
theorem executeNext_agrees_countDown :
    InStep OffStream (fun res => Came .stmt .none (bytes countDown).length (Bitstream.ofBytes (bytes countDown)) res.2)
      (executeNext 9 [1, 0] .none (startState (bytes countDown) 1000))
      (Tree.execute 9 countDown [1, 0] .none (startState [] 1000)) :=
  executeNext_agrees countDown (.inr (.inl rfl)) (bytes countDown) encodes_countDown (by decide) 9 [1, 0] .none
    (startState (bytes countDown) 1000) (startState [] 1000) ⟨Bitstream.ofBytes [], rfl⟩
    (placed_startState _ _ (by decide)) ⟨.inl rfl, by simp [Tree.isWhile, countDown]⟩

/-! ### Calls -/

section Calls

variable (body : Ast .stmt) (code : List UInt8) (hcode : Encodes body code) (hsmall : code.length < 2 ^ 32)
  (hplain : Tree.plain body = true) (hsuite : Tree.isSuite body = true)
include hcode hsmall hplain hsuite

/-- A callee that reads the encoding of a suite from its start. -/
lemma runCallee_eq_tree (n : Nat) (writeBack : Bool) (pyint : Interp) (hdata : pyint.data = Bitstream.ofBytes code)
    (scope : ScopeRef) : runCallee writeBack pyint (evaluate (executeNext n) scope) =
      runCallee writeBack pyint (evaluate (Tree.execute n body) scope) := by
  have hwhile : Tree.isWhile body = false := by
    cases body with
    | suite stmts => rfl
    | _ => simp [Tree.isSuite] at hsuite
  funext s
  have hplaced : Placed code (calleeState pyint s) := by
    refine (placed_startState code 0 hsmall).of_data ?_
    exact hdata
  have hrun := executeNext_agrees body (.inr (.inl rfl)) code hcode hplain n scope .none (calleeState pyint s)
    (calleeState pyint s) ⟨_, rfl⟩ hplaced ⟨.inl rfl, fun h => by simp [hwhile] at h⟩
  have hbody : InStep OffStream (fun _ => OffStream) (evaluate (executeNext n) scope (calleeState pyint s))
      (evaluate (Tree.execute n body) scope (calleeState pyint s)) :=
    hrun.bind fun res s' t' hcame => .ok hcame.offStream
  unfold runCallee
  generalize evaluate (executeNext n) scope (calleeState pyint s) = r at hbody
  generalize evaluate (Tree.execute n body) scope (calleeState pyint s) = r' at hbody
  cases hbody with
  | ok h =>
    obtain ⟨b, rfl⟩ := h
    cases writeBack <;> rfl
  | error h =>
    obtain ⟨b, rfl⟩ := h
    rfl

end Calls

namespace Tree

/-- The `try` block of `execute_program`, with the module as a tree. -/
def runProgram (fuel : Nat) (body : Ast .stmt) (data : Str) : M Unit := do
  let scope ← globalScope
  let _ ← evaluate (execute fuel body) scope
  let _ ← calldata fuel data

/-- `execute_program`, with the module as a tree. -/
def executeProgram (archive : Archive) (codec : AddressCodec) (memory : MemoryManager) (fuel : Nat)
    (body : Ast .stmt) (args : Arguments) (process : Process) : Except Exn Outcome :=
  match M.setup archive args (Library.initialState codec memory process args) with
  | .error e _ => .error e
  | .ok _ s =>
    match runProgram fuel body args.data s with
    | .ok _ s' => .ok (Library.finish archive args.gasprice process.errorBuffer 0 s')
    | .error e s' =>
      match e.returnCode with
      | none => .error e
      | some code =>
        .ok (Library.finish archive args.gasprice
          (process.errorBuffer ++ lit "ContractError: " ++ e.what ++ lit "\n") code s')

end Tree

lemma blind_fromStream {α : Type} (f : Bitstream → Option α × Bitstream) (b : Bitstream) : Blind _ (fromStream f b) := by
  unfold fromStream
  split
  · exact blind_compositional.pure _
  · exact blind_compositional.throw _

lemma blind_calldataArgument (acc : List ValuePtr × Bitstream) : Blind _ (calldataArgument acc) := by
  refine blind_compositional.bind .charge fun _ => blind_compositional.bind (blind_fromStream _ _) fun tag => ?_
  obtain ⟨argtype, b⟩ := tag
  dsimp only
  split
  · exact blind_compositional.bind (blind_fromStream _ _) fun _ =>
      blind_compositional.bind (values_blind.create _) fun _ => blind_compositional.pure _
  · exact blind_compositional.bind (blind_fromStream _ _) fun _ =>
      blind_compositional.bind (values_blind.create _) fun _ => blind_compositional.pure _
  · exact blind_compositional.bind (blind_fromStream _ _) fun _ =>
      blind_compositional.bind (values_blind.create _) fun _ => blind_compositional.pure _
  · exact blind_compositional.bind (blind_fromStream _ _) fun _ =>
      blind_compositional.bind (values_blind.create _) fun _ => blind_compositional.pure _
  · exact blind_compositional.throw _

lemma blind_callableNamed (function : Str) (value : ValuePtr) : Blind _ (callableNamed function value) := by
  cases value with
  | none => exact blind_compositional.throw _
  | some r => exact blind_compositional.bind (.load r) fun v =>
      blind_compositional.bind (values_blind.objects.throwIf _ _) fun _ => blind_compositional.pure r

/-- A call from outside does not read the module. -/
lemma blind_calldata (n : Nat) (data : Str) : Blind _ (calldata n data) := by
  have hglobal : Blind _ globalScope := fun _ _ => rfl
  have hfunction : Blind _ (calldataFunction data) := by
    unfold calldataFunction
    split
    · exact blind_fromStream _ _
    · exact blind_compositional.pure _
  refine blind_compositional.bind hfunction fun name => blind_compositional.bind hglobal fun scope => ?_
  refine blind_compositional.bind (.getValue scope name.1) fun value => ?_
  refine blind_compositional.bind (blind_callableNamed _ value) fun callable => ?_
  refine blind_compositional.bind (blind_compositional.iterateM blind_calldataArgument _ _) fun args => ?_
  exact .call _ _ _ _ _

/-- The interpreter `execute_program` sets up stands at the first byte of the program. -/
lemma data_of_setup {archive : Archive} {args : Arguments} {s₀ s : State} (h : setup archive args s₀ = .ok () s) :
    s.interp.data = Bitstream.ofBytes (archive.uncompress args.raw) := by
  obtain ⟨_, s₁, hnew, h⟩ := bind_eq_ok.mp h
  obtain ⟨_, s₂, hload, h⟩ := bind_eq_ok.mp h
  obtain ⟨_, s₃, hlimit, h⟩ := bind_eq_ok.mp h
  have h₁ : s₁.interp.data = Bitstream.ofBytes (archive.uncompress args.raw) := by
    obtain ⟨_, s', -, hnew⟩ := bind_eq_ok.mp hnew
    cases hnew
    rfl
  have h₂ : s₂.interp.data = s₁.interp.data := by
    unfold loadOldStorage at hload
    split at hload
    · cases hstorage : archive.load args.oldStorage with
      | error e => simp [hstorage, M.liftExcept, bind, EStateM.bind] at hload
      | ok st =>
        rw [hstorage] at hload
        cases hload
        rfl
    · cases hload
      rfl
  have h₃ : s₃.interp.data = s₂.interp.data := by
    unfold limitFromGas at hlimit
    split at hlimit
    · simp at hlimit
    · unfold setExecutionStepLimit at hlimit
      split at hlimit <;> cases hlimit
      rfl
  have hregister : Blind _ registerBlockchainModule :=
    blind_compositional.bind values_blind.newBlockchainModule fun _ _ _ => rfl
  rw [hregister.data_eq h, h₃, h₂, h₁]

/-- A module executed from its start. -/
lemma agree_runProgram {body : Ast .stmt} {code : List UInt8} (hcode : Encodes body code) (hsmall : code.length < 2 ^ 32)
    (hplain : Tree.plain body = true) (hsuite : Tree.isSuite body = true) (fuel : Nat) (data : Str) {s : State}
    (hdata : s.interp.data = Bitstream.ofBytes code) :
    InStep OffStream (fun _ => OffStream) (runProgram fuel data s) (Tree.runProgram fuel body data s) := by
  have hwhile : Tree.isWhile body = false := by
    cases body with
    | suite stmts => rfl
    | _ => simp [Tree.isSuite] at hsuite
  have hplaced : Placed code s := (placed_startState code 0 hsmall).of_data hdata
  have hexecute : InStep OffStream (fun _ => OffStream) (evaluate (executeNext fuel) s.interp.globalScope s)
      (evaluate (Tree.execute fuel body) s.interp.globalScope s) :=
    (executeNext_agrees body (.inr (.inl rfl)) code hcode hplain fuel s.interp.globalScope .none s s ⟨_, rfl⟩
      hplaced ⟨.inl rfl, fun h => by simp [hwhile] at h⟩).bind fun res s₁ t₁ hcame => .ok hcame.offStream
  have hcalldata : Blind Unit (do let _ ← calldata fuel data) :=
    blind_compositional.bind (blind_calldata fuel data) fun _ => blind_compositional.pure ()
  have hglobal : globalScope s = .ok s.interp.globalScope s := rfl
  unfold runProgram Tree.runProgram execute
  rw [bind_assoc, bind_of_ok hglobal, bind_of_ok hglobal]
  exact hexecute.bind fun _ _ _ hst => (hcalldata.agree hst).mono fun _ _ _ harrived => harrived.1

/-- A module with one function. -/
def countingModule : Ast .stmt :=
  .suite (.ofStmts [.functionDef (.name (lit "default")) .noExprs .noExprs .noExprs .noExprs .nullExpr .nullExpr
    countDown])

end ContractPython.Proofs
