import ContractPython.Proofs.Streams
import ContractPython.Trees.Mirroring

/-!
# Executing an encoding

At the encoding of a tree `execute_next` does what the execution of the tree does. A node that ends in
the loop state `none` or `normal` leaves the cursor behind its last byte, and any other loop state takes
it back to the first one: where a node is entered in a loop state it cannot leave, or ends a branch in
the middle of a list, the next node would be read at the wrong place. `plain` and `Enters` say when that
does not happen.
-/

namespace ContractPython.Proofs

open Program M Bytes

/-! ### Where the cursor ends -/

namespace Tree

def isSuite : {k : Kind} → Ast k → Bool
  | _, .suite _ => true
  | _, _ => false

def isWhile : {k : Kind} → Ast k → Bool
  | _, .whileLoop _ _ _ => true
  | _, _ => false

/-- The nodes that may be entered in the loop state of a loop. -/
def straight : {k : Kind} → Ast k → Bool
  | .expr, .listComp _ _ => false
  | .expr, _ | .slice, _ => true
  | _, a => isSuite a

/-- Trees whose execution reads every node where it stands: without imports, which leave the cursor
before what they import, and without the conditions of a comprehension, which are not passed over. The
parser makes a suite of every body. -/
def plain : {k : Kind} → Ast k → Bool
  | _, .importFrom _ _ _ | _, .importStmt _ => false
  | _, .assign targets value => plain targets && plain value
  | _, .suite stmts => plain stmts
  | _, .return value => plain value
  | _, .dict entries => plain entries
  | _, .compare left comparators => plain left && plain comparators
  | _, .ifStmt test body orelse =>
    plain test && ((plain body && !isWhile body) && (plain orelse && !isWhile orelse))
  | _, .call function arguments _ _ _ => plain function && plain arguments
  | _, .attribute value _ => plain value
  | _, .unaryOp _ operand => plain operand
  | _, .binOp _ left right => plain left && plain right
  | _, .list elements => plain elements
  | _, .subscript slice value => plain slice && plain value
  | _, .index value => plain value
  | _, .forLoop _ iter body _ => plain iter && (plain body && isSuite body)
  | _, .whileLoop test body _ => plain test && (plain body && isSuite body)
  | _, .augAssign _ target value => plain target && plain value
  | _, .expressionStatement expr => plain expr
  | _, .tuple elements => plain elements
  | _, .listComp element generators => plain element && plain generators
  | _, .comprehension _ iter ifs => plain iter && ifs.length == 0
  -- the body is executed in the calls of the function
  | _, .functionDef _ _ defaults _ _ _ _ _ => plain defaults
  | _, .consExpr head tail => plain head && plain tail
  | _, .consStmt head tail => plain head && plain tail
  | _, .consItem _ value tail => plain value && plain tail
  | _, .consComparison _ comparator tail => plain comparator && plain tail
  | _, _ => true

end Tree

/-- The compiler gets through the tree, and its execution reads every node where it stands. -/
def Fit (nullOk : Bool) (k : Kind) (a : Ast k) : Prop := accepted nullOk a = true ∧ Tree.plain a = true

/-- The children of a node that has two. -/
lemma Fit.both {k k₁ k₂ : Kind} {a : Ast k₁} {b : Ast k₂} {c : Ast k} {nullOk nullOk₁ nullOk₂ : Bool}
    (h : Fit nullOk k c) (haccepted : accepted nullOk c = (accepted nullOk₁ a && accepted nullOk₂ b))
    (hplain : Tree.plain c = (Tree.plain a && Tree.plain b)) : Fit nullOk₁ k₁ a ∧ Fit nullOk₂ k₂ b := by
  rw [Fit, haccepted, hplain, Bool.and_eq_true, Bool.and_eq_true] at h
  exact ⟨⟨h.1.1, h.2.1⟩, h.1.2, h.2.2⟩

/-- The scope has not been terminated. -/
def Running (scope : ScopeRef) (s : State) : Prop := isTerminated scope s = .ok false s

lemma Running.of_frames {scope : ScopeRef} {s s' : State} (h : Running scope s) (hframes : s'.frames = s.frames) :
    Running scope s' := by
  cases scope with
  | nil => rfl
  | cons id parents =>
    have hflag : EStateM.Result.ok (Scope.frame s.frames id).terminated s = .ok false s := h
    have hfalse := (EStateM.Result.ok.inj hflag).1
    show EStateM.Result.ok (Scope.frame s'.frames id).terminated s' = .ok false s'
    rw [hframes, hfalse]

/-- How `execute` and the lists of statements enter a node: only a suite, or an expression that is not
a comprehension, is entered in the loop state of a loop, and a `while` loop only while nothing has
returned. -/
def Enters {k : Kind} (a : Ast k) (scope : ScopeRef) (ls : LoopState) (s : State) : Prop :=
  (ls = .none ∨ ls = .normal ∨ Tree.straight a = true ∧ ls ≠ .ignoreAll) ∧ (Tree.isWhile a = true → Running scope s)

/-- The loop states a node may end in. -/
def Leads (k : Kind) (ls ls' : LoopState) : Prop :=
  ls' = ls ∨ k = .stmt ∧ ls ≠ .none ∧ (ls' = .break ∨ ls' = .continue)

/-- Where the switch of `execute_next` ends. -/
structure Switched (k : Kind) (ls : LoopState) (len : Nat) (b : Bitstream) (ls' : LoopState) (s t : State) : Prop where
  offStream : OffStream s t
  leads : Leads k ls ls'
  behind : EndsBehind ls' → s.interp.data = ahead len b

/-- Where `execute_next` ends. -/
structure Came (k : Kind) (ls : LoopState) (len : Nat) (b : Bitstream) (ls' : LoopState) (s t : State) : Prop
    extends Switched k ls len b ls' s t where
  back : ¬EndsBehind ls' → s.interp.data = b

/-- At the encoding of `a`, `execute_next` does what the execution of `a` does. -/
def Means (n : Nat) {k : Kind} (a : Ast k) : Prop :=
  ∀ scope ls s t, OffStream s t → Placed (bytes a) s → Enters a scope ls s →
    InStep OffStream (fun res => Came k ls (bytes a).length s.interp.data res.2)
      (executeNext n scope ls s) (Tree.execute n a scope ls t)

/-- So does its switch, behind the node type. -/
def Acts (n : Nat) {k : Kind} (a : Ast k) (rest : List UInt8) : Prop :=
  ∀ scope ls s t, OffStream s t → Placed rest s → Enters a scope ls s →
    InStep OffStream (fun res => Switched k ls rest.length s.interp.data res.2)
      (execNode (executeNext n) scope n ls (Tree.nodeType a) s)
      (Tree.node (Tree.execute n) scope (executeNext n) n ls a t)

/-- What leaves the stream and the frames alone. -/
lemma Blind.agree_place {α : Type} {x : M α} (h : Blind α x) (hplace : KeepsPlace α x) {s t : State}
    (hst : OffStream s t) : InStep OffStream
      (fun _ s' t' => OffStream s' t' ∧ s'.interp.data = s.interp.data ∧ s'.frames = s.frames) (x s) (x t) :=
  ((h.agree hst).and_left fun _ _ hx => hplace.of_ok hx).mono fun _ _ _ hend => ⟨hend.1.1, hend.2⟩

lemma keepsPlace_charge : KeepsPlace _ charge :=
  keepsPlace_of_finalState (fun s => by rw [finalState_charge]; rfl) fun s => by rw [finalState_charge]; rfl

lemma keepsPlace_record (e : Event) : KeepsPlace _ (record e) :=
  keepsPlace_of_finalState (fun _ => rfl) fun _ => rfl

lemma endsBehind_iff (res : ValuePtr × LoopState) :
    (res.2 != .normal && res.2 != .none) = true ↔ ¬EndsBehind res.2 := by
  unfold EndsBehind
  cases res.2 <;> simp

/-- What the epilogue does to the cursor is not seen on the tree. -/
lemma agree_epilogue {start : UInt32} {k : Kind} {ls : LoopState} {len : Nat} {b : Bitstream}
    {res : ValuePtr × LoopState} {s t : State} (h : Switched k ls len b res.2 s t) :
    InStep OffStream (fun res => Switched k ls len b res.2) (epilogue start res s) ((pure res : M _) t) := by
  unfold epilogue
  by_cases hends : EndsBehind res.2
  · rw [if_neg fun hback => (endsBehind_iff res).mp hback hends]
    exact .ok h
  · rw [if_pos ((endsBehind_iff res).mpr hends)]
    obtain ⟨b', hb'⟩ := h.offStream
    refine .ok ⟨⟨b', ?_⟩, h.leads, fun hbehind => absurd hbehind hends⟩
    rw [hb']
    rfl

/-- From the switch to the whole node. -/
lemma means_of_acts {n : Nat} {k : Kind} {a : Ast k} {rest : List UInt8}
    (hbytes : bytes a = typeBytes (Tree.nodeType a) ++ rest) (h : Acts n a rest) : Means (n + 1) a := by
  intro scope ls s t hst hs henters
  have hrun : InStep OffStream (fun res => Switched k ls (bytes a).length s.interp.data res.2)
      (executeNext (n + 1) scope ls s) (Tree.execute (n + 1) a scope ls t) := by
    refine (Blind.charge.agree_place keepsPlace_charge hst).bind fun _ s₁ t₁ hcharged => ?_
    obtain ⟨hst₁, hdata₁, hframes₁⟩ := hcharged
    have hs₁ : Placed (typeBytes (Tree.nodeType a) ++ rest) s₁ := (hbytes ▸ hs).of_data hdata₁
    obtain ⟨hread, hrest⟩ := readType_placed (Tree.nodeType_known a) hs₁
    have hpos : pos s₁ = .ok s₁.interp.data.pos s₁ := rfl
    unfold executeCharged
    rw [bind_of_ok hpos, bind_of_ok hread]
    refine ((values_blind.objects.throwIf _ _).agree_place (values_keepsPlace.objects.throwIf _ _) (hst₁.advance 4)).bind
      fun _ s₃ t₃ hchecked => ?_
    refine ((Blind.record _).agree_place (keepsPlace_record _) hchecked.1).bind fun _ s₄ t₄ hrecorded => ?_
    have hdata₄ : s₄.interp.data = ahead 4 s.interp.data := by
      rw [hrecorded.2.1, hchecked.2.1, advance_eq_withCode, ← hdata₁]
      rfl
    have hframes₄ : s₄.frames = s.frames := by
      rw [hrecorded.2.2, hchecked.2.2]
      exact hframes₁
    have hs₄ : Placed rest s₄ := hrest.of_data (hdata₄.trans (by rw [← hdata₁]; rfl))
    have hswitch := h scope ls s₄ t₄ hrecorded.1 hs₄ ⟨henters.1, fun hwhile => (henters.2 hwhile).of_frames hframes₄⟩
    rw [← bind_pure (Tree.node (Tree.execute n) scope (executeNext n) n ls a)]
    refine hswitch.bind fun res s₅ t₅ hended => agree_epilogue ⟨hended.offStream, hended.leads, fun hbehind => ?_⟩
    rw [hended.behind hbehind, hdata₄, ahead_ahead, hbytes, List.length_append, typeBytes, length_wordBytes]
  have hback := hrun.and_left (P := fun res s' => ¬EndsBehind res.2 → s'.interp.data = s.interp.data)
    fun res s' hres hls => data_of_unsettled hs.small ⟨hs.good, by have := hs.inside; omega⟩ hres hls
  exact hback.mono fun _ _ _ hend => ⟨hend.1, hend.2⟩

/-! ### The recursive calls -/

/-- All that the compiler gets through and that is read where it stands. -/
def MeansAll (n : Nat) : Prop :=
  ∀ {k : Kind} (a : Ast k) {nullOk : Bool}, (k = .expr ∨ k = .stmt ∨ k = .slice) → Fit nullOk k a → Means n a

lemma isWhile_of_ne_stmt {k : Kind} (a : Ast k) (hk : k ≠ .stmt) : Tree.isWhile a = false := by
  cases a with
  | whileLoop => exact absurd rfl hk
  | _ => rfl

namespace MeansAll

variable {n : Nat} (hn : MeansAll n) {scope : ScopeRef} {nullOk : Bool}
include hn

/-- An expression goes on in the loop state it is evaluated in. -/
lemma evaluate {k : Kind} (a : Ast k) (hk : k = .expr ∨ k = .slice) (hfit : Fit nullOk k a) :
    Mirrors (bytes a) (evaluate (executeNext n) scope) (evaluate (Tree.execute n a) scope) := by
  have hstmt : k ≠ .stmt := by
    rcases hk with rfl | rfl <;> simp
  intro s t hst hs
  have henters : Enters a scope .none s :=
    ⟨.inl rfl, fun hwhile => by simp [isWhile_of_ne_stmt a hstmt] at hwhile⟩
  refine (hn a (hk.imp id .inr) hfit scope .none s t hst hs henters).bind fun res s' t' hcame => ?_
  have hnone : res.2 = .none := by
    rcases hcame.leads with hsame | ⟨hkind, -⟩
    · exact hsame
    · exact absurd hkind hstmt
  exact .ok ⟨hcame.offStream, hcame.behind (.inl hnone)⟩

lemma expression (a : Ast .expr) (hfit : Fit nullOk .expr a) :
    Mirrors (bytes a) (M.evaluate (executeNext n) scope) (M.evaluate (Tree.execute n a) scope) :=
  hn.evaluate a (.inl rfl) hfit

end MeansAll

/-- A node that leaves the loop state alone. -/
lemma acts_keep {n : Nat} {k : Kind} {a : Ast k} {rest : List UInt8} {x y : ScopeRef → M ValuePtr}
    (hx : ∀ scope ls, execNode (executeNext n) scope n ls (Tree.nodeType a) = keep ls (x scope))
    (hy : ∀ scope ls, Tree.node (Tree.execute n) scope (executeNext n) n ls a = keep ls (y scope))
    (h : ∀ scope, Mirrors rest (x scope) (y scope)) : Acts n a rest := by
  intro scope ls s t hst hs _
  rw [hx, hy]
  refine (h scope s t hst hs).bind fun p s' t' hend => .ok ⟨hend.1, .inl rfl, fun _ => hend.2⟩

end ContractPython.Proofs
