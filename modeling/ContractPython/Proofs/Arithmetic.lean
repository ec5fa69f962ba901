import ContractPython.Proofs.Encoding
import ContractPython.Proofs.Steps

/-!
# Integer arithmetic

An `IntVal` holds 64 bits, but the results of `BinaryOp` and `UnaryOp` nodes and of `min`
and `max` pass through an `int32_t`. They are what 64-bit arithmetic gives exactly when
this narrowing does not change them. The in-place operators work on all 64 bits.
-/

namespace ContractPython.Proofs

open Program M

/-- What is left of an integer after the conversion to `int32_t` and back. -/
def narrow (i : Int64) : Int64 := i.toInt32.toInt64

/-- The integer is one of an `int32_t`. -/
def FitsInt32 (i : Int64) : Prop := narrow i = i

instance (i : Int64) : Decidable (FitsInt32 i) := inferInstanceAs (Decidable (_ = _))

/-- The operators the claim of 64-bit arithmetic is about. -/
def arithmeticOps : List BinaryOpType := [.add, .sub, .mult]

/-- The 64-bit result of an operator. -/
def wide : BinaryOpType → Int64 → Int64 → Int64
  | .add, a, b => a + b
  | .sub, a, b => a - b
  | .mult, a, b => a * b
  | _, a, _ => a

/-- The integer a computation returns. -/
def yielded (m : M ValuePtr) (s : State) : Option Int64 :=
  match m s with
  | .ok (some r) s' => s'.heap[r]?.bind Value.integer?
  | _ => none

/-- The integer at `t` after a computation. -/
def leftAt (m : M ValuePtr) (s : State) (t : Ref) : Option Int64 :=
  match m s with
  | .ok _ s' => s'.heap[t]?.bind Value.integer?
  | .error _ _ => none

/-! ### The operands of a node -/

section Operands

variable (rec : Rec) (scope : ScopeRef)

/-- A `BinaryOp` node up to the switch. -/
def binaryOperands : M (BinaryOpType × ValuePtr × ValuePtr) := do
  let type ← readWord
  let left ← evaluate rec scope
  let right ← evaluate rec scope
  pure (.ofCode type, left, right)

/-- An `AugmentedAssign` node on a name up to the switch. -/
def augmentedOperands : M (BinaryOpType × ValuePtr × ValuePtr) := do
  let op ← readWord
  let lookAhead ← peekType
  throwIf (lookAhead == .subscript) (lit "Not a valid name")
  let name ← readName
  let target ← getValue scope name
  let value ← evaluate rec scope
  pure (.ofCode op, target, value)

/-- A `UnaryOp` node up to the switch. -/
def unaryOperand : M (UnaryOpType × ValuePtr) := do
  let type ← readWord
  let res ← evaluate rec scope
  pure (.ofCode type, res)

end Operands

/-- `m` gets the operator `op` and objects that hold `a` and `b`, the first one at `l`. -/
def GetsOperands (m : M (BinaryOpType × ValuePtr × ValuePtr)) (op : BinaryOpType) (a b : Int64)
    (l : Ref) (s s' : State) : Prop :=
  ∃ r, m s = .ok (op, some l, some r) s' ∧ s'.heap[l]? = some (.integer a) ∧
    s'.heap[r]? = some (.integer b)

variable {rec : Rec} {scope : ScopeRef} {op : BinaryOpType} {a b : Int64} {l r : Ref} {s s' : State}

/-- A new integer object. -/
lemma yielded_create (hmem : MemoryLeft s) (i : Int64) : yielded (create (.integer i)) s = some i := by
  unfold MemoryLeft at hmem
  simp [yielded, create, alloc, malloc, makeShared, bind, EStateM.bind, hmem, Value.integer?, pure,
    EStateM.pure]

lemma yielded_bind {α : Type} {m : M α} {f : α → M ValuePtr} {x : α} (h : m s = .ok x s') :
    yielded (m >>= f) s = yielded (f x) s' := by
  unfold yielded
  rw [bind_of_ok h]

/-! ### The results -/

lemma mem_arithmeticOps : op ∈ arithmeticOps ↔ op = .add ∨ op = .sub ∨ op = .mult := by
  simp [arithmeticOps]

/-- The switch of a `BinaryOp` node on two integers. -/
lemma binaryOp_apply (hop : op ∈ arithmeticOps) (hl : s.heap[l]? = some (.integer a))
    (hr : s.heap[r]? = some (.integer b)) :
    binaryOp op (some l) (some r) s = create (.integer (narrow (wide op a b))) s := by
  rcases mem_arithmeticOps.mp hop with rfl | rfl | rfl <;>
    simp only [binaryOp, assertGeneric, pure_bind, bind_of_ok (load_of_heap hl),
      bind_of_ok (load_of_heap hr)] <;> rfl

/-- A `BinaryOp` node narrows the 64-bit result. -/
lemma yielded_binaryOp (hop : op ∈ arithmeticOps)
    (hget : GetsOperands (binaryOperands rec scope) op a b l s s') (hmem : MemoryLeft s') :
    yielded (execBinaryOp rec scope) s = some (narrow (wide op a b)) := by
  obtain ⟨r, hget, hl, hr⟩ := hget
  have hexec : execBinaryOp rec scope = binaryOperands rec scope >>= fun x => binaryOp x.1 x.2.1 x.2.2 := by
    simp only [execBinaryOp, binaryOperands, bind_assoc, pure_bind]
  rw [hexec, yielded_bind hget]
  unfold yielded
  rw [binaryOp_apply hop hl hr]
  exact yielded_create hmem _

/-- A `UnaryOp` node narrows the negated operand. -/
lemma yielded_unaryOp (hget : unaryOperand rec scope s = .ok (.sub, some r) s')
    (hr : s'.heap[r]? = some (.integer a)) (hmem : MemoryLeft s') :
    yielded (execUnaryOp rec scope) s = some (narrow (-a)) := by
  obtain ⟨w, s₁, hword, hget⟩ := bind_eq_ok.mp hget
  obtain ⟨res, s₂, heval, hget⟩ := bind_eq_ok.mp hget
  obtain ⟨hpair, rfl⟩ := pure_eq_ok.mp hget
  obtain ⟨hop, rfl⟩ := Prod.mk.inj hpair
  have hvalue : Value.unaryOp .sub (.integer a) = .ok (some (.integer (narrow (-a)))) := by
    simp only [Value.unaryOp, Value.ofInt32, narrow]
    rw [Int64.neg_eq_neg_one_mul a]
  unfold execUnaryOp
  rw [yielded_bind hword, yielded_bind heval]
  simp only [assertGeneric, pure_bind]
  rw [yielded_bind (load_of_heap hr), hop, hvalue]
  exact yielded_create hmem _

/-- `min` and `max` narrow the result. -/
lemma yielded_callMinMax (choose : Int64 → Int64 → Int64) (hl : s.heap[l]? = some (.integer a))
    (hr : s.heap[r]? = some (.integer b)) (hmem : MemoryLeft s) :
    yielded (callMinMax choose [some l, some r]) s = some (narrow (choose a b)) := by
  have hcheck {r : Ref} {i : Int64} (h : s.heap[r]? = some (.integer i)) :
      checkIsInteger (some r) s = .ok i s := by
    simp only [checkIsInteger, loadPtr, bind_assoc, pure_bind, bind_of_ok (load_of_heap h)]
    rfl
  unfold callMinMax
  rw [yielded_bind (hcheck hl), yielded_bind (hcheck hr)]
  exact yielded_create hmem _

/-- The switch of an `AugmentedAssign` node on two integers. -/
lemma augmentName_apply (hop : op ∈ arithmeticOps) (hl : s.heap[l]? = some (.integer a))
    (hr : s.heap[r]? = some (.integer b)) :
    augmentName op (some l) (some r) s =
      .ok () { s with heap := s.heap.set l (.integer (wide op a b)) } := by
  rcases mem_arithmeticOps.mp hop with rfl | rfl | rfl <;>
    simp only [augmentName, updateInteger, bind_of_ok (integerAt_of_heap hl),
      bind_of_ok (integerAt_of_heap hr),
      storeAt, hl, Option.map_some, Value.ctorIdx, if_true, wide]

/-- An in-place operator leaves the 64-bit result in the target. -/
lemma leftAt_augmentedAssign (hop : op ∈ arithmeticOps)
    (hget : GetsOperands (augmentedOperands rec scope) op a b l s s') :
    leftAt (execAugmentedAssign rec scope) s l = some (wide op a b) := by
  obtain ⟨r, hget, hl, hr⟩ := hget
  obtain ⟨w, s₁, hword, hget⟩ := bind_eq_ok.mp hget
  obtain ⟨lookAhead, s₂, hpeek, hget⟩ := bind_eq_ok.mp hget
  obtain ⟨u, s₃, hthrow, hget⟩ := bind_eq_ok.mp hget
  obtain ⟨name, s₄, hname, hget⟩ := bind_eq_ok.mp hget
  obtain ⟨target, s₅, htarget, hget⟩ := bind_eq_ok.mp hget
  obtain ⟨value, s₆, hvalue, hget⟩ := bind_eq_ok.mp hget
  obtain ⟨hpair, rfl⟩ := pure_eq_ok.mp hget
  obtain ⟨hlook, rfl⟩ := throwIf_eq_ok.mp hthrow
  simp only [Prod.mk.injEq] at hpair
  obtain ⟨hcode, rfl, rfl⟩ := hpair
  have hexec : execAugmentedAssign rec scope s = (do augmentName (.ofCode w) (some l) (some r); pure none) s₆ := by
    unfold execAugmentedAssign
    rw [bind_of_ok hword, bind_of_ok hpeek, if_neg (by simpa using hlook), bind_of_ok hname,
      bind_of_ok htarget, bind_of_ok hvalue]
  unfold leftAt
  rw [hexec, hcode, bind_of_ok (augmentName_apply hop hl hr)]
  simp [pure, EStateM.pure, lt_length_of_heap hl, Value.integer?]

/-! ### The widths -/

/-- Whatever the operands are, a result is the 64-bit one exactly when it is one of an `int32_t`,
and exactly then `y = x op e` gives `y` what `x op= e` gives `x`. -/
theorem results_wide_iff_fitsInt32 (rec : Rec) (scope : ScopeRef) (a b : Int64) :
    (∀ op ∈ arithmeticOps, ∀ l s s', GetsOperands (binaryOperands rec scope) op a b l s s' →
      MemoryLeft s' →
      (yielded (execBinaryOp rec scope) s = some (wide op a b) ↔ FitsInt32 (wide op a b))) ∧
    (∀ r s s', unaryOperand rec scope s = .ok (.sub, some r) s' → s'.heap[r]? = some (.integer a) →
      MemoryLeft s' → (yielded (execUnaryOp rec scope) s = some (-a) ↔ FitsInt32 (-a))) ∧
    (∀ l r s, s.heap[l]? = some (.integer a) → s.heap[r]? = some (.integer b) → MemoryLeft s →
      (yielded (callBuiltin .min [some l, some r]) s = some (min a b) ↔ FitsInt32 (min a b)) ∧
      (yielded (callBuiltin .max [some l, some r]) s = some (max a b) ↔ FitsInt32 (max a b))) ∧
    (∀ op ∈ arithmeticOps, ∀ l s s' t q q', GetsOperands (binaryOperands rec scope) op a b l s s' →
      MemoryLeft s' → GetsOperands (augmentedOperands rec scope) op a b t q q' →
      (yielded (execBinaryOp rec scope) s = leftAt (execAugmentedAssign rec scope) q t ↔
        FitsInt32 (wide op a b))) := by
  have hiff {i : Int64} {x : Option Int64} (h : x = some (narrow i)) : x = some i ↔ FitsInt32 i := by
    rw [h, Option.some_inj]
    rfl
  refine ⟨fun op hop l s s' hget hmem => hiff (yielded_binaryOp hop hget hmem),
    fun r s s' hget hr hmem => hiff (yielded_unaryOp hget hr hmem),
    fun l r s hl hr hmem => ⟨hiff (yielded_callMinMax min hl hr hmem),
      hiff (yielded_callMinMax max hl hr hmem)⟩, fun op hop l s s' t q q' hget hmem hget' => ?_⟩
  rw [leftAt_augmentedAssign hop hget']
  exact hiff (yielded_binaryOp hop hget hmem)

/-- A function with the local variable `x` that is about to execute `code`. -/
def stateWithLocal (code : List UInt8) (x : Int64) : State :=
  { startState code 1000 with
    heap := [.persistableDictionary .empty, .integer x]
    frames := (startState code 1000).frames ++
      [{ Frame.empty with values := SortedMap.empty.insert (lit "x") (some 1) }] }

/-- The fields of the nodes `x + 1` and `x += 1`. -/
def successorFields : List UInt8 :=
  wordBytes BinaryOpType.add.code ++ (bytes (.name (lit "x") : Ast .expr) ++
    bytes (.number (.integer 1) : Ast .expr))

/-- The fields of the node `-x`. -/
def negatedFields : List UInt8 :=
  wordBytes UnaryOpType.sub.code ++ bytes (.name (lit "x") : Ast .expr)

/-- The largest 32-bit integer plus one is not the 64-bit sum. -/
theorem results_wide_maxInt32_false :
    (∃ s', GetsOperands (binaryOperands (executeNext 5) [1, 0]) .add 2147483647 1 1
      (stateWithLocal successorFields 2147483647) s') ∧
    yielded (execBinaryOp (executeNext 5) [1, 0]) (stateWithLocal successorFields 2147483647) ≠
      some (wide .add 2147483647 1) :=
  ⟨⟨_, 2, eq_ok_of_returned (by decide +kernel), by decide +kernel, by decide +kernel⟩,
    by decide +kernel⟩

/-- The operations on two and one. -/
theorem results_wide_two :
    yielded (execBinaryOp (executeNext 5) [1, 0]) (stateWithLocal successorFields 2) =
        some (wide .add 2 1) ∧
      yielded (execUnaryOp (executeNext 5) [1, 0]) (stateWithLocal negatedFields 2) = some (-2) ∧
      yielded (callBuiltin .min [some 0, some 1])
        { startState [] 1000 with heap := [.integer 2, .integer 1] } = some (min 2 1) ∧
      yielded (execBinaryOp (executeNext 5) [1, 0]) (stateWithLocal successorFields 2) =
        leftAt (execAugmentedAssign (executeNext 5) [1, 0]) (stateWithLocal successorFields 2) 1 :=
  have hwide := results_wide_iff_fitsInt32 (executeNext 5) [1, 0] 2 1
  have hbinary : ∃ s', GetsOperands (binaryOperands (executeNext 5) [1, 0]) .add 2 1 1
      (stateWithLocal successorFields 2) s' ∧ MemoryLeft s' :=
    ⟨_, ⟨2, eq_ok_of_returned (by decide +kernel), by decide +kernel, by decide +kernel⟩,
      by decide +kernel⟩
  have haugmented : ∃ s', GetsOperands (augmentedOperands (executeNext 5) [1, 0]) .add 2 1 1
      (stateWithLocal successorFields 2) s' :=
    ⟨_, 2, eq_ok_of_returned (by decide +kernel), by decide +kernel, by decide +kernel⟩
  have ⟨s₁, hget, hmem⟩ := hbinary
  have ⟨s₂, hget'⟩ := haugmented
  ⟨(hwide.1 .add (by decide) 1 _ s₁ hget hmem).mpr (by decide),
    (hwide.2.1 1 (stateWithLocal negatedFields 2) _ (eq_ok_of_returned (by decide +kernel))
      (by decide +kernel) (by decide +kernel)).mpr (by decide),
    (hwide.2.2.1 0 1 { startState [] 1000 with heap := [.integer 2, .integer 1] } rfl rfl rfl).1.mpr
      (by decide),
    (hwide.2.2.2 .add (by decide) 1 _ s₁ 1 _ s₂ hget hmem hget').mpr (by decide)⟩

end ContractPython.Proofs
