import ContractPython.Proofs.Encoding

/-!
# Composition

The encoding of a node is made of fields of its own and of the encodings of its children, each as
the child is encoded alone. The operands of `and` and `or` are the exception: `parse_next` takes
the pointer to an operand for the operand, and finds no node in it.
-/

namespace ContractPython.Proofs

open Program Compiler

/-- What a tree is encoded to when it is compiled alone. -/
def alone {k : Kind} (a : Ast k) : Option (List UInt8) :=
  match parseNext maliciousInput a (Bitstream.ofBytes []) with
  | .ok _ b => some b.bytecode
  | .error _ _ => none

/-- The bytes of a child. -/
def own {k : Kind} (a : Ast k) : List UInt8 := (alone a).getD []

/-- The type of the node has a case in `parse_next`; the type of a number is one of its own, and
`Number` has a case for integers. -/
def hasCase : {k : Kind} → Ast k → Bool
  | _, .nullExpr | _, .nullSlice | _, .nullStmt => false
  | _, .otherExpr | _, .otherSlice | _, .otherStmt => false
  | _, .number (.integer _) => true
  | _, .number _ => false
  | _, .noExprs | _, .noStmts | _, .noItems | _, .noComparisons => false
  | _, .consExpr _ _ | _, .consStmt _ _ | _, .consItem _ _ _ | _, .consComparison _ _ _ => false
  | _, _ => true

/-- The children of a node, and the elements of a vector. An `If` without `orelse` has no third
child. -/
def children : {k : Kind} → Ast k → List (Sigma Ast)
  | _, .importFrom module names _ => [⟨_, module⟩, ⟨_, names⟩]
  | _, .importStmt names => [⟨_, names⟩]
  | _, .assign targets value => ⟨_, value⟩ :: children targets
  | _, .suite items => children items
  | _, .return value => [⟨_, value⟩]
  | _, .dict items => children items
  | _, .compare left comparators => ⟨_, left⟩ :: children comparators
  | _, .ifStmt test body orelse =>
    if orelse.isNull then [⟨_, test⟩, ⟨_, body⟩] else [⟨_, test⟩, ⟨_, body⟩, ⟨_, orelse⟩]
  | _, .call function arguments _ _ _ => ⟨_, function⟩ :: children arguments
  | _, .attribute value attr => [⟨_, value⟩, ⟨_, attr⟩]
  | _, .unaryOp _ operand => [⟨_, operand⟩]
  | _, .boolOp _ values => children values
  | _, .binOp _ left right => [⟨_, left⟩, ⟨_, right⟩]
  | _, .list elements => children elements
  | _, .subscript slice value => [⟨_, slice⟩, ⟨_, value⟩]
  | _, .index value => [⟨_, value⟩]
  | _, .forLoop target iter body _ => [⟨_, target⟩, ⟨_, iter⟩, ⟨_, body⟩]
  | _, .whileLoop test body _ => [⟨_, test⟩, ⟨_, body⟩]
  | _, .augAssign _ target value => [⟨_, target⟩, ⟨_, value⟩]
  | _, .expressionStatement expr => [⟨_, expr⟩]
  | _, .tuple elements => children elements
  | _, .listComp element generators => ⟨_, element⟩ :: children generators
  | _, .comprehension target iter ifs => ⟨_, target⟩ :: ⟨_, iter⟩ :: children ifs
  | _, .functionDef name arguments defaults _ _ _ _ body =>
    ⟨_, name⟩ :: ⟨_, body⟩ :: (children arguments ++ children defaults)
  | _, .consExpr head tail => ⟨_, head⟩ :: children tail
  | _, .consStmt head tail => ⟨_, head⟩ :: children tail
  | _, .consItem key value tail => ⟨_, key⟩ :: ⟨_, value⟩ :: children tail
  | _, .consComparison _ comparator tail => ⟨_, comparator⟩ :: children tail
  | _, _ => []

/-- The fields of a node and the bytes of its children, in the order the case of the node type in
`execute_next` reads them. -/
def layout : {k : Kind} → Ast k → List UInt8
  | _, .importFrom module names _ => typeBytes .importFrom ++ (own module ++ own names)
  | _, .importStmt names => typeBytes .import ++ own names
  | _, .alias name asName =>
    typeBytes .alias ++ (stringBytes (cStr name) ++ stringBytes (cStr (asName.getD [])))
  | _, .name id => nameBytes id
  | _, .assign targets value =>
    typeBytes .assign ++ (own value ++ (sizeBytes targets.length ++ layout targets))
  | _, .suite items => typeBytes .statementList ++ (sizeBytes items.length ++ layout items)
  | _, .str value | _, .docString value => typeBytes .string ++ stringBytes (cStr value)
  | _, .return value => typeBytes .return ++ own value
  | _, .dict items => typeBytes .dictionary ++ (sizeBytes items.length ++ layout items)
  | _, .compare left comparators =>
    typeBytes .compare ++ (own left ++ (sizeBytes comparators.length ++ layout comparators))
  | _, .number (.integer integer) => typeBytes .integer ++ wordBytes integer.toInt32.toUInt32
  | _, .ifStmt test body orelse =>
    if orelse.isNull then typeBytes .if ++ (own test ++ own body)
    else typeBytes .ifElse ++ (own test ++ (own body ++ own orelse))
  | _, .call function arguments _ _ _ =>
    typeBytes .call ++ (own function ++ (sizeBytes arguments.length ++ layout arguments))
  | _, .attribute value attr => typeBytes .attribute ++ (own value ++ own attr)
  | _, .unaryOp op operand => typeBytes .unaryOp ++ (wordBytes op.code ++ own operand)
  | _, .boolOp op values =>
    typeBytes .boolOp ++ (wordBytes op.code ++ (sizeBytes values.length ++ layout values))
  | _, .binOp op left right =>
    typeBytes .binaryOp ++ (wordBytes op.code ++ (own left ++ own right))
  | _, .list elements => typeBytes .list ++ (sizeBytes elements.length ++ layout elements)
  | _, .subscript slice value => typeBytes .subscript ++ (own slice ++ own value)
  | _, .index value => typeBytes .index ++ own value
  | _, .forLoop target iter body _ => typeBytes .forLoop ++ (own target ++ (own iter ++ own body))
  | _, .whileLoop test body _ => typeBytes .whileLoop ++ (own test ++ own body)
  | _, .augAssign op target value =>
    typeBytes .augmentedAssign ++ (wordBytes op.code ++ (own target ++ own value))
  | _, .expressionStatement expr => own expr
  | _, .continue => typeBytes .continue
  | _, .break => typeBytes .break
  | _, .tuple elements => typeBytes .tuple ++ (sizeBytes elements.length ++ layout elements)
  | _, .pass => typeBytes .pass
  | _, .listComp element generators =>
    typeBytes .listComp ++ (own element ++ (sizeBytes generators.length ++ layout generators))
  | _, .comprehension target iter ifs =>
    typeBytes .comprehension ++ (own target ++ (own iter ++ (sizeBytes ifs.length ++ layout ifs)))
  | _, .global names => typeBytes .global ++ (sizeBytes names.length ++ names.flatMap nameBytes)
  | _, .functionDef name arguments defaults _ _ _ _ body =>
    -- the length of the body's bytes is a field of the node
    typeBytes .functionDef ++ (own name ++ (sizeBytes (own body).length ++ (typeBytes .functionStart ++
      (sizeBytes arguments.length ++ (layout arguments ++ (typeBytes .functionStartDefaults ++
        (sizeBytes defaults.length ++ (layout defaults ++ (typeBytes .functionStartStub ++
          (own body ++ typeBytes .functionEnd))))))))))
  | _, .consExpr head tail => own head ++ layout tail
  | _, .consStmt head tail => own head ++ layout tail
  | _, .consItem key value tail => own key ++ (own value ++ layout tail)
  | _, .consComparison op comparator tail => wordBytes op.code ++ (own comparator ++ layout tail)
  | _, _ => []

/-- The children are there, and each compiles alone. -/
def ChildrenCompile {k : Kind} (a : Ast k) : Prop :=
  ∀ c ∈ children a, c.2.isNull = false ∧ alone c.2 ≠ none

/-- `parse_next` gets through the node and appends its fields and the bytes of its children. -/
def Composes {k : Kind} (a : Ast k) (b : Bitstream) : Prop :=
  ∃ b', parseNext maliciousInput a b = .ok () b' ∧ b'.bytecode = b.bytecode ++ layout a

/-- An `and` or `or` with operands. -/
def hasOperands : {k : Kind} → Ast k → Bool
  | _, .boolOp _ values => values.length != 0
  | _, _ => false

/-! ### The encodings of the children -/

/-- A null pointer is rejected or becomes a `Pass` node; everything else is encoded everywhere. -/
lemma accepted_of_strict {k : Kind} (a : Ast k) (nullOk : Bool) (h : accepted false a = true) :
    accepted nullOk a = true := by
  induction a with
  | nullExpr | nullSlice | nullStmt => cases h
  | consExpr head tail ihh iht | consStmt head tail ihh iht =>
    simp only [accepted, Bool.and_eq_true] at h ⊢
    exact ⟨ihh h.1, iht h.2⟩
  | consItem key value tail ihk ihv iht =>
    simp only [accepted, Bool.and_eq_true] at h ⊢
    exact ⟨ihk h.1, ihv h.2.1, iht h.2.2⟩
  | consComparison op comparator tail ihc iht =>
    simp only [accepted, Bool.and_eq_true] at h ⊢
    exact ⟨ihc h.1, iht h.2⟩
  | number num => cases num <;> exact h
  | _ => exact h

/-- What a child is encoded to is its encoding. -/
lemma own_eq_bytes {k : Kind} {a : Ast k} (h : alone a ≠ none) (hsize : (own a).length < 2 ^ 32) :
    accepted false a = true ∧ own a = bytes a := by
  refine (encodes_iff a (own a) hsize).mp ?_
  unfold own alone at *
  cases hrun : parseNext maliciousInput a (Bitstream.ofBytes []) with
  | ok u b => exact ⟨b, hrun, rfl⟩
  | error e b =>
    rw [hrun] at h
    exact absurd rfl h

/-- The elements of a vector. -/
lemma layout_vector {k : Kind} (a : Ast k) (hk : k = .exprs ∨ k = .stmts ∨ k = .items ∨ k = .comparisons)
    (h : ∀ c ∈ children a, alone c.2 ≠ none) (hsize : (layout a).length < 2 ^ 32) :
    (∀ nullOk, accepted nullOk a = true) ∧ layout a = bytes a := by
  induction a with
  | noExprs | noStmts | noItems | noComparisons => exact ⟨fun _ => rfl, rfl⟩
  | consExpr head tail _ ih | consStmt head tail _ ih =>
    simp only [children, List.forall_mem_cons] at h
    simp only [layout, List.length_append] at hsize
    obtain ⟨hhead, heqh⟩ := own_eq_bytes h.1 (by omega)
    obtain ⟨htail, heqt⟩ := ih hk h.2 (by omega)
    refine ⟨fun nullOk => ?_, by simp only [layout, bytes, heqh, heqt]⟩
    simp only [accepted, Bool.and_eq_true]
    exact ⟨accepted_of_strict head nullOk hhead, htail nullOk⟩
  | consItem key value tail _ _ ih =>
    simp only [children, List.forall_mem_cons] at h
    simp only [layout, List.length_append] at hsize
    obtain ⟨hkey, heqk⟩ := own_eq_bytes h.1 (by omega)
    obtain ⟨hvalue, heqv⟩ := own_eq_bytes h.2.1 (by omega)
    obtain ⟨htail, heqt⟩ := ih hk h.2.2 (by omega)
    refine ⟨fun nullOk => ?_, by simp only [layout, bytes, heqk, heqv, heqt]⟩
    simp only [accepted, Bool.and_eq_true]
    exact ⟨accepted_of_strict key nullOk hkey, accepted_of_strict value nullOk hvalue, htail nullOk⟩
  | consComparison op comparator tail _ ih =>
    simp only [children, List.forall_mem_cons] at h
    simp only [layout, List.length_append] at hsize
    obtain ⟨hcomparator, heqc⟩ := own_eq_bytes h.1 (by omega)
    obtain ⟨htail, heqt⟩ := ih hk h.2 (by omega)
    refine ⟨fun nullOk => ?_, by simp only [layout, bytes, heqc, heqt]⟩
    simp only [accepted, Bool.and_eq_true]
    exact ⟨accepted_of_strict comparator nullOk hcomparator, htail nullOk⟩
  | _ => simp at hk

/-- The two encodings of a node differ nowhere but at operands of `and` and `or`. -/
lemma layout_eq_bytes {k : Kind} (a : Ast k) (hcase : hasCase a = true) (hoperands : hasOperands a = false)
    (h : ∀ c ∈ children a, alone c.2 ≠ none) (hsize : (layout a).length < 2 ^ 32) :
    accepted false a = true ∧ layout a = bytes a := by
  cases a with
  | nullExpr | nullSlice | nullStmt => cases hcase
  | otherExpr | otherSlice | otherStmt => cases hcase
  | noExprs | noStmts | noItems | noComparisons => cases hcase
  | consExpr | consStmt | consItem | consComparison => cases hcase
  | name | str | docString | «alias» | «continue» | «break» | pass | global => exact ⟨rfl, rfl⟩
  | number num =>
    cases num with
    | integer i => exact ⟨rfl, rfl⟩
    | long s | floating f => cases hcase
  | boolOp op values =>
    have hnone : values.length = 0 := by simpa [hasOperands] using hoperands
    have hempty : layout values = [] := by
      cases values with
      | noExprs => rfl
      | consExpr head tail => cases hnone
    simp only [layout, bytes, accepted, hnone, hempty, List.append_nil]
    exact ⟨rfl, trivial⟩
  | importStmt x | «return» x | index x | expressionStatement x | unaryOp _ x =>
    simp only [children, List.forall_mem_cons] at h
    simp only [layout, List.length_append] at hsize
    obtain ⟨hx, heq⟩ := own_eq_bytes h.1 (by omega)
    simp only [accepted, layout, bytes, hx, heq]
    exact ⟨trivial, trivial⟩
  | importFrom x y | «attribute» x y | binOp _ x y | subscript x y | augAssign _ x y | whileLoop x y =>
    simp only [children, List.forall_mem_cons] at h
    simp only [layout, List.length_append] at hsize
    obtain ⟨hx, heqx⟩ := own_eq_bytes h.1 (by omega)
    obtain ⟨hy, heqy⟩ := own_eq_bytes h.2.1 (by omega)
    simp only [accepted, layout, bytes, hx, hy, heqx, heqy]
    exact ⟨rfl, trivial⟩
  | forLoop x y z =>
    simp only [children, List.forall_mem_cons] at h
    simp only [layout, List.length_append] at hsize
    obtain ⟨hx, heqx⟩ := own_eq_bytes h.1 (by omega)
    obtain ⟨hy, heqy⟩ := own_eq_bytes h.2.1 (by omega)
    obtain ⟨hz, heqz⟩ := own_eq_bytes h.2.2.1 (by omega)
    simp only [accepted, layout, bytes, hx, hy, hz, heqx, heqy, heqz]
    exact ⟨rfl, trivial⟩
  | ifStmt test body orelse =>
    cases hnull : orelse.isNull with
    | true =>
      simp only [children, hnull, if_true, List.forall_mem_cons] at h
      simp only [layout, hnull, if_true, List.length_append] at hsize
      obtain ⟨ht, heqt⟩ := own_eq_bytes h.1 (by omega)
      obtain ⟨hb, heqb⟩ := own_eq_bytes h.2.1 (by omega)
      simp only [accepted, layout, bytes, hnull, if_true, ht, hb, heqt, heqb]
      exact ⟨rfl, trivial⟩
    | false =>
      simp only [children, hnull, Bool.false_eq_true, if_false, List.forall_mem_cons] at h
      simp only [layout, hnull, Bool.false_eq_true, if_false, List.length_append] at hsize
      obtain ⟨ht, heqt⟩ := own_eq_bytes h.1 (by omega)
      obtain ⟨hb, heqb⟩ := own_eq_bytes h.2.1 (by omega)
      obtain ⟨ho, heqo⟩ := own_eq_bytes h.2.2.1 (by omega)
      simp only [accepted, layout, bytes, hnull, Bool.false_eq_true, if_false, ht, hb, ho, heqt, heqb, heqo]
      exact ⟨rfl, trivial⟩
  | tuple v | list v | dict v | suite v =>
    simp only [children] at h
    simp only [layout, List.length_append] at hsize
    obtain ⟨hv, heqv⟩ := layout_vector v (by simp) h (by omega)
    simp only [accepted, layout, bytes, hv, heqv]
    exact ⟨trivial, trivial⟩
  | assign v x | compare x v | call x v | listComp x v =>
    simp only [children, List.forall_mem_cons] at h
    simp only [layout, List.length_append] at hsize
    obtain ⟨hx, heqx⟩ := own_eq_bytes h.1 (by omega)
    obtain ⟨hv, heqv⟩ := layout_vector v (by simp) h.2 (by omega)
    simp only [accepted, layout, bytes, hx, hv, heqx, heqv]
    exact ⟨rfl, trivial⟩
  | comprehension x y v =>
    simp only [children, List.forall_mem_cons] at h
    simp only [layout, List.length_append] at hsize
    obtain ⟨hx, heqx⟩ := own_eq_bytes h.1 (by omega)
    obtain ⟨hy, heqy⟩ := own_eq_bytes h.2.1 (by omega)
    obtain ⟨hv, heqv⟩ := layout_vector v (by simp) h.2.2 (by omega)
    simp only [accepted, layout, bytes, hx, hy, hv, heqx, heqy, heqv]
    exact ⟨rfl, trivial⟩
  | functionDef name arguments defaults _ _ _ _ body =>
    simp only [children, List.forall_mem_cons, List.forall_mem_append] at h
    simp only [layout, List.length_append] at hsize
    obtain ⟨hn, heqn⟩ := own_eq_bytes h.1 (by omega)
    obtain ⟨hb, heqb⟩ := own_eq_bytes h.2.1 (by omega)
    obtain ⟨ha, heqa⟩ := layout_vector arguments (by simp) h.2.2.1 (by omega)
    obtain ⟨hd, heqd⟩ := layout_vector defaults (by simp) h.2.2.2 (by omega)
    simp only [accepted, layout, bytes, hn, hb, ha, hd, heqn, heqb, heqa, heqd, List.append_assoc]
    exact ⟨rfl, trivial⟩

/-- Wherever it is written, a node is encoded as its fields and the encodings of its children,
exactly when it is not an `and` or `or` with operands. -/
theorem encoding_compositional_iff {k : Kind} (a : Ast k) (b : Bitstream) (hb : AtEnd b)
    (hcase : hasCase a = true) (hchildren : ChildrenCompile a)
    (hsize : b.bytecode.length + (layout a).length < 2 ^ 32) :
    Composes a b ↔ hasOperands a = false := by
  have hemits := emits_parseNext a false b hb
  have hnull : onNull false = maliciousInput := rfl
  rw [hnull] at hemits
  constructor
  · rintro ⟨b', hrun, -⟩
    by_contra hoperands
    have hrejected : accepted false a = false := by
      cases a with
      | boolOp op values => simpa [hasOperands, accepted] using hoperands
      | _ => exact absurd rfl hoperands
    rw [hrejected] at hemits
    obtain ⟨e, b'', hthrown⟩ := hemits
    rw [hthrown] at hrun
    cases hrun
  · intro hoperands
    obtain ⟨haccepted, heq⟩ := layout_eq_bytes a hcase hoperands (fun c hc => (hchildren c hc).2) (by omega)
    rw [haccepted] at hemits
    obtain ⟨b', hrun, -, -, happend⟩ := hemits
    refine ⟨b', hrun, ?_⟩
    rw [heq] at hsize ⊢
    rw [happend hsize]
    rfl

/-- `True and x`. -/
def trueAndX : Ast .expr := .boolOp .and (.ofExprs [.name (lit "True"), .name (lit "x")])

/-- The operands compile, and the node does not. -/
theorem encoding_compositional_trueAndX_false :
    hasCase trueAndX = true ∧ ChildrenCompile trueAndX ∧ ¬Composes trueAndX (Bitstream.ofBytes []) := by
  have hchildren : ChildrenCompile trueAndX := by
    intro c hc
    simp only [trueAndX, children, Ast.ofExprs, List.mem_cons, List.not_mem_nil, or_false] at hc
    obtain rfl | rfl := hc <;> exact ⟨rfl, by decide⟩
  refine ⟨rfl, hchildren, ?_⟩
  rintro ⟨b', hrun, -⟩
  cases hrun

/-- The sum `1 + x`, behind three other bytes. -/
theorem encoding_compositional_sum :
    Composes (.binOp .add (.number (.integer 1)) (.name (lit "x"))) ⟨[1, 2, 3], 0, 3, false⟩ := by
  have hchildren : ChildrenCompile (.binOp .add (.number (.integer 1)) (.name (lit "x"))) := by
    intro c hc
    simp only [children, List.mem_cons, List.not_mem_nil, or_false] at hc
    obtain rfl | rfl := hc <;> exact ⟨rfl, by decide⟩
  exact (encoding_compositional_iff _ _ ⟨rfl, rfl⟩ rfl hchildren (by decide)).mpr rfl

end ContractPython.Proofs
