import ContractPython.Trees.Simulation

/-!
# The nodes that leave the loop state alone

Their children are evaluated one after another, and what is done with the values reads no bytecode.
-/

namespace ContractPython.Proofs

open Program M Bytes

namespace Mirrors

variable {n : Nat} (hn : MeansAll n) {scope : ScopeRef} {nullOk : Bool}

/-! ### Vectors -/

section Vectors

variable {α β : Type}

/-- A vector of expressions behind its size. -/
lemma expressions {z : M β} {f : UInt32 → M β} (a : Ast .exprs) (hfit : Fit nullOk .exprs a)
    (h : (UInt32.ofNat (Tree.expressions a).length).toNat = (Tree.expressions a).length →
      (∀ e ∈ Tree.expressions a, Fit nullOk .expr e) →
      Mirrors ((Tree.expressions a).flatMap bytes) (f (UInt32.ofNat (Tree.expressions a).length)) z) :
    Mirrors (sizeBytes a.length ++ bytes a) (readWord >>= f) z := by
  have hall : ∀ e ∈ Tree.expressions a, Fit nullOk .expr e :=
    Tree.forall_expressions (fun head tail h => h.both rfl rfl) hfit
  obtain ⟨hlength, hbytes⟩ := Tree.bytes_expressions a
  rw [← hlength, hbytes]
  exact elements _ (fun e he => bytes_ne_nil e (hall e he).1 (.inl rfl)) fun hsize => h hsize hall

/-- A loop that charges for each expression of a vector. -/
lemma chargedExpressions {body : M Unit} {body' : Ast .expr → M Unit} (a : Ast .exprs) (hfit : Fit nullOk .exprs a)
    (h : ∀ e, Fit nullOk .expr e → Mirrors (bytes e) body (body' e)) :
    Mirrors (sizeBytes a.length ++ bytes a) (M.chargedLoop body)
      ((Tree.expressions a).foldlM (fun _ e => do M.charge; body' e) ()) := by
  refine expressions a hfit fun hsize hall => ?_
  rw [hsize]
  exact iterate _ (fun e he _ => after .charge fun _ => h e (hall e he)) ()

end Vectors

/-! ### Displays -/

include hn in
lemma tuple (elements : Ast .exprs) (hfit : Fit nullOk .exprs elements) :
    Mirrors (sizeBytes elements.length ++ bytes elements) (execTuple (executeNext n) scope)
      (Tree.tuple (Tree.execute n) scope (Tree.expressions elements)) := by
  refine expressions elements hfit fun hsize hall => ?_
  rw [hsize]
  refine after (values_blind.alloc _) fun tuple => ?_
  refine (iterate _ (fun e he _ => ?_) ()).before fun _ => blind_compositional.pure _
  exact after .charge fun _ => (hn.expression e (hall e he)).before fun val =>
    blind_compositional.bind (values_blind.objects.assertGeneric val) fun _ => values_blind.objects.tupleAppend tuple val

include hn in
lemma list (elements : Ast .exprs) (hfit : Fit nullOk .exprs elements) :
    Mirrors (sizeBytes elements.length ++ bytes elements) (execList (executeNext n) scope)
      (Tree.list (Tree.execute n) scope (Tree.expressions elements)) := by
  refine after (values_blind.alloc _) fun list => ?_
  refine (chargedExpressions elements hfit fun e he => ?_).before fun _ => blind_compositional.pure _
  exact (hn.expression e he).before fun res =>
    blind_compositional.bind (values_blind.objects.assertGeneric res) fun _ => values_blind.objects.listAppend list res

include hn in
lemma dict (entries : Ast .items) (hfit : Fit nullOk .items entries) :
    Mirrors (sizeBytes entries.length ++ bytes entries) (execDictionary (executeNext n) scope)
      (Tree.dict (Tree.execute n) scope (Tree.items entries)) := by
  have hall : ∀ entry ∈ Tree.items entries, accepted nullOk entry.1 = true ∧ Fit nullOk .expr entry.2 := by
    refine Tree.forall_items (p := fun key => accepted nullOk key = true) (q := Fit nullOk) (fun key value tail h => ?_) hfit
    have haccepted : (accepted nullOk key && (accepted nullOk value && accepted nullOk tail)) = true := h.1
    have hplain : (Tree.plain value && Tree.plain tail) = true := h.2
    rw [Bool.and_eq_true, Bool.and_eq_true] at haccepted
    rw [Bool.and_eq_true] at hplain
    exact ⟨haccepted.1, ⟨haccepted.2.1, hplain.1⟩, haccepted.2.2, hplain.2⟩
  obtain ⟨hlength, hbytes⟩ := Tree.bytes_items entries
  rw [← hlength, hbytes]
  refine after (values_blind.alloc _) fun res => ?_
  refine (chargedLoop _ (fun entry hentry => ?_) fun entry hentry => ?_).before fun _ => blind_compositional.pure _
  · exact List.append_ne_nil_of_left_ne_nil (bytes_ne_nil entry.1 (hall entry hentry).1 (.inl rfl)) _
  · refine (readName entry.1 (hall entry hentry).1).seq fun key => ?_
    exact (hn.expression entry.2 (hall entry hentry).2).before fun value =>
      blind_compositional.bind (values_blind.objects.assertGeneric value) fun _ =>
        values_blind.objects.dictInsert res key value

/-! ### Operators -/

include hn in
lemma attributeOf (value attr : Ast .expr) (hfit : Fit nullOk .expr value) (hattr : accepted nullOk attr = true) :
    Mirrors (bytes value ++ bytes attr) (execAttribute (executeNext n) scope)
      (Tree.attributeOf (Tree.execute n) scope value attr) := by
  refine (hn.expression value hfit).seq fun value => ?_
  refine after (values_blind.objects.assertGeneric value) fun r => ?_
  exact (readName attr hattr).before fun id => values_blind.objects.getMember r id

lemma blind_subscriptOf (val slice : ValuePtr) : Blind _ (Tree.subscriptOf val slice) := by
  refine blind_compositional.bind (values_blind.objects.assertGeneric slice) fun slice => ?_
  refine blind_compositional.bind (values_blind.objects.assertGeneric val) fun val => ?_
  refine blind_compositional.bind (.load val) fun v => blind_compositional.bind (.load slice) fun w => ?_
  split
  · exact blind_compositional.pure _
  · exact values_blind.objects.storeGet _ _
  · exact values_blind.objects.listGet _ _
  · exact values_blind.objects.tupleGet _ _
  · exact blind_compositional.throw _

include hn in
lemma subscript (slice : Ast .slice) (value : Ast .expr) (hslice : Fit nullOk .slice slice)
    (hvalue : Fit nullOk .expr value) :
    Mirrors (bytes slice ++ bytes value) (execSubscript (executeNext n) scope)
      (Tree.subscript (Tree.execute n) scope slice value) :=
  (hn.evaluate slice (.inr rfl) hslice).seq fun slice => (hn.expression value hvalue).before fun val =>
    blind_subscriptOf val slice

lemma blind_applyUnary (op : UnaryOpType) (res : ValuePtr) : Blind _ (Tree.applyUnary op res) := by
  refine blind_compositional.bind (values_blind.objects.assertGeneric res) fun r => ?_
  refine blind_compositional.bind (.load r) fun v => ?_
  refine blind_compositional.bind (values_blind.objects.liftExcept fun e => unaryOp_ordinary) fun result => ?_
  split
  · exact values_blind.create _
  · exact blind_compositional.pure _

include hn in
lemma unaryOp (op : UnaryOpType) (operand : Ast .expr) (hfit : Fit nullOk .expr operand) :
    Mirrors (wordBytes op.code ++ bytes operand) (execUnaryOp (executeNext n) scope)
      (Tree.unaryOp (Tree.execute n) scope op operand) :=
  word ((hn.expression operand hfit).before fun res => blind_applyUnary (.ofCode op.code) res)

include hn in
lemma binOp (op : BinaryOpType) (left right : Ast .expr) (hleft : Fit nullOk .expr left)
    (hright : Fit nullOk .expr right) :
    Mirrors (wordBytes op.code ++ (bytes left ++ bytes right)) (execBinaryOp (executeNext n) scope)
      (Tree.binOp (Tree.execute n) scope op left right) :=
  word ((hn.expression left hleft).seq fun left => (hn.expression right hright).before fun right =>
    values_blind.objects.binaryOp (.ofCode op.code) left right)

/-- An operator of truth values has no operands in the bytecode. -/
lemma boolOp (op : BoolOpType) :
    Mirrors (wordBytes op.code ++ sizeBytes 0) (execBoolOp (executeNext n) scope)
      (Tree.boolOp (Tree.execute n) scope op []) := by
  refine word (wordLast ?_)
  unfold Tree.boolOp
  generalize BoolOpType.ofCode op.code = op'
  cases op' with
  | and | or => exact blind (values_blind.create _)
  | _ => exact throw _ _

include hn in
lemma compare (left : Ast .expr) (comparators : Ast .comparisons) (hleft : Fit nullOk .expr left)
    {nullOk' : Bool} (hfit : Fit nullOk' .comparisons comparators) :
    Mirrors (bytes left ++ (sizeBytes comparators.length ++ bytes comparators)) (execCompare (executeNext n) scope)
      (Tree.compare (Tree.execute n) scope left (Tree.comparisons comparators)) := by
  have hall : ∀ c ∈ Tree.comparisons comparators, Fit nullOk' .expr c.2 := by
    exact Tree.forall_comparisons (fun op comparator tail h => h.both rfl rfl) hfit
  obtain ⟨hlength, hbytes⟩ := Tree.bytes_comparisons comparators
  rw [← hlength, hbytes]
  refine (hn.expression left hleft).seq fun current => elements _ (fun c _ => ?_) fun hsize => ?_
  · exact List.append_ne_nil_of_left_ne_nil (wordBytes_ne_nil _) _
  rw [hsize]
  refine iterate _ (fun c hc current => after .charge fun _ => word ?_) current
  refine (hn.expression c.2 (hall c hc)).before fun rval => ?_
  exact blind_compositional.bind (values_blind.objects.compareOp _ current rval) fun res => values_blind.create _

/-! ### Calls -/

include hn in
lemma call (function : Ast .expr) (arguments : Ast .exprs) (hfunction : Fit nullOk .expr function)
    {nullOk' : Bool} (hfit : Fit nullOk' .exprs arguments) :
    Mirrors (bytes function ++ (sizeBytes arguments.length ++ bytes arguments)) (execCall (executeNext n) scope)
      (Tree.call (Tree.execute n) scope (executeNext n) function (Tree.expressions arguments)) := by
  refine (hn.expression function hfunction).seq fun callable => ?_
  refine after (values_blind.objects.assertGeneric callable) fun callable => ?_
  refine after (.load callable) fun v => after (values_blind.objects.throwIf _ _) fun _ => ?_
  refine expressions arguments hfit fun hsize hall => ?_
  rw [hsize]
  refine (iterate _ (fun e he args => ?_) []).before fun args => .call _ _ _ _ _
  exact after .charge fun _ => (hn.expression e (hall e he)).before fun arg => blind_compositional.pure _

/-! ### Assignments -/

/-- What is not a subscript is read as names, or as one name. -/
lemma unsubscripted {β : Type} {x y z : M β} {text rest : List UInt8} (target : Ast .expr)
    (hacc : accepted nullOk target = true) (htext : text = bytes target ++ rest) (h : Mirrors text y z)
    (htarget : Tree.nodeType target ≠ .subscript := by exact NodeType.noConfusion) :
    Mirrors text (do
      let lookAhead ← peekType
      if lookAhead = .subscript then x else y) z := by
  obtain ⟨tail, hbytes⟩ := bytes_eq_type target hacc
  rw [htext, hbytes, List.append_assoc] at h ⊢
  exact peek (by rwa [if_neg htarget]) (Tree.nodeType_known target)

lemma blind_bindTargets (val : Ref) (ids : List Str) : Blind _ (Tree.bindTargets scope val ids) := by
  unfold Tree.bindTargets
  split
  · exact .setValue _ _ _
  · refine blind_compositional.bind (.load val) fun v => ?_
    split
    · refine blind_compositional.bind (values_blind.objects.tupleGet _ _) fun _ => ?_
      refine blind_compositional.bind (.setValue _ _ _) fun _ => ?_
      exact blind_compositional.bind (values_blind.objects.tupleGet _ _) fun _ => .setValue _ _ _
    · exact blind_compositional.throw _
  · exact blind_compositional.throw _

lemma blind_storeItem (index val : Ref) (id : Str) : Blind _ (Tree.storeItem scope index val id) := by
  refine blind_compositional.bind (.getValue _ _) fun obj => ?_
  refine blind_compositional.bind (values_blind.objects.subscriptTarget _ _) fun obj => ?_
  refine blind_compositional.bind (.load obj) fun v => ?_
  split
  · exact blind_compositional.bind (values_blind.objects.dictKey _) fun _ => values_blind.objects.dictInsert _ _ _
  · exact blind_compositional.bind (values_blind.objects.dictKey _) fun _ => values_blind.storeInsert _ _ _
  · exact blind_compositional.bind (values_blind.objects.listKey _) fun _ => values_blind.objects.listSet _ _ _
  · exact blind_compositional.throw _

lemma blind_applyItem (op : BinaryOpType) (index : Ref) (id : Str) (obj val : ValuePtr) :
    Blind _ (Tree.applyItem op index id obj val) := by
  refine blind_compositional.bind (values_blind.objects.subscriptTarget _ _) fun obj => ?_
  refine blind_compositional.bind (.load obj) fun v => ?_
  split
  · exact blind_compositional.bind (values_blind.objects.dictKey _) fun _ =>
      blind_compositional.bind (values_blind.dictApply _ _ _ _) fun _ => blind_compositional.pure _
  · exact blind_compositional.bind (values_blind.objects.dictKey _) fun _ =>
      blind_compositional.bind (values_blind.storeApply _ _ _ _) fun _ => blind_compositional.pure _
  · exact blind_compositional.bind (values_blind.objects.listKey _) fun _ =>
      blind_compositional.bind (values_blind.listApply _ _ _ _) fun _ => blind_compositional.pure _
  · exact blind_compositional.bind (blind_compositional.throw _) fun _ => blind_compositional.pure _

include hn in
lemma assignTarget (val : Ref) (target : Ast .expr) (hfit : Fit nullOk .expr target) :
    Mirrors (bytes target) (assignTarget (executeNext n) scope val)
      (Tree.assignTarget (Tree.execute n) scope val target) := by
  cases target with
  | subscript slice value =>
    obtain ⟨hslice, hvalue⟩ := hfit.both rfl rfl
    refine peek (type ?_)
    refine (hn.evaluate slice (.inr rfl) hslice).seq fun index => ?_
    refine after (values_blind.objects.assertGeneric index) fun index => ?_
    exact (readName value hvalue.1).before fun id => blind_storeItem index val id
  | _ =>
    refine unsubscripted _ hfit.1 (List.append_nil _).symm ?_
    exact (readNames _ hfit.1).before fun ids => blind_bindTargets val ids

include hn in
lemma assign (targets : Ast .exprs) (value : Ast .expr) (hfit : Fit nullOk .exprs targets) {nullOk' : Bool}
    (hvalue : Fit nullOk' .expr value) :
    Mirrors (bytes value ++ (sizeBytes targets.length ++ bytes targets)) (execAssign (executeNext n) scope)
      (Tree.assign (Tree.execute n) scope (Tree.expressions targets) value) := by
  refine (hn.expression value hvalue).seq fun val => ?_
  refine after (values_blind.objects.assertGeneric val) fun val => ?_
  exact (chargedExpressions targets hfit fun target htarget => assignTarget hn val target htarget).before fun _ =>
    blind_compositional.pure _

include hn in
lemma augAssign (op : BinaryOpType) (target value : Ast .expr) (hfit : Fit nullOk .expr target)
    {nullOk' : Bool} (hvalue : Fit nullOk' .expr value) :
    Mirrors (wordBytes op.code ++ (bytes target ++ bytes value)) (execAugmentedAssign (executeNext n) scope)
      (Tree.augAssign (Tree.execute n) scope op target value) := by
  refine word ?_
  cases target with
  | subscript slice subscripted =>
    obtain ⟨hslice, hsubscripted⟩ := hfit.both rfl rfl
    have hbytes : bytes (.subscript slice subscripted) = typeBytes .subscript ++ (bytes slice ++ bytes subscripted) := rfl
    rw [hbytes, List.append_assoc, List.append_assoc]
    refine peek (type ?_)
    refine (hn.evaluate slice (.inr rfl) hslice).seq fun index => ?_
    refine after (values_blind.objects.assertGeneric index) fun index => ?_
    refine (readName subscripted hsubscripted.1).seq fun id => after (.getValue scope id) fun obj => ?_
    exact (hn.expression value hvalue).before fun val => blind_applyItem _ index id obj val
  | _ =>
    refine unsubscripted _ hfit.1 rfl ?_
    refine (readName _ hfit.1).seq fun id => after (.getValue scope id) fun current => ?_
    exact (hn.expression value hvalue).before fun value =>
      blind_compositional.bind (values_blind.augmentName _ current value) fun _ => blind_compositional.pure none

/-! ### Statements -/

lemma global (ids : List Str) :
    Mirrors (sizeBytes ids.length ++ ids.flatMap nameBytes) (execGlobal scope) (Tree.global scope ids) := by
  refine (chargedLoop ids (fun id _ => ?_) fun id _ => ?_).before fun _ => blind_compositional.pure none
  · exact List.append_ne_nil_of_left_ne_nil (wordBytes_ne_nil _) _
  · have hacc : accepted false (.name id) = true := rfl
    exact (readName (.name id) hacc).before fun _ => .modifyScope scope _

include hn in
lemma returnStmt (value : Ast .expr) (hfit : Fit nullOk .expr value) :
    Mirrors (bytes value) (execReturn (executeNext n) scope) (Tree.returnStmt (Tree.execute n) scope value) :=
  (hn.expression value hfit).before fun res =>
    blind_compositional.bind (.modifyScope scope _) fun _ => blind_compositional.pure res

include hn in
/-- A default is evaluated in the global scope of the interpreter. -/
lemma parameterDefault (e : Ast .expr) (hfit : Fit nullOk .expr e) (acc : List ValuePtr × Bool) :
    Mirrors (bytes e) (defaultStep (executeNext n) acc) (Tree.parameterDefault (Tree.execute n) acc e) := by
  have hglobal : Blind _ globalScope := fun _ _ => rfl
  refine after .charge fun _ => after hglobal fun globals => ?_
  refine (hn.expression e hfit).before fun arg => ?_
  exact blind_compositional.bind (values_blind.objects.throwIf _ _) fun _ => blind_compositional.pure _

/-- The parameters of a function. -/
lemma parameterNames (arguments : List (Ast .expr)) (hacc : ∀ e ∈ arguments, accepted nullOk e = true) :
    Mirrors (arguments.flatMap bytes) (iterateM arguments.length parameterStep []) (arguments.foldlM (fun args e => do
      M.charge
      let arg ← Tree.name e
      Pure.pure (args ++ [arg])) []) :=
  iterate arguments (fun e he args => after .charge fun _ =>
    (readName e (hacc e he)).before fun arg => blind_compositional.pure (args ++ [arg])) []

include hn in
/-- The size of the body is read first, and the body itself last. -/
lemma functionStub (arguments defaults : Ast .exprs) (body : Ast .stmt) (harguments : accepted nullOk arguments = true)
    (hdefaults : Fit nullOk .exprs defaults) :
    Mirrors (sizeBytes (bytes body).length ++ (typeBytes .functionStart ++ (sizeBytes arguments.length ++
        (bytes arguments ++ (typeBytes .functionStartDefaults ++ (sizeBytes defaults.length ++ (bytes defaults ++
        (typeBytes .functionStartStub ++ (bytes body ++ typeBytes .functionEnd)))))))))
      (readFunctionStub (executeNext n))
      (Tree.functionStub (Tree.execute n) (Tree.expressions arguments) (Tree.expressions defaults) body) := by
  have hnames : ∀ e ∈ Tree.expressions arguments, accepted nullOk e = true :=
    Tree.forall_expressions (p := fun _ a => accepted nullOk a = true)
      (fun head tail h => Bool.and_eq_true_iff.mp h) harguments
  have hvalues : ∀ e ∈ Tree.expressions defaults, Fit nullOk .expr e :=
    Tree.forall_expressions (fun head tail h => h.both rfl rfl)
      hdefaults
  obtain ⟨hcount, hbytes⟩ := Tree.bytes_expressions arguments
  obtain ⟨hcount', hbytes'⟩ := Tree.bytes_expressions defaults
  have hle := length_le_bytes arguments harguments
  have hle' := length_le_bytes defaults hdefaults.1
  refine word (expectType (size (by rw [List.length_append]; omega) fun hsize => ?_))
  rw [hsize, ← hcount, hbytes]
  refine (parameterNames _ hnames).seq fun args => expectType ?_
  refine size (by rw [List.length_append]; omega) fun hsize' => ?_
  have hsame : (UInt32.ofNat defaults.length != UInt32.ofNat (Tree.expressions arguments).length) =
      ((Tree.expressions defaults).length != (Tree.expressions arguments).length) := by
    rw [Bool.eq_iff_iff, bne_iff_ne, bne_iff_ne, ne_eq, ne_eq, ← UInt32.toNat_inj, hsize', hcount, hsize, hcount']
  rw [hsame, hsize', ← hcount', hbytes']
  refine after (values_blind.objects.throwIf _ _) fun _ => ?_
  refine (iterate _ (fun e he acc => parameterDefault hn e (hvalues e he) acc) ([], false)).seq fun values => ?_
  exact expectType (padded (expectLast (blind (values_blind.create _))))

include hn in
lemma functionDef (id : Ast .expr) (arguments defaults : Ast .exprs) (body : Ast .stmt) {nullOk' : Bool}
    (hid : accepted nullOk' id = true) (harguments : accepted nullOk arguments = true)
    (hdefaults : Fit nullOk .exprs defaults) :
    Mirrors (bytes id ++ ((sizeBytes (bytes body).length ++ (typeBytes .functionStart ++
        (sizeBytes arguments.length ++ (bytes arguments ++ (typeBytes .functionStartDefaults ++
          (sizeBytes defaults.length ++ (bytes defaults ++ typeBytes .functionStartStub))))) ++
        bytes body)) ++ typeBytes .functionEnd)) (execFunctionDef (executeNext n) scope)
      (Tree.functionDef (Tree.execute n) scope id (Tree.expressions arguments) (Tree.expressions defaults) body) := by
  have hstub := functionStub hn arguments defaults body harguments hdefaults
  simp only [List.append_assoc]
  refine (readName id hid).seq fun id => after (values_blind.objects.throwIf _ _) fun _ => ?_
  exact hstub.before fun function =>
    blind_compositional.bind (.setValue scope id function) fun _ => blind_compositional.pure none

end Mirrors

end ContractPython.Proofs
