import ContractPython.Model.Interpreter
import ContractPython.Proofs.Encoding

/-!
# The meaning of a syntax tree

An interpreter of syntax trees. It makes the charges of `execute_next` and applies the same
operations to values and scopes, but it reads no bytecode and has no cursor: a branch that is not
taken is passed over, a loop evaluates its test and its body again. The body of a function is
bytecode here, too, and its call is the call of the interpreter.
-/

namespace ContractPython.Proofs

open Program M

/-- An interpreter of the nodes below. -/
abbrev TreeRec := {k : Kind} → Ast k → Rec

namespace Tree

/-! ### Nodes and vectors -/

/-- The type `parse_next` writes for the node. -/
def nodeType : {k : Kind} → Ast k → NodeType
  | _, .name _ => .name
  | _, .str _ | _, .docString _ => .string
  | _, .number _ => .integer
  | _, .alias _ _ => .alias
  | _, .tuple _ => .tuple
  | _, .list _ => .list
  | _, .dict _ => .dictionary
  | _, .compare _ _ => .compare
  | _, .call _ _ _ _ _ => .call
  | _, .attribute _ _ => .attribute
  | _, .unaryOp _ _ => .unaryOp
  | _, .boolOp _ _ => .boolOp
  | _, .binOp _ _ _ => .binaryOp
  | _, .subscript _ _ => .subscript
  | _, .listComp _ _ => .listComp
  | _, .comprehension _ _ _ => .comprehension
  | _, .index _ => .index
  | _, .suite _ => .statementList
  | _, .assign _ _ => .assign
  | _, .augAssign _ _ _ => .augmentedAssign
  | _, .return _ => .return
  | _, .ifStmt _ _ orelse => if orelse.isNull then .if else .ifElse
  | _, .forLoop _ _ _ _ => .forLoop
  | _, .whileLoop _ _ _ => .whileLoop
  | _, .expressionStatement expr => nodeType expr
  | _, .continue => .continue
  | _, .break => .break
  | _, .importStmt _ => .import
  | _, .importFrom _ _ _ => .importFrom
  | _, .global _ => .global
  | _, .functionDef _ _ _ _ _ _ _ _ => .functionDef
  | _, _ => .pass

def expressions : {k : Kind} → Ast k → List (Ast .expr)
  | _, .consExpr head tail => head :: expressions tail
  | _, _ => []

def statements : {k : Kind} → Ast k → List (Ast .stmt)
  | _, .consStmt head tail => head :: statements tail
  | _, _ => []

def items : {k : Kind} → Ast k → List (Ast .expr × Ast .expr)
  | _, .consItem key value tail => (key, value) :: items tail
  | _, _ => []

def comparisons : {k : Kind} → Ast k → List (CompareOpType × Ast .expr)
  | _, .consComparison op comparator tail => (op, comparator) :: comparisons tail
  | _, _ => []

/-! ### Names -/

def name : Ast .expr → M Str
  | .name id | .str id => pure (cStr id)
  | _ => throwRuntime (lit "Not a valid name")

/-- Exactly two names. -/
def pair : List (Ast .expr) → M (List Str)
  | [first, second] => do
    let first ← name first
    let second ← name second
    pure [first, second]
  | _ => throwRuntime (lit "Can only name pairs")

def names : Ast .expr → M (List Str)
  | .name id | .str id => pure [cStr id]
  | .tuple elements => pair (expressions elements)
  | a => throwRuntime (lit "Not a valid name [" ++ typeText (nodeType a) ++ lit "]")

/-! ### Passing over a node -/

/-- A node that is not executed: each element of a vector is charged for, and a node that
`skip_next` does not know ends the run. -/
def passOver : {k : Kind} → Ast k → M Unit
  | _, .importFrom _ _ _ | _, .importStmt _ | _, .alias _ _ | _, .listComp _ _
  | _, .comprehension _ _ _ | _, .global _ | _, .functionDef _ _ _ _ _ _ _ _ =>
    throwRuntime (lit "Failed to skip unknown node type!")
  | _, .assign targets value => do
    passOver value
    passOver targets
  | _, .suite items => passOver items
  | _, .return value => passOver value
  | _, .dict items => passOver items
  | _, .compare left comparators => do
    passOver left
    passOver comparators
  | _, .ifStmt test body orelse => do
    passOver test
    passOver body
    if orelse.isNull then pure () else passOver orelse
  | _, .call function arguments _ _ _ => do
    passOver function
    passOver arguments
  | _, .attribute value attr => do
    passOver value
    passOver attr
  | _, .unaryOp _ operand => passOver operand
  | _, .boolOp _ values => passOver values
  | _, .binOp _ left right => do
    passOver left
    passOver right
  | _, .list elements => passOver elements
  | _, .subscript slice value => do
    passOver slice
    passOver value
  | _, .index value => passOver value
  | _, .forLoop target iter body _ => do
    let _ ← names target
    passOver iter
    passOver body
  | _, .whileLoop test body _ => do
    passOver test
    passOver body
  | _, .augAssign _ target value => do
    passOver target
    passOver value
  | _, .expressionStatement expr => passOver expr
  | _, .tuple elements => passOver elements
  | _, .consExpr head tail => do
    charge
    passOver head
    passOver tail
  | _, .consStmt head tail => do
    charge
    passOver head
    passOver tail
  | _, .consItem key value tail => do
    charge
    passOver key
    passOver value
    passOver tail
  | _, .consComparison _ comparator tail => do
    charge
    passOver comparator
    passOver tail
  | _, _ => pure ()

/-! ### The node types -/

section Nodes

variable (rec : TreeRec) (scope : ScopeRef)

/-- What an import binds. -/
def bindAlias (module : Str) (p : ValuePtr) : M Unit := do
  let (name, asName) ← valueCast Value.alias? p
  loadFromModule scope module name asName

def importFrom (module names : Ast .expr) : M ValuePtr := do
  let module ← name module
  let (val, _) ← rec names scope .ignoreAll
  let r ← assertGeneric val
  match ← load r with
  | .tuple content => do
    content.forM (bindAlias scope module)
    pure none
  | _ => do
    bindAlias scope module val
    pure none

def importStmt (names : Ast .expr) : M ValuePtr := do
  let (val, _) ← rec names scope .ignoreAll
  let _ ← assertGeneric val
  let (name, asName) ← valueCast Value.alias? val
  loadModule scope name asName
  pure none

def tuple (elements : List (Ast .expr)) : M ValuePtr := do
  let tuple ← alloc (.tuple [])
  elements.foldlM (fun _ e => do
    charge
    let val ← evaluate (rec e) scope
    let _ ← assertGeneric val
    tupleAppend tuple val) ()
  pure (some tuple)

def list (elements : List (Ast .expr)) : M ValuePtr := do
  let list ← alloc (.list [])
  elements.foldlM (fun _ e => do
    charge
    let res ← evaluate (rec e) scope
    let _ ← assertGeneric res
    listAppend list res) ()
  pure (some list)

def dict (entries : List (Ast .expr × Ast .expr)) : M ValuePtr := do
  let res ← alloc (.dictionary .empty)
  entries.foldlM (fun _ entry => do
    charge
    let key ← name entry.1
    let value ← evaluate (rec entry.2) scope
    let _ ← assertGeneric value
    dictInsert res key value) ()
  pure (some res)

/-- The value a name stands for. -/
def nameValue (id : Str) : M ValuePtr :=
  if id = lit "False" then create (.bool false)
  else if id = lit "True" then create (.bool true)
  else getValue scope id

def attributeOf (value attr : Ast .expr) : M ValuePtr := do
  let value ← evaluate (rec value) scope
  let r ← assertGeneric value
  let id ← name attr
  getMember r id

def subscriptOf (val slice : ValuePtr) : M ValuePtr := do
  let slice ← assertGeneric slice
  let val ← assertGeneric val
  match ← load val, ← load slice with
  | .dictionary elements, .string key => pure (dictGet elements key)
  | .persistableDictionary st, .string key => storeGet st key
  | .list elements, .integer i => listGet elements i
  | .tuple content, .integer i => tupleGet content i.toUInt64.toUInt32
  | _, _ => throwRuntime (lit "Invalid subscript")

def subscript (slice : Ast .slice) (value : Ast .expr) : M ValuePtr := do
  let slice ← evaluate (rec slice) scope
  let val ← evaluate (rec value) scope
  subscriptOf val slice

def applyUnary (op : UnaryOpType) (res : ValuePtr) : M ValuePtr := do
  let r ← assertGeneric res
  match ← M.liftExcept (Value.unaryOp op (← load r)) with
  | some v => create v
  | none => pure res

def unaryOp (op : UnaryOpType) (operand : Ast .expr) : M ValuePtr := do
  let res ← evaluate (rec operand) scope
  applyUnary (.ofCode op.code) res

def binOp (op : BinaryOpType) (left right : Ast .expr) : M ValuePtr := do
  let left ← evaluate (rec left) scope
  let right ← evaluate (rec right) scope
  binaryOp (.ofCode op.code) left right

/-- An operand of `and` or `or` as a truth value. -/
def truthOf (p : ValuePtr) : M Bool := do
  match ← loadPtr p with
  | none => pure false
  | some (.bool b) => pure b
  | some _ => throwRuntime (lit "not a valid bool operation")

/-- The operands up to the first that is `short`; the rest is passed over. -/
def operands (short : Bool) (values : List (Ast .expr)) (first : Bool) : M Bool :=
  values.foldlM (fun res e => do
    charge
    if res == short then do
      passOver e
      pure res
    else truthOf (← evaluate (rec e) scope)) first

def boolOp (op : BoolOpType) (values : List (Ast .expr)) : M ValuePtr :=
  match BoolOpType.ofCode op.code with
  | .and => do
    let res ← operands rec scope false values true
    create (.bool res)
  | .or => do
    let res ← operands rec scope true values false
    create (.bool res)
  | _ => throwRuntime (lit "unknown bool op type")

def compare (left : Ast .expr) (rest : List (CompareOpType × Ast .expr)) : M ValuePtr := do
  let current ← evaluate (rec left) scope
  rest.foldlM (fun current comparison => do
    charge
    let rval ← evaluate (rec comparison.2) scope
    let res ← compareOp (.ofCode comparison.1.code) current rval
    create (.bool res)) current

/-- The call of an object, by an interpreter of bytecode. -/
def call (exec : Rec) (function : Ast .expr) (arguments : List (Ast .expr)) : M ValuePtr := do
  let callable ← assertGeneric (← evaluate (rec function) scope)
  throwIf (!(← load callable).isCallable) (lit "Cannot call un-callable!")
  let args ← arguments.foldlM (fun args e => do
    charge
    let arg ← evaluate (rec e) scope
    pure (args ++ [arg])) []
  M.call exec false callable args scope

/-- The rounds of a comprehension. -/
def listCompRounds (target : Str) (element : Ast .expr) (iter list : Ref) : Nat → LoopState → M Unit
  | 0, _ => throw .outOfFuel
  | n + 1, ls => do
    let terminated ← isTerminated scope
    if terminated || ls == .break then pure ()
    else do
      charge
      match ← tryNext iter with
      | none => pure ()
      | some next => do
        let ls' ← withScope scope fun bodyScope => do
          setValue bodyScope target next
          let (res, ls') ← rec element bodyScope ls
          listAppend list res
          pure ls'
        listCompRounds target element iter list n ls'

/-- A comprehension over a generator, whose conditions are not looked at. -/
def generate (n : Nat) (ls : LoopState) (element : Ast .expr) : Ast .expr → M (ValuePtr × LoopState)
  | .comprehension target iter _ => do
    let target ← name target
    let list ← alloc (.list [])
    let (obj, ls) ← rec iter scope ls
    let iter ← castIterator obj
    listCompRounds rec scope target element iter list n .topLevel
    pure (some list, ls)
  | _ => throwRuntime (lit "invalid type")

def listComp (n : Nat) (ls : LoopState) (element : Ast .expr) (generators : List (Ast .expr)) :
    M (ValuePtr × LoopState) := do
  passOver element
  match generators with
  | [generator] => generate rec scope n ls element generator
  | _ => throwRuntime (lit "Only simple list comprehensions are supported")

/-! ### Statements -/

/-- The binding of one or two names. -/
def bindTargets (val : Ref) (ids : List Str) : M Unit :=
  match ids with
  | [id] => setValue scope id (some val)
  | [first, second] => do
    match ← load val with
    | .tuple content => do
      setValue scope first (← tupleGet content 0)
      setValue scope second (← tupleGet content 1)
    | _ => throwRuntime (lit "cannot unpack value: not a tuple")
  | _ => throwRuntime (lit "invalid number of names")

/-- The assignment to an element. -/
def storeItem (index val : Ref) (id : Str) : M Unit := do
  let obj ← subscriptTarget id (← getValue scope id)
  match ← load obj with
  | .dictionary _ => do
    let key ← dictKey index
    dictInsert obj key (some val)
  | .persistableDictionary _ => do
    let key ← dictKey index
    storeInsert obj key val
  | .list _ => do
    let i ← listKey index
    listSet obj i (some val)
  | _ => throwRuntime (lit "Variable '" ++ id ++ lit "' is not an array or dictionary.")

def assignTarget (val : Ref) : Ast .expr → M Unit
  | .subscript slice value => do
    let index ← assertGeneric (← evaluate (rec slice) scope)
    let id ← name value
    storeItem scope index val id
  | target => do
    let ids ← names target
    bindTargets scope val ids

def assign (targets : List (Ast .expr)) (value : Ast .expr) : M ValuePtr := do
  let val ← assertGeneric (← evaluate (rec value) scope)
  targets.foldlM (fun _ target => do
    charge
    assignTarget rec scope val target) ()
  pure none

/-- The update of an element. -/
def applyItem (op : BinaryOpType) (index : Ref) (id : Str) (obj val : ValuePtr) : M ValuePtr := do
  let obj ← subscriptTarget id obj
  match ← load obj with
  | .dictionary _ => do
    let key ← dictKey index
    dictApply obj key val op
  | .persistableDictionary _ => do
    let key ← dictKey index
    storeApply obj key val op
  | .list _ => do
    let i ← listKey index
    listApply obj i val op
  | _ => throwRuntime (lit "Variable '" ++ id ++ lit "' is not an array or dictionary.")
  pure none

def augAssign (op : BinaryOpType) (target value : Ast .expr) : M ValuePtr :=
  match target with
  | .subscript slice subscripted => do
    let index ← assertGeneric (← evaluate (rec slice) scope)
    let id ← name subscripted
    let obj ← getValue scope id
    let val ← evaluate (rec value) scope
    applyItem (.ofCode op.code) index id obj val
  | target => do
    let id ← name target
    let current ← getValue scope id
    let value ← evaluate (rec value) scope
    augmentName (.ofCode op.code) current value
    pure none

def global (ids : List Str) : M ValuePtr := do
  ids.foldlM (fun _ id => do
    charge
    setGlobalTag scope (cStr id)) ()
  pure none

def returnStmt (value : Ast .expr) : M ValuePtr := do
  let res ← evaluate (rec value) scope
  terminate scope
  pure res

/-- The statements of a list. When one of them breaks off, as many are passed over as are left,
but beginning with it: the cursor goes back to where it started. -/
def suite : List (Ast .stmt) → ValuePtr × LoopState → M (ValuePtr × LoopState)
  | [], acc => pure acc
  | stmt :: rest, acc => do
    charge
    let terminated ← isTerminated scope
    if terminated || acc.2 == .break || acc.2 == .continue then do
      passOver stmt
      suite rest acc
    else do
      let (final, child) ← rec stmt scope (if acc.2 == .topLevel then .normal else acc.2)
      if child == .break || child == .continue then do
        (stmt :: rest).dropLast.foldlM (fun _ left => do
          charge
          passOver left) ()
        pure (final, child)
      else suite rest (final, acc.2)

def ifStmt (ls : LoopState) (test : Ast .expr) (body : Ast .stmt) : M (ValuePtr × LoopState) := do
  let (test, ls) ← rec test scope ls
  if ← boolTest test then rec body scope ls
  else do
    passOver body
    pure (none, ls)

/-- A body that breaks off is itself passed over in the place of `orelse`. -/
def ifElse (ls : LoopState) (test : Ast .expr) (body orelse : Ast .stmt) : M (ValuePtr × LoopState) := do
  let (test, ls) ← rec test scope ls
  match ← loadPtr test with
  | some (.bool true) => do
    let res ← rec body scope ls
    if res.2 == .none || res.2 == .normal then passOver orelse else passOver body
    pure res
  | some (.bool false) => do
    passOver body
    rec orelse scope ls
  | none => do
    passOver body
    rec orelse scope ls
  | some _ => throwRuntime (lit "not a boolean!")

/-- The rounds of a `while` loop. -/
def whileRounds (test : Ast .expr) (body : Ast .stmt) : Nat → LoopState → ValuePtr → M ValuePtr
  | 0, _, _ => throw .outOfFuel
  | n + 1, ls, ret => do
    let terminated ← isTerminated scope
    if terminated || ls == .break then pure ret
    else do
      charge
      let holds ← evaluate (rec test) scope
      if ← boolTest holds then do
        let (ret', ls') ← withScope scope fun bodyScope => do
          let res ← rec body bodyScope ls
          propagateReturn scope bodyScope ret res
        whileRounds test body n ls' ret'
      else pure ret

def whileLoop (n : Nat) (test : Ast .expr) (body : Ast .stmt) : M ValuePtr := do
  let res ← whileRounds rec scope test body n .topLevel none
  passOver body
  pure res

def forLoop (n : Nat) (target iter : Ast .expr) (body : Ast .stmt) : M ValuePtr := do
  let ids ← names target
  let obj ← evaluate (rec iter) scope
  let iter ← loopIterator obj
  let res ← forRounds (rec body) scope ids iter n .topLevel none
  passOver body
  pure res

/-- One default of a function, evaluated in the global scope of the interpreter. -/
def parameterDefault (acc : List ValuePtr × Bool) (e : Ast .expr) : M (List ValuePtr × Bool) := do
  charge
  let arg ← evaluate (rec e) (← globalScope)
  let nonStandard := acc.2 || arg.isSome
  throwIf (arg.isNone && nonStandard) (lit "Non-default argument follows default argument")
  pure (acc.1 ++ [arg], nonStandard)

/-- The object a definition makes; it holds the encoding of the body. -/
def functionStub (arguments defaults : List (Ast .expr)) (body : Ast .stmt) : M ValuePtr := do
  let args ← arguments.foldlM (fun args e => do
    charge
    let arg ← name e
    pure (args ++ [arg])) []
  throwIf (defaults.length != arguments.length)
    (lit "Stop hacking the bytecode, you pathetic little worm!")
  let (values, _) ← defaults.foldlM (parameterDefault rec) ([], false)
  create (.vmFunction (bytes body) args values)

def functionDef (id : Ast .expr) (arguments defaults : List (Ast .expr)) (body : Ast .stmt) :
    M ValuePtr := do
  let id ← name id
  throwIf id.isEmpty (lit "Function name of length zero")
  let function ← functionStub rec arguments defaults body
  setValue scope id function
  pure none

/-- The switch of `execute_next`, on a tree. -/
def node (exec : Rec) (n : Nat) (ls : LoopState) : {k : Kind} → Ast k → M (ValuePtr × LoopState)
  | _, .nullExpr | _, .nullSlice | _, .nullStmt | _, .pass => pure (none, ls)
  | _, .importFrom module names _ => keep ls (importFrom rec scope module names)
  | _, .importStmt names => keep ls (importStmt rec scope names)
  | _, .alias name asName => keep ls (create (.alias (cStr name) (cStr (asName.getD []))))
  | _, .name id => keep ls (nameValue scope (cStr id))
  | _, .str value | _, .docString value => keep ls (create (.string (cStr value)))
  | _, .number (.integer integer) => keep ls (createInteger integer.toInt32)
  | _, .tuple elements => keep ls (tuple rec scope (expressions elements))
  | _, .list elements => keep ls (list rec scope (expressions elements))
  | _, .dict entries => keep ls (dict rec scope (items entries))
  | _, .compare left comparators => keep ls (compare rec scope left (comparisons comparators))
  | _, .call function arguments _ _ _ => keep ls (call rec scope exec function (expressions arguments))
  | _, .attribute value attr => keep ls (attributeOf rec scope value attr)
  | _, .unaryOp op operand => keep ls (unaryOp rec scope op operand)
  | _, .boolOp op values => keep ls (boolOp rec scope op (expressions values))
  | _, .binOp op left right => keep ls (binOp rec scope op left right)
  | _, .subscript slice value => keep ls (subscript rec scope slice value)
  | _, .index value => keep ls (evaluate (rec value) scope)
  | _, .listComp element generators => listComp rec scope n ls element (expressions generators)
  | _, .suite stmts => suite rec scope (statements stmts) (none, ls)
  | _, .assign targets value => keep ls (assign rec scope (expressions targets) value)
  | _, .augAssign op target value => keep ls (augAssign rec scope op target value)
  | _, .return value => keep ls (returnStmt rec scope value)
  | _, .ifStmt test body orelse =>
    if orelse.isNull then ifStmt rec scope ls test body else ifElse rec scope ls test body orelse
  | _, .forLoop target iter body _ => keep ls (forLoop rec scope n target iter body)
  | _, .whileLoop test body _ => keep ls (whileLoop rec scope n test body)
  | _, .expressionStatement expr => node exec n ls expr
  | _, .continue => leaveLoop .continue ls
  | _, .break => leaveLoop .break ls
  | _, .global ids => keep ls (global scope ids)
  | _, .functionDef id arguments defaults _ _ _ _ body =>
    keep ls (functionDef rec scope id (expressions arguments) (expressions defaults) body)
  | _, _ => throwRuntime (lit "Unknown node type!")

end Nodes

/-- The execution of a tree. -/
def execute : Nat → TreeRec
  | 0, _, _ => fun _ _ => throw .outOfFuel
  | n + 1, _, a => fun scope ls => do
    charge
    checkTopLevel scope ls (nodeType a)
    record (.nodeEntered (nodeType a) ls (Scope.depth scope))
    node (execute n) scope (executeNext n) n ls a

end Tree

end ContractPython.Proofs
