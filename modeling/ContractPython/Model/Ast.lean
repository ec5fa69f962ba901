import ContractPython.Model.Types

/-!
# The syntax tree

The `pypa` nodes the compiler visits. Its pointers, slices and vectors are kinds of one
family, so that a property of all trees is proved by one induction. A null pointer is a
constructor, and the node types without a case in the compiler share one constructor for
each kind. `AstArguments` is kept as the fields of its owner.
-/

namespace ContractPython

/-- What a tree stands for: an `AstExpr`, `AstStmt` or `AstSliceTypePtr`, or one of the vectors. -/
inductive Kind
  | expr | stmt | slice | exprs | stmts | items | comparisons
  deriving DecidableEq, Repr

/-- The union in `AstNumber`. -/
inductive Number
  | integer (integer : Int64)
  | long (str : Str)
  | floating (bits : UInt64)
  deriving DecidableEq

inductive Ast : Kind → Type
  | nullExpr : Ast .expr
  | name (id : Str) : Ast .expr
  | str (value : Str) : Ast .expr
  | number (num : Number) : Ast .expr
  | alias (name : Str) (asName : Option Str) : Ast .expr
  | tuple (elements : Ast .exprs) : Ast .expr
  | list (elements : Ast .exprs) : Ast .expr
  | dict (items : Ast .items) : Ast .expr
  | compare (left : Ast .expr) (comparators : Ast .comparisons) : Ast .expr
  | call (function : Ast .expr) (arguments keywords : Ast .exprs) (args kwargs : Ast .expr) : Ast .expr
  | attribute (value attr : Ast .expr) : Ast .expr
  | unaryOp (op : UnaryOpType) (operand : Ast .expr) : Ast .expr
  | boolOp (op : BoolOpType) (values : Ast .exprs) : Ast .expr
  | binOp (op : BinaryOpType) (left right : Ast .expr) : Ast .expr
  | subscript (slice : Ast .slice) (value : Ast .expr) : Ast .expr
  | listComp (element : Ast .expr) (generators : Ast .exprs) : Ast .expr
  | comprehension (target iter : Ast .expr) (ifs : Ast .exprs) : Ast .expr
  | otherExpr : Ast .expr
  | nullSlice : Ast .slice
  | index (value : Ast .expr) : Ast .slice
  | otherSlice : Ast .slice
  | nullStmt : Ast .stmt
  | suite (items : Ast .stmts) : Ast .stmt
  | assign (targets : Ast .exprs) (value : Ast .expr) : Ast .stmt
  | augAssign (op : BinaryOpType) (target value : Ast .expr) : Ast .stmt
  | return (value : Ast .expr) : Ast .stmt
  | ifStmt (test : Ast .expr) (body orelse : Ast .stmt) : Ast .stmt
  | forLoop (target iter : Ast .expr) (body orelse : Ast .stmt) : Ast .stmt
  | whileLoop (test : Ast .expr) (body orelse : Ast .stmt) : Ast .stmt
  | expressionStatement (expr : Ast .expr) : Ast .stmt
  | docString (doc : Str) : Ast .stmt
  | continue : Ast .stmt
  | break : Ast .stmt
  | pass : Ast .stmt
  | importStmt (names : Ast .expr) : Ast .stmt
  | importFrom (module names : Ast .expr) (level : Int32) : Ast .stmt
  | global (names : List Str) : Ast .stmt
  | functionDef (name : Ast .expr) (arguments defaults keywords decorators : Ast .exprs)
      (args kwargs : Ast .expr) (body : Ast .stmt) : Ast .stmt
  | otherStmt : Ast .stmt
  | noExprs : Ast .exprs
  | consExpr (head : Ast .expr) (tail : Ast .exprs) : Ast .exprs
  | noStmts : Ast .stmts
  | consStmt (head : Ast .stmt) (tail : Ast .stmts) : Ast .stmts
  | noItems : Ast .items
  | consItem (key value : Ast .expr) (tail : Ast .items) : Ast .items
  | noComparisons : Ast .comparisons
  | consComparison (op : CompareOpType) (comparator : Ast .expr) (tail : Ast .comparisons) :
      Ast .comparisons

namespace Ast

/-- The size of a vector. -/
def length : {k : Kind} → Ast k → Nat
  | _, .consExpr _ tail => tail.length + 1
  | _, .consStmt _ tail => tail.length + 1
  | _, .consItem _ _ tail => tail.length + 1
  | _, .consComparison _ _ tail => tail.length + 1
  | _, _ => 0

def isNull : {k : Kind} → Ast k → Bool
  | _, .nullExpr | _, .nullSlice | _, .nullStmt => true
  | _, _ => false

/-- A vector of expressions. -/
def ofExprs : List (Ast .expr) → Ast .exprs
  | [] => .noExprs
  | head :: tail => .consExpr head (ofExprs tail)

/-- A vector of statements. -/
def ofStmts : List (Ast .stmt) → Ast .stmts
  | [] => .noStmts
  | head :: tail => .consStmt head (ofStmts tail)

end Ast

end ContractPython
