import ContractPython.Model.Ast
import ContractPython.Model.Bitstream

/-!
# The compiler

`Compiler.cpp` writes a node into the output stream: a node type, fixed fields, and the
children. The length of a function body is known only after the body is written, so
`FunctionDef` writes a zero first and comes back to it.
-/

namespace ContractPython

namespace Compiler

/-- A compilation writes into `m_result`. -/
abbrev Output := EStateM Exn Bitstream

def write (bytes : List UInt8) : Output Unit := fun b => .ok () (b.write bytes)

/-- `m_result << uint32_t`. -/
def writeWord (w : UInt32) : Output Unit := write (wordBytes w)

/-- `m_result << NodeType`. -/
def writeType (type : NodeType) : Output Unit := writeWord type.code

/-- `m_result << std::string`. -/
def writeString (s : Str) : Output Unit := write (stringBytes s)

/-- `uint32_t size = list.size(); m_result << size;` -/
def writeSize (size : Nat) : Output Unit := writeWord (UInt32.ofNat size)

def posWrite : Output UInt32 := fun b => .ok b.posWrite b

def moveToWrite (pos : UInt32) : Output Unit := fun b => .ok () (b.moveToWrite pos)

def moveToEndWrite : Output Unit := fun b => .ok () b.moveToEndWrite

/-- What `SAFE_PARSE_NEXT` does on a null pointer. -/
def maliciousInput : Output Unit := throw (.runtimeError (lit "mailicious input"))

/-- What `parse_expr_list` does on a null pointer. -/
def writePass : Output Unit := writeType .pass

/-- The `default` case of `parse_next`. -/
def unknownStatement : Output Unit := throw (.runtimeError (lit "Unknown statement type!"))

/-- A node of type `Name`. -/
def writeName (id : Str) : Output Unit := do
  writeType .name
  writeString (cStr id)

/-- The `FunctionDef` case around the body: writes a zero where its length goes, then the
header and the body, and comes back to overwrite the zero. -/
def withBodyLength (header body : Output Unit) : Output Unit := do
  let dummyPos ← posWrite
  writeWord 0
  header
  let sizeStart ← posWrite
  body
  let sizeEnd ← posWrite
  moveToWrite dummyPos
  writeWord (sizeEnd - sizeStart)
  moveToEndWrite

/-- `parse_next`, and the loops over its vectors; `onNull` is what happens to a null
pointer in the place where the node stands. -/
def parseNext (onNull : Output Unit) : {k : Kind} → Ast k → Output Unit
  | _, .nullExpr | _, .nullSlice | _, .nullStmt => onNull
  | _, .importFrom module names _ => do
    writeType .importFrom
    parseNext maliciousInput module
    parseNext maliciousInput names
  | _, .importStmt names => do
    writeType .import
    parseNext maliciousInput names
  | _, .alias name asName => do
    writeType .alias
    writeString (cStr name)
    writeString (cStr (asName.getD []))
  | _, .name id => writeName id
  | _, .assign targets value => do
    writeType .assign
    parseNext maliciousInput value
    writeSize targets.length
    parseNext writePass targets
  | _, .suite items => do
    writeType .statementList
    writeSize items.length
    parseNext maliciousInput items
  | _, .str value | _, .docString value => do
    writeType .string
    writeString (cStr value)
  | _, .return value => do
    writeType .return
    parseNext maliciousInput value
  | _, .dict items => do
    writeType .dictionary
    writeSize items.length
    parseNext maliciousInput items
  | _, .compare left comparators => do
    writeType .compare
    parseNext maliciousInput left
    writeSize comparators.length
    parseNext maliciousInput comparators
  | _, .number (.integer integer) => do
    writeType .integer
    writeWord integer.toInt32.toUInt32
  | _, .number _ => throw (.runtimeError (lit "Unknown number type!"))
  | _, .ifStmt test body orelse =>
    if orelse.isNull then do
      writeType .if
      parseNext maliciousInput test
      parseNext maliciousInput body
    else do
      writeType .ifElse
      parseNext maliciousInput test
      parseNext maliciousInput body
      parseNext maliciousInput orelse
  | _, .call function arguments _ _ _ => do
    writeType .call
    parseNext maliciousInput function
    writeSize arguments.length
    parseNext writePass arguments
  | _, .attribute value attr => do
    writeType .attribute
    parseNext maliciousInput value
    parseNext maliciousInput attr
  | _, .unaryOp op operand => do
    writeType .unaryOp
    writeWord op.code
    parseNext maliciousInput operand
  | _, .boolOp op values => do
    writeType .boolOp
    writeWord op.code
    writeSize values.length
    -- `parse_next(v)` reads the pointer `v` itself as a node, so its address as a node type
    if values.length = 0 then pure () else unknownStatement
  | _, .binOp op left right => do
    writeType .binaryOp
    writeWord op.code
    parseNext maliciousInput left
    parseNext maliciousInput right
  | _, .list elements => do
    writeType .list
    writeSize elements.length
    parseNext writePass elements
  | _, .subscript slice value => do
    writeType .subscript
    parseNext maliciousInput slice
    parseNext maliciousInput value
  | _, .index value => do
    writeType .index
    parseNext maliciousInput value
  | _, .forLoop target iter body _ => do
    writeType .forLoop
    parseNext maliciousInput target
    parseNext maliciousInput iter
    parseNext maliciousInput body
  | _, .whileLoop test body _ => do
    writeType .whileLoop
    parseNext maliciousInput test
    parseNext maliciousInput body
  | _, .augAssign op target value => do
    writeType .augmentedAssign
    writeWord op.code
    parseNext maliciousInput target
    parseNext maliciousInput value
  | _, .expressionStatement expr => parseNext maliciousInput expr
  | _, .continue => writeType .continue
  | _, .break => writeType .break
  | _, .tuple elements => do
    writeType .tuple
    writeSize elements.length
    parseNext maliciousInput elements
  | _, .pass => writeType .pass
  | _, .listComp element generators => do
    writeType .listComp
    parseNext maliciousInput element
    writeSize generators.length
    parseNext writePass generators
  | _, .comprehension target iter ifs => do
    writeType .comprehension
    parseNext maliciousInput target
    parseNext maliciousInput iter
    writeSize ifs.length
    parseNext writePass ifs
  | _, .global names => do
    writeType .global
    writeSize names.length
    names.forM writeName
  | _, .functionDef name arguments defaults _ _ _ _ body => do
    writeType .functionDef
    parseNext maliciousInput name
    withBodyLength (do
      writeType .functionStart
      writeSize arguments.length
      parseNext writePass arguments
      writeType .functionStartDefaults
      writeSize defaults.length
      parseNext writePass defaults
      writeType .functionStartStub) (parseNext maliciousInput body)
    writeType .functionEnd
  | _, .otherExpr | _, .otherSlice | _, .otherStmt => unknownStatement
  | _, .noExprs | _, .noStmts | _, .noItems | _, .noComparisons => pure ()
  | _, .consExpr head tail => do
    parseNext onNull head
    parseNext onNull tail
  | _, .consStmt head tail => do
    parseNext onNull head
    parseNext onNull tail
  | _, .consItem key value tail => do
    parseNext onNull key
    parseNext onNull value
    parseNext onNull tail
  | _, .consComparison op comparator tail => do
    writeWord op.code
    parseNext onNull comparator
    parseNext onNull tail

/-- `Compiler::run` on the body of a module, and the stored result. -/
def run (body : Ast .stmt) : Except Exn (List UInt8) :=
  match parseNext maliciousInput body (Bitstream.ofBytes []) with
  | .ok _ b => .ok b.bytecode
  | .error e _ => .error e

end Compiler

end ContractPython
