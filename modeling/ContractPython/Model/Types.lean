import ContractPython.Lib.Bytes

/-!
# Strings and enumerations of the interpreter

`Str` is a `std::string`: a sequence of bytes. The enumerations are those of
`NodeType.h` and `InterpreterTypes.h`; each is read from the bytecode as a 32-bit
word and may hold a number that names no enumerator, which is `unknown`.
-/

namespace ContractPython

abbrev Str := List UInt8

/-- A string literal of the source. -/
def lit (s : String) : Str := s.toList.map fun c => UInt8.ofNat c.toNat

/-- The bytes `c_str()` shows to C code: everything before the first NUL. -/
def cStr (s : Str) : Str := s.takeWhile (· != 0)

inductive NodeType
  | pass | statementList | name | assign | return | string | compare | dictionary | integer
  | ifElse | if | call | attribute | unaryOp | binaryOp | boolOp | list | listComp | comprehension
  | tuple | subscript | index | forLoop | whileLoop | augmentedAssign | continue | break | import
  | importFrom | alias | functionDef | functionStartDefaults | functionStartStub | functionStart
  | functionEnd | global
  | unknown (code : UInt32)
  deriving DecidableEq, Repr

def NodeType.code : NodeType → UInt32
  | .pass => 0 | .statementList => 1 | .name => 2 | .assign => 3 | .return => 4 | .string => 5
  | .compare => 6 | .dictionary => 7 | .integer => 8 | .ifElse => 9 | .if => 10 | .call => 11
  | .attribute => 12 | .unaryOp => 13 | .binaryOp => 14 | .boolOp => 15 | .list => 16
  | .listComp => 17 | .comprehension => 18 | .tuple => 19 | .subscript => 20 | .index => 21
  | .forLoop => 22 | .whileLoop => 23 | .augmentedAssign => 24 | .continue => 25 | .break => 26
  | .import => 27 | .importFrom => 28 | .alias => 29 | .functionDef => 30
  | .functionStartDefaults => 31 | .functionStartStub => 32 | .functionStart => 33
  | .functionEnd => 34 | .global => 35
  | .unknown code => code

def NodeType.ofCode (code : UInt32) : NodeType :=
  match code.toNat with
  | 0 => .pass | 1 => .statementList | 2 => .name | 3 => .assign | 4 => .return | 5 => .string
  | 6 => .compare | 7 => .dictionary | 8 => .integer | 9 => .ifElse | 10 => .if | 11 => .call
  | 12 => .attribute | 13 => .unaryOp | 14 => .binaryOp | 15 => .boolOp | 16 => .list
  | 17 => .listComp | 18 => .comprehension | 19 => .tuple | 20 => .subscript | 21 => .index
  | 22 => .forLoop | 23 => .whileLoop | 24 => .augmentedAssign | 25 => .continue | 26 => .break
  | 27 => .import | 28 => .importFrom | 29 => .alias | 30 => .functionDef
  | 31 => .functionStartDefaults | 32 => .functionStartStub | 33 => .functionStart
  | 34 => .functionEnd | 35 => .global
  | _ => .unknown code

inductive BinaryOpType
  | undefined | add | bitAnd | bitOr | bitXor | div | floorDiv | leftShift | mod | mult | power
  | rightShift | sub
  | unknown (code : UInt32)
  deriving DecidableEq, Repr

def BinaryOpType.code : BinaryOpType → UInt32
  | .undefined => 0 | .add => 1 | .bitAnd => 2 | .bitOr => 3 | .bitXor => 4 | .div => 5
  | .floorDiv => 6 | .leftShift => 7 | .mod => 8 | .mult => 9 | .power => 10 | .rightShift => 11
  | .sub => 12
  | .unknown code => code

def BinaryOpType.ofCode (code : UInt32) : BinaryOpType :=
  match code.toNat with
  | 0 => .undefined | 1 => .add | 2 => .bitAnd | 3 => .bitOr | 4 => .bitXor | 5 => .div
  | 6 => .floorDiv | 7 => .leftShift | 8 => .mod | 9 => .mult | 10 => .power | 11 => .rightShift
  | 12 => .sub
  | _ => .unknown code

inductive BoolOpType
  | undefined | and | or
  | unknown (code : UInt32)
  deriving DecidableEq, Repr

def BoolOpType.code : BoolOpType → UInt32
  | .undefined => 0 | .and => 1 | .or => 2
  | .unknown code => code

def BoolOpType.ofCode (code : UInt32) : BoolOpType :=
  match code.toNat with
  | 0 => .undefined | 1 => .and | 2 => .or
  | _ => .unknown code

inductive UnaryOpType
  | undefined | add | invert | not | sub
  | unknown (code : UInt32)
  deriving DecidableEq, Repr

def UnaryOpType.code : UnaryOpType → UInt32
  | .undefined => 0 | .add => 1 | .invert => 2 | .not => 3 | .sub => 4
  | .unknown code => code

def UnaryOpType.ofCode (code : UInt32) : UnaryOpType :=
  match code.toNat with
  | 0 => .undefined | 1 => .add | 2 => .invert | 3 => .not | 4 => .sub
  | _ => .unknown code

inductive CompareOpType
  | undefined | equals | in | is | isNot | less | lessEqual | more | moreEqual | notEqual | notIn
  | unknown (code : UInt32)
  deriving DecidableEq, Repr

def CompareOpType.code : CompareOpType → UInt32
  | .undefined => 0 | .equals => 1 | .in => 2 | .is => 3 | .isNot => 4 | .less => 5
  | .lessEqual => 6 | .more => 7 | .moreEqual => 8 | .notEqual => 9 | .notIn => 10
  | .unknown code => code

def CompareOpType.ofCode (code : UInt32) : CompareOpType :=
  match code.toNat with
  | 0 => .undefined | 1 => .equals | 2 => .in | 3 => .is | 4 => .isNot | 5 => .less
  | 6 => .lessEqual | 7 => .more | 8 => .moreEqual | 9 => .notEqual | 10 => .notIn
  | _ => .unknown code

/-- Reading back the word of a node type. Only the words below 36 name an enumerator. -/
lemma NodeType.ofCode_code (t : NodeType) (h : ∀ c, t ≠ .unknown c) : NodeType.ofCode t.code = t := by
  cases t <;> first | rfl | exact absurd rfl (h _)

/-- What a value is, as `Value::type()` reports it. -/
inductive ValueType
  | none | bool | string | integer | float | dictItems | cppObject | attribute | builtin | list
  | dictionary | persistableDictionary | iterator | tuple | alias | module | function | geoVector2
  | custom
  deriving DecidableEq, Repr

/-- `operator<<(std::ostream &, ValueType)`. -/
def ValueType.str : ValueType → Str
  | .none => lit "None"
  | .bool => lit "Bool"
  | .string => lit "String"
  | .integer => lit "Integer"
  | .float => lit "Float"
  | .dictItems => lit "DictItems"
  | .cppObject => lit "C++ Object"
  | .list => lit "List"
  | .tuple => lit "Tuple"
  | .dictionary => lit "Dictionary"
  | .persistableDictionary => lit "PersistableDictionary"
  | _ => lit "Unknown Value Type"

/-- The loop control state passed by reference through `execute_next`. -/
inductive LoopState
  | none | topLevel | normal | break | continue | ignoreAll
  deriving DecidableEq, Repr

/-- What ends a run early. `crash` is undefined behaviour, which no handler sees, and
`outOfFuel` is not an exception of the source: the model ran out of its step bound. -/
inductive Exn
  | runtimeError (what : Str)
  | languageException (what : Str)
  | valueException (what : Str)
  | outOfGas
  | suicide
  | revert
  | stopIteration
  | crash (what : Str)
  | outOfFuel
  deriving DecidableEq, Repr

end ContractPython
