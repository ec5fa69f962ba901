import ContractPython.Model.Compiler
import ContractPython.Model.Interpreter

/-!
# Serialization of values

`operator<<(bitstream &, ValuePtr)` and `read_value` of `Value.h`, for plain values. The writer
stores an integer with 64 bits; the reader takes 32.
-/

namespace ContractPython

def ValueType.code : ValueType → UInt32
  | .none => 0 | .bool => 1 | .string => 2 | .integer => 3 | .float => 4 | .dictItems => 5
  | .cppObject => 6 | .attribute => 7 | .builtin => 8 | .list => 9 | .dictionary => 10
  | .persistableDictionary => 11 | .iterator => 12 | .tuple => 13 | .alias => 14 | .module => 15
  | .function => 16 | .geoVector2 => 17 | .custom => 18

/-- The enumerator of a number, if it has one. -/
def ValueType.ofCode (code : UInt32) : Option ValueType :=
  match code.toNat with
  | 0 => some .none | 1 => some .bool | 2 => some .string | 3 => some .integer | 4 => some .float
  | 5 => some .dictItems | 6 => some .cppObject | 7 => some .attribute | 8 => some .builtin
  | 9 => some .list | 10 => some .dictionary | 11 => some .persistableDictionary
  | 12 => some .iterator | 13 => some .tuple | 14 => some .alias | 15 => some .module
  | 16 => some .function | 17 => some .geoVector2 | 18 => some .custom
  | _ => none

/-- The bytes of a 64-bit word in the stream. -/
def longBytes (w : UInt64) : List UInt8 := Bytes.encodeBE 8 w.toNat

/-- The byte of a Bool in the stream. -/
def boolBytes (b : Bool) : List UInt8 := Bytes.encodeBE 1 b.toNat

namespace Compiler

/-- `stream << ValueType`. -/
def writeValueType (type : ValueType) : Output Unit := writeWord type.code

/-- `stream << std::string`: nothing follows a length whose low 32 bits are zero. -/
def writeText (s : Str) : Output Unit := do
  let length := UInt32.ofNat s.length
  writeWord length
  if length > 0 then write s else pure ()

/-- `stream << val` for the object behind a `ValuePtr`. -/
def writeValue (val : Option Value) : Output Unit :=
  match val with
  | none => writeValueType .none
  | some (.integer i) => do
    writeValueType .integer
    write (longBytes i.toUInt64)
  | some (.bool b) => do
    writeValueType .bool
    write (boolBytes b)
  | some (.string s) => do
    writeValueType .string
    writeText s
  | some _ => throw (.valueException (lit "Cannot serialize this type of value!"))

end Compiler

namespace M

/-- `read_value`, with the stream it leaves behind. -/
def readValue (b : Bitstream) : M (ValuePtr × Bitstream) := do
  let (type, b) ← fromStream Bitstream.readWord b
  match ValueType.ofCode type with
  | some .none => pure (none, b)
  | some .integer => do
    let (i, b) ← fromStream Bitstream.readWord b
    let p ← createInteger i.toInt32
    pure (p, b)
  | some .bool => do
    let (i, b) ← fromStream Bitstream.readBool b
    let p ← create (.bool i)
    pure (p, b)
  | some .string => do
    let (s, b) ← fromStream Bitstream.readString b
    let p ← create (.string s)
    pure (p, b)
  | _ => throw (.valueException (lit "Cannot serialize this type of value!"))

/-- So many values, one after another. -/
def readValues : Nat → Bitstream → M (List ValuePtr × Bitstream)
  | 0, b => pure ([], b)
  | n + 1, b => do
    let (p, b) ← readValue b
    let (ps, b) ← readValues n b
    pure (p :: ps, b)

end M

end ContractPython
