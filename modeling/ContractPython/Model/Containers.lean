import ContractPython.Model.Scope

/-!
# Value operations

The methods of `Value.h`, `List.cpp`, `Tuple.h`, `Dictionary.cpp` and
`PersistableDictionary.cpp`: indexing, element updates, iteration, comparison and
conversion to a string.
-/

namespace ContractPython

/-! ### Lists and tuples -/

namespace PyList

/-- `List::size`. -/
def size (elements : List ValuePtr) : UInt32 := UInt32.ofNat elements.length

/-- The bounds check of `List::get`, which negates the size as a signed number. -/
def getIndex (size : UInt32) (index : Int64) : Option Nat :=
  if index.toInt ≥ size.toNat || index.toInt ≤ (-size.toInt32).toInt then none
  else some (if index.toInt < 0 then size.toNat + index.toInt else index.toInt).toNat

/-- The bounds check of `List::set` and `List::apply`, which negates the size as an
unsigned number. -/
def setIndex (size : UInt32) (index : Int64) : Option Nat :=
  if index.toInt ≥ size.toNat || index.toInt ≤ (-size).toNat then none
  else some (if index.toInt < 0 then size.toNat + index.toInt else index.toInt).toNat

end PyList

namespace M

/-- The integer behind a pointer, with its object, when there is one. -/
def integerAt (p : ValuePtr) : M (Option (Ref × Int64)) :=
  match p with
  | none => pure none
  | some r => do
    match ← load r with
    | .integer i => pure (some (r, i))
    | _ => pure none

/-- `i_target->set(i_target->get() op i_value->get())` after the type checks of the
callers; the target object is updated in place. -/
def updateInteger (target value : ValuePtr) (f : Int64 → Int64 → Int64) : M Unit := do
  match ← integerAt target, ← integerAt value with
  | some (r, i), some (_, j) => storeAt r (.integer (f i j))
  | _, _ => throwRuntime (lit "Values need to be numerics")

/-- `List::get`. -/
def listGet (elements : List ValuePtr) (index : Int64) : M ValuePtr :=
  match PyList.getIndex (PyList.size elements) index with
  | some i => pure (elements.getD i none)
  | none => throwRuntime (lit "List index out of range")

/-- `List::set`. -/
def listSet (r : Ref) (index : Int64) (val : ValuePtr) : M Unit := do
  let elements ← valueCast Value.list? (some r)
  match PyList.setIndex (PyList.size elements) index with
  | some i => storeAt r (.list (elements.set i val))
  | none => throwRuntime (lit "List index out of range")

/-- `List::apply`. -/
def listApply (r : Ref) (index : Int64) (value : ValuePtr) (op : BinaryOpType) : M Unit := do
  let elements ← valueCast Value.list? (some r)
  match PyList.setIndex (PyList.size elements) index with
  | none => throwRuntime (lit "List index out of range")
  | some i => do
    let target := elements.getD i none
    match ← integerAt target, ← integerAt value with
    | some _, some _ =>
      match op with
      | .add => updateInteger target value (· + ·)
      | .sub => updateInteger target value (· - ·)
      | .mult => updateInteger target value (· * ·)
      | _ => throwRuntime (lit "Unknown binary op")
    | _, _ => throwRuntime (lit "Values need to be numerics")

/-- `List::append`. -/
def listAppend (r : Ref) (val : ValuePtr) : M Unit := do
  let elements ← valueCast Value.list? (some r)
  storeAt r (.list (elements ++ [val]))

/-- `Tuple::get`; the position is a 32-bit number. -/
def tupleGet (content : List ValuePtr) (pos : UInt32) : M ValuePtr :=
  match content[pos.toNat]? with
  | some v => pure v
  | none => throwRuntime (lit "Tuple index out of bounds")

/-! ### Dictionaries -/

/-- `Dictionary::insert`. -/
def dictInsert (r : Ref) (key : Str) (value : ValuePtr) : M Unit := do
  let elements ← valueCast Value.dictionary? (some r)
  storeAt r (.dictionary (elements.insert key value))

/-- `Dictionary::get`: a missing key gives `None`. -/
def dictGet (elements : SortedMap Str ValuePtr) (key : Str) : ValuePtr :=
  (elements.find? key).getD none

/-- `Dictionary::apply`. A missing key stores the operand's own object for `+=`, the
negated operand object for `-=`, and a fresh zero for `*=`; on a present key `*=` adds. -/
def dictApply (r : Ref) (key : Str) (value : ValuePtr) (op : BinaryOpType) : M Unit := do
  let elements ← valueCast Value.dictionary? (some r)
  let target := dictGet elements key
  match ← integerAt value with
  | none => throwRuntime (lit "Values need to be numerics")
  | some (rv, i) =>
    match target with
    | none =>
      match op with
      | .add => storeAt r (.dictionary (elements.insert key value))
      | .sub => do
        storeAt rv (.integer (-1 * i))
        storeAt r (.dictionary (elements.insert key value))
      | .mult => do
        let zero ← create (.integer 0)
        storeAt r (.dictionary (elements.insert key zero))
      | _ => throwRuntime (lit "Unknown binary op")
    | some rt => do
      match ← load rt with
      | .integer _ =>
        match op with
        | .add => updateInteger target value (· + ·)
        | .sub => updateInteger target value (· - ·)
        | .mult => updateInteger target value (· + ·)
        | _ => throwRuntime (lit "Unknown binary op")
      | _ => throwRuntime (lit "Values need to be numerics")

end M

/-! ### The persistable dictionary -/

/-- `double _value = unpack_float(value)`: the value goes through a `float`. -/
def narrowFloat (bits : UInt64) : UInt64 := (Float.ofBits bits).toFloat32.toFloat.toBits

namespace Store

/-- `PersistableDictionary::get`, as the object it creates. -/
def get? (st : Store) (key : Str) : Option Value :=
  match st.elementsString.find? key with
  | some s => some (.string s)
  | none =>
    match st.elementsInt.find? key with
    | some i => some (.integer i)
    | none =>
      match st.elementsDouble.find? key with
      | some f => some (.float f)
      | none => (st.elementsBool.find? key).map .bool

/-- `PersistableDictionary::remove`, which does not look at the booleans. -/
def remove (st : Store) (key : Str) : Store :=
  { st with
    elementsString := st.elementsString.erase key
    elementsInt := st.elementsInt.erase key
    elementsDouble := st.elementsDouble.erase key }

/-- `PersistableDictionary::has`, which does not look at the booleans either. -/
def has (st : Store) (key : Str) : Bool :=
  st.elementsString.contains key || st.elementsInt.contains key || st.elementsDouble.contains key

/-- `PersistableDictionary::clear`. -/
def clear (_st : Store) : Store := .empty

/-- `PersistableDictionary::insert`. -/
def insert (st : Store) (key : Str) (value : Value) : Except Exn Store :=
  let removed := st.remove key
  match value with
  | .string s => .ok { removed with elementsString := removed.elementsString.insert key s }
  | .integer i => .ok { removed with elementsInt := removed.elementsInt.insert key i }
  | .bool b => .ok { removed with elementsBool := removed.elementsBool.insert key b }
  | .float f =>
    .ok { removed with elementsDouble := removed.elementsDouble.insert key (narrowFloat f) }
  | _ => .error (.runtimeError
      (lit "Persistent directories can only store string, int, float and boolean."))

/-- `PersistableDictionary::apply`. -/
def apply (st : Store) (key : Str) (value : Option Value) (op : BinaryOpType) : Except Exn Store :=
  if st.elementsBool.contains key || st.elementsDouble.contains key ||
      st.elementsString.contains key then
    .error (.runtimeError (lit "Values need to be numerics"))
  else
    let target := (st.elementsInt.find? key).getD 0
    match value with
    | some (.integer i) =>
      match op with
      | .add => .ok { st with elementsInt := st.elementsInt.insert key (i + target) }
      | .sub => .ok { st with elementsInt := st.elementsInt.insert key (target - i) }
      | .mult => .ok { st with elementsInt := st.elementsInt.insert key (target * i) }
      | _ => .error (.runtimeError (lit "Unknown binary op"))
    | _ => .error (.runtimeError (lit "Values need to be numerics"))

end Store

namespace M

def liftExcept {α : Type} (x : Except Exn α) : M α :=
  match x with
  | .ok a => pure a
  | .error e => throw e

/-- The object behind a pointer that may be null. -/
def loadPtr (p : ValuePtr) : M (Option Value) :=
  match p with
  | none => pure none
  | some r => do
    let v ← load r
    pure (some v)

/-- Puts a changed persistable dictionary back. -/
def writeStore (r : Ref) (st : Store) : M Unit := do
  storeAt r (.persistableDictionary st)
  record .storeWritten

/-- `PersistableDictionary::insert` on the object at `r`. -/
def storeInsert (r : Ref) (key : Str) (value : Ref) : M Unit := do
  let st ← valueCast Value.store? (some r)
  let st' ← liftExcept (st.insert key (← load value))
  writeStore r st'

/-- `PersistableDictionary::apply` on the object at `r`. -/
def storeApply (r : Ref) (key : Str) (value : ValuePtr) (op : BinaryOpType) : M Unit := do
  let st ← valueCast Value.store? (some r)
  let st' ← liftExcept (st.apply key (← loadPtr value) op)
  writeStore r st'

/-- `PersistableDictionary::get` on the object at `r`. -/
def storeGet (st : Store) (key : Str) : M ValuePtr :=
  match st.get? key with
  | some v => create v
  | none => pure none

/-! ### Iteration -/

/-- `IterateableValue::iterate` of the object `v` at `r`. -/
def iterate (r : Ref) (v : Value) : M ValuePtr :=
  match v with
  | .list _ => create (.listIterator r 0)
  | .dictionary elements => create (.dictKeyIterator r elements.first?)
  | _ => throw (.valueException (lit "Invalid value cast"))

/-- `Iterator::next` of the iterator object at `r`. The key iterator of a dictionary
yields the values. -/
def next (r : Ref) : M ValuePtr := do
  match ← load r with
  | .listIterator list pos => do
    let elements ← valueCast Value.list? (some list)
    if pos ≥ PyList.size elements then throw .stopIteration
    else do
      let res ← listGet elements (Int64.ofInt pos.toNat)
      storeAt r (.listIterator list (pos + 1))
      pure res
  | .rangeIterator pos stop stepSize =>
    if pos ≥ stop then throw .stopIteration
    else do
      let res ← create (.integer pos.toInt64)
      storeAt r (.rangeIterator (pos + stepSize) stop stepSize)
      pure res
  | .dictItemIterator dict it => do
    let elements ← valueCast Value.dictionary? (some dict)
    match it with
    | none => throw .stopIteration
    | some key => do
      let k ← create (.string key)
      let t ← create (.tuple [k, dictGet elements key])
      storeAt r (.dictItemIterator dict (elements.next? key))
      pure t
  | .dictKeyIterator dict it => do
    let elements ← valueCast Value.dictionary? (some dict)
    match it with
    | none => throw .stopIteration
    | some key => do
      storeAt r (.dictKeyIterator dict (elements.next? key))
      pure (dictGet elements key)
  | _ => throw (.valueException (lit "Invalid value cast"))

end M

/-! ### Comparison and strings -/

/-- `operator==(const Value &, const Value &)`. -/
def Value.equals : Value → Value → Bool
  | .string s, .string s' => s == s'
  | .integer i, .integer i' => i == i'
  | _, _ => false

/-- `operator>(const Value &, const Value &)`. -/
def Value.greater : Value → Value → Bool
  | .integer i, .integer i' => i > i'
  | _, _ => false

/-- `operator>=(const Value &, const Value &)`. -/
def Value.greaterEqual : Value → Value → Bool
  | .integer i, .integer i' => i ≥ i'
  | _, _ => false

/-- `std::to_string(double)`: the exact value rounded to six decimals. -/
def floatToString (bits : UInt64) : Str :=
  let b := bits.toNat
  let sign := if b / 2 ^ 63 = 1 then lit "-" else []
  let exponent := b / 2 ^ 52 % 2 ^ 11
  let fraction := b % 2 ^ 52
  if exponent = 2047 then sign ++ (if fraction = 0 then lit "inf" else lit "nan")
  else
    let mantissa := if exponent = 0 then fraction else fraction + 2 ^ 52
    let shift := (if exponent = 0 then 1 else exponent : Nat)
    -- the value is `mantissa * 2 ^ (shift - 1075)`
    let n :=
      if 1075 ≤ shift then mantissa * 2 ^ (shift - 1075) * 10 ^ 6
      else
        let d := 2 ^ (1075 - shift)
        let q := mantissa * 10 ^ 6 / d
        let r := mantissa * 10 ^ 6 % d
        if 2 * r > d || (2 * r = d && q % 2 = 1) then q + 1 else q
    let decimals := (toString (n % 10 ^ 6)).toList
    sign ++ lit (toString (n / 10 ^ 6)) ++ lit "." ++
      lit (String.ofList (List.replicate (6 - decimals.length) '0' ++ decimals))

namespace M

/-- `List::contains`. -/
def listContains (value : Value) : List ValuePtr → M Bool
  | [] => pure false
  | elem :: rest => do
    let r ← assertGeneric elem
    if (← load r).equals value then pure true else listContains value rest

end M

/-- `Value::str`, following lists into their elements. The depth is bounded by the
number of objects: a deeper recursion has met a list inside itself. -/
def Value.str (heap : List Value) : Nat → Ref → Except Exn Str
  | 0, _ => .error (.crash (lit "stack overflow"))
  | n + 1, r =>
    match heap[r]? with
    | some (.bool b) => .ok (if b then lit "1" else lit "0")
    | some (.string s) => .ok s
    | some (.integer i) => .ok (lit (toString i.toInt))
    | some (.float f) => .ok (floatToString f)
    | some (.list elements) => do
      let parts ← elements.mapM fun elem =>
        match elem with
        | none => .ok (lit "None")
        | some r' => do
          let s ← Value.str heap n r'
          match heap[r']? with
          | some (.string _) => .ok (lit "'" ++ s ++ lit "'")
          | _ => .ok s
      .ok (lit "[" ++ (lit ", ").intercalate parts ++ lit "]")
    | some _ => .error (.runtimeError (lit "Cannot convert value to string"))
    | none => .error (.crash (lit "dangling reference"))

/-- `Value::size`. -/
def Value.size : Value → Except Exn UInt32
  | .string s => .ok (UInt32.ofNat s.length)
  | .list elements => .ok (PyList.size elements)
  | .tuple content => .ok (UInt32.ofNat content.length)
  | .dictionary elements => .ok (UInt32.ofNat elements.size)
  | _ => .error (.runtimeError (lit "Cannot get size of value"))

namespace M

/-- `value->str()`. -/
def str (r : Ref) : M Str := fun s =>
  match Value.str s.heap (s.heap.length + 1) r with
  | .ok a => .ok a s
  | .error e => .error e s

/-- `value->get_member(name)` of the object at `r`. -/
def getMember (r : Ref) (name : Str) : M ValuePtr := do
  match ← load r with
  | .list _ =>
    if name = lit "append" then create (.listAppend r)
    else throw (.languageException (lit "No such member List::" ++ name))
  | .dictionary _ =>
    if name = lit "items" then create (.dictItems r)
    else throwRuntime (lit "Failed to get member Dictionary::" ++ name)
  | .randModule =>
    if name = lit "randint" then create .randint
    else throwRuntime (lit "No such member: " ++ name)
  | .blockchainModule _ functionMap =>
    match functionMap.find? name with
    | some f => pure (some f)
    | none => throwRuntime (lit "no such function '" ++ name ++ lit "' in blockchain module")
  | _ => throw (.languageException (lit "No such member: " ++ name))

end M

end ContractPython
