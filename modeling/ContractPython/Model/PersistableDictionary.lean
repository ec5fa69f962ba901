import ContractPython.Model.Blockchain

/-!
# The persistable dictionary, statement by statement

`PersistableDictionary.cpp` with each of its statements as a step of its own, so that an exception
leaves what the statements before it have done.
-/

namespace ContractPython

namespace M

/-- `unpack_string`. -/
def unpackString (p : ValuePtr) : M Str := valueCast Value.string? p

/-- `unpack_bool`. -/
def unpackBool (p : ValuePtr) : M Bool := valueCast Value.bool? p

/-- `unpack_float`, widened to a `double` again. -/
def unpackFloat (r : Ref) : M UInt64 := do
  match ← load r with
  | .float f => pure (narrowFloat f)
  | .integer i => pure (Float32.ofInt i.toInt).toFloat.toBits
  | _ => throw (.valueException (lit "cannot extract float!"))

end M

namespace Stepwise

open M

/-- A statement that changes the maps of the dictionary at `r`. -/
def assign (r : Ref) (f : Store → Store) : M Unit := do
  let st ← valueCast Value.store? (some r)
  storeAt r (.persistableDictionary (f st))

def eraseInt (r : Ref) (key : Str) : M Unit :=
  assign r fun st => { st with elementsInt := st.elementsInt.erase key }

/-- `PersistableDictionary::remove`, which looks at the integers twice. -/
def remove (r : Ref) (key : Str) : M Unit := do
  assign r fun st => { st with elementsString := st.elementsString.erase key }
  eraseInt r key
  eraseInt r key
  assign r fun st => { st with elementsDouble := st.elementsDouble.erase key }

/-- `PersistableDictionary::insert`. -/
def insert (r : Ref) (key : Str) (value : Ref) : M Unit := do
  match ← load value with
  | .string _ => do
    let v ← unpackString (some value)
    remove r key
    assign r fun st => { st with elementsString := st.elementsString.insert key v }
  | .integer _ => do
    let v ← unpackInteger (some value)
    remove r key
    assign r fun st => { st with elementsInt := st.elementsInt.insert key v }
  | .bool _ => do
    let v ← unpackBool (some value)
    remove r key
    assign r fun st => { st with elementsBool := st.elementsBool.insert key v }
  | .float _ => do
    let v ← unpackFloat value
    remove r key
    assign r fun st => { st with elementsDouble := st.elementsDouble.insert key v }
  | _ => throwRuntime (lit "Persistent directories can only store string, int, float and boolean.")

/-- `PersistableDictionary::apply`. -/
def apply (r : Ref) (key : Str) (value : ValuePtr) (op : BinaryOpType) : M Unit := do
  let st ← valueCast Value.store? (some r)
  throwIf (st.elementsBool.contains key) (lit "Values need to be numerics")
  throwIf (st.elementsDouble.contains key) (lit "Values need to be numerics")
  throwIf (st.elementsString.contains key) (lit "Values need to be numerics")
  let target := (st.elementsInt.find? key).getD 0
  let put (i : Int64) := assign r fun st => { st with elementsInt := st.elementsInt.insert key i }
  match ← loadPtr value with
  | some (.integer _) =>
    match op with
    | .add => do put ((← unpackInteger value) + target)
    | .sub => do put (target - (← unpackInteger value))
    | .mult => do put (target * (← unpackInteger value))
    | _ => throwRuntime (lit "Unknown binary op")
  | _ => throwRuntime (lit "Values need to be numerics")

end Stepwise

end ContractPython
