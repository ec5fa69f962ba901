import ContractPython.Model.Blockchain

/-!
# Builtin functions

`Builtin::call`: `range`, `int`, `str`, `min`, `max`, `print` and `len`, with the widths
the arguments and results have there.
-/

namespace ContractPython

/-- `strtol(s.c_str(), &endptr, 10)`: blanks, a sign, digits; saturating at 64 bits. -/
def strtol (s : Str) : Int64 :=
  let isSpace (c : UInt8) : Bool := c == 32 || (9 ≤ c && c ≤ 13)
  let isDigit (c : UInt8) : Bool := 48 ≤ c && c ≤ 57
  let rest := (cStr s).dropWhile isSpace
  let negative := rest.head? == some 45
  let rest := if negative || rest.head? == some 43 then rest.tail else rest
  let n := (rest.takeWhile isDigit).foldl (fun (acc : Nat) c => acc * 10 + (c.toNat - 48)) 0
  if negative then Int64.ofInt (max (-(n : Int)) (-(2 ^ 63)))
  else Int64.ofInt (min (n : Int) (2 ^ 63 - 1))

namespace M

/-- `MemoryManager::create_integer`, whose parameter is an `int32_t`. -/
def createInteger (value : Int32) : M ValuePtr := create (.integer value.toInt64)

/-- `check_is_integer`. -/
def checkIsInteger (p : ValuePtr) : M Int64 := do
  match ← loadPtr p with
  | some (.integer i) => pure i
  | _ => throwRuntime (lit "Argument is not an integer")

/-- The `int` the builtin keeps of an integer argument. -/
def unpackInt (p : ValuePtr) : M Int32 := do
  let i ← unpackInteger p
  pure i.toInt32

/-- `range(...)`. -/
def callRange (args : List ValuePtr) : M ValuePtr :=
  match args with
  | [stop] => do
    let stop ← unpackInt stop
    create (.rangeIterator 0 stop 1)
  | [start, stop] => do
    let start ← unpackInt start
    let stop ← unpackInt stop
    create (.rangeIterator start stop 1)
  | [start, stop, step] => do
    let start ← unpackInt start
    let stop ← unpackInt stop
    let step ← unpackInt step
    create (.rangeIterator start stop step)
  | _ => throwRuntime (lit "Invalid number of arguments")

/-- `min(a, b)` and `max(a, b)`: the result passes through an `int`. -/
def callMinMax (choose : Int64 → Int64 → Int64) (args : List ValuePtr) : M ValuePtr :=
  match args with
  | [first, second] => do
    let i1 ← checkIsInteger first
    let i2 ← checkIsInteger second
    createInteger (choose i1 i2).toInt32
  | _ => throwRuntime (lit "Invalid number of arguments")

/-- `print_program_output`. -/
def printProgramOutput (out : Str) : M Unit := fun s =>
  .ok () { s with stdoutBuffer := s.stdoutBuffer ++ out }

/-- The loop of `print`; `sep` is what goes before the next argument. -/
def printArgs (sep : Str) : List ValuePtr → M Unit
  | [] => pure ()
  | arg :: rest => do
    let r ← assertGeneric arg
    match ← load r with
    | .string s => printProgramOutput (sep ++ s)
    | _ => do
      let s ← str r
      malloc
      printProgramOutput (sep ++ s)
    printArgs (lit " ") rest

/-- `Builtin::call`. -/
def callBuiltin (type : BuiltinType) (args : List ValuePtr) : M ValuePtr := do
  args.forM fun arg => do
    let _ ← assertGeneric arg
  match type, args with
  | .range, args => callRange args
  | .makeString, [arg] => do
    let r ← assertGeneric arg
    let s ← str r
    create (.string s)
  | .min, args => callMinMax min args
  | .max, args => callMinMax max args
  | .makeInt, [arg] => do
    let r ← assertGeneric arg
    match ← load r with
    | .integer _ => pure arg
    | .string s => create (.integer (strtol s))
    | _ => throwRuntime (lit "Can not convert to integer")
  | .length, [arg] => do
    let r ← assertGeneric arg
    let n ← liftExcept (← load r).size
    create (.integer (Int64.ofInt n.toNat))
  | .print, args => do
    throwIf args.isEmpty (lit "Invalid number of arguments")
    printArgs [] args
    printProgramOutput (lit "\n")
    pure none
  | _, _ => throwRuntime (lit "Invalid number of arguments")

end M

end ContractPython
