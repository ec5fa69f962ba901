import ContractPython.Model.State

/-!
# The source reader

`StringReader` in `Compiler.cpp`, which hands the parser the lines of a source.
-/

namespace ContractPython

/-- `'\n'`. -/
def newline : UInt8 := 10

/-- The lines are never empty: the constructor pushes one behind its loop. -/
structure StringReader where
  linePos : UInt32
  code : List Str
  nonempty : code ≠ []

namespace StringReader

/-- `code.find_first_of('\n', last_pos)`. -/
def findNewline (code : Str) (lastPos : Nat) : Option Nat :=
  ((code.drop lastPos).findIdx? (· == newline)).map (lastPos + ·)

/-- The loop of the constructor from `last_pos` on, and the push behind it. Each round takes a byte
at least, so that `code.length` rounds are enough. -/
def lines (code : Str) : Nat → Nat → List Str
  | 0, lastPos => [(code.drop lastPos).take (code.length - lastPos)]
  | rounds + 1, lastPos =>
    match findNewline code lastPos with
    | some pos => (code.drop lastPos).take (pos + 1 - lastPos) :: lines code rounds (pos + 1)
    | none => [(code.drop lastPos).take (code.length - lastPos)]

lemma lines_ne_nil (code : Str) (rounds lastPos : Nat) : lines code rounds lastPos ≠ [] := by
  cases rounds with
  | zero => exact List.cons_ne_nil _ _
  | succ rounds =>
    unfold lines
    split <;> exact List.cons_ne_nil _ _

/-- `StringReader(code)`. -/
def ofSource (code : Str) : StringReader := ⟨0, lines code code.length 0, lines_ne_nil _ _ _⟩

def getLineNumber (reader : StringReader) : UInt32 := reader.linePos

def getLine (reader : StringReader) (idx : Nat) : Except Exn Str :=
  if reader.code.length - 1 < idx then .error (.runtimeError (lit "mailicious input"))
  else .ok (reader.code.getD idx [])

def eof (reader : StringReader) : Bool := reader.linePos.toNat == reader.code.length

def nextLine (reader : StringReader) : Str × StringReader :=
  if reader.eof then ([], reader)
  else (reader.code.getD reader.linePos.toNat [], { reader with linePos := reader.linePos + 1 })

end StringReader

end ContractPython
