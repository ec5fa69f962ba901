import ContractPython.Model.State

/-!
# Scopes

`Scope.cpp`: name lookup along the parents, assignment, the `global` tags and the
`terminated` flag a return statement sets.
-/

namespace ContractPython

namespace Scope

/-- The `Scope` object behind a frame number. -/
def frame (frames : List Frame) (id : Nat) : Frame := frames.getD id .empty

/-- `has_value`: the parents are asked first. -/
def hasValue (frames : List Frame) : ScopeRef → Str → Bool
  | [], _ => false
  | id :: parents, name => hasValue frames parents name || (frame frames id).values.contains name

/-- `set_value`. Without `require_global` a name known to a parent is set there; with it
only a name tagged `global` goes to the parent. -/
def setValue (frames : List Frame) : ScopeRef → Str → ValuePtr → List Frame
  | [], _, _ => frames
  | id :: parents, name, value =>
    let f := frame frames id
    if !f.requireGlobal && !parents.isEmpty && hasValue frames parents name then
      setValue frames parents name value
    else if f.requireGlobal && f.globalTags.contains name && !parents.isEmpty then
      setValue frames parents name value
    else frames.set id { f with values := f.values.insert name value }

/-- The lookup part of `get_value`: the innermost scope that binds the name. -/
def findValue (frames : List Frame) : ScopeRef → Str → Option ValuePtr
  | [], _ => none
  | id :: parents, name =>
    match (frame frames id).values.find? name with
    | some value => some value
    | none => findValue frames parents name

/-- The frames of a scope that bind a name. -/
def binders (frames : List Frame) (scope : ScopeRef) (name : Str) : List Nat :=
  scope.filter fun id => (frame frames id).values.contains name

/-- What `set_value` does on its way, for the log: the questions to the parents, then the
frame that takes the binding. -/
def setEvents (frames : List Frame) : ScopeRef → Str → List Event
  | [], _ => []
  | id :: parents, name =>
    let f := frame frames id
    let asked := if !f.requireGlobal && !parents.isEmpty then
      [.nameTested (binders frames parents name)] else []
    if !f.requireGlobal && !parents.isEmpty && hasValue frames parents name then
      setEvents frames parents name ++ asked
    else if f.requireGlobal && f.globalTags.contains name && !parents.isEmpty then
      setEvents frames parents name
    else .nameBound id :: asked

/-- The reserved names `get_value` answers with a fresh `Builtin`. -/
def builtinNamed (name : Str) : Option BuiltinType :=
  if name = lit "range" then some .range
  else if name = lit "int" then some .makeInt
  else if name = lit "str" then some .makeString
  else if name = lit "print" then some .print
  else if name = lit "len" then some .length
  else if name = lit "min" then some .min
  else if name = lit "max" then some .max
  else none

/-- `get_depth`. -/
def depth (scope : ScopeRef) : Nat := scope.length - 1

end Scope

namespace M

/-- The value a name has in a scope or the nearest of its parents. -/
def findValue (scope : ScopeRef) (name : Str) : M (Option ValuePtr) := fun s =>
  .ok (Scope.findValue s.frames scope name)
    { s with log := .nameFound (Scope.binders s.frames scope name).head? :: s.log }

/-- `Scope::get_value`. -/
def getValue (scope : ScopeRef) (name : Str) : M ValuePtr :=
  if name = lit "None" then pure none
  else
    match Scope.builtinNamed name with
    | some type => create (.builtin type)
    | none => do
      match ← findValue scope name with
      | some value => pure value
      | none => throwRuntime (lit "No such value: " ++ name)

/-- `Scope::set_value`. -/
def setValue (scope : ScopeRef) (name : Str) (value : ValuePtr) : M Unit := fun s =>
  .ok () { s with
    frames := Scope.setValue s.frames scope name value
    log := Scope.setEvents s.frames scope name ++ s.log }

/-- `Scope::has_value`. -/
def hasValue (scope : ScopeRef) (name : Str) : M Bool := fun s =>
  .ok (Scope.hasValue s.frames scope name)
    { s with log := .nameTested (Scope.binders s.frames scope name) :: s.log }

/-- Changes the `Scope` object itself. -/
def modifyScope (scope : ScopeRef) (f : Frame → Frame) : M Unit := fun s =>
  match scope with
  | [] => .ok () s
  | id :: _ => .ok () { s with frames := s.frames.set id (f (Scope.frame s.frames id)) }

/-- `Scope::set_global_tag`. -/
def setGlobalTag (scope : ScopeRef) (name : Str) : M Unit :=
  modifyScope scope fun f => { f with globalTags := name :: f.globalTags }

/-- `Scope::terminate`. -/
def terminate (scope : ScopeRef) : M Unit := modifyScope scope fun f => { f with terminated := true }

/-- `Scope::require_global`. -/
def requireGlobal (scope : ScopeRef) : M Unit :=
  modifyScope scope fun f => { f with requireGlobal := true }

/-- `Scope::is_terminated`. -/
def isTerminated (scope : ScopeRef) : M Bool := fun s =>
  match scope with
  | [] => .ok false s
  | id :: _ => .ok (Scope.frame s.frames id).terminated s

/-- A `Scope` object that lives while `body` runs. -/
def withFrame {α : Type} (body : Nat → M α) : M α := fun s =>
  match body s.frames.length { s with frames := s.frames ++ [.empty] } with
  | .ok a s' => .ok a { s' with frames := s'.frames.take s.frames.length }
  | .error e s' => .error e { s' with frames := s'.frames.take s.frames.length }

/-- `Scope body_scope(memory_manager(), scope);` and the rest of its block. -/
def withScope {α : Type} (parent : ScopeRef) (body : ScopeRef → M α) : M α :=
  if 128 ≤ parent.length then
    throwRuntime (lit "You have exceeded the maximum recursion depth of 128")
  else withFrame fun id => body (id :: parent)

end M

end ContractPython
