import ContractPython.Model.Library

/-!
# From the primitive steps to the operations

A property of computations that holds of the primitive steps on objects holds of every operation
on values, of every builtin and of the member functions that look no name up; one that holds of
reading and metering holds of whatever skips bytecode.
-/

namespace ContractPython.Proofs

open Program M

/-! ### Errors and results of the operators -/

/-- The exceptions that the code throws itself, and no lack of fuel or of stack. -/
def ordinary : Exn → Bool
  | .outOfFuel => false
  | .crash what => what != lit "stack overflow"
  | _ => true

lemma ne_outOfFuel_of_ordinary {e : Exn} (h : ordinary e = true) : e ≠ .outOfFuel := by
  rintro rfl
  cases h

lemma binaryOp_ordinary {op : BinaryOpType} {left right : Value} {e : Exn}
    (h : Value.binaryOp op left right = .error e) : ordinary e = true := by
  unfold Value.binaryOp at h
  repeat' split at h
  all_goals cases h
  all_goals rfl

lemma unaryOp_ordinary {op : UnaryOpType} {operand : Value} {e : Exn}
    (h : Value.unaryOp op operand = .error e) : ordinary e = true := by
  unfold Value.unaryOp at h
  repeat' split at h
  all_goals cases h
  all_goals rfl

lemma insert_ordinary {st : Store} {key : Str} {value : Value} {e : Exn}
    (h : st.insert key value = .error e) : ordinary e = true := by
  unfold Store.insert at h
  dsimp only at h
  split at h
  all_goals cases h
  rfl

lemma apply_ordinary {st : Store} {key : Str} {value : Option Value} {op : BinaryOpType} {e : Exn}
    (h : st.apply key value op = .error e) : ordinary e = true := by
  unfold Store.apply at h
  repeat' split at h
  all_goals cases h
  all_goals rfl

lemma size_ordinary {v : Value} {e : Exn} (h : v.size = .error e) : ordinary e = true := by
  unfold Value.size at h
  split at h
  all_goals cases h
  rfl

lemma seedKeys_ordinary {keys : List Str} {prng : Prng} {e : Exn}
    (h : keys.foldlM (fun p key => p.seedBytes key) prng = .error e) : ordinary e = true := by
  induction keys generalizing prng with
  | nil => cases h
  | cons key keys ih =>
    rw [List.foldlM_cons] at h
    unfold Prng.seedBytes at h
    split at h
    · cases h
      rfl
    · exact ih h

lemma binaryOp_not_generator {op : BinaryOpType} {left right v : Value}
    (h : Value.binaryOp op left right = .ok v) : v.isGenerator = false := by
  unfold Value.binaryOp at h
  repeat' split at h
  all_goals cases h
  all_goals rfl

lemma unaryOp_not_generator {op : UnaryOpType} {operand v : Value}
    (h : Value.unaryOp op operand = .ok (some v)) : v.isGenerator = false := by
  unfold Value.unaryOp at h
  repeat' split at h
  all_goals cases h
  all_goals rfl

lemma storeGet_not_generator {st : Store} {key : Str} {v : Value} (h : st.get? key = some v) :
    v.isGenerator = false := by
  unfold Store.get? at h
  split at h
  · cases h
    rfl
  · split at h
    · cases h
      rfl
    · split at h
      · cases h
        rfl
      · obtain ⟨b, -, rfl⟩ := Option.map_eq_some_iff.mp h
        rfl

/-! ### The closure conditions -/

/-- `get_module` makes the `rand` module when it is asked for it first. -/
def loadRand : M Ref := do
  let module ← alloc .randModule
  addModule (lit "rand") module
  pure module

lemma loadRand_of_steps {Φ : ∀ α : Type, M α → Prop} (h : Sequential Φ) (hmalloc : Φ _ malloc)
    (hmake : Φ _ (makeShared .randModule)) (hadd : ∀ module, Φ _ (addModule (lit "rand") module)) :
    Φ _ loadRand :=
  h.bind (h.bind hmalloc fun _ => hmake) fun module => h.bind (hadd module) fun _ => h.pure module

/-- The containers a program fills. -/
def Value.isContainer : Value → Bool
  | .list _ | .tuple _ | .dictionary _ => true
  | _ => false

/-- The closure conditions of making objects, looking at them and filling containers. -/
structure Objects (Φ : ∀ α : Type, M α → Prop) : Prop extends Sequential Φ where
  throw : ∀ {α : Type} (e : Exn), ordinary e = true → Φ α (throw e)
  malloc : Φ _ malloc
  makeShared : ∀ v, v.isGenerator = false → Φ _ (makeShared v)
  load : ∀ r, Φ _ (load r)
  fill : ∀ r v, Value.isContainer v = true → Φ _ (storeAt r v)
  findModule : ∀ name, Φ _ (findModule name)
  loadRand : Φ _ loadRand

/-- The closure conditions of all steps on objects and modules. -/
structure Values (Φ : ∀ α : Type, M α → Prop) : Prop extends Sequential Φ where
  throw : ∀ {α : Type} (e : Exn), ordinary e = true → Φ α (throw e)
  malloc : Φ _ malloc
  makeShared : ∀ v, Φ _ (makeShared v)
  load : ∀ r, Φ _ (load r)
  storeAt : ∀ r v, v.store? = none → Φ _ (storeAt r v)
  writeStore : ∀ r st, Φ _ (writeStore r st)
  str : ∀ r, Φ _ (str r)
  getChain : Φ _ getChain
  checkAddress : ∀ a, Φ _ (checkAddress a)
  rand : Φ _ rand
  printProgramOutput : ∀ out, Φ _ (printProgramOutput out)
  findModule : ∀ name, Φ _ (findModule name)
  loadRand : Φ _ loadRand
  catchStop : ∀ r, Φ _ (next r) → Φ _ (tryNext r)

/-- The closure conditions of metering and reading. -/
structure Reading (Φ : ∀ α : Type, M α → Prop) : Prop extends Sequential Φ where
  throw : ∀ {α : Type} (e : Exn), ordinary e = true → Φ α (throw e)
  charge : Φ _ charge
  readWord : Φ _ readWord
  readString : Φ _ readString
  peekType : Φ _ peekType

namespace Objects

variable {Φ : ∀ α : Type, M α → Prop} (h : Objects Φ)
include h

/-! ### Objects -/

lemma throwRuntime {α : Type} (what : Str) : Φ α (throwRuntime what) := h.throw _ rfl

lemma throwIf (cond : Bool) (what : Str) : Φ _ (throwIf cond what) := by
  cases cond
  · exact h.pure ()
  · exact h.throw _ rfl

lemma alloc (v : Value) (hv : v.isGenerator = false) : Φ _ (alloc v) :=
  h.bind h.malloc fun _ => h.makeShared v hv

lemma liftExcept {α : Type} {x : Except Exn α} (hx : ∀ e, x = .error e → ordinary e = true) :
    Φ _ (M.liftExcept x) := by
  cases x with
  | ok a => exact h.pure a
  | error e => exact h.throw e (hx e rfl)

lemma create (v : Value) (hv : v.isGenerator = false) : Φ _ (create v) :=
  h.bind (h.alloc v hv) fun _ => h.pure _

/-- An object that an operator makes. -/
lemma createResult {x : Except Exn Value} (hx : ∀ e, x = .error e → ordinary e = true)
    (hv : ∀ v, x = .ok v → v.isGenerator = false) :
    Φ _ (do
      let v ← M.liftExcept x
      M.create v) := by
  cases x with
  | ok v =>
    show Φ _ (M.create v)
    exact h.create v (hv v rfl)
  | error e =>
    show Φ _ (MonadExcept.throw e)
    exact h.throw e (hx e rfl)

lemma assertGeneric (p : ValuePtr) : Φ _ (assertGeneric p) := by
  cases p with
  | none => exact h.throw _ rfl
  | some r => exact h.pure r

lemma valueCast {α : Type} (proj : Value → Option α) (p : ValuePtr) : Φ _ (valueCast proj p) := by
  cases p with
  | none => exact h.throw _ rfl
  | some r =>
    refine h.bind (h.load r) fun v => ?_
    split
    · exact h.pure _
    · exact h.throw _ rfl

lemma loadPtr (p : ValuePtr) : Φ _ (loadPtr p) := by
  cases p with
  | none => exact h.pure _
  | some r => exact h.bind (h.load r) fun _ => h.pure _

/-! ### Containers -/

lemma integerAt (p : ValuePtr) : Φ _ (integerAt p) := by
  cases p with
  | none => exact h.pure _
  | some r =>
    refine h.bind (h.load r) fun v => ?_
    split
    · exact h.pure _
    · exact h.pure _

lemma listGet (elements : List ValuePtr) (index : Int64) : Φ _ (listGet elements index) := by
  unfold M.listGet
  split
  · exact h.pure _
  · exact h.throw _ rfl

lemma listSet (r : Ref) (index : Int64) (val : ValuePtr) : Φ _ (listSet r index val) := by
  refine h.bind (h.valueCast _ _) fun elements => ?_
  split
  · exact h.fill _ _ rfl
  · exact h.throw _ rfl

lemma listAppend (r : Ref) (val : ValuePtr) : Φ _ (listAppend r val) :=
  h.bind (h.valueCast _ _) fun _ => h.fill _ _ rfl

lemma tupleGet (content : List ValuePtr) (pos : UInt32) : Φ _ (tupleGet content pos) := by
  unfold M.tupleGet
  split
  · exact h.pure _
  · exact h.throw _ rfl

lemma tupleAppend (r : Ref) (val : ValuePtr) : Φ _ (tupleAppend r val) :=
  h.bind (h.valueCast _ _) fun _ => h.fill _ _ rfl

lemma dictInsert (r : Ref) (key : Str) (value : ValuePtr) : Φ _ (dictInsert r key value) :=
  h.bind (h.valueCast _ _) fun _ => h.fill _ _ rfl

lemma storeGet (st : Store) (key : Str) : Φ _ (storeGet st key) := by
  unfold M.storeGet
  split
  · rename_i v hget
    exact h.create v (storeGet_not_generator hget)
  · exact h.pure _

lemma listContains (value : Value) (l : List ValuePtr) : Φ _ (listContains value l) := by
  induction l with
  | nil => exact h.pure _
  | cons elem rest ih =>
    refine h.bind (h.assertGeneric elem) fun r => h.bind (h.load r) fun v => ?_
    split
    · exact h.pure _
    · exact ih

lemma getMember (r : Ref) (name : Str) : Φ _ (getMember r name) := by
  refine h.bind (h.load r) fun v => ?_
  split
  · split
    · exact h.create _ rfl
    · exact h.throw _ rfl
  · split
    · exact h.create _ rfl
    · exact h.throw _ rfl
  · split
    · exact h.create _ rfl
    · exact h.throw _ rfl
  · split
    · exact h.pure _
    · exact h.throw _ rfl
  · exact h.throw _ rfl

/-! ### Modules and operators -/

lemma createInteger (value : Int32) : Φ _ (createInteger value) := h.create _ rfl

lemma getModule (name : Str) : Φ _ (getModule name) := by
  refine h.bind (h.findModule name) fun module => ?_
  split
  · exact h.pure _
  · split
    · rename_i hname
      rw [hname]
      exact h.loadRand
    · exact h.throw _ rfl

lemma binaryOp (op : BinaryOpType) (left right : ValuePtr) : Φ _ (binaryOp op left right) := by
  unfold M.binaryOp
  split
  all_goals first
    | exact h.throw _ rfl
    | exact h.bind (h.assertGeneric _) fun _ => h.bind (h.assertGeneric _) fun _ =>
        h.bind (h.load _) fun _ => h.bind (h.load _) fun _ =>
        h.createResult (fun _ => binaryOp_ordinary) fun _ => binaryOp_not_generator

lemma compareWith (test : Value → Value → Bool) (onNull : Bool → Bool) (current rval : ValuePtr) :
    Φ _ (compareWith test onNull current rval) := by
  unfold M.compareWith
  split
  · exact h.bind (h.load _) fun _ => h.bind (h.load _) fun _ => h.pure _
  · exact h.pure _

lemma containedIn (current rval : ValuePtr) : Φ _ (containedIn current rval) := by
  refine h.bind (h.assertGeneric rval) fun r => h.bind (h.load r) fun v => ?_
  split
  · exact h.bind (h.assertGeneric current) fun c => h.bind (h.load c) fun _ => h.listContains _ _
  · exact h.throw _ rfl

lemma compareOp (op : CompareOpType) (current rval : ValuePtr) : Φ _ (compareOp op current rval) := by
  unfold M.compareOp
  split
  · exact h.compareWith _ _ _ _
  · exact h.compareWith _ _ _ _
  · exact h.compareWith _ _ _ _
  · exact h.containedIn _ _
  · exact h.compareWith _ _ _ _
  · exact h.bind (h.containedIn _ _) fun _ => h.pure _
  · exact h.compareWith _ _ _ _
  · exact h.compareWith _ _ _ _
  · exact h.throw _ rfl

lemma boolTest (p : ValuePtr) : Φ _ (boolTest p) := by
  refine h.bind (h.loadPtr p) fun v => ?_
  split
  · exact h.pure _
  · exact h.pure _

lemma castIterator (p : ValuePtr) : Φ _ (castIterator p) := by
  cases p with
  | none => exact h.throw _ rfl
  | some r =>
    refine h.bind (h.load r) fun v => ?_
    split
    · exact h.pure _
    · exact h.throw _ rfl

lemma dictKey (index : Ref) : Φ _ (dictKey index) := by
  refine h.bind (h.load index) fun v => ?_
  split
  · exact h.pure _
  · exact h.throw _ rfl

lemma listKey (index : Ref) : Φ _ (listKey index) := by
  refine h.bind (h.load index) fun v => ?_
  split
  · exact h.pure _
  · exact h.throw _ rfl

lemma subscriptTarget (name : Str) (obj : ValuePtr) : Φ _ (subscriptTarget name obj) := by
  cases obj with
  | none => exact h.throw _ rfl
  | some r => exact h.pure r

end Objects

namespace Values

variable {Φ : ∀ α : Type, M α → Prop} (h : Values Φ)
include h

lemma objects : Objects Φ where
  toSequential := h.toSequential
  throw := h.throw
  malloc := h.malloc
  makeShared v _ := h.makeShared v
  load := h.load
  fill r v hv := h.storeAt r v (by cases v <;> simp_all [Value.isContainer, Value.store?])
  findModule := h.findModule
  loadRand := h.loadRand

lemma alloc (v : Value) : Φ _ (alloc v) := h.bind h.malloc fun _ => h.makeShared v

lemma create (v : Value) : Φ _ (create v) := h.bind (h.alloc v) fun _ => h.pure _

/-! ### Writing to objects -/

lemma updateInteger (target value : ValuePtr) (f : Int64 → Int64 → Int64) :
    Φ _ (updateInteger target value f) := by
  refine h.bind (h.objects.integerAt target) fun t => h.bind (h.objects.integerAt value) fun v => ?_
  split
  · exact h.storeAt _ _ rfl
  · exact h.throw _ rfl

lemma listApply (r : Ref) (index : Int64) (value : ValuePtr) (op : BinaryOpType) :
    Φ _ (listApply r index value op) := by
  refine h.bind (h.objects.valueCast _ _) fun elements => ?_
  split
  · exact h.throw _ rfl
  · refine h.bind (h.objects.integerAt _) fun t => h.bind (h.objects.integerAt value) fun v => ?_
    split
    · split
      · exact h.updateInteger _ _ _
      · exact h.updateInteger _ _ _
      · exact h.updateInteger _ _ _
      · exact h.throw _ rfl
    · exact h.throw _ rfl

lemma dictApply (r : Ref) (key : Str) (value : ValuePtr) (op : BinaryOpType) :
    Φ _ (dictApply r key value op) := by
  refine h.bind (h.objects.valueCast _ _) fun elements => h.bind (h.objects.integerAt value) fun v => ?_
  split
  · exact h.throw _ rfl
  · split
    · split
      · exact h.storeAt _ _ rfl
      · exact h.bind (h.storeAt _ _ rfl) fun _ => h.storeAt _ _ rfl
      · exact h.bind (h.create _) fun _ => h.storeAt _ _ rfl
      · exact h.throw _ rfl
    · refine h.bind (h.load _) fun v => ?_
      split
      · split
        · exact h.updateInteger _ _ _
        · exact h.updateInteger _ _ _
        · exact h.updateInteger _ _ _
        · exact h.throw _ rfl
      · exact h.throw _ rfl

lemma storeInsert (r : Ref) (key : Str) (value : Ref) : Φ _ (storeInsert r key value) :=
  h.bind (h.objects.valueCast _ _) fun _ => h.bind (h.load value) fun _ =>
    h.bind (h.objects.liftExcept (fun _ => insert_ordinary)) fun _ => h.writeStore _ _

lemma storeApply (r : Ref) (key : Str) (value : ValuePtr) (op : BinaryOpType) :
    Φ _ (storeApply r key value op) :=
  h.bind (h.objects.valueCast _ _) fun _ => h.bind (h.objects.loadPtr value) fun _ =>
    h.bind (h.objects.liftExcept (fun _ => apply_ordinary)) fun _ => h.writeStore _ _

/-! ### Iterators -/

lemma iterate (r : Ref) (v : Value) : Φ _ (iterate r v) := by
  unfold M.iterate
  split
  · exact h.create _
  · exact h.create _
  · exact h.throw _ rfl

lemma next (r : Ref) : Φ _ (next r) := by
  refine h.bind (h.load r) fun v => ?_
  split
  · refine h.bind (h.objects.valueCast _ _) fun elements => ?_
    split
    · exact h.throw _ rfl
    · exact h.bind (h.objects.listGet _ _) fun _ => h.bind (h.storeAt _ _ rfl) fun _ => h.pure _
  · split
    · exact h.throw _ rfl
    · exact h.bind (h.create _) fun _ => h.bind (h.storeAt _ _ rfl) fun _ => h.pure _
  · refine h.bind (h.objects.valueCast _ _) fun elements => ?_
    split
    · exact h.throw _ rfl
    · exact h.bind (h.create _) fun _ => h.bind (h.create _) fun _ =>
        h.bind (h.storeAt _ _ rfl) fun _ => h.pure _
  · refine h.bind (h.objects.valueCast _ _) fun elements => ?_
    split
    · exact h.throw _ rfl
    · exact h.bind (h.storeAt _ _ rfl) fun _ => h.pure _
  · exact h.throw _ rfl

lemma tryNext (r : Ref) : Φ _ (tryNext r) := h.catchStop r (h.next r)

lemma loopIterator (obj : ValuePtr) : Φ _ (loopIterator obj) := by
  refine h.bind (h.objects.assertGeneric obj) fun r => h.bind (h.load r) fun v => ?_
  split
  · exact h.pure _
  · split
    · exact h.bind (h.iterate _ _) fun _ => h.objects.castIterator _
    · exact h.throw _ rfl

lemma augmentName (op : BinaryOpType) (target value : ValuePtr) :
    Φ _ (augmentName op target value) := by
  unfold M.augmentName
  split
  · exact h.updateInteger _ _ _
  · exact h.updateInteger _ _ _
  · exact h.updateInteger _ _ _
  · exact h.throw _ rfl

/-! ### The blockchain module -/

lemma creditReceiver (hset : ∀ sendMap balance, Φ _ (setFunds sendMap balance)) (a : Str)
    (amount : UInt64) (overflow : Str) : Φ _ (creditReceiver a amount overflow) := by
  refine h.bind h.getChain fun chain => ?_
  split
  · exact h.bind (hset _ _) fun _ => h.objects.throwIf _ _
  · exact hset _ _

lemma unpackInteger (p : ValuePtr) : Φ _ (unpackInteger p) := by
  refine h.bind (h.objects.loadPtr p) fun v => ?_
  split
  · exact h.pure _
  · exact h.throw _ rfl

lemma seeded (prng : Prng) : Φ _ (seeded prng) := by
  refine h.bind h.getChain fun chain => ?_
  split
  · exact h.pure _
  · exact h.objects.liftExcept (fun _ => seedKeys_ordinary)

lemma getRandom (module : Ref) : Φ _ (getRandom module) := by
  refine h.bind (h.load module) fun v => ?_
  split
  · exact h.bind (h.seeded _) fun _ => h.bind (h.storeAt _ _ rfl) fun _ => h.create _
  · exact h.throw _ rfl

lemma newBlockchainModule : Φ _ newBlockchainModule :=
  h.bind (h.alloc _) fun module =>
    h.bind (h.foldlM (fun _ _ => h.bind (h.alloc _) fun _ => h.pure _) _ _) fun _ =>
    h.bind (h.storeAt _ _ rfl) fun _ => h.pure module

lemma randint (args : List ValuePtr) : Φ _ (randint args) := by
  unfold M.randint
  split
  · exact h.bind (h.objects.valueCast _ _) fun _ => h.bind (h.objects.valueCast _ _) fun _ =>
      h.bind (h.objects.throwIf _ _) fun _ => h.bind h.rand fun _ => h.create _
  · exact h.throw _ rfl

/-! ### Builtin functions -/

lemma unpackInt (p : ValuePtr) : Φ _ (unpackInt p) := h.bind (h.unpackInteger p) fun _ => h.pure _

lemma callRange (args : List ValuePtr) : Φ _ (callRange args) := by
  unfold M.callRange
  split
  · exact h.bind (h.unpackInt _) fun _ => h.create _
  · exact h.bind (h.unpackInt _) fun _ => h.bind (h.unpackInt _) fun _ => h.create _
  · exact h.bind (h.unpackInt _) fun _ => h.bind (h.unpackInt _) fun _ =>
      h.bind (h.unpackInt _) fun _ => h.create _
  · exact h.throw _ rfl

lemma checkIsInteger (p : ValuePtr) : Φ _ (checkIsInteger p) := by
  refine h.bind (h.objects.loadPtr p) fun v => ?_
  split
  · exact h.pure _
  · exact h.throw _ rfl

lemma callMinMax (choose : Int64 → Int64 → Int64) (args : List ValuePtr) :
    Φ _ (callMinMax choose args) := by
  unfold M.callMinMax
  split
  · exact h.bind (h.checkIsInteger _) fun _ => h.bind (h.checkIsInteger _) fun _ =>
      h.objects.createInteger _
  · exact h.throw _ rfl

lemma printArgs (sep : Str) (args : List ValuePtr) : Φ _ (printArgs sep args) := by
  induction args generalizing sep with
  | nil => exact h.pure _
  | cons arg rest ih =>
    refine h.bind (h.objects.assertGeneric arg) fun r => h.bind (h.load r) fun v => ?_
    split
    · exact h.bind (h.printProgramOutput _) fun _ => ih _
    · exact h.bind (h.str r) fun _ => h.bind h.malloc fun _ =>
        h.bind (h.printProgramOutput _) fun _ => ih _

lemma callBuiltin (type : BuiltinType) (args : List ValuePtr) : Φ _ (callBuiltin type args) := by
  refine h.bind (h.forM (fun arg => h.bind (h.objects.assertGeneric arg) fun _ => h.pure _) _) fun _ => ?_
  split
  · exact h.callRange _
  · exact h.bind (h.objects.assertGeneric _) fun r => h.bind (h.str r) fun _ => h.create _
  · exact h.callMinMax _ _
  · exact h.callMinMax _ _
  · refine h.bind (h.objects.assertGeneric _) fun r => h.bind (h.load r) fun v => ?_
    split
    · exact h.pure _
    · exact h.create _
    · exact h.throw _ rfl
  · exact h.bind (h.objects.assertGeneric _) fun r => h.bind (h.load r) fun _ =>
      h.bind (h.objects.liftExcept (fun _ => size_ordinary)) fun _ => h.create _
  · exact h.bind (h.objects.throwIf _ _) fun _ => h.bind (h.printArgs _ _) fun _ =>
      h.bind (h.printProgramOutput _) fun _ => h.pure _
  · exact h.throw _ rfl

end Values

namespace Reading

variable {Φ : ∀ α : Type, M α → Prop} (h : Reading Φ)
include h

/-! ### Reading and skipping -/

lemma throwIf (cond : Bool) (what : Str) : Φ _ (M.throwIf cond what) := by
  cases cond
  · exact h.pure ()
  · exact h.throw _ rfl

lemma readType : Φ _ readType := h.bind h.readWord fun _ => h.pure _

lemma readName : Φ _ readName := by
  refine h.bind h.readType fun type => ?_
  split
  · exact h.readString
  · exact h.readString
  · exact h.throw _ rfl

lemma readNames : Φ _ readNames := by
  refine h.bind h.readType fun type => ?_
  split
  · exact h.bind h.readString fun _ => h.pure _
  · exact h.bind h.readString fun _ => h.pure _
  · exact h.bind h.readWord fun _ => h.bind (h.throwIf _ _) fun _ =>
      h.bind h.readName fun _ => h.bind h.readName fun _ => h.pure _
  · exact h.throw _ rfl

section Congruent

variable {Ψ : ∀ α : Type, M α → M α → Prop} (hc : Congruence Ψ) (hr : Reading fun α x => Ψ α x x)
omit h
include hc hr

lemma chargedLoop {body body' : M Unit} (hbody : Ψ _ body body') :
    Ψ _ (M.chargedLoop body) (M.chargedLoop body') :=
  hc.bind hr.readWord fun _ => hc.iterateM (fun _ => hc.bind hr.charge fun _ => hbody) _ _

/-- Skipping with two recursive calls that are related. -/
lemma skipNode_related (skip skip' : M Unit) (hskip : Ψ _ skip skip') (type : NodeType) :
    Ψ _ (M.skipNode skip type) (M.skipNode skip' type) := by
  have string : Ψ Unit (do let _ ← M.readString) (do let _ ← M.readString) :=
    hc.bind hr.readString fun _ => hc.pure _
  have two : Ψ Unit (do skip; skip) (do skip'; skip') := hc.bind hskip fun _ => hskip
  cases type with
  | pass | «break» | «continue» => exact hc.pure _
  | name | string => exact string
  | forLoop => exact hc.bind hr.readNames fun _ => two
  | whileLoop | «if» | «attribute» | subscript => exact two
  | assign | call => exact hc.bind hskip fun _ => chargedLoop hc hr hskip
  | statementList | list | tuple => exact chargedLoop hc hr hskip
  | index | «return» => exact hskip
  | compare =>
    exact hc.bind hskip fun _ => chargedLoop hc hr (hc.bind hr.readWord fun _ => hskip)
  | integer => exact hc.bind hr.readWord fun _ => hc.pure _
  | ifElse => exact hc.bind hskip fun _ => two
  | dictionary => exact chargedLoop hc hr two
  | unaryOp => exact hc.bind hr.readWord fun _ => hskip
  | boolOp => exact hc.bind hr.readWord fun _ => chargedLoop hc hr hskip
  | augmentedAssign | binaryOp => exact hc.bind hr.readWord fun _ => two
  | _ => exact hr.throw _ rfl

end Congruent

lemma skipNode {skip : M Unit} (hskip : Φ _ skip) (type : NodeType) : Φ _ (skipNode skip type) :=
  skipNode_related (Ψ := fun α x _ => Φ α x) ⟨h.pure, h.bind⟩ h skip skip hskip type

lemma skipFuel (hstuck : Φ _ (M.skipFuel 0)) (n : Nat) : Φ _ (skipFuel n) := by
  induction n with
  | zero => exact hstuck
  | succ n ih => exact h.bind h.readType fun type => h.skipNode ih type

end Reading

end ContractPython.Proofs
