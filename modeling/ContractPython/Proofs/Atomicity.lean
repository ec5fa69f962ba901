import ContractPython.Model.PersistableDictionary
import ContractPython.Proofs.Steps

/-!
# Failed updates of containers

Every update of a list, a dictionary or a persistable dictionary makes its checks before its first
change, so one that throws leaves the objects, and with them the storage of the contract, as they
were. The persistable dictionary is updated statement by statement here; on a persistable
dictionary these statements are the update the interpreter makes.
-/

namespace ContractPython.Proofs

open Program M

/-! ### Checks -/

lemma readsOnly_load (r : Ref) : ReadsOnly _ (load r) :=
  Relates.of_unchanged (Q := fun _ s s' => s' = s) id (fun _ _ => rfl) (finalState_load r)

lemma readsOnly_throwRuntime {α : Type} (what : Str) : ReadsOnly α (throwRuntime what) :=
  readsOnly_compositional.throw _

lemma readsOnly_throwIf (cond : Bool) (what : Str) : ReadsOnly _ (throwIf cond what) := by
  cases cond
  · exact readsOnly_compositional.pure ()
  · exact readsOnly_throwRuntime what

lemma readsOnly_valueCast {α : Type} (proj : Value → Option α) (p : ValuePtr) :
    ReadsOnly _ (valueCast proj p) := by
  cases p with
  | none => exact readsOnly_compositional.throw _
  | some r =>
    apply readsOnly_compositional.bind (readsOnly_load r)
    intro v
    cases proj v with
    | none => exact readsOnly_compositional.throw _
    | some a => exact readsOnly_compositional.pure a

lemma readsOnly_loadPtr (p : ValuePtr) : ReadsOnly _ (loadPtr p) := by
  cases p with
  | none => exact readsOnly_compositional.pure none
  | some r =>
    apply readsOnly_compositional.bind (readsOnly_load r)
    intro v
    exact readsOnly_compositional.pure (some v)

lemma readsOnly_integerAt (p : ValuePtr) : ReadsOnly _ (integerAt p) := by
  cases p with
  | none => exact readsOnly_compositional.pure none
  | some r =>
    apply readsOnly_compositional.bind (readsOnly_load r)
    intro v
    cases v <;> exact readsOnly_compositional.pure _

lemma readsOnly_unpackInteger (p : ValuePtr) : ReadsOnly _ (unpackInteger p) := by
  apply readsOnly_compositional.bind (readsOnly_loadPtr p)
  intro v
  split
  · exact readsOnly_compositional.pure _
  · exact readsOnly_throwRuntime _

lemma readsOnly_unpackFloat (r : Ref) : ReadsOnly _ (unpackFloat r) := by
  apply readsOnly_compositional.bind (readsOnly_load r)
  intro v
  split
  · exact readsOnly_compositional.pure _
  · exact readsOnly_compositional.pure _
  · exact readsOnly_compositional.throw _

lemma heap_of_valueCast {α : Type} {proj : Value → Option α} {r : Ref} {a : α} {s s' : State}
    (h : valueCast proj (some r) s = .ok a s') : ∃ v, s.heap[r]? = some v ∧ proj v = some a := by
  obtain ⟨v, s₁, hload, hproj⟩ := bind_eq_ok.mp h
  obtain ⟨hr, -⟩ := load_eq_ok.mp hload
  refine ⟨v, hr, ?_⟩
  cases hv : proj v with
  | none => simp [hv] at hproj
  | some a' =>
    simp only [hv, pure_eq_ok] at hproj
    rw [hproj.1]

lemma list_of_valueCast {r : Ref} {elements : List ValuePtr} {s s' : State}
    (h : valueCast Value.list? (some r) s = .ok elements s') : s.heap[r]? = some (.list elements) := by
  obtain ⟨v, hr, hv⟩ := heap_of_valueCast h
  cases v <;> cases hv
  exact hr

lemma dictionary_of_valueCast {r : Ref} {elements : SortedMap Str ValuePtr} {s s' : State}
    (h : valueCast Value.dictionary? (some r) s = .ok elements s') :
    s.heap[r]? = some (.dictionary elements) := by
  obtain ⟨v, hr, hv⟩ := heap_of_valueCast h
  cases v <;> cases hv
  exact hr

lemma store_of_valueCast {r : Ref} {st : Store} {s s' : State}
    (h : valueCast Value.store? (some r) s = .ok st s') :
    s.heap[r]? = some (.persistableDictionary st) := by
  obtain ⟨v, hr, hv⟩ := heap_of_valueCast h
  cases v <;> cases hv
  exact hr

lemma loadPtr_of_heap {r : Ref} {v : Value} {s : State} (h : s.heap[r]? = some v) :
    loadPtr (some r) s = .ok (some v) s := bind_of_ok (load_of_heap h)

lemma unpackInteger_of_heap {r : Ref} {i : Int64} {s : State} (h : s.heap[r]? = some (.integer i)) :
    unpackInteger (some r) s = .ok i s := by
  unfold unpackInteger
  rw [bind_of_ok (loadPtr_of_heap h)]
  rfl

lemma integer_of_integerAt {p : ValuePtr} {r : Ref} {i : Int64} {s s' : State}
    (h : integerAt p s = .ok (some (r, i)) s') : s.heap[r]? = some (.integer i) := by
  cases p with
  | none => cases h
  | some q =>
    obtain ⟨v, s₁, hload, hv⟩ := bind_eq_ok.mp h
    obtain ⟨hq, -⟩ := load_eq_ok.mp hload
    cases v <;> cases hv
    exact hq

/-! ### Updates -/

/-- A call that changes a container. -/
inductive ContainerUpdate
  | listSet (r : Ref) (index : Int64) (val : ValuePtr)
  | listApply (r : Ref) (index : Int64) (value : ValuePtr) (op : BinaryOpType)
  | dictInsert (r : Ref) (key : Str) (value : ValuePtr)
  | dictApply (r : Ref) (key : Str) (value : ValuePtr) (op : BinaryOpType)
  | storeInsert (r : Ref) (key : Str) (value : Ref)
  | storeApply (r : Ref) (key : Str) (value : ValuePtr) (op : BinaryOpType)

def ContainerUpdate.run : ContainerUpdate → M Unit
  | .listSet r index val => M.listSet r index val
  | .listApply r index value op => M.listApply r index value op
  | .dictInsert r key value => M.dictInsert r key value
  | .dictApply r key value op => M.dictApply r key value op
  | .storeInsert r key value => Stepwise.insert r key value
  | .storeApply r key value op => Stepwise.apply r key value op

/-- Two states that differ in the count of the memory requests only. -/
def SameButMemory (s s' : State) : Prop := ∃ memory, s' = { s with memory := memory }

/-- What throws leaves the state alone. -/
abbrev Atomic (x : M Unit) (s : State) : Prop := FailsCleanly SameButMemory x s

lemma SameButMemory.refl (s : State) : SameButMemory s s := ⟨s.memory, rfl⟩

section Atomic

variable {s : State}

lemma atomic_throw (e : Exn) : Atomic (throw e) s := FailsCleanly.throw (.refl s) e

/-- A check in front. -/
lemma atomic_bind {α : Type} {x : M α} {f : α → M Unit} (hx : ReadsOnly α x)
    (hf : ∀ a, x s = .ok a s → Atomic (f a) s) : Atomic (x >>= f) s :=
  FailsCleanly.bind_of_reads (.refl s) hx hf

/-- One change of an object that is there. -/
lemma atomic_storeAt {r : Ref} {v v' : Value} (h : s.heap[r]? = some v) (hv : v.ctorIdx = v'.ctorIdx) :
    Atomic (storeAt r v') s := FailsCleanly.of_ok (storeAt_of_heap h hv)

lemma atomic_create (v : Value) : FailsCleanly SameButMemory (create v) s := by
  by_cases hmemory : MemoryLeft s
  · exact FailsCleanly.of_ok (create_of_memoryLeft hmemory v)
  · intro e s' h
    rw [create_refused hmemory v] at h
    cases h
    exact ⟨_, rfl⟩

lemma atomic_updateInteger (target value : ValuePtr) (f : Int64 → Int64 → Int64) :
    Atomic (updateInteger target value f) s := by
  apply atomic_bind (readsOnly_integerAt target)
  intro target' htarget
  apply atomic_bind (readsOnly_integerAt value)
  intro value' hvalue
  match target', value' with
  | some (r, i), some (rv, j) => exact atomic_storeAt (integer_of_integerAt htarget) rfl
  | none, _ => exact atomic_throw _
  | some _, none => exact atomic_throw _

lemma atomic_listSet (r : Ref) (index : Int64) (val : ValuePtr) : Atomic (listSet r index val) s := by
  apply atomic_bind (readsOnly_valueCast _ _)
  intro elements hcast
  split
  · exact atomic_storeAt (list_of_valueCast hcast) rfl
  · exact atomic_throw _

lemma atomic_listApply (r : Ref) (index : Int64) (value : ValuePtr) (op : BinaryOpType) :
    Atomic (listApply r index value op) s := by
  apply atomic_bind (readsOnly_valueCast _ _)
  intro elements _
  split
  · exact atomic_throw _
  · apply atomic_bind (readsOnly_integerAt _)
    intro target' _
    apply atomic_bind (readsOnly_integerAt _)
    intro value' _
    split
    · split
      · exact atomic_updateInteger _ _ _
      · exact atomic_updateInteger _ _ _
      · exact atomic_updateInteger _ _ _
      · exact atomic_throw _
    · exact atomic_throw _

lemma atomic_dictInsert (r : Ref) (key : Str) (value : ValuePtr) : Atomic (dictInsert r key value) s := by
  apply atomic_bind (readsOnly_valueCast _ _)
  intro elements hcast
  exact atomic_storeAt (dictionary_of_valueCast hcast) rfl

/-- `-=` on a missing key negates the operand, then stores it; the second change cannot fail. -/
lemma storeAt_then_storeAt {r rv : Ref} {i j : Int64} {elements elements' : SortedMap Str ValuePtr}
    (hr : s.heap[r]? = some (.dictionary elements)) (hrv : s.heap[rv]? = some (.integer i)) :
    (do storeAt rv (.integer j); storeAt r (.dictionary elements')) s =
      .ok () { s with heap := (s.heap.set rv (.integer j)).set r (.dictionary elements') } := by
  have hne : rv ≠ r := by
    rintro rfl
    rw [hr] at hrv
    cases hrv
  have hr' : (s.heap.set rv (.integer j))[r]? = some (.dictionary elements) := by
    rw [List.getElem?_set_ne hne, hr]
  have hfirst : storeAt rv (.integer j) s = .ok () { s with heap := s.heap.set rv (.integer j) } :=
    storeAt_of_heap hrv rfl
  rw [bind_of_ok hfirst]
  exact storeAt_of_heap (s := { s with heap := s.heap.set rv (.integer j) }) hr' rfl

/-- `*=` on a missing key stores a new zero. -/
lemma atomic_storeZero {r : Ref} {key : Str} {elements : SortedMap Str ValuePtr}
    (hr : s.heap[r]? = some (.dictionary elements)) :
    Atomic (do
      let zero ← create (.integer 0)
      storeAt r (.dictionary (elements.insert key zero))) s := by
  apply FailsCleanly.bind_of_returns (atomic_create _)
  intro zero s' hcreate
  obtain ⟨-, hheap⟩ := create_eq_ok hcreate
  have hr' : s'.heap[r]? = some (.dictionary elements) := by
    rw [hheap, List.getElem?_append_left (lt_length_of_heap hr), hr]
  exact returns_of_ok (storeAt_of_heap hr' rfl)

lemma atomic_dictApply (r : Ref) (key : Str) (value : ValuePtr) (op : BinaryOpType) :
    Atomic (dictApply r key value op) s := by
  apply atomic_bind (readsOnly_valueCast _ _)
  intro elements hcast
  have hr := dictionary_of_valueCast hcast
  apply atomic_bind (readsOnly_integerAt value)
  intro value' hvalue
  cases value' with
  | none => exact atomic_throw _
  | some operand =>
    obtain ⟨rv, i⟩ := operand
    have hrv := integer_of_integerAt hvalue
    dsimp only
    split
    · cases op with
      | add => exact atomic_storeAt hr rfl
      | sub => exact FailsCleanly.of_ok (storeAt_then_storeAt hr hrv)
      | mult => exact atomic_storeZero hr
      | _ => exact atomic_throw _
    · apply atomic_bind (readsOnly_load _)
      intro v _
      split
      · split
        · exact atomic_updateInteger _ _ _
        · exact atomic_updateInteger _ _ _
        · exact atomic_updateInteger _ _ _
        · exact atomic_throw _
      · exact atomic_throw _

end Atomic

/-! ### The persistable dictionary -/

/-- The state with other maps in the dictionary at `r`. -/
def withMaps (r : Ref) (st : Store) (s : State) : State :=
  { s with heap := s.heap.set r (.persistableDictionary st) }

section Maps

variable {r : Ref} {st : Store} {s : State}

lemma heap_withMaps (hr : s.heap[r]? = some (.persistableDictionary st)) (st' : Store) :
    (withMaps r st' s).heap[r]? = some (.persistableDictionary st') :=
  List.getElem?_set_self (lt_length_of_heap hr)

lemma withMaps_withMaps (st st' : Store) (s : State) :
    withMaps r st' (withMaps r st s) = withMaps r st' s := by
  unfold withMaps
  rw [List.set_set]

/-- A statement on the maps cannot fail. -/
lemma assign_of_heap (hr : s.heap[r]? = some (.persistableDictionary st)) (f : Store → Store) :
    Stepwise.assign r f s = .ok () (withMaps r (f st) s) := by
  have hcast : valueCast Value.store? (some r) s = .ok st s := valueCast_of_heap _ hr rfl
  unfold Stepwise.assign
  rw [bind_of_ok hcast]
  exact storeAt_of_heap hr rfl

/-- Two statements on the maps are one. -/
lemma assign_then {f : Store → Store} {x : M Unit} {st' : Store}
    (hr : s.heap[r]? = some (.persistableDictionary st))
    (hx : x (withMaps r (f st) s) = .ok () (withMaps r st' (withMaps r (f st) s))) :
    (do Stepwise.assign r f; x) s = .ok () (withMaps r st' s) := by
  rw [bind_of_ok (assign_of_heap hr f), hx, withMaps_withMaps]

lemma remove_of_heap (hr : s.heap[r]? = some (.persistableDictionary st)) (key : Str) :
    Stepwise.remove r key s = .ok () (withMaps r (st.remove key) s) := by
  unfold Stepwise.remove Stepwise.eraseInt Store.remove
  apply assign_then hr
  apply assign_then (heap_withMaps hr _)
  apply assign_then (heap_withMaps (heap_withMaps hr _) _)
  rw [assign_of_heap (heap_withMaps (heap_withMaps (heap_withMaps hr _) _) _)]
  simp only [SortedMap.erase_erase]

/-- `remove`, then the new entry. -/
lemma removeAssign_of_heap (hr : s.heap[r]? = some (.persistableDictionary st)) (key : Str)
    (f : Store → Store) :
    (do Stepwise.remove r key; Stepwise.assign r f) s = .ok () (withMaps r (f (st.remove key)) s) := by
  rw [bind_of_ok (remove_of_heap hr key), assign_of_heap (heap_withMaps hr _), withMaps_withMaps]

/-- Without a dictionary to change, the first statement fails. -/
lemma atomic_removeAssign (r : Ref) (key : Str) (f : Store → Store) :
    Atomic (do Stepwise.remove r key; Stepwise.assign r f) s := by
  cases hcast : valueCast Value.store? (some r) s with
  | ok st s₁ => exact FailsCleanly.of_ok (removeAssign_of_heap (store_of_valueCast hcast) key f)
  | error e s₁ =>
    have hs₁ : s₁ = s := (readsOnly_valueCast _ _).of_error hcast
    subst hs₁
    have hremove : Stepwise.remove r key s₁ = .error e s₁ := bind_of_error (bind_of_error hcast)
    intro e' s' h
    rw [bind_of_error hremove] at h
    cases h
    exact .refl s₁

lemma atomic_assign (r : Ref) (f : Store → Store) : Atomic (Stepwise.assign r f) s := by
  apply atomic_bind (readsOnly_valueCast _ _)
  intro st hcast
  exact atomic_storeAt (store_of_valueCast hcast) rfl

lemma atomic_stepwise_insert (r : Ref) (key : Str) (value : Ref) : Atomic (Stepwise.insert r key value) s := by
  apply atomic_bind (readsOnly_load value)
  intro v _
  split
  · apply atomic_bind (readsOnly_valueCast _ _)
    intro val _
    exact atomic_removeAssign r key _
  · apply atomic_bind (readsOnly_unpackInteger _)
    intro val _
    exact atomic_removeAssign r key _
  · apply atomic_bind (readsOnly_valueCast _ _)
    intro val _
    exact atomic_removeAssign r key _
  · apply atomic_bind (readsOnly_unpackFloat _)
    intro val _
    exact atomic_removeAssign r key _
  · exact atomic_throw _

lemma atomic_stepwise_apply (r : Ref) (key : Str) (value : ValuePtr) (op : BinaryOpType) :
    Atomic (Stepwise.apply r key value op) s := by
  apply atomic_bind (readsOnly_valueCast _ _)
  intro st _
  apply atomic_bind (readsOnly_throwIf _ _)
  intro _ _
  apply atomic_bind (readsOnly_throwIf _ _)
  intro _ _
  apply atomic_bind (readsOnly_throwIf _ _)
  intro _ _
  apply atomic_bind (readsOnly_loadPtr _)
  intro v _
  split
  · split
    · apply atomic_bind (readsOnly_unpackInteger _)
      intro i _
      exact atomic_assign r _
    · apply atomic_bind (readsOnly_unpackInteger _)
      intro i _
      exact atomic_assign r _
    · apply atomic_bind (readsOnly_unpackInteger _)
      intro i _
      exact atomic_assign r _
    · exact atomic_throw _
  · exact atomic_throw _

lemma writeStore_of_heap (hr : s.heap[r]? = some (.persistableDictionary st)) (st' : Store) :
    writeStore r st' s = record .storeWritten (withMaps r st' s) := by
  have hstore : storeAt r (.persistableDictionary st') s = .ok () (withMaps r st' s) :=
    storeAt_of_heap hr rfl
  exact bind_of_ok hstore

/-- On a persistable dictionary the statements of `insert` are the update the interpreter makes. -/
theorem storeInsert_eq_stepwise (hr : s.heap[r]? = some (.persistableDictionary st)) (key : Str) (value : Ref) :
    storeInsert r key value s = (do Stepwise.insert r key value; record .storeWritten) s := by
  have hcast : valueCast Value.store? (some r) s = .ok st s := valueCast_of_heap _ hr rfl
  have hwrite (v : Value) (f : Store → Store) (hinsert : st.insert key v = .ok (f (st.remove key))) :
      (do let st' ← liftExcept (st.insert key v); writeStore r st') s =
        (do (do Stepwise.remove r key; Stepwise.assign r f); record .storeWritten) s := by
    rw [bind_of_ok (removeAssign_of_heap hr key f), hinsert]
    exact writeStore_of_heap hr _
  unfold storeInsert Stepwise.insert
  rw [bind_of_ok hcast]
  cases hv : load value s with
  | error e s₁ =>
    rw [bind_of_error hv]
    exact (bind_of_error (bind_of_error hv)).symm
  | ok v s₁ =>
    obtain ⟨hheap, rfl⟩ := load_eq_ok.mp hv
    rw [bind_of_ok hv, bind_assoc, bind_of_ok hv]
    cases v with
    | string val =>
      have hval : unpackString (some value) s = .ok val s := valueCast_of_heap _ hheap rfl
      dsimp only
      rw [bind_assoc, bind_of_ok hval]
      exact hwrite _ _ rfl
    | integer val =>
      have hval : unpackInteger (some value) s = .ok val s := unpackInteger_of_heap hheap
      dsimp only
      rw [bind_assoc, bind_of_ok hval]
      exact hwrite _ _ rfl
    | bool val =>
      have hval : unpackBool (some value) s = .ok val s := valueCast_of_heap _ hheap rfl
      dsimp only
      rw [bind_assoc, bind_of_ok hval]
      exact hwrite _ _ rfl
    | float val =>
      have hval : unpackFloat value s = .ok (narrowFloat val) s := bind_of_ok hv
      dsimp only
      rw [bind_assoc, bind_of_ok hval]
      exact hwrite _ _ rfl
    | _ => rfl

/-- The statements of `apply`, too. -/
theorem storeApply_eq_stepwise (hr : s.heap[r]? = some (.persistableDictionary st)) (key : Str)
    {value : ValuePtr} {v : Option Value} (hv : StandsFor value v s) (op : BinaryOpType) :
    storeApply r key value op s = (do Stepwise.apply r key value op; record .storeWritten) s := by
  have hcast : valueCast Value.store? (some r) s = .ok st s := valueCast_of_heap _ hr rfl
  have hint (i : Int64) (hi : v = some (.integer i)) : unpackInteger value s = .ok i s := by
    unfold unpackInteger
    rw [bind_of_ok hv, hi]
    rfl
  have hput (i : Int64) : writeStore r { st with elementsInt := st.elementsInt.insert key i } s =
      (do
        Stepwise.assign r fun st => { st with elementsInt := st.elementsInt.insert key i }
        record .storeWritten) s := by
    rw [bind_of_ok (assign_of_heap hr _)]
    exact writeStore_of_heap hr _
  unfold storeApply Stepwise.apply Store.apply
  rw [bind_of_ok hcast, bind_of_ok hv, bind_assoc, bind_of_ok hcast]
  cases st.elementsBool.contains key with
  | true => rfl
  | false =>
    cases st.elementsDouble.contains key with
    | true => rfl
    | false =>
      cases st.elementsString.contains key with
      | true => rfl
      | false =>
        simp only [Bool.or_self, Bool.false_eq_true, if_false, throwIf, pure_bind]
        rw [bind_assoc, bind_of_ok hv]
        rcases v with _ | v
        · rfl
        cases v with
        | integer i =>
          cases op with
          | add =>
            dsimp only
            rw [bind_assoc, bind_of_ok (hint i rfl)]
            exact hput _
          | sub =>
            dsimp only
            rw [bind_assoc, bind_of_ok (hint i rfl)]
            exact hput _
          | mult =>
            dsimp only
            rw [bind_assoc, bind_of_ok (hint i rfl)]
            exact hput _
          | _ => rfl
        | _ => rfl

end Maps

/-! ### The statement -/

lemma ContainerUpdate.atomic (u : ContainerUpdate) (s : State) : Atomic u.run s := by
  cases u with
  | listSet r index val => exact atomic_listSet r index val
  | listApply r index value op => exact atomic_listApply r index value op
  | dictInsert r key value => exact atomic_dictInsert r key value
  | dictApply r key value op => exact atomic_dictApply r key value op
  | storeInsert r key value => exact atomic_stepwise_insert r key value
  | storeApply r key value op => exact atomic_stepwise_apply r key value op

/-- An update that throws leaves every object as it was, the container and the operand among them,
and a handler of `execute_program` returns what it would have returned without the update. -/
theorem failed_update_atomic (u : ContainerUpdate) (s s' : State) (e : Exn) (h : u.run s = .error e s') :
    s'.heap = s.heap ∧ ∀ archive gasprice errorBuffer code,
      Library.finish archive gasprice errorBuffer code s' =
        Library.finish archive gasprice errorBuffer code s := by
  obtain ⟨memory, rfl⟩ := u.atomic s e s' h
  constructor
  · rfl
  · intro archive gasprice errorBuffer code
    rfl

/-- The state of a contract that stores a string under `a` and holds a list. -/
def storedString : State :=
  { startState [] 1000 with
    heap := [.persistableDictionary
      { Store.empty with elementsString := SortedMap.empty.insert (lit "a") (lit "x") }, .list []] }

/-- Storing the list under `a` fails and keeps the string. -/
theorem failed_update_atomic_list :
    ∃ e s', (ContainerUpdate.storeInsert 0 (lit "a") 1).run storedString = .error e s' ∧
      s'.heap = storedString.heap := by
  have hrun : (ContainerUpdate.storeInsert 0 (lit "a") 1).run storedString =
      .error (.runtimeError
        (lit "Persistent directories can only store string, int, float and boolean.")) storedString := rfl
  exact ⟨_, _, hrun, (failed_update_atomic _ _ _ _ hrun).1⟩

end ContractPython.Proofs
