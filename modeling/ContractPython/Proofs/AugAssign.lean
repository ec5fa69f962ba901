import ContractPython.Proofs.Encoding
import ContractPython.Proofs.Steps

/-!
# Augmented assignment and sharing

`target op= e` writes into the integer object its target holds. Every other slot that holds
the same object sees the new value. `Update` is what is left to do once `e` is evaluated, and
`Update.overwrites` the object it writes into.
-/

namespace ContractPython.Proofs

open Program M

/-! ### Slots -/

/-- The places of an object that hold a value. -/
inductive Field
  | element (index : Nat)
  | component (index : Nat)
  | entry (key : Str)
  | default (index : Nat)
  | stored (key : Str)
  deriving DecidableEq

/-- The places of a program that hold a value. -/
inductive Slot
  | var (frame : Nat) (name : Str)
  | field (r : Ref) (f : Field)
  deriving DecidableEq

/-- What a program can see of a value: integers by value, other objects by identity. -/
inductive Seen
  | none
  | integer (i : Int64)
  | object (r : Ref)
  | stored (v : Value)
  deriving DecidableEq

/-- The pointer in a field of an object; a persistable dictionary holds values, not pointers. -/
def Field.pointer : Field → Value → Option ValuePtr
  | .element index, .list elements => elements[index]?
  | .component index, .tuple content => content[index]?
  | .entry key, .dictionary elements => elements.find? key
  | .default index, .vmFunction _ _ defaults => defaults[index]?
  | _, _ => none

/-- The value in a field of a persistable dictionary. -/
def Field.value : Field → Value → Option Seen
  | .stored key, .persistableDictionary st => (st.get? key).map .stored
  | _, _ => none

/-- What the object `v` at `r` is seen as. -/
def seenAs (r : Ref) : Value → Seen
  | .integer i => .integer i
  | _ => .object r

/-- What a pointer shows. -/
def see (heap : List Value) : ValuePtr → Option Seen
  | none => some .none
  | some r => heap[r]?.map (seenAs r)

namespace Slot

/-- The pointer in a slot. -/
def content : Slot → State → Option ValuePtr
  | .var id name, s => (Scope.frame s.frames id).values.find? name
  | .field r f, s => s.heap[r]?.bind f.pointer

/-- The observable value of a slot. -/
def seen (slot : Slot) (s : State) : Option Seen :=
  match slot with
  | .var _ _ => (slot.content s).bind (see s.heap)
  | .field r f => (s.heap[r]?.bind f.value).or ((slot.content s).bind (see s.heap))

end Slot

/-! ### Updates -/

/-- An augmented assignment after its operand is evaluated. -/
inductive Update
  | name (scope : ScopeRef) (id : Str) (op : BinaryOpType) (target value : ValuePtr)
  | dictionary (r : Ref) (key : Str) (op : BinaryOpType) (value : ValuePtr)
  | store (r : Ref) (key : Str) (op : BinaryOpType) (value : ValuePtr)
  | list (r : Ref) (index : Int64) (op : BinaryOpType) (value : ValuePtr)
  deriving DecidableEq

/-- The frame whose variable a name is. -/
def frameOf (frames : List Frame) : ScopeRef → Str → Option Nat
  | [], _ => none
  | id :: parents, name =>
    if (Scope.frame frames id).values.contains name then some id else frameOf frames parents name

namespace Update

def apply : Update → M Unit
  | .name _ _ op target value => augmentName op target value
  | .dictionary r key op value => dictApply r key value op
  | .store r key op value => storeApply r key value op
  | .list r index op value => listApply r index value op

/-- The slot an update is about. -/
def target (s : State) : Update → Option Slot
  | .name scope id _ _ _ => (frameOf s.frames scope id).map (.var · id)
  | .dictionary r key _ _ => some (.field r (.entry key))
  | .store r key _ _ => some (.field r (.stored key))
  | .list r index _ _ => do
    let elements ← s.heap[r]?.bind Value.list?
    pure (.field r (.element (if index.toInt < 0 then elements.length + index.toInt else index.toInt).toNat))

/-- The integer object behind a pointer. -/
def integerAt (s : State) (p : ValuePtr) : Option (Ref × Int64) := do
  let r ← p
  let i ← s.heap[r]?.bind Value.integer?
  pure (r, i)

/-- The operators on a variable and on an element of a list. -/
def nameResult : BinaryOpType → Int64 → Int64 → Option Int64
  | .add, i, j => some (i + j)
  | .sub, i, j => some (i - j)
  | .mult, i, j => some (i * j)
  | _, _, _ => none

/-- The operators on an entry of a dictionary: `*=` adds. -/
def entryResult : BinaryOpType → Int64 → Int64 → Option Int64
  | .add, i, j => some (i + j)
  | .sub, i, j => some (i - j)
  | .mult, i, j => some (i + j)
  | _, _, _ => none

/-- The integer object an update writes into and its new value. For a missing key `-=` negates
the operand. -/
def overwrites (s : State) : Update → Option (Ref × Int64)
  | .name _ _ op target value => do
    let (r, i) ← integerAt s target
    let (_, j) ← integerAt s value
    let new ← nameResult op i j
    pure (r, new)
  | .dictionary r key op value => do
    let elements ← s.heap[r]?.bind Value.dictionary?
    let (rv, j) ← integerAt s value
    match dictGet elements key with
    | none => if op = .sub then pure (rv, -1 * j) else none
    | some rt => do
      let (_, i) ← integerAt s (some rt)
      let new ← entryResult op i j
      pure (rt, new)
  | .store _ _ _ _ => none
  | .list r index op value => do
    let elements ← s.heap[r]?.bind Value.list?
    let position ← PyList.setIndex (PyList.size elements) index
    let (rt, i) ← integerAt s (elements.getD position none)
    let (_, j) ← integerAt s value
    let new ← nameResult op i j
    pure (rt, new)

end Update

/-- No slot but `target` changes its observable value from `s` to `s'`. -/
def ChangesOnly (target : Option Slot) (s s' : State) : Prop :=
  ∀ slot v, some slot ≠ target → slot.seen s = some v → slot.seen s' = some v

/-- No other slot holds the object the update writes into, or its value stays the same. -/
def Unshared (u : Update) (s : State) : Prop :=
  ∀ r new, u.overwrites s = some (r, new) →
    s.heap[r]? = some (.integer new) ∨ ∀ slot : Slot, some slot ≠ u.target s → slot.content s ≠ some (some r)

/-! ### What an update changes -/

/-- From `s` to `s'` one integer object is overwritten, and every slot but the target keeps its
content. -/
structure Effect (overwritten : Option (Ref × Int64)) (target : Option Slot) (s s' : State) : Prop where
  content_eq : ∀ slot : Slot, some slot ≠ target → ∀ p, slot.content s = some p → slot.content s' = some p
  value_eq : ∀ r f, some (.field r f) ≠ target →
    ∀ v, s.heap[r]?.bind f.value = some v → s'.heap[r]?.bind f.value = some v
  see_eq : ∀ r v, (∀ new, overwritten ≠ some (r, new)) →
    see s.heap (some r) = some v → see s'.heap (some r) = some v
  old_integer : ∀ r new, overwritten = some (r, new) → ∃ old, s.heap[r]? = some (.integer old)
  new_integer : ∀ r new, overwritten = some (r, new) → s'.heap[r]? = some (.integer new)

lemma seenAs_eq_integer {r : Ref} {v : Value} {i : Int64} :
    seenAs r v = .integer i ↔ v = .integer i := by
  cases v <;> simp [seenAs]

lemma see_eq_integer {heap : List Value} {r : Ref} {i : Int64} :
    see heap (some r) = some (.integer i) ↔ heap[r]? = some (.integer i) := by
  simp [see, seenAs_eq_integer]

/-- A field that holds a pointer holds no value. -/
lemma value_of_pointer {f : Field} {v : Value} {p : ValuePtr} (h : f.pointer v = some p) :
    f.value v = none := by
  cases f <;> cases v <;> simp [Field.pointer, Field.value] at h ⊢

lemma seen_of_content {slot : Slot} {s : State} {p : ValuePtr} (h : slot.content s = some p) :
    slot.seen s = see s.heap p := by
  cases slot with
  | var id name => simp [Slot.seen, h]
  | field r f =>
    obtain ⟨v, hv, hp⟩ := Option.bind_eq_some_iff.mp h
    simp [Slot.seen, h, hv, value_of_pointer hp]

namespace Effect

variable {overwritten : Option (Ref × Int64)} {target : Option Slot} {s s₁ s₂ s' : State}

lemma trans (h : Effect overwritten target s s₁) (h' : Effect none target s₁ s₂) :
    Effect overwritten target s s₂ where
  content_eq slot hne p hp := h'.content_eq slot hne p (h.content_eq slot hne p hp)
  value_eq r f hne v hv := h'.value_eq r f hne v (h.value_eq r f hne v hv)
  see_eq r v hr hv := h'.see_eq r v (by simp) (h.see_eq r v hr hv)
  old_integer := h.old_integer
  new_integer r new hr :=
    see_eq_integer.mp (h'.see_eq r _ (by simp) (see_eq_integer.mpr (h.new_integer r new hr)))

/-- A step after which every object is still there, with its fields and its integer, unless a
field is the target. -/
lemma of_fields (hframes : s'.frames = s.frames)
    (hheap : ∀ r v, s.heap[r]? = some v → ∃ v', s'.heap[r]? = some v' ∧ seenAs r v' = seenAs r v ∧
      ∀ f, some (.field r f) ≠ target → f.pointer v' = f.pointer v ∧ f.value v' = f.value v) :
    Effect none target s s' where
  content_eq slot hne p h := by
    cases slot with
    | var id name => simpa only [Slot.content, hframes] using h
    | field r f =>
      obtain ⟨v, hv, hp⟩ := Option.bind_eq_some_iff.mp h
      obtain ⟨v', hv', -, hfields⟩ := hheap r v hv
      exact Option.bind_eq_some_iff.mpr ⟨v', hv', (hfields f hne).1.trans hp⟩
  value_eq r f hne x h := by
    obtain ⟨v, hv, hx⟩ := Option.bind_eq_some_iff.mp h
    obtain ⟨v', hv', -, hfields⟩ := hheap r v hv
    exact Option.bind_eq_some_iff.mpr ⟨v', hv', (hfields f hne).2.trans hx⟩
  see_eq r x _ h := by
    obtain ⟨v, hv, hx⟩ := Option.map_eq_some_iff.mp h
    obtain ⟨v', hv', hsee, -⟩ := hheap r v hv
    exact Option.map_eq_some_iff.mpr ⟨v', hv', hsee.trans hx⟩
  old_integer _ _ h := nomatch h
  new_integer _ _ h := nomatch h

lemma of_same (hframes : s'.frames = s.frames) (hheap : s'.heap = s.heap) : Effect none target s s' :=
  of_fields hframes fun r v hv => ⟨v, by rwa [hheap], rfl, fun _ _ => ⟨rfl, rfl⟩⟩

/-- A new object. -/
lemma append (v : Value) (memory : MemoryManager) :
    Effect none target s { s with heap := s.heap ++ [v], memory := memory } :=
  of_fields rfl fun _ v' hv' =>
    ⟨v', (List.getElem?_append_left (lt_length_of_heap hv')).trans hv', rfl, fun _ _ => ⟨rfl, rfl⟩⟩

/-- A new value of an object that is no integer. -/
lemma set_object {r : Ref} {v v' : Value} {log : List Event} (hr : s.heap[r]? = some v)
    (hsee : seenAs r v' = seenAs r v)
    (hfields : ∀ f, some (.field r f) ≠ target → f.pointer v' = f.pointer v ∧ f.value v' = f.value v) :
    Effect none target s { s with heap := s.heap.set r v', log := log } :=
  of_fields rfl fun r₁ v₁ hv₁ => by
    by_cases hne : r₁ = r
    · subst hne
      obtain rfl := Option.some.inj (hr.symm.trans hv₁)
      exact ⟨v', List.getElem?_set_self (lt_length_of_heap hr), hsee, hfields⟩
    · exact ⟨v₁, by simpa [List.getElem?_set, Ne.symm hne] using hv₁, rfl, fun _ _ => ⟨rfl, rfl⟩⟩

/-- A new value of an integer object. -/
lemma set_integer {r : Ref} {old new : Int64} (hr : s.heap[r]? = some (.integer old)) :
    Effect (some (r, new)) target s { s with heap := s.heap.set r (.integer new) } where
  content_eq slot _ p h := by
    cases slot with
    | var id name => exact h
    | field r' f =>
      by_cases hne : r' = r
      · subst hne
        cases f <;> simp [Slot.content, hr, Field.pointer] at h
      · simpa [Slot.content, List.getElem?_set, Ne.symm hne] using h
  value_eq r' f _ v h := by
    by_cases hne : r' = r
    · subst hne
      cases f <;> simp [hr, Field.value] at h
    · simpa [List.getElem?_set, Ne.symm hne] using h
  see_eq r' v hne h := by
    have hne : r' ≠ r := fun he => hne new (by rw [he])
    simpa [see, List.getElem?_set, Ne.symm hne] using h
  old_integer r' new' h := by
    cases h
    exact ⟨old, hr⟩
  new_integer r' new' h := by
    cases h
    exact List.getElem?_set_self (lt_length_of_heap hr)

/-- An overwritten object is seen wherever it is shared. -/
lemma changesOnly_iff (h : Effect overwritten target s s') :
    ChangesOnly target s s' ↔
      ∀ r new, overwritten = some (r, new) → s.heap[r]? = some (.integer new) ∨
        ∀ slot : Slot, some slot ≠ target → slot.content s ≠ some (some r) := by
  constructor
  · intro honly r new hr
    obtain ⟨old, hold⟩ := h.old_integer r new hr
    by_cases heq : old = new
    · exact .inl (heq ▸ hold)
    · refine .inr fun slot hne hcontent => heq ?_
      have hbefore := (seen_of_content hcontent).trans (see_eq_integer.mpr hold)
      have hafter := (seen_of_content (h.content_eq slot hne _ hcontent)).trans
        (see_eq_integer.mpr (h.new_integer r new hr))
      cases (honly slot _ hne hbefore).symm.trans hafter
      rfl
  · intro hunshared slot v hne hseen
    cases hcontent : slot.content s with
    | some p =>
      rw [seen_of_content hcontent] at hseen
      rw [seen_of_content (h.content_eq slot hne p hcontent)]
      cases p with
      | none => exact hseen
      | some r =>
        by_cases hr : ∃ new, overwritten = some (r, new)
        · obtain ⟨new, hr⟩ := hr
          rcases hunshared r new hr with hsame | hno
          · rw [see_eq_integer.mpr hsame] at hseen
            rw [see_eq_integer.mpr (h.new_integer r new hr), ← hseen]
          · exact absurd hcontent (hno slot hne)
        · exact h.see_eq r v (fun new hnew => hr ⟨new, hnew⟩) hseen
    | none =>
      cases slot with
      | var id name => simp [Slot.seen, hcontent] at hseen
      | field r f =>
        have hvalue : s.heap[r]?.bind f.value = some v := by simpa [Slot.seen, hcontent] using hseen
        simp [Slot.seen, h.value_eq r f hne v hvalue]

end Effect

/-! ### The effect of each update -/

lemma integerAt_run (p : ValuePtr) (s : State) :
    M.integerAt p s = .ok (Update.integerAt s p) s ∨
      Update.integerAt s p = none ∧ ∃ e, M.integerAt p s = .error e s := by
  cases p with
  | none => exact .inl rfl
  | some r =>
    cases hr : s.heap[r]? with
    | none =>
      right
      exact ⟨by simp [Update.integerAt, hr], _, bind_of_error (by simp [load, hr]; rfl)⟩
    | some v =>
      left
      have hload : load r s = .ok v s := load_eq_ok.mpr ⟨hr, rfl⟩
      unfold M.integerAt
      simp only
      rw [bind_of_ok hload]
      cases v <;> simp [Update.integerAt, hr, Value.integer?]

lemma heap_of_integerAt {s : State} {p : ValuePtr} {r : Ref} {i : Int64}
    (h : Update.integerAt s p = some (r, i)) : p = some r ∧ s.heap[r]? = some (.integer i) := by
  cases p with
  | none => simp [Update.integerAt] at h
  | some r' =>
    simp only [Update.integerAt, Option.bind_eq_bind, Option.bind_some, Option.bind_eq_some_iff,
      Option.pure_def, Option.some.injEq, Prod.mk.injEq] at h
    obtain ⟨i', ⟨v, hv, hi⟩, rfl, rfl⟩ := h
    cases v <;> cases hi
    exact ⟨rfl, hv⟩

/-- Writing the result into the target's integer. -/
lemma effect_updateInteger (target value : ValuePtr) (f : Int64 → Int64 → Int64) (slot : Option Slot)
    (s : State) :
    Effect (do
        let (r, i) ← Update.integerAt s target
        let (_, j) ← Update.integerAt s value
        pure (r, f i j)) slot s (finalState (updateInteger target value f) s) := by
  unfold updateInteger
  rcases integerAt_run target s with htarget | ⟨hnone, e, htarget⟩
  · rw [finalState_bind_of_ok htarget]
    rcases integerAt_run value s with hvalue | ⟨hnone, e, hvalue⟩
    · rw [finalState_bind_of_ok hvalue]
      rcases hi : Update.integerAt s target with _ | ⟨r, i⟩
      · exact .of_same rfl rfl
      · rcases hj : Update.integerAt s value with _ | ⟨rv, j⟩
        · exact .of_same rfl rfl
        · obtain ⟨-, hr⟩ := heap_of_integerAt hi
          simp only [finalState_storeAt, hr, Option.map_some, Value.ctorIdx, if_true]
          exact .set_integer hr
    · rw [finalState_bind_of_error hvalue, hnone]
      cases Update.integerAt s target <;> exact .of_same rfl rfl
  · rw [finalState_bind_of_error htarget, hnone]
    exact .of_same rfl rfl

/-- `+=`, `-=` and `*=` on a variable. -/
lemma effect_augmentName (op : BinaryOpType) (target value : ValuePtr) (slot : Option Slot) (s : State) :
    Effect (do
        let (r, i) ← Update.integerAt s target
        let (_, j) ← Update.integerAt s value
        let new ← Update.nameResult op i j
        pure (r, new)) slot s (finalState (augmentName op target value) s) := by
  cases op with
  | add => exact effect_updateInteger target value (· + ·) slot s
  | sub => exact effect_updateInteger target value (· - ·) slot s
  | mult => exact effect_updateInteger target value (· * ·) slot s
  | _ =>
    have hnone : (do
        let (r, i) ← Update.integerAt s target
        let (_, j) ← Update.integerAt s value
        let new ← (none : Option Int64)
        pure (r, new)) = none := by
      cases Update.integerAt s target <;> cases Update.integerAt s value <;> rfl
    exact hnone ▸ .of_same rfl rfl

lemma valueCast_run {α : Type} (proj : Value → Option α) (r : Ref) (s : State) :
    (∃ v a, s.heap[r]? = some v ∧ proj v = some a ∧ valueCast proj (some r) s = .ok a s) ∨
      s.heap[r]?.bind proj = none ∧ ∃ e, valueCast proj (some r) s = .error e s := by
  unfold valueCast
  cases hr : s.heap[r]? with
  | none => exact .inr ⟨rfl, _, bind_of_error (by simp [load, hr]; rfl)⟩
  | some v =>
    have hload : load r s = .ok v s := load_eq_ok.mpr ⟨hr, rfl⟩
    simp only [bind_of_ok hload]
    cases hv : proj v with
    | none => exact .inr ⟨by simp [hv], _, rfl⟩
    | some a => exact .inl ⟨v, a, rfl, hv, rfl⟩

/-- A new entry of a dictionary. -/
lemma effect_insert {r : Ref} {key : Str} {value : ValuePtr} {elements : SortedMap Str ValuePtr}
    {s : State} (hr : s.heap[r]? = some (.dictionary elements)) :
    Effect none (some (.field r (.entry key))) s
      (finalState (storeAt r (.dictionary (elements.insert key value))) s) := by
  simp only [finalState_storeAt, hr, Option.map_some, Value.ctorIdx, if_true]
  refine .set_object hr rfl fun f hne => ?_
  cases f with
  | entry key' =>
    have hkey : key' ≠ key := fun he => hne (by rw [he])
    exact ⟨SortedMap.find?_insert_of_ne elements key key' value hkey, rfl⟩
  | _ => exact ⟨rfl, rfl⟩

lemma create_run (v : Value) (s : State) :
    create v s = .ok (some s.heap.length) { s with
      heap := s.heap ++ [v], memory := { s.memory with requests := s.memory.requests + 1 } } ∨
    ∃ e, create v s = .error e
      { s with memory := { s.memory with requests := s.memory.requests + 1 } } := by
  by_cases hmem : s.memory.grants s.memory.requests = true
  · left
    simp [create, alloc, malloc, makeShared, bind, EStateM.bind, hmem]
  · right
    exact ⟨_, by simp [create, alloc, malloc, bind, EStateM.bind, hmem]; rfl⟩

/-- What `Dictionary::apply` does for a missing key. -/
lemma effect_missingKey {r rv : Ref} {j : Int64} {elements : SortedMap Str ValuePtr} {s : State}
    (key : Str) (op : BinaryOpType) (hr : s.heap[r]? = some (.dictionary elements))
    (hrv : s.heap[rv]? = some (.integer j)) :
    Effect (if op = .sub then some (rv, -1 * j) else none) (some (.field r (.entry key))) s
      (finalState (match op with
        | .add => storeAt r (.dictionary (elements.insert key (some rv)))
        | .sub => do
          storeAt rv (.integer (-1 * j))
          storeAt r (.dictionary (elements.insert key (some rv)))
        | .mult => do
          let zero ← create (.integer 0)
          storeAt r (.dictionary (elements.insert key zero))
        | _ => throwRuntime (lit "Unknown binary op")) s) := by
  cases op with
  | add => exact effect_insert hr
  | sub =>
    have hne : rv ≠ r := fun he => by simp [he, hr] at hrv
    have hneg : storeAt rv (.integer (-1 * j)) s =
        .ok () { s with heap := s.heap.set rv (.integer (-1 * j)) } := by
      simp [storeAt, hrv, Value.ctorIdx]
    rw [finalState_bind_of_ok hneg]
    refine (Effect.set_integer hrv).trans (effect_insert ?_)
    simpa [List.getElem?_set, hne] using hr
  | mult =>
    rcases create_run (.integer 0) s with hzero | ⟨e, hzero⟩
    · rw [finalState_bind_of_ok hzero]
      refine (Effect.append _ _).trans (effect_insert ?_)
      exact (List.getElem?_append_left (lt_length_of_heap hr)).trans hr
    · rw [finalState_bind_of_error hzero]
      exact .of_same rfl rfl
  | _ => exact .of_same rfl rfl

/-- What `Dictionary::apply` does for a key that holds the object `rt`. -/
lemma effect_presentKey {rt rv : Ref} {j : Int64} {s : State} (slot : Option Slot) (op : BinaryOpType)
    (hj : Update.integerAt s (some rv) = some (rv, j)) :
    Effect (do
        let (_, i) ← Update.integerAt s (some rt)
        let new ← Update.entryResult op i j
        pure (rt, new)) slot s
      (finalState (do
        match ← load rt with
        | .integer _ =>
          match op with
          | .add => updateInteger (some rt) (some rv) (· + ·)
          | .sub => updateInteger (some rt) (some rv) (· - ·)
          | .mult => updateInteger (some rt) (some rv) (· + ·)
          | _ => throwRuntime (lit "Unknown binary op")
        | _ => throwRuntime (lit "Values need to be numerics")) s) := by
  cases hrt : s.heap[rt]? with
  | none =>
    have hload : load rt s = .error (.crash (lit "dangling reference")) s := by simp [load, hrt]
    rw [finalState_bind_of_error hload]
    simp only [Update.integerAt, hrt, Option.bind_eq_bind, Option.bind_some, Option.bind_none]
    exact .of_same rfl rfl
  | some v =>
    rw [finalState_bind_of_ok (load_eq_ok.mpr ⟨hrt, rfl⟩)]
    cases v with
    | integer i =>
      have hi : Update.integerAt s (some rt) = some (rt, i) := by
        simp [Update.integerAt, hrt, Value.integer?]
      have h := fun f => effect_updateInteger (some rt) (some rv) f slot s
      simp only [hi, hj, Option.bind_eq_bind, Option.bind_some] at h
      rw [hi]
      cases op with
      | add => exact h (· + ·)
      | sub => exact h (· - ·)
      | mult => exact h (· + ·)
      | _ => exact .of_same rfl rfl
    | _ =>
      simp only [Update.integerAt, hrt, Value.integer?, Option.bind_eq_bind, Option.bind_some,
        Option.bind_none]
      exact .of_same rfl rfl

/-- `+=`, `-=` and `*=` on an entry of a dictionary. -/
lemma effect_dictApply (r : Ref) (key : Str) (value : ValuePtr) (op : BinaryOpType) (s : State) :
    Effect ((Update.dictionary r key op value).overwrites s) (some (.field r (.entry key))) s
      (finalState (dictApply r key value op) s) := by
  unfold dictApply
  rcases valueCast_run Value.dictionary? r s with ⟨v, elements, hr, hv, hcast⟩ | ⟨hnone, e, hcast⟩
  · cases v <;> cases hv
    rw [finalState_bind_of_ok hcast]
    simp only [Update.overwrites, hr, Value.dictionary?, Option.bind_eq_bind, Option.bind_some]
    rcases integerAt_run value s with hvalue | ⟨hnone, e, hvalue⟩
    · rw [finalState_bind_of_ok hvalue]
      rcases hj : Update.integerAt s value with _ | ⟨rv, j⟩
      · exact .of_same rfl rfl
      · obtain ⟨rfl, hrv⟩ := heap_of_integerAt hj
        simp only [Option.bind_some]
        cases dictGet elements key with
        | none => exact effect_missingKey key op hr hrv
        | some rt => exact effect_presentKey _ op hj
    · rw [finalState_bind_of_error hvalue, hnone]
      exact .of_same rfl rfl
  · rw [finalState_bind_of_error hcast]
    simp only [Update.overwrites, hnone, Option.bind_eq_bind, Option.bind_none]
    exact .of_same rfl rfl

lemma loadPtr_run (p : ValuePtr) (s : State) :
    (∃ v, loadPtr p s = .ok v s) ∨ ∃ e, loadPtr p s = .error e s := by
  cases p with
  | none => exact .inl ⟨none, rfl⟩
  | some r =>
    cases hr : s.heap[r]? with
    | none => exact .inr ⟨_, bind_of_error (by simp [load, hr]; rfl)⟩
    | some v => exact .inl ⟨some v, bind_of_ok (load_eq_ok.mpr ⟨hr, rfl⟩)⟩

/-- `PersistableDictionary::apply` changes one entry. -/
lemma get?_of_apply {st st' : Store} {key key' : Str} {value : Option Value} {op : BinaryOpType}
    (h : st.apply key value op = .ok st') (hne : key' ≠ key) : st'.get? key' = st.get? key' := by
  have hinsert : ∀ i, Store.get? { st with elementsInt := st.elementsInt.insert key i } key' =
      st.get? key' := fun i => by
    simp only [Store.get?, SortedMap.find?_insert_of_ne _ _ _ _ hne]
  unfold Store.apply at h
  split at h
  · cases h
  · split at h
    · split at h <;> cases h
      all_goals exact hinsert _
    · cases h

/-- `+=`, `-=` and `*=` on an entry of the store change that entry. -/
lemma effect_storeApply (r : Ref) (key : Str) (value : ValuePtr) (op : BinaryOpType) (s : State) :
    Effect none (some (.field r (.stored key))) s (finalState (storeApply r key value op) s) := by
  unfold storeApply
  rcases valueCast_run Value.store? r s with ⟨v, st, hr, hv, hcast⟩ | ⟨-, e, hcast⟩
  · cases v <;> cases hv
    rw [finalState_bind_of_ok hcast]
    rcases loadPtr_run value s with ⟨operand, hvalue⟩ | ⟨e, hvalue⟩
    · rw [finalState_bind_of_ok hvalue]
      cases hst : st.apply key operand op with
      | error e => exact .of_same rfl rfl
      | ok st' =>
        have hlift : liftExcept (.ok st') s = .ok st' s := rfl
        rw [finalState_bind_of_ok hlift]
        simp only [finalState_writeStore, hr, Option.map_some, Value.ctorIdx, if_true]
        refine .set_object hr rfl fun f hne => ⟨?_, ?_⟩
        · cases f <;> rfl
        · cases f with
          | stored key' =>
            have hkey : key' ≠ key := fun he => hne (by rw [he])
            simp only [Field.value, get?_of_apply hst hkey]
          | _ => rfl
    · rw [finalState_bind_of_error hvalue]
      exact .of_same rfl rfl
  · rw [finalState_bind_of_error hcast]
    exact .of_same rfl rfl

/-- `+=`, `-=` and `*=` on an element of a list. -/
lemma effect_listApply (r : Ref) (index : Int64) (value : ValuePtr) (op : BinaryOpType)
    (slot : Option Slot) (s : State) :
    Effect ((Update.list r index op value).overwrites s) slot s
      (finalState (listApply r index value op) s) := by
  unfold listApply
  rcases valueCast_run Value.list? r s with ⟨v, elements, hr, hv, hcast⟩ | ⟨hnone, e, hcast⟩
  · cases v <;> cases hv
    rw [finalState_bind_of_ok hcast]
    simp only [Update.overwrites, hr, Value.list?, Option.bind_eq_bind, Option.bind_some]
    cases PyList.setIndex (PyList.size elements) index with
    | none => exact .of_same rfl rfl
    | some position =>
      have happly := effect_augmentName op (elements.getD position none) value slot s
      simp only [Option.bind_some]
      rcases integerAt_run (elements.getD position none) s with htarget | ⟨hnone, e, htarget⟩
      · rw [finalState_bind_of_ok htarget]
        rcases integerAt_run value s with hvalue | ⟨hnone, e, hvalue⟩
        · rw [finalState_bind_of_ok hvalue]
          cases hi : Update.integerAt s (elements.getD position none) with
          | none => exact .of_same rfl rfl
          | some i =>
            cases hj : Update.integerAt s value with
            | none => exact .of_same rfl rfl
            | some j =>
              rw [hi, hj] at happly
              cases op <;> exact happly
        · rw [finalState_bind_of_error hvalue, hnone]
          cases Update.integerAt s (elements.getD position none) <;> exact .of_same rfl rfl
      · rw [finalState_bind_of_error htarget, hnone]
        exact .of_same rfl rfl
  · rw [finalState_bind_of_error hcast]
    simp only [Update.overwrites, hnone, Option.bind_eq_bind, Option.bind_none]
    exact .of_same rfl rfl

/-- An update overwrites the object `overwrites` names. -/
lemma effect_apply (u : Update) (s : State) :
    Effect (u.overwrites s) (u.target s) s (finalState u.apply s) := by
  cases u with
  | name scope id op target value => exact effect_augmentName op target value _ s
  | dictionary r key op value => exact effect_dictApply r key value op s
  | store r key op value => exact effect_storeApply r key value op s
  | list r index op value => exact effect_listApply r index value op _ s

/-! ### The statement -/

/-- `AugmentedAssign` up to the update. -/
def augmentedUpdate (rec : Rec) (scope : ScopeRef) : M Update := do
  let op ← readWord
  let lookAhead ← peekType
  if lookAhead = .subscript then do
    let _ ← readType
    let index ← assertGeneric (← evaluate rec scope)
    let sscr ← readName
    let obj ← getValue scope sscr
    let val ← evaluate rec scope
    let obj ← subscriptTarget sscr obj
    match ← load obj with
    | .dictionary _ => do
      let key ← dictKey index
      pure (.dictionary obj key (.ofCode op) val)
    | .persistableDictionary _ => do
      let key ← dictKey index
      pure (.store obj key (.ofCode op) val)
    | .list _ => do
      let i ← listKey index
      pure (.list obj i (.ofCode op) val)
    | _ => throwRuntime (lit "Variable '" ++ sscr ++ lit "' is not an array or dictionary.")
  else do
    let name ← readName
    let target ← getValue scope name
    let value ← evaluate rec scope
    pure (.name scope name (.ofCode op) target value)

/-- The statement applies its update and yields nothing. -/
lemma execAugmentedAssign_eq (rec : Rec) (scope : ScopeRef) :
    execAugmentedAssign rec scope = (do
      let u ← augmentedUpdate rec scope
      u.apply
      pure none) := by
  simp only [execAugmentedAssign, augmentedUpdate, bind_assoc]
  refine bind_congr fun op => bind_congr fun lookAhead => ?_
  split
  · simp only [bind_assoc]
    refine bind_congr fun _ => bind_congr fun _ => bind_congr fun index => bind_congr fun sscr =>
      bind_congr fun _ => bind_congr fun val => bind_congr fun obj => bind_congr fun v => ?_
    cases v <;> first | rfl | (simp only [bind_assoc, pure_bind]; rfl)
  · simp only [bind_assoc, pure_bind]
    rfl

/-- An augmented assignment changes a slot besides its target exactly when another slot holds
the integer object it writes into. -/
theorem augmentedAssign_changesOnly_iff_unshared (rec : Rec) (scope : ScopeRef) (u : Update)
    (s₀ s : State) (h : augmentedUpdate rec scope s₀ = .ok u s) :
    ChangesOnly (u.target s) s (finalState (execAugmentedAssign rec scope) s₀) ↔ Unshared u s := by
  have hfinal : finalState (execAugmentedAssign rec scope) s₀ = finalState u.apply s := by
    rw [execAugmentedAssign_eq, finalState_bind_of_ok h]
    cases happly : u.apply s with
    | ok _ s' => rw [finalState_bind_of_ok happly, finalState_of_ok happly]; rfl
    | error e s' => rw [finalState_bind_of_error happly, finalState_of_error happly]
  rw [hfinal]
  exact (effect_apply u s).changesOnly_iff

/-- `name = e`. -/
def assignName (name : String) (value : Ast .expr) : Ast .stmt :=
  .assign (.ofExprs [.name (lit name)]) value

/-- A function that has executed the first `count` statements of `body` and read the type of
the next one and its charge. -/
def stateBefore (body : List (Ast .stmt)) (count : Nat) : State :=
  finalState (do
      let _ ← readWord
      let _ ← readWord
      iterateM count (fun _ => do let _ ← executeNext 10 [1, 0] .normal) ()
      charge
      let _ ← readType)
    { startState (moduleCode body) 1000 with
      frames := (startState [] 1000).frames ++ [.empty] }

/-- `x = 1; y = x; x += 1` -/
def sharingBody : List (Ast .stmt) :=
  [assignName "x" (.number (.integer 1)), assignName "y" (.name (lit "x")),
    .augAssign .add (.name (lit "x")) (.number (.integer 1))]

/-- `x = 1; y = 1; x += 1` -/
def separateBody : List (Ast .stmt) :=
  [assignName "x" (.number (.integer 1)), assignName "y" (.number (.integer 1)),
    .augAssign .add (.name (lit "x")) (.number (.integer 1))]

/-- After `y = x`, the statement `x += 1` changes `y`. -/
theorem augmentedAssign_changesOnly_sharing_false :
    ∃ u s, augmentedUpdate (executeNext 10) [1, 0] (stateBefore sharingBody 2) = .ok u s ∧
      ¬ChangesOnly (u.target s) s
        (finalState (execAugmentedAssign (executeNext 10) [1, 0]) (stateBefore sharingBody 2)) := by
  have hu : returned (augmentedUpdate (executeNext 10) [1, 0]) (stateBefore sharingBody 2) =
      some (.name [1, 0] (lit "x") .add (some 1) (some 2)) := by decide +kernel
  refine ⟨_, _, eq_ok_of_returned hu, fun honly => ?_⟩
  have hy := honly (.var 1 (lit "y")) (.integer 1) (by decide +kernel) (by decide +kernel)
  exact absurd hy (by decide +kernel)

/-- With an object of its own, `y` keeps its value. -/
theorem augmentedAssign_changesOnly_separate :
    ∃ u s, augmentedUpdate (executeNext 10) [1, 0] (stateBefore separateBody 2) = .ok u s ∧
      ChangesOnly (u.target s) s
        (finalState (execAugmentedAssign (executeNext 10) [1, 0]) (stateBefore separateBody 2)) := by
  have hu : returned (augmentedUpdate (executeNext 10) [1, 0]) (stateBefore separateBody 2) =
      some (.name [1, 0] (lit "x") .add (some 1) (some 3)) := by decide +kernel
  refine ⟨_, _, eq_ok_of_returned hu,
    (augmentedAssign_changesOnly_iff_unshared _ _ _ _ _ (eq_ok_of_returned hu)).mpr ?_⟩
  generalize hs : finalState (augmentedUpdate (executeNext 10) [1, 0]) (stateBefore separateBody 2) = s
  have hframes : s.frames =
      [{ Frame.empty with values := SortedMap.empty.insert (lit "store") (some 0) },
        { Frame.empty with
          values := (SortedMap.empty.insert (lit "x") (some 1)).insert (lit "y") (some 2) }] := by
    rw [← hs]
    decide +kernel
  have hheap : s.heap = [.persistableDictionary .empty, .integer 1, .integer 1, .integer 1] := by
    rw [← hs]
    decide +kernel
  intro r new hr
  have hx : r = 1 := by
    simp only [Update.overwrites, Update.integerAt, hheap] at hr
    cases hr
    rfl
  subst hx
  refine .inr fun slot hne hcontent => ?_
  cases slot with
  | var id name =>
    rw [Slot.content, hframes] at hcontent
    rcases id with _ | _ | n
    · by_cases hname : name = lit "store"
      · simp [Scope.frame, hname] at hcontent
      · simp [Scope.frame, SortedMap.find?_insert_of_ne _ _ _ _ hname] at hcontent
    · by_cases hname : name = lit "y"
      · simp [Scope.frame, hname] at hcontent
      · by_cases hname' : name = lit "x"
        · refine hne ?_
          rw [hname', Update.target, hframes]
          decide
        · simp [Scope.frame, SortedMap.find?_insert_of_ne _ _ _ _ hname,
            SortedMap.find?_insert_of_ne _ _ _ _ hname'] at hcontent
    · simp [Scope.frame, Frame.empty] at hcontent
  | field r' f =>
    rw [Slot.content, hheap] at hcontent
    rcases r' with _ | _ | _ | _ | n
    iterate 4 cases f <;> simp [Field.pointer] at hcontent
    simp at hcontent

end ContractPython.Proofs
