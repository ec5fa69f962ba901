import ContractPython.Proofs.Arithmetic
import ContractPython.Proofs.Sequences

/-!
# Updates of containers

`List::apply`, `Dictionary::apply` and `PersistableDictionary::apply` are three copies of one
switch. They should leave in the slot they address what the operator gives, a missing key standing
for zero, and the two dictionaries should do the same.
-/

namespace ContractPython.Proofs

open Program M

/-! ### Slots of containers -/

/-- A slot that an update addresses. -/
inductive Place
  | element (r : Ref) (i : Int64)
  | entry (r : Ref) (key : Str)
  | stored (r : Ref) (key : Str)

namespace Place

/-- `slot op= value`. -/
def apply : Place → ValuePtr → BinaryOpType → M Unit
  | .element r i, value, op => listApply r i value op
  | .entry r key, value, op => dictApply r key value op
  | .stored r key, value, op => storeApply r key value op

/-- The integer behind a pointer. -/
def integerOf (heap : List Value) (p : ValuePtr) : Option Int64 := do
  let r ← p
  let v ← heap[r]?
  v.integer?

/-- The integer in a slot; that of a missing key is zero. -/
def integer? (heap : List Value) : Place → Option Int64
  | .element r i => do
    let l ← heap[r]?.bind Value.list?
    let k ← position l.length i.toInt
    let p ← l[k]?
    integerOf heap p
  | .entry r key => do
    let elements ← heap[r]?.bind Value.dictionary?
    match elements.find? key with
    | some p => integerOf heap p
    | none => some 0
  | .stored r key => do
    let st ← heap[r]?.bind Value.store?
    match st.get? key with
    | some v => v.integer?
    | none => some 0

end Place

/-- An update of a slot that holds `old` with an object that holds `v` leaves the result of the
operator there. -/
def UpdatesSlot (s : State) (place : Place) (op : BinaryOpType) (value : Ref) (old v : Int64) : Prop :=
  ∃ s', place.apply (some value) op s = .ok () s' ∧ place.integer? s'.heap = some (wide op old v)

/-- A key that `PersistableDictionary::apply` takes for one of no integer: the entry of a bool
stays when an integer is inserted. -/
def blocks (st : Store) (key : Str) : Bool :=
  st.elementsBool.contains key || st.elementsDouble.contains key || st.elementsString.contains key

/-- What `Dictionary::apply` computes from an entry: `*=` adds. -/
def entryResult : BinaryOpType → Int64 → Int64 → Int64
  | .mult, old, v => old + v
  | op, old, v => wide op old v

/-- When it does. -/
def SlotUpdates (s : State) (op : BinaryOpType) (old v : Int64) : Place → Prop
  | .element r i => ∀ l, s.heap[r]? = some (.list l) →
    2 ^ 32 - ((l.length % 2 ^ 32 : Nat) : Int) < i.toInt ∧ i.toInt < (l.length % 2 ^ 32 : Nat)
  | .entry r key => ∀ elements, s.heap[r]? = some (.dictionary elements) →
    if elements.contains key then entryResult op old v = wide op old v
    else op = .mult → MemoryLeft s
  | .stored r key => ∀ st, s.heap[r]? = some (.persistableDictionary st) → blocks st key = false

variable {s : State} {value : Ref} {v old : Int64} {op : BinaryOpType}

lemma integerOf_eq_some {heap : List Value} {p : ValuePtr} {i : Int64} :
    Place.integerOf heap p = some i ↔ ∃ r, p = some r ∧ heap[r]? = some (.integer i) := by
  cases p with
  | none => simp [Place.integerOf]
  | some r =>
    cases h : heap[r]? with
    | none => simp [Place.integerOf, h]
    | some v => cases v <;> simp [Place.integerOf, h, Value.integer?]

/-- An update of an integer object. -/
lemma integerOf_set_self {heap : List Value} {r : Ref} {i j : Int64} (h : heap[r]? = some (.integer i)) :
    Place.integerOf (heap.set r (.integer j)) (some r) = some j :=
  integerOf_eq_some.mpr ⟨r, rfl, List.getElem?_set_self (List.getElem?_eq_some_iff.mp h).1⟩

/-- The cell of a container is not that of an integer. -/
lemma getElem?_set_container {heap : List Value} {r rt : Ref} {v : Value} {i j : Int64}
    (h : heap[r]? = some v) (hrt : heap[rt]? = some (.integer i)) (hv : v.integer? = none) :
    (heap.set rt (.integer j))[r]? = some v := by
  have hne : rt ≠ r := by
    rintro rfl
    rw [h] at hrt
    cases hrt
    cases hv
  rw [List.getElem?_set_ne hne, h]

/-- Nor is the cell of an integer that of a container. -/
lemma getElem?_set_integer {heap : List Value} {r rc : Ref} {v v' : Value} {i : Int64}
    (h : heap[r]? = some (.integer i)) (hrc : heap[rc]? = some v) (hv : v.integer? = none) :
    (heap.set rc v')[r]? = some (.integer i) := by
  have hne : rc ≠ r := by
    rintro rfl
    rw [h] at hrc
    cases hrc
    cases hv
  rw [List.getElem?_set_ne hne, h]

/-! ### Lists -/

/-- `List::apply` with an index it accepts. -/
lemma listApply_front {r : Ref} {i : Int64} {l : List ValuePtr} {k : Nat} {rt : Ref}
    (hop : op ∈ arithmeticOps) (hr : s.heap[r]? = some (.list l))
    (hk : PyList.setIndex (PyList.size l) i = some k) (hget : l[k]? = some (some rt))
    (hrt : s.heap[rt]? = some (.integer old)) (hv : s.heap[value]? = some (.integer v)) :
    listApply r i (some value) op s =
      .ok () { s with heap := s.heap.set rt (.integer (wide op old v)) } := by
  have hgetD : l.getD k none = some rt := by
    rw [List.getD_eq_getElem?_getD, hget]
    rfl
  have happly := augmentName_apply hop hrt hv
  unfold listApply
  rw [bind_of_ok (valueCast_of_heap Value.list? hr rfl)]
  simp only [hk, hgetD]
  rw [bind_of_ok (integerAt_of_heap hrt), bind_of_ok (integerAt_of_heap hv)]
  rcases mem_arithmeticOps.mp hop with rfl | rfl | rfl <;> exact happly

lemma updatesSlot_element_iff {r : Ref} {i : Int64} (hop : op ∈ arithmeticOps)
    (hv : s.heap[value]? = some (.integer v)) (hold : (Place.element r i).integer? s.heap = some old) :
    UpdatesSlot s (.element r i) op value old v ↔ SlotUpdates s op old v (.element r i) := by
  simp only [Place.integer?, Option.bind_eq_bind, Option.bind_eq_some_iff] at hold
  obtain ⟨l, ⟨cell, hcell, hl⟩, k, hposition, p, hget, hp⟩ := hold
  cases cell <;> cases hl
  obtain ⟨rt, rfl, hrt⟩ := integerOf_eq_some.mp hp
  have hset := setIndex_eq (PyList.size l) i
  rw [toNat_size] at hset
  constructor
  · rintro ⟨s', hok, -⟩ l' hl'
    cases hcell.symm.trans hl'
    by_contra hout
    rw [if_neg hout] at hset
    have herror := (listApply_outOfRange_iff i (some value) op hcell).mpr hset
    cases hok.symm.trans herror
  · intro hfront
    have hfront := hfront l hcell
    rw [if_pos hfront] at hset
    have hk : k = i.toInt.toNat := by
      have hfront' := position_of_front (n := l.length) (i := i.toInt) (by omega) (by omega)
      exact Option.some.inj (hposition.symm.trans hfront')
    subst hk
    refine ⟨_, listApply_front hop hcell hset hget hrt hv, ?_⟩
    have hcell' := getElem?_set_container (j := wide op old v) hcell hrt rfl
    simp only [Place.integer?, hcell', Option.bind_eq_bind, Option.bind_some, Value.list?, hposition, hget]
    exact integerOf_set_self hrt

/-! ### Dictionaries -/

section Dictionaries

variable {r : Ref} {key : Str} {elements : SortedMap Str ValuePtr}
  (hr : s.heap[r]? = some (.dictionary elements)) (hv : s.heap[value]? = some (.integer v))
include hr hv

/-- `Dictionary::apply` on a key that holds an integer. -/
lemma dictApply_present {rt : Ref} (hop : op ∈ arithmeticOps)
    (hkey : elements.find? key = some (some rt)) (hrt : s.heap[rt]? = some (.integer old)) :
    dictApply r key (some value) op s =
      .ok () { s with heap := s.heap.set rt (.integer (entryResult op old v)) } := by
  have hget : dictGet elements key = some rt := by rw [dictGet, hkey, Option.getD_some]
  unfold dictApply
  rw [bind_of_ok (valueCast_of_heap Value.dictionary? hr rfl), bind_of_ok (integerAt_of_heap hv)]
  simp only [hget]
  rw [bind_of_ok (load_of_heap hrt)]
  rcases mem_arithmeticOps.mp hop with rfl | rfl | rfl
  · exact augmentName_apply hop hrt hv
  · exact augmentName_apply hop hrt hv
  · have hadd : BinaryOpType.add ∈ arithmeticOps := by simp [arithmeticOps]
    exact augmentName_apply hadd hrt hv

/-- `Dictionary::apply` on a missing key. -/
lemma dictApply_missing (hkey : elements.find? key = none) :
    dictApply r key (some value) op s = (match op with
      | .add => storeAt r (.dictionary (elements.insert key (some value)))
      | .sub => do
        storeAt value (.integer (-1 * v))
        storeAt r (.dictionary (elements.insert key (some value)))
      | .mult => do
        let zero ← create (.integer 0)
        storeAt r (.dictionary (elements.insert key zero))
      | _ => throwRuntime (lit "Unknown binary op")) s := by
  have hget : dictGet elements key = none := by rw [dictGet, hkey, Option.getD_none]
  unfold dictApply
  rw [bind_of_ok (valueCast_of_heap Value.dictionary? hr rfl), bind_of_ok (integerAt_of_heap hv)]
  cases op <;> simp only [hget]

lemma dictApply_missing_add (hkey : elements.find? key = none) :
    dictApply r key (some value) .add s = .ok ()
      { s with heap := s.heap.set r (.dictionary (elements.insert key (some value))) } := by
  rw [dictApply_missing hr hv hkey]
  exact storeAt_of_heap hr rfl

/-- The operand's own object is negated. -/
lemma dictApply_missing_sub (hkey : elements.find? key = none) :
    dictApply r key (some value) .sub s = .ok () { s with
      heap := (s.heap.set value (.integer (-1 * v))).set r
        (.dictionary (elements.insert key (some value))) } := by
  have hneg : storeAt value (.integer (-1 * v)) s =
      .ok () { s with heap := s.heap.set value (Value.integer (-1 * v)) } := storeAt_of_heap hv rfl
  rw [dictApply_missing hr hv hkey]
  simp only
  rw [bind_of_ok hneg]
  exact storeAt_of_heap (getElem?_set_container hr hv rfl) rfl

lemma dictApply_missing_mult (hkey : elements.find? key = none) (hmem : MemoryLeft s) :
    dictApply r key (some value) .mult s = .ok () { created (.integer 0) s with
      heap := (s.heap ++ [Value.integer 0]).set r
        (.dictionary (elements.insert key (some s.heap.length))) } := by
  have hcell : (created (.integer 0) s).heap[r]? = some (.dictionary elements) := by
    show (s.heap ++ [Value.integer 0])[r]? = _
    rw [List.getElem?_append_left (lt_length_of_heap hr), hr]
  rw [dictApply_missing hr hv hkey]
  simp only
  rw [bind_of_ok (create_of_memoryLeft hmem _)]
  exact storeAt_of_heap hcell rfl

lemma dictApply_missing_mult_throws (hkey : elements.find? key = none) (hmem : ¬MemoryLeft s) :
    ∃ e s', dictApply r key (some value) .mult s = .error e s' := by
  obtain ⟨e, hcreate⟩ := create_of_not_memoryLeft hmem (.integer 0)
  rw [dictApply_missing hr hv hkey]
  exact ⟨e, _, bind_of_error hcreate⟩

end Dictionaries

lemma integer?_entry {heap : List Value} {r : Ref} {elements : SortedMap Str ValuePtr} {key : Str}
    (h : heap[r]? = some (.dictionary elements)) : (Place.entry r key).integer? heap =
      match elements.find? key with
      | some p => Place.integerOf heap p
      | none => some 0 := by
  simp only [Place.integer?, h, Option.bind_eq_bind, Option.bind_some, Value.dictionary?]

/-- A new entry of a dictionary. -/
lemma integer?_inserted {heap : List Value} {r rv : Ref} {elements : SortedMap Str ValuePtr} {key : Str}
    {v : Value} {i : Int64} (h : heap[r]? = some v) (hrv : heap[rv]? = some (.integer i))
    (hv : v.integer? = none) : (Place.entry r key).integer?
      (heap.set r (.dictionary (elements.insert key (some rv)))) = some i := by
  have hlt : r < heap.length := (List.getElem?_eq_some_iff.mp h).1
  have hne : r ≠ rv := by
    rintro rfl
    rw [h] at hrv
    cases hrv
    cases hv
  rw [integer?_entry (List.getElem?_set_self hlt), SortedMap.find?_insert_self]
  exact integerOf_eq_some.mpr ⟨rv, rfl, by rw [List.getElem?_set_ne hne, hrv]⟩

lemma updatesSlot_entry_iff {r : Ref} {key : Str} (hop : op ∈ arithmeticOps)
    (hv : s.heap[value]? = some (.integer v)) (hold : (Place.entry r key).integer? s.heap = some old) :
    UpdatesSlot s (.entry r key) op value old v ↔ SlotUpdates s op old v (.entry r key) := by
  obtain ⟨elements, hr⟩ : ∃ elements, s.heap[r]? = some (.dictionary elements) := by
    simp only [Place.integer?, Option.bind_eq_bind, Option.bind_eq_some_iff] at hold
    obtain ⟨elements, ⟨cell, hcell, helements⟩, -⟩ := hold
    cases cell <;> cases helements
    exact ⟨elements, hcell⟩
  have hcondition : SlotUpdates s op old v (.entry r key) ↔ if elements.contains key then
      entryResult op old v = wide op old v else op = .mult → MemoryLeft s := by
    simp [SlotUpdates, hr]
  rw [hcondition]
  rw [integer?_entry hr] at hold
  cases hkey : elements.find? key with
  | some p =>
    rw [hkey] at hold
    obtain ⟨rt, rfl, hrt⟩ := integerOf_eq_some.mp hold
    rw [if_pos (by simp [SortedMap.contains, hkey])]
    have happly := dictApply_present hr hv hop hkey hrt
    have hafter : (Place.entry r key).integer? (s.heap.set rt (.integer (entryResult op old v))) =
        some (entryResult op old v) := by
      rw [integer?_entry (getElem?_set_container hr hrt rfl), hkey]
      exact integerOf_set_self hrt
    constructor
    · rintro ⟨s', hok, hresult⟩
      cases happly.symm.trans hok
      exact Option.some.inj (hafter.symm.trans hresult)
    · intro hresult
      exact ⟨_, happly, by rw [← hresult]; exact hafter⟩
  | none =>
    rw [hkey] at hold
    cases hold
    rw [if_neg (by simp [SortedMap.contains, hkey])]
    rcases mem_arithmeticOps.mp hop with rfl | rfl | rfl
    · refine ⟨fun _ h => absurd h (by decide), fun _ => ⟨_, dictApply_missing_add hr hv hkey, ?_⟩⟩
      rw [integer?_inserted hr hv rfl]
      simp [wide]
    · refine ⟨fun _ h => absurd h (by decide), fun _ => ⟨_, dictApply_missing_sub hr hv hkey, ?_⟩⟩
      have hneg : (s.heap.set value (.integer (-1 * v)))[value]? = some (.integer (-1 * v)) :=
        List.getElem?_set_self (lt_length_of_heap hv)
      rw [integer?_inserted (getElem?_set_container hr hv rfl) hneg rfl, wide, Int64.zero_sub,
        ← Int64.neg_eq_neg_one_mul]
    · constructor
      · rintro ⟨s', hok, -⟩ -
        by_contra hmem
        obtain ⟨e, s'', herror⟩ := dictApply_missing_mult_throws hr hv hkey hmem
        cases hok.symm.trans herror
      · intro hmem
        refine ⟨_, dictApply_missing_mult hr hv hkey (hmem rfl), ?_⟩
        have hcell : (s.heap ++ [Value.integer 0])[r]? = some (.dictionary elements) := by
          rw [List.getElem?_append_left (lt_length_of_heap hr), hr]
        have hzero : (s.heap ++ [Value.integer 0])[s.heap.length]? = some (.integer 0) := by simp
        exact (integer?_inserted hcell hzero rfl).trans (by simp [wide])

/-! ### Persistable dictionaries -/

section Stores

variable {r : Ref} {key : Str} {st : Store}

/-- The store after an update. -/
def updatedStore (st : Store) (key : Str) (op : BinaryOpType) (v : Int64) : Store :=
  { st with elementsInt := st.elementsInt.insert key (wide op ((st.elementsInt.find? key).getD 0) v) }

lemma apply_eq (hop : op ∈ arithmeticOps) : st.apply key (some (.integer v)) op =
    if blocks st key then .error (.runtimeError (lit "Values need to be numerics"))
    else .ok (updatedStore st key op v) := by
  unfold Store.apply blocks
  split
  · rfl
  · rcases mem_arithmeticOps.mp hop with rfl | rfl | rfl
    · simp only [updatedStore, wide, Int64.add_comm]
    · rfl
    · rfl

/-- `PersistableDictionary::apply` with an integer. -/
lemma storeApply_eq (key : Str) (hop : op ∈ arithmeticOps) (hr : s.heap[r]? = some (.persistableDictionary st))
    (hv : s.heap[value]? = some (.integer v)) : storeApply r key (some value) op s =
      if blocks st key then .error (.runtimeError (lit "Values need to be numerics")) s
      else .ok () { s with
        heap := s.heap.set r (.persistableDictionary (updatedStore st key op v))
        log := .storeWritten :: s.log } := by
  have hload : loadPtr (some value) s = .ok (some (.integer v)) s := bind_of_ok (load_of_heap hv)
  unfold storeApply
  rw [bind_of_ok (valueCast_of_heap Value.store? hr rfl), bind_of_ok hload, apply_eq hop]
  split
  · rfl
  · have hwrite : storeAt r (.persistableDictionary (updatedStore st key op v)) s =
        .ok () { s with heap := s.heap.set r (.persistableDictionary (updatedStore st key op v)) } :=
      storeAt_of_heap hr rfl
    have hlift : liftExcept (.ok (updatedStore st key op v)) s = .ok (updatedStore st key op v) s := rfl
    rw [bind_of_ok hlift]
    exact bind_of_ok hwrite

lemma blocks_eq_false : blocks st key = false ↔
    (st.elementsBool.find? key = none ∧ st.elementsDouble.find? key = none) ∧
      st.elementsString.find? key = none := by
  simp [blocks, SortedMap.contains]

/-- The key holds an integer or is missing. -/
lemma getD_of_get? (h : (match st.get? key with
      | some v => v.integer?
      | none => some 0) = some old) : (st.elementsInt.find? key).getD 0 = old := by
  unfold Store.get? at h
  cases hstring : st.elementsString.find? key with
  | some text => simp [hstring, Value.integer?] at h
  | none =>
    cases hint : st.elementsInt.find? key with
    | some i => simpa [hstring, hint, Value.integer?] using h
    | none =>
      cases hdouble : st.elementsDouble.find? key with
      | some f => simp [hstring, hint, hdouble, Value.integer?] at h
      | none =>
        cases hbool : st.elementsBool.find? key with
        | some b => simp [hstring, hint, hdouble, hbool, Value.integer?] at h
        | none => simpa [hstring, hint, hdouble, hbool] using h

lemma get?_updatedStore (hfree : blocks st key = false) :
    (updatedStore st key op v).get? key =
      some (.integer (wide op ((st.elementsInt.find? key).getD 0) v)) := by
  obtain ⟨-, hstring⟩ := blocks_eq_false.mp hfree
  simp [Store.get?, updatedStore, hstring]

lemma get?_updatedStore_of_ne {key' : Str} (hne : key' ≠ key) :
    (updatedStore st key op v).get? key' = st.get? key' := by
  simp only [Store.get?, updatedStore, SortedMap.find?_insert_of_ne _ _ _ _ hne]

lemma integer?_stored {heap : List Value} (h : heap[r]? = some (.persistableDictionary st)) :
    (Place.stored r key).integer? heap =
      match st.get? key with
      | some v => v.integer?
      | none => some 0 := by
  simp only [Place.integer?, h, Option.bind_eq_bind, Option.bind_some, Value.store?]

lemma updatesSlot_stored_iff (hop : op ∈ arithmeticOps) (hv : s.heap[value]? = some (.integer v))
    (hold : (Place.stored r key).integer? s.heap = some old) :
    UpdatesSlot s (.stored r key) op value old v ↔ SlotUpdates s op old v (.stored r key) := by
  obtain ⟨st, hr⟩ : ∃ st, s.heap[r]? = some (.persistableDictionary st) := by
    simp only [Place.integer?, Option.bind_eq_bind, Option.bind_eq_some_iff] at hold
    obtain ⟨st, ⟨cell, hcell, hst⟩, -⟩ := hold
    cases cell <;> cases hst
    exact ⟨st, hcell⟩
  have hcondition : SlotUpdates s op old v (.stored r key) ↔ blocks st key = false := by
    simp [SlotUpdates, hr]
  have happly := storeApply_eq key hop hr hv
  rw [hcondition]
  rw [integer?_stored hr] at hold
  constructor
  · rintro ⟨s', hok, -⟩
    by_contra hblocked
    rw [if_pos (by simpa using hblocked)] at happly
    cases hok.symm.trans happly
  · intro hfree
    rw [hfree, if_neg Bool.false_ne_true] at happly
    refine ⟨_, happly, ?_⟩
    have hcell : (s.heap.set r (.persistableDictionary (updatedStore st key op v)))[r]? =
        some (.persistableDictionary (updatedStore st key op v)) :=
      List.getElem?_set_self (lt_length_of_heap hr)
    rw [integer?_stored hcell, get?_updatedStore hfree, getD_of_get? hold]
    rfl

end Stores

/-! ### The two dictionaries -/

/-- The dictionary holds the integers that the persistable dictionary holds, and nothing else. -/
def SameIntegers (heap : List Value) (elements : SortedMap Str ValuePtr) (st : Store) : Prop :=
  ∀ key, match st.get? key with
    | some v => ∃ i r, v = .integer i ∧ elements.find? key = some (some r) ∧ heap[r]? = some (.integer i)
    | none => elements.find? key = none

/-- The same update of a dictionary and of a persistable one: both hold the same integers
afterwards, or both updates throw. -/
def UpdatesAlike (s : State) (dict store : Ref) (key : Str) (op : BinaryOpType) (value : Ref) : Prop :=
  (∃ s₁ s₂ elements st, dictApply dict key (some value) op s = .ok () s₁ ∧
      storeApply store key (some value) op s = .ok () s₂ ∧
      s₁.heap[dict]? = some (.dictionary elements) ∧
      s₂.heap[store]? = some (.persistableDictionary st) ∧ SameIntegers s₁.heap elements st) ∨
    (∃ e s₁, dictApply dict key (some value) op s = .error e s₁) ∧
      ∃ e s₂, storeApply store key (some value) op s = .error e s₂

/-- When they do. No other key may see the object change that is written into. -/
def AlikeUpdates (s : State) (elements : SortedMap Str ValuePtr) (st : Store) (key : Str)
    (op : BinaryOpType) (value : Ref) (v : Int64) : Prop :=
  blocks st key = false ∧ match elements.find? key with
    | some p => ∀ old, Place.integerOf s.heap p = some old → entryResult op old v = wide op old v ∧
        ∀ key', key' ≠ key → elements.find? key' = some p → entryResult op old v = old
    | none => (op = .sub → ∀ key', elements.find? key' = some (some value) → -1 * v = v) ∧
        (op = .mult → MemoryLeft s)

section Alike

variable {heap heap' : List Value} {elements elements' : SortedMap Str ValuePtr} {st : Store} {key : Str}

/-- What is left to check after both have changed the entry of `key`. -/
lemma sameIntegers_updated_iff {rv : Ref} (h : SameIntegers heap elements st)
    (hfree : blocks st key = false) (hold : (st.elementsInt.find? key).getD 0 = old)
    (hself : elements'.find? key = some (some rv))
    (hother : ∀ key', key' ≠ key → elements'.find? key' = elements.find? key') :
    SameIntegers heap' elements' (updatedStore st key op v) ↔
      heap'[rv]? = some (.integer (wide op old v)) ∧
        ∀ key' r i, key' ≠ key → elements.find? key' = some (some r) →
          heap[r]? = some (.integer i) → heap'[r]? = some (.integer i) := by
  constructor
  · intro hafter
    constructor
    · have hkey := hafter key
      rw [get?_updatedStore hfree, hold, hself] at hkey
      obtain ⟨i, r, hi, hr, hcell⟩ := hkey
      cases hi
      cases hr
      exact hcell
    · intro key' r i hne hfind hcell
      have hbefore := h key'
      have hkey' := hafter key'
      rw [get?_updatedStore_of_ne hne, hother key' hne] at hkey'
      cases hget : st.get? key' with
      | none =>
        rw [hget] at hbefore
        cases hfind.symm.trans hbefore
      | some w =>
        rw [hget] at hbefore hkey'
        obtain ⟨j, r₁, rfl, hr₁, hj⟩ := hbefore
        obtain ⟨j', r₂, hw, hr₂, hj'⟩ := hkey'
        cases hw
        cases hfind.symm.trans hr₁
        cases hfind.symm.trans hr₂
        cases hcell.symm.trans hj
        exact hj'
  · rintro ⟨hnew, hrest⟩ key'
    by_cases hne : key' = key
    · subst hne
      rw [get?_updatedStore hfree, hold]
      exact ⟨_, rv, rfl, hself, hnew⟩
    · have hbefore := h key'
      rw [get?_updatedStore_of_ne hne, hother key' hne]
      cases hget : st.get? key' with
      | none =>
        rw [hget] at hbefore
        exact hbefore
      | some w =>
        rw [hget] at hbefore
        obtain ⟨i, r, rfl, hfind, hcell⟩ := hbefore
        exact ⟨i, r, rfl, hfind, hrest key' r i hne hfind hcell⟩

/-- A key the dictionary knows stands for its integer in the store, too. -/
lemma getD_of_sameIntegers {p : ValuePtr} (h : SameIntegers heap elements st)
    (hkey : elements.find? key = some p) :
    ∃ r i, p = some r ∧ heap[r]? = some (.integer i) ∧ (st.elementsInt.find? key).getD 0 = i := by
  have hsame := h key
  cases hget : st.get? key with
  | none =>
    rw [hget] at hsame
    cases hkey.symm.trans hsame
  | some w =>
    rw [hget] at hsame
    obtain ⟨i, r, rfl, hfind, hcell⟩ := hsame
    cases hkey.symm.trans hfind
    exact ⟨r, i, rfl, hcell, getD_of_get? (by rw [hget]; rfl)⟩

lemma free_of_missing (h : SameIntegers heap elements st) (hkey : elements.find? key = none) :
    blocks st key = false ∧ (st.elementsInt.find? key).getD 0 = 0 := by
  have hget : st.get? key = none := by
    have hsame := h key
    cases hget : st.get? key with
    | none => rfl
    | some w =>
      rw [hget] at hsame
      obtain ⟨i, r, -, hfind, -⟩ := hsame
      cases hkey.symm.trans hfind
  refine ⟨?_, getD_of_get? (by rw [hget])⟩
  unfold Store.get? at hget
  rw [blocks_eq_false]
  split at hget
  · cases hget
  · rename_i hstring
    split at hget
    · cases hget
    · split at hget
      · cases hget
      · rename_i hdouble
        exact ⟨⟨Option.map_eq_none_iff.mp hget, hdouble⟩, hstring⟩

variable {dict store : Ref} (hop : op ∈ arithmeticOps)
  (hdict : s.heap[dict]? = some (.dictionary elements))
  (hstore : s.heap[store]? = some (.persistableDictionary st))
  (hv : s.heap[value]? = some (.integer v)) (h : SameIntegers s.heap elements st)
include hop hstore hv h

/-- An update that the dictionary takes, of a key that the store does not block. -/
lemma updatesAlike_iff_of_ok {s₁ : State} {rv : Ref} (hfree : blocks st key = false)
    (hold : (st.elementsInt.find? key).getD 0 = old)
    (happly : dictApply dict key (some value) op s = .ok () s₁)
    (hdict : s₁.heap[dict]? = some (.dictionary elements')) (hself : elements'.find? key = some (some rv))
    (hother : ∀ key', key' ≠ key → elements'.find? key' = elements.find? key') :
    UpdatesAlike s dict store key op value ↔ s₁.heap[rv]? = some (.integer (wide op old v)) ∧
      ∀ key' r i, key' ≠ key → elements.find? key' = some (some r) →
        s.heap[r]? = some (.integer i) → s₁.heap[r]? = some (.integer i) := by
  have hstoreApply := storeApply_eq key hop hstore hv
  rw [hfree, if_neg Bool.false_ne_true] at hstoreApply
  have hcell : (s.heap.set store (.persistableDictionary (updatedStore st key op v)))[store]? =
      some (.persistableDictionary (updatedStore st key op v)) :=
    List.getElem?_set_self (lt_length_of_heap hstore)
  rw [← sameIntegers_updated_iff h hfree hold hself hother]
  constructor
  · rintro (⟨s₁', s₂, elements₁, st₁, hok, hok', hdict', hstore', hsame⟩ | ⟨⟨e, s₁', herror⟩, -⟩)
    · cases happly.symm.trans hok
      cases hstoreApply.symm.trans hok'
      cases hdict.symm.trans hdict'
      cases hcell.symm.trans hstore'
      exact hsame
    · cases happly.symm.trans herror
  · intro hsame
    exact .inl ⟨_, _, _, _, happly, hstoreApply, hdict, hcell, hsame⟩

include hdict

/-- A key that holds an integer. -/
lemma updatesAlike_present_iff {p : ValuePtr} (hkey : elements.find? key = some p) :
    UpdatesAlike s dict store key op value ↔ blocks st key = false ∧
      ∀ old, Place.integerOf s.heap p = some old → entryResult op old v = wide op old v ∧
        ∀ key', key' ≠ key → elements.find? key' = some p → entryResult op old v = old := by
  obtain ⟨rt, old, rfl, hrt, hold⟩ := getD_of_sameIntegers h hkey
  have happly := dictApply_present hdict hv hop hkey hrt
  cases hblocks : blocks st key with
  | true =>
    -- only the store refuses
    have hstoreApply := storeApply_eq key hop hstore hv
    rw [hblocks, if_pos rfl] at hstoreApply
    refine ⟨fun halike => ?_, fun halike => nomatch halike.1⟩
    obtain ⟨s₁, s₂, _, _, -, hok, -⟩ | ⟨⟨e, s₁, herror⟩, -⟩ := halike
    · cases hstoreApply.symm.trans hok
    · cases happly.symm.trans herror
  | false =>
    have hcell := getElem?_set_container (j := entryResult op old v) hdict hrt rfl
    have hnew : (s.heap.set rt (.integer (entryResult op old v)))[rt]? =
        some (.integer (entryResult op old v)) := List.getElem?_set_self (lt_length_of_heap hrt)
    rw [updatesAlike_iff_of_ok hop hstore hv h hblocks hold happly hcell hkey fun _ _ => rfl]
    simp only [true_and]
    constructor
    · rintro ⟨hself, hrest⟩ old' hold'
      obtain ⟨r, hr, hcell'⟩ := integerOf_eq_some.mp hold'
      cases hr
      cases hrt.symm.trans hcell'
      have hresult := hnew.symm.trans hself
      refine ⟨by simpa using hresult, fun key' hne hfind => ?_⟩
      have hshared := hnew.symm.trans (hrest key' rt old hne hfind hrt)
      simpa using hshared
    · intro halike
      obtain ⟨hresult, hshared⟩ := halike old (integerOf_eq_some.mpr ⟨rt, rfl, hrt⟩)
      refine ⟨by rw [hnew, hresult], fun key' r i hne hfind hcell' => ?_⟩
      by_cases hr : r = rt
      · subst hr
        cases hrt.symm.trans hcell'
        rw [hnew, hshared key' hne hfind]
      · rw [List.getElem?_set_ne (Ne.symm hr), hcell']

end Alike

section Missing

variable {elements : SortedMap Str ValuePtr} {st : Store} {key : Str} {dict store : Ref}
  (hdict : s.heap[dict]? = some (.dictionary elements))
  (hstore : s.heap[store]? = some (.persistableDictionary st))
  (hv : s.heap[value]? = some (.integer v)) (h : SameIntegers s.heap elements st)
  (hkey : elements.find? key = none)
include hdict hstore hv h hkey

lemma updatesAlike_missing_add : UpdatesAlike s dict store key .add value := by
  obtain ⟨hfree, hold⟩ := free_of_missing h hkey
  refine (updatesAlike_iff_of_ok (by simp [arithmeticOps]) hstore hv h hfree hold
    (dictApply_missing_add hdict hv hkey) (List.getElem?_set_self (lt_length_of_heap hdict))
    (SortedMap.find?_insert_self _ _ _) fun _ hne => SortedMap.find?_insert_of_ne _ _ _ _ hne).mpr ⟨?_, ?_⟩
  · rw [wide, Int64.zero_add]
    exact getElem?_set_integer hv hdict rfl
  · intro key' r i _ _ hcell
    exact getElem?_set_integer hcell hdict rfl

lemma updatesAlike_missing_sub_iff : UpdatesAlike s dict store key .sub value ↔
    ∀ key', elements.find? key' = some (some value) → -1 * v = v := by
  obtain ⟨hfree, hold⟩ := free_of_missing h hkey
  have hdict' := getElem?_set_container (j := -1 * v) hdict hv rfl
  have hneg : (s.heap.set value (.integer (-1 * v)))[value]? = some (.integer (-1 * v)) :=
    List.getElem?_set_self (lt_length_of_heap hv)
  rw [updatesAlike_iff_of_ok (by simp [arithmeticOps]) hstore hv h hfree hold
    (dictApply_missing_sub hdict hv hkey)
    (List.getElem?_set_self (List.getElem?_eq_some_iff.mp hdict').1)
    (SortedMap.find?_insert_self _ _ _) fun _ hne => SortedMap.find?_insert_of_ne _ _ _ _ hne]
  constructor
  · rintro ⟨-, hrest⟩ key' hfind
    have hne : key' ≠ key := by
      rintro rfl
      cases hkey.symm.trans hfind
    have hshared := (getElem?_set_integer hneg hdict' rfl).symm.trans (hrest key' value v hne hfind hv)
    simpa using hshared
  · intro hshared
    have hsub : wide .sub 0 v = -1 * v := by rw [wide, Int64.zero_sub, ← Int64.neg_eq_neg_one_mul]
    constructor
    · rw [hsub]
      exact getElem?_set_integer hneg hdict' rfl
    · intro key' r i hne hfind hcell
      refine getElem?_set_integer ?_ hdict' rfl
      by_cases hr : r = value
      · subst hr
        cases hv.symm.trans hcell
        rw [hneg, hshared key' hfind]
      · rw [List.getElem?_set_ne (Ne.symm hr), hcell]

lemma updatesAlike_missing_mult_iff : UpdatesAlike s dict store key .mult value ↔ MemoryLeft s := by
  obtain ⟨hfree, hold⟩ := free_of_missing h hkey
  have hmult : BinaryOpType.mult ∈ arithmeticOps := by simp [arithmeticOps]
  by_cases hmem : MemoryLeft s
  · have hdict' : (s.heap ++ [Value.integer 0])[dict]? = some (.dictionary elements) := by
      rw [List.getElem?_append_left (lt_length_of_heap hdict), hdict]
    have hzero : (s.heap ++ [Value.integer 0])[s.heap.length]? = some (.integer 0) := by simp
    refine ⟨fun _ => hmem, fun _ => (updatesAlike_iff_of_ok hmult hstore hv h hfree hold
      (dictApply_missing_mult hdict hv hkey hmem)
      (List.getElem?_set_self (List.getElem?_eq_some_iff.mp hdict').1)
      (SortedMap.find?_insert_self _ _ _)
      fun _ hne => SortedMap.find?_insert_of_ne _ _ _ _ hne).mpr ⟨?_, ?_⟩⟩
    · rw [wide, Int64.zero_mul]
      exact getElem?_set_integer hzero hdict' rfl
    · intro key' r i _ _ hcell
      refine getElem?_set_integer ?_ hdict' rfl
      rw [List.getElem?_append_left (lt_length_of_heap hcell), hcell]
  · -- the dictionary needs an object for the zero
    refine ⟨fun halike => ?_, fun halike => absurd halike hmem⟩
    exfalso
    obtain ⟨e, s₁, herror⟩ := dictApply_missing_mult_throws hdict hv hkey hmem
    have hstoreApply := storeApply_eq key hmult hstore hv
    rw [hfree, if_neg Bool.false_ne_true] at hstoreApply
    obtain ⟨s₁', s₂, _, _, hok, -⟩ | ⟨-, e', s₂, herror'⟩ := halike
    · cases herror.symm.trans hok
    · cases hstoreApply.symm.trans herror'

end Missing

/-- The same integers and the same update: when both containers agree afterwards. -/
lemma updatesAlike_iff {dict store : Ref} {elements : SortedMap Str ValuePtr} {st : Store} {key : Str}
    (hop : op ∈ arithmeticOps) (hdict : s.heap[dict]? = some (.dictionary elements))
    (hstore : s.heap[store]? = some (.persistableDictionary st))
    (hv : s.heap[value]? = some (.integer v)) (h : SameIntegers s.heap elements st) :
    UpdatesAlike s dict store key op value ↔ AlikeUpdates s elements st key op value v := by
  unfold AlikeUpdates
  cases hkey : elements.find? key with
  | some p => exact updatesAlike_present_iff hop hdict hstore hv h hkey
  | none =>
    simp only [(free_of_missing h hkey).1, true_and]
    rcases mem_arithmeticOps.mp hop with rfl | rfl | rfl
    · simp [updatesAlike_missing_add hdict hstore hv h hkey]
    · simp [updatesAlike_missing_sub_iff hdict hstore hv h hkey]
    · simp [updatesAlike_missing_mult_iff hdict hstore hv h hkey]

/-- Every slot that an update addresses gets the result of the operator, and the two dictionaries do
the same, exactly under these conditions. -/
theorem updates_iff (s : State) (op : BinaryOpType) (value : Ref) (v : Int64) (hop : op ∈ arithmeticOps)
    (hv : s.heap[value]? = some (.integer v)) :
    (∀ place old, Place.integer? s.heap place = some old →
      (UpdatesSlot s place op value old v ↔ SlotUpdates s op old v place)) ∧
    ∀ dict store elements st key, s.heap[dict]? = some (.dictionary elements) →
      s.heap[store]? = some (.persistableDictionary st) → SameIntegers s.heap elements st →
      (UpdatesAlike s dict store key op value ↔ AlikeUpdates s elements st key op value v) := by
  refine ⟨fun place old hold => ?_, fun dict store elements st key hdict hstore h =>
    updatesAlike_iff hop hdict hstore hv h⟩
  cases place with
  | element r i => exact updatesSlot_element_iff hop hv hold
  | entry r key => exact updatesSlot_entry_iff hop hv hold
  | stored r key => exact updatesSlot_stored_iff hop hv hold

/-- `{'a': 3}` at 0 and the operand 2. -/
def oneEntry : State :=
  { startState [] 0 with
    heap := [.dictionary (SortedMap.empty.insert (lit "a") (some 1)), .integer 3, .integer 2] }

theorem updates_addEntry : UpdatesSlot oneEntry (.entry 0 (lit "a")) .add 2 3 2 := by
  have hslot := (updates_iff oneEntry .add 2 2 (by decide) rfl).1 (.entry 0 (lit "a")) 3 rfl
  refine hslot.mpr fun elements h => ?_
  cases h
  decide

/-- `d['a'] *= 2` leaves 5 there. -/
theorem updates_multEntry_false :
    ¬∀ s op value v, op ∈ arithmeticOps → s.heap[value]? = some (.integer v) →
      ∀ place old, Place.integer? s.heap place = some old → UpdatesSlot s place op value old v := by
  intro h
  obtain ⟨s', hok, hresult⟩ := h oneEntry .mult 2 2 (by decide) rfl (.entry 0 (lit "a")) 3 rfl
  have happly : Place.apply (.entry 0 (lit "a")) (some 2) .mult oneEntry =
      .ok () { oneEntry with heap := oneEntry.heap.set 1 (.integer 5) } := rfl
  cases happly.symm.trans hok
  exact absurd hresult (by decide)

end ContractPython.Proofs
