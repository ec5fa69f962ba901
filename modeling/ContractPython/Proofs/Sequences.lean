import ContractPython.Proofs.Steps

/-!
# Indices of lists and tuples

An index counts from the front or, when it is negative, from the back. `List::get`, `List::set`,
`List::apply` and `Tuple::get` each check it in a way of its own.
-/

namespace ContractPython.Proofs

open Program M

/-- The place an index addresses among `n` elements. -/
def position (n : Nat) (i : Int) : Option Nat :=
  if 0 ≤ i ∧ i < n then some i.toNat
  else if -n ≤ i ∧ i < 0 then some (n + i).toNat
  else none

lemma position_eq_none {n : Nat} {i : Int} : position n i = none ↔ i < -n ∨ n ≤ i := by
  unfold position
  split
  · simp only [reduceCtorEq, false_iff]
    omega
  · split
    · simp only [reduceCtorEq, false_iff]
      omega
    · simp only [true_iff]
      omega

lemma position_lt {n k : Nat} {i : Int} (h : position n i = some k) : k < n := by
  unfold position at h
  split at h
  · cases h
    omega
  · split at h
    · cases h
      omega
    · cases h

/-- What a `Subscript` node reads from a sequence. -/
def readElement (sequence : Value) (i : Int64) : M ValuePtr :=
  match sequence with
  | .list elements => listGet elements i
  | .tuple content => tupleGet content i.toUInt64.toUInt32
  | _ => throwRuntime (lit "Invalid subscript")

/-- The elements of a sequence. -/
def elements? : Value → Option (List ValuePtr)
  | .list elements => some elements
  | .tuple content => some content
  | _ => none

lemma execSubscript_eq_readElement {rec : Rec} {scope : ScopeRef} {s s₁ s₂ : State} {slice val : Ref}
    {i : Int64} {v : Value} {l : List ValuePtr} (hslice : evaluate rec scope s = .ok (some slice) s₁)
    (hval : evaluate rec scope s₁ = .ok (some val) s₂) (hi : s₂.heap[slice]? = some (.integer i))
    (hv : s₂.heap[val]? = some v) (hl : elements? v = some l) :
    execSubscript rec scope s = readElement v i s₂ := by
  unfold execSubscript
  rw [bind_of_ok hslice, bind_of_ok hval]
  refine (bind_of_ok (load_of_heap hv)).trans ((bind_of_ok (load_of_heap hi)).trans ?_)
  cases v with
  | list elements => rfl
  | tuple content => rfl
  | _ => cases hl

/-! ### The four checks -/

lemma toInt_neg_toInt32 (size : UInt32) : (-size.toInt32).toInt =
    if size.toNat ≤ 2 ^ 31 then -(size.toNat : Int) else 2 ^ 32 - size.toNat := by
  have hlt := size.toNat_lt
  have hsize : size.toInt32.toInt = (size.toNat : Int).bmod (2 ^ 32) :=
    BitVec.toInt_eq_toNat_bmod size.toBitVec
  rw [Int32.toInt_neg, hsize, Int.bmod_def, Int.bmod_def]
  push_cast
  split <;> split <;> omega

lemma toNat_neg (size : UInt32) : (-size).toNat = (2 ^ 32 - size.toNat) % 2 ^ 32 := UInt32.toNat_neg size

lemma toNat_narrowed (i : Int64) : (i.toUInt64.toUInt32.toNat : Int) = i.toInt % 2 ^ 32 := by
  have hi : i.toInt = (i.toUInt64.toNat : Int).bmod (2 ^ 64) :=
    BitVec.toInt_eq_toNat_bmod i.toUInt64.toBitVec
  have hlt := i.toUInt64.toNat_lt
  rw [UInt64.toNat_toUInt32, hi, Int.bmod_def]
  push_cast
  split <;> omega

/-- The elements a list has for the checks: the size is a 32-bit number. -/
lemma toNat_size (l : List ValuePtr) : (PyList.size l).toNat = l.length % 2 ^ 32 :=
  UInt32.toNat_ofNat'

/-- `List::set` and `List::apply` compare the index with the size and with `2 ^ 32` less the size. -/
lemma setIndex_eq (size : UInt32) (i : Int64) : PyList.setIndex size i =
    if 2 ^ 32 - (size.toNat : Int) < i.toInt ∧ i.toInt < size.toNat then some i.toInt.toNat else none := by
  have hlt := size.toNat_lt
  unfold PyList.setIndex
  rw [toNat_neg]
  by_cases haccepted : 2 ^ 32 - (size.toNat : Int) < i.toInt ∧ i.toInt < size.toNat
  · rw [if_pos haccepted, if_neg (by simp; omega), if_neg (by omega)]
  · rw [if_neg haccepted, if_pos (by simp; omega)]

/-- `List::get` rejects what addresses no element. -/
lemma getIndex_of_out {l : List ValuePtr} {i : Int64} (h : i.toInt < -l.length ∨ l.length ≤ i.toInt) :
    PyList.getIndex (PyList.size l) i = none := by
  have hsize := toNat_size l
  unfold PyList.getIndex
  rw [toInt_neg_toInt32, if_pos]
  simp only [ge_iff_le, Bool.or_eq_true, decide_eq_true_eq]
  split <;> omega

/-- What `List::set` accepts `List::get` reads from the front. -/
lemma getIndex_of_set {l : List ValuePtr} {i : Int64} (h : 2 ^ 32 - ((l.length % 2 ^ 32 : Nat) : Int) < i.toInt)
    (hlt : i.toInt < (l.length % 2 ^ 32 : Nat)) :
    PyList.getIndex (PyList.size l) i = some i.toInt.toNat := by
  have hsize := toNat_size l
  unfold PyList.getIndex
  rw [toInt_neg_toInt32, hsize, if_neg, if_neg (by omega)]
  simp only [ge_iff_le, Bool.or_eq_true, decide_eq_true_eq, not_or]
  split <;> omega

lemma listSet_eq {l : List ValuePtr} {s : State} {r : Ref} (i : Int64) (v : ValuePtr)
    (h : s.heap[r]? = some (.list l)) : listSet r i v s =
      match PyList.setIndex (PyList.size l) i with
      | some k => .ok () { s with heap := s.heap.set r (.list (l.set k v)) }
      | none => .error (.runtimeError (lit "List index out of range")) s := by
  unfold listSet
  rw [bind_of_ok (valueCast_of_heap Value.list? h rfl)]
  cases PyList.setIndex (PyList.size l) i with
  | none => rfl
  | some k => exact storeAt_of_heap h rfl

/-! ### Indexing -/

/-- The error of an index that addresses no element. -/
def outOfRange : Exn := .runtimeError (lit "List index out of range")

/-- `x` gives the element of `l` that `i` addresses, and throws when there is none. -/
def ReadsAt (x : M ValuePtr) (l : List ValuePtr) (i : Int) : Prop :=
  ∀ s, match position l.length i with
    | some k => ∃ p, l[k]? = some p ∧ x s = .ok p s
    | none => ∃ e s', x s = .error e s'

/-- `List::set` replaces the element that `i` addresses and nothing else. -/
def SetsAt (l : List ValuePtr) (i : Int64) : Prop :=
  ∀ s r v, s.heap[r]? = some (.list l) → match position l.length i.toInt with
    | some k => ∃ l', listSet r i v s = .ok () { s with heap := s.heap.set r (.list l') } ∧
        l'.length = l.length ∧ l'[k]? = some v ∧ ∀ j, j ≠ k → l'[j]? = l[j]?
    | none => ∃ e s', listSet r i v s = .error e s'

/-- `List::apply` rejects the index when it addresses no element. -/
def AppliesAt (l : List ValuePtr) (i : Int64) : Prop :=
  ∀ s r value op, s.heap[r]? = some (.list l) →
    (listApply r i value op s = .error outOfRange s ↔ position l.length i.toInt = none)

/-- The operations on a sequence take the index as counted from the front or from the back. -/
structure Indexes (sequence : Value) (l : List ValuePtr) (i : Int64) : Prop where
  read : ReadsAt (readElement sequence i) l i.toInt
  set : sequence = .list l → SetsAt l i
  apply : sequence = .list l → AppliesAt l i

/-- For which indices they do. A list of up to `2 ^ 31` elements takes none that addresses an
element, since `set` and `apply` reject all of them; a tuple looks at the last 32 bits. -/
def IndexWorks (sequence : Value) (l : List ValuePtr) (i : Int) : Prop :=
  match sequence with
  | .list _ => i < -l.length ∨ l.length ≤ i ∨
      (2 ^ 32 - ((l.length % 2 ^ 32 : Nat) : Int) < i ∧ i < (l.length % 2 ^ 32 : Nat))
  | _ => match position l.length i with
    | some k => l[(i % 2 ^ 32).toNat]? = l[k]?
    | none => l.length ≤ i % 2 ^ 32

/-! ### Lists -/

lemma position_of_front {n : Nat} {i : Int} (hi : 0 ≤ i) (hn : i < n) : position n i = some i.toNat := by
  rw [position, if_pos ⟨hi, hn⟩]

lemma integerAt_ne_outOfRange (p : ValuePtr) (s s' : State) : integerAt p s ≠ .error outOfRange s' := by
  unfold integerAt
  cases p with
  | none => exact nofun
  | some r =>
    intro h
    obtain hload | ⟨v, s₁, -, h⟩ := bind_eq_error.mp h
    · unfold load at hload
      split at hload <;> cases hload
    · cases v <;> cases h

lemma updateInteger_ne_outOfRange (target value : ValuePtr) (f : Int64 → Int64 → Int64) (s s' : State) :
    updateInteger target value f s ≠ .error outOfRange s' := by
  intro h
  obtain h | ⟨t, s₁, -, h⟩ := bind_eq_error.mp h
  · exact integerAt_ne_outOfRange _ _ _ h
  · obtain h | ⟨v, s₂, -, h⟩ := bind_eq_error.mp h
    · exact integerAt_ne_outOfRange _ _ _ h
    · split at h
      · unfold storeAt at h
        split at h <;> cases h
      · cases h

/-- `List::apply` takes the indices that `List::set` takes. -/
lemma listApply_outOfRange_iff {l : List ValuePtr} {s : State} {r : Ref} (i : Int64) (value : ValuePtr)
    (op : BinaryOpType) (h : s.heap[r]? = some (.list l)) :
    listApply r i value op s = .error outOfRange s ↔ PyList.setIndex (PyList.size l) i = none := by
  unfold listApply
  rw [bind_of_ok (valueCast_of_heap Value.list? h rfl)]
  cases PyList.setIndex (PyList.size l) i with
  | none => exact ⟨fun _ => rfl, fun _ => rfl⟩
  | some k =>
    simp only [reduceCtorEq, iff_false]
    intro h
    obtain h | ⟨t, s₁, -, h⟩ := bind_eq_error.mp h
    · exact integerAt_ne_outOfRange _ _ _ h
    · obtain h | ⟨v, s₂, -, h⟩ := bind_eq_error.mp h
      · exact integerAt_ne_outOfRange _ _ _ h
      · split at h
        · split at h
          · exact updateInteger_ne_outOfRange _ _ _ _ _ h
          · exact updateInteger_ne_outOfRange _ _ _ _ _ h
          · exact updateInteger_ne_outOfRange _ _ _ _ _ h
          · cases h
        · cases h

/-- An index that addresses no element is rejected. -/
lemma indexes_of_out {l : List ValuePtr} {i : Int64} (h : i.toInt < -l.length ∨ l.length ≤ i.toInt) :
    Indexes (.list l) l i := by
  have hposition : position l.length i.toInt = none := position_eq_none.mpr h
  have hset : PyList.setIndex (PyList.size l) i = none := by
    have hsize := toNat_size l
    rw [setIndex_eq, if_neg (by omega)]
  refine ⟨fun s => ?_, fun _ s r v hr => ?_, fun _ s r value op hr => ?_⟩
  · rw [hposition]
    refine ⟨.runtimeError (lit "List index out of range"), s, ?_⟩
    simp only [readElement, listGet, getIndex_of_out h]
    rfl
  · rw [hposition]
    refine ⟨.runtimeError (lit "List index out of range"), s, ?_⟩
    rw [listSet_eq i v hr, hset]
  · rw [listApply_outOfRange_iff i value op hr, hset, hposition]

/-- An index that `List::set` accepts counts from the front. -/
lemma indexes_of_front {l : List ValuePtr} {i : Int64}
    (h : 2 ^ 32 - ((l.length % 2 ^ 32 : Nat) : Int) < i.toInt) (hlt : i.toInt < (l.length % 2 ^ 32 : Nat)) :
    Indexes (.list l) l i := by
  have hi : 0 ≤ i.toInt := by omega
  have hn : i.toInt.toNat < l.length := by omega
  have hposition : position l.length i.toInt = some i.toInt.toNat := position_of_front hi (by omega)
  have hset : PyList.setIndex (PyList.size l) i = some i.toInt.toNat := by
    have hsize := toNat_size l
    rw [setIndex_eq, if_pos (by omega)]
  refine ⟨fun s => ?_, fun _ s r v hr => ?_, fun _ s r value op hr => ?_⟩
  · rw [hposition]
    refine ⟨l[i.toInt.toNat], List.getElem?_eq_getElem hn, ?_⟩
    simp only [readElement, listGet, getIndex_of_set h hlt]
    rw [List.getD_eq_getElem?_getD, List.getElem?_eq_getElem hn]
    rfl
  · rw [hposition]
    refine ⟨l.set i.toInt.toNat v, ?_, List.length_set, List.getElem?_set_self hn,
      fun j hj => List.getElem?_set_ne (Ne.symm hj)⟩
    rw [listSet_eq i v hr, hset]
  · rw [listApply_outOfRange_iff i value op hr, hset, hposition]

/-- `List::set` accepts what it should only in the upper half of a list of more than `2 ^ 31`
elements. -/
lemma front_of_setsAt {l : List ValuePtr} {i : Int64} (h : SetsAt l i)
    (hin : -l.length ≤ i.toInt ∧ i.toInt < l.length) :
    2 ^ 32 - ((l.length % 2 ^ 32 : Nat) : Int) < i.toInt ∧ i.toInt < (l.length % 2 ^ 32 : Nat) := by
  by_contra hout
  have hset : PyList.setIndex (PyList.size l) i = none := by
    rw [setIndex_eq, toNat_size, if_neg hout]
  obtain ⟨k, hposition⟩ : ∃ k, position l.length i.toInt = some k := by
    rw [← Option.ne_none_iff_exists', ne_eq, position_eq_none]
    omega
  have hlist : ({ startState [] 0 with heap := [.list l] } : State).heap[0]? = some (.list l) := rfl
  have hs := h { startState [] 0 with heap := [.list l] } 0 none hlist
  rw [hposition] at hs
  obtain ⟨l', hok, -⟩ := hs
  rw [listSet_eq i none hlist, hset] at hok
  cases hok

/-! ### Both sequences -/

lemma readsAt_tuple_iff (l : List ValuePtr) (i : Int64) :
    ReadsAt (readElement (.tuple l) i) l i.toInt ↔ IndexWorks (.tuple l) l i.toInt := by
  have hnarrowed : i.toUInt64.toUInt32.toNat = (i.toInt % 2 ^ 32).toNat := by
    have hnat := toNat_narrowed i
    omega
  unfold ReadsAt IndexWorks readElement tupleGet
  rw [hnarrowed]
  cases hposition : position l.length i.toInt with
  | some k =>
    have hlt := position_lt hposition
    have hk : l[k]? = some l[k] := List.getElem?_eq_getElem hlt
    simp only [hk]
    cases hread : l[(i.toInt % 2 ^ 32).toNat]? with
    | some p =>
      constructor
      · intro h
        obtain ⟨p', hp', hok⟩ := h (startState [] 0)
        cases hp'
        cases hok
        rfl
      · intro h s
        exact ⟨p, h.symm, rfl⟩
    | none =>
      simp only [reduceCtorEq, iff_false]
      intro h
      obtain ⟨p, -, hok⟩ := h (startState [] 0)
      cases hok
  | none =>
    simp only
    cases hread : l[(i.toInt % 2 ^ 32).toNat]? with
    | some p =>
      have hlt := (List.getElem?_eq_some_iff.mp hread).1
      refine ⟨fun h => ?_, fun h => absurd h (by omega)⟩
      obtain ⟨e, s', herror⟩ := h (startState [] 0)
      cases herror
    | none =>
      have hle := List.getElem?_eq_none_iff.mp hread
      exact ⟨fun _ => by omega, fun _ s => ⟨_, s, rfl⟩⟩

/-- The operations on a list or a tuple take an index as counted from the front or the back exactly
in the cases of `IndexWorks`. -/
theorem indexes_iff_indexWorks (sequence : Value) (l : List ValuePtr) (i : Int64)
    (h : elements? sequence = some l) : Indexes sequence l i ↔ IndexWorks sequence l i.toInt := by
  cases sequence with
  | list elements =>
    cases h
    constructor
    · intro hindexes
      by_cases hin : -l.length ≤ i.toInt ∧ i.toInt < l.length
      · exact .inr (.inr (front_of_setsAt (hindexes.set rfl) hin))
      · unfold IndexWorks
        omega
    · rintro (hlow | hhigh | ⟨hfront, hlt⟩)
      · exact indexes_of_out (.inl hlow)
      · exact indexes_of_out (.inr hhigh)
      · exact indexes_of_front hfront hlt
  | tuple content =>
    cases h
    refine ⟨fun hindexes => (readsAt_tuple_iff l i).mp hindexes.read, fun hworks =>
      ⟨(readsAt_tuple_iff l i).mpr hworks, nofun, nofun⟩⟩
  | _ => cases h

/-- `[1, 2, 3]` -/
def threeElements : List ValuePtr := [some 1, some 2, some 3]

theorem indexes_outside : Indexes (.tuple threeElements) threeElements 5 :=
  (indexes_iff_indexWorks (.tuple threeElements) threeElements 5 rfl).mpr
    (show (3 : Int) ≤ 5 % 2 ^ 32 by decide)

/-- `l[0] = v` throws, although `l[0]` gives the first element. -/
theorem indexes_first_false : ¬∀ (l : List ValuePtr) (i : Int64), Indexes (.list l) l i := by
  intro h
  have hworks := (indexes_iff_indexWorks _ _ _ rfl).mp (h threeElements 0)
  have hout : ¬((0 : Int) < -3 ∨ (3 : Int) ≤ 0 ∨ (2 ^ 32 - 3 : Int) < 0 ∧ (0 : Int) < 3) := by decide
  exact hout hworks

end ContractPython.Proofs
