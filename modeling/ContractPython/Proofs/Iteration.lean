import ContractPython.Proofs.AugAssign
import ContractPython.Proofs.Sequences
import ContractPython.Proofs.Streams

/-!
# Loops over containers

A `for` loop asks an iterator for its elements. The iterators of lists and of `items()` hand out
the elements in order and each of them once; the iterator of a dictionary hands out the values
where a loop should see the keys.
-/

namespace ContractPython.Proofs

open Program M

/-! ### What a loop should visit -/

/-- What a loop goes through: a list, a dictionary or the items of a dictionary. -/
inductive Source
  | list (r : Ref)
  | dictionary (r : Ref)
  | items (r : Ref)

/-- An element of a list, a key, or a key with its value. -/
inductive Element
  | value (p : ValuePtr)
  | key (k : Str)
  | pair (k : Str) (p : ValuePtr)
  deriving DecidableEq

/-- The pointer stands for the element. -/
def Element.Is (e : Element) (p : ValuePtr) (s : State) : Prop :=
  match e with
  | .value q => p = q
  | .key k => content p s = some (.string k)
  | .pair k q => ∃ name, content p s = some (.tuple [name, q]) ∧ content name s = some (.string k)

namespace Source

def container : Source → Ref
  | .list r | .dictionary r | .items r => r

/-- The elements in the order in which a loop should visit them. -/
def elements (s : State) : Source → Option (List Element)
  | .list r => (s.heap[r]?.bind Value.list?).map fun l => l.map .value
  | .dictionary r => (s.heap[r]?.bind Value.dictionary?).map fun m => m.entries.map fun e => .key e.1
  | .items r => (s.heap[r]?.bind Value.dictionary?).map fun m => m.entries.map fun e => .pair e.1 e.2

/-- The iterator of `for x in c` and of `for x in d.items()`. -/
def iterator (n : Nat) (scope : ScopeRef) : Source → M Ref
  | .list r | .dictionary r => loopIterator (some r)
  | .items r => do
    let items ← assertGeneric (← getMember r (lit "items"))
    loopIterator (← call (executeNext n) false items [] scope)

end Source

/-! ### Rounds -/

/-- A round of a loop: the state in which the iterator is asked, what it gives, the state it gives
it in, the scope of the body and the states before and after the body. -/
structure Visit where
  asked : State
  next : ValuePtr
  given : State
  bodyScope : ScopeRef
  bound : State
  left : State

/-- The state in which a round asks the iterator. -/
def opened (s : State) : State := { tick s with frames := s.frames ++ [.empty] }

/-- What the names of a loop are assigned. -/
def assignments (names : List Str) (next : ValuePtr) (s : State) : List (Str × ValuePtr) :=
  match names with
  | [name] => [(name, next)]
  | [first, second] =>
    match content next s with
    | some (.tuple (a :: b :: _)) => [(first, a), (second, b)]
    | _ => []
  | _ => []

/-- The names are bound before the body runs. -/
def Visit.Binds (names : List Str) (v : Visit) : Prop :=
  bindArguments v.bodyScope (assignments names v.next v.given) v.given = .ok () v.bound

section Rounds

variable (n : Nat) (scope : ScopeRef) (names : List Str) (iter : Ref)

/-- The loop is not over yet. -/
structure GoesOn (s : State) : Prop where
  running : isTerminated scope s = .ok false s
  charged : charge s = .ok () (tick s)
  nests : scope.length < 128

/-- A round from `s` to `s'` whose body neither breaks nor continues nor returns. -/
structure Round (v : Visit) (s s' : State) : Prop extends GoesOn scope s where
  asked_eq : v.asked = opened s
  gives : tryNext iter v.asked = .ok (some v.next) v.given
  bodyScope_eq : v.bodyScope = s.frames.length :: scope
  binds : bindNames v.bodyScope names v.next v.given = .ok () v.bound
  body : ∃ res, executeNext n v.bodyScope .topLevel v.bound = .ok (res, .topLevel) v.left
  unreturned : isTerminated v.bodyScope v.left = .ok false v.left
  closes : s' = { v.left with frames := v.left.frames.take s.frames.length }

/-- Rounds whose bodies modify neither the container nor the iterator. -/
inductive QuietRun (container : Ref) : State → List Visit → State → Prop
  | nil {s : State} : QuietRun container s [] s
  | cons {v : Visit} {vs : List Visit} {s s₁ s₂ : State} (round : Round n scope names iter v s s₁)
      (container_eq : v.left.heap[container]? = v.bound.heap[container]?)
      (iterator_eq : v.left.heap[iter]? = v.bound.heap[iter]?) (rest : QuietRun container s₁ vs s₂) :
      QuietRun container s (v :: vs) s₂

/-- The error of a memory manager that refuses a request. -/
def outOfMemory : Exn :=
  .runtimeError (lit "out of memory: program tries to allocate too much heap memory!")

/-- The loop asks for an element, and the iterator gives none though the memory suffices. -/
structure Ended (s : State) : Prop extends GoesOn scope s where
  none_given : ∀ p s', tryNext iter (opened s) ≠ .ok (some p) s'
  granted : ∀ s', tryNext iter (opened s) ≠ .error outOfMemory s'

/-- The body has run once for each element, in order and from the same place of the bytecode, with
the names bound to the element, and the loop has ended. -/
structure VisitsEach (es : List Element) (s : State) (visits : List Visit) : Prop where
  in_order : List.Forall₂ (fun e v => e.Is v.next v.given ∧ v.Binds names) es visits
  same_code : s.interp.data.bytecode.length < 2 ^ 32 → Readable s.interp.data →
    ∀ v ∈ visits, v.bound.interp.data = s.interp.data
  ends : ∃ s', ∀ m ret,
    forRounds (executeNext n) scope names iter (m + 1 + visits.length) .topLevel ret s = .ok ret s'

end Rounds

/-- A list is not too long for its iterator; the values of a dictionary are its keys. -/
def Source.Presents (src : Source) (es : List Element) (s : State) (visits : List Visit) : Prop :=
  match src with
  | .list _ => es.length ≤ 2 ^ 31
  | .dictionary r => ∀ m, s.heap[r]? = some (.dictionary m) →
    List.Forall₂ (fun e v => content e.2 v.asked = some (.string e.1)) m.entries visits
  | .items _ => True

/-! ### Rounds of the interpreter's loop -/

lemma withScope_of_ok {α : Type} {parent : ScopeRef} {f : ScopeRef → M α} {s s' : State} {a : α}
    (hnests : parent.length < 128)
    (h : f (s.frames.length :: parent) { s with frames := s.frames ++ [.empty] } = .ok a s') :
    withScope parent f s = .ok a { s' with frames := s'.frames.take s.frames.length } := by
  have hframe : withScope parent f = withFrame fun id => f (id :: parent) := if_neg (by omega)
  rw [hframe]
  unfold withFrame
  simp only [h]

/-- A pair unpacked into two names: the key and the value. -/
lemma assignments_pair {first second k : Str} {q next : ValuePtr} {s : State}
    (h : (Element.pair k q).Is next s) :
    ∃ name, content name s = some (.string k) ∧
      assignments [first, second] next s = [(first, name), (second, q)] := by
  obtain ⟨name, htuple, hname⟩ := h
  refine ⟨name, hname, ?_⟩
  unfold assignments
  simp only [htuple]

lemma content_of_valueCast {α : Type} {proj : Value → Option α} {p : ValuePtr} {a : α} {s s' : State}
    (h : valueCast proj p s = .ok a s') : s' = s ∧ ∃ v, content p s = some v ∧ proj v = some a := by
  cases p with
  | none => cases h
  | some r =>
    obtain ⟨v, s₁, hload, hproj⟩ := bind_eq_ok.mp h
    obtain ⟨hr, rfl⟩ := load_eq_ok.mp hload
    cases hv : proj v with
    | none => simp [hv] at hproj
    | some a' =>
      simp only [hv, pure_eq_ok] at hproj
      obtain ⟨rfl, rfl⟩ := hproj
      exact ⟨rfl, v, hr, hv⟩

/-- The names are bound to what they are assigned. -/
lemma bindArguments_of_bindNames {bodyScope : ScopeRef} {names : List Str} {next : ValuePtr} {s s' : State}
    (h : bindNames bodyScope names next s = .ok () s') :
    bindArguments bodyScope (assignments names next s) s = .ok () s' := by
  match names with
  | [] => cases h
  | [name] => exact h
  | [first, second] =>
    replace h : (do
        let l ← valueCast Value.tuple? next
        setValue bodyScope first (← tupleGet l 0)
        setValue bodyScope second (← tupleGet l 1)) s = .ok () s' := h
    obtain ⟨l, s₁, hcast, hrest⟩ := bind_eq_ok.mp h
    obtain ⟨hs₁, v, hcontent, hv⟩ := content_of_valueCast hcast
    rw [hs₁] at hrest
    obtain ⟨a, s₂, ha, hfirst⟩ := bind_eq_ok.mp hrest
    obtain ⟨u, s₃, hset, hsecond⟩ := bind_eq_ok.mp hfirst
    obtain ⟨b, s₄, hb, hlast⟩ := bind_eq_ok.mp hsecond
    cases v <;> cases hv
    match l with
    | [] => cases ha
    | [_] => cases hb
    | x :: y :: rest =>
      cases ha
      cases hb
      unfold assignments
      simp only [hcontent]
      exact (bind_of_ok hset).trans (bind_of_ok hlast)
  | _ :: _ :: _ :: _ => cases h

section Rounds

variable {n : Nat} {scope : ScopeRef} {names : List Str} {iter : Ref} {s s' : State}

/-- A round inside its frame. -/
def loopRound (n : Nat) (scope : ScopeRef) (names : List Str) (iter : Ref) (ret : ValuePtr)
    (bodyScope : ScopeRef) : M (Option (ValuePtr × LoopState)) := do
  match ← tryNext iter with
  | none => pure none
  | some next => do
    bindNames bodyScope names next
    let res ← executeNext n bodyScope .topLevel
    let res ← propagateReturn scope bodyScope ret res
    pure (some res)

lemma forRounds_succ (h : GoesOn scope s) (m : Nat) (ret : ValuePtr) :
    forRounds (executeNext n) scope names iter (m + 1) .topLevel ret s = (do
      match ← withScope scope (loopRound n scope names iter ret) with
      | none => pure ret
      | some (ret', ls') => forRounds (executeNext n) scope names iter m ls' ret') (tick s) := by
  rw [forRounds, bind_of_ok h.running, if_neg (by decide), bind_of_ok h.charged]
  rfl

/-- After a round the loop goes on. -/
lemma forRounds_of_round {v : Visit} (h : Round n scope names iter v s s') (m : Nat) (ret : ValuePtr) :
    forRounds (executeNext n) scope names iter (m + 1) .topLevel ret s =
      forRounds (executeNext n) scope names iter m .topLevel ret s' := by
  obtain ⟨res, hbody⟩ := h.body
  have hasked := h.gives
  have hbinds := h.binds
  have hstays := h.unreturned
  rw [h.asked_eq] at hasked
  rw [h.bodyScope_eq] at hbinds hbody hstays
  have hinner : loopRound n scope names iter ret (s.frames.length :: scope) (opened s) =
      .ok (some (ret, .topLevel)) v.left := by
    unfold loopRound
    rw [bind_of_ok hasked]
    dsimp only
    rw [bind_of_ok hbinds, bind_of_ok hbody]
    unfold propagateReturn
    rw [bind_assoc, bind_of_ok hstays]
    rfl
  have hround := withScope_of_ok (s := tick s) (f := loopRound n scope names iter ret) h.nests hinner
  rw [forRounds_succ h.toGoesOn, bind_of_ok hround, h.closes]
  rfl

/-- A loop whose iterator has come to its end returns. -/
lemma forRounds_of_stopped (h : GoesOn scope s) (hstop : tryNext iter (opened s) = .ok none s') :
    ∃ s'', ∀ m ret, forRounds (executeNext n) scope names iter (m + 1) .topLevel ret s = .ok ret s'' := by
  refine ⟨{ s' with frames := s'.frames.take s.frames.length }, fun m ret => ?_⟩
  have hinner : loopRound n scope names iter ret (s.frames.length :: scope) (opened s) = .ok none s' :=
    bind_of_ok hstop
  have hround := withScope_of_ok (s := tick s) (f := loopRound n scope names iter ret) h.nests hinner
  rw [forRounds_succ h, bind_of_ok hround]
  rfl

/-- After quiet rounds the loop goes on. -/
lemma forRounds_of_run {container : Ref} {visits : List Visit}
    (h : QuietRun n scope names iter container s visits s') (m : Nat) (ret : ValuePtr) :
    forRounds (executeNext n) scope names iter (m + visits.length) .topLevel ret s =
      forRounds (executeNext n) scope names iter m .topLevel ret s' := by
  induction h with
  | nil => rfl
  | cons round _ _ _ ih =>
    rw [List.length_cons, ← Nat.add_assoc, forRounds_of_round round, ih]

end Rounds

/-! ### The place of the body -/

lemma keepsData_bindArguments (bodyScope : ScopeRef) (as : List (Str × ValuePtr)) :
    KeepsData _ (bindArguments bodyScope as) := by
  induction as with
  | nil => exact keepsData_compositional.pure ()
  | cons a as ih => exact keepsData_compositional.bind (keepsData_of_finalState fun _ => rfl) fun _ => ih

/-- Every body of a run starts at the place where the loop starts. -/
lemma data_of_run {n : Nat} {scope : ScopeRef} {names : List Str} {iter container : Ref} {s s' : State}
    {visits : List Visit} (h : QuietRun n scope names iter container s visits s')
    (hsmall : s.interp.data.bytecode.length < 2 ^ 32) (hread : Readable s.interp.data) :
    ∀ v ∈ visits, v.bound.interp.data = s.interp.data := by
  induction h with
  | nil => simp
  | @cons v vs s s₁ s₂ round _ _ _ ih =>
    have hgiven : v.given.interp.data = s.interp.data := by
      have hkept := ((values_keepsPlace.tryNext iter).of_ok round.gives).1
      rw [hkept, round.asked_eq]
      rfl
    have hbound : v.bound.interp.data = s.interp.data :=
      ((keepsData_bindArguments _ _).of_ok (bindArguments_of_bindNames round.binds)).trans hgiven
    obtain ⟨res, hbody⟩ := round.body
    have hleft : v.left.interp.data = v.bound.interp.data :=
      data_of_unsettled (hbound ▸ hsmall) (hbound ▸ hread) hbody (by simp [EndsBehind])
    have hclosed : s₁.interp.data = s.interp.data := by
      rw [round.closes]
      exact hleft.trans hbound
    have hrest := ih (hclosed ▸ hsmall) (hclosed ▸ hread)
    rw [hclosed] at hrest
    exact List.forall_mem_cons.mpr ⟨hbound, hrest⟩

/-! ### The iterators -/

/-- The position of a list iterator is an index that `List::get` accepts in a list that is not too
long; in a longer one it rejects the first. -/
lemma getIndex_of_pos {size pos : UInt32} (h : pos < size) :
    (size.toNat ≤ 2 ^ 31 → PyList.getIndex size (Int64.ofInt pos.toNat) = some pos.toNat) ∧
      (2 ^ 31 < size.toNat → pos = 0 → PyList.getIndex size (Int64.ofInt pos.toNat) = none) := by
  have hlt : pos.toNat < size.toNat := h
  have hsize := size.toNat_lt
  have hpos : (Int64.ofInt pos.toNat).toInt = pos.toNat :=
    Int64.toInt_ofInt_of_le (by omega) (by omega)
  unfold PyList.getIndex
  rw [hpos, toInt_neg_toInt32]
  constructor
  · intro hle
    rw [if_pos hle, if_neg (by simp; omega), if_neg (by omega), Int.toNat_natCast]
  · intro hlarge hzero
    have hpos0 : pos.toNat = 0 := by
      rw [hzero]
      rfl
    have hbound : (if size.toNat ≤ 2 ^ 31 then -(size.toNat : Int) else 2 ^ 32 - size.toNat) =
        2 ^ 32 - size.toNat := if_neg (by omega)
    rw [hbound, if_pos (by simp; omega)]

section Iterators

variable {r iter : Ref} {s : State}

lemma tryNext_of_next {p : ValuePtr} {s' : State} (h : next iter s = .ok p s') :
    tryNext iter s = .ok (some p) s' := by
  unfold tryNext
  simp only [h]

lemma tryNext_of_stop {s' : State} (h : next iter s = .error .stopIteration s') :
    tryNext iter s = .ok none s' := by
  unfold tryNext
  simp only [h]

lemma tryNext_of_error {e : Exn} {s' : State} (h : next iter s = .error e s') (he : e ≠ .stopIteration) :
    tryNext iter s = .error e s' := by
  unfold tryNext
  rw [h]
  cases e <;> first | rfl | exact absurd rfl he

/-- `ListIterator::next`. -/
lemma next_list {l : List ValuePtr} {pos : UInt32} (hr : s.heap[r]? = some (.list l))
    (hiter : s.heap[iter]? = some (.listIterator r pos)) :
    next iter s = if pos ≥ PyList.size l then .error .stopIteration s
      else (do
        let res ← listGet l (Int64.ofInt pos.toNat)
        storeAt iter (.listIterator r (pos + 1))
        pure res) s := by
  unfold next
  rw [bind_of_ok (load_of_heap hiter)]
  dsimp only
  rw [bind_of_ok (valueCast_of_heap Value.list? hr rfl)]
  split <;> rfl

/-- `DictKeyIterator::next`. -/
lemma next_dictKey {m : SortedMap Str ValuePtr} {it : Option Str} (hr : s.heap[r]? = some (.dictionary m))
    (hiter : s.heap[iter]? = some (.dictKeyIterator r it)) :
    next iter s = match it with
      | none => .error .stopIteration s
      | some key => .ok (dictGet m key) { s with heap := s.heap.set iter (.dictKeyIterator r (m.next? key)) } := by
  unfold next
  rw [bind_of_ok (load_of_heap hiter)]
  dsimp only
  rw [bind_of_ok (valueCast_of_heap Value.dictionary? hr rfl)]
  cases it with
  | none => rfl
  | some key =>
    have hstore : storeAt iter (.dictKeyIterator r (m.next? key)) s =
        .ok () { s with heap := s.heap.set iter (.dictKeyIterator r (m.next? key)) } :=
      storeAt_of_heap hiter rfl
    exact bind_of_ok hstore

/-- `DictItemIterator::next`. -/
lemma next_dictItem {m : SortedMap Str ValuePtr} {it : Option Str} (hr : s.heap[r]? = some (.dictionary m))
    (hiter : s.heap[iter]? = some (.dictItemIterator r it)) :
    next iter s = match it with
      | none => .error .stopIteration s
      | some key => (do
        let k ← create (.string key)
        let t ← create (.tuple [k, dictGet m key])
        storeAt iter (.dictItemIterator r (m.next? key))
        pure t) s := by
  unfold next
  rw [bind_of_ok (load_of_heap hiter)]
  dsimp only
  rw [bind_of_ok (valueCast_of_heap Value.dictionary? hr rfl)]
  cases it <;> rfl

end Iterators

/-! ### Positions -/

/-- An iterator over a container with elements of type `E`: `At rest` says that the elements `rest`
are still to come, and `Yields e p s s'` what the iterator gives for `e`. -/
structure Iterating {E : Type} (container iter : Ref) (At : List E → State → Prop)
    (Yields : E → ValuePtr → State → State → Prop) : Prop where
  keep : ∀ {rest : List E} {s s' : State}, s'.heap[container]? = s.heap[container]? →
    s'.heap[iter]? = s.heap[iter]? → At rest s → At rest s'
  step : ∀ {rest : List E} {s s' : State} {p : ValuePtr}, At rest s → tryNext iter s = .ok (some p) s' →
    ∃ e rest', rest = e :: rest' ∧ Yields e p s s' ∧ At rest' s'

lemma heap_bindNames {bodyScope : ScopeRef} {names : List Str} {next : ValuePtr} {s s' : State}
    (h : bindNames bodyScope names next s = .ok () s') : s'.heap = s.heap := by
  have hheap : ∀ as : List (Str × ValuePtr), ∀ {s s' : State},
      bindArguments bodyScope as s = .ok () s' → s'.heap = s.heap := by
    intro as
    induction as with
    | nil =>
      intro s s' h
      cases h
      rfl
    | cons a as ih =>
      intro s s' h
      obtain ⟨u, s₁, hset, hrest⟩ := bind_eq_ok.mp h
      cases hset
      have hheap := ih hrest
      exact hheap
  exact hheap _ (bindArguments_of_bindNames h)

/-- Quiet rounds take the elements from the front. -/
lemma Iterating.run {E : Type} {container iter : Ref} {At : List E → State → Prop}
    {Yields : E → ValuePtr → State → State → Prop} (h : Iterating container iter At Yields)
    {n : Nat} {scope : ScopeRef} {names : List Str} {s s' : State} {visits : List Visit}
    (hrun : QuietRun n scope names iter container s visits s') {es : List E} (hat : At es s) :
    ∃ done rest, es = done ++ rest ∧
      List.Forall₂ (fun e v => Yields e v.next v.asked v.given ∧ v.Binds names) done visits ∧ At rest s' := by
  induction hrun generalizing es with
  | nil => exact ⟨[], es, rfl, .nil, hat⟩
  | @cons v vs s s₁ s₂ round hcontainer hiterator _ ih =>
    have hasked : At es v.asked := by
      rw [round.asked_eq]
      exact h.keep (s := s) rfl rfl hat
    obtain ⟨e, es', rfl, hyields, hgiven⟩ := h.step hasked round.gives
    have hheap : v.bound.heap = v.given.heap := heap_bindNames round.binds
    rw [hheap] at hcontainer hiterator
    have hclosed : At es' s₁ := by
      rw [round.closes]
      exact h.keep hcontainer hiterator hgiven
    obtain ⟨done, rest, rfl, hdone, hrest⟩ := ih hclosed
    exact ⟨e :: done, rest, rfl, .cons ⟨hyields, bindArguments_of_bindNames round.binds⟩ hdone, hrest⟩

section Positions

variable {r iter : Ref} {s s' : State}

/-- The iterator of the list at `r` has the elements `rest` before it. A list whose size is not a
positive `int32_t` is never left behind the first place. -/
structure ListAt (r iter : Ref) (l rest : List ValuePtr) (s : State) : Prop where
  list_eq : s.heap[r]? = some (.list l)
  place : ∃ done pos, l.take (l.length % 2 ^ 32) = done ++ rest ∧
    s.heap[iter]? = some (.listIterator r pos) ∧ pos.toNat = done.length ∧
      (done ≠ [] → l.length % 2 ^ 32 ≤ 2 ^ 31)

/-- What the iterator of a list does with the elements `rest` before it. -/
lemma ListAt.tryNext {l rest : List ValuePtr} (h : ListAt r iter l rest s) :
    (rest = [] → tryNext iter s = .ok none s) ∧
      (rest ≠ [] → l.length % 2 ^ 32 ≤ 2 ^ 31 → ∃ e rest' s', rest = e :: rest' ∧
        tryNext iter s = .ok (some e) s' ∧ ListAt r iter l rest' s') ∧
      (rest ≠ [] → ¬l.length % 2 ^ 32 ≤ 2 ^ 31 →
        tryNext iter s = .error (.runtimeError (lit "List index out of range")) s) := by
  obtain ⟨hr, done, pos, htake, hiter, hpos, hlarge⟩ := h
  have hnext := next_list hr hiter
  have hsize := toNat_size l
  have hlength : done.length + rest.length = l.length % 2 ^ 32 := by
    have hle : l.length % 2 ^ 32 ≤ l.length := Nat.mod_le _ _
    rw [← List.length_append, ← htake, List.length_take]
    omega
  refine ⟨fun hrest => ?_, fun hrest hsmall => ?_, fun hrest hbig => ?_⟩
  · have hend : pos ≥ PyList.size l := by
      rw [ge_iff_le, UInt32.le_iff_toNat_le, hsize, hpos]
      simp only [hrest, List.length_nil] at hlength
      omega
    rw [if_pos hend] at hnext
    exact tryNext_of_stop hnext
  · obtain ⟨e, rest', rfl⟩ := List.exists_cons_of_ne_nil hrest
    rw [List.length_cons] at hlength
    have hlt : pos < PyList.size l := by
      rw [UInt32.lt_iff_toNat_lt, hsize, hpos]
      omega
    have hindex := (getIndex_of_pos hlt).1 (by omega)
    have helement : l.getD pos.toNat none = e := by
      have hget : (l.take (l.length % 2 ^ 32))[pos.toNat]? = some e := by
        rw [htake, hpos, List.getElem?_append_right (le_refl _), Nat.sub_self, List.getElem?_cons_zero]
      rw [List.getElem?_take_of_lt (by omega)] at hget
      rw [List.getD_eq_getElem?_getD, hget, Option.getD_some]
    have hget : listGet l (Int64.ofInt pos.toNat) s = .ok e s := by
      simp only [listGet, hindex, helement]
      rfl
    have hstore : storeAt iter (.listIterator r (pos + 1)) s =
        .ok () { s with heap := s.heap.set iter (.listIterator r (pos + 1)) } := storeAt_of_heap hiter rfl
    rw [if_neg (UInt32.not_le.mpr hlt), bind_of_ok hget, bind_of_ok hstore] at hnext
    have hne : iter ≠ r := by
      rintro rfl
      rw [hr] at hiter
      cases hiter
    refine ⟨e, rest', _, rfl, tryNext_of_next hnext, ?_, done ++ [e], pos + 1, ?_, ?_, ?_, fun _ => hsmall⟩
    · exact (List.getElem?_set_ne hne).trans hr
    · rw [htake, List.append_assoc, List.singleton_append]
    · exact List.getElem?_set_self (lt_length_of_heap hiter)
    · rw [UInt32.toNat_add, UInt32.toNat_one, hpos, List.length_append, List.length_singleton]
      omega
  · have hdone : done = [] := by
      by_contra hne
      exact hbig (hlarge hne)
    have hzero : pos = 0 := by
      rw [← UInt32.toNat_inj, hpos, hdone]
      rfl
    have hrest' : 0 < rest.length := List.length_pos_of_ne_nil hrest
    have hlt : pos < PyList.size l := by
      rw [UInt32.lt_iff_toNat_lt, hsize, hpos]
      omega
    have hindex := (getIndex_of_pos hlt).2 (by omega) hzero
    have hget : listGet l (Int64.ofInt pos.toNat) s =
        .error (.runtimeError (lit "List index out of range")) s := by
      simp only [listGet, hindex]
      rfl
    rw [if_neg (UInt32.not_le.mpr hlt), bind_of_error hget] at hnext
    exact tryNext_of_error hnext (by simp)

lemma iterating_list (r iter : Ref) (l : List ValuePtr) :
    Iterating r iter (ListAt r iter l) fun e p _ _ => p = e ∧ l.length % 2 ^ 32 ≤ 2 ^ 31 where
  keep hlist hiter h := by
    obtain ⟨hr, done, pos, htake, hplace, hpos, hlarge⟩ := h
    exact ⟨hlist.trans hr, done, pos, htake, hiter.trans hplace, hpos, hlarge⟩
  step := by
    intro rest s s' p h hgives
    have hrest : rest ≠ [] := by
      intro hnil
      rw [h.tryNext.1 hnil] at hgives
      cases hgives
    have hsmall : l.length % 2 ^ 32 ≤ 2 ^ 31 := by
      by_contra hlarge
      rw [h.tryNext.2.2 hrest hlarge] at hgives
      cases hgives
    obtain ⟨e, rest', s₁, heq, hnext, hat⟩ := h.tryNext.2.1 hrest hsmall
    rw [hnext] at hgives
    cases hgives
    exact ⟨_, rest', heq, ⟨rfl, hsmall⟩, hat⟩

/-- The iterator of the dictionary at `r` has the entries `rest` before it; `mk` is the class of
the iterator. -/
structure DictAt (mk : Ref → Option Str → Value) (r iter : Ref) (m : SortedMap Str ValuePtr)
    (rest : List (Str × ValuePtr)) (s : State) : Prop where
  dict_eq : s.heap[r]? = some (.dictionary m)
  iter_eq : s.heap[iter]? = some (mk r (rest.head?.map Prod.fst))
  suffix : ∃ done, m.entries = done ++ rest

lemma DictAt.keep {mk : Ref → Option Str → Value} {m : SortedMap Str ValuePtr}
    {rest : List (Str × ValuePtr)} (h : DictAt mk r iter m rest s)
    (hdict : s'.heap[r]? = s.heap[r]?) (hiter : s'.heap[iter]? = s.heap[iter]?) :
    DictAt mk r iter m rest s' :=
  ⟨hdict.trans h.dict_eq, hiter.trans h.iter_eq, h.suffix⟩

/-- The entry an iterator stands at, and the key it goes on to. -/
lemma DictAt.entry {mk : Ref → Option Str → Value} {m : SortedMap Str ValuePtr} {key : Str}
    {value : ValuePtr} {rest : List (Str × ValuePtr)} (h : DictAt mk r iter m ((key, value) :: rest) s) :
    dictGet m key = value ∧ m.next? key = rest.head?.map Prod.fst ∧
      ∃ done, m.entries = done ++ rest := by
  obtain ⟨done, hentries⟩ := h.suffix
  have hmem : (key, value) ∈ m.entries := by
    rw [hentries]
    exact List.mem_append_right _ List.mem_cons_self
  have hfind : m.find? key = some value := SortedMap.find?_eq_some_iff.mpr hmem
  refine ⟨?_, SortedMap.next?_of_entries hentries, done ++ [(key, value)], ?_⟩
  · unfold dictGet
    rw [hfind, Option.getD_some]
  · rw [hentries, List.append_assoc, List.singleton_append]

/-- Moving a dictionary iterator on. -/
lemma DictAt.moved {mk : Ref → Option Str → Value} {m : SortedMap Str ValuePtr} {key : Str}
    {value : ValuePtr} {rest : List (Str × ValuePtr)} (h : DictAt mk r iter m ((key, value) :: rest) s)
    (hclass : ∀ it, mk r it ≠ .dictionary m) :
    DictAt mk r iter m rest { s with heap := s.heap.set iter (mk r (m.next? key)) } := by
  obtain ⟨-, hnext, hsuffix⟩ := h.entry
  have hne : iter ≠ r := by
    rintro rfl
    have hiter := h.iter_eq
    rw [h.dict_eq] at hiter
    exact hclass _ (Option.some.inj hiter).symm
  refine ⟨?_, ?_, hsuffix⟩
  · exact (List.getElem?_set_ne hne).trans h.dict_eq
  · rw [hnext]
    exact List.getElem?_set_self (lt_length_of_heap h.iter_eq)

/-- What the key iterator does with the entries `rest` before it. -/
lemma DictAt.tryNext_key {m : SortedMap Str ValuePtr} {rest : List (Str × ValuePtr)}
    (h : DictAt .dictKeyIterator r iter m rest s) :
    (rest = [] → tryNext iter s = .ok none s) ∧
      ∀ e rest', rest = e :: rest' → tryNext iter s =
        .ok (some e.2) { s with heap := s.heap.set iter (.dictKeyIterator r (m.next? e.1)) } := by
  have hnext := next_dictKey h.dict_eq h.iter_eq
  constructor
  · rintro rfl
    exact tryNext_of_stop hnext
  · rintro ⟨key, value⟩ rest' rfl
    obtain ⟨hget, -, -⟩ := h.entry
    have hnext' : next iter s =
        .ok (dictGet m key) { s with heap := s.heap.set iter (.dictKeyIterator r (m.next? key)) } := hnext
    rw [hget] at hnext'
    exact tryNext_of_next hnext'

/-- The key iterator yields the value of an entry and touches no string. -/
lemma iterating_dictKey (r iter : Ref) (m : SortedMap Str ValuePtr) :
    Iterating r iter (DictAt .dictKeyIterator r iter m) fun e p s s' =>
      p = e.2 ∧ ∀ q k, content q s' = some (.string k) ↔ content q s = some (.string k) where
  keep hdict hiter h := h.keep hdict hiter
  step := by
    intro rest s s' p h hgives
    cases rest with
    | nil =>
      rw [h.tryNext_key.1 rfl] at hgives
      cases hgives
    | cons e rest' =>
      rw [h.tryNext_key.2 e rest' rfl] at hgives
      cases hgives
      refine ⟨e, rest', rfl, ⟨rfl, fun q k => ?_⟩, h.moved (by simp)⟩
      unfold content
      cases q with
      | none => rfl
      | some q =>
        by_cases hq : iter = q
        · subst hq
          have hset := List.getElem?_set_self (lt_length_of_heap h.iter_eq)
            (a := Value.dictKeyIterator r (m.next? e.1))
          simp only [Option.bind_some, hset, h.iter_eq]
          simp
        · simp only [Option.bind_some, List.getElem?_set_ne hq]

/-- A new object leaves an iterator where it is. -/
lemma DictAt.grown {mk : Ref → Option Str → Value} {m : SortedMap Str ValuePtr}
    {rest : List (Str × ValuePtr)} (h : DictAt mk r iter m rest s) (v : Value) :
    DictAt mk r iter m rest (created v s) :=
  h.keep (List.getElem?_append_left (lt_length_of_heap h.dict_eq))
    (List.getElem?_append_left (lt_length_of_heap h.iter_eq))

/-- What the iterator of the items does with the entries `rest` before it. -/
lemma DictAt.tryNext_item {m : SortedMap Str ValuePtr} {rest : List (Str × ValuePtr)}
    (h : DictAt .dictItemIterator r iter m rest s) :
    (rest = [] → tryNext iter s = .ok none s) ∧
      ∀ e rest', rest = e :: rest' → (∃ s', tryNext iter s = .error outOfMemory s') ∨
        ∃ p s', tryNext iter s = .ok (some p) s' ∧ (Element.pair e.1 e.2).Is p s' ∧
          DictAt .dictItemIterator r iter m rest' s' := by
  have hnext := next_dictItem h.dict_eq h.iter_eq
  constructor
  · rintro rfl
    exact tryNext_of_stop hnext
  · rintro ⟨key, value⟩ rest' rfl
    obtain ⟨hget, -, -⟩ := h.entry
    have hnext' : next iter s = (do
        let k ← create (.string key)
        let t ← create (.tuple [k, value])
        storeAt iter (.dictItemIterator r (m.next? key))
        pure t) s := by
      rw [← hget]
      exact hnext
    by_cases hkey : MemoryLeft s
    swap
    · rw [bind_of_error (create_refused hkey _)] at hnext'
      exact .inl ⟨_, tryNext_of_error hnext' (fun h => nomatch h)⟩
    rw [bind_of_ok (create_of_memoryLeft hkey _)] at hnext'
    have hkeyed := h.grown (.string key)
    have hname := heap_created (.string key) s
    generalize hs₁ : created (.string key) s = s₁ at hnext' hkeyed hname
    by_cases htuple : MemoryLeft s₁
    swap
    · rw [bind_of_error (create_refused htuple _)] at hnext'
      exact .inl ⟨_, tryNext_of_error hnext' (fun h => nomatch h)⟩
    rw [bind_of_ok (create_of_memoryLeft htuple _)] at hnext'
    have hpaired := hkeyed.grown (.tuple [some s.heap.length, value])
    have htupled := heap_created (.tuple [some s.heap.length, value]) s₁
    have hname' : (created (.tuple [some s.heap.length, value]) s₁).heap[s.heap.length]? =
        some (.string key) :=
      (List.getElem?_append_left (lt_length_of_heap hname)).trans hname
    generalize created (.tuple [some s.heap.length, value]) s₁ = s₂ at hnext' hpaired htupled hname'
    have hstore : storeAt iter (.dictItemIterator r (m.next? key)) s₂ =
        .ok () { s₂ with heap := s₂.heap.set iter (.dictItemIterator r (m.next? key)) } :=
      storeAt_of_heap hpaired.iter_eq rfl
    rw [bind_of_ok hstore] at hnext'
    refine .inr ⟨_, _, tryNext_of_next hnext', ?_, hpaired.moved (by simp)⟩
    have hkept (q : Ref) (v : Value) (hq : s₂.heap[q]? = some v) (hv : ∀ d it, v ≠ .dictItemIterator d it) :
        (s₂.heap.set iter (.dictItemIterator r (m.next? key)))[q]? = some v := by
      have hne : iter ≠ q := by
        rintro rfl
        rw [hpaired.iter_eq] at hq
        exact hv _ _ (Option.some.inj hq).symm
      rw [List.getElem?_set_ne hne, hq]
    exact ⟨some s.heap.length, hkept _ _ htupled (by simp), hkept _ _ hname' (by simp)⟩

/-- The iterator of the items yields each key with its value. -/
lemma iterating_dictItem (r iter : Ref) (m : SortedMap Str ValuePtr) :
    Iterating r iter (DictAt .dictItemIterator r iter m) fun e p _ s' => (Element.pair e.1 e.2).Is p s' where
  keep hdict hiter h := h.keep hdict hiter
  step := by
    intro rest s s' p h hgives
    cases rest with
    | nil =>
      rw [h.tryNext_item.1 rfl] at hgives
      cases hgives
    | cons e rest' =>
      rcases h.tryNext_item.2 e rest' rfl with ⟨s₁, hnext⟩ | ⟨q, s₁, hnext, hpair, hat⟩
      · rw [hnext] at hgives
        cases hgives
      · rw [hnext] at hgives
        cases hgives
        exact ⟨e, rest', rfl, hpair, hat⟩

end Positions

/-! ### The start of a loop -/

section Start

variable {r iter : Ref} {s s₀ : State}

/-- The iterator of a container is a new object. -/
lemma loopIterator_eq_ok {v made : Value} (hr : s.heap[r]? = some v) (hcontainer : v.isGenerator = false)
    (hiterate : iterate r v = create made) (hmade : made.isGenerator = true)
    (h : loopIterator (some r) s = .ok iter s₀) :
    iter = s.heap.length ∧ s₀.heap = s.heap ++ [made] := by
  have hbegin : loopIterator (some r) s =
      (if v.canIterate then castIterator =<< iterate r v else throwRuntime (lit "Can't iterate")) s := by
    unfold loopIterator
    have hassert : assertGeneric (some r) s = .ok r s := rfl
    rw [bind_of_ok hassert, bind_of_ok (load_of_heap hr), if_neg (by simp [hcontainer])]
    rfl
  rw [hbegin] at h
  by_cases hcan : v.canIterate = true
  swap
  · rw [if_neg hcan] at h
    cases h
  rw [if_pos hcan, hiterate] at h
  obtain ⟨p, s₁, hcreate, hcast⟩ := bind_eq_ok.mp h
  obtain ⟨rfl, hheap⟩ := create_eq_ok hcreate
  obtain ⟨v', s₂, hload, hkind⟩ := bind_eq_ok.mp hcast
  obtain ⟨hv', rfl⟩ := load_eq_ok.mp hload
  rw [hheap, List.getElem?_append_right (le_refl _), Nat.sub_self, List.getElem?_cons_zero] at hv'
  obtain rfl := Option.some.inj hv'
  rw [if_pos hmade] at hkind
  cases hkind
  exact ⟨rfl, hheap⟩

lemma listAt_start {l : List ValuePtr} (hr : s.heap[r]? = some (.list l))
    (h : loopIterator (some r) s = .ok iter s₀) : ListAt r iter l (l.take (l.length % 2 ^ 32)) s₀ := by
  obtain ⟨rfl, hheap⟩ := loopIterator_eq_ok hr rfl rfl rfl h
  refine ⟨?_, [], 0, rfl, ?_, rfl, fun h => absurd rfl h⟩
  · rw [hheap, List.getElem?_append_left (lt_length_of_heap hr), hr]
  · rw [hheap, List.getElem?_append_right (le_refl _), Nat.sub_self, List.getElem?_cons_zero]

lemma dictKeyAt_start {m : SortedMap Str ValuePtr} (hr : s.heap[r]? = some (.dictionary m))
    (h : loopIterator (some r) s = .ok iter s₀) : DictAt .dictKeyIterator r iter m m.entries s₀ := by
  obtain ⟨rfl, hheap⟩ := loopIterator_eq_ok hr rfl rfl rfl h
  refine ⟨?_, ?_, [], rfl⟩
  · rw [hheap, List.getElem?_append_left (lt_length_of_heap hr), hr]
  · rw [hheap, List.getElem?_append_right (le_refl _), Nat.sub_self, List.getElem?_cons_zero]
    rfl

/-- `d.items()` makes the bound member, then the iterator. -/
lemma dictItemAt_start {m : SortedMap Str ValuePtr} {n : Nat} {scope : ScopeRef}
    (hr : s.heap[r]? = some (.dictionary m)) (h : (Source.items r).iterator n scope s = .ok iter s₀) :
    DictAt .dictItemIterator r iter m m.entries s₀ := by
  obtain ⟨member, s₁, hmember, h⟩ := bind_eq_ok.mp h
  obtain ⟨items, s₂, hitems, h⟩ := bind_eq_ok.mp h
  obtain ⟨obj, s₃, hcall, hbegin⟩ := bind_eq_ok.mp h
  have hcreated : create (.dictItems r) s = .ok member s₁ := by
    unfold getMember at hmember
    rw [bind_of_ok (load_of_heap hr)] at hmember
    exact hmember
  obtain ⟨rfl, hheap₁⟩ := create_eq_ok hcreated
  cases hitems
  have hr₁ : s₁.heap[r]? = some (.dictionary m) := by
    rw [hheap₁, List.getElem?_append_left (lt_length_of_heap hr), hr]
  have hitems₁ : s₁.heap[s.heap.length]? = some (.dictItems r) := by
    rw [hheap₁, List.getElem?_append_right (le_refl _), Nat.sub_self, List.getElem?_cons_zero]
  have hmade : create (.dictItemIterator r m.first?) s₁ = .ok obj s₃ := by
    unfold call at hcall
    rw [bind_of_ok (load_of_heap hitems₁)] at hcall
    have hcast : valueCast Value.dictionary? (some r) s₁ = .ok m s₁ := valueCast_of_heap _ hr₁ rfl
    exact (bind_of_ok hcast).symm.trans hcall
  obtain ⟨rfl, hheap₃⟩ := create_eq_ok hmade
  have hiter : s₃.heap[s₁.heap.length]? = some (.dictItemIterator r m.first?) := by
    rw [hheap₃, List.getElem?_append_right (le_refl _), Nat.sub_self, List.getElem?_cons_zero]
  have hcast : loopIterator (some s₁.heap.length) s₃ = .ok s₁.heap.length s₃ := by
    have hassert : assertGeneric (some s₁.heap.length) s₃ = .ok s₁.heap.length s₃ := rfl
    unfold loopIterator
    rw [bind_of_ok hassert, bind_of_ok (load_of_heap hiter)]
    rfl
  rw [hcast] at hbegin
  cases hbegin
  refine ⟨?_, hiter, [], rfl⟩
  rw [hheap₃, List.getElem?_append_left (lt_length_of_heap hr₁), hr₁]

end Start

/-! ### The statement -/

section Loops

variable {n : Nat} {scope : ScopeRef} {names : List Str} {r iter : Ref} {es : List Element}
  {visits : List Visit} {s s₀ s₁ : State}

lemma dictionary_of_bind {α : Type} {f : SortedMap Str ValuePtr → α} {a : α} (h : (s.heap[r]?.bind Value.dictionary?).map f = some a) :
    ∃ m, s.heap[r]? = some (.dictionary m) ∧ f m = a := by
  obtain ⟨m, hm, rfl⟩ := Option.map_eq_some_iff.mp h
  obtain ⟨v, hv, hmap⟩ := Option.bind_eq_some_iff.mp hm
  cases v <;> cases hmap
  exact ⟨m, hv, rfl⟩

/-- Rounds in order, then the end. -/
lemma visitsEach_of_stopped {container : Ref} {s' : State} (hrun : QuietRun n scope names iter container s₀ visits s₁)
    (hend : Ended scope iter s₁) (hstop : tryNext iter (opened s₁) = .ok none s')
    (horder : List.Forall₂ (fun e v => e.Is v.next v.given ∧ v.Binds names) es visits) :
    VisitsEach n scope names iter es s₀ visits := by
  have hstopped : ∃ s₂, ∀ m ret,
      forRounds (executeNext n) scope names iter (m + 1) .topLevel ret s₁ = .ok ret s₂ :=
    forRounds_of_stopped hend.toGoesOn hstop
  obtain ⟨s₂, hstopped⟩ := hstopped
  refine ⟨horder, data_of_run hrun, s₂, fun m ret => ?_⟩
  rw [forRounds_of_run hrun]
  exact hstopped m ret

lemma list_visits_each_iff {l : List ValuePtr} (hr : s.heap[r]? = some (.list l))
    (hstart : loopIterator (some r) s = .ok iter s₀)
    (hrun : QuietRun n scope names iter r s₀ visits s₁) (hend : Ended scope iter s₁) :
    VisitsEach n scope names iter (l.map .value) s₀ visits ↔ l.length ≤ 2 ^ 31 := by
  obtain ⟨done, rest, htake, hdone, hrest⟩ := (iterating_list r iter l).run hrun (listAt_start hr hstart)
  have hopened : ListAt r iter l rest (opened s₁) := (iterating_list r iter l).keep (s := s₁) rfl rfl hrest
  have hlength := hdone.length_eq
  have hsize : done.length + rest.length = l.length % 2 ^ 32 := by
    have hle : l.length % 2 ^ 32 ≤ l.length := Nat.mod_le _ _
    rw [← List.length_append, ← htake, List.length_take]
    omega
  constructor
  · intro hvisits
    have hall := hvisits.in_order.length_eq
    rw [List.length_map] at hall
    cases hdone with
    | nil => simp only [hall, List.length_nil, Nat.zero_le]
    | cons hfirst _ =>
      obtain ⟨⟨-, hsmall⟩, -⟩ := hfirst
      omega
  · intro hsmall
    have hmod : l.length % 2 ^ 32 = l.length := Nat.mod_eq_of_lt (by omega)
    have hnil : rest = [] := by
      by_contra hne
      obtain ⟨e, rest', s', -, hnext, -⟩ := hopened.tryNext.2.1 hne (by omega)
      exact hend.none_given e s' hnext
    rw [hmod, List.take_length, hnil, List.append_nil] at htake
    apply visitsEach_of_stopped hrun hend (hopened.tryNext.1 hnil)
    rw [htake, List.forall₂_map_left_iff]
    exact hdone.imp fun e v h => ⟨h.1.1, h.2⟩

lemma dictionary_visits_each_iff {m : SortedMap Str ValuePtr} (hr : s.heap[r]? = some (.dictionary m))
    (hstart : loopIterator (some r) s = .ok iter s₀)
    (hrun : QuietRun n scope names iter r s₀ visits s₁) (hend : Ended scope iter s₁) :
    VisitsEach n scope names iter (m.entries.map fun e => .key e.1) s₀ visits ↔
      List.Forall₂ (fun e v => content e.2 v.asked = some (.string e.1)) m.entries visits := by
  obtain ⟨done, rest, hentries, hdone, hrest⟩ :=
    (iterating_dictKey r iter m).run hrun (dictKeyAt_start hr hstart)
  have hopened : DictAt .dictKeyIterator r iter m rest (opened s₁) :=
    (iterating_dictKey r iter m).keep (s := s₁) rfl rfl hrest
  have hnil : rest = [] := by
    cases rest with
    | nil => rfl
    | cons e rest' => exact absurd (hopened.tryNext_key.2 e rest' rfl) (hend.none_given _ _)
  rw [hnil, List.append_nil] at hentries
  rw [← hentries] at hdone
  constructor
  · intro hvisits
    have horder := hvisits.in_order
    rw [List.forall₂_map_left_iff] at horder
    refine List.Forall₂.mp (fun e v hyields hkey => ?_) hdone horder
    obtain ⟨⟨hvalue, hstrings⟩, -⟩ := hyields
    rw [← hvalue, ← hstrings]
    exact hkey.1
  · intro hkeys
    apply visitsEach_of_stopped hrun hend (hopened.tryNext_key.1 hnil)
    rw [List.forall₂_map_left_iff]
    refine List.Forall₂.mp (fun e v hyields hkey => ?_) hdone hkeys
    obtain ⟨⟨hvalue, hstrings⟩, hbinds⟩ := hyields
    refine ⟨?_, hbinds⟩
    show content v.next v.given = some (.string e.1)
    rw [hvalue, hstrings]
    exact hkey

lemma items_visits_each {m : SortedMap Str ValuePtr} (hr : s.heap[r]? = some (.dictionary m))
    (hstart : (Source.items r).iterator n scope s = .ok iter s₀)
    (hrun : QuietRun n scope names iter r s₀ visits s₁) (hend : Ended scope iter s₁) :
    VisitsEach n scope names iter (m.entries.map fun e => .pair e.1 e.2) s₀ visits := by
  obtain ⟨done, rest, hentries, hdone, hrest⟩ :=
    (iterating_dictItem r iter m).run hrun (dictItemAt_start hr hstart)
  have hopened : DictAt .dictItemIterator r iter m rest (opened s₁) :=
    (iterating_dictItem r iter m).keep (s := s₁) rfl rfl hrest
  have hnil : rest = [] := by
    cases rest with
    | nil => rfl
    | cons e rest' =>
      rcases hopened.tryNext_item.2 e rest' rfl with ⟨s', hrefused⟩ | ⟨p, s', hnext, -, -⟩
      · exact absurd hrefused (hend.granted s')
      · exact absurd hnext (hend.none_given p s')
  rw [hnil, List.append_nil] at hentries
  apply visitsEach_of_stopped hrun hend (hopened.tryNext_item.1 hnil)
  rw [hentries, List.forall₂_map_left_iff]
  exact hdone

end Loops

/-- The round that starts in `s`. -/
def visitAt (n : Nat) (scope : ScopeRef) (names : List Str) (iter : Ref) (s : State) : Visit :=
  let next := ((returned (tryNext iter) (opened s)).join).join
  let given := finalState (tryNext iter) (opened s)
  let bodyScope := s.frames.length :: scope
  let bound := finalState (bindNames bodyScope names next) given
  ⟨opened s, next, given, bodyScope, bound, finalState (executeNext n bodyScope .topLevel) bound⟩

def Visit.closed (v : Visit) (s : State) : State :=
  { v.left with frames := v.left.frames.take s.frames.length }

/-- The round that starts in `s` is quiet. -/
structure QuietAt (n : Nat) (scope : ScopeRef) (names : List Str) (iter container : Ref) (s : State)
    (next : ValuePtr) (v : Visit) : Prop where
  running : returned (isTerminated scope) s = some false
  charged : returned charge s = some ()
  gives : returned (tryNext iter) (opened s) = some (some next)
  binds : returned (bindNames v.bodyScope names v.next) v.given = some ()
  body : (returned (executeNext n v.bodyScope .topLevel) v.bound).map Prod.snd = some .topLevel
  unreturned : returned (isTerminated v.bodyScope) v.left = some false
  container_eq : v.left.heap[container]? = v.bound.heap[container]?
  iterator_eq : v.left.heap[iter]? = v.bound.heap[iter]?

lemma finalState_isTerminated_eq {scope : ScopeRef} {s : State} {b : Bool}
    (h : returned (isTerminated scope) s = some b) : isTerminated scope s = .ok b s := by
  have hrun := eq_ok_of_returned h
  rwa [finalState_isTerminated] at hrun

/-- A quiet round, then the others. -/
lemma QuietAt.cons {n : Nat} {scope : ScopeRef} {names : List Str} {iter container : Ref} {s s₂ : State}
    {next : ValuePtr} {vs : List Visit}
    (h : QuietAt n scope names iter container s next (visitAt n scope names iter s)) (hnests : scope.length < 128)
    (hrest : QuietRun n scope names iter container ((visitAt n scope names iter s).closed s) vs s₂) :
    QuietRun n scope names iter container s (visitAt n scope names iter s :: vs) s₂ := by
  have hgives := eq_ok_of_returned h.gives
  have hnext : (visitAt n scope names iter s).next = next := by
    unfold visitAt
    simp only [h.gives, Option.join_some]
  obtain ⟨⟨value, ls⟩, hres, hls⟩ := Option.map_eq_some_iff.mp h.body
  obtain rfl : ls = .topLevel := hls
  have hbody := eq_ok_of_returned hres
  have hcharge : charge s = .ok () (tick s) := by
    have hrun := eq_ok_of_returned h.charged
    rwa [finalState_charge] at hrun
  apply QuietRun.cons _ h.container_eq h.iterator_eq hrest
  refine ⟨⟨finalState_isTerminated_eq h.running, hcharge, hnests⟩, rfl, ?_, rfl, eq_ok_of_returned h.binds,
    ⟨value, hbody⟩, finalState_isTerminated_eq h.unreturned, rfl⟩
  rw [hnext]
  exact hgives

lemma ended_of_returned {scope : ScopeRef} {iter : Ref} {s : State}
    (hrunning : returned (isTerminated scope) s = some false) (hcharged : returned charge s = some ())
    (hnests : scope.length < 128) (hstop : returned (tryNext iter) (opened s) = some none) : Ended scope iter s := by
  have hcharge := eq_ok_of_returned hcharged
  rw [finalState_charge] at hcharge
  have hnext := eq_ok_of_returned hstop
  refine ⟨⟨finalState_isTerminated_eq hrunning, hcharge, hnests⟩, fun p s' h => ?_, fun s' h => ?_⟩
  · rw [hnext] at h
    cases h
  · rw [hnext] at h
    cases h

/-- `d = {'a': 1}` and a loop with an empty body. -/
def loopOver (target iter : Ast .expr) : List (Ast .stmt) :=
  [assignName "d" (.dict (.consItem (.str (lit "a")) (.number (.integer 1)) .noItems)),
    .forLoop target iter (.suite (.ofStmts [.pass])) .nullStmt]

/-- The loop node has read its names and evaluated its object. -/
def loopState (target iter : Ast .expr) : State :=
  finalState (do
    let _ ← readNames
    let _ ← evaluate (executeNext 10) [1, 0]) (stateBefore (loopOver target iter) 1)

/-- `for k in d: pass` -/
def keyLoop : State := loopState (.name (lit "k")) (.name (lit "d"))

/-- `for k, v in d.items(): pass` -/
def itemLoop : State :=
  loopState (.tuple (.ofExprs [.name (lit "k"), .name (lit "v")]))
    (.call (.attribute (.name (lit "d")) (.name (lit "items"))) .noExprs .noExprs .nullExpr .nullExpr)

/-- The state in which the rounds of `for k in d: pass` start. -/
def keyRounds : State := finalState ((Source.dictionary 1).iterator 10 [1, 0]) keyLoop

def keyVisit : Visit := visitAt 10 [1, 0] [lit "k"] 3 keyRounds

/-- The state in which the rounds of `for k, v in d.items(): pass` start. -/
def itemRounds : State := finalState ((Source.items 1).iterator 10 [1, 0]) itemLoop

def itemVisit : Visit := visitAt 10 [1, 0] [lit "k", lit "v"] 6 itemRounds

end ContractPython.Proofs
