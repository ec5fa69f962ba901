import Mathlib.Data.List.Perm.Subperm
import Mathlib.Logic.Relation
import ContractPython.Proofs.Closure
import ContractPython.Proofs.Steps

/-!
# Conversion to a string

`List::str` calls itself on the elements, and nothing stops a list from being an element of itself.
The conversion ends unless it gets to a list that contains itself: an object on the way that is no
list of printable elements up to there ends it with an exception.
-/

namespace ContractPython.Proofs

open Program M

/-- `List::str` has run into more nested calls than it may. -/
def stackOverflow : Exn := .crash (lit "stack overflow")

/-- The conversion of the object at `r` is not done after so many nested calls. -/
def Overflows (heap : List Value) (depth : Nat) (r : Ref) : Prop :=
  Value.str heap depth r = .error stackOverflow

/-- The conversion of the object at `r` returns or throws after finitely many nested calls. -/
def StrTerminates (heap : List Value) (r : Ref) : Prop := ∃ depth, ¬Overflows heap depth r

/-- `x` returns or throws. -/
def Completes {α : Type} (x : M α) (s : State) : Prop := ∀ s', x s ≠ .error stackOverflow s'

/-- The objects with a text of their own. -/
def hasText : Value → Bool
  | .bool _ | .string _ | .integer _ | .float _ => true
  | _ => false

/-- An object with a text of its own, or a list of such objects and `None`, at any depth. -/
inductive Printable (heap : List Value) : Ref → Prop
  | leaf {r : Ref} {v : Value} (hr : heap[r]? = some v) (hv : hasText v = true) : Printable heap r
  | list {r : Ref} {elements : List ValuePtr} (hr : heap[r]? = some (.list elements))
    (helements : ∀ q, some q ∈ elements → Printable heap q) : Printable heap r

/-- The conversion of the list at `r` gets to its element at `r'`. -/
def Descends (heap : List Value) (r r' : Ref) : Prop :=
  ∃ pre post, heap[r]? = some (.list (pre ++ some r' :: post)) ∧ ∀ q, some q ∈ pre → Printable heap q

/-- The conversion gets to a list from which it gets to the same list again. -/
def Circular (heap : List Value) (r : Ref) : Prop :=
  ∃ r', Relation.ReflTransGen (Descends heap) r r' ∧ Relation.TransGen (Descends heap) r' r'

/-! ### One list -/

/-- What `List::str` makes of an element. -/
def elementText (heap : List Value) (depth : Nat) (elem : ValuePtr) : Except Exn Str :=
  match elem with
  | none => .ok (lit "None")
  | some r' => do
    let s ← Value.str heap depth r'
    match heap[r']? with
    | some (.string _) => .ok (lit "'" ++ s ++ lit "'")
    | _ => .ok s

section Lists

variable {heap : List Value} {depth : Nat} {r : Ref} {elements : List ValuePtr}

lemma str_list (hr : heap[r]? = some (.list elements)) : Value.str heap (depth + 1) r =
    (do
      let parts ← elements.mapM (elementText heap depth)
      .ok (lit "[" ++ (lit ", ").intercalate parts ++ lit "]")) := by
  rw [Value.str, hr]
  rfl

lemma elementText_some_ok {q : Ref} {text : Str} (h : Value.str heap depth q = .ok text) :
    ∃ text', elementText heap depth (some q) = .ok text' := by
  simp only [elementText, h]
  cases hq : heap[q]? with
  | none => exact ⟨_, rfl⟩
  | some v => cases v <;> exact ⟨_, rfl⟩

lemma elementText_some_error {q : Ref} {e : Exn} :
    elementText heap depth (some q) = .error e ↔ Value.str heap depth q = .error e := by
  cases h : Value.str heap depth q with
  | ok text =>
    obtain ⟨text', htext⟩ := elementText_some_ok h
    rw [htext]
    exact ⟨nofun, nofun⟩
  | error e' =>
    simp only [elementText, h]
    exact Iff.rfl

end Lists

/-! ### What ends the conversion -/

section Outcomes

variable {heap : List Value} {r r' : Ref}

lemma printable_of_ok {depth : Nat} {text : Str} (h : Value.str heap depth r = .ok text) : Printable heap r := by
  induction depth generalizing r text with
  | zero => cases h
  | succ depth ih =>
    cases hr : heap[r]? with
    | none =>
      rw [Value.str, hr] at h
      cases h
    | some v =>
      cases v with
      | bool | string | integer | float => exact .leaf hr rfl
      | list elements =>
        rw [str_list hr] at h
        cases hparts : elements.mapM (elementText heap depth) with
        | error e =>
          rw [hparts] at h
          cases h
        | ok parts =>
          refine .list hr fun q hq => ?_
          obtain ⟨text', htext⟩ := mapM_eq_ok hparts _ hq
          cases hq' : Value.str heap depth q with
          | ok text'' => exact ih hq'
          | error e =>
            rw [elementText_some_error.mpr hq'] at htext
            cases htext
      | _ =>
        rw [Value.str, hr] at h
        cases h

/-- Printable objects are printed as soon as the depth is enough. -/
lemma ok_or_overflows (h : Printable heap r) (depth : Nat) :
    (∃ text, Value.str heap depth r = .ok text) ∨ Overflows heap depth r := by
  induction h generalizing depth with
  | @leaf r v hr hv =>
    cases depth with
    | zero => exact .inr rfl
    | succ depth =>
      left
      rw [Value.str, hr]
      cases v with
      | bool | string | integer | float => exact ⟨_, rfl⟩
      | _ => cases hv
  | @list r elements hr _ ih =>
    cases depth with
    | zero => exact .inr rfl
    | succ depth =>
      cases hparts : elements.mapM (elementText heap depth) with
      | ok parts =>
        left
        rw [str_list hr, hparts]
        exact ⟨_, rfl⟩
      | error e =>
        right
        obtain ⟨pre, elem, post, rfl, -, helem⟩ := mapM_eq_error hparts
        have he : e = stackOverflow := by
          cases elem with
          | none => cases helem
          | some q =>
            have hq := elementText_some_error.mp helem
            obtain ⟨text, htext⟩ | hover := ih q (by simp) depth
            · rw [htext] at hq
              cases hq
            · unfold Overflows at hover
              rw [hq] at hover
              cases hover
              rfl
        unfold Overflows
        rw [str_list hr, hparts, he]
        rfl

/-- An overflow comes from an element. -/
lemma descends_of_overflows {depth : Nat} (h : Overflows heap (depth + 1) r) :
    ∃ r', Descends heap r r' ∧ Overflows heap depth r' := by
  unfold Overflows at h
  cases hr : heap[r]? with
  | none =>
    rw [Value.str, hr] at h
    cases h
  | some v =>
    cases v with
    | list elements =>
      rw [str_list hr] at h
      obtain hparts | ⟨parts, -, h⟩ := except_bind_eq_error h
      · obtain ⟨pre, elem, post, rfl, hpre, helem⟩ := mapM_eq_error hparts
        cases elem with
        | none => cases helem
        | some r' =>
          refine ⟨r', ⟨pre, post, hr, fun q hq => ?_⟩, elementText_some_error.mp helem⟩
          obtain ⟨text, htext⟩ := hpre _ hq
          cases hq' : Value.str heap depth q with
          | ok text' => exact printable_of_ok hq'
          | error e =>
            rw [elementText_some_error.mpr hq'] at htext
            cases htext
      · cases h
    | _ =>
      rw [Value.str, hr] at h
      cases h

lemma overflows_of_descends {depth : Nat} (hr : Descends heap r r') (h : Overflows heap depth r') :
    Overflows heap (depth + 1) r := by
  obtain ⟨pre, post, hr, hpre⟩ := hr
  have hparts : (pre ++ some r' :: post).mapM (elementText heap depth) = .error stackOverflow := by
    clear hr
    induction pre with
    | nil =>
      rw [List.nil_append, List.mapM_cons, elementText_some_error.mpr h]
      rfl
    | cons elem pre ih =>
      have hrest := ih fun q hq => hpre q (List.mem_cons_of_mem _ hq)
      have helem : (∃ text, elementText heap depth elem = .ok text) ∨
          elementText heap depth elem = .error stackOverflow := by
        cases elem with
        | none => exact .inl ⟨_, rfl⟩
        | some q =>
          obtain ⟨text, htext⟩ | hover := ok_or_overflows (hpre q List.mem_cons_self) depth
          · exact .inl (elementText_some_ok htext)
          · exact .inr (elementText_some_error.mpr hover)
      rw [List.cons_append, List.mapM_cons]
      obtain ⟨text, htext⟩ | hover := helem
      · rw [htext, hrest]
        rfl
      · rw [hover]
        rfl
  unfold Overflows
  rw [str_list hr, hparts]
  rfl

/-- On the way to a circle every step leads to another one. -/
lemma Circular.step (h : Circular heap r) : ∃ r', Descends heap r r' ∧ Circular heap r' := by
  obtain ⟨c, hto, hround⟩ := h
  obtain rfl | ⟨q, hq, hrest⟩ := Relation.ReflTransGen.cases_head hto
  · obtain ⟨q, hq, hrest⟩ := Relation.TransGen.head'_iff.mp hround
    exact ⟨q, hq, r, hrest, hround⟩
  · exact ⟨q, hq, c, hrest, hround⟩

/-- No depth is enough for a circle. -/
lemma Circular.overflows (h : Circular heap r) (depth : Nat) : Overflows heap depth r := by
  induction depth generalizing r with
  | zero => rfl
  | succ depth ih =>
    obtain ⟨q, hq, hcircular⟩ := h.step
    exact overflows_of_descends hq (ih hcircular)

/-- Without a circle the objects on the way down are different ones. -/
lemma depth_add_length_le {start : Ref} (hstart : ¬Circular heap start) {depth : Nat} (path : List Ref)
    (hnodup : path.Nodup) (hbound : ∀ q ∈ path, q < heap.length)
    (hdown : ∀ q ∈ path, Relation.TransGen (Descends heap) q r)
    (hreach : Relation.ReflTransGen (Descends heap) start r) (h : Overflows heap depth r) :
    depth + path.length ≤ heap.length := by
  induction depth generalizing r path with
  | zero =>
    have hsub : path ⊆ List.range heap.length := fun q hq => List.mem_range.mpr (hbound q hq)
    have hle := (List.subperm_of_subset hnodup hsub).length_le
    rw [List.length_range] at hle
    omega
  | succ depth ih =>
    obtain ⟨q, hq, hover⟩ := descends_of_overflows h
    have hnew : r ∉ path := fun hmem => hstart ⟨r, hreach, hdown r hmem⟩
    have hlt : r < heap.length := by
      obtain ⟨pre, post, hr, -⟩ := hq
      exact (List.getElem?_eq_some_iff.mp hr).1
    have hle := ih (r :: path) (List.nodup_cons.mpr ⟨hnew, hnodup⟩)
      (List.forall_mem_cons.mpr ⟨hlt, hbound⟩)
      (List.forall_mem_cons.mpr ⟨.single hq, fun p hp => (hdown p hp).tail hq⟩) (hreach.tail hq) hover
    rw [List.length_cons] at hle
    omega

/-- As many nested calls as there are objects are enough, or no number is. -/
lemma overflows_iff_circular : Overflows heap (heap.length + 1) r ↔ Circular heap r := by
  constructor
  · intro hover
    by_contra hcircular
    have hle := depth_add_length_le hcircular [] List.nodup_nil (fun _ hq => absurd hq List.not_mem_nil)
      (fun _ hq => absurd hq List.not_mem_nil) .refl hover
    rw [List.length_nil] at hle
    omega
  · exact fun h => h.overflows _

lemma strTerminates_iff : StrTerminates heap r ↔ ¬Circular heap r := by
  constructor
  · rintro ⟨depth, hdepth⟩ hcircular
    exact hdepth (hcircular.overflows depth)
  · exact fun h => ⟨_, fun hover => h (overflows_iff_circular.mp hover)⟩

end Outcomes

/-! ### The calls -/

section Calls

variable {s : State} {r : Ref}

lemma completes_str : Completes (M.str r) s ↔ ¬Circular s.heap r := by
  rw [← overflows_iff_circular]
  unfold Completes Overflows M.str
  cases h : Value.str s.heap (s.heap.length + 1) r with
  | ok text => exact ⟨nofun, nofun⟩
  | error e =>
    constructor
    · rintro hcompletes heq
      cases heq
      exact hcompletes s rfl
    · rintro hne s' heq
      cases heq
      exact hne rfl

/-- Whatever follows a conversion completes. -/
lemma completes_bind_str {α : Type} {f : Str → M α} (hf : ∀ text s', Completes (f text) s') :
    Completes (M.str r >>= f) s ↔ ¬Circular s.heap r := by
  rw [← completes_str]
  cases h : M.str r s with
  | ok text s' =>
    constructor
    · rintro - s'' heq
      rw [h] at heq
      cases heq
    · rintro - s'' heq
      rw [bind_of_ok h] at heq
      exact hf text s' s'' heq
  | error e s' =>
    constructor
    · rintro hcompletes s'' heq
      rw [h] at heq
      cases heq
      exact hcompletes _ (bind_of_error h)
    · rintro hcompletes s'' heq
      rw [bind_of_error h] at heq
      cases heq
      exact hcompletes _ h

lemma completes_create (v : Value) (s : State) : Completes (create v) s := by
  intro s' heq
  by_cases hmem : MemoryLeft s
  · rw [create_of_memoryLeft hmem] at heq
    cases heq
  · simp only [create, alloc, malloc, bind, EStateM.bind] at heq
    unfold MemoryLeft at hmem
    rw [Bool.not_eq_true] at hmem
    rw [hmem] at heq
    cases heq

/-- `str(v)`. -/
lemma completes_makeString : Completes (callBuiltin .makeString [some r]) s ↔ ¬Circular s.heap r :=
  completes_bind_str fun _ _ => completes_create _ _

/-- Only a list leads anywhere. -/
lemma Circular.isList {heap : List Value} (h : Circular heap r) : ∃ elements, heap[r]? = some (.list elements) := by
  obtain ⟨q, ⟨pre, post, hr, -⟩, -⟩ := h.step
  exact ⟨_, hr⟩

/-- What `print` does behind the text of its only argument. -/
def endPrint : M ValuePtr := do
  printArgs (lit " ") []
  printProgramOutput (lit "\n")
  pure none

/-- `print` of one argument. -/
lemma callBuiltin_print : callBuiltin .print [some r] s = (do
    match ← load r with
    | .string text => do
      printProgramOutput ([] ++ text)
      endPrint
    | _ => do
      let text ← M.str r
      malloc
      printProgramOutput ([] ++ text)
      endPrint) s := by
  have hcall : callBuiltin .print [some r] s = (do
      printArgs [] [some r]
      printProgramOutput (lit "\n")
      pure none) s := rfl
  rw [hcall]
  simp only [printArgs, assertGeneric, pure_bind, bind_assoc]
  cases hr : s.heap[r]? with
  | none =>
    have hload : load r s = .error (.crash (lit "dangling reference")) s := by
      unfold load
      rw [hr]
    rw [bind_of_error hload, bind_of_error hload]
  | some v =>
    rw [bind_of_ok (load_of_heap hr), bind_of_ok (load_of_heap hr)]
    cases v <;> simp only [bind_assoc] <;> rfl

/-- `print(v)`. -/
lemma completes_print : Completes (callBuiltin .print [some r]) s ↔ ¬Circular s.heap r := by
  have hplain (h : ∀ elements, s.heap[r]? ≠ some (.list elements)) : ¬Circular s.heap r := by
    intro hcircular
    obtain ⟨elements, hlist⟩ := hcircular.isList
    exact h elements hlist
  unfold Completes
  rw [callBuiltin_print]
  cases hr : s.heap[r]? with
  | none =>
    have hload : load r s = .error (.crash (lit "dangling reference")) s := by
      unfold load
      rw [hr]
    rw [bind_of_error hload]
    exact ⟨fun _ => hplain (by simp [hr]), fun _ s' heq => by cases heq⟩
  | some v =>
    rw [bind_of_ok (load_of_heap hr)]
    have hend : ∀ text s', Completes (do malloc; printProgramOutput ([] ++ text); endPrint) s' := by
      intro text s' s'' heq
      cases hmem : s'.memory.grants s'.memory.requests with
      | true => simp [bind, EStateM.bind, malloc, hmem, printProgramOutput, endPrint, printArgs] at heq
      | false => simp [bind, EStateM.bind, malloc, hmem, stackOverflow] at heq
    cases v with
    | string text => exact ⟨fun _ => hplain (by simp [hr]), fun _ s' heq => by cases heq⟩
    | _ => exact completes_bind_str hend

end Calls

/-! ### Whole runs -/

/-- An overflow of `x` leaves a state with a circle. -/
def OverflowsInCircle (α : Type) (x : M α) : Prop :=
  ∀ s s', x s = .error stackOverflow s' → ∃ r, Circular s'.heap r

lemma overflowsInCircle_of_completes {α : Type} {x : M α} (h : ∀ s, Completes x s) : OverflowsInCircle α x :=
  fun s s' hx => absurd hx (h s s')

lemma overflowsInCircle_bind {α β : Type} {x : M α} {f : α → M β} (hx : OverflowsInCircle α x)
    (hf : ∀ a, OverflowsInCircle β (f a)) : OverflowsInCircle β (x >>= f) := by
  intro s s' h
  obtain h | ⟨a, s₁, -, h⟩ := bind_eq_error.mp h
  · exact hx s s' h
  · exact hf a s₁ s' h

lemma overflowsInCircle_pure {α : Type} (a : α) : OverflowsInCircle α (pure a) := nofun

lemma completes_malloc (s : State) : Completes malloc s := by
  intro s' h
  unfold malloc at h
  split at h <;> cases h

lemma completes_onData {α : Type} (f : Bitstream → Option α × Bitstream) (s : State) : Completes (onData f) s := by
  intro s' h
  unfold onData at h
  split at h <;> cases h

lemma completes_storeAt (r : Ref) (v : Value) (s : State) : Completes (storeAt r v) s := by
  intro s' h
  unfold storeAt at h
  split at h
  · cases h
  · have hne : Exn.crash (lit "dangling reference") ≠ stackOverflow := by decide
    exact hne (EStateM.Result.error.inj h).1

lemma completes_modifyScope (scope : ScopeRef) (f : Frame → Frame) (s : State) :
    Completes (modifyScope scope f) s := by
  intro s' h
  cases scope <;> cases h

/-- A run overflows in a circle only. -/
lemma closed_overflowsInCircle : Closed (fun _ => True) OverflowsInCircle where
  pure := overflowsInCircle_pure
  bind := overflowsInCircle_bind
  throw e he := by
    intro s s' h
    cases h
    cases he
  stuck := nofun
  malloc := overflowsInCircle_of_completes completes_malloc
  makeShared _ := nofun
  load r := overflowsInCircle_of_completes fun s s' h => by
    have hne : Exn.crash (lit "dangling reference") ≠ stackOverflow := by decide
    unfold load at h
    split at h
    · cases h
    · exact hne (EStateM.Result.error.inj h).1
  storeAt r v _ := overflowsInCircle_of_completes (completes_storeAt r v)
  writeStore r st := overflowsInCircle_bind (overflowsInCircle_of_completes (completes_storeAt _ _)) fun _ => nofun
  findValue _ _ := nofun
  setValue _ _ _ := nofun
  hasValue _ _ := nofun
  setGlobalTag _ _ _ := overflowsInCircle_of_completes (completes_modifyScope _ _)
  terminate _ _ := overflowsInCircle_of_completes (completes_modifyScope _ _)
  requireGlobal _ _ := overflowsInCircle_of_completes (completes_modifyScope _ _)
  isTerminated scope _ := by
    intro s s' h
    cases scope <;> cases h
  withFrame {_ f} hf := by
    intro s s' h
    unfold withFrame at h
    cases hbody : f s.frames.length { s with frames := s.frames ++ [.empty] } with
    | ok a s₁ =>
      rw [hbody] at h
      cases h
    | error e s₁ =>
      rw [hbody] at h
      cases h
      obtain ⟨r, hr⟩ := hf _ trivial _ _ hbody
      exact ⟨r, hr⟩
  str r := by
    intro s s' h
    have hcircular : Circular s.heap r := by
      by_contra hne
      exact completes_str.mpr hne s' h
    have hsame : s' = s := by
      rw [← finalState_of_error h, finalState_str]
    exact ⟨r, hsame ▸ hcircular⟩
  getChain := nofun
  setFunds _ _ := nofun
  checkAddress _ := nofun
  rand := nofun
  printProgramOutput _ := nofun
  charge := overflowsInCircle_of_completes fun s s' h => by
    unfold charge at h
    split at h <;> cases h
  readWord := overflowsInCircle_of_completes (completes_onData _)
  readString := overflowsInCircle_of_completes (completes_onData _)
  peekType := overflowsInCircle_of_completes (completes_onData _)
  readStub _ := overflowsInCircle_bind (overflowsInCircle_of_completes (completes_onData _)) fun _ =>
    overflowsInCircle_bind (overflowsInCircle_of_completes (completes_onData _)) fun _ => overflowsInCircle_pure _
  streamLength := nofun
  returnTo hf := overflowsInCircle_bind nofun fun start => hf start nofun
  inGlobalScope hf := overflowsInCircle_bind nofun fun scope => hf scope (by simp [Touches])
  findModule _ := nofun
  loadRand := loadRand_of_steps ⟨overflowsInCircle_pure, overflowsInCircle_bind⟩
    (overflowsInCircle_of_completes completes_malloc) nofun nofun
  catchStop r hr := by
    intro s s' h
    unfold tryNext at h
    cases hnext : next r s with
    | ok v s₁ =>
      rw [hnext] at h
      cases h
    | error e s₁ =>
      rw [hnext] at h
      cases e with
      | crash what =>
        cases h
        exact hr s s' hnext
      | _ => cases h
  record _ _ _ := nofun
  checkLimit := overflowsInCircle_of_completes fun s s' h => by
    unfold checkLimit at h
    split at h <;> cases h
  runCallee n writeBack pyint scope _ _ hexec _ := by
    intro s s' h
    unfold runCallee at h
    cases hbody : evaluate (executeNext n) scope (calleeState pyint s) with
    | ok a s₁ =>
      rw [hbody] at h
      cases h
    | error e s₁ =>
      rw [hbody] at h
      cases h
      have heval : OverflowsInCircle _ (evaluate (executeNext n) scope) :=
        overflowsInCircle_bind hexec fun _ => overflowsInCircle_pure _
      obtain ⟨r, hr⟩ := heval _ _ hbody
      exact ⟨r, hr⟩

/-- In every state that a run of any program ends in, the conversion of a value to a string and the
calls `str(v)` and `print(v)` return or throw if and only if the conversion does not get to a list that
contains itself. A run that ends in a state without such a list has completed all of them. -/
theorem str_terminates_iff (fuel : Nat) (data : Str) (s : State) :
    let s' := finalState (runProgram fuel data) s
    (∀ r, (StrTerminates s'.heap r ∧ Completes (callBuiltin .makeString [some r]) s' ∧
      Completes (callBuiltin .print [some r]) s') ↔ ¬Circular s'.heap r) ∧
    (Completes (runProgram fuel data) s ∨ ∃ r, Circular s'.heap r) := by
  refine ⟨fun r => ?_, ?_⟩
  · rw [strTerminates_iff, completes_makeString, completes_print, and_self, and_self]
  · by_cases hrun : Completes (runProgram fuel data) s
    · exact .inl hrun
    · right
      unfold Completes at hrun
      push Not at hrun
      obtain ⟨s', h⟩ := hrun
      rw [finalState_of_error h]
      exact closed_overflowsInCircle.runProgram fuel data s s' h

/-- `l = []; l.append(l); str(l)` in the default function. -/
def appendSelf : List UInt8 :=
  moduleCode [defStmt "default" [
    .assign (.ofExprs [.name (lit "l")]) (.list .noExprs),
    .expressionStatement (.call (.attribute (.name (lit "l")) (.name (lit "append")))
      (.ofExprs [.name (lit "l")]) .noExprs .nullExpr .nullExpr),
    .expressionStatement (callExpr "str" [.name (lit "l")])]]

/-- A contract converts a list that contains itself. -/
theorem str_terminates_appendSelf_false :
    ¬StrTerminates [.list [some 0]] 0 ∧
      (runDefault appendSelf matches .error (.crash _)) = true := by
  refine ⟨?_, by decide +kernel⟩
  rw [strTerminates_iff, not_not]
  have hdown : Descends [.list [some 0]] 0 0 := ⟨[], [], rfl, fun _ hq => absurd hq List.not_mem_nil⟩
  exact ⟨0, .refl, .single hdown⟩

end ContractPython.Proofs
