import Mathlib.Data.List.Induction
import ContractPython.Proofs.Scopes
import ContractPython.Proofs.Steps

/-!
# Chains and trees of scopes

What a sequence of operations makes of the scopes. A name assigned in the innermost scope of a chain
is read back there, unless the scope has bound the name before it declared it `global`; and nothing
below a function without declarations changes a binding of its callers.
-/

namespace ContractPython.Proofs

open Program M Scope

/-! ### Operations on a chain -/

/-- An operation on the innermost scope of a chain. -/
inductive ChainOp
  | push (requiresGlobal : Bool)
  | pop
  | setGlobalTag (name : Str)
  | setValue (name : Str) (value : ValuePtr)

/-- A chain, from its innermost scope, and the state it lives in. -/
structure Chain where
  scope : ScopeRef
  state : State

namespace Chain

/-- A new `Scope` object below the innermost one. -/
def pushed (c : Chain) : Chain where
  scope := c.state.frames.length :: c.scope
  state := { c.state with frames := c.state.frames ++ [.empty] }

/-- The constructor refuses a chain of more than 128 scopes. -/
def push (c : Chain) (requiresGlobal : Bool) : Chain :=
  if 128 ≤ c.scope.length then c
  else if requiresGlobal then { c.pushed with state := finalState (requireGlobal c.pushed.scope) c.pushed.state }
  else c.pushed

def pop (c : Chain) : Chain :=
  match c.scope with
  | [] => c
  | id :: parents => ⟨parents, { c.state with frames := c.state.frames.take id }⟩

def apply (c : Chain) : ChainOp → Chain
  | .push requiresGlobal => c.push requiresGlobal
  | .pop => c.pop
  | .setGlobalTag name => { c with state := finalState (setGlobalTag c.scope name) c.state }
  | .setValue name value => { c with state := finalState (M.setValue c.scope name value) c.state }

/-- The chain after some operations. -/
def after (c : Chain) (ops : List ChainOp) : Chain := ops.foldl apply c

end Chain

/-- The names `get_value` does not look up. -/
def Reserved (name : Str) : Prop := name = lit "None" ∨ builtinNamed name ≠ none

/-- After the assignment the innermost scope reads the value, and every scope of the chain reads the
other names as before. -/
structure ReadsBack (scope : ScopeRef) (s : State) (name : Str) (value : ValuePtr) : Prop where
  reads : returned (getValue scope name) (finalState (M.setValue scope name value) s) = some value
  others : ∀ name' ≠ name, ∀ inner outer, scope = inner ++ outer → SameResult (fun _ _ => True)
    (getValue outer name' s) (getValue outer name' (finalState (M.setValue scope name value) s))

/-- Every name that is not reserved is read back. -/
def ReadYourWrites (c : Chain) : Prop :=
  c.scope ≠ [] → ∀ name, ¬Reserved name → ∀ value, ReadsBack c.scope c.state name value

/-- The innermost scope is a function that has bound the name itself. -/
def BoundInFunction (c : Chain) (name : Str) : Prop :=
  match c.scope with
  | id :: _ :: _ => (frame c.state.frames id).requireGlobal = true ∧
      (frame c.state.frames id).values.contains name = true
  | _ => False

/-- No function binds a name before it declares it `global`. -/
def DeclaredFirst (c : Chain) (ops : List ChainOp) : Prop :=
  ∀ pre name post, ops = pre ++ .setGlobalTag name :: post → ¬Reserved name → ¬BoundInFunction (c.after pre) name

/-! ### Lookups -/

section Lookups

variable {frames frames' : List Frame} {scope : ScopeRef} {name : Str} {s : State}

lemma findValue_congr (h : ∀ id ∈ scope, (frame frames' id).values.find? name = (frame frames id).values.find? name) :
    Scope.findValue frames' scope name = Scope.findValue frames scope name := by
  induction scope with
  | nil => rfl
  | cons id parents ih =>
    have hparents := ih fun id' hid' => h id' (List.mem_cons_of_mem _ hid')
    unfold Scope.findValue
    rw [h id List.mem_cons_self, hparents]

lemma hasValue_congr (h : ∀ id ∈ scope, (frame frames' id).values.find? name = (frame frames id).values.find? name) :
    Scope.hasValue frames' scope name = Scope.hasValue frames scope name := by
  induction scope with
  | nil => rfl
  | cons id parents ih =>
    have hparents := ih fun id' hid' => h id' (List.mem_cons_of_mem _ hid')
    unfold Scope.hasValue SortedMap.contains
    rw [h id List.mem_cons_self, hparents]

/-- The frame itself and what the parents know of the name decide. -/
lemma passesOn_congr {id : Nat} {parents : ScopeRef}
    (hflag : (frame frames' id).requireGlobal = (frame frames id).requireGlobal)
    (htags : (frame frames' id).globalTags = (frame frames id).globalTags)
    (hparents : ∀ id' ∈ parents, (frame frames' id').values.find? name = (frame frames id').values.find? name) :
    passesOn frames' id parents name = passesOn frames id parents name := by
  unfold passesOn
  rw [hflag, htags, hasValue_congr hparents]

/-- A name that is not reserved is looked up. -/
lemma getValue_eq (hname : ¬Reserved name) : getValue scope name = (do
    match ← M.findValue scope name with
    | some value => pure value
    | none => throwRuntime (lit "No such value: " ++ name)) := by
  have hnone : name ≠ lit "None" := fun h => hname (.inl h)
  have hbuiltin : builtinNamed name = none := by
    by_contra h
    exact hname (.inr h)
  unfold getValue
  rw [hbuiltin]
  exact if_neg hnone

lemma findValue_apply (scope : ScopeRef) (name : Str) (s : State) :
    M.findValue scope name s = .ok (Scope.findValue s.frames scope name)
      { s with log := .nameFound (binders s.frames scope name).head? :: s.log } := rfl

lemma returned_getValue (hname : ¬Reserved name) :
    returned (getValue scope name) s = Scope.findValue s.frames scope name := by
  unfold returned
  rw [getValue_eq hname, bind_of_ok (findValue_apply scope name s)]
  cases Scope.findValue s.frames scope name with
  | none => rfl
  | some value => rfl

lemma create_congr {s' : State} (hheap : s'.heap = s.heap) (hmemory : s'.memory = s.memory) (v : Value) :
    SameResult (fun _ _ => True) (create v s) (create v s') := by
  unfold create alloc malloc makeShared
  simp only [bind, EStateM.bind, hmemory]
  by_cases hgrants : s.memory.grants s.memory.requests = true
  · simp only [if_pos hgrants, hheap]
    exact .ok trivial
  · simp only [if_neg hgrants]
    exact .error trivial

/-- What a scope reads depends on the bindings of the name. -/
lemma getValue_sameResult {s' : State} (hheap : s'.heap = s.heap) (hmemory : s'.memory = s.memory)
    (h : ∀ id ∈ scope, (frame s'.frames id).values.find? name = (frame s.frames id).values.find? name) :
    SameResult (fun _ _ => True) (getValue scope name s) (getValue scope name s') := by
  by_cases hname : Reserved name
  · unfold getValue
    by_cases hnone : name = lit "None"
    · rw [if_pos hnone]
      exact .ok trivial
    · rw [if_neg hnone]
      have hbuiltin := hname.resolve_left hnone
      cases htype : builtinNamed name with
      | none => exact absurd htype hbuiltin
      | some type => exact create_congr hheap hmemory (.builtin type)
  · rw [getValue_eq hname, bind_of_ok (findValue_apply scope name s), bind_of_ok (findValue_apply scope name s'),
      findValue_congr h]
    cases Scope.findValue s.frames scope name with
    | none => exact .error trivial
    | some value => exact .ok trivial

end Lookups

/-! ### Chains as the operations leave them -/

/-- The scopes of a chain are newer than their parents. -/
structure Stacked (frames : List Frame) (scope : ScopeRef) : Prop where
  newer : scope.Pairwise (· > ·)
  lt_length : ∀ id ∈ scope, id < frames.length

/-- A scope that binds a name does not hand it on. -/
def Unshadowed (frames : List Frame) : ScopeRef → Prop
  | [] => True
  | id :: parents => (∀ name, ¬Reserved name → (frame frames id).values.contains name = true →
      passesOn frames id parents name = false) ∧ Unshadowed frames parents

section Unshadowed

variable {frames frames' : List Frame} {scope : ScopeRef} {id : Nat} {parents : ScopeRef} {name : Str}

lemma unshadowed_congr (h : ∀ id ∈ scope, frame frames' id = frame frames id) (hs : Unshadowed frames scope) :
    Unshadowed frames' scope := by
  induction scope with
  | nil => trivial
  | cons id parents ih =>
    have hid := h id List.mem_cons_self
    have hparents : ∀ id' ∈ parents, frame frames' id' = frame frames id' :=
      fun id' hid' => h id' (List.mem_cons_of_mem _ hid')
    refine ⟨fun name hname hbound => ?_, ih hparents hs.2⟩
    rw [hid] at hbound
    have hpasses : passesOn frames' id parents name = passesOn frames id parents name :=
      passesOn_congr (by rw [hid]) (by rw [hid]) fun id' hid' => by rw [hparents id' hid']
    rw [hpasses]
    exact hs.1 name hname hbound

/-- The assignment changes nothing above a scope that takes it. -/
lemma frame_setValue_of_notMem (hid : id ∉ scope) (name : Str) (value : ValuePtr) :
    frame (Scope.setValue frames scope name value) id = frame frames id := by
  by_cases hne : scope = []
  · rw [hne]
    rfl
  · obtain ⟨t, ht, -, hset⟩ := exists_setValue_eq frames name hne
    rw [hset]
    refine frame_bindIn_of_ne name value ?_
    rintro rfl
    exact hid ht

/-- The bindings of the other names stay. -/
lemma find?_setValue_of_ne {name' : Str} (hne : name' ≠ name) (value : ValuePtr) :
    (frame (Scope.setValue frames scope name value) id).values.find? name' =
      (frame frames id).values.find? name' := by
  by_cases hnil : scope = []
  · rw [hnil]
    rfl
  · obtain ⟨t, -, -, hset⟩ := exists_setValue_eq frames name hnil
    rw [hset]
    exact find?_bindIn _ _ _ _ _ _ (.inr hne)

/-- In an unshadowed chain the assigned value is found. -/
lemma findValue_setValue (hstacked : Stacked frames scope) (hunshadowed : Unshadowed frames scope) (hne : scope ≠ [])
    (hname : ¬Reserved name) (value : ValuePtr) :
    Scope.findValue (Scope.setValue frames scope name value) scope name = some value := by
  induction scope with
  | nil => exact absurd rfl hne
  | cons id parents ih =>
    obtain ⟨hnewer, hlt⟩ := hstacked
    rw [List.pairwise_cons] at hnewer
    rw [setValue_cons]
    by_cases hpasses : passesOn frames id parents name = true
    · have hparents : parents ≠ [] := by
        rintro rfl
        cases hpasses
      have hunbound : (frame frames id).values.find? name = none := by
        by_contra hbound
        have hsettles := hunshadowed.1 name hname (Option.isSome_iff_ne_none.mpr hbound)
        rw [hpasses] at hsettles
        cases hsettles
      have hnotMem : id ∉ parents := fun hmem => absurd (hnewer.1 id hmem) (Nat.lt_irrefl id)
      rw [if_pos hpasses, Scope.findValue, frame_setValue_of_notMem hnotMem, hunbound]
      have hstacked' : Stacked frames parents := ⟨hnewer.2, fun id' hid' => hlt id' (List.mem_cons_of_mem _ hid')⟩
      exact ih hstacked' hunshadowed.2 hparents
    · rw [if_neg hpasses, Scope.findValue, frame_bindIn_self _ _ (hlt id List.mem_cons_self),
        SortedMap.find?_insert_self]

/-- An assignment leaves a chain unshadowed. -/
lemma unshadowed_setValue (hstacked : Stacked frames scope) (hunshadowed : Unshadowed frames scope) (name : Str)
    (value : ValuePtr) : Unshadowed (Scope.setValue frames scope name value) scope := by
  induction scope with
  | nil => trivial
  | cons id parents ih =>
    obtain ⟨hnewer, hlt⟩ := hstacked
    rw [List.pairwise_cons] at hnewer
    have hnotMem : id ∉ parents := fun hmem => absurd (hnewer.1 id hmem) (Nat.lt_irrefl id)
    have hstacked' : Stacked frames parents := ⟨hnewer.2, fun id' hid' => hlt id' (List.mem_cons_of_mem _ hid')⟩
    rw [setValue_cons]
    by_cases hpasses : passesOn frames id parents name = true
    · rw [if_pos hpasses]
      have hid : frame (Scope.setValue frames parents name value) id = frame frames id :=
        frame_setValue_of_notMem hnotMem name value
      refine ⟨fun name' hname' hbound => ?_, ih hstacked' hunshadowed.2⟩
      rw [hid] at hbound
      have hkept := hunshadowed.1 name' hname' hbound
      have hne : name' ≠ name := by
        rintro rfl
        rw [hpasses] at hkept
        cases hkept
      have hpasses' : passesOn (Scope.setValue frames parents name value) id parents name' =
          passesOn frames id parents name' :=
        passesOn_congr (by rw [hid]) (by rw [hid]) fun id' _ => find?_setValue_of_ne hne value
      rw [hpasses']
      exact hkept
    · rw [if_neg hpasses]
      have hparents : ∀ id' ∈ parents, frame (bindIn frames id name value) id' = frame frames id' := by
        intro id' hid'
        apply frame_bindIn_of_ne
        rintro rfl
        exact hnotMem hid'
      refine ⟨fun name' hname' hbound => ?_, unshadowed_congr hparents hunshadowed.2⟩
      obtain ⟨hflag, htags⟩ := frame_bindIn_flags frames id id name value
      have hpasses' : passesOn (bindIn frames id name value) id parents name' = passesOn frames id parents name' :=
        passesOn_congr hflag htags fun id' hid' => by rw [hparents id' hid']
      rw [hpasses']
      by_cases heq : name' = name
      · rw [heq]
        exact Bool.eq_false_iff.mpr hpasses
      · refine hunshadowed.1 name' hname' ?_
        unfold SortedMap.contains at hbound ⊢
        rwa [find?_bindIn _ _ _ _ _ _ (.inr heq)] at hbound

/-- A new scope binds nothing. -/
lemma unshadowed_of_empty (hempty : (frame frames' id).values = .empty)
    (h : ∀ id' ∈ parents, frame frames' id' = frame frames id') (hs : Unshadowed frames parents) :
    Unshadowed frames' (id :: parents) := by
  refine ⟨fun name _ hbound => ?_, unshadowed_congr h hs⟩
  rw [hempty] at hbound
  cases hbound

/-- The frames after the innermost scope declares a name `global`. -/
def tagged (frames : List Frame) (id : Nat) (name : Str) : List Frame :=
  frames.set id { frame frames id with globalTags := name :: (frame frames id).globalTags }

/-- A declaration leaves a chain unshadowed unless the function has bound the name. -/
lemma unshadowed_tagged (hstacked : Stacked frames (id :: parents)) (hunshadowed : Unshadowed frames (id :: parents))
    (hfirst : ¬Reserved name → parents ≠ [] → (frame frames id).requireGlobal = true →
      (frame frames id).values.contains name = false) :
    Unshadowed (tagged frames id name) (id :: parents) := by
  obtain ⟨hnewer, hlt⟩ := hstacked
  rw [List.pairwise_cons] at hnewer
  have hframe : frame (tagged frames id name) id =
      { frame frames id with globalTags := name :: (frame frames id).globalTags } :=
    frame_set_self _ (hlt id List.mem_cons_self)
  have hparents : ∀ id' ∈ parents, frame (tagged frames id name) id' = frame frames id' := by
    intro id' hid'
    apply frame_set_of_ne
    have hlt' := hnewer.1 id' hid'
    omega
  refine ⟨fun name' hname' hbound => ?_, unshadowed_congr hparents hunshadowed.2⟩
  rw [hframe] at hbound
  have hkept := hunshadowed.1 name' hname' hbound
  have hknown : hasValue (tagged frames id name) parents name' = hasValue frames parents name' :=
    hasValue_congr fun id' hid' => by rw [hparents id' hid']
  unfold passesOn at hkept ⊢
  rw [hframe, hknown]
  dsimp only
  by_cases hrequires : (frame frames id).requireGlobal = true
  · rw [if_pos hrequires] at hkept ⊢
    cases parents with
    | nil => rfl
    | cons parent parents =>
      have hne : name' ≠ name := by
        rintro rfl
        rw [hfirst hname' (List.cons_ne_nil _ _) hrequires] at hbound
        cases hbound
      simpa [hne] using hkept
  · rw [if_neg hrequires] at hkept ⊢
    exact hkept

end Unshadowed

/-! ### What a step keeps -/

section Steps

variable {frames frames' : List Frame} {scope : ScopeRef} {id : Nat} {parents : ScopeRef}

lemma Stacked.push (h : Stacked frames scope) : Stacked (frames ++ [.empty]) (frames.length :: scope) where
  newer := List.pairwise_cons.mpr ⟨h.lt_length, h.newer⟩
  lt_length id hid := by
    rw [List.length_append, List.length_singleton]
    obtain rfl | hmem := List.mem_cons.mp hid
    · exact Nat.lt_succ_self _
    · have hlt := h.lt_length id hmem
      omega

lemma Stacked.pop (h : Stacked frames (id :: parents)) : Stacked (frames.take id) parents where
  newer := (List.pairwise_cons.mp h.newer).2
  lt_length id' hid' := by
    have hnewer := (List.pairwise_cons.mp h.newer).1 id' hid'
    have hlt := h.lt_length id' (List.mem_cons_of_mem _ hid')
    rw [List.length_take]
    omega

lemma Stacked.of_length (h : Stacked frames scope) (hlength : frames'.length = frames.length) :
    Stacked frames' scope where
  newer := h.newer
  lt_length id hid := by
    rw [hlength]
    exact h.lt_length id hid

/-- A stacked chain stays stacked. -/
lemma stacked_apply {c : Chain} (h : Stacked c.state.frames c.scope) (op : ChainOp) :
    Stacked (c.apply op).state.frames (c.apply op).scope := by
  cases op with
  | push requiresGlobal =>
    show Stacked (c.push requiresGlobal).state.frames (c.push requiresGlobal).scope
    unfold Chain.push
    by_cases hdeep : 128 ≤ c.scope.length
    · rw [if_pos hdeep]
      exact h
    rw [if_neg hdeep]
    by_cases hrequires : requiresGlobal = true
    · rw [if_pos hrequires]
      exact h.push.of_length List.length_set
    · rw [if_neg hrequires]
      exact h.push
  | pop =>
    obtain ⟨scope, s⟩ := c
    cases scope with
    | nil => exact h
    | cons id parents => exact h.pop
  | setGlobalTag name =>
    obtain ⟨scope, s⟩ := c
    cases scope with
    | nil => exact h
    | cons id parents => exact h.of_length List.length_set
  | setValue name value => exact h.of_length (length_setValue _ _ _ _)

lemma frame_pushed (c : Chain) : frame c.pushed.state.frames c.state.frames.length = .empty := by
  show frame (c.state.frames ++ [.empty]) c.state.frames.length = .empty
  unfold frame
  rw [List.getD_eq_getElem?_getD, List.getElem?_concat_length]
  rfl

/-- A new scope leaves a chain unshadowed. -/
lemma unshadowed_push {c : Chain} (hstacked : Stacked c.state.frames c.scope)
    (h : Unshadowed c.state.frames c.scope) (requiresGlobal : Bool) :
    Unshadowed (c.push requiresGlobal).state.frames (c.push requiresGlobal).scope := by
  unfold Chain.push
  by_cases hdeep : 128 ≤ c.scope.length
  · rw [if_pos hdeep]
    exact h
  rw [if_neg hdeep]
  by_cases hrequires : requiresGlobal = true
  · rw [if_pos hrequires]
    have hnew : c.state.frames.length < c.pushed.state.frames.length :=
      hstacked.push.lt_length _ List.mem_cons_self
    refine unshadowed_of_empty ?_ (fun id hid => ?_) h
    · show (frame (c.pushed.state.frames.set c.state.frames.length
        { frame c.pushed.state.frames c.state.frames.length with requireGlobal := true }) _).values = .empty
      rw [frame_set_self _ hnew, frame_pushed]
      rfl
    · have hlt := hstacked.lt_length id hid
      show frame (c.pushed.state.frames.set c.state.frames.length
        { frame c.pushed.state.frames c.state.frames.length with requireGlobal := true }) id = _
      rw [frame_set_of_ne _ (by omega)]
      exact frame_append _ hlt
  · rw [if_neg hrequires]
    refine unshadowed_of_empty ?_ (fun id hid => ?_) h
    · rw [frame_pushed]
      rfl
    · exact frame_append _ (hstacked.lt_length id hid)

/-- The condition on one operation. -/
def Declares (c : Chain) (op : ChainOp) : Prop :=
  ∀ name, op = .setGlobalTag name → ¬Reserved name → ¬BoundInFunction c name

lemma unshadowed_apply {c : Chain} (hstacked : Stacked c.state.frames c.scope)
    (h : Unshadowed c.state.frames c.scope) (op : ChainOp) (hop : Declares c op) :
    Unshadowed (c.apply op).state.frames (c.apply op).scope := by
  cases op with
  | push requiresGlobal => exact unshadowed_push hstacked h requiresGlobal
  | pop =>
    obtain ⟨scope, s⟩ := c
    cases scope with
    | nil => exact h
    | cons id parents =>
      have hnewer := (List.pairwise_cons.mp hstacked.newer).1
      exact unshadowed_congr (fun id' hid' => frame_take (hnewer id' hid')) h.2
  | setGlobalTag name =>
    obtain ⟨scope, s⟩ := c
    cases scope with
    | nil => exact h
    | cons id parents =>
      refine unshadowed_tagged hstacked h fun hname hne hrequires => ?_
      have hfirst := hop name rfl hname
      cases parents with
      | nil => exact absurd rfl hne
      | cons parent parents =>
        rw [← Bool.not_eq_true]
        intro hbound
        exact hfirst ⟨hrequires, hbound⟩
  | setValue name value => exact unshadowed_setValue hstacked h name value

end Steps

/-! ### Reading what was written -/

/-- In an unshadowed chain every name is read back. -/
lemma readYourWrites_of_unshadowed {c : Chain} (hstacked : Stacked c.state.frames c.scope)
    (h : Unshadowed c.state.frames c.scope) : ReadYourWrites c := by
  intro hne name hname value
  constructor
  · rw [returned_getValue hname]
    exact findValue_setValue hstacked h hne hname value
  · intro name' hname' inner outer _
    exact getValue_sameResult rfl rfl fun id _ => find?_setValue_of_ne hname' value

/-- A function that declares a name it has bound reads its own binding. -/
lemma not_readYourWrites_of_bound {c : Chain} {name : Str} (hstacked : Stacked c.state.frames c.scope)
    (hname : ¬Reserved name) (h : BoundInFunction c name) : ¬ReadYourWrites (c.apply (.setGlobalTag name)) := by
  obtain ⟨scope, s⟩ := c
  unfold BoundInFunction at h
  match scope, h with
  | id :: parent :: parents, ⟨hrequires, hbound⟩ =>
    obtain ⟨own, hown⟩ := Option.isSome_iff_exists.mp hbound
    have hid : id < s.frames.length := hstacked.lt_length id List.mem_cons_self
    have hnotMem : id ∉ parent :: parents :=
      fun hmem => absurd ((List.pairwise_cons.mp hstacked.newer).1 id hmem) (Nat.lt_irrefl id)
    have hframe : frame (tagged s.frames id name) id =
        { frame s.frames id with globalTags := name :: (frame s.frames id).globalTags } :=
      frame_set_self _ hid
    have hpasses : passesOn (tagged s.frames id name) id (parent :: parents) name = true := by
      unfold passesOn
      rw [hframe]
      dsimp only
      rw [if_pos hrequires]
      simp
    have hread (value : ValuePtr) : Scope.findValue (Scope.setValue (tagged s.frames id name)
        (id :: parent :: parents) name value) (id :: parent :: parents) name = some own := by
      rw [setValue_cons, if_pos hpasses, Scope.findValue, frame_setValue_of_notMem hnotMem, hframe]
      dsimp only
      rw [hown]
    intro hreads
    have hback (value : ValuePtr) : own = value := by
      have hvalue := (hreads (List.cons_ne_nil _ _) name hname value).reads
      rw [returned_getValue hname] at hvalue
      exact Option.some.inj ((hread value).symm.trans hvalue)
    have hnone := hback none
    have hsome := hback (some 0)
    rw [hnone] at hsome
    cases hsome

/-! ### Runs -/

lemma after_concat (c : Chain) (ops : List ChainOp) (op : ChainOp) :
    c.after (ops ++ [op]) = (c.after ops).apply op := by
  unfold Chain.after
  rw [List.foldl_append]
  rfl

lemma stacked_after {c : Chain} (h : Stacked c.state.frames c.scope) (ops : List ChainOp) :
    Stacked (c.after ops).state.frames (c.after ops).scope := by
  induction ops using List.reverseRecOn with
  | nil => exact h
  | append_singleton ops op ih =>
    rw [after_concat]
    exact stacked_apply ih op

/-- A run whose functions declare their names first leaves the chain unshadowed. -/
lemma unshadowed_after {c : Chain} (hstacked : Stacked c.state.frames c.scope)
    (h : Unshadowed c.state.frames c.scope) {ops : List ChainOp} (hops : DeclaredFirst c ops) (pre post : List ChainOp)
    (hpre : ops = pre ++ post) : Unshadowed (c.after pre).state.frames (c.after pre).scope := by
  induction pre using List.reverseRecOn generalizing post with
  | nil => exact h
  | append_singleton pre op ih =>
    rw [List.append_assoc] at hpre
    rw [after_concat]
    refine unshadowed_apply (stacked_after hstacked pre) (ih _ hpre) op ?_
    rintro name rfl
    exact hops pre name post hpre

/-- Along every run the names are read back exactly as long as no function binds a name before it
declares it `global`. -/
theorem read_your_writes_iff (s : State) (ops : List ChainOp) :
    (∀ pre post, ops = pre ++ post → ReadYourWrites (Chain.after ⟨[], s⟩ pre)) ↔ DeclaredFirst ⟨[], s⟩ ops := by
  have hstart : Stacked s.frames [] := ⟨List.Pairwise.nil, nofun⟩
  constructor
  · intro hreads pre name post hops hname hbound
    have hstacked : Stacked (Chain.after ⟨[], s⟩ pre).state.frames (Chain.after ⟨[], s⟩ pre).scope :=
      stacked_after hstart pre
    apply not_readYourWrites_of_bound hstacked hname hbound
    rw [← after_concat]
    apply hreads _ post
    rw [hops, List.append_assoc]
    rfl
  · intro hops pre post hpre
    have hunshadowed : Unshadowed (Chain.after ⟨[], s⟩ pre).state.frames (Chain.after ⟨[], s⟩ pre).scope :=
      unshadowed_after (c := ⟨[], s⟩) hstart trivial hops pre post hpre
    exact readYourWrites_of_unshadowed (stacked_after hstart pre) hunshadowed

/-- A function below the module binds `x`, declares it `global` and assigns to it. -/
def declareLate : List ChainOp :=
  [.push false, .push true, .setValue (lit "x") none, .setGlobalTag (lit "x")]

/-- The function reads its own binding of `x`. -/
theorem read_your_writes_declareLate_false :
    ¬∀ pre post, declareLate = pre ++ post → ReadYourWrites (Chain.after ⟨[], startState [] 0⟩ pre) := by
  intro h
  have hreserved : ¬Reserved (lit "x") := by
    unfold Reserved
    decide
  have hreads := (h declareLate [] rfl (by decide +kernel) (lit "x") hreserved (some 0)).reads
  have hread : returned (getValue (Chain.after ⟨[], startState [] 0⟩ declareLate).scope (lit "x"))
      (finalState (M.setValue (Chain.after ⟨[], startState [] 0⟩ declareLate).scope (lit "x") (some 0))
        (Chain.after ⟨[], startState [] 0⟩ declareLate).state) = some none := by
    decide +kernel
  rw [hread] at hreads
  cases hreads

/-! ### Trees below a function -/

/-- The frames and the scopes that live below a function, the function's own among them. -/
structure ScopeTree where
  frames : List Frame
  scopes : List ScopeRef

/-- What happens next to the scopes below the function in frame `f`: one is made or destroyed, flagged,
assigned to, or declares a name `global`, which the function itself never does. -/
inductive TreeStep (f : Nat) : ScopeTree → ScopeTree → Prop
  | push {t : ScopeTree} {scope : ScopeRef} (hscope : scope ∈ t.scopes) :
      TreeStep f t ⟨t.frames ++ [.empty], (t.frames.length :: scope) :: t.scopes⟩
  | leave {t : ScopeTree} {k : Nat} (hk : f < k) :
      TreeStep f t ⟨t.frames.take k, t.scopes.filter fun scope => scope.all (· < k)⟩
  | requireGlobal {t : ScopeTree} {id : Nat} {parents : ScopeRef} (hscope : id :: parents ∈ t.scopes) :
      TreeStep f t ⟨t.frames.set id { frame t.frames id with requireGlobal := true }, t.scopes⟩
  | setGlobalTag {t : ScopeTree} {id : Nat} {parents : ScopeRef} (hscope : id :: parents ∈ t.scopes) (hne : id ≠ f)
      (name : Str) : TreeStep f t ⟨tagged t.frames id name, t.scopes⟩
  | setValue {t : ScopeTree} {scope : ScopeRef} (hscope : scope ∈ t.scopes) (name : Str) (value : ValuePtr) :
      TreeStep f t ⟨Scope.setValue t.frames scope name value, t.scopes⟩

/-- The function in frame `f` has declared nothing, and the scopes below it are newer than it is. -/
structure Below (f : Nat) (callers : ScopeRef) (t : ScopeTree) : Prop where
  lt_length : f < t.frames.length
  requires : (frame t.frames f).requireGlobal = true
  untagged : (frame t.frames f).globalTags = []
  scopes : ∀ scope ∈ t.scopes, ∃ inner : ScopeRef, scope = inner ++ f :: callers ∧ ∀ id ∈ inner, f < id

section Trees

variable {f : Nat} {callers : ScopeRef} {t t' : ScopeTree}

/-- An assignment below the function ends there. -/
lemma Below.target_le (h : Below f callers t) {scope : ScopeRef} (hscope : scope ∈ t.scopes) {name : Str} {id : Nat}
    (htarget : target t.frames scope name = some id) : f ≤ id := by
  obtain ⟨inner, rfl, hinner⟩ := h.scopes scope hscope
  obtain hmem | hout := target_append htarget
  · exact (hinner id hmem).le
  · have hstops : passesOn t.frames f callers name = false := by
      unfold passesOn
      rw [if_pos h.requires, h.untagged]
      simp
    unfold target at hout
    rw [hstops] at hout
    cases hout
    exact le_refl _

/-- The frames of the callers are what they were, and so are the flags of the function. -/
structure KeepsOuter (f : Nat) (frames frames' : List Frame) : Prop where
  lt_length : f < frames'.length
  flags : (frame frames' f).requireGlobal = true ∧ (frame frames' f).globalTags = (frame frames f).globalTags
  outer : ∀ id < f, frame frames' id = frame frames id

lemma Below.head_le (h : Below f callers t) {id : Nat} {parents : ScopeRef} (hscope : id :: parents ∈ t.scopes) :
    f ≤ id := by
  obtain ⟨inner, heq, hinner⟩ := h.scopes _ hscope
  cases inner with
  | nil =>
    rw [List.nil_append] at heq
    rw [(List.cons.inj heq).1]
  | cons id' inner =>
    rw [List.cons_append] at heq
    rw [(List.cons.inj heq).1]
    exact (hinner id' List.mem_cons_self).le

/-- A change of a frame that is not outside the function. -/
lemma keepsOuter_set (hlt : f < t.frames.length) {id : Nat} (hid : f ≤ id) {fr : Frame}
    (hflags : (frame (t.frames.set id fr) f).requireGlobal = true ∧
      (frame (t.frames.set id fr) f).globalTags = (frame t.frames f).globalTags) :
    KeepsOuter f t.frames (t.frames.set id fr) where
  lt_length := by
    rw [List.length_set]
    exact hlt
  flags := hflags
  outer id' hid' := frame_set_of_ne _ (by omega)

/-- No step changes the frames outside the function. -/
lemma Below.keeps (h : Below f callers t) (hstep : TreeStep f t t') : KeepsOuter f t.frames t'.frames := by
  have hlt := h.lt_length
  cases hstep with
  | push hscope =>
    refine ⟨?_, ?_, fun id hid => frame_append _ (hid.trans hlt)⟩
    · rw [List.length_append]
      omega
    · rw [frame_append _ hlt]
      exact ⟨h.requires, rfl⟩
  | leave hk =>
    refine ⟨?_, ?_, fun id hid => frame_take (hid.trans hk)⟩
    · rw [List.length_take]
      omega
    · rw [frame_take hk]
      exact ⟨h.requires, rfl⟩
  | @requireGlobal id parents hscope =>
    apply keepsOuter_set hlt (h.head_le hscope)
    by_cases heq : id = f
    · subst heq
      rw [frame_set_self _ hlt]
      exact ⟨rfl, rfl⟩
    · rw [frame_set_of_ne _ heq]
      exact ⟨h.requires, rfl⟩
  | setGlobalTag hscope hne name =>
    apply keepsOuter_set hlt (h.head_le hscope)
    rw [frame_set_of_ne _ hne]
    exact ⟨h.requires, rfl⟩
  | @setValue scope hscope name value =>
    have hne : scope ≠ [] := by
      obtain ⟨inner, rfl, -⟩ := h.scopes scope hscope
      simp
    obtain ⟨id, -, htarget, hset⟩ := exists_setValue_eq t.frames name hne
    show KeepsOuter f t.frames (Scope.setValue t.frames scope name value)
    rw [hset]
    have hflags := frame_bindIn_flags t.frames id f name value
    exact keepsOuter_set hlt (h.target_le hscope htarget) ⟨hflags.1.trans h.requires, hflags.2⟩

/-- The tree stays below the function. -/
lemma Below.step (h : Below f callers t) (hstep : TreeStep f t t') : Below f callers t' := by
  have hkeeps := h.keeps hstep
  have hscopes : ∀ scope ∈ t'.scopes, ∃ inner : ScopeRef, scope = inner ++ f :: callers ∧ ∀ id ∈ inner, f < id := by
    cases hstep with
    | @push scope hscope =>
      intro scope' hscope'
      obtain rfl | hmem := List.mem_cons.mp hscope'
      · obtain ⟨inner, rfl, hinner⟩ := h.scopes scope hscope
        exact ⟨t.frames.length :: inner, rfl, List.forall_mem_cons.mpr ⟨h.lt_length, hinner⟩⟩
      · exact h.scopes scope' hmem
    | leave hk => exact fun scope hscope => h.scopes scope (List.mem_of_mem_filter hscope)
    | requireGlobal hscope => exact h.scopes
    | setGlobalTag hscope hne name => exact h.scopes
    | setValue hscope name value => exact h.scopes
  exact ⟨hkeeps.lt_length, hkeeps.flags.1, hkeeps.flags.2.trans h.untagged, hscopes⟩

lemma Below.run (h : Below f callers t) (hrun : Relation.ReflTransGen (TreeStep f) t t') :
    Below f callers t' ∧ ∀ id < f, frame t'.frames id = frame t.frames id := by
  induction hrun with
  | refl => exact ⟨h, fun _ _ => rfl⟩
  | tail _ hstep ih =>
    obtain ⟨hbelow, houter⟩ := ih
    exact ⟨hbelow.step hstep, fun id hid => ((hbelow.keeps hstep).outer id hid).trans (houter id hid)⟩

/-- Whatever is made, declared and assigned below a function that declares nothing itself, the bindings
of its callers stay. -/
theorem callers_unbound {frames : List Frame} {f : Nat} {callers : ScopeRef} {t : ScopeTree}
    (hf : f < frames.length) (hcallers : ∀ id ∈ callers, id < f) (hrequires : (frame frames f).requireGlobal = true)
    (huntagged : (frame frames f).globalTags = [])
    (hrun : Relation.ReflTransGen (TreeStep f) ⟨frames, [f :: callers]⟩ t) :
    ∀ id ∈ callers, (frame t.frames id).values = (frame frames id).values := by
  have hbelow : Below f callers ⟨frames, [f :: callers]⟩ := by
    refine ⟨hf, hrequires, huntagged, fun scope hscope => ?_⟩
    rw [List.mem_singleton] at hscope
    exact ⟨[], hscope, fun _ hid => absurd hid List.not_mem_nil⟩
  intro id hid
  rw [(hbelow.run hrun).2 id (hcallers id hid)]

/-- The frames of the module, which has bound `x`, and of a function. -/
def functionFrames : List Frame :=
  [{ Frame.empty with values := SortedMap.empty.insert (lit "x") (some 0) }, { Frame.empty with requireGlobal := true }]

/-- With the frame of a function it calls. -/
def nestedFrames : List Frame := (functionFrames ++ [Frame.empty]).set 2 { Frame.empty with requireGlobal := true }

/-- The function called below declares `x` and assigns to it; the module keeps its own `x`. -/
theorem callers_unbound_nested :
    (frame (Scope.setValue (tagged nestedFrames 2 (lit "x")) [2, 1, 0] (lit "x") none) 0).values =
      (frame functionFrames 0).values := by
  have hpush : TreeStep 1 ⟨functionFrames, [[1, 0]]⟩ ⟨functionFrames ++ [Frame.empty], [[2, 1, 0], [1, 0]]⟩ :=
    .push List.mem_cons_self
  have hflag : TreeStep 1 ⟨functionFrames ++ [Frame.empty], [[2, 1, 0], [1, 0]]⟩
      ⟨nestedFrames, [[2, 1, 0], [1, 0]]⟩ := .requireGlobal List.mem_cons_self
  have htag : TreeStep 1 ⟨nestedFrames, [[2, 1, 0], [1, 0]]⟩
      ⟨tagged nestedFrames 2 (lit "x"), [[2, 1, 0], [1, 0]]⟩ :=
    .setGlobalTag List.mem_cons_self (by decide) (lit "x")
  have hset : TreeStep 1 ⟨tagged nestedFrames 2 (lit "x"), [[2, 1, 0], [1, 0]]⟩
      ⟨Scope.setValue (tagged nestedFrames 2 (lit "x")) [2, 1, 0] (lit "x") none, [[2, 1, 0], [1, 0]]⟩ :=
    .setValue List.mem_cons_self (lit "x") none
  have hrun := (((Relation.ReflTransGen.single hpush).tail hflag).tail htag).tail hset
  exact callers_unbound (by decide) (by decide) rfl rfl hrun 0 List.mem_cons_self

end Trees

end ContractPython.Proofs
