import ContractPython.Model.Scope

/-!
# Assignments along a scope

An assignment changes one binding in one frame, its target. A frame with the `global` flag hands
the assignment on when the name is tagged, a frame without it when a parent knows the name.
-/

namespace ContractPython.Proofs

open Scope

/-! ### Frames -/

lemma frame_set (frames : List Frame) (id id' : Nat) (f : Frame) :
    frame (frames.set id f) id' = if id = id' ∧ id < frames.length then f else frame frames id' := by
  unfold frame
  rw [List.getD_eq_getElem?_getD, List.getD_eq_getElem?_getD, List.getElem?_set]
  by_cases hid : id = id'
  · subst hid
    by_cases hlt : id < frames.length
    · simp [hlt]
    · simp [hlt]
  · simp [hid]

lemma frame_set_of_ne {frames : List Frame} {id id' : Nat} (f : Frame) (hne : id ≠ id') :
    frame (frames.set id f) id' = frame frames id' := by
  rw [frame_set, if_neg fun h => hne h.1]

lemma frame_set_self {frames : List Frame} {id : Nat} (f : Frame) (hid : id < frames.length) :
    frame (frames.set id f) id = f := by
  rw [frame_set, if_pos ⟨rfl, hid⟩]

lemma frame_append {frames : List Frame} {id : Nat} (fs : List Frame) (hid : id < frames.length) :
    frame (frames ++ fs) id = frame frames id := by
  unfold frame
  rw [List.getD_eq_getElem?_getD, List.getD_eq_getElem?_getD, List.getElem?_append_left hid]

lemma frame_take {frames : List Frame} {id k : Nat} (hid : id < k) :
    frame (frames.take k) id = frame frames id := by
  unfold frame
  rw [List.getD_eq_getElem?_getD, List.getD_eq_getElem?_getD, List.getElem?_take_of_lt hid]

/-! ### Binding a name -/

/-- The frames after `name` is bound in one of them. -/
def bindIn (frames : List Frame) (id : Nat) (name : Str) (value : ValuePtr) : List Frame :=
  frames.set id { frame frames id with values := (frame frames id).values.insert name value }

@[simp] lemma length_bindIn (frames : List Frame) (id : Nat) (name : Str) (value : ValuePtr) :
    (bindIn frames id name value).length = frames.length := List.length_set

lemma frame_bindIn_of_ne {frames : List Frame} {id id' : Nat} (name : Str) (value : ValuePtr)
    (hne : id ≠ id') : frame (bindIn frames id name value) id' = frame frames id' :=
  frame_set_of_ne _ hne

lemma frame_bindIn_self {frames : List Frame} {id : Nat} (name : Str) (value : ValuePtr)
    (hid : id < frames.length) : frame (bindIn frames id name value) id =
      { frame frames id with values := (frame frames id).values.insert name value } :=
  frame_set_self _ hid

/-- Binding a name leaves the tags and the flags of all frames alone. -/
lemma frame_bindIn_flags (frames : List Frame) (id id' : Nat) (name : Str) (value : ValuePtr) :
    (frame (bindIn frames id name value) id').requireGlobal = (frame frames id').requireGlobal ∧
      (frame (bindIn frames id name value) id').globalTags = (frame frames id').globalTags := by
  unfold bindIn
  rw [frame_set]
  split
  · rename_i h
    rw [← h.1]
    exact ⟨rfl, rfl⟩
  · exact ⟨rfl, rfl⟩

lemma find?_bindIn (frames : List Frame) (id id' : Nat) (name name' : Str) (value : ValuePtr)
    (hne : id ≠ id' ∨ name' ≠ name) : (frame (bindIn frames id name value) id').values.find? name' =
      (frame frames id').values.find? name' := by
  by_cases hid : id = id' ∧ id < frames.length
  · obtain ⟨rfl, hlt⟩ := hid
    have hname : name' ≠ name := hne.resolve_left fun h => h rfl
    rw [frame_bindIn_self _ _ hlt]
    exact SortedMap.find?_insert_of_ne _ _ _ _ hname
  · unfold bindIn
    rw [frame_set, if_neg hid]

/-- A binding is never removed. -/
lemma contains_bindIn {frames : List Frame} {id id' : Nat} {name name' : Str} {value : ValuePtr}
    (h : (frame frames id').values.contains name' = true) :
    (frame (bindIn frames id name value) id').values.contains name' = true := by
  by_cases hid : id = id' ∧ id < frames.length ∧ name' = name
  · obtain ⟨rfl, hlt, rfl⟩ := hid
    rw [frame_bindIn_self _ _ hlt]
    simp [SortedMap.contains]
  · unfold SortedMap.contains at h ⊢
    by_cases hlt : id < frames.length
    · rw [find?_bindIn _ _ _ _ _ _ (by tauto)]
      exact h
    · unfold bindIn
      rw [frame_set, if_neg fun hand => hlt hand.2]
      exact h

/-! ### Questions and lookups -/

lemma hasValue_iff {frames : List Frame} {scope : ScopeRef} {name : Str} :
    hasValue frames scope name = true ↔
      ∃ id ∈ scope, (frame frames id).values.contains name = true := by
  induction scope with
  | nil => simp [hasValue]
  | cons id parents ih =>
    simp only [hasValue, Bool.or_eq_true, ih, List.mem_cons]
    constructor
    · rintro (⟨p, hp, h⟩ | h)
      · exact ⟨p, .inr hp, h⟩
      · exact ⟨id, .inl rfl, h⟩
    · rintro ⟨p, rfl | hp, h⟩
      · exact .inr h
      · exact .inl ⟨p, hp, h⟩

/-- A lookup is answered by the innermost frame that binds the name. -/
lemma findValue_append {frames : List Frame} {inner outer : ScopeRef} {name : Str}
    (h : ∀ id ∈ inner, (frame frames id).values.find? name = none) :
    findValue frames (inner ++ outer) name = findValue frames outer name := by
  induction inner with
  | nil => rfl
  | cons id inner ih =>
    rw [List.cons_append, findValue, h id List.mem_cons_self]
    exact ih fun id' hid' => h id' (List.mem_cons_of_mem _ hid')

/-! ### Targets -/

/-- A frame hands an assignment on to its parents. -/
def passesOn (frames : List Frame) (id : Nat) (parents : ScopeRef) (name : Str) : Bool :=
  !parents.isEmpty && if (frame frames id).requireGlobal then
    (frame frames id).globalTags.contains name else hasValue frames parents name

/-- The frame that takes the binding of an assignment. -/
def target (frames : List Frame) : ScopeRef → Str → Option Nat
  | [], _ => none
  | id :: parents, name => if passesOn frames id parents name then target frames parents name else some id

lemma setValue_cons (frames : List Frame) (id : Nat) (parents : ScopeRef) (name : Str)
    (value : ValuePtr) : setValue frames (id :: parents) name value =
      if passesOn frames id parents name then setValue frames parents name value
      else bindIn frames id name value := by
  by_cases hrequire : (frame frames id).requireGlobal = true
  · simp only [setValue, passesOn, hrequire]
    cases parents.isEmpty <;> simp [bindIn, hrequire]
  · rw [Bool.not_eq_true] at hrequire
    simp only [setValue, passesOn, hrequire]
    cases parents.isEmpty <;> simp [bindIn, hrequire]

/-- An assignment binds the name in its target. -/
lemma setValue_eq_bindIn {frames : List Frame} {scope : ScopeRef} {name : Str} {id : Nat}
    (h : target frames scope name = some id) (value : ValuePtr) :
    setValue frames scope name value = bindIn frames id name value := by
  induction scope with
  | nil => cases h
  | cons id' parents ih =>
    rw [setValue_cons]
    unfold target at h
    split
    · rename_i hpass
      rw [if_pos hpass] at h
      exact ih h
    · rename_i hpass
      rw [if_neg hpass] at h
      cases h
      rfl

lemma mem_of_target {frames : List Frame} {scope : ScopeRef} {name : Str} {id : Nat}
    (h : target frames scope name = some id) : id ∈ scope := by
  induction scope with
  | nil => cases h
  | cons id' parents ih =>
    unfold target at h
    split at h
    · exact List.mem_cons_of_mem _ (ih h)
    · cases h
      exact List.mem_cons_self

lemma exists_target (frames : List Frame) {scope : ScopeRef} (name : Str) (hne : scope ≠ []) :
    ∃ id, target frames scope name = some id := by
  induction scope with
  | nil => exact absurd rfl hne
  | cons id parents ih =>
    unfold target
    split
    · rename_i hpass
      have hparents : parents ≠ [] := by
        rintro rfl
        simp [passesOn] at hpass
      exact ih hparents
    · exact ⟨id, rfl⟩

/-- An assignment binds its name in some frame of the scope. -/
lemma exists_setValue_eq (frames : List Frame) {scope : ScopeRef} (name : Str) (hne : scope ≠ []) :
    ∃ id ∈ scope, target frames scope name = some id ∧
      ∀ value, setValue frames scope name value = bindIn frames id name value := by
  obtain ⟨id, hid⟩ := exists_target frames name hne
  exact ⟨id, mem_of_target hid, hid, setValue_eq_bindIn hid⟩

/-- An assignment from an inner scope ends inside or goes on from the outer one. -/
lemma target_append {frames : List Frame} {inner outer : ScopeRef} {name : Str} {id : Nat}
    (h : target frames (inner ++ outer) name = some id) :
    id ∈ inner ∨ target frames outer name = some id := by
  induction inner with
  | nil => exact .inr h
  | cons id' inner ih =>
    rw [List.cons_append] at h
    unfold target at h
    split at h
    · exact (ih h).imp_left (List.mem_cons_of_mem _)
    · cases h
      exact .inl List.mem_cons_self

@[simp] lemma length_setValue (frames : List Frame) (scope : ScopeRef) (name : Str)
    (value : ValuePtr) : (setValue frames scope name value).length = frames.length := by
  by_cases hne : scope = []
  · rw [hne]
    rfl
  · obtain ⟨id, -, -, hset⟩ := exists_setValue_eq frames name hne
    rw [hset, length_bindIn]

/-! ### What the log says -/

/-- The question a frame without the `global` flag asks its parents. -/
def asked (frames : List Frame) (id : Nat) (parents : ScopeRef) (name : Str) : List Event :=
  if !(frame frames id).requireGlobal && !parents.isEmpty then
    [.nameTested (binders frames parents name)] else []

lemma setEvents_cons (frames : List Frame) (id : Nat) (parents : ScopeRef) (name : Str) :
    setEvents frames (id :: parents) name =
      (if passesOn frames id parents name then setEvents frames parents name else [.nameBound id]) ++
        asked frames id parents name := by
  by_cases hrequire : (frame frames id).requireGlobal = true
  · simp only [setEvents, passesOn, asked, hrequire]
    cases parents.isEmpty <;> simp
  · rw [Bool.not_eq_true] at hrequire
    simp only [setEvents, passesOn, asked, hrequire]
    cases parents.isEmpty <;> simp
    split <;> simp

/-- The target of an assignment is in the log. -/
lemma nameBound_mem_setEvents {frames : List Frame} {scope : ScopeRef} {name : Str} {id : Nat}
    (h : target frames scope name = some id) : .nameBound id ∈ setEvents frames scope name := by
  induction scope with
  | nil => cases h
  | cons id' parents ih =>
    rw [setEvents_cons]
    unfold target at h
    apply List.mem_append_left
    split
    · rename_i hpass
      rw [if_pos hpass] at h
      exact ih h
    · rename_i hpass
      rw [if_neg hpass] at h
      cases h
      exact List.mem_cons_self

lemma binders_cons_of_unbound {frames : List Frame} {id : Nat} {parents : ScopeRef} {name : Str}
    (h : (frame frames id).values.contains name = false) :
    binders frames (id :: parents) name = binders frames parents name := by
  simp [binders, h]

lemma mem_binders {frames : List Frame} {scope : ScopeRef} {name : Str} {id : Nat} :
    id ∈ binders frames scope name ↔
      id ∈ scope ∧ (frame frames id).values.contains name = true := by
  simp [binders]

end ContractPython.Proofs
