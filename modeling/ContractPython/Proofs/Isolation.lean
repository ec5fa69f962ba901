import ContractPython.Proofs.Effects
import ContractPython.Proofs.Scopes

/-!
# Calls from two sites

The body of a function stands on top of the scopes of its callers, so that a name that neither the
function nor the calls it makes bind is looked up in the local variables of the callers before the
module is asked. Two calls of one function that never find, test or bind a name there do the same.
-/

namespace ContractPython.Proofs

open Program M

/-! ### Two call sites -/

/-- Where a call is made: over `frames` frames, among them those of the calling functions and of
their loops, the innermost first, and that of the module. -/
structure Site where
  frames : Nat
  locals : ScopeRef
  module : Nat
  locals_lt : ∀ id ∈ locals, id < frames
  module_lt : module < frames
  module_notMem : module ∉ locals

/-- The scope a call is made from. -/
def Site.scope (a : Site) : ScopeRef := a.locals ++ [a.module]

/-- An event that tells something about the local variables of the callers. -/
def Site.isLocal (a : Site) : Event → Bool
  | .nameFound (some id) => a.locals.contains id
  | .nameTested binders => !binders.isEmpty && binders.all a.locals.contains
  | .nameBound id => a.locals.contains id
  | _ => false

/-- `x` finds, tests or binds a name in the local variables of the callers. -/
def Strays {α : Type} (a : Site) (x : M α) (s : State) : Prop :=
  s.log.countP a.isLocal < (finalState x s).log.countP a.isLocal

instance {α : Type} (a : Site) (x : M α) (s : State) : Decidable (Strays a x s) :=
  inferInstanceAs (Decidable (_ < _))

/-- The scopes of the two runs: the same frames of their own, on top of the callers or not. -/
inductive SameScope (a b : Site) : ScopeRef → ScopeRef → Prop
  | site : SameScope a b a.scope b.scope
  | none : SameScope a b [] []
  | own {sc sc' : ScopeRef} (k : Nat) (h : SameScope a b sc sc') :
    SameScope a b ((a.frames + k) :: sc) ((b.frames + k) :: sc')

/-- The scopes that begin with a frame of their own. -/
inductive OwnScope (a b : Site) : ScopeRef → ScopeRef → Prop
  | own {sc sc' : ScopeRef} (k : Nat) (h : SameScope a b sc sc') :
    OwnScope a b ((a.frames + k) :: sc) ((b.frames + k) :: sc')

/-- The frames of the two runs: their own ones are the same, and so is that of the module. -/
structure SameFrames (a b : Site) (frames frames' : List Frame) : Prop where
  le : a.frames ≤ frames.length
  le' : b.frames ≤ frames'.length
  own : frames.drop a.frames = frames'.drop b.frames
  module : Scope.frame frames a.module = Scope.frame frames' b.module

variable {a b : Site}

lemma OwnScope.same {sc sc' : ScopeRef} (h : OwnScope a b sc sc') : SameScope a b sc sc' := by
  cases h with
  | own k h => exact h.own k

lemma SameScope.length_eq {sc sc' : ScopeRef} (h : SameScope a b sc sc')
    (hdepth : a.locals.length = b.locals.length) : sc.length = sc'.length := by
  induction h with
  | site => simp [Site.scope, hdepth]
  | none => rfl
  | own k _ ih => simp [ih]

namespace SameFrames

variable {frames frames' : List Frame} (h : SameFrames a b frames frames')
include h

lemma frame_own (k : Nat) :
    Scope.frame frames (a.frames + k) = Scope.frame frames' (b.frames + k) := by
  have hget : (frames.drop a.frames)[k]? = (frames'.drop b.frames)[k]? := by rw [h.own]
  rw [List.getElem?_drop, List.getElem?_drop] at hget
  unfold Scope.frame
  rw [List.getD_eq_getElem?_getD, List.getD_eq_getElem?_getD, hget]

/-- A change of a frame of their own. -/
lemma set_own (k : Nat) (f : Frame) :
    SameFrames a b (frames.set (a.frames + k) f) (frames'.set (b.frames + k) f) where
  le := by rw [List.length_set]; exact h.le
  le' := by rw [List.length_set]; exact h.le'
  own := by
    rw [List.drop_set, List.drop_set, if_neg (by omega), if_neg (by omega), h.own,
      Nat.add_sub_cancel_left, Nat.add_sub_cancel_left]
  module := by
    have hlt := a.module_lt
    have hlt' := b.module_lt
    rw [frame_set_of_ne _ (by omega), frame_set_of_ne _ (by omega), h.module]

/-- A change of the frame of the module. -/
lemma set_module (f : Frame) :
    SameFrames a b (frames.set a.module f) (frames'.set b.module f) where
  le := by rw [List.length_set]; exact h.le
  le' := by rw [List.length_set]; exact h.le'
  own := by
    rw [List.drop_set_of_lt a.module_lt, List.drop_set_of_lt b.module_lt]
    exact h.own
  module := by
    rw [frame_set_self _ (a.module_lt.trans_le h.le), frame_set_self _ (b.module_lt.trans_le h.le')]

lemma bindIn_own (k : Nat) (name : Str) (value : ValuePtr) : SameFrames a b
    (bindIn frames (a.frames + k) name value) (bindIn frames' (b.frames + k) name value) := by
  unfold bindIn
  rw [← h.frame_own k]
  exact h.set_own k _

lemma bindIn_module (name : Str) (value : ValuePtr) : SameFrames a b
    (bindIn frames a.module name value) (bindIn frames' b.module name value) := by
  unfold bindIn
  rw [← h.module]
  exact h.set_module _

lemma push (f : Frame) : SameFrames a b (frames ++ [f]) (frames' ++ [f]) where
  le := by
    have hle := h.le
    rw [List.length_append]
    omega
  le' := by
    have hle := h.le'
    rw [List.length_append]
    omega
  own := by rw [List.drop_append_of_le_length h.le, List.drop_append_of_le_length h.le', h.own]
  module := by
    rw [frame_append _ (a.module_lt.trans_le h.le), frame_append _ (b.module_lt.trans_le h.le'), h.module]

/-- The number of frames of their own. -/
lemma length_own : frames.length - a.frames = frames'.length - b.frames := by
  rw [← List.length_drop, ← List.length_drop, h.own]

lemma pop (k : Nat) : SameFrames a b (frames.take (a.frames + k)) (frames'.take (b.frames + k)) where
  le := by
    have hle := h.le
    rw [List.length_take]
    omega
  le' := by
    have hle := h.le'
    rw [List.length_take]
    omega
  own := by
    rw [List.drop_take, List.drop_take, h.own, Nat.add_sub_cancel_left, Nat.add_sub_cancel_left]
  module := by
    have hlt := a.module_lt
    have hlt' := b.module_lt
    rw [frame_take (by omega), frame_take (by omega), h.module]

/-! ### Lookups -/

omit h in
lemma mem_site {id : Nat} : id ∈ a.scope ↔ id ∈ a.locals ∨ id = a.module := by
  simp [Site.scope]

omit h in
/-- Where a local variable is found, the log says so. -/
lemma site_findValue (a : Site) (frames : List Frame) (name : Str) :
    a.isLocal (.nameFound (Scope.binders frames a.scope name).head?) = true ∨
      Scope.findValue frames a.scope name = (Scope.frame frames a.module).values.find? name := by
  by_cases hlocal : ∃ id ∈ a.locals, (Scope.frame frames id).values.contains name = true
  · left
    obtain ⟨id, hid, hbound⟩ := hlocal
    have hmem : id ∈ Scope.binders frames a.locals name := mem_binders.mpr ⟨hid, hbound⟩
    have happ : Scope.binders frames a.scope name =
        Scope.binders frames a.locals name ++ Scope.binders frames [a.module] name :=
      List.filter_append _ _
    cases hl : Scope.binders frames a.locals name with
    | nil => simp [hl] at hmem
    | cons id' rest =>
      have hid' : id' ∈ a.locals := by
        have hfirst : id' ∈ Scope.binders frames a.locals name := by simp [hl]
        exact (mem_binders.mp hfirst).1
      simpa [happ, hl, Site.isLocal] using hid'
  · right
    have hnone : ∀ id ∈ a.locals, (Scope.frame frames id).values.find? name = none := by
      intro id hid
      by_contra hsome
      exact hlocal ⟨id, hid, Option.isSome_iff_ne_none.mpr hsome⟩
    unfold Site.scope
    rw [findValue_append hnone]
    simp only [Scope.findValue]
    split <;> simp_all

lemma findValue {sc sc' : ScopeRef} (hs : SameScope a b sc sc') (name : Str) :
    a.isLocal (.nameFound (Scope.binders frames sc name).head?) = true ∨
      b.isLocal (.nameFound (Scope.binders frames' sc' name).head?) = true ∨
      Scope.findValue frames sc name = Scope.findValue frames' sc' name := by
  induction hs with
  | site =>
    obtain hlocal | ha := site_findValue a frames name
    · exact .inl hlocal
    obtain hlocal | hb := site_findValue b frames' name
    · exact .inr (.inl hlocal)
    · rw [ha, hb, h.module]
      exact .inr (.inr rfl)
  | none => exact .inr (.inr rfl)
  | own k hs ih =>
    have hframe := h.frame_own k
    cases hfind : (Scope.frame frames (a.frames + k)).values.find? name with
    | some value =>
      right; right
      simp only [Scope.findValue, ← hframe, hfind]
    | none =>
      have hunbound : (Scope.frame frames (a.frames + k)).values.contains name = false := by
        simp [SortedMap.contains, hfind]
      rw [binders_cons_of_unbound hunbound, binders_cons_of_unbound (hframe ▸ hunbound)]
      simp only [Scope.findValue, ← hframe, hfind]
      exact ih

omit h in
/-- Where local variables alone answer a question, the log says so. -/
lemma site_hasValue (a : Site) (frames : List Frame) (name : Str) :
    a.isLocal (.nameTested (Scope.binders frames a.scope name)) = true ∨
      Scope.hasValue frames a.scope name = (Scope.frame frames a.module).values.contains name := by
  by_cases hmodule : (Scope.frame frames a.module).values.contains name = true
  · right
    rw [hmodule]
    exact hasValue_iff.mpr ⟨a.module, mem_site.mpr (.inr rfl), hmodule⟩
  · have hlocals : ∀ id ∈ Scope.binders frames a.scope name, id ∈ a.locals := by
      intro id hid
      obtain ⟨hscope, hbound⟩ := mem_binders.mp hid
      obtain hlocal | rfl := mem_site.mp hscope
      · exact hlocal
      · exact absurd hbound hmodule
    by_cases hnone : Scope.hasValue frames a.scope name = true
    · left
      obtain ⟨id, hscope, hbound⟩ := hasValue_iff.mp hnone
      have hmem : id ∈ Scope.binders frames a.scope name := mem_binders.mpr ⟨hscope, hbound⟩
      have hne : (Scope.binders frames a.scope name).isEmpty = false := by
        cases hb : Scope.binders frames a.scope name with
        | nil => simp [hb] at hmem
        | cons _ _ => rfl
      have hall : (Scope.binders frames a.scope name).all a.locals.contains = true :=
        List.all_eq_true.mpr fun id hid => List.contains_iff_mem.mpr (hlocals id hid)
      simp [Site.isLocal, hne, hall]
    · right
      rw [Bool.not_eq_true] at hmodule hnone
      rw [hmodule, hnone]

lemma hasValue {sc sc' : ScopeRef} (hs : SameScope a b sc sc') (name : Str) :
    a.isLocal (.nameTested (Scope.binders frames sc name)) = true ∨
      b.isLocal (.nameTested (Scope.binders frames' sc' name)) = true ∨
      Scope.hasValue frames sc name = Scope.hasValue frames' sc' name := by
  induction hs with
  | site =>
    obtain hlocal | ha := site_hasValue a frames name
    · exact .inl hlocal
    obtain hlocal | hb := site_hasValue b frames' name
    · exact .inr (.inl hlocal)
    · rw [ha, hb, h.module]
      exact .inr (.inr rfl)
  | none => exact .inr (.inr rfl)
  | own k hs ih =>
    have hframe := h.frame_own k
    cases hbound : (Scope.frame frames (a.frames + k)).values.contains name with
    | true =>
      right; right
      simp only [Scope.hasValue, ← hframe, hbound, Bool.or_true]
    | false =>
      rw [binders_cons_of_unbound hbound, binders_cons_of_unbound (hframe ▸ hbound)]
      simp only [Scope.hasValue, ← hframe, hbound, Bool.or_false]
      exact ih

/-! ### Assignments -/

/-- What tells that an assignment passes on is the same, or the log tells about local variables. -/
lemma passesOn {sc sc' : ScopeRef} (hs : SameScope a b sc sc')
    (hdepth : a.locals.length = b.locals.length) (k : Nat) (name : Str) :
    (∃ e ∈ asked frames (a.frames + k) sc name, a.isLocal e = true) ∨
      (∃ e ∈ asked frames' (b.frames + k) sc' name, b.isLocal e = true) ∨
      Proofs.passesOn frames (a.frames + k) sc name =
        Proofs.passesOn frames' (b.frames + k) sc' name := by
  have hframe := h.frame_own k
  have hempty : sc.isEmpty = sc'.isEmpty := by
    have hlength := hs.length_eq hdepth
    cases sc <;> cases sc' <;> simp_all
  unfold asked Proofs.passesOn
  rw [← hframe, ← hempty]
  cases hnil : sc.isEmpty with
  | true => exact .inr (.inr rfl)
  | false =>
    cases hrequire : (Scope.frame frames (a.frames + k)).requireGlobal with
    | true => exact .inr (.inr rfl)
    | false =>
      obtain hlocal | hlocal | heq := h.hasValue hs name
      · exact .inl ⟨_, by simp, hlocal⟩
      · exact .inr (.inl ⟨_, by simp, hlocal⟩)
      · right; right
        simp [heq]

omit h in
/-- An assignment at a call site binds a local variable, and the log says so, or binds the name in
the module. -/
lemma site_setValue (a : Site) (frames : List Frame) (name : Str) :
    (∃ e ∈ Scope.setEvents frames a.scope name, a.isLocal e = true) ∨
      ∀ value, Scope.setValue frames a.scope name value = bindIn frames a.module name value := by
  have hne : a.scope ≠ [] := by simp [Site.scope]
  obtain ⟨id, hid, htarget, hset⟩ := exists_setValue_eq frames name hne
  obtain hlocal | rfl := mem_site.mp hid
  · exact .inl ⟨_, nameBound_mem_setEvents htarget, by simpa [Site.isLocal] using hlocal⟩
  · exact .inr hset

lemma setValue {sc sc' : ScopeRef} (hs : SameScope a b sc sc')
    (hdepth : a.locals.length = b.locals.length) (name : Str) :
    (∃ e ∈ Scope.setEvents frames sc name, a.isLocal e = true) ∨
      (∃ e ∈ Scope.setEvents frames' sc' name, b.isLocal e = true) ∨
      ∀ value, SameFrames a b (Scope.setValue frames sc name value)
        (Scope.setValue frames' sc' name value) := by
  induction hs with
  | site =>
    obtain hlocal | ha := site_setValue a frames name
    · exact .inl hlocal
    obtain hlocal | hb := site_setValue b frames' name
    · exact .inr (.inl hlocal)
    · refine .inr (.inr fun value => ?_)
      rw [ha, hb]
      exact h.bindIn_module name value
  | none => exact .inr (.inr fun _ => h)
  | own k hs ih =>
    rw [setEvents_cons, setEvents_cons]
    obtain ⟨e, he, hlocal⟩ | ⟨e, he, hlocal⟩ | hpass := h.passesOn hs hdepth k name
    · exact .inl ⟨e, List.mem_append_right _ he, hlocal⟩
    · exact .inr (.inl ⟨e, List.mem_append_right _ he, hlocal⟩)
    · simp only [setValue_cons, ← hpass]
      split
      · obtain ⟨e, he, hlocal⟩ | ⟨e, he, hlocal⟩ | hsame := ih
        · exact .inl ⟨e, List.mem_append_left _ he, hlocal⟩
        · exact .inr (.inl ⟨e, List.mem_append_left _ he, hlocal⟩)
        · exact .inr (.inr hsame)
      · exact .inr (.inr fun value => h.bindIn_own k name value)

end SameFrames

/-! ### One run above a call site -/

/-- The frames of the call site are in place, and the interpreter's own scope satisfies `I`. -/
structure Standing (a : Site) (I : ScopeRef → Prop) (s : State) : Prop where
  le : a.frames ≤ s.frames.length
  scope : I s.interp.globalScope

/-- `x` stays above the call site, and events only come in. -/
abbrev Stays (a : Site) (I : ScopeRef → Prop) (α : Type) (x : M α) : Prop :=
  Relates (fun _ s s' => Standing a I s →
    Standing a I s' ∧ s.log.countP a.isLocal ≤ s'.log.countP a.isLocal) α x

variable {I I' : ScopeRef → Prop}

lemma stays_compositional : Compositional (Stays a I) :=
  Relates.compositional (fun _ _ hs => ⟨hs, le_refl _⟩) fun h h' hs => by
    obtain ⟨hs₂, hle⟩ := h hs
    obtain ⟨hs₃, hle'⟩ := h' hs₂
    exact ⟨hs₃, hle.trans hle'⟩

/-- The part of the state that says where a run stands. -/
def place (s : State) : Nat × ScopeRef := (s.frames.length, s.interp.globalScope)

lemma Standing.of_place {s s' : State} (h : Standing a I s) (hs : place s' = place s) :
    Standing a I s' := by
  unfold place at hs
  rw [Prod.mk.injEq] at hs
  exact ⟨hs.1 ▸ h.le, hs.2 ▸ h.scope⟩

lemma stays_of_finalState {α : Type} {x : M α} (heffects : HasEffects α x)
    (hx : ∀ s, place (finalState x s) = place s) : Stays a I α x := by
  intro s
  have hs := hx s
  have hle := heffects s
  unfold finalState resultState at hs
  cases hxs : x s with
  | ok v s' =>
    rw [hxs] at hs hle
    exact fun h => ⟨h.of_place hs, hle.countP_le _⟩
  | error e s' =>
    rw [hxs] at hs hle
    exact fun h => ⟨h.of_place hs, hle.countP_le _⟩

lemma Stays.finalState {α : Type} {x : M α} (h : Stays a I α x) {s : State} (hs : Standing a I s) :
    Standing a I (finalState x s) ∧
      s.log.countP a.isLocal ≤ (Program.finalState x s).log.countP a.isLocal := by
  obtain ⟨-, hx⟩ := h.exists_exn s
  exact hx hs

lemma strays_of_first {α β : Type} {x : M α} {f : α → M β} (hx : Stays a I α x)
    (hf : ∀ v, Stays a I β (f v)) {s : State} (hs : Standing a I s) (h : Strays a x s) :
    Strays a (x >>= f) s := by
  unfold Strays at *
  cases hxs : x s with
  | error e s₁ =>
    rw [finalState_of_error hxs] at h
    rwa [finalState_bind_of_error hxs]
  | ok v s₁ =>
    have hs₁ := (hx.finalState hs).1
    rw [finalState_of_ok hxs] at h hs₁
    rw [finalState_bind_of_ok hxs]
    exact h.trans_le ((hf v).finalState hs₁).2

lemma strays_of_second {α β : Type} {x : M α} {f : α → M β} (hx : Stays a I α x) {s s₁ : State} {v : α}
    (hs : Standing a I s) (hxs : x s = .ok v s₁) (h : Strays a (f v) s₁) : Strays a (x >>= f) s := by
  unfold Strays at *
  have hle := (hx.finalState hs).2
  rw [finalState_of_ok hxs] at hle
  rw [finalState_bind_of_ok hxs]
  exact hle.trans_lt h

/-- An event about local variables is logged. -/
lemma countP_lt_append {p : Event → Bool} (es : List Event) {l : List Event} (h : ∃ e ∈ es, p e = true) :
    l.countP p < (es ++ l).countP p := by
  have hpos : 0 < es.countP p := List.countP_pos_iff.mpr h
  rw [List.countP_append]
  omega

lemma stays_withFrame {α : Type} {f : Nat → M α} (hf : ∀ id, a.frames ≤ id → Stays a I α (f id)) :
    Stays a I α (withFrame f) := by
  have hleave : ∀ {s s' : State}, Standing a I s →
      (Standing a I { s with frames := s.frames ++ [.empty] } →
        Standing a I s' ∧ s.log.countP a.isLocal ≤ s'.log.countP a.isLocal) →
      Standing a I { s' with frames := s'.frames.take s.frames.length } ∧
        s.log.countP a.isLocal ≤ s'.log.countP a.isLocal := by
    intro s s' hs hbody
    have hle := hs.le
    obtain ⟨hs', hcount⟩ := hbody ⟨by rw [List.length_append]; omega, hs.scope⟩
    have hle' := hs'.le
    exact ⟨⟨by rw [List.length_take]; omega, hs'.scope⟩, hcount⟩
  intro s
  unfold withFrame
  cases hres : f s.frames.length { s with frames := s.frames ++ [.empty] } with
  | ok v s' => exact fun hs => hleave hs ((hf _ hs.le).of_ok hres)
  | error e s' => exact fun hs => hleave hs ((hf _ hs.le).of_error hres)

/-- Something done in the global scope of the interpreter. -/
lemma stays_globalScope {α : Type} {f : ScopeRef → M α} (hf : ∀ sc, I sc → Stays a I α (f sc)) :
    Stays a I α (globalScope >>= f) := by
  intro s
  by_cases hs : I s.interp.globalScope
  · exact hf _ hs s
  · have hvacuous : ∀ s' : State, Standing a I s →
        Standing a I s' ∧ s.log.countP a.isLocal ≤ s'.log.countP a.isLocal :=
      fun _ h => absurd h.scope hs
    split
    · exact hvacuous _
    · exact hvacuous _

lemma stays_tryNext {r : Ref} (hr : Stays a I _ (next r)) : Stays a I _ (tryNext r) :=
  relates_tryNext hr fun _ _ h => h

/-- The callee runs in an interpreter of its own. -/
lemma stays_runCallee {α : Type} {writeBack : Bool} {pyint : Interp} {x : M α} (hp : I' pyint.globalScope)
    (hx : Stays a I' α x) : Stays a I α (runCallee writeBack pyint x) := by
  intro s
  have hcallee : Standing a I s → Standing a I' (calleeState pyint s) := fun hs => ⟨hs.le, hp⟩
  unfold runCallee
  cases hres : x (calleeState pyint s) with
  | ok v s' =>
    intro hs
    obtain ⟨hs', hle⟩ := hx.of_ok hres (hcallee hs)
    cases writeBack with
    | true => exact ⟨⟨hs'.le, hs.scope⟩, hle⟩
    | false =>
      refine ⟨⟨hs'.le, hs.scope⟩, hle.trans ?_⟩
      simp [stepsDropped, Site.isLocal]
  | error e s' =>
    intro hs
    obtain ⟨hs', hle⟩ := hx.of_error hres (hcallee hs)
    exact ⟨⟨hs'.le, hs.scope⟩, hle⟩

lemma stays_storeAt (r : Ref) (v : Value) (hv : v.store? = none) : Stays a I _ (storeAt r v) :=
  stays_of_finalState (hasEffects_storeAt r v hv) fun s => by
    rw [finalState_storeAt]
    split <;> rfl

lemma stays_setValue (scope : ScopeRef) (name : Str) (value : ValuePtr) :
    Stays a I _ (setValue scope name value) :=
  stays_of_finalState (closed_hasEffects.setValue scope name value) fun s => by
    have hlength : (Scope.setValue s.frames scope name value).length = s.frames.length :=
      length_setValue _ _ _ _
    simp [place, finalState, resultState, M.setValue, hlength]

lemma stays_modifyScope (scope : ScopeRef) (f : Frame → Frame) : Stays a I _ (modifyScope scope f) :=
  stays_of_finalState (hasEffects_modifyScope scope f) fun s => by
    rw [finalState_modifyScope]
    cases scope with
    | nil => rfl
    | cons id parents => simp [place]

lemma stays_malloc : Stays a I _ malloc :=
  stays_of_finalState closed_hasEffects.malloc fun s => by
    rw [finalState_malloc]
    rfl

lemma stays_makeShared (v : Value) : Stays a I _ (makeShared v) :=
  stays_of_finalState (hasEffects_makeShared v) fun _ => rfl

lemma stays_checkLimit : Stays a I _ checkLimit :=
  stays_of_finalState closed_hasEffects.checkLimit fun s => by
    rw [finalState_checkLimit]
    split <;> rfl

/-! ### Two runs -/

/-- How the interpreters of the two runs are related. -/
structure Link (a b : Site) where
  Linked : Interp → Interp → Prop
  I : ScopeRef → Prop
  I' : ScopeRef → Prop
  fst : ∀ {i i'}, Linked i i' → I i.globalScope
  snd : ∀ {i i'}, Linked i i' → I' i'.globalScope
  steps : ∀ {i i'}, Linked i i' → i'.numExecutionSteps = i.numExecutionSteps
  limit : ∀ {i i'}, Linked i i' → i'.executionStepLimit = i.executionStepLimit
  count : ∀ {i i'} (n : UInt32), Linked i i' →
    Linked { i with numExecutionSteps := n } { i' with numExecutionSteps := n }

/-- The callers' interpreters have the step count and the limit in common. -/
def callerLink (a b : Site) : Link a b where
  Linked i i' := i'.numExecutionSteps = i.numExecutionSteps ∧
    i'.executionStepLimit = i.executionStepLimit
  I _ := True
  I' _ := True
  fst _ := trivial
  snd _ := trivial
  steps h := h.1
  limit h := h.2
  count _ h := ⟨rfl, h.2⟩

/-- The callee's interpreters differ in their global scopes only. -/
def calleeLink (a b : Site) : Link a b where
  Linked := Twins (OwnScope a b)
  I sc := ∃ sc', OwnScope a b sc sc'
  I' sc' := ∃ sc, OwnScope a b sc sc'
  fst h := ⟨_, h.scope⟩
  snd h := ⟨_, h.scope⟩
  steps h := by rw [h.rest]
  limit h := by rw [h.rest]
  count n h := ⟨h.scope, by rw [h.rest]⟩

variable {l : Link a b}

/-- The states of the two runs agree in everything but the frames of the callers and the log. -/
structure Alike (l : Link a b) (s s' : State) : Prop where
  interp : l.Linked s.interp s'.interp
  frames : SameFrames a b s.frames s'.frames
  heap_eq : s'.heap = s.heap
  chain_eq : s'.chain = s.chain
  codec_eq : s'.codec = s.codec
  memory_eq : s'.memory = s.memory
  rand_eq : s'.rand = s.rand
  out_eq : s'.stdoutBuffer = s.stdoutBuffer

/-- Unless one of the runs strays, `x` and `y` do the same. -/
structure Isolated (l : Link a b) (α : Type) (x y : M α) : Prop where
  left : Stays a l.I α x
  right : Stays b l.I' α y
  same : ∀ s s', Alike l s s' → Strays a x s ∨ Strays b y s' ∨ SameResult (Alike l) (x s) (y s')

lemma Alike.left {s s' : State} (h : Alike l s s') : Standing a l.I s := ⟨h.frames.le, l.fst h.interp⟩

lemma Alike.right {s s' : State} (h : Alike l s s') : Standing b l.I' s' :=
  ⟨h.frames.le', l.snd h.interp⟩

lemma isolated_of_simulates {α : Type} {x y : M α} (hx : Stays a l.I α x) (hy : Stays b l.I' α y)
    (h : Simulates (Alike l) α x y) : Isolated l α x y :=
  ⟨hx, hy, fun s s' hs => .inr (.inr (h s s' hs))⟩

/-- What cannot stray anyway. -/
lemma isolated_of_finalState {α : Type} {x : M α} (heffects : HasEffects α x)
    (hx : ∀ s, place (finalState x s) = place s) (h : Simulates (Alike l) α x x) : Isolated l α x x :=
  isolated_of_simulates (stays_of_finalState heffects hx) (stays_of_finalState heffects hx) h

lemma isolated_congruence : Congruence (Isolated l) where
  pure v := isolated_of_simulates (stays_compositional.pure v) (stays_compositional.pure v)
    (Simulates.congruence.pure v)
  bind {_ _ x y f g} hx hf := by
    refine ⟨stays_compositional.bind hx.left fun v => (hf v).left,
      stays_compositional.bind hx.right fun v => (hf v).right, fun s s' hs => ?_⟩
    obtain hstray | hstray | hsame := hx.same s s' hs
    · exact .inl (strays_of_first hx.left (fun v => (hf v).left) hs.left hstray)
    · exact .inr (.inl (strays_of_first hx.right (fun v => (hf v).right) hs.right hstray))
    · generalize hxs : x s = r at hsame
      generalize hys : y s' = r' at hsame
      cases hsame with
      | error h =>
        rw [bind_of_error hxs, bind_of_error hys]
        exact .inr (.inr (.error h))
      | ok h =>
        rw [bind_of_ok hxs, bind_of_ok hys]
        obtain hstray | hstray | hsame := (hf _).same _ _ h
        · exact .inl (strays_of_second hx.left hs.left hxs hstray)
        · exact .inr (.inl (strays_of_second hx.right hs.right hys hstray))
        · exact .inr (.inr hsame)

lemma isolated_throw {α : Type} (e : Exn) : Isolated l α (throw e) (throw e) :=
  isolated_of_simulates (stays_compositional.throw e) (stays_compositional.throw e)
    fun _ _ hs => .error hs

/-! ### Objects and the world -/

lemma isolated_malloc : Isolated l _ malloc malloc :=
  isolated_of_simulates stays_malloc stays_malloc fun s s' h => by
    unfold malloc
    rw [h.memory_eq]
    dsimp only
    split
    · exact .ok { h with memory_eq := rfl }
    · exact .error { h with memory_eq := rfl }

lemma isolated_makeShared (v : Value) : Isolated l _ (makeShared v) (makeShared v) :=
  isolated_of_simulates (stays_makeShared v) (stays_makeShared v) fun s s' h => by
    unfold makeShared
    rw [h.heap_eq]
    exact .ok { h with heap_eq := rfl }

lemma isolated_load (r : Ref) : Isolated l _ (load r) (load r) :=
  isolated_of_finalState (closed_hasEffects.load r) (fun s => by rw [finalState_load]) fun s s' h => by
    unfold load
    rw [h.heap_eq]
    split
    · exact .ok h
    · exact .error h

lemma simulates_storeAt (r : Ref) (v : Value) : Simulates (Alike l) _ (storeAt r v) (storeAt r v) :=
  fun s s' h => by
    unfold storeAt
    rw [h.heap_eq]
    split
    · exact .ok { h with heap_eq := rfl }
    · exact .error h

lemma simulates_record (e : Event) : Simulates (Alike l) _ (record e) (record e) :=
  fun _ _ h => .ok { h with }

lemma isolated_writeStore (r : Ref) (st : Store) : Isolated l _ (writeStore r st) (writeStore r st) :=
  isolated_of_finalState (hasEffects_writeStore r st)
    (fun s => by
      rw [finalState_writeStore]
      split <;> rfl)
    (Simulates.bind (simulates_storeAt _ _) fun _ => simulates_record _)

lemma isolated_str (r : Ref) : Isolated l _ (str r) (str r) :=
  isolated_of_finalState (closed_hasEffects.str r) (fun s => by rw [finalState_str]) fun s s' h => by
    unfold M.str
    rw [h.heap_eq]
    split
    · exact .ok h
    · exact .error h

lemma isolated_checkLimit : Isolated l _ checkLimit checkLimit :=
  isolated_of_simulates stays_checkLimit stays_checkLimit fun s s' h => by
    unfold checkLimit
    rw [l.limit h.interp]
    split
    · exact .error h
    · exact .ok { h with }

/-- A computation that looks at the world and may change it. -/
lemma isolated_values (hmodules : ∀ {i i'}, l.Linked i i' → i'.loadedModules = i.loadedModules)
    (hload : ∀ {i i'} m, l.Linked i i' →
      l.Linked { i with loadedModules := m } { i' with loadedModules := m }) :
    Values fun α x => Isolated l α x x where
  toSequential := isolated_congruence.sequential
  throw e _ := isolated_throw e
  malloc := isolated_malloc
  makeShared := isolated_makeShared
  load := isolated_load
  storeAt r v hv := isolated_of_simulates (stays_storeAt r v hv) (stays_storeAt r v hv)
    (simulates_storeAt r v)
  writeStore := isolated_writeStore
  str := isolated_str
  getChain := isolated_of_finalState closed_hasEffects.getChain (fun _ => rfl) fun s s' h => by
    unfold getChain
    rw [h.chain_eq]
    exact .ok h
  checkAddress d := isolated_of_finalState (closed_hasEffects.checkAddress d) (fun _ => rfl)
    fun s s' h => by
      unfold M.checkAddress
      rw [h.codec_eq, h.chain_eq]
      exact .ok h
  rand := isolated_of_finalState closed_hasEffects.rand (fun _ => rfl) fun s s' h => by
    unfold M.rand
    rw [h.rand_eq]
    exact .ok { h with rand_eq := rfl }
  printProgramOutput out := isolated_of_finalState (closed_hasEffects.printProgramOutput out)
    (fun _ => rfl) fun s s' h => .ok { h with out_eq := by rw [h.out_eq] }
  findModule name := isolated_of_finalState (closed_hasEffects.findModule name) (fun _ => rfl)
    fun s s' h => by
      unfold M.findModule
      rw [hmodules h.interp]
      exact .ok h
  loadRand := loadRand_of_steps isolated_congruence.sequential isolated_malloc (isolated_makeShared _)
    fun module => isolated_of_finalState (hasEffects_addModule _ module) (fun _ => rfl) fun s s' h => by
      unfold M.addModule
      rw [hmodules h.interp]
      exact .ok { h with interp := hload _ h.interp }
  catchStop r hr := by
    refine ⟨stays_tryNext hr.left, stays_tryNext hr.right, fun s s' h => ?_⟩
    have hlog : ∀ s, (finalState (tryNext r) s).log = (finalState (next r) s).log := by
      intro s
      simp only [finalState, M.tryNext]
      cases next r s with
      | ok v s₁ => rfl
      | error e s₁ => cases e <;> rfl
    unfold Strays
    rw [hlog, hlog]
    obtain hstray | hstray | hsame := hr.same s s' h
    · exact .inl hstray
    · exact .inr (.inl hstray)
    · right; right
      unfold M.tryNext
      generalize next r s = res at hsame
      generalize next r s' = res' at hsame
      cases hsame with
      | ok h => exact .ok h
      | @error e _ _ h =>
        cases e with
        | stopIteration => exact .ok h
        | _ => exact .error h

lemma isolated_setFunds (m : SortedMap Str UInt64) (balance : UInt64) :
    Isolated l _ (setFunds m balance) (setFunds m balance) :=
  isolated_of_finalState (closed_hasEffects.setFunds m balance) (fun _ => rfl)
    fun s s' h => .ok { h with chain_eq := by rw [h.chain_eq] }

/-! ### Brackets -/

lemma strays_withFrame {α : Type} {f : Nat → M α} {s : State} (h : Strays a (f s.frames.length)
    { s with frames := s.frames ++ [.empty] }) : Strays a (withFrame f) s := by
  unfold Strays at *
  rw [finalState_withFrame]
  exact h

/-- The frames the two runs push. -/
def SamePush (a b : Site) (id id' : Nat) : Prop := ∃ k, id = a.frames + k ∧ id' = b.frames + k

lemma isolated_withFrame {α : Type} {f g : Nat → M α}
    (hfg : ∀ id id', SamePush a b id id' → Isolated l α (f id) (g id')) :
    Isolated l α (withFrame f) (withFrame g) := by
  have hpush : ∀ {id id'}, SamePush a b id id' → a.frames ≤ id ∧ b.frames ≤ id' := by
    rintro _ _ ⟨k, rfl, rfl⟩
    omega
  refine ⟨stays_withFrame fun id hid => ?_, stays_withFrame fun id hid => ?_, fun s s' h => ?_⟩
  · obtain ⟨k, rfl⟩ := Nat.exists_eq_add_of_le hid
    exact (hfg _ _ ⟨k, rfl, rfl⟩).left
  · obtain ⟨k, rfl⟩ := Nat.exists_eq_add_of_le hid
    exact (hfg _ _ ⟨k, rfl, rfl⟩).right
  · obtain ⟨k, hk⟩ := Nat.exists_eq_add_of_le h.frames.le
    have hk' : s'.frames.length = b.frames + k := by
      have hle := h.frames.le'
      have hown := h.frames.length_own
      omega
    have hinner : Alike l { s with frames := s.frames ++ [.empty] }
        { s' with frames := s'.frames ++ [.empty] } := { h with frames := h.frames.push .empty }
    obtain hstray | hstray | hsame := (hfg _ _ ⟨k, hk, hk'⟩).same _ _ hinner
    · exact .inl (strays_withFrame hstray)
    · exact .inr (.inl (strays_withFrame hstray))
    · right; right
      unfold withFrame
      generalize f s.frames.length { s with frames := s.frames ++ [.empty] } = res at hsame
      generalize g s'.frames.length { s' with frames := s'.frames ++ [.empty] } = res' at hsame
      have hpop : ∀ {s₁ s₁' : State}, Alike l s₁ s₁' →
          Alike l { s₁ with frames := s₁.frames.take s.frames.length }
            { s₁' with frames := s₁'.frames.take s'.frames.length } := by
        intro s₁ s₁' h₁
        rw [hk, hk']
        exact { h₁ with frames := h₁.frames.pop k }
      cases hsame with
      | ok h₁ => exact .ok (hpop h₁)
      | error h₁ => exact .error (hpop h₁)

lemma strays_runCallee {α : Type} {writeBack : Bool} {pyint : Interp} {x : M α} {s : State}
    (h : Strays a x (calleeState pyint s)) : Strays a (runCallee writeBack pyint x) s := by
  unfold Strays finalState at *
  unfold runCallee
  cases hx : x (calleeState pyint s) with
  | ok v s' =>
    rw [hx] at h
    cases writeBack with
    | true => exact h
    | false =>
      refine Nat.lt_of_lt_of_le h ?_
      simp [resultState, stepsDropped, Site.isLocal]
  | error e s' =>
    rw [hx] at h
    exact h

/-- A callee runs in an interpreter of its own, whatever the caller's one is. -/
lemma isolated_runCallee {α : Type} {writeBack : Bool} {pyint pyint' : Interp} {x y : M α}
    (hp : Twins (OwnScope a b) pyint pyint') (hxy : Isolated (calleeLink a b) α x y) :
    Isolated l α (runCallee writeBack pyint x) (runCallee writeBack pyint' y) := by
  refine ⟨stays_runCallee ⟨_, hp.scope⟩ hxy.left, stays_runCallee ⟨_, hp.scope⟩ hxy.right,
    fun s s' h => ?_⟩
  have hcallee : Alike (calleeLink a b) (calleeState pyint s) (calleeState pyint' s') := by
    refine { h with interp := ⟨hp.scope, ?_⟩ }
    show ({ pyint' with numExecutionSteps := _, executionStepLimit := _ } : Interp) = _
    rw [l.steps h.interp, l.limit h.interp, hp.rest]
    rfl
  obtain hstray | hstray | hsame := hxy.same _ _ hcallee
  · exact .inl (strays_runCallee hstray)
  · exact .inr (.inl (strays_runCallee hstray))
  · right; right
    unfold runCallee
    generalize x (calleeState pyint s) = res at hsame
    generalize y (calleeState pyint' s') = res' at hsame
    have hback : ∀ {s₁ s₁' : State}, Alike (calleeLink a b) s₁ s₁' →
        Alike l (writtenBack s s₁) (writtenBack s' s₁') := by
      intro s₁ s₁' h₁
      refine { h₁ with interp := ?_ }
      show l.Linked { s.interp with numExecutionSteps := _ } { s'.interp with numExecutionSteps := _ }
      rw [(calleeLink a b).steps h₁.interp]
      exact l.count _ h.interp
    cases hsame with
    | ok h₁ =>
      cases writeBack with
      | true => exact .ok (hback h₁)
      | false => exact .ok { h₁ with interp := h.interp }
    | error h₁ => exact .error (hback h₁)

/-! ### Scopes -/

variable {sc sc' : ScopeRef}

lemma isolated_findValue (name : Str) (hs : SameScope a b sc sc') :
    Isolated l _ (findValue sc name) (findValue sc' name) := by
  refine ⟨stays_of_finalState (closed_hasEffects.findValue sc name) fun _ => rfl,
    stays_of_finalState (closed_hasEffects.findValue sc' name) fun _ => rfl, fun s s' h => ?_⟩
  obtain hlocal | hlocal | hsame := h.frames.findValue hs name
  · exact .inl (countP_lt_append [_] ⟨_, List.mem_cons_self, hlocal⟩)
  · exact .inr (.inl (countP_lt_append [_] ⟨_, List.mem_cons_self, hlocal⟩))
  · right; right
    unfold M.findValue
    rw [hsame]
    exact .ok { h with }

lemma isolated_hasValue (name : Str) (hs : SameScope a b sc sc') :
    Isolated l _ (hasValue sc name) (hasValue sc' name) := by
  refine ⟨stays_of_finalState (closed_hasEffects.hasValue sc name) fun _ => rfl,
    stays_of_finalState (closed_hasEffects.hasValue sc' name) fun _ => rfl, fun s s' h => ?_⟩
  obtain hlocal | hlocal | hsame := h.frames.hasValue hs name
  · exact .inl (countP_lt_append [_] ⟨_, List.mem_cons_self, hlocal⟩)
  · exact .inr (.inl (countP_lt_append [_] ⟨_, List.mem_cons_self, hlocal⟩))
  · right; right
    unfold M.hasValue
    rw [hsame]
    exact .ok { h with }

lemma isolated_setValue (hdepth : a.locals.length = b.locals.length) (name : Str) (value : ValuePtr)
    (hs : SameScope a b sc sc') : Isolated l _ (setValue sc name value) (setValue sc' name value) := by
  refine ⟨stays_setValue sc name value, stays_setValue sc' name value, fun s s' h => ?_⟩
  obtain hlocal | hlocal | hsame := h.frames.setValue hs hdepth name
  · exact .inl (countP_lt_append _ hlocal)
  · exact .inr (.inl (countP_lt_append _ hlocal))
  · exact .inr (.inr (.ok { h with frames := hsame value }))

lemma isolated_modifyScope (f : Frame → Frame) (hs : OwnScope a b sc sc') :
    Isolated l _ (modifyScope sc f) (modifyScope sc' f) := by
  refine isolated_of_simulates (stays_modifyScope sc f) (stays_modifyScope sc' f) fun s s' h => ?_
  cases hs with
  | own k hs =>
    unfold M.modifyScope
    dsimp only
    rw [← h.frames.frame_own k]
    exact .ok { h with frames := h.frames.set_own k _ }

lemma isolated_isTerminated (hs : OwnScope a b sc sc') :
    Isolated l _ (isTerminated sc) (isTerminated sc') := by
  have hstays : ∀ {c : Site} {I : ScopeRef → Prop} (sc : ScopeRef), Stays c I _ (isTerminated sc) :=
    fun sc => stays_of_finalState (closed_hasEffects.isTerminated sc (by simp [Touches]))
      fun s => by rw [finalState_isTerminated]
  refine isolated_of_simulates (hstays sc) (hstays sc') fun s s' h => ?_
  cases hs with
  | own k hs =>
    unfold M.isTerminated
    dsimp only
    rw [h.frames.frame_own k]
    exact .ok h

/-- What a call does before the body of the function runs. -/
lemma calling_isolated (hdepth : a.locals.length = b.locals.length) :
    Calling (SameScope a b) (OwnScope a b) (SamePush a b) (Isolated l) where
  congruence := isolated_congruence
  throw e _ := isolated_throw e
  malloc := isolated_malloc
  makeShared := isolated_makeShared
  own := OwnScope.same
  push := by
    rintro _ _ _ _ ⟨k, rfl, rfl⟩ hs
    exact .own k hs
  root := by
    rintro _ _ ⟨k, rfl, rfl⟩
    exact .own k .none
  length_eq hs := hs.length_eq hdepth
  setValue name value hs := isolated_setValue hdepth name value hs
  requireGlobal hs := isolated_modifyScope _ hs
  withFrame := isolated_withFrame
  checkLimit := isolated_checkLimit

/-! ### The body of the function -/

lemma isolated_charge : Isolated l _ charge charge := by
  have hplace : ∀ s, place (finalState charge s) = place s := by
    intro s
    rw [finalState_charge]
    rfl
  refine isolated_of_finalState closed_hasEffects.charge hplace fun s s' h => ?_
  have hsteps := l.steps h.interp
  have hticked : Alike l (tick s) (tick s') := by
    refine { h with interp := ?_ }
    show l.Linked { s.interp with numExecutionSteps := _ } { s'.interp with numExecutionSteps := _ }
    rw [hsteps]
    exact l.count _ h.interp
  unfold charge
  rw [l.limit h.interp, hsteps]
  split
  · exact .error hticked
  · exact .ok hticked

lemma twins_data {T : ScopeRef → ScopeRef → Prop} {i i' : Interp} (h : Twins T i i') :
    i'.data = i.data := by rw [h.rest]

lemma twins_withData {T : ScopeRef → ScopeRef → Prop} {i i' : Interp} (h : Twins T i i')
    (b : Bitstream) : Twins T { i with data := b } { i' with data := b } := ⟨h.scope, by rw [h.rest]⟩

lemma isolated_onData {α : Type} (f : Bitstream → Option α × Bitstream) :
    Isolated (calleeLink a b) _ (onData f) (onData f) := by
  have hplace : ∀ s, place (finalState (onData f) s) = place s := by
    intro s
    rw [finalState_onData]
    rfl
  refine isolated_of_finalState (hasEffects_onData f) hplace fun s s' h => ?_
  have hread : ∀ d, Alike (calleeLink a b) { s with interp := { s.interp with data := d } }
      { s' with interp := { s'.interp with data := d } } :=
    fun d => { h with interp := twins_withData h.interp d }
  unfold onData
  rw [twins_data h.interp]
  cases (f s.interp.data).1 with
  | some v => exact .ok (hread _)
  | none => exact .error (hread _)

/-- A look at the stream. -/
lemma isolated_looks {α : Type} {x : M α} (f : Bitstream → α)
    (hx : ∀ s, x s = .ok (f s.interp.data) s) : Isolated (calleeLink a b) α x x := by
  have hfinal : ∀ s, finalState x s = s := fun s => finalState_of_ok (hx s)
  refine isolated_of_finalState (hasEffects_of_finalState fun s => ?_) (fun s => by rw [hfinal])
    fun s s' h => ?_
  · rw [hfinal]
    exact .refl s
  · rw [hx, hx, twins_data h.interp]
    exact .ok h

lemma isolated_moveTo (p : UInt32) : Isolated (calleeLink a b) _ (moveTo p) (moveTo p) := by
  have hplace : ∀ s, place (finalState (moveTo p) s) = place s := fun _ => rfl
  refine isolated_of_finalState (hasEffects_of_finalState fun _ => .of_eq rfl rfl rfl rfl) hplace
    fun s s' h => ?_
  unfold moveTo
  rw [twins_data h.interp]
  exact .ok { h with interp := twins_withData h.interp _ }

lemma isolated_reading : Reading fun α x => Isolated (calleeLink a b) α x x where
  toSequential := isolated_congruence.sequential
  throw e _ := isolated_throw e
  charge := isolated_charge
  readWord := isolated_onData _
  readString := isolated_onData _
  peekType := isolated_onData _

lemma isolated_inGlobalScope {α : Type} {f g : ScopeRef → M α}
    (hfg : ∀ sc sc', OwnScope a b sc sc' → Isolated (calleeLink a b) α (f sc) (g sc')) :
    Isolated (calleeLink a b) α (globalScope >>= f) (globalScope >>= g) where
  left := stays_globalScope fun _ hs => by
    obtain ⟨sc', h⟩ := hs
    exact (hfg _ _ h).left
  right := stays_globalScope fun _ hs => by
    obtain ⟨sc, h⟩ := hs
    exact (hfg _ _ h).right
  same s s' h := (hfg _ _ h.interp.scope).same s s' h

lemma looksUp_isolated : LooksUp (SameScope a b) (Isolated (calleeLink a b)) where
  congruence := isolated_congruence
  values := isolated_values (fun h => by rw [h.rest]) fun _ h => ⟨h.scope, by rw [h.rest]⟩
  findValue name hs := isolated_findValue name hs
  hasValue name hs := isolated_hasValue name hs

/-- Whatever the body does, it does from both call sites, unless one of the runs strays. -/
lemma related_isolated (hdepth : a.locals.length = b.locals.length) :
    Related (SameScope a b) (OwnScope a b) (SamePush a b) 0
      (fun _ α x y => Isolated (calleeLink a b) α x y) where
  congruence _ := isolated_congruence
  values _ := looksUp_isolated.values
  reading _ := isolated_reading
  mono h := h
  paid h := isolated_congruence.bind isolated_charge fun _ => h
  exhausted h := by
    rw [h rfl]
    exact isolated_throw _
  skipNext _ := isolated_congruence.bind (isolated_looks (·.bytecode.length) fun _ => rfl) fun _ =>
    isolated_reading.skipFuel (isolated_throw _) _
  readStub _ _ := isolated_congruence.bind (isolated_onData _) fun _ =>
    isolated_congruence.bind (isolated_onData _) fun _ => isolated_congruence.pure _
  record _ type ls depth := isolated_of_finalState (closed_hasEffects.record type ls depth)
    (fun _ => rfl) (simulates_record _)
  returnTo hf := isolated_congruence.bind (isolated_looks Bitstream.pos fun _ => rfl) fun start =>
    hf start start fun _ => isolated_moveTo start
  own := OwnScope.same
  push := (calling_isolated (l := calleeLink a b) hdepth).push
  root := (calling_isolated (l := calleeLink a b) hdepth).root
  length_eq hs := hs.length_eq hdepth
  findValue _ _ _ name hs := isolated_findValue name hs
  setValue _ _ _ name value hs := isolated_setValue hdepth name value hs
  hasValue _ _ _ name hs := isolated_hasValue name hs
  send _ _ _ hs := looksUp_isolated.send isolated_setFunds hs
  suicide _ _ _ hs := looksUp_isolated.suicide isolated_setFunds hs
  setGlobalTag _ _ _ _ hs := isolated_modifyScope _ hs
  requireGlobal _ _ _ hs := isolated_modifyScope _ hs
  terminate _ _ _ hs := isolated_modifyScope _ hs
  isTerminated _ _ _ hs := isolated_isTerminated hs
  withFrame := isolated_withFrame
  inGlobalScope := isolated_inGlobalScope
  checkLimit _ := isolated_checkLimit
  runCallee _ _ _ _ _ _ hp _ hexec _ := isolated_runCallee hp
    (isolated_congruence.bind hexec fun _ => isolated_congruence.pure _)

/-! ### Calls from two sites -/

/-- The two calls are made in states that differ in the frames of the callers, in the callers' code
and in the log only; the calls are equally deep. -/
structure SitesAgree (a b : Site) (s s' : State) : Prop where
  length_fst : s.frames.length = a.frames
  length_snd : s'.frames.length = b.frames
  depth_eq : a.locals.length = b.locals.length
  module_eq : Scope.frame s.frames a.module = Scope.frame s'.frames b.module
  steps_eq : s'.interp.numExecutionSteps = s.interp.numExecutionSteps
  limit_eq : s'.interp.executionStepLimit = s.interp.executionStepLimit
  heap_eq : s'.heap = s.heap
  chain_eq : s'.chain = s.chain
  codec_eq : s'.codec = s.codec
  memory_eq : s'.memory = s.memory
  rand_eq : s'.rand = s.rand
  out_eq : s'.stdoutBuffer = s.stdoutBuffer

lemma SitesAgree.alike {s s' : State} (h : SitesAgree a b s s') : Alike (callerLink a b) s s' where
  interp := ⟨h.steps_eq, h.limit_eq⟩
  frames :=
    { le := h.length_fst.ge
      le' := h.length_snd.ge
      own := by
        rw [← h.length_fst, ← h.length_snd, List.drop_length, List.drop_length]
      module := h.module_eq }
  heap_eq := h.heap_eq
  chain_eq := h.chain_eq
  codec_eq := h.codec_eq
  memory_eq := h.memory_eq
  rand_eq := h.rand_eq
  out_eq := h.out_eq

/-- The caller's frame is the innermost one of two. -/
def oneCaller : Site := ⟨2, [1], 0, by decide, by decide, by decide⟩

/-- A state in which the body of a function whose local `y` is `value` calls the function with
the body `body`, object 3. -/
def callingWith (body : List (Ast .stmt)) (value : Ref) : State :=
  { startState [] 1000 with
    heap := [.persistableDictionary .empty, .integer 1, .integer 2, .vmFunction (moduleCode body) [] []]
    frames := [
      { Frame.empty with values := (SortedMap.empty.insert (lit "store") (some 0)).insert (lit "f") (some 3) },
      { Frame.empty with
        values := SortedMap.empty.insert (lit "y") (some value)
        requireGlobal := true }] }

lemma sitesAgree_callingWith (body : List (Ast .stmt)) (value value' : Ref) :
    SitesAgree oneCaller oneCaller (callingWith body value) (callingWith body value') :=
  ⟨rfl, rfl, rfl, rfl, rfl, rfl, rfl, rfl, rfl, rfl, rfl, rfl⟩

/-- `return 7` -/
def returnSeven : List (Ast .stmt) := [.return (.number (.integer 7))]

/-- `return y` -/
def returnLocal : List (Ast .stmt) := [.return (.name (lit "y"))]

end ContractPython.Proofs
