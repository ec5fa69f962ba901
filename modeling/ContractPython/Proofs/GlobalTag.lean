import ContractPython.Proofs.Closure
import ContractPython.Proofs.Scopes
import ContractPython.Proofs.Steps

/-!
# What `global` does

A function that has declared a name `global` hands an assignment to it on to its caller. Whether
the module's binding changes depends on every frame on the way: a caller hands it on when it has
declared the name itself, the body of a loop when one of its parents knows the name.
-/

namespace ContractPython.Proofs

open Program M Scope

/-- All frames but the last one hand an assignment on. -/
def Passes (frames : List Frame) : ScopeRef → Str → Prop
  | [], _ | [_], _ => True
  | id :: parent :: parents, name =>
    passesOn frames id (parent :: parents) name = true ∧ Passes frames (parent :: parents) name

lemma target_of_passes {frames : List Frame} {scope : ScopeRef} {name : Str} {g : Nat}
    (hlast : scope.getLast? = some g) (h : Passes frames scope name) :
    target frames scope name = some g := by
  induction scope with
  | nil => cases hlast
  | cons id parents ih =>
    cases parents with
    | nil =>
      have hid : id = g := by simpa using hlast
      rw [← hid]
      rfl
    | cons parent parents =>
      rw [target, if_pos h.1]
      exact ih (by simpa [List.getLast?_cons_cons] using hlast) h.2

lemma passes_of_target {frames : List Frame} {scope : ScopeRef} {name : Str} {g : Nat}
    (hnodup : scope.Nodup) (hlast : scope.getLast? = some g) (h : target frames scope name = some g) :
    Passes frames scope name := by
  induction scope with
  | nil => trivial
  | cons id parents ih =>
    cases parents with
    | nil => trivial
    | cons parent parents =>
      rw [List.getLast?_cons_cons] at hlast
      rw [List.nodup_cons] at hnodup
      unfold target at h
      split at h
      · rename_i hpass
        exact ⟨hpass, ih hnodup.2 hlast h⟩
      · cases h
        exact absurd (List.mem_of_getLast? hlast) hnodup.1

/-- The way to the last frame stays open when frames keep their flag, their tags and the names
they bind. -/
lemma Passes.mono {frames frames' : List Frame} {scope : ScopeRef} {name : Str}
    (hrequires : ∀ id ∈ scope, (frame frames' id).requireGlobal = (frame frames id).requireGlobal)
    (htags : ∀ id ∈ scope, (frame frames id).globalTags ⊆ (frame frames' id).globalTags)
    (hbound : ∀ id ∈ scope, (frame frames id).values.contains name = true →
      (frame frames' id).values.contains name = true)
    (h : Passes frames scope name) : Passes frames' scope name := by
  induction scope with
  | nil => trivial
  | cons id parents ih =>
    cases parents with
    | nil => trivial
    | cons parent parents =>
      have hmem : ∀ id' ∈ parent :: parents, id' ∈ id :: parent :: parents :=
        fun _ => List.mem_cons_of_mem _
      refine ⟨?_, ih (fun id' h' => hrequires id' (hmem id' h')) (fun id' h' => htags id' (hmem id' h'))
        (fun id' h' => hbound id' (hmem id' h')) h.2⟩
      have hpass := h.1
      unfold passesOn at hpass ⊢
      rw [hrequires id List.mem_cons_self]
      rw [Bool.and_eq_true] at hpass ⊢
      refine ⟨hpass.1, ?_⟩
      split
      · rename_i hrequire
        rw [if_pos hrequire] at hpass
        exact List.contains_iff_mem.mpr (htags id List.mem_cons_self (List.contains_iff_mem.mp hpass.2))
      · rename_i hrequire
        rw [if_neg hrequire] at hpass
        obtain ⟨id', hid', hcontains⟩ := hasValue_iff.mp hpass.2
        exact hasValue_iff.mpr ⟨id', hid', hbound id' (hmem id' hid') hcontains⟩

/-- The body of a loop hands an assignment on when its parents know the name. -/
lemma passes_loop {frames : List Frame} {id : Nat} {parents : ScopeRef} {name : Str}
    (hloop : (frame frames id).requireGlobal = false) (hne : parents ≠ []) :
    Passes frames (id :: parents) name ↔
      hasValue frames parents name = true ∧ Passes frames parents name := by
  cases parents with
  | nil => exact absurd rfl hne
  | cons parent parents =>
    show passesOn frames id (parent :: parents) name = true ∧ _ ↔ _
    simp [passesOn, hloop]

/-- A function hands an assignment on when it has declared the name. -/
lemma passes_function {frames : List Frame} {id : Nat} {parents : ScopeRef} {name : Str}
    (hfunction : (frame frames id).requireGlobal = true) (hne : parents ≠ []) :
    Passes frames (id :: parents) name ↔
      name ∈ (frame frames id).globalTags ∧ Passes frames parents name := by
  cases parents with
  | nil => exact absurd rfl hne
  | cons parent parents =>
    show passesOn frames id (parent :: parents) name = true ∧ _ ↔ _
    simp [passesOn, hfunction]

/-! ### A function and its callers -/

/-- A function runs in the frame `f`; the scopes of its callers end in the frame `g` of the
module. -/
structure Activation (frames : List Frame) (f : Nat) (callers : ScopeRef) (g : Nat) : Prop where
  requires : (frame frames f).requireGlobal = true
  lt_length : f < frames.length
  callers_lt : ∀ id ∈ callers, id < f
  nodup : callers.Nodup
  last : callers.getLast? = some g

/-- A call from a scope of existing frames makes an activation, before it binds the arguments. -/
lemma Activation.of_call {s : State} {callers : ScopeRef} {g : Nat}
    (hlt : ∀ id ∈ callers, id < s.frames.length) (hnodup : callers.Nodup)
    (hlast : callers.getLast? = some g) :
    Activation (finalState (M.requireGlobal (s.frames.length :: callers))
      { s with frames := s.frames ++ [.empty] }).frames s.frames.length callers g := by
  have hpushed : s.frames.length < (s.frames ++ [Frame.empty]).length := by simp
  have hframes : (finalState (M.requireGlobal (s.frames.length :: callers))
      { s with frames := s.frames ++ [.empty] }).frames = (s.frames ++ [Frame.empty]).set s.frames.length
        { frame (s.frames ++ [Frame.empty]) s.frames.length with requireGlobal := true } := rfl
  rw [hframes]
  refine ⟨?_, ?_, hlt, hnodup, hlast⟩
  · rw [frame_set_self _ hpushed]
  · rw [List.length_set]
    exact hpushed

/-- What the body of the function does next to the frames: it executes a node or binds a name,
in its own scope or in that of one of its loops, and it enters and leaves the bodies of loops. -/
inductive BodyStep (f : Nat) (callers : ScopeRef) : List Frame → List Frame → Prop
  | node (n : Nat) (ls : LoopState) (loops : ScopeRef) (s : State) (hloops : ∀ id ∈ loops, f < id)
      (hglobal : ∀ id ∈ s.interp.globalScope, f < id) :
      BodyStep f callers s.frames (finalState (executeNext n (loops ++ f :: callers) ls) s).frames
  | bind (frames : List Frame) (loops : ScopeRef) (name : Str) (value : ValuePtr)
      (hloops : ∀ id ∈ loops, f < id) :
      BodyStep f callers frames (Scope.setValue frames (loops ++ f :: callers) name value)
  | enter (frames : List Frame) : BodyStep f callers frames (frames ++ [.empty])
  | leave (frames : List Frame) (k : Nat) (hk : f < k) : BodyStep f callers frames (frames.take k)

/-- The frames the body of the function may get to. -/
abbrev BodyRuns (f : Nat) (callers : ScopeRef) : List Frame → List Frame → Prop :=
  Relation.ReflTransGen (BodyStep f callers)

/-- The scopes of the bodies of loops that run in the function. -/
def LoopScope (frames : List Frame) (f : Nat) (loops : ScopeRef) : Prop :=
  loops.Nodup ∧ ∀ id ∈ loops, f < id ∧ id < frames.length ∧ (frame frames id).requireGlobal = false

/-- An assignment in `scope` binds the name in the module and nowhere else, and whoever does not
bind the name nearer reads it there. -/
structure WritesModule (frames : List Frame) (scope : ScopeRef) (g : Nat) (name : Str) : Prop where
  sets : ∀ value, Scope.setValue frames scope name value = bindIn frames g name value
  reads : ∀ value inner, (∀ id ∈ inner, id ≠ g ∧ (frame frames id).values.find? name = none) →
    Scope.findValue (Scope.setValue frames scope name value) (inner ++ [g]) name = some value

/-- Whatever the body does, each assignment to the name binds it in the module, and no caller's
own binding of it is created or changed. -/
structure GlobalWrites (frames : List Frame) (f : Nat) (callers : ScopeRef) (g : Nat) (name : Str) :
    Prop where
  writes : ∀ frames', BodyRuns f callers frames frames' → ∀ loops, LoopScope frames' f loops →
    WritesModule frames' (loops ++ f :: callers) g name
  callers_kept : ∀ frames', BodyRuns f callers frames frames' → ∀ id ∈ callers, id ≠ g →
    (frame frames' id).values.find? name = (frame frames id).values.find? name

/-! ### What is kept -/

variable {f g : Nat} {callers : ScopeRef} {name : Str}

/-- What a computation inside the function keeps of its frame and those of its callers. -/
structure CallersKept (f : Nat) (callers : ScopeRef) (g : Nat) (name : Str)
    (frames frames' : List Frame) : Prop where
  lt_length : f < frames'.length
  requires : ∀ id ∈ f :: callers, (frame frames' id).requireGlobal = (frame frames id).requireGlobal
  tags : ∀ id ∈ f :: callers, (frame frames id).globalTags ⊆ (frame frames' id).globalTags
  bound : ∀ id ∈ f :: callers, (frame frames id).values.contains name = true →
    (frame frames' id).values.contains name = true
  own : ∀ id ∈ callers, id ≠ g →
    (frame frames' id).values.find? name = (frame frames id).values.find? name

namespace CallersKept

variable {frames frames' frames'' : List Frame}

lemma trans (h : CallersKept f callers g name frames frames')
    (h' : CallersKept f callers g name frames' frames'') :
    CallersKept f callers g name frames frames'' where
  lt_length := h'.lt_length
  requires id hid := (h'.requires id hid).trans (h.requires id hid)
  tags id hid := List.Subset.trans (h.tags id hid) (h'.tags id hid)
  bound id hid hname := h'.bound id hid (h.bound id hid hname)
  own id hid hne := (h'.own id hid hne).trans (h.own id hid hne)

/-- The frames of the function and its callers are the same. -/
lemma of_same (hlength : f < frames'.length) (hf : ∀ id ∈ f :: callers, frame frames' id = frame frames id) :
    CallersKept f callers g name frames frames' where
  lt_length := hlength
  requires id hid := by rw [hf id hid]
  tags id hid := by rw [hf id hid]; exact List.Subset.refl _
  bound id hid := by rw [hf id hid]; exact fun h => h
  own id hid _ := by rw [hf id (List.mem_cons_of_mem _ hid)]

lemma activation (h : CallersKept f callers g name frames frames') (ha : Activation frames f callers g) :
    Activation frames' f callers g :=
  ⟨(h.requires f List.mem_cons_self).trans ha.requires, h.lt_length, ha.callers_lt, ha.nodup, ha.last⟩

lemma passes (h : CallersKept f callers g name frames frames')
    (hp : Passes frames (f :: callers) name) : Passes frames' (f :: callers) name :=
  hp.mono h.requires h.tags h.bound

lemma hasValue (h : CallersKept f callers g name frames frames')
    (hv : hasValue frames (f :: callers) name = true) : hasValue frames' (f :: callers) name = true := by
  obtain ⟨id, hid, hcontains⟩ := hasValue_iff.mp hv
  exact hasValue_iff.mpr ⟨id, hid, h.bound id hid hcontains⟩

end CallersKept

namespace Activation

variable {frames : List Frame} (h : Activation frames f callers g)
include h

lemma mem_le {id : Nat} (hid : id ∈ f :: callers) : id ≤ f := by
  obtain rfl | hid := List.mem_cons.mp hid
  · exact le_refl _
  · exact (h.callers_lt id hid).le

lemma kept_append (fs : List Frame) : CallersKept f callers g name frames (frames ++ fs) := by
  refine .of_same ?_ fun id hid => frame_append fs ((h.mem_le hid).trans_lt h.lt_length)
  have hlt := h.lt_length
  rw [List.length_append]
  omega

lemma kept_take {k : Nat} (hk : f < k) : CallersKept f callers g name frames (frames.take k) := by
  refine .of_same ?_ fun id hid => frame_take ((h.mem_le hid).trans_lt hk)
  have hlt := h.lt_length
  rw [List.length_take]
  omega

/-- A name is bound inside the function or in the module, or it is another name. -/
lemma kept_bindIn {id : Nat} (name' : Str) (value : ValuePtr)
    (hid : id ∈ callers → name' = name → id = g) :
    CallersKept f callers g name frames (bindIn frames id name' value) where
  lt_length := by
    rw [length_bindIn]
    exact h.lt_length
  requires id' _ := (frame_bindIn_flags _ _ _ _ _).1
  tags id' _ := by
    rw [(frame_bindIn_flags _ _ _ _ _).2]
    exact List.Subset.refl _
  bound id' _ := contains_bindIn
  own id' hid' hne := by
    apply find?_bindIn
    by_cases heq : id = id'
    · subst heq
      exact .inr fun hname => hne (hid hid' hname.symm)
    · exact .inl heq

/-- An assignment inside the function. -/
lemma kept_setValue (hp : Passes frames (f :: callers) name) {inner outer : ScopeRef}
    (hinner : ∀ id ∈ inner, f < id) (houter : outer = f :: callers ∨ outer = []) (name' : Str)
    (value : ValuePtr) :
    CallersKept f callers g name frames (Scope.setValue frames (inner ++ outer) name' value) := by
  by_cases hnil : inner ++ outer = []
  · rw [hnil]
    exact .of_same h.lt_length fun _ _ => rfl
  · obtain ⟨id, -, htarget, hset⟩ := exists_setValue_eq frames name' hnil
    rw [hset value]
    refine h.kept_bindIn name' value fun hcaller hname => ?_
    subst hname
    have hlt := h.callers_lt id hcaller
    obtain hin | hout := target_append htarget
    · have := hinner id hin
      omega
    · obtain rfl | rfl := houter
      · have hg : target frames (f :: callers) name' = some g :=
          target_of_passes (by rw [List.getLast?_cons, h.last]; rfl) hp
        exact Option.some.inj (hout.symm.trans hg)
      · cases hout

/-- The function changes flags of its own frame and of frames of its own. -/
lemma kept_modify {id : Nat} (hid : f ≤ id) {F : Frame → Frame}
    (hvalues : ∀ fr, (F fr).values = fr.values) (htags : ∀ fr, fr.globalTags ⊆ (F fr).globalTags)
    (hrequires : ∀ fr, fr.requireGlobal = true → (F fr).requireGlobal = true) :
    CallersKept f callers g name frames (frames.set id (F (frame frames id))) := by
  have hframe : ∀ id', frame (frames.set id (F (frame frames id))) id' = frame frames id' ∨
      id' = id ∧ frame (frames.set id (F (frame frames id))) id' = F (frame frames id') := by
    intro id'
    rw [frame_set]
    split
    · rename_i heq
      rw [← heq.1]
      exact .inr ⟨rfl, rfl⟩
    · exact .inl rfl
  refine ⟨by rw [List.length_set]; exact h.lt_length, fun id' hid' => ?_, fun id' _ => ?_, fun id' _ => ?_,
    fun id' hid' _ => ?_⟩
  · obtain heq | ⟨rfl, heq⟩ := hframe id'
    · rw [heq]
    · obtain rfl : id' = f := le_antisymm (h.mem_le hid') hid
      rw [heq, hrequires _ h.requires, h.requires]
  · obtain heq | ⟨-, heq⟩ := hframe id'
    · rw [heq]
      exact List.Subset.refl _
    · rw [heq]
      exact htags _
  · obtain heq | ⟨-, heq⟩ := hframe id'
    · rw [heq]
      exact fun h => h
    · rw [heq, hvalues]
      exact fun h => h
  · obtain heq | ⟨-, heq⟩ := hframe id'
    · rw [heq]
    · rw [heq, hvalues]

end Activation

/-! ### Computations inside the function -/

/-- The scopes inside the function: on top of its own, or those of an interpreter it has made. -/
def OnBody (f : Nat) (callers scope : ScopeRef) : Prop :=
  ∃ inner outer, scope = inner ++ outer ∧ (∀ id ∈ inner, f < id) ∧
    (outer = f :: callers ∨ outer = [])

lemma OnBody.push {scope : ScopeRef} (h : OnBody f callers scope) {id : Nat} (hid : f < id) :
    OnBody f callers (id :: scope) := by
  obtain ⟨inner, outer, rfl, hinner, houter⟩ := h
  refine ⟨id :: inner, outer, rfl, fun id' hid' => ?_, houter⟩
  obtain rfl | hid' := List.mem_cons.mp hid'
  · exact hid
  · exact hinner id' hid'

lemma onBody_of_lt {scope : ScopeRef} (h : ∀ id ∈ scope, f < id) : OnBody f callers scope :=
  ⟨scope, [], (List.append_nil _).symm, h, .inr rfl⟩

/-- The scope that an object belongs to is not a caller's. -/
lemma OnBody.head_le {scope : ScopeRef} (h : OnBody f callers scope) : ∀ id ∈ scope.head?, f ≤ id := by
  obtain ⟨inner, outer, rfl, hinner, houter⟩ := h
  intro id hid
  cases inner with
  | cons id' inner =>
    cases hid
    exact (hinner id List.mem_cons_self).le
  | nil =>
    obtain rfl | rfl := houter
    · cases hid
      exact le_refl _
    · cases hid

/-- A computation inside the function starts, on an open way to the module. -/
structure Inside (f : Nat) (callers : ScopeRef) (g : Nat) (name : Str) (s : State) : Prop where
  activation : Activation s.frames f callers g
  passes : Passes s.frames (f :: callers) name
  scope : OnBody f callers s.interp.globalScope

/-- The part of the state that the way to the module depends on. -/
def framesAndScope (s : State) : List Frame × ScopeRef := (s.frames, s.interp.globalScope)

/-- `x` keeps the frames of the callers. -/
abbrev KeepsCallers (f : Nat) (callers : ScopeRef) (g : Nat) (name : Str) (α : Type) (x : M α) : Prop :=
  Relates (fun _ s s' => Inside f callers g name s →
    CallersKept f callers g name s.frames s'.frames ∧ s'.interp.globalScope = s.interp.globalScope) α x

lemma keepsCallers_compositional : Compositional (KeepsCallers f callers g name) :=
  Relates.compositional
    (fun _ _ h => ⟨.of_same h.activation.lt_length fun _ _ => rfl, rfl⟩)
    fun h h' hs => by
      obtain ⟨hkept, hscope⟩ := h hs
      obtain ⟨hkept', hscope'⟩ := h' ⟨hkept.activation hs.activation, hkept.passes hs.passes,
        hscope ▸ hs.scope⟩
      exact ⟨hkept.trans hkept', hscope'.trans hscope⟩

lemma keepsCallers_of_finalState {α : Type} {x : M α}
    (hx : ∀ s, framesAndScope (finalState x s) = framesAndScope s) : KeepsCallers f callers g name α x := by
  intro s
  have hs := hx s
  unfold finalState resultState framesAndScope at hs
  rw [Prod.mk.injEq] at hs
  cases hxs : x s with
  | ok a s' =>
    rw [hxs] at hs
    exact fun h => ⟨.of_same (hs.1 ▸ h.activation.lt_length) fun _ _ => by rw [hs.1], hs.2⟩
  | error e s' =>
    rw [hxs] at hs
    exact fun h => ⟨.of_same (hs.1 ▸ h.activation.lt_length) fun _ _ => by rw [hs.1], hs.2⟩

lemma keepsCallers_storeAt (r : Ref) (v : Value) : KeepsCallers f callers g name _ (storeAt r v) :=
  keepsCallers_of_finalState fun s => by
    rw [finalState_storeAt]
    split <;> rfl

lemma keepsCallers_onData {α : Type} (read : Bitstream → Option α × Bitstream) :
    KeepsCallers f callers g name _ (onData read) :=
  keepsCallers_of_finalState fun s => by
    rw [finalState_onData]
    rfl

lemma keepsCallers_setValue (scope : ScopeRef) (name' : Str) (value : ValuePtr)
    (hs : OnBody f callers scope) : KeepsCallers f callers g name _ (M.setValue scope name' value) := by
  obtain ⟨inner, outer, rfl, hinner, houter⟩ := hs
  exact fun s h => ⟨h.activation.kept_setValue h.passes hinner houter name' value, rfl⟩

lemma keepsCallers_modifyScope (scope : ScopeRef) {F : Frame → Frame} (hs : OnBody f callers scope)
    (hvalues : ∀ fr, (F fr).values = fr.values) (htags : ∀ fr, fr.globalTags ⊆ (F fr).globalTags)
    (hrequires : ∀ fr, fr.requireGlobal = true → (F fr).requireGlobal = true) :
    KeepsCallers f callers g name _ (modifyScope scope F) := by
  cases scope with
  | nil => exact keepsCallers_compositional.pure ()
  | cons id parents =>
    have hid : f ≤ id := hs.head_le id rfl
    exact fun s h => ⟨h.activation.kept_modify hid hvalues htags hrequires, rfl⟩

/-- A pushed frame and what is done with it. -/
lemma Inside.leave {s s' : State} (h : Inside f callers g name s)
    (hbody : Inside f callers g name { s with frames := s.frames ++ [.empty] } →
      CallersKept f callers g name (s.frames ++ [.empty]) s'.frames ∧
        s'.interp.globalScope = s.interp.globalScope) :
    CallersKept f callers g name s.frames (s'.frames.take s.frames.length) ∧
      s'.interp.globalScope = s.interp.globalScope := by
  have hpush : CallersKept f callers g name s.frames (s.frames ++ [.empty]) :=
    h.activation.kept_append [.empty]
  obtain ⟨hkept, hscope⟩ := hbody ⟨hpush.activation h.activation, hpush.passes h.passes, h.scope⟩
  have hin : CallersKept f callers g name s.frames s'.frames := hpush.trans hkept
  exact ⟨hin.trans ((hin.activation h.activation).kept_take h.activation.lt_length), hscope⟩

lemma keepsCallers_withFrame {α : Type} {body : Nat → M α}
    (hbody : ∀ id, f < id → KeepsCallers f callers g name α (body id)) :
    KeepsCallers f callers g name α (withFrame body) := by
  intro s
  unfold withFrame
  cases hres : body s.frames.length { s with frames := s.frames ++ [.empty] } with
  | ok a s' => exact fun h => h.leave ((hbody _ h.activation.lt_length).of_ok hres)
  | error e s' => exact fun h => h.leave ((hbody _ h.activation.lt_length).of_error hres)

lemma keepsCallers_runCallee {α : Type} {writeBack : Bool} {pyint : Interp} {x : M α}
    (hscope : OnBody f callers pyint.globalScope) (hx : KeepsCallers f callers g name α x) :
    KeepsCallers f callers g name α (runCallee writeBack pyint x) := by
  have hcallee : ∀ {s}, Inside f callers g name s → Inside f callers g name (calleeState pyint s) :=
    fun h => ⟨h.activation, h.passes, hscope⟩
  exact relates_runCallee hx (fun _ s s' hs h => ⟨(hs (hcallee h)).1, rfl⟩)
    fun a s s' hs h => ⟨(hx.of_ok hs (hcallee h)).1, rfl⟩

lemma values_keepsCallers : Values (KeepsCallers f callers g name) where
  toSequential := keepsCallers_compositional.toSequential
  throw e _ := keepsCallers_compositional.throw e
  malloc := keepsCallers_of_finalState fun s => by rw [finalState_malloc]; rfl
  makeShared _ := keepsCallers_of_finalState fun _ => rfl
  load r := keepsCallers_of_finalState fun s => by rw [finalState_load]
  storeAt r v _ := keepsCallers_storeAt r v
  writeStore _ _ := keepsCallers_compositional.bind (keepsCallers_storeAt _ _) fun _ =>
    keepsCallers_of_finalState fun _ => rfl
  str r := keepsCallers_of_finalState fun s => by rw [finalState_str]
  getChain := keepsCallers_of_finalState fun _ => rfl
  checkAddress _ := keepsCallers_of_finalState fun _ => rfl
  rand := keepsCallers_of_finalState fun _ => rfl
  printProgramOutput _ := keepsCallers_of_finalState fun _ => rfl
  findModule _ := keepsCallers_of_finalState fun _ => rfl
  loadRand := loadRand_of_steps keepsCallers_compositional.toSequential
    (keepsCallers_of_finalState fun s => by rw [finalState_malloc]; rfl)
    (keepsCallers_of_finalState fun _ => rfl) fun _ => keepsCallers_of_finalState fun _ => rfl
  catchStop _ hr := relates_tryNext hr fun _ _ h => h

lemma keepsCallers_transfers (scope : ScopeRef) : KeepsCallers f callers g name _ (send scope) ∧
    KeepsCallers f callers g name _ (suicide scope) :=
  values_keepsCallers.transfers (fun _ _ => keepsCallers_of_finalState fun _ => rfl)
    (fun _ => keepsCallers_of_finalState fun _ => rfl) fun _ => keepsCallers_of_finalState fun _ => rfl

/-- Whatever runs inside the function keeps the frames of the callers. -/
lemma closedOn_keepsCallers : ClosedOn (OnBody f callers) (f < ·) (KeepsCallers f callers g name) where
  toValues := values_keepsCallers
  stuck := keepsCallers_compositional.throw _
  send scope _ := (keepsCallers_transfers scope).1
  suicide scope _ := (keepsCallers_transfers scope).2
  charge := keepsCallers_of_finalState fun s => by rw [finalState_charge]; rfl
  readWord := keepsCallers_onData _
  readString := keepsCallers_onData _
  peekType := keepsCallers_onData _
  readStub _ := keepsCallers_compositional.bind (keepsCallers_onData _) fun _ =>
    keepsCallers_compositional.bind (keepsCallers_onData _) fun _ => keepsCallers_compositional.pure _
  streamLength := keepsCallers_of_finalState fun _ => rfl
  push hid hs := hs.push hid
  root hid := onBody_of_lt fun id' hid' => by rwa [List.mem_singleton.mp hid']
  findValue _ _ _ := keepsCallers_of_finalState fun _ => rfl
  hasValue _ _ _ := keepsCallers_of_finalState fun _ => rfl
  setValue scope name' value hs := keepsCallers_setValue scope name' value hs
  setGlobalTag scope _ hs := keepsCallers_modifyScope scope hs (fun _ => rfl)
    (fun _ => List.subset_cons_self _ _) fun _ h => h
  requireGlobal scope hs := keepsCallers_modifyScope scope hs (fun _ => rfl)
    (fun _ => List.Subset.refl _) fun _ _ => rfl
  terminate scope hs := keepsCallers_modifyScope scope hs (fun _ => rfl)
    (fun _ => List.Subset.refl _) fun _ h => h
  isTerminated scope _ := keepsCallers_of_finalState fun s => by rw [finalState_isTerminated]
  withFrame hbody := keepsCallers_withFrame hbody
  record _ _ _ := keepsCallers_of_finalState fun _ => rfl
  returnTo hx := keepsCallers_compositional.bind (keepsCallers_of_finalState fun _ => rfl) fun start =>
    hx start (keepsCallers_of_finalState fun _ => rfl)
  inGlobalScope {α x} hx := by
    intro s
    by_cases hs : OnBody f callers s.interp.globalScope
    · exact hx _ hs s
    · have hvacuous : ∀ s' : State, Inside f callers g name s →
          CallersKept f callers g name s.frames s'.frames ∧
            s'.interp.globalScope = s.interp.globalScope := fun _ h => absurd h.scope hs
      split
      · exact hvacuous _
      · exact hvacuous _
  checkLimit := keepsCallers_of_finalState fun s => by
    rw [finalState_checkLimit]
    split <;> rfl
  runCallee _ _ _ _ hp _ hn _ := keepsCallers_runCallee hp
    (keepsCallers_compositional.bind hn fun _ => keepsCallers_compositional.pure _)

/-! ### The body of the function -/

/-- Each step of the body keeps the frames of the callers. -/
lemma CallersKept.of_step {frames frames' : List Frame} (ha : Activation frames f callers g)
    (hp : Passes frames (f :: callers) name) (h : BodyStep f callers frames frames') :
    CallersKept f callers g name frames frames' := by
  cases h with
  | node n ls loops s hloops hglobal =>
    have hbody : OnBody f callers (loops ++ f :: callers) := ⟨loops, _, rfl, hloops, .inl rfl⟩
    have hruns : KeepsCallers f callers g name _ (executeNext n (loops ++ f :: callers) ls) :=
      closedOn_keepsCallers.executeNext n _ ls hbody
    obtain ⟨-, hkeeps⟩ := hruns.exists_exn s
    exact (hkeeps ⟨ha, hp, onBody_of_lt hglobal⟩).1
  | bind _ loops name' value hloops => exact ha.kept_setValue hp hloops (.inl rfl) name' value
  | enter => exact ha.kept_append _
  | leave _ k hk => exact ha.kept_take hk

/-- The body keeps the frames of the callers. -/
lemma CallersKept.of_run {frames frames' : List Frame} (ha : Activation frames f callers g)
    (hp : Passes frames (f :: callers) name) (h : BodyRuns f callers frames frames') :
    CallersKept f callers g name frames frames' := by
  induction h with
  | refl => exact .of_same ha.lt_length fun _ _ => rfl
  | tail _ hstep ih => exact ih.trans (.of_step (ih.activation ha) (ih.passes hp) hstep)

/-- An assignment on an open way is written to the module. -/
lemma writesModule_of_passes {frames : List Frame} {scope : ScopeRef}
    (hlast : scope.getLast? = some g) (hg : g < frames.length) (hp : Passes frames scope name) :
    WritesModule frames scope g name := by
  have hset := setValue_eq_bindIn (target_of_passes hlast hp)
  refine ⟨hset, fun value inner hinner => ?_⟩
  have hunbound : ∀ id ∈ inner, (frame (bindIn frames g name value) id).values.find? name = none := by
    intro id hid
    obtain ⟨hne, hnone⟩ := hinner id hid
    rw [find?_bindIn _ _ _ _ _ _ (.inl hne.symm), hnone]
  rw [hset value, findValue_append hunbound, Scope.findValue, frame_bindIn_self _ _ hg]
  simp

/-- What is written to the module has gone through all frames. -/
lemma passes_of_writesModule {frames : List Frame} {scope : ScopeRef} (hnodup : scope.Nodup)
    (hlast : scope.getLast? = some g) (hrange : ∀ id ∈ scope, id < frames.length)
    (h : WritesModule frames scope g name) : Passes frames scope name := by
  have hne : scope ≠ [] := by
    rintro rfl
    cases hlast
  obtain ⟨id, hid, htarget, hset⟩ := exists_setValue_eq frames name hne
  by_cases heq : id = g
  · exact passes_of_target hnodup hlast (heq ▸ htarget)
  · -- a value the frame does not have yet would be bound there
    exfalso
    obtain ⟨value, hvalue⟩ : ∃ value, (frame frames id).values.find? name ≠ some value :=
      ⟨if (frame frames id).values.find? name = some none then some 0 else none, by split <;> simp_all⟩
    have hboth : bindIn frames id name value = bindIn frames g name value := by
      rw [← hset, h.sets]
    have hfound : (frame (bindIn frames id name value) id).values.find? name = some value := by
      rw [frame_bindIn_self _ _ (hrange id hid)]
      exact SortedMap.find?_insert_self _ _ _
    rw [hboth, find?_bindIn _ _ _ _ _ _ (.inl fun hgid => heq hgid.symm)] at hfound
    exact hvalue hfound

/-- The bodies of loops hand assignments to a known name on. -/
lemma passes_loops {frames : List Frame} {loops : ScopeRef} (hloops : LoopScope frames f loops)
    {outer : ScopeRef} (hne : outer ≠ []) (hv : Scope.hasValue frames outer name = true)
    (hp : Passes frames outer name) : Passes frames (loops ++ outer) name := by
  obtain ⟨-, hloops⟩ := hloops
  induction loops with
  | nil => exact hp
  | cons id loops ih =>
    have hrest : Passes frames (loops ++ outer) name :=
      ih fun id' hid' => hloops id' (List.mem_cons_of_mem _ hid')
    have hnil : loops ++ outer ≠ [] := List.append_ne_nil_of_right_ne_nil _ hne
    obtain ⟨-, -, hloop⟩ := hloops id List.mem_cons_self
    refine (passes_loop hloop hnil).mpr ⟨?_, hrest⟩
    obtain ⟨id', hid', hcontains⟩ := hasValue_iff.mp hv
    exact hasValue_iff.mpr ⟨id', List.mem_append_right _ hid', hcontains⟩

/-- A module that binds `x` has called a function that has declared it. -/
def calledDirectly : List Frame :=
  [{ Frame.empty with values := SortedMap.empty.insert (lit "x") (some 0) },
    { Frame.empty with globalTags := [lit "x"], requireGlobal := true }]

/-- `set` has declared `x` and assigns to it; `default` calls it. -/
def setThroughCaller : List UInt8 :=
  moduleCode [
    defStmt "set" [.global [lit "x"],
      .assign (.ofExprs [.name (lit "x")]) (.number (.integer 7))],
    defStmt "default" [.expressionStatement (callExpr "set" [])]]

/-- The run of `default` from outside. -/
def runThroughCaller : State := finalState (runProgram 30 []) (startState setThroughCaller 1000)

end ContractPython.Proofs
