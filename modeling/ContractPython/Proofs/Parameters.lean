import ContractPython.Proofs.Definitions
import Mathlib.Data.List.Nodup

/-!
# Calls and their parameters

A call of a VM function binds the defaults first and the arguments over them, in a frame of its own,
and then evaluates the body there. The definition of a function with a default throws: the default is
evaluated in the global scope of the interpreter, where the top-level check refuses every literal.
-/

namespace ContractPython.Proofs

open Program Compiler Scope M Bytes

/-! ### Outcomes of calls -/

section Outcomes

variable {α β : Type} {x : M α} {f : α → M β} {s s' t : State} {a : α}

/-- An exception comes out. -/
def Throws (x : M α) (s : State) : Prop := ∃ e s', x s = .error e s'

lemma throws_bind (h : ∀ a s', x s = .ok a s' → Throws (f a) s') : Throws (x >>= f) s := by
  cases hx : x s with
  | ok a s' =>
    obtain ⟨e, s'', hf⟩ := h a s' hx
    exact ⟨e, s'', (bind_of_ok hx).trans hf⟩
  | error e s' => exact ⟨e, s', bind_of_error hx⟩

lemma throws_bind_of_throws (h : Throws x s) : Throws (x >>= f) s := by
  obtain ⟨e, s', hx⟩ := h
  exact ⟨e, s', bind_of_error hx⟩

lemma throws_withFrame {g : Nat → M α} (h : ∀ id s', Throws (g id) s') : Throws (withFrame g) s := by
  obtain ⟨e, s', hg⟩ := h s.frames.length { s with frames := s.frames ++ [.empty] }
  unfold Throws withFrame
  rw [hg]
  exact ⟨e, _, rfl⟩

/-- What comes out of `x` is what comes out of `body`, started in `t`. -/
def HandsOn (x : M α) (s : State) (body : M α) (t : State) : Prop :=
  (∀ a t', body t = .ok a t' → ∃ s', x s = .ok a s') ∧
    ∀ e t', body t = .error e t' → ∃ s', x s = .error e s'

lemma handsOn_bind {body : M β} (hx : x s = .ok a s') (h : HandsOn (f a) s' body t) :
    HandsOn (x >>= f) s body t := by
  unfold HandsOn
  rw [bind_of_ok hx]
  exact h

lemma handsOn_withFrame {g : Nat → M α} {body : M α}
    (h : HandsOn (g s.frames.length) { s with frames := s.frames ++ [.empty] } body t) :
    HandsOn (withFrame g) s body t := by
  refine ⟨fun a t' ht => ?_, fun e t' ht => ?_⟩
  · obtain ⟨s', hs'⟩ := h.1 a t' ht
    unfold withFrame
    rw [hs']
    exact ⟨_, rfl⟩
  · obtain ⟨s', hs'⟩ := h.2 e t' ht
    unfold withFrame
    rw [hs']
    exact ⟨_, rfl⟩

lemma handsOn_runCallee (writeBack : Bool) (pyint : Interp) (body : M α) (s : State) :
    HandsOn (runCallee writeBack pyint body) s body (calleeState pyint s) := by
  refine ⟨fun a t' ht => ?_, fun e t' ht => ?_⟩
  · unfold runCallee
    rw [ht]
    exact ⟨_, rfl⟩
  · unfold runCallee
    rw [ht]
    exact ⟨_, rfl⟩

end Outcomes

/-! ### The frame of a call -/

/-- The frame of a call with its bindings. -/
def callFrame (values : SortedMap Str ValuePtr) : Frame := { Frame.empty with values, requireGlobal := true }

/-- The frame `id` is the frame of a call with these bindings. -/
structure InFrame (id : Nat) (values : SortedMap Str ValuePtr) (s : State) : Prop where
  lt_length : id < s.frames.length
  frame_eq : frame s.frames id = callFrame values

section CallFrame

variable {id : Nat} {values : SortedMap Str ValuePtr} {s : State}

/-- The frame of a call takes every binding itself. -/
lemma setValue_inFrame (h : InFrame id values s) (parents : ScopeRef) (name : Str) (v : ValuePtr) :
    ∃ s', M.setValue (id :: parents) name v s = .ok () s' ∧ InFrame id (values.insert name v) s' ∧
      s'.interp = s.interp := by
  have hset : Scope.setValue s.frames (id :: parents) name v = bindIn s.frames id name v := by
    rw [setValue_cons, if_neg]
    simp [passesOn, h.frame_eq, callFrame, Frame.empty]
  refine ⟨_, rfl, ⟨?_, ?_⟩, rfl⟩
  · rw [length_setValue]
    exact h.lt_length
  · rw [hset, frame_bindIn_self _ _ h.lt_length, h.frame_eq]
    rfl

lemma bindArguments_inFrame (h : InFrame id values s) (parents : ScopeRef) (pairs : List (Str × ValuePtr)) :
    ∃ s', bindArguments (id :: parents) pairs s = .ok () s' ∧ InFrame id (values.insertAll pairs) s' ∧
      s'.interp = s.interp := by
  induction pairs generalizing values s with
  | nil => exact ⟨s, rfl, h, rfl⟩
  | cons pair pairs ih =>
    obtain ⟨s₁, h₁, hframe, hinterp⟩ := setValue_inFrame h parents pair.1 pair.2
    obtain ⟨s₂, h₂, hframe', hinterp'⟩ := ih hframe
    exact ⟨s₂, (bind_of_ok h₁).trans h₂, hframe', hinterp'.trans hinterp⟩

/-- The parameters with a default. -/
def optionals (pairs : List (Str × ValuePtr)) : List (Str × ValuePtr) := pairs.filter (·.2.isSome)

/-- How many parameters must be given. -/
def minimum (pairs : List (Str × ValuePtr)) : Nat := pairs.countP (·.2.isNone)

lemma minimum_cons_none (name : Str) (pairs : List (Str × ValuePtr)) :
    minimum ((name, none) :: pairs) = minimum pairs + 1 := List.countP_cons_of_pos rfl

lemma bindDefaults_inFrame (h : InFrame id values s) (parents : ScopeRef) (pairs : List (Str × ValuePtr)) :
    ∃ s', bindDefaults (id :: parents) pairs s = .ok (minimum pairs) s' ∧
      InFrame id (values.insertAll (optionals pairs)) s' ∧ s'.interp = s.interp := by
  induction pairs generalizing values s with
  | nil => exact ⟨s, rfl, h, rfl⟩
  | cons pair pairs ih =>
    obtain ⟨name, default⟩ := pair
    cases default with
    | none =>
      obtain ⟨s₁, h₁, hframe, hinterp⟩ := ih h
      rw [minimum_cons_none]
      exact ⟨s₁, bind_of_ok h₁, hframe, hinterp⟩
    | some r =>
      obtain ⟨s₁, h₁, hframe, hinterp⟩ := setValue_inFrame h parents name (some r)
      obtain ⟨s₂, h₂, hframe', hinterp'⟩ := ih hframe
      exact ⟨s₂, (bind_of_ok h₁).trans h₂, hframe', hinterp'.trans hinterp⟩

/-- The count does not depend on where the defaults are bound. -/
lemma bindDefaults_eq_ok {scope : ScopeRef} {pairs : List (Str × ValuePtr)} {count : Nat} {s s' : State}
    (h : bindDefaults scope pairs s = .ok count s') : count = minimum pairs := by
  induction pairs generalizing count s s' with
  | nil =>
    cases h
    rfl
  | cons pair pairs ih =>
    obtain ⟨name, default⟩ := pair
    cases default with
    | none =>
      obtain ⟨count', s₁, h₁, hrest⟩ := bind_eq_ok.mp h
      cases hrest
      rw [minimum_cons_none, ih h₁]
    | some r =>
      obtain ⟨-, s₁, -, hrest⟩ := bind_eq_ok.mp h
      exact ih hrest

end CallFrame

/-! ### Calls -/

section Calls

variable {rec : Rec} {writeBack : Bool} {code : List UInt8} {params : List Str}
  {defaults args : List ValuePtr} {scope : ScopeRef} {t : State}

/-- With a wrong number of arguments every call throws. -/
lemma throws_callVMFunction (h : params.length < args.length ∨ args.length < minimum (params.zip defaults)) :
    Throws (callVMFunction rec writeBack code params defaults args scope) t := by
  unfold callVMFunction withScope
  split
  · exact ⟨_, _, rfl⟩
  · refine throws_withFrame fun id s => ?_
    refine throws_bind fun _ s₁ _ => ?_
    refine throws_bind fun _ s₂ _ => ?_
    refine throws_withFrame fun id' s₃ => ?_
    refine throws_bind fun store s₄ _ => ?_
    refine throws_bind fun _ s₅ _ => ?_
    refine throws_bind fun _ s₆ _ => ?_
    by_cases hmax : params.length < args.length
    · have hthrows : ∀ what s, Throws (throwIf (decide (params.length < args.length)) what) s := by
        intro what s
        rw [decide_eq_true hmax]
        exact ⟨_, _, rfl⟩
      exact throws_bind_of_throws (hthrows _ _)
    · refine throws_bind fun _ s₇ _ => throws_bind fun count s₈ hcount => ?_
      have hmin := h.resolve_left hmax
      rw [← bindDefaults_eq_ok hcount] at hmin
      have hthrows : ∀ what s, Throws (throwIf (decide (args.length < count)) what) s := by
        intro what s
        rw [decide_eq_true hmin]
        exact ⟨_, _, rfl⟩
      exact throws_bind_of_throws (hthrows _ _)

/-- The bindings of a call. -/
def bindings (params : List Str) (defaults args : List ValuePtr) : SortedMap Str ValuePtr :=
  (SortedMap.empty.insertAll (optionals (params.zip defaults))).insertAll (params.zip args)

/-- The frame of a call is new. -/
lemma requireGlobal_inFrame (scope : ScopeRef) (t : State) :
    ∃ s', requireGlobal (t.frames.length :: scope) { t with frames := t.frames ++ [.empty] } = .ok () s' ∧
      InFrame t.frames.length .empty s' ∧ s'.interp = t.interp ∧ s'.memory = t.memory := by
  have hlt : t.frames.length < (t.frames ++ [Frame.empty]).length := by simp
  have hempty : frame (t.frames ++ [.empty]) t.frames.length = .empty := by simp [frame]
  refine ⟨_, rfl, ⟨?_, ?_⟩, rfl, rfl⟩
  · rw [List.length_set]
    exact hlt
  · rw [frame_set_self _ hlt, hempty]
    rfl

/-- The callee's interpreter reads the code of the function. -/
lemma withInterpreter_inFrame {α : Type} {id : Nat} {values : SortedMap Str ValuePtr} {s : State}
    (code : List UInt8) (h : InFrame id values s) (hmem : MemoryLeft s) :
    ∃ pyint s', pyint.data = Bitstream.ofBytes code ∧ InFrame id values s' ∧ s'.interp = s.interp ∧
      ∀ (body : Interp → M α) x t, HandsOn (body pyint) s' x t → HandsOn (withInterpreter code body) s x t := by
  have hmalloc : malloc s = .ok () { s with memory := { s.memory with requests := s.memory.requests + 1 } } := by
    unfold malloc
    exact if_pos hmem
  have hlt : id < (s.frames ++ [Frame.empty]).length := by
    have := h.lt_length
    rw [List.length_append]
    omega
  have hset : ∀ v, frame (Scope.setValue (s.frames ++ [.empty]) [s.frames.length] (lit "store") v) id =
      callFrame values := by
    intro v
    rw [setValue_cons, if_neg (by simp [passesOn]), frame_bindIn_of_ne _ _ (Nat.ne_of_gt h.lt_length),
      frame_append _ h.lt_length, h.frame_eq]
  refine ⟨_, _, ?_, ?_, ?_, fun body x t hbody => handsOn_bind hmalloc (handsOn_withFrame
    (handsOn_bind rfl (handsOn_bind rfl hbody)))⟩
  · rfl
  · refine ⟨?_, hset _⟩
    rw [length_setValue]
    exact hlt
  · rfl

/-- A call with a right number of arguments runs the body with these bindings. -/
lemma callVMFunction_handsOn (code : List UInt8) (hmax : args.length ≤ params.length)
    (hmin : minimum (params.zip defaults) ≤ args.length) (hdepth : scope.length < 128) (hmem : MemoryLeft t)
    (hlimit : 0 < t.interp.executionStepLimit.toNat) :
    ∃ t', t'.interp.data = Bitstream.ofBytes code ∧
      InFrame t.frames.length (bindings params defaults args) t' ∧
      ∀ rec writeBack, HandsOn (callVMFunction rec writeBack code params defaults args scope) t
        (evaluate rec (t.frames.length :: scope)) t' := by
  obtain ⟨s₁, h₁, hframe₁, hinterp₁, hmem₁⟩ := requireGlobal_inFrame scope t
  have hleft : MemoryLeft s₁ := by
    unfold MemoryLeft
    rw [hmem₁]
    exact hmem
  obtain ⟨pyint, s₂, hdata, hframe₂, hinterp₂, hrest⟩ :=
    withInterpreter_inFrame (α := ValuePtr) code hframe₁ hleft
  have hcheck : checkLimit s₂ = .ok () { s₂ with log := .functionCalled :: s₂.log } := by
    unfold checkLimit
    rw [if_neg]
    rw [hinterp₂, hinterp₁]
    rintro hzero
    rw [hzero] at hlimit
    exact absurd hlimit (by decide)
  have hframe₃ : InFrame t.frames.length .empty { s₂ with log := .functionCalled :: s₂.log } :=
    ⟨hframe₂.lt_length, hframe₂.frame_eq⟩
  obtain ⟨s₄, h₄, hframe₄, -⟩ := bindDefaults_inFrame hframe₃ scope (params.zip defaults)
  obtain ⟨s₅, h₅, hframe₅, -⟩ := bindArguments_inFrame hframe₄ scope (params.zip args)
  have hno : ∀ (what : Str) (s : State), throwIf false what s = .ok () s := fun _ _ => rfl
  refine ⟨calleeState pyint s₅, hdata, ⟨hframe₅.lt_length, hframe₅.frame_eq⟩, fun rec writeBack => ?_⟩
  unfold callVMFunction withScope
  rw [if_neg (Nat.not_le.mpr hdepth)]
  refine handsOn_withFrame (handsOn_bind h₁ (hrest _ _ _ ?_))
  refine handsOn_bind hcheck ?_
  rw [decide_eq_false (Nat.not_lt.mpr hmax)]
  refine handsOn_bind (hno _ _) (handsOn_bind h₄ ?_)
  rw [decide_eq_false (Nat.not_lt.mpr hmin)]
  refine handsOn_bind (hno _ _) (handsOn_bind h₅ ?_)
  exact handsOn_runCallee writeBack pyint _ s₅

end Calls

/-! ### The bindings of a call -/

section Bindings

variable {params : List Str} {defaults args : List ValuePtr}

/-- The keys of paired values are the first names. -/
lemma keys_zip (params : List Str) (vs : List ValuePtr) : (params.zip vs).map Prod.fst <+: params := by
  induction params generalizing vs with
  | nil => exact List.prefix_rfl
  | cons p params ih =>
    cases vs with
    | nil => exact List.nil_prefix
    | cons v vs => exact List.cons_prefix_cons.mpr ⟨rfl, ih vs⟩

/-- Parameters of different names hold their arguments, or their defaults behind the arguments. -/
lemma find?_bindings (hnodup : params.Nodup) (hgiven : ∀ i, args.length ≤ i → defaults[i]? ≠ some none)
    (hlen : defaults.length = params.length) {i : Nat} {p : Str} (hp : params[i]? = some p) :
    (bindings params defaults args).find? p = if i < args.length then args[i]? else defaults[i]? := by
  have hi : i < params.length := (List.getElem?_eq_some_iff.mp hp).1
  unfold bindings
  split
  · rename_i hlt
    have hv := List.getElem?_eq_getElem hlt
    have hmem := List.mem_of_getElem? (List.getElem?_zip_eq_some (z := (p, args[i])).mpr ⟨hp, hv⟩)
    rw [SortedMap.find?_insertAll_of_mem (hnodup.sublist (keys_zip _ _).sublist) hmem, hv]
  · rename_i hge
    have hnot : p ∉ (params.zip args).map Prod.fst := by
      rintro hkey
      obtain ⟨⟨p', v⟩, hpair, rfl⟩ := List.mem_map.mp hkey
      obtain ⟨j, hj⟩ := List.getElem?_of_mem hpair
      obtain ⟨hpj, hvj⟩ := List.getElem?_zip_eq_some.mp hj
      have hsame : i = j := (List.getElem?_inj hi hnodup).mp (hp.trans hpj.symm)
      have hlt := (List.getElem?_eq_some_iff.mp hvj).1
      omega
    have hv := List.getElem?_eq_getElem (hlen ▸ hi)
    have hsome : defaults[i].isSome = true := by
      rw [Option.isSome_iff_ne_none]
      intro hnone
      exact hgiven i (Nat.not_lt.mp hge) (hv.trans (congrArg some hnone))
    have hpair := List.mem_of_getElem? (List.getElem?_zip_eq_some (z := (p, defaults[i])).mpr ⟨hp, hv⟩)
    have hmem : (p, defaults[i]) ∈ optionals (params.zip defaults) := List.mem_filter.mpr ⟨hpair, hsome⟩
    have hkeys : ((optionals (params.zip defaults)).map Prod.fst).Nodup :=
      (hnodup.sublist (keys_zip _ _).sublist).sublist ((List.filter_sublist).map _)
    rw [SortedMap.find?_insertAll_of_notMem hnot, SortedMap.find?_insertAll_of_mem hkeys hmem, hv]

/-- Exactly the parameters without a default must be given. -/
lemma minimum_zip {m : Nat} {refs : List Ref} (hlen : m + refs.length = params.length) :
    minimum (params.zip (List.replicate m none ++ refs.map some)) = m := by
  have hsnd : (params.zip (List.replicate m none ++ refs.map some)).map Prod.snd =
      List.replicate m none ++ refs.map some := List.map_snd_zip (by simp; omega)
  have hcount : minimum (params.zip (List.replicate m none ++ refs.map some)) =
      (List.replicate m none ++ refs.map some).countP Option.isNone := by
    conv_rhs => rw [← hsnd, List.countP_map]
    rfl
  rw [hcount, List.countP_append, List.countP_replicate, List.countP_map]
  simp

end Bindings

/-! ### Literals at the top level -/

section TopLevel

variable {n : Nat} {s : State} {rest : List UInt8}

lemma bytes_literal (l : Literal) : ∃ text, bytes l.ast = typeBytes l.type ++ text := by
  cases l
  · exact ⟨_, rfl⟩
  · exact ⟨_, rfl⟩

/-- The top-level check refuses a literal. -/
lemma throws_evaluate_literal (l : Literal) {scope : ScopeRef} (hscope : Scope.depth scope = 0)
    (hs : Placed (bytes l.ast ++ rest) s) (hgas : Affords 1 s) :
    Throws (evaluate (executeNext (n + 1)) scope) s := by
  have hknown : ∀ c, l.type ≠ .unknown c := by
    intro c h
    cases l <;> cases h
  obtain ⟨text, htext⟩ := bytes_literal l
  rw [htext, List.append_assoc] at hs
  have hgas' : Affords (1 + 0) s := hgas
  obtain ⟨hcharge, hs₁, -⟩ := charge_placed hs hgas'
  obtain ⟨hread, -⟩ := readType_placed hknown hs₁
  have hcheck : ∀ t, Throws (checkTopLevel scope .none l.type) t := by
    intro t
    unfold checkTopLevel
    rw [hscope]
    cases l <;> exact ⟨_, _, rfl⟩
  have hpos : pos (advance 0 1 s) = .ok s.interp.data.pos (advance 0 1 s) := rfl
  obtain ⟨e, s', herror⟩ := hcheck (advance 4 0 (advance 0 1 s))
  have hexec : executeNext (n + 1) scope .none s = .error e s' := by
    show (do charge; executeCharged (executeNext n) scope n .none) s = _
    rw [bind_of_ok hcharge]
    unfold executeCharged
    rw [bind_of_ok hpos, bind_of_ok hread, bind_of_error herror]
  exact ⟨e, s', bind_of_error hexec⟩

/-- A default that is a literal is not evaluated. -/
lemma throws_defaultStep (l : Literal) (acc : List ValuePtr × Bool)
    (hglobal : Scope.depth s.interp.globalScope = 0) (hs : Placed (bytes l.ast ++ rest) s)
    (hgas : Affords 2 s) : Throws (defaultStep (executeNext (n + 1)) acc) s := by
  have hgas' : Affords (1 + 1) s := hgas
  obtain ⟨hcharge, hs₁, hgas₁⟩ := charge_placed hs hgas'
  have hscope : globalScope (advance 0 1 s) = .ok s.interp.globalScope (advance 0 1 s) := rfl
  obtain ⟨e, s', herror⟩ := throws_evaluate_literal (n := n) l hglobal hs₁ hgas₁
  refine ⟨e, s', ?_⟩
  unfold defaultStep
  rw [bind_of_ok hcharge, bind_of_ok hscope, bind_of_error herror]

/-- A definition with a default throws. -/
lemma throws_executeNext_functionDef (f : Definition) (hdefault : f.literals ≠ []) (n : Nat) (scope : ScopeRef)
    (ls : LoopState) (hglobal : Scope.depth s.interp.globalScope = 0) (hs : Placed (f.segment ++ rest) s)
    (hgas : Affords (1 + 3 * f.params.length) s) : Throws (executeNext (n + 2) scope ls) s := by
  obtain ⟨l, ls', hliterals⟩ := List.exists_cons_of_ne_nil hdefault
  have htrailing := f.trailing
  have hcount : f.params.length = f.mandatory + (ls'.length + 1) := by
    rw [Definition.mandatory, hliterals] at *
    simp only [List.length_cons] at *
    omega
  have hdefaults : f.defaults = List.replicate f.mandatory .nullExpr ++ l.ast :: ls'.map Literal.ast := by
    rw [Definition.defaults, hliterals]
    rfl
  obtain ⟨s₁, h₁, q₁, hs₁, hgas₁⟩ :=
    execFunctionDef_header f (executeNext (n + 1)) scope ls (3 * f.params.length) hs hgas
  obtain ⟨s₂, h₂, q₂, hs₂, hgas₂⟩ :=
    readFunctionStub_header f (executeNext (n + 1)) (2 * f.params.length) hs₁ (hgas₁.mono (by omega))
  rw [hdefaults, List.flatMap_append, List.flatMap_cons] at hs₂
  simp only [List.append_assoc] at hs₂
  obtain ⟨s₃, h₃, q₃, hs₃, hgas₃⟩ := (returns_nulls n f.mandatory).run 2 hs₂ (hgas₂.mono (by omega))
  have hsame : s₃.interp.globalScope = s.interp.globalScope := by
    rw [q₃.interp_eq, q₂.interp_eq, q₁.interp_eq]
  have hstep : Throws (defaultStep (executeNext (n + 1)) (List.replicate f.mandatory none, false)) s₃ :=
    throws_defaultStep l _ (hsame ▸ hglobal) hs₃ hgas₃
  have hloop : Throws (iterateM f.params.length (defaultStep (executeNext (n + 1))) ([], false)) s₂ := by
    unfold Throws
    rw [hcount, iterateM_of_ok h₃]
    exact throws_bind_of_throws hstep
  have hstub : Throws (readFunctionStub (executeNext (n + 1))) s₁ := by
    unfold Throws
    rw [h₂]
    exact throws_bind_of_throws hloop
  have hexec : Throws (execFunctionDef (executeNext (n + 1)) scope) (atSwitch .functionDef ls scope s) := by
    unfold Throws
    rw [h₁]
    exact throws_bind_of_throws hstub
  unfold Throws
  rw [executeNext_functionDef_eq f (n + 1) scope ls hs (hgas.mono (by omega))]
  exact throws_bind_of_throws (throws_bind_of_throws hexec)

end TopLevel

/-! ### Parameters -/

/-- Where a parameter has no default the list holds a null pointer, behind them the literals. -/
def DefaultsOf (f : Definition) (defaults : List ValuePtr) (s : State) : Prop :=
  ∃ refs, defaults = List.replicate f.mandatory none ++ refs.map some ∧
    List.Forall₂ (fun r (l : Literal) => s.heap[r]? = some l.value) refs f.literals

/-- A call of the function `callable` with the arguments `args` throws exactly for a wrong number of
arguments, and otherwise runs the body where each parameter is its argument or its default. -/
structure CallBinds (f : Definition) (defaults args : List ValuePtr) (callable : Ref) (caller : ScopeRef)
    (t : State) : Prop where
  wrong : f.params.length < args.length ∨ args.length < f.mandatory →
    ∀ n writeBack, Throws (call (executeNext n) writeBack callable args caller) t
  right : args.length ≤ f.params.length → f.mandatory ≤ args.length → ∃ t',
    t'.interp.data = Bitstream.ofBytes (bytes f.body) ∧
    (∀ i p, f.params[i]? = some p → (frame t'.frames t.frames.length).values.find? p =
      if i < args.length then args[i]? else defaults[i]?) ∧
    ∀ n writeBack, HandsOn (call (executeNext n) writeBack callable args caller) t
      (evaluate (executeNext n) (t.frames.length :: caller)) t'

/-- The call has a limit, memory and scopes left. -/
def Callable (caller : ScopeRef) (t : State) : Prop :=
  0 < t.interp.executionStepLimit.toNat ∧ MemoryLeft t ∧ caller.length < 128

/-- Executing the definition succeeds, and every call of the function binds its parameters. -/
def BindsParameters (f : Definition) (n : Nat) (scope : ScopeRef) (ls : LoopState) (s : State) : Prop :=
  ∃ s' defaults, executeNext (n + 2) scope ls s = .ok (none, ls) s' ∧
    Defines f (.vmFunction (bytes f.body) f.params defaults) scope s s' ∧ DefaultsOf f defaults s' ∧
    ∀ args callable caller t, t.heap[callable]? = some (.vmFunction (bytes f.body) f.params defaults) →
      Callable caller t → CallBinds f defaults args callable caller t

lemma callBinds (f : Definition) (hnodup : f.params.Nodup) {refs : List Ref} (hrefs : refs.length = f.literals.length)
    {args : List ValuePtr} {callable : Ref} {caller : ScopeRef} {t : State}
    (hf : t.heap[callable]? = some (.vmFunction (bytes f.body) f.params
      (List.replicate f.mandatory none ++ refs.map some)))
    (hcallable : Callable caller t) :
    CallBinds f (List.replicate f.mandatory none ++ refs.map some) args callable caller t := by
  have htrailing := f.trailing
  have hlen : f.mandatory + refs.length = f.params.length := by
    unfold Definition.mandatory
    omega
  have hmin : minimum (f.params.zip (List.replicate f.mandatory none ++ refs.map some)) = f.mandatory :=
    minimum_zip hlen
  have hcall : ∀ rec writeBack, call rec writeBack callable args caller t =
      callVMFunction rec writeBack (bytes f.body) f.params (List.replicate f.mandatory none ++ refs.map some)
        args caller t := fun rec writeBack => bind_of_ok (load_of_heap hf)
  constructor
  · intro h n writeBack
    unfold Throws
    rw [hcall]
    exact throws_callVMFunction (hmin.symm ▸ h)
  · intro hmax hgiven
    obtain ⟨hlimit, hmem, hdepth⟩ := hcallable
    obtain ⟨t', hdata, hframe, hbody⟩ :=
      callVMFunction_handsOn (bytes f.body) hmax (hmin.le.trans hgiven) hdepth hmem hlimit
    refine ⟨t', hdata, fun i p hp => ?_, fun n writeBack => ?_⟩
    · rw [hframe.frame_eq]
      refine find?_bindings hnodup (fun j hj hnone => ?_) (by simp [hlen]) hp
      rw [List.getElem?_append_right (by simp; omega)] at hnone
      obtain ⟨r, -, hr⟩ := List.mem_map.mp (List.mem_of_getElem? hnone)
      cases hr
    · unfold HandsOn
      rw [hcall]
      exact hbody _ writeBack

/-- Calls with different arguments tell parameters of one name from each other. -/
lemma nodup_of_callBinds (f : Definition) (hplain : f.literals = []) {defaults : List ValuePtr}
    (h : ∀ t, t.heap[0]? = some (.vmFunction (bytes f.body) f.params defaults) → Callable [] t →
      CallBinds f defaults ((List.range f.params.length).map some) 0 [] t) : f.params.Nodup := by
  have hmandatory : f.mandatory = f.params.length := by
    simp [Definition.mandatory, hplain]
  have hlen : ((List.range f.params.length).map some).length = f.params.length := by simp
  have hcallable : Callable [] { startState [] 1 with heap := [.vmFunction (bytes f.body) f.params defaults] } :=
    ⟨(by decide : 0 < (1 : UInt32).toNat), rfl, by decide⟩
  obtain ⟨-, hright⟩ := h _ rfl hcallable
  obtain ⟨t', -, hfind, -⟩ := hright hlen.le (hmandatory.trans hlen.symm).le
  have harg : ∀ i < f.params.length, ((List.range f.params.length).map some)[i]? = some (some i) := by
    intro i hi
    rw [List.getElem?_map, List.getElem?_range hi]
    rfl
  rw [List.nodup_iff_getElem?_ne_getElem?]
  intro i j hij hj hsame
  have hpj := List.getElem?_eq_getElem hj
  have hvi := hfind i _ (hsame.trans hpj)
  have hvj := hfind j _ hpj
  rw [if_pos (by omega), harg i (by omega)] at hvi
  rw [if_pos (by omega), harg j hj] at hvj
  have hboth := hvi.symm.trans hvj
  simp only [Option.some.injEq] at hboth
  omega

/-- `def inner(b, c=3): pass`. -/
def defaultDef : Definition := { innerDef with literals := [.integer 3], trailing := by decide }

end ContractPython.Proofs
