import ContractPython.Proofs.Effects
import ContractPython.Proofs.Fixed
import Mathlib.Data.List.Perm.Subperm

/-!
# The top level

At scope depth 0 the whitelist lets an operand be nothing but a name brought in by an `import`:
an `Alias` node, whose object is not callable, not iterable, no key and no number. The state
`IgnoreAll` of an import lifts the whitelist for one node, not for its operands. All that is left
is a `WhileLoop`, which takes an alias for true and executes its body one scope deeper.
-/

namespace ContractPython.Proofs

open Program M

/-! ### What may happen at the top level -/

/-- A node executed below the top level. -/
def isDeeper : Event → Bool
  | .nodeEntered _ _ depth => decide (0 < depth)
  | _ => false

/-- Between two states, a node was executed below the top level. -/
def Deeper (s s' : State) : Prop := s.log.countP isDeeper < s'.log.countP isDeeper

/-- The changes an execution at the top level makes: it binds names in the frame `g` and makes
objects. Containers are filled when they are made. -/
structure Binds (g : Nat) (s s' : State) : Prop where
  chain_eq : s'.chain = s.chain
  rand_eq : s'.rand = s.rand
  stdout_eq : s'.stdoutBuffer = s.stdoutBuffer
  objects : ∀ (r : Ref) (v : Value), s.heap[r]? = some v → Value.isContainer v = false →
    s'.heap[r]? = some v
  frames_length : s'.frames.length = s.frames.length
  frames : ∀ id, id ≠ g → s'.frames[id]? = s.frames[id]?

lemma Binds.refl (g : Nat) (s : State) : Binds g s s :=
  ⟨rfl, rfl, rfl, fun _ _ h _ => h, rfl, fun _ _ => rfl⟩

lemma Binds.trans {g : Nat} {s₁ s₂ s₃ : State} (h : Binds g s₁ s₂) (h' : Binds g s₂ s₃) :
    Binds g s₁ s₃ where
  chain_eq := h'.chain_eq.trans h.chain_eq
  rand_eq := h'.rand_eq.trans h.rand_eq
  stdout_eq := h'.stdout_eq.trans h.stdout_eq
  objects r v hr hv := h'.objects r v (h.objects r v hr hv) hv
  frames_length := h'.frames_length.trans h.frames_length
  frames id hid := (h'.frames id hid).trans (h.frames id hid)

/-- No object is an iterator. -/
def NoIterator (s : State) : Prop := ∀ v ∈ s.heap, v.isGenerator = false

/-- A value at the top level: nothing, or an alias. -/
def Named (s : State) (p : ValuePtr) : Prop :=
  ∀ r, p = some r → ∃ name asName, s.heap[r]? = some (.alias name asName)

lemma Named.step {g : Nat} {s s' : State} {p : ValuePtr} (h : Named s p) (hstep : Binds g s s') :
    Named s' p := by
  intro r hr
  obtain ⟨name, asName, halias⟩ := h r hr
  exact ⟨name, asName, hstep.objects r _ halias rfl⟩

/-- A step at the top level, from where the values `known` are aliases. -/
structure TopStep (g : Nat) (known : List ValuePtr) (s s' : State) : Prop where
  scope_eq : s.interp.globalScope = [g] → s'.interp.globalScope = [g]
  effects : s.interp.globalScope = [g] → Effects s s'
  confined : s.interp.globalScope = [g] → NoIterator s → (∀ p ∈ known, Named s p) →
    Deeper s s' ∨ NoIterator s' ∧ Binds g s s'

/-- `x` makes a step at the top level, whether it returns or throws. -/
abbrev Confined (g : Nat) (known : List ValuePtr) (α : Type) (x : M α) : Prop :=
  Relates (fun _ => TopStep g known) α x

variable {g : Nat} {known : List ValuePtr}

lemma TopStep.refl (s : State) : TopStep g known s s :=
  ⟨id, fun _ => .refl s, fun _ hno _ => .inr ⟨hno, .refl g s⟩⟩

lemma TopStep.trans {s₁ s₂ s₃ : State} (h : TopStep g known s₁ s₂) (h' : TopStep g known s₂ s₃) :
    TopStep g known s₁ s₃ where
  scope_eq hg := h'.scope_eq (h.scope_eq hg)
  effects hg := (h.effects hg).trans (h'.effects (h.scope_eq hg))
  confined hg hno hknown := by
    have hle := (h.effects hg).countP_le isDeeper
    have hle' := (h'.effects (h.scope_eq hg)).countP_le isDeeper
    cases h.confined hg hno hknown with
    | inl hdeeper => exact .inl (Nat.lt_of_lt_of_le hdeeper hle')
    | inr hcalm =>
      obtain ⟨hno₂, hbinds⟩ := hcalm
      cases h'.confined (h.scope_eq hg) hno₂ fun p hp => (hknown p hp).step hbinds with
      | inl hdeeper => exact .inl (Nat.lt_of_le_of_lt hle hdeeper)
      | inr hcalm' => exact .inr ⟨hcalm'.1, hbinds.trans hcalm'.2⟩

lemma confined_compositional : Compositional (Confined g known) :=
  Relates.compositional (fun _ => .refl) .trans

/-- Knowing less asks for more. -/
lemma Confined.mono {known' : List ValuePtr} {α : Type} {x : M α} (h : Confined g known α x)
    (hsub : ∀ p ∈ known, p ∈ known') : Confined g known' α x := by
  intro s
  have hs := h s
  cases hx : x s with
  | ok a s' =>
    rw [hx] at hs
    exact ⟨hs.scope_eq, hs.effects, fun hg hno hknown =>
      hs.confined hg hno fun p hp => hknown p (hsub p hp)⟩
  | error e s' =>
    rw [hx] at hs
    exact ⟨hs.scope_eq, hs.effects, fun hg hno hknown =>
      hs.confined hg hno fun p hp => hknown p (hsub p hp)⟩

/-! ### The primitive steps -/

lemma confined_of_finalState {α : Type} {x : M α} (hx : ∀ s, TopStep g known s (finalState x s)) :
    Confined g known α x := by
  intro s
  have hs := hx s
  unfold finalState resultState at hs
  cases hxs : x s <;> simpa only [hxs] using hs

/-- A step that leaves the heap, the frames and everything outside alone. -/
lemma topStep_of_eq {s s' : State} (es : List Event)
    (hscope : s'.interp.globalScope = s.interp.globalScope)
    (hstore : s'.interp.store = s.interp.store) (hlog : s'.log = es ++ s.log)
    (hheap : s'.heap = s.heap) (hframes : s'.frames = s.frames) (hchain : s'.chain = s.chain)
    (hrand : s'.rand = s.rand) (hout : s'.stdoutBuffer = s.stdoutBuffer) :
    TopStep g known s s' := by
  refine ⟨hscope.trans, fun _ => .of_logged es hstore hlog hheap hchain, fun _ hno _ => .inr ⟨?_, ?_⟩⟩
  · unfold NoIterator
    rwa [hheap]
  · exact ⟨hchain, hrand, hout, fun r v h _ => hheap.symm ▸ h, by rw [hframes], fun _ _ => by rw [hframes]⟩

lemma confined_makeShared {v : Value} (hv : v.isGenerator = false) :
    Confined g known _ (makeShared v) := by
  intro s
  have heffects : Effects s { s with heap := s.heap ++ [v] } := hasEffects_makeShared v s
  refine ⟨id, fun _ => heffects, fun _ hno _ => .inr ⟨?_, rfl, rfl, rfl, fun r w hr _ => ?_, rfl,
    fun _ _ => rfl⟩⟩
  · intro w hw
    obtain hold | hnew := List.mem_append.mp hw
    · exact hno w hold
    · rw [List.mem_singleton.mp hnew]
      exact hv
  · have hlt := (List.getElem?_eq_some_iff.mp hr).1
    simpa [List.getElem?_append_left hlt] using hr

/-- Filling a container changes no other object. -/
lemma confined_fill (r : Ref) {v : Value} (hv : Value.isContainer v = true) :
    Confined g known _ (storeAt r v) := by
  have hstore : v.store? = none := by cases v <;> simp_all [Value.isContainer, Value.store?]
  have hgenerator : v.isGenerator = false := by
    cases v <;> simp_all [Value.isContainer, Value.isGenerator]
  refine confined_of_finalState fun s => ?_
  have heffects : Effects s (finalState (storeAt r v) s) := by
    obtain ⟨-, h⟩ := (hasEffects_storeAt r v hstore).exists_exn s
    exact h
  rw [finalState_storeAt] at heffects ⊢
  split
  · rename_i hclass
    rw [if_pos hclass] at heffects
    refine ⟨id, fun _ => heffects, fun _ hno _ => .inr ⟨?_, rfl, rfl, rfl, fun r' w hr' hw => ?_,
      rfl, fun _ _ => rfl⟩⟩
    · intro w hw
      obtain hold | rfl := List.mem_or_eq_of_mem_set hw
      · exact hno w hold
      · exact hgenerator
    · -- the object at `r` is a container, because objects keep their class
      have hne : r ≠ r' := by
        rintro rfl
        rw [hr'] at hclass
        cases v <;> cases w <;> simp_all [Value.ctorIdx, Value.isContainer]
      simpa [List.getElem?_set_ne hne] using hr'
  · exact .refl s

/-- A change of the frame `g`. -/
lemma topStep_frame {s : State} {f : Frame} (es : List Event) :
    TopStep g known s { s with frames := s.frames.set g f, log := es ++ s.log } := by
  refine ⟨id, fun _ => .of_logged es rfl rfl rfl rfl, fun _ hno _ => .inr ⟨hno, rfl, rfl, rfl,
    fun _ _ h _ => h, by simp, fun id hid => ?_⟩⟩
  simp [List.getElem?_set_ne hid.symm]

lemma confined_onData {α : Type} (f : Bitstream → Option α × Bitstream) :
    Confined g known _ (onData f) :=
  confined_of_finalState fun s => by
    rw [finalState_onData]
    exact topStep_of_eq [] rfl rfl rfl rfl rfl rfl rfl rfl

lemma confined_malloc : Confined g known _ malloc :=
  confined_of_finalState fun s => by
    rw [finalState_malloc]
    exact topStep_of_eq [] rfl rfl rfl rfl rfl rfl rfl rfl

lemma objects_confined : Objects (Confined g known) where
  toSequential := confined_compositional.toSequential
  throw e _ := confined_compositional.throw e
  malloc := confined_malloc
  makeShared _ := confined_makeShared
  load r := confined_of_finalState fun s => by
    rw [finalState_load]
    exact .refl s
  fill r _ := confined_fill r
  findModule _ s := .refl s
  loadRand := loadRand_of_steps confined_compositional.toSequential confined_malloc
    (confined_makeShared rfl)
    fun _ _ => topStep_of_eq [] rfl rfl rfl rfl rfl rfl rfl rfl

lemma reading_confined : Reading (Confined g known) where
  toSequential := confined_compositional.toSequential
  throw e _ := confined_compositional.throw e
  charge := confined_of_finalState fun s => by
    rw [finalState_charge]
    exact topStep_of_eq [.charged] rfl rfl rfl rfl rfl rfl rfl rfl
  readWord := confined_onData _
  readString := confined_onData _
  peekType := confined_onData _

lemma confined_skipNext : Confined g known _ skipNext :=
  confined_compositional.bind (fun s => .refl s) fun _ =>
    reading_confined.skipFuel (confined_compositional.throw _) _

lemma confined_setValue (name : Str) (value : ValuePtr) : Confined g known _ (setValue [g] name value) := by
  intro s
  have hframes : Scope.setValue s.frames [g] name value = s.frames.set g
      { Scope.frame s.frames g with values := (Scope.frame s.frames g).values.insert name value } := by
    simp [Scope.setValue]
  show TopStep g known s { s with frames := _, log := _ }
  rw [hframes]
  exact topStep_frame _

/-- The straight nodes at the top level. -/
lemma straight_confined : Straight (fun sc sc' => sc = [g] ∧ sc' = [g])
    (fun sc sc' => sc = [g] ∧ sc' = [g]) (fun α x _ => Confined g known α x) where
  congruence := ⟨confined_compositional.pure, confined_compositional.bind⟩
  objects := objects_confined
  reading := reading_confined
  skipNext := confined_skipNext
  readStub _ := confined_compositional.bind (confined_onData _) fun _ =>
    confined_compositional.bind (confined_onData _) fun _ => confined_compositional.pure _
  own hs := hs
  findValue _ _ _ := topStep_of_eq [_] rfl rfl rfl rfl rfl rfl rfl rfl
  setValue name value hs := hs.1 ▸ confined_setValue name value
  setGlobalTag _ hs := hs.1 ▸ fun _ => topStep_frame []
  terminate hs := hs.1 ▸ fun _ => topStep_frame []
  isTerminated hs := hs.1 ▸ fun s => .refl s
  inGlobalScope {α f _} hf := by
    intro s
    by_cases hg : s.interp.globalScope = [g]
    · exact hf _ _ ⟨hg, hg⟩ s
    · -- another interpreter is running
      have hvacuous : ∀ s', TopStep g known s s' := fun s' =>
        ⟨fun h => absurd h hg, fun h => absurd h hg, fun h => absurd h hg⟩
      split
      · exact hvacuous _
      · exact hvacuous _

/-! ### Operands at the top level -/

/-- What every computation of the interpreter satisfies. -/
abbrev Loose (α : Type) (x : M α) : Prop := HasEffects α x ∧ KeepsFixed α x

lemma closed_loose : Closed (fun _ => True) Loose :=
  closed_hasEffects.and closed_keepsFixed (fun _ _ => .of_eq rfl rfl rfl rfl)
    fun _ => keepsFixed_of_finalState fun _ => rfl

lemma Loose.topStep {α : Type} {x : M α} (hx : Loose α x) {s s' : State} (hfinal : finalState x s = s')
    (hconfined : s.interp.globalScope = [g] → NoIterator s → (∀ p ∈ known, Named s p) →
      Deeper s s' ∨ NoIterator s' ∧ Binds g s s') : TopStep g known s s' := by
  obtain ⟨-, heffects⟩ := hx.1.exists_exn s
  obtain ⟨-, hfixed⟩ := hx.2.exists_exn s
  rw [hfinal] at heffects hfixed
  exact ⟨fun hg => (congrArg Prod.fst hfixed).trans hg, fun _ => heffects, hconfined⟩

/-- What throws at the top level is confined. -/
lemma confined_of_throws {α : Type} {x : M α} (hloose : Loose α x)
    (hx : ∀ s, NoIterator s → (∀ p ∈ known, Named s p) → ∃ e, x s = .error e s) :
    Confined g known α x :=
  confined_of_finalState fun s => hloose.topStep rfl fun _ hno hknown => by
    obtain ⟨e, he⟩ := hx s hno hknown
    rw [finalState_of_error he]
    exact .inr ⟨hno, .refl g s⟩

/-- What the nested executions of a node at the top level satisfy. -/
structure TopRec (g n : Nat) : Prop where
  exec : ∀ ls, Confined g [] _ (executeNext n [g] ls)
  /-- Without the exemption of an import there are no values but aliases. -/
  value : ∀ {s s' : State} {p : ValuePtr} {ls ls' : LoopState}, s.interp.globalScope = [g] →
    NoIterator s → ls ≠ .ignoreAll → executeNext n [g] ls s = .ok (p, ls') s' →
    Deeper s s' ∨ Named s' p ∧ ls' ≠ .ignoreAll

section Nodes

variable {n : Nat} (hrec : TopRec g n)
include hrec

lemma executes_confined :
    Executes (fun sc sc' => sc = [g] ∧ sc' = [g]) (fun α x _ => Confined g [] α x)
      (executeNext n) (executeNext n) :=
  ⟨fun ls hs => hs.1 ▸ hrec.exec ls⟩

lemma confined_evaluate : Confined g known _ (evaluate (executeNext n) [g]) :=
  (confined_compositional.bind (hrec.exec .none) fun _ => confined_compositional.pure _).mono nofun

/-- The value of an operand is an alias. -/
lemma confined_operand {β : Type} {f : ValuePtr → M β} (hf : ∀ p, Confined g (p :: known) β (f p)) :
    Confined g known β (evaluate (executeNext n) [g] >>= f) := by
  refine confined_of_finalState fun s => ?_
  have hfirst : TopStep g known s (finalState (evaluate (executeNext n) [g]) s) := by
    have heval : Confined g known _ (evaluate (executeNext n) [g]) := confined_evaluate hrec
    obtain ⟨-, h⟩ := heval.exists_exn s
    exact h
  cases hx : evaluate (executeNext n) [g] s with
  | error e s₁ =>
    rw [finalState_of_error hx] at hfirst
    rw [finalState_bind_of_error hx]
    exact hfirst
  | ok p s₁ =>
    rw [finalState_of_ok hx] at hfirst
    rw [finalState_bind_of_ok hx]
    obtain ⟨-, hrest⟩ := (hf p).exists_exn s₁
    refine ⟨fun hg => hrest.scope_eq (hfirst.scope_eq hg),
      fun hg => (hfirst.effects hg).trans (hrest.effects (hfirst.scope_eq hg)), ?_⟩
    intro hg hno hknown
    have hle := (hfirst.effects hg).countP_le isDeeper
    have hle' := (hrest.effects (hfirst.scope_eq hg)).countP_le isDeeper
    have hvalue : Deeper s s₁ ∨ Named s₁ p := by
      obtain ⟨⟨q, ls'⟩, s₂, hexec, hpure⟩ := bind_eq_ok.mp hx
      obtain ⟨rfl, rfl⟩ := pure_eq_ok.mp hpure
      have hls : LoopState.none ≠ .ignoreAll := nofun
      exact (hrec.value hg hno hls hexec).imp_right And.left
    cases hvalue with
    | inl hdeeper => exact .inl (Nat.lt_of_lt_of_le hdeeper hle')
    | inr hnamed =>
      cases hfirst.confined hg hno hknown with
      | inl hdeeper => exact .inl (Nat.lt_of_lt_of_le hdeeper hle')
      | inr hcalm =>
        have hknown₁ : ∀ q ∈ p :: known, Named s₁ q := by
          intro q hq
          obtain rfl | hq := List.mem_cons.mp hq
          · exact hnamed
          · exact (hknown q hq).step hcalm.2
        cases hrest.confined (hfirst.scope_eq hg) hcalm.1 hknown₁ with
        | inl hdeeper => exact .inl (Nat.lt_of_le_of_lt hle hdeeper)
        | inr hcalm' => exact .inr ⟨hcalm'.1, hcalm.2.trans hcalm'.2⟩

omit hrec in
/-- An alias ends in an error where its class matters. -/
lemma confined_of_alias {β : Type} {r : Ref} (hr : some r ∈ known) {f : Value → M β}
    (hloose : Loose β (load r >>= f)) (hf : ∀ name asName s, ∃ e, f (.alias name asName) s = .error e s) :
    Confined g known β (load r >>= f) := by
  refine confined_of_throws hloose fun s _ hknown => ?_
  obtain ⟨name, asName, halias⟩ := hknown _ hr r rfl
  obtain ⟨e, he⟩ := hf name asName s
  have hload : load r s = .ok (.alias name asName) s := load_eq_ok.mpr ⟨halias, rfl⟩
  exact ⟨e, by rw [bind_of_ok hload, he]⟩

omit hrec in
lemma confined_assertGeneric {β : Type} {p : ValuePtr} (hp : p ∈ known) {f : Ref → M β}
    (hf : ∀ r, some r ∈ known → Confined g known β (f r)) :
    Confined g known β (assertGeneric p >>= f) := by
  cases p with
  | none => exact confined_compositional.throw _
  | some r => exact hf r hp

omit hrec in
/-- The scope of the top level, as an argument of the closure. -/
lemma touches_top (g : Nat) : (Touches (fun _ => True) [g] ∧ Touches (fun _ => True) [g]) ∧ [g].length = [g].length :=
  ⟨⟨by simp, by simp⟩, rfl⟩

/-! ### The nodes that are not straight -/

/-- What is called at the top level is not callable. -/
lemma confined_execCall : Confined g known _ (execCall (executeNext n) [g]) := by
  have l := closed_loose
  have h := l.related
  refine confined_operand hrec fun p => confined_assertGeneric List.mem_cons_self fun r hr => ?_
  refine confined_of_alias hr ?_ fun _ _ _ => ⟨_, rfl⟩
  refine l.bind (l.load r) fun v => l.bind (l.toValues.objects.throwIf _ _) fun _ =>
    l.bind l.readWord fun _ => l.bind (l.iterateM (fun _ => ?_) _ _) fun args => ?_
  · exact (h.argumentStep (h.recursive n) (touches_top g) _).1
  · exact (h.call (h.recursive n) (h.own (touches_top g)) false r args).1

/-- What is iterated over at the top level is not iterable. -/
lemma confined_execForLoop : Confined g known _ (execForLoop (executeNext n) [g] n) := by
  have l := closed_loose
  have h := l.related
  refine confined_compositional.bind reading_confined.readNames fun names =>
    confined_operand hrec fun p => ?_
  have hloop : Loose _ (do
      let iter ← loopIterator p
      let res ← forRounds (executeNext n) [g] names iter n .topLevel none
      M.skipNext
      pure res) :=
    l.bind (l.toValues.loopIterator p) fun iter =>
      l.bind (h.forRounds (touches_top g) names iter n (h.recursive n) _ _).1 fun res =>
      l.bind l.skipNext fun _ => l.pure res
  refine confined_of_throws hloop fun s _ hknown => ?_
  have hp := hknown p List.mem_cons_self
  have hthrows : ∃ e, loopIterator p s = .error e s := by
    cases p with
    | none => exact ⟨_, rfl⟩
    | some r =>
      obtain ⟨name, asName, halias⟩ := hp r rfl
      have hload : load r s = .ok (.alias name asName) s := load_eq_ok.mpr ⟨halias, rfl⟩
      exact ⟨.runtimeError (lit "Can't iterate"), bind_of_ok hload⟩
  obtain ⟨e, he⟩ := hthrows
  exact ⟨e, bind_of_error he⟩

omit hrec in
/-- An alias is no key of a dictionary or a storage. -/
lemma confined_dictKey {β : Type} {r : Ref} (hr : some r ∈ known) {f : Str → M β}
    (hf : ∀ key, Loose β (f key)) : Confined g known β (dictKey r >>= f) := by
  have l := closed_loose
  refine confined_of_throws (l.bind (l.toValues.objects.dictKey r) hf) fun s _ hknown => ?_
  obtain ⟨name, asName, halias⟩ := hknown _ hr r rfl
  have hload : load r s = .ok (.alias name asName) s := load_eq_ok.mpr ⟨halias, rfl⟩
  have hkey : dictKey r s = .error (.runtimeError (lit "Dictionary indices must be of type 'String'")) s :=
    bind_of_ok hload
  exact ⟨_, bind_of_error hkey⟩

omit hrec in
/-- An alias is no index of a list. -/
lemma confined_listKey {β : Type} {r : Ref} (hr : some r ∈ known) {f : Int64 → M β}
    (hf : ∀ i, Loose β (f i)) : Confined g known β (listKey r >>= f) := by
  have l := closed_loose
  refine confined_of_throws (l.bind (l.toValues.objects.listKey r) hf) fun s _ hknown => ?_
  obtain ⟨name, asName, halias⟩ := hknown _ hr r rfl
  have hload : load r s = .ok (.alias name asName) s := load_eq_ok.mpr ⟨halias, rfl⟩
  have hkey : listKey r s = .error (.runtimeError (lit "Array indices must be of type 'Integer'")) s :=
    bind_of_ok hload
  exact ⟨_, bind_of_error hkey⟩

omit hrec in
lemma confined_getValue (name : Str) : Confined g known _ (getValue [g] name) :=
  straight_confined.getValue (⟨rfl, rfl⟩ : [g] = [g] ∧ [g] = [g]) name

/-- No target of an assignment at the top level is an element. -/
lemma confined_assignTarget (val : Ref) : Confined g known _ (assignTarget (executeNext n) [g] val) := by
  have c : Compositional (Confined g known) := confined_compositional
  have l := closed_loose
  refine c.bind reading_confined.peekType fun lookAhead => ?_
  split
  · refine c.bind reading_confined.readType fun _ => confined_operand hrec fun p =>
      confined_assertGeneric List.mem_cons_self fun index hindex => ?_
    have c : Compositional (Confined g (p :: known)) := confined_compositional
    refine c.bind reading_confined.readName fun sscr => c.bind (confined_getValue sscr) fun obj =>
      c.bind (objects_confined.subscriptTarget sscr obj) fun obj => c.bind (objects_confined.load obj)
      fun v => ?_
    split
    · exact confined_dictKey hindex fun _ => l.toValues.objects.dictInsert _ _ _
    · exact confined_dictKey hindex fun _ => l.toValues.storeInsert _ _ _
    · exact confined_listKey hindex fun _ => l.toValues.objects.listSet _ _ _
    · exact objects_confined.throwRuntime _
  · refine c.bind reading_confined.readNames fun names => ?_
    split
    · exact confined_setValue _ _
    · refine c.bind (objects_confined.load val) fun v => ?_
      split
      · exact c.bind (objects_confined.tupleGet _ _) fun _ => c.bind (confined_setValue _ _) fun _ =>
          c.bind (objects_confined.tupleGet _ _) fun _ => confined_setValue _ _
      · exact objects_confined.throwRuntime _
    · exact objects_confined.throwRuntime _

lemma confined_execAssign : Confined g known _ (execAssign (executeNext n) [g]) := by
  have c : Compositional (Confined g known) := confined_compositional
  refine c.bind (confined_evaluate hrec) fun val => c.bind (objects_confined.assertGeneric val)
    fun val => c.bind ?_ fun _ => c.pure none
  exact c.bind reading_confined.readWord fun size =>
    c.iterateM (fun _ => c.bind reading_confined.charge fun _ => confined_assignTarget hrec val) _ _

omit hrec in
/-- Looking at an object changes nothing. -/
lemma load_cases (r : Ref) (s : State) :
    (∃ v, s.heap[r]? = some v ∧ load r s = .ok v s) ∨ ∃ e, load r s = .error e s := by
  unfold load
  cases h : s.heap[r]? with
  | some v => exact .inl ⟨v, rfl, rfl⟩
  | none => exact .inr ⟨_, rfl⟩

omit hrec in
/-- An alias is no number. -/
lemma augmentName_throws {p : ValuePtr} {s : State} (hp : Named s p) (op : BinaryOpType)
    (target : ValuePtr) : ∃ e, augmentName op target p s = .error e s := by
  have hvalue : integerAt p s = .ok none s := by
    cases p with
    | none => rfl
    | some r =>
      obtain ⟨name, asName, halias⟩ := hp r rfl
      have hload : load r s = .ok (.alias name asName) s := load_eq_ok.mpr ⟨halias, rfl⟩
      exact bind_of_ok hload
  have htarget : (∃ t, integerAt target s = .ok t s) ∨ ∃ e, integerAt target s = .error e s := by
    cases target with
    | none => exact .inl ⟨none, rfl⟩
    | some r =>
      obtain ⟨v, -, hload⟩ | ⟨e, hload⟩ := load_cases r s
      · cases v with
        | integer i => exact .inl ⟨some (r, i), bind_of_ok hload⟩
        | _ => exact .inl ⟨none, bind_of_ok hload⟩
      · exact .inr ⟨e, bind_of_error hload⟩
  have hupdate : ∀ f, ∃ e, updateInteger target p f s = .error e s := by
    intro f
    obtain ⟨t, ht⟩ | ⟨e, he⟩ := htarget
    · unfold updateInteger
      rw [bind_of_ok ht, bind_of_ok hvalue]
      cases t <;> exact ⟨.runtimeError (lit "Values need to be numerics"), rfl⟩
    · exact ⟨e, bind_of_error he⟩
  unfold augmentName
  split
  · exact hupdate _
  · exact hupdate _
  · exact hupdate _
  · exact ⟨_, rfl⟩

lemma confined_execAugmentedAssign :
    Confined g known _ (execAugmentedAssign (executeNext n) [g]) := by
  have c : Compositional (Confined g known) := confined_compositional
  have l := closed_loose
  refine c.bind reading_confined.readWord fun op => c.bind reading_confined.peekType fun lookAhead => ?_
  split
  · refine c.bind reading_confined.readType fun _ => confined_operand hrec fun p =>
      confined_assertGeneric List.mem_cons_self fun index hindex => ?_
    have c : Compositional (Confined g (p :: known)) := confined_compositional
    refine c.bind reading_confined.readName fun sscr => c.bind (confined_getValue sscr) fun obj =>
      c.bind (confined_evaluate hrec) fun val => c.bind (objects_confined.subscriptTarget sscr obj)
      fun obj => c.bind (objects_confined.load obj) fun v => ?_
    split
    · exact confined_dictKey hindex fun _ => l.bind (l.toValues.dictApply _ _ _ _) fun _ => l.pure _
    · exact confined_dictKey hindex fun _ => l.bind (l.toValues.storeApply _ _ _ _) fun _ => l.pure _
    · exact confined_listKey hindex fun _ => l.bind (l.toValues.listApply _ _ _ _) fun _ => l.pure _
    · exact c.bind (objects_confined.throwRuntime _) fun _ => c.pure none
  · refine c.bind reading_confined.readName fun name => c.bind (confined_getValue name) fun target =>
      confined_operand hrec fun p => ?_
    refine confined_of_throws (l.bind (l.toValues.augmentName _ target p) fun _ => l.pure _)
      fun s _ hknown => ?_
    obtain ⟨e, he⟩ := augmentName_throws (hknown p List.mem_cons_self) (.ofCode op) target
    exact ⟨e, bind_of_error he⟩

/-- There is no iterator for a comprehension. -/
lemma confined_execListComp (ls : LoopState) :
    Confined g known _ (execListComp (executeNext n) [g] n ls) := by
  have c : Compositional (Confined g known) := confined_compositional
  have l := closed_loose
  have h := l.related
  refine c.bind (fun s => .refl s) fun bodyPos => c.bind confined_skipNext fun _ =>
    c.bind reading_confined.readWord fun _ => c.bind (objects_confined.throwIf _ _) fun _ =>
    c.bind reading_confined.readType fun _ => c.bind (objects_confined.throwIf _ _) fun _ =>
    c.bind reading_confined.readName fun target => c.bind (objects_confined.alloc _ rfl) fun list =>
    c.bind ((hrec.exec ls).mono nofun) fun res => ?_
  have hmove : ∀ start, Loose _ (moveTo start) := fun _ =>
    ⟨fun _ => .of_eq rfl rfl rfl rfl, keepsFixed_of_finalState fun _ => rfl⟩
  refine confined_of_throws (l.bind (l.toValues.objects.castIterator res.1) fun iter => l.bind l.skipNext
    fun _ => l.returnTo fun endPos hend => l.bind ?_ fun _ => l.bind hend fun _ => l.pure _) ?_
  · exact (h.listCompRounds (touches_top g) target iter list
      (fun _ => ⟨hmove bodyPos, hmove bodyPos⟩) n (h.recursive n) .topLevel).1
  · intro s hno _
    have hcast : ∃ e, castIterator res.1 s = .error e s := by
      cases res.1 with
      | none => exact ⟨_, rfl⟩
      | some r =>
        obtain ⟨v, hv, hload⟩ | ⟨e, hload⟩ := load_cases r s
        · have hplain : v.isGenerator = false := hno v (List.mem_of_getElem? hv)
          refine ⟨.valueException (lit "Invalid value cast"), ?_⟩
          show (load r >>= fun v => if v.isGenerator then pure r else _) s = _
          rw [bind_of_ok hload, hplain]
          rfl
        · exact ⟨e, bind_of_error hload⟩
    obtain ⟨e, he⟩ := hcast
    exact ⟨e, bind_of_error he⟩

end Nodes

/-! ### The way below the top level -/

/-- Two states that differ in the cursor, the step count and the log only. -/
structure Untouched (s s' : State) : Prop where
  heap_eq : s'.heap = s.heap
  frames_eq : s'.frames = s.frames
  chain_eq : s'.chain = s.chain
  rand_eq : s'.rand = s.rand
  stdout_eq : s'.stdoutBuffer = s.stdoutBuffer

@[simp] lemma finalState_readType (s : State) : finalState readType s =
    { s with interp := { s.interp with data := s.interp.data.readWord.2 } } := by
  have hword := finalState_onData Bitstream.readWord s
  unfold finalState at hword ⊢
  rw [← hword]
  unfold readType
  cases hread : readWord s with
  | ok w s₁ =>
    rw [bind_of_ok hread]
    exact (congrArg resultState hread).symm
  | error e s₁ =>
    rw [bind_of_error hread]
    exact (congrArg resultState hread).symm

/-- Below the top level a node is logged, unless reading it fails. -/
lemma executeNext_deeper (n id : Nat) (ls : LoopState) (s : State) :
    Deeper s (finalState (executeNext n [id, g] ls) s) ∨
      ∃ e s', executeNext n [id, g] ls s = .error e s' ∧ Untouched s s' := by
  cases n with
  | zero => exact .inr ⟨.outOfFuel, s, rfl, rfl, rfl, rfl, rfl, rfl⟩
  | succ n =>
    have htick := finalState_charge s
    cases hcharge : charge s with
    | error e s₁ =>
      rw [finalState_of_error hcharge] at htick
      subst htick
      exact .inr ⟨e, tick s, bind_of_error hcharge, rfl, rfl, rfl, rfl, rfl⟩
    | ok u s₁ =>
      rw [finalState_of_ok hcharge] at htick
      subst htick
      have hstart : executeNext (n + 1) [id, g] ls s = (do
          let type ← readType
          checkTopLevel [id, g] ls type
          record (.nodeEntered type ls (Scope.depth [id, g]))
          let res ← execNode (executeNext n) [id, g] n ls type
          epilogue (tick s).interp.data.pos res) (tick s) := bind_of_ok hcharge
      have hdata := finalState_readType (tick s)
      cases htype : readType (tick s) with
      | error e s₂ =>
        rw [finalState_of_error htype] at hdata
        subst hdata
        exact .inr ⟨e, _, hstart.trans (bind_of_error htype), rfl, rfl, rfl, rfl, rfl⟩
      | ok type s₂ =>
        rw [finalState_of_ok htype] at hdata
        subst hdata
        set s₂ : State := { tick s with interp := { (tick s).interp with
          data := (tick s).interp.data.readWord.2 } } with hs₂
        -- the depth is 1, so the whitelist does not apply
        have hentered : executeNext (n + 1) [id, g] ls s =
            (do
              let res ← execNode (executeNext n) [id, g] n ls type
              epilogue (tick s).interp.data.pos res)
            { s₂ with log := .nodeEntered type ls 1 :: s₂.log } := by
          rw [hstart]
          refine (bind_of_ok htype).trans ?_
          simp [checkTopLevel, Scope.depth, throwIf, record, bind, EStateM.bind, pure, EStateM.pure]
        have hnode : HasEffects _ (do
            let res ← execNode (executeNext n) [id, g] n ls type
            epilogue (tick s).interp.data.pos res) := by
          have l := closed_hasEffects
          have htouches : (Touches (fun _ => True) [id, g] ∧ Touches (fun _ => True) [id, g]) ∧
            [id, g].length = [id, g].length := ⟨⟨by simp, by simp⟩, rfl⟩
          refine l.bind (l.related.execNode htouches (l.related.recursive n) ls type).1 fun res => ?_
          unfold epilogue
          split
          · exact l.bind (fun _ => .of_eq rfl rfl rfl rfl) fun _ => l.pure _
          · exact l.pure _
        obtain ⟨-, heffects⟩ := hnode.exists_exn { s₂ with log := .nodeEntered type ls 1 :: s₂.log }
        have hle := heffects.countP_le isDeeper
        refine .inl ?_
        unfold Deeper finalState
        rw [hentered]
        refine Nat.lt_of_lt_of_le ?_ hle
        simp [hs₂, tick, isDeeper]

/-- The body of a loop at the top level is logged, unless reading its first node fails. -/
lemma confined_body (n : Nat) (ls : LoopState) (ret : ValuePtr) :
    Confined g known _ (withScope [g] fun bodyScope => do
      let res ← executeNext n bodyScope ls
      propagateReturn [g] bodyScope ret res) := by
  have l := closed_loose
  have h := l.related
  have hreturn : ∀ id res, Loose _ (propagateReturn [g] [id, g] ret res) := by
    intro id res
    have htouches : (Touches (fun _ => True) [id, g] ∧ Touches (fun _ => True) [id, g]) ∧
      [id, g].length = [id, g].length := ⟨⟨by simp, by simp⟩, rfl⟩
    exact (h.propagateReturn (n := n) (touches_top g) htouches ret res).1
  have hbody : ∀ id, Loose _ (do
      let res ← executeNext n [id, g] ls
      propagateReturn [g] [id, g] ret res) := fun id =>
    l.bind (l.executeNext n [id, g] ls (by simp)) (hreturn id)
  have hscope : (withScope [g] fun bodyScope => do
      let res ← executeNext n bodyScope ls
      propagateReturn [g] bodyScope ret res) = withFrame (fun id => do
        let res ← executeNext n [id, g] ls
        propagateReturn [g] [id, g] ret res) := rfl
  rw [hscope]
  refine confined_of_finalState fun s => (l.withFrame fun id _ => hbody id).topStep rfl
    fun _ hno _ => ?_
  rw [finalState_withFrame]
  set inner : State := { s with frames := s.frames ++ [.empty] } with hinner
  obtain hdeeper | ⟨e, s₁, he, hsame⟩ := executeNext_deeper (g := g) n s.frames.length ls inner
  · refine .inl ?_
    have hle : (finalState (executeNext n [s.frames.length, g] ls) inner).log.countP isDeeper ≤
        (finalState (do
          let res ← executeNext n [s.frames.length, g] ls
          propagateReturn [g] [s.frames.length, g] ret res) inner).log.countP isDeeper := by
      cases hexec : executeNext n [s.frames.length, g] ls inner with
      | error e s₁ => rw [finalState_of_error hexec, finalState_bind_of_error hexec]
      | ok res s₁ =>
        rw [finalState_of_ok hexec, finalState_bind_of_ok hexec]
        obtain ⟨-, heffects⟩ := (hreturn s.frames.length res).1.exists_exn s₁
        exact heffects.countP_le isDeeper
    exact Nat.lt_of_lt_of_le hdeeper hle
  · rw [finalState_bind_of_error he]
    have hframes : s₁.frames.take s.frames.length = s.frames := by
      rw [hsame.frames_eq]
      simp [hinner]
    refine .inr ⟨?_, hsame.chain_eq, hsame.rand_eq, hsame.stdout_eq, fun r v hr _ => ?_, ?_, ?_⟩
    · intro v hv
      rw [hsame.heap_eq] at hv
      exact hno v hv
    · rw [hsame.heap_eq]
      exact hr
    · rw [hframes]
    · intro id _
      rw [hframes]

lemma confined_whileRounds {n : Nat} (hrec : TopRec g n) (start : UInt32) (k : Nat) (ls : LoopState)
    (ret : ValuePtr) : Confined g known _ (whileRounds (executeNext n) [g] start k ls ret) := by
  have c : Compositional (Confined g known) := confined_compositional
  induction k generalizing ls ret with
  | zero => exact c.throw _
  | succ k ih =>
    refine c.bind (fun s => .refl s) fun terminated => ?_
    split
    · exact c.pure ret
    · refine c.bind reading_confined.charge fun _ => c.bind ?_ fun _ =>
        c.bind (confined_evaluate hrec) fun test => c.bind (objects_confined.boolTest test) fun b => ?_
      · exact fun _ => topStep_of_eq [] rfl rfl rfl rfl rfl rfl rfl rfl
      · split
        · exact c.bind (confined_body n ls ret) fun _ => ih _ _
        · exact c.pure ret

lemma confined_execWhileLoop {n : Nat} (hrec : TopRec g n) :
    Confined g known _ (execWhileLoop (executeNext n) [g] n) := by
  have c : Compositional (Confined g known) := confined_compositional
  exact c.bind (fun s => .refl s) fun start => c.bind (confined_whileRounds hrec start n _ _)
    fun res => c.bind confined_skipNext fun _ => c.pure res

/-- The switch of `execute_next` at the top level. -/
lemma confined_execNode {n : Nat} (hrec : TopRec g n) (ls : LoopState) (type : NodeType) :
    Confined g [] _ (execNode (executeNext n) [g] n ls type) := by
  have hkeep : ∀ {x : M ValuePtr}, Confined g [] _ x → Confined g [] _ (keep ls x) := fun hx =>
    confined_compositional.bind hx fun _ => confined_compositional.pure _
  cases type with
  | assign => exact hkeep (confined_execAssign hrec)
  | call => exact hkeep (confined_execCall hrec)
  | whileLoop => exact hkeep (confined_execWhileLoop hrec)
  | forLoop => exact hkeep (confined_execForLoop hrec)
  | listComp => exact confined_execListComp hrec ls
  | augmentedAssign => exact hkeep (confined_execAugmentedAssign hrec)
  | _ => exact straight_confined.execNode (executes_confined hrec) ⟨rfl, rfl⟩ n n ls rfl

lemma confined_epilogue (start : UInt32) (res : ValuePtr × LoopState) :
    Confined g known _ (epilogue start res) := by
  unfold epilogue
  split
  · exact confined_compositional.bind
      (fun _ => topStep_of_eq [] rfl rfl rfl rfl rfl rfl rfl rfl) fun _ => confined_compositional.pure _
  · exact confined_compositional.pure _

lemma confined_executeCharged {n : Nat} (hrec : TopRec g n) (ls : LoopState) :
    Confined g [] _ (executeCharged (executeNext n) [g] n ls) := by
  have c : Compositional (Confined g []) := confined_compositional
  refine c.bind (fun s => .refl s) fun start => c.bind reading_confined.readType fun type =>
    c.bind (objects_confined.throwIf _ _) fun _ => c.bind ?_ fun _ =>
    c.bind (confined_execNode hrec ls type) fun res => confined_epilogue start res
  exact fun _ => topStep_of_eq [_] rfl rfl rfl rfl rfl rfl rfl rfl

/-! ### Values at the top level -/

/-- `x` makes a step at the top level and returns an alias or nothing, and no exemption from
the whitelist. -/
structure Yields (g : Nat) (known : List ValuePtr) (x : M (ValuePtr × LoopState)) : Prop where
  confined : Confined g known _ x
  value : ∀ {s s' : State} {p : ValuePtr} {ls : LoopState}, s.interp.globalScope = [g] →
    NoIterator s → (∀ q ∈ known, Named s q) → x s = .ok (p, ls) s' →
    Deeper s s' ∨ Named s' p ∧ ls ≠ .ignoreAll

/-- A confined step before a value. -/
lemma Yields.after {α : Type} {x : M α} {f : α → M (ValuePtr × LoopState)}
    (hx : Confined g known α x) (hf : ∀ a, Yields g known (f a)) : Yields g known (x >>= f) where
  confined := confined_compositional.bind hx fun a => (hf a).confined
  value {s s' p ls} hg hno hknown h := by
    obtain ⟨a, s₁, hxs, hrest⟩ := bind_eq_ok.mp h
    have hfirst := hx.of_ok hxs
    have hsecond := (hf a).confined.of_ok hrest
    have hg₁ := hfirst.scope_eq hg
    have hle := (hfirst.effects hg).countP_le isDeeper
    have hle' := (hsecond.effects hg₁).countP_le isDeeper
    cases hfirst.confined hg hno hknown with
    | inl hdeeper => exact .inl (Nat.lt_of_lt_of_le hdeeper hle')
    | inr hcalm =>
      have hknown₁ : ∀ q ∈ known, Named s₁ q := fun q hq => (hknown q hq).step hcalm.2
      exact ((hf a).value hg₁ hcalm.1 hknown₁ hrest).imp_left
        fun hdeeper => Nat.lt_of_le_of_lt hle hdeeper

/-- A value that the rest goes on with. -/
lemma Yields.bind {x : M (ValuePtr × LoopState)} {f : ValuePtr × LoopState → M (ValuePtr × LoopState)}
    (hx : Yields g known x) (hconfined : ∀ res, Confined g [] _ (f res))
    (hf : ∀ p ls, ls ≠ .ignoreAll → Yields g [p] (f (p, ls))) : Yields g known (x >>= f) where
  confined := confined_compositional.bind hx.confined fun res => (hconfined res).mono nofun
  value {s s' p ls} hg hno hknown h := by
    obtain ⟨⟨p₁, ls₁⟩, s₁, hxs, hrest⟩ := bind_eq_ok.mp h
    have hfirst := hx.confined.of_ok hxs
    have hsecond := (hconfined (p₁, ls₁)).of_ok hrest
    have hg₁ := hfirst.scope_eq hg
    have hle := (hfirst.effects hg).countP_le isDeeper
    have hle' := (hsecond.effects hg₁).countP_le isDeeper
    cases hx.value hg hno hknown hxs with
    | inl hdeeper => exact .inl (Nat.lt_of_lt_of_le hdeeper hle')
    | inr hvalue =>
      cases hfirst.confined hg hno hknown with
      | inl hdeeper => exact .inl (Nat.lt_of_lt_of_le hdeeper hle')
      | inr hcalm =>
        have hknown₁ : ∀ q ∈ [p₁], Named s₁ q := by
          intro q hq
          rw [List.mem_singleton.mp hq]
          exact hvalue.1
        exact ((hf p₁ ls₁ hvalue.2).value hg₁ hcalm.1 hknown₁ hrest).imp_left
          fun hdeeper => Nat.lt_of_le_of_lt hle hdeeper

lemma yields_pure {p : ValuePtr} {ls : LoopState} (hls : ls ≠ .ignoreAll) (hp : p = none ∨ p ∈ known) :
    Yields g known (pure (p, ls)) where
  confined := confined_compositional.pure _
  value {s s' q ls'} _ _ hknown h := by
    cases h
    refine .inr ⟨?_, hls⟩
    obtain rfl | hp := hp
    · exact nofun
    · exact hknown p hp

/-- `x` returns nothing. -/
def ReturnsNone (x : M ValuePtr) : Prop := ∀ ⦃s s' : State⦄ ⦃p : ValuePtr⦄, x s = .ok p s' → p = none

lemma ReturnsNone.bind {α : Type} {x : M α} {f : α → M ValuePtr} (hf : ∀ a, ReturnsNone (f a)) :
    ReturnsNone (x >>= f) := by
  intro s s' p h
  obtain ⟨a, s₁, -, h⟩ := bind_eq_ok.mp h
  exact hf a h

lemma returnsNone_none : ReturnsNone (pure none) := by
  intro s s' p h
  cases h
  rfl

lemma returnsNone_execFunctionDef (rec : Rec) (sc : ScopeRef) : ReturnsNone (execFunctionDef rec sc) :=
  .bind fun _ => .bind fun _ => .bind fun _ => .bind fun _ => returnsNone_none

lemma returnsNone_execImport (rec : Rec) (sc : ScopeRef) : ReturnsNone (execImport rec sc) :=
  .bind fun _ => .bind fun _ => .bind fun _ => .bind fun _ => returnsNone_none

lemma returnsNone_execImportFrom (rec : Rec) (sc : ScopeRef) : ReturnsNone (execImportFrom rec sc) := by
  refine .bind fun module => .bind fun res => .bind fun r => .bind fun v => ?_
  split
  · exact .bind fun _ => returnsNone_none
  · exact .bind fun _ => .bind fun _ => returnsNone_none

/-- A node that returns nothing. -/
lemma Yields.keep {x : M ValuePtr} {ls : LoopState} (hx : Confined g known _ x) (hnone : ReturnsNone x)
    (hls : ls ≠ .ignoreAll) : Yields g known (keep ls x) where
  confined := confined_compositional.bind hx fun _ => confined_compositional.pure _
  value {s s' p ls'} _ _ _ h := by
    obtain ⟨q, s₁, hxs, hpure⟩ := bind_eq_ok.mp h
    obtain ⟨hres, rfl⟩ := pure_eq_ok.mp hpure
    obtain ⟨rfl, rfl⟩ := Prod.mk.inj hres
    refine .inr ⟨?_, hls⟩
    rw [hnone hxs]
    exact nofun

/-- An alias is named. -/
lemma yields_execAlias {ls : LoopState} (hls : ls ≠ .ignoreAll) : Yields g known (keep ls execAlias) := by
  have h : Objects (Confined g known) := objects_confined
  refine ⟨?_, ?_⟩
  · exact confined_compositional.bind (confined_compositional.bind reading_confined.readString fun _ =>
      confined_compositional.bind reading_confined.readString fun _ => h.create _ rfl)
      fun _ => confined_compositional.pure _
  · intro s s' p ls' _ _ _ hok
    obtain ⟨q, s₁, halias, hpure⟩ := bind_eq_ok.mp hok
    obtain ⟨hres, rfl⟩ := pure_eq_ok.mp hpure
    obtain ⟨rfl, rfl⟩ := Prod.mk.inj hres
    obtain ⟨name, s₂, -, halias⟩ := bind_eq_ok.mp halias
    obtain ⟨asName, s₃, -, hcreate⟩ := bind_eq_ok.mp halias
    refine .inr ⟨?_, hls⟩
    intro r hr
    obtain ⟨hlast, hheap⟩ := create_eq_ok hcreate
    have hr' : r = s₃.heap.length := Option.some.inj (hr.symm.trans hlast)
    exact ⟨name, asName, by simp [hheap, hr']⟩

section Nodes

variable {n : Nat} (hrec : TopRec g n)
include hrec

lemma yields_executeNext {ls : LoopState} (hls : ls ≠ .ignoreAll) :
    Yields g known (executeNext n [g] ls) where
  confined := (hrec.exec ls).mono nofun
  value hg hno _ h := hrec.value hg hno hls h

/-- One round of a statement list. -/
lemma yields_statementListStep {p : ValuePtr} {ls : LoopState} (hls : ls ≠ .ignoreAll) :
    Yields g [p] (statementListStep (executeNext n) [g] (p, ls)) := by
  refine .after reading_confined.charge fun _ => .after (fun s => .refl s) fun terminated => ?_
  split
  · exact .after confined_skipNext fun _ => yields_pure hls (.inr (List.mem_singleton.mpr rfl))
  · have hround : (if ls == .topLevel then LoopState.normal else ls) ≠ .ignoreAll := by
      split
      · exact nofun
      · exact hls
    refine .bind (yields_executeNext hrec hround) (fun _ => confined_compositional.pure _)
      fun q child hchild => yields_pure ?_ (.inr (List.mem_singleton.mpr rfl))
    show (if _ then child else ls) ≠ .ignoreAll
    split
    · exact hchild
    · exact hls

lemma confined_statementListStep (acc : ValuePtr × LoopState) :
    Confined g known _ (statementListStep (executeNext n) [g] acc) := by
  have c : Compositional (Confined g known) := confined_compositional
  refine c.bind reading_confined.charge fun _ => c.bind (fun s => .refl s) fun terminated => ?_
  split
  · exact c.bind confined_skipNext fun _ => c.pure _
  · exact c.bind ((hrec.exec _).mono nofun) fun _ => c.pure _

lemma yields_statements (m : Nat) {p : ValuePtr} {ls : LoopState} (hls : ls ≠ .ignoreAll) :
    Yields g [p] (iterateM m (statementListStep (executeNext n) [g]) (p, ls)) := by
  induction m generalizing p ls with
  | zero => exact yields_pure hls (.inr (List.mem_singleton.mpr rfl))
  | succ m ih =>
    exact .bind (yields_statementListStep hrec hls)
      (fun acc => confined_compositional.iterateM (confined_statementListStep hrec) m acc)
      fun _ _ hls' => ih hls'

/-- What the whitelist lets through. -/
lemma yields_execNode {ls : LoopState} (hls : ls ≠ .ignoreAll) {type : NodeType}
    (htype : topLevelType type = true) : Yields g [] (execNode (executeNext n) [g] n ls type) := by
  have h : Straight (fun sc sc' => sc = [g] ∧ sc' = [g]) (fun sc sc' => sc = [g] ∧ sc' = [g])
    (fun α x _ => Confined g [] α x) := straight_confined
  have hexec := executes_confined hrec
  have hs : [g] = [g] ∧ [g] = [g] := ⟨rfl, rfl⟩
  cases type with
  | functionDef => exact .keep (h.execFunctionDef hexec hs) (returnsNone_execFunctionDef _ _) hls
  | importFrom => exact .keep (h.execImportFrom hexec hs) (returnsNone_execImportFrom _ _) hls
  | «import» => exact .keep (h.execImport hexec hs) (returnsNone_execImport _ _) hls
  | «alias» => exact yields_execAlias hls
  | pass => exact yields_pure hls (.inl rfl)
  | statementList =>
    refine .after reading_confined.readWord fun size => ⟨?_, fun hg hno _ h => ?_⟩
    · exact confined_compositional.iterateM (confined_statementListStep hrec) _ _
    · refine (yields_statements hrec size.toNat hls).value hg hno ?_ h
      -- the value before the first statement is null
      intro q hq r hr
      rw [List.mem_singleton.mp hq] at hr
      cases hr
  | _ => cases htype

lemma yields_executeCharged {ls : LoopState} (hls : ls ≠ .ignoreAll) :
    Yields g [] (executeCharged (executeNext n) [g] n ls) := by
  refine .after (fun s => .refl s) fun start => .after reading_confined.readType fun type => ?_
  have hcheck : Confined g [] _ (checkTopLevel [g] ls type) := objects_confined.throwIf _ _
  have hrest : Confined g [] _ (do
      record (.nodeEntered type ls (Scope.depth [g]))
      let res ← execNode (executeNext n) [g] n ls type
      epilogue start res) :=
    confined_compositional.bind (fun _ => topStep_of_eq [_] rfl rfl rfl rfl rfl rfl rfl rfl) fun _ =>
      confined_compositional.bind (confined_execNode hrec ls type) fun res => confined_epilogue start res
  cases htype : topLevelType type with
  | false =>
    refine ⟨confined_compositional.bind hcheck fun _ => hrest, fun _ _ _ h => ?_⟩
    obtain ⟨_, s₁, hok, -⟩ := bind_eq_ok.mp h
    simp [checkTopLevel, Scope.depth, throwIf, throwRuntime, htype, hls] at hok
  | true =>
    refine .after hcheck fun _ => .after ?_ fun _ =>
      .bind (yields_execNode hrec hls htype) (fun res => confined_epilogue start res)
        fun p ls' hls' => ?_
    · exact fun _ => topStep_of_eq [_] rfl rfl rfl rfl rfl rfl rfl rfl
    · unfold epilogue
      split
      · refine .after ?_ fun _ => yields_pure hls' (.inr (List.mem_singleton.mpr rfl))
        exact fun _ => topStep_of_eq [] rfl rfl rfl rfl rfl rfl rfl rfl
      · exact yields_pure hls' (.inr (List.mem_singleton.mpr rfl))

end Nodes

lemma topRec (g n : Nat) : TopRec g n := by
  induction n with
  | zero => exact ⟨fun _ => confined_compositional.throw _, fun _ _ _ h => by cases h⟩
  | succ n ih =>
    refine ⟨fun ls => ?_, fun hg hno hls h => ?_⟩
    · exact confined_compositional.bind reading_confined.charge fun _ => confined_executeCharged ih ls
    · have hyields : Yields g [] (executeNext (n + 1) [g] _) :=
        .after reading_confined.charge fun _ => yields_executeCharged ih hls
      exact hyields.value hg hno nofun h

/-! ### Running a module -/

/-- An interpreter that has executed nothing yet: its objects are the storage and those of the
registered modules. -/
structure Fresh (g : Nat) (s : State) : Prop where
  scope_eq : s.interp.globalScope = [g]
  storage : ∃ st, s.heap[s.interp.store]? = some (.persistableDictionary st)
  objects : ∀ v ∈ s.heap, v.isGenerator = false ∧ Value.isContainer v = false

/-- `x` leaves a fresh interpreter fresh. -/
abbrev KeepsFresh (g : Nat) (α : Type) (x : M α) : Prop :=
  Relates (fun _ s s' => Fresh g s → Fresh g s') α x

lemma keepsFresh_compositional : Compositional (KeepsFresh g) :=
  Relates.compositional (fun _ _ => id) fun h h' hfresh => h' (h hfresh)

lemma keepsFresh_alloc {v : Value} (hgenerator : v.isGenerator = false)
    (hcontainer : Value.isContainer v = false) : KeepsFresh g _ (alloc v) := by
  intro s
  unfold alloc malloc
  by_cases hgrants : s.memory.grants s.memory.requests = true
  · simp only [bind, EStateM.bind, hgrants, if_true, makeShared]
    intro hfresh
    obtain ⟨st, hst⟩ := hfresh.storage
    refine ⟨hfresh.scope_eq, ⟨st, ?_⟩, fun w hw => ?_⟩
    · rw [List.getElem?_append_left (List.getElem?_eq_some_iff.mp hst).1]
      exact hst
    · obtain hold | hnew := List.mem_append.mp hw
      · exact hfresh.objects w hold
      · rw [List.mem_singleton.mp hnew]
        exact ⟨hgenerator, hcontainer⟩
  · simp only [bind, EStateM.bind, hgrants]
    exact fun hfresh => ⟨hfresh.scope_eq, hfresh.storage, hfresh.objects⟩

lemma keepsFresh_newBlockchainModule : KeepsFresh g _ newBlockchainModule := by
  have c : Compositional (KeepsFresh g) := keepsFresh_compositional
  refine c.bind (keepsFresh_alloc rfl rfl) fun module => c.bind ?_ fun functionMap => c.bind ?_
    fun _ => c.pure _
  · exact c.foldlM (fun _ _ => c.bind (keepsFresh_alloc rfl rfl) fun _ => c.pure _) _ _
  · intro s
    unfold storeAt
    by_cases hclass : (s.heap[module]?).map Value.ctorIdx =
        some (Value.blockchainModule Prng.init functionMap).ctorIdx
    · simp only [hclass, if_true]
      intro hfresh
      obtain ⟨st, hst⟩ := hfresh.storage
      -- the storage is of another class than the module
      have hne : module ≠ s.interp.store := by
        rintro rfl
        rw [hst] at hclass
        simp [Value.ctorIdx] at hclass
      refine ⟨hfresh.scope_eq, ⟨st, by simpa [List.getElem?_set_ne hne] using hst⟩, fun v hv => ?_⟩
      obtain hold | rfl := List.mem_or_eq_of_mem_set hv
      · exact hfresh.objects v hold
      · exact ⟨rfl, rfl⟩
    · simp only [hclass, if_false]
      exact id

/-- `execute_program` starts its interpreter fresh. -/
lemma fresh_setup {archive : Archive} {args : Arguments} {codec : AddressCodec}
    {memory : MemoryManager} {process : Process} {s : State}
    (h : setup archive args (Library.initialState codec memory process args) = .ok () s) :
    Fresh 0 s := by
  obtain ⟨_, s₁, hnew, h⟩ := bind_eq_ok.mp h
  obtain ⟨_, s₀, hmalloc, hnew⟩ := bind_eq_ok.mp hnew
  obtain ⟨_, s₂, hload, h⟩ := bind_eq_ok.mp h
  obtain ⟨_, s₃, hlimit, hregister⟩ := bind_eq_ok.mp h
  have hfresh₁ : Fresh 0 s₁ := by
    have hheap : s₀.heap = [] := by
      have hs₀ := finalState_of_ok hmalloc
      rw [finalState_malloc] at hs₀
      rw [← hs₀]
      rfl
    cases hnew
    refine ⟨rfl, ⟨.empty, by simp [hheap]⟩, fun v hv => ?_⟩
    obtain rfl : v = .persistableDictionary .empty := by simpa [hheap] using hv
    exact ⟨rfl, rfl⟩
  have hfresh₂ : Fresh 0 s₂ := by
    unfold loadOldStorage at hload
    split at hload
    · obtain ⟨st, s', hlift, hload⟩ := bind_eq_ok.mp hload
      cases hload
      cases harchive : archive.load args.oldStorage <;> rw [harchive] at hlift <;> cases hlift
      obtain ⟨st₁, hst₁⟩ := hfresh₁.storage
      refine ⟨hfresh₁.scope_eq, ⟨st, ?_⟩, fun v hv => ?_⟩
      · exact List.getElem?_set_self (List.getElem?_eq_some_iff.mp hst₁).1
      · obtain hold | rfl := List.mem_or_eq_of_mem_set hv
        · exact hfresh₁.objects v hold
        · exact ⟨rfl, rfl⟩
    · cases hload
      exact hfresh₁
  have hfresh₃ : Fresh 0 s₃ := by
    obtain ⟨-, -, hs₃⟩ := limitFromGas_eq_ok hlimit
    rw [hs₃]
    exact ⟨hfresh₂.scope_eq, hfresh₂.storage, hfresh₂.objects⟩
  have hmodule : KeepsFresh 0 _ registerBlockchainModule :=
    keepsFresh_compositional.bind keepsFresh_newBlockchainModule fun _ _ hfresh =>
      ⟨hfresh.scope_eq, hfresh.storage, hfresh.objects⟩
  exact hmodule.of_ok hregister hfresh₃

/-- All that a run leaves behind are bindings in the global scope and new objects. -/
structure OnlyBindings (g : Nat) (s s' : State) : Prop where
  storage_eq : storage s' = storage s
  chain_eq : s'.chain = s.chain
  rand_eq : s'.rand = s.rand
  stdout_eq : s'.stdoutBuffer = s.stdoutBuffer
  interp_eq : fixedPart s' = fixedPart s
  objects : ∀ (r : Ref) (v : Value), s.heap[r]? = some v → s'.heap[r]? = some v
  frames_length : s'.frames.length = s.frames.length
  frames : ∀ id, id ≠ g → s'.frames[id]? = s.frames[id]?

/-- Running a module binds names in its global scope and does nothing else, as long as nothing is
executed below the top level. -/
theorem execute_onlyBindings (n g : Nat) (s : State) (hfresh : Fresh g s)
    (hshallow : ¬Deeper s (finalState (execute n) s)) :
    OnlyBindings g s (finalState (execute n) s) := by
  have hno : NoIterator s := fun v hv => (hfresh.objects v hv).1
  have hexecute : finalState (execute n) s = finalState (evaluate (executeNext n) [g]) s := by
    have hscope : M.globalScope s = .ok [g] s := congrArg (fun sc => EStateM.Result.ok sc s) hfresh.scope_eq
    exact finalState_bind_of_ok hscope
  have hfixed : fixedPart (finalState (execute n) s) = fixedPart s := by
    rw [hexecute]
    have l := closed_keepsFixed
    obtain ⟨-, h⟩ := (l.bind (l.executeNext n [g] .none (by simp)) fun _ => l.pure _).exists_exn s
    exact h
  have hstep : TopStep g [] s (finalState (execute n) s) := by
    rw [hexecute]
    obtain ⟨-, h⟩ := (confined_evaluate (topRec g n)).exists_exn s
    exact h
  obtain ⟨-, hbinds⟩ := (hstep.confined hfresh.scope_eq hno nofun).resolve_left hshallow
  have hobjects : ∀ (r : Ref) (v : Value), s.heap[r]? = some v →
      (finalState (execute n) s).heap[r]? = some v := fun r v hr =>
    hbinds.objects r v hr (hfresh.objects v (List.mem_of_getElem? hr)).2
  obtain ⟨st, hst⟩ := hfresh.storage
  have hstore : (finalState (execute n) s).interp.store = s.interp.store :=
    congrArg (fun part => part.2.1) hfixed
  have hstorage : storage (finalState (execute n) s) = storage s := by
    unfold storage
    rw [hstore, hst, hobjects _ _ hst]
  exact ⟨hstorage, hbinds.chain_eq, hbinds.rand_eq, hbinds.stdout_eq, hfixed, hobjects,
    hbinds.frames_length, hbinds.frames⟩

/-- The code of `import` with a loop instead of an alias; the body of the loop writes to the
storage. -/
def importedLoop : List UInt8 :=
  wordBytes NodeType.import.code ++ wordBytes NodeType.whileLoop.code ++
    (wordBytes NodeType.alias.code ++ stringBytes (lit "a") ++ stringBytes []) ++
    moduleCode [assignItem "store" "x" 7, .break]

/-- A module with one function. -/
def oneFunction : List UInt8 := moduleCode [defStmt "default" [assignItem "store" "x" 7]]

lemma fresh_startState (code : List UInt8) (limit : UInt32) : Fresh 0 (startState code limit) := by
  refine ⟨rfl, ⟨.empty, rfl⟩, fun v hv => ?_⟩
  obtain rfl := List.mem_singleton.mp hv
  exact ⟨rfl, rfl⟩

theorem execute_onlyBindings_oneFunction :
    OnlyBindings 0 (startState oneFunction 1000)
      (finalState (execute 10) (startState oneFunction 1000)) :=
  execute_onlyBindings 10 0 _ (fresh_startState _ _) (by unfold Deeper; decide +kernel)

/-- The body of the imported loop is executed before the import fails. -/
theorem execute_onlyBindings_importedLoop_false :
    Fresh 0 (startState importedLoop 1000) ∧
      ¬OnlyBindings 0 (startState importedLoop 1000)
        (finalState (execute 10) (startState importedLoop 1000)) := by
  refine ⟨fresh_startState _ _, fun h => ?_⟩
  have hwritten : storage (finalState (execute 10) (startState importedLoop 1000)) ≠
      storage (startState importedLoop 1000) := by
    decide +kernel
  exact hwritten h.storage_eq

end ContractPython.Proofs
