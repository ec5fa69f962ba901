import ContractPython.Proofs.Evaluation
import ContractPython.Proofs.Streams
import ContractPython.Proofs.Unread

/-!
# List comprehensions

A comprehension is the loop that appends its element to a list. Its node goes over the iterator itself,
so it has an iterator choice and a skip of the conditions of its own.
-/

namespace ContractPython.Proofs

open Program M Bytes

/-! ### The loop -/

/-- The conditions the cursor stands at hold, one after another. -/
def allHold (rec : Rec) (scope : ScopeRef) : Nat → M Bool
  | 0 => pure true
  | count + 1 => do
    let test ← evaluate rec scope
    if ← boolTest test then allHold rec scope count else pure false

/-- The conditions from `start` on hold. -/
def conditionsHold (rec : Rec) (scope : ScopeRef) (start : UInt32) (count : Nat) : M Bool :=
  if count = 0 then pure true
  else do
    moveTo start
    allHold rec scope count

/-- The body `if c: … list.append(e)`, with `e` at `element` and the conditions from `conditions` on. -/
def appendBody (rec : Rec) (element conditions : UInt32) (count : Nat) (list : Ref) : Rec := fun bodyScope ls => do
  if ← conditionsHold rec bodyScope conditions count then do
    moveTo element
    let (res, ls') ← rec bodyScope ls
    listAppend list res
    pure (none, ls')
  else pure (none, ls)

/-- `for target in obj: if c: … list.append(e)`. -/
def appendLoop (rec : Rec) (scope : ScopeRef) (target : Str) (element conditions : UInt32) (count : Nat)
    (list : Ref) (n : Nat) (obj : ValuePtr) : M ValuePtr := do
  moveTo conditions
  let iter ← loopIterator obj
  forRounds (appendBody rec element conditions count list) scope [target] iter n .topLevel none

/-! ### Frames that are not looked at -/

def withFrames (frames : List Frame) (s : State) : State := { s with frames := frames }

def outcomeWithFrames {α : Type} (frames : List Frame) :
    EStateM.Result Exn State α → EStateM.Result Exn State α
  | .ok a s => .ok a (withFrames frames s)
  | .error e s => .error e (withFrames frames s)

/-- `x` neither looks at the frames nor touches them. -/
def IgnoresFrames (α : Type) (x : M α) : Prop :=
  ∀ s frames, x (withFrames frames s) = outcomeWithFrames frames (x s)

lemma ignoresFrames_sequential : Sequential IgnoresFrames where
  pure _ := fun _ _ => rfl
  bind {α β x f} hx hf := fun s frames => by
    have hfirst := hx s frames
    cases hxs : x s with
    | error e s₁ =>
      rw [hxs] at hfirst
      rw [bind_of_error hxs, bind_of_error hfirst]
      rfl
    | ok a s₁ =>
      rw [hxs] at hfirst
      rw [bind_of_ok hxs, bind_of_ok hfirst]
      exact hf a s₁ frames

lemma ignoresFrames_malloc : IgnoresFrames _ malloc := fun s frames => by
  unfold malloc
  cases h : s.memory.grants s.memory.requests <;> simp [withFrames, outcomeWithFrames, h]

lemma ignoresFrames_storeAt (r : Ref) (v : Value) : IgnoresFrames _ (storeAt r v) := fun s frames => by
  unfold storeAt
  by_cases h : (s.heap[r]?).map Value.ctorIdx = some v.ctorIdx <;> simp [withFrames, outcomeWithFrames, h]

lemma values_ignoresFrames : Values IgnoresFrames where
  toSequential := ignoresFrames_sequential
  throw _ _ := fun _ _ => rfl
  malloc := ignoresFrames_malloc
  makeShared _ := fun _ _ => rfl
  load r := fun s frames => by
    unfold load
    cases h : s.heap[r]? <;> simp [withFrames, outcomeWithFrames, h]
  storeAt r v _ := ignoresFrames_storeAt r v
  writeStore r _ := ignoresFrames_sequential.bind (ignoresFrames_storeAt r _) fun _ _ _ => rfl
  str r := fun s frames => by
    unfold M.str
    cases h : Value.str s.heap (s.heap.length + 1) r <;> simp [withFrames, outcomeWithFrames, h]
  getChain := fun _ _ => rfl
  checkAddress _ := fun _ _ => rfl
  rand := fun _ _ => rfl
  printProgramOutput _ := fun _ _ => rfl
  findModule _ := fun _ _ => rfl
  loadRand := loadRand_of_steps ignoresFrames_sequential ignoresFrames_malloc (fun _ _ => rfl) fun _ _ _ => rfl
  catchStop r hr := fun s frames => by
    have hnext := hr s frames
    unfold tryNext
    rw [hnext]
    cases next r s with
    | ok p s₁ => rfl
    | error e s₁ => cases e <;> rfl

/-! ### Rounds -/

section Rounds

variable {rec : Rec} {scope parents : ScopeRef} {id : Nat} {target : Str} {iter list : Ref}
  {element conditions : UInt32} {n : Nat} {ls ls' : LoopState} {p ret : ValuePtr} {s s' t : State}

/-- The next element does not depend on the frame of the round. -/
lemma tryNext_of_pushed {next : Option ValuePtr}
    (h : tryNext iter { s with frames := s.frames ++ [.empty] } = .ok next t) :
    ∃ s', tryNext iter s = .ok next s' ∧ s'.frames = s.frames ∧ t = { s' with frames := s'.frames ++ [.empty] } := by
  have hsame := values_ignoresFrames.tryNext iter s
  have hown : tryNext iter s = outcomeWithFrames s.frames (tryNext iter s) := hsame s.frames
  have hpushed : tryNext iter { s with frames := s.frames ++ [.empty] } =
      outcomeWithFrames (s.frames ++ [.empty]) (tryNext iter s) := hsame (s.frames ++ [Frame.empty])
  rw [h] at hpushed
  cases hnext : tryNext iter s with
  | error e s' =>
    rw [hnext] at hpushed
    cases hpushed
  | ok next' s' =>
    rw [hnext] at hpushed hown
    cases hpushed
    have hstate : s' = withFrames s.frames s' := by
      injection hown
    have hframes : s'.frames = s.frames := by
      rw [hstate]
      rfl
    refine ⟨s', rfl, hframes, ?_⟩
    rw [hframes]
    rfl

/-- The element is evaluated and appended: what both loops do in a round. -/
def appendElement (rec : Rec) (bodyScope : ScopeRef) (target : Str) (next : ValuePtr) (element : UInt32) (list : Ref)
    (ls : LoopState) : M LoopState := do
  setValue bodyScope target next
  moveTo element
  let (res, ls') ← rec bodyScope ls
  listAppend list res
  pure ls'

lemma isTerminated_cons (id : Nat) (parents : ScopeRef) (s : State) :
    isTerminated (id :: parents) s = .ok (Scope.frame s.frames id).terminated s := rfl

/-- A loop in a scope that is terminated has come to its end. -/
lemma forRounds_of_terminated {body : Rec} {names : List Str} (hflag : (Scope.frame s.frames id).terminated = true)
    (h : forRounds body (id :: parents) names iter n ls ret s = .ok p t) : t = s := by
  cases n with
  | zero => cases h
  | succ n =>
    rw [forRounds, bind_of_ok (isTerminated_cons id parents s), hflag] at h
    cases h
    rfl

lemma keepsFrames_appendElement (hrec : ∀ scope ls, KeepsFrames _ (rec scope ls)) (bodyScope : ScopeRef)
    (next : ValuePtr) : KeepsFrames _ (appendElement rec bodyScope target next element list ls) :=
  keepsFrames_compositional.bind (closed_keepsFrames.setValue _ _ _) fun _ =>
    keepsFrames_compositional.bind (keepsFrames_of_finalState fun _ => rfl) fun _ =>
    keepsFrames_compositional.bind (hrec _ _) fun _ =>
    keepsFrames_compositional.bind (closed_keepsFrames.objects.listAppend _ _) fun _ =>
    keepsFrames_compositional.pure _

/-- The body of the loop appends the element. -/
lemma bodyRound_eq_ok {bodyScope : ScopeRef} {next : ValuePtr} {o : Option (ValuePtr × LoopState)}
    (h : (do
      bindNames bodyScope [target] next
      let res ← appendBody rec element conditions 0 list bodyScope ls
      let res ← propagateReturn scope bodyScope ret res
      pure (some res)) s = .ok o t) :
    ∃ ls' s' res, appendElement rec bodyScope target next element list ls s = .ok ls' s' ∧
      propagateReturn scope bodyScope ret (none, ls') s' = .ok res t ∧ o = some res := by
  obtain ⟨u, s₁, hbind, h⟩ := bind_eq_ok.mp h
  obtain ⟨res, s', hbody, h⟩ := bind_eq_ok.mp h
  obtain ⟨res', s₂, hprop, h⟩ := bind_eq_ok.mp h
  cases h
  have hmove : moveTo element s₁ = .ok () { s₁ with interp := { s₁.interp with data := s₁.interp.data.moveTo element } } :=
    rfl
  replace hbody : (do
      moveTo element
      let (res, ls') ← rec bodyScope ls
      listAppend list res
      pure ((none, ls') : ValuePtr × LoopState)) s₁ = .ok res s' := hbody
  rw [bind_of_ok hmove] at hbody
  obtain ⟨⟨value, ls'⟩, s₃, hrec, hbody⟩ := bind_eq_ok.mp hbody
  obtain ⟨u', s₄, happend, hbody⟩ := bind_eq_ok.mp hbody
  cases hbody
  refine ⟨ls', s', res', ?_, hprop, rfl⟩
  have hset : setValue bodyScope target next s = .ok () s₁ := hbind
  unfold appendElement
  rw [bind_of_ok hset, bind_of_ok hmove, bind_of_ok hrec]
  dsimp only
  rw [bind_of_ok happend]
  rfl

/-- Whenever the loop has come to its end without a return, so has the comprehension. -/
lemma listCompRounds_of_forRounds (hrec : ∀ scope ls, KeepsFrames _ (rec scope ls)) (hid : id < s.frames.length)
    (h : forRounds (appendBody rec element conditions 0 list) (id :: parents) [target] iter n ls ret s = .ok p t)
    (hend : (Scope.frame t.frames id).terminated = false) :
    listCompRounds rec (id :: parents) target iter list element n ls s = .ok () t := by
  induction n generalizing ls ret s with
  | zero => cases h
  | succ n ih =>
    rw [forRounds, bind_of_ok (isTerminated_cons id parents s)] at h
    rw [listCompRounds, bind_of_ok (isTerminated_cons id parents s)]
    by_cases hstop : ((Scope.frame s.frames id).terminated || ls == .break) = true
    · rw [if_pos hstop] at h ⊢
      cases h
      rfl
    rw [if_neg hstop] at h ⊢
    obtain ⟨u, s₁, hcharge, h⟩ := bind_eq_ok.mp h
    obtain ⟨round, s₂, hround, h⟩ := bind_eq_ok.mp h
    have hlength : s₁.frames.length = s.frames.length := closed_keepsFrames.charge.of_ok hcharge
    rw [bind_of_ok hcharge]
    unfold withScope at hround
    by_cases hdeep : 128 ≤ (id :: parents).length
    · rw [if_pos hdeep] at hround
      cases hround
    rw [if_neg hdeep] at hround
    unfold withFrame at hround
    split at hround
    swap
    · cases hround
    rename_i o s₃ hbody
    obtain ⟨next, s₄, hpushed, hbody⟩ := bind_eq_ok.mp hbody
    obtain ⟨s₅, hnext, hframes, rfl⟩ := tryNext_of_pushed hpushed
    rw [bind_of_ok hnext]
    cases next with
    | none =>
      cases hbody
      cases hround
      cases h
      have hleft : (s₅.frames ++ [Frame.empty]).take s₁.frames.length = s₅.frames := by
        rw [← hframes]
        exact List.take_left
      dsimp only
      rw [hleft]
      rfl
    | some next =>
      obtain ⟨ls', s', res, happend, hprop, rfl⟩ := bodyRound_eq_ok hbody
      have hlength' : s'.frames.length = s₁.frames.length + 1 := by
        have hkept := (keepsFrames_appendElement hrec _ next).of_ok happend
        rw [hkept]
        simp [hframes]
      have hid₁ : id < s₁.frames.length := by omega
      unfold propagateReturn at hprop
      rw [bind_of_ok (isTerminated_cons _ _ s')] at hprop
      by_cases hret : (Scope.frame s'.frames s₁.frames.length).terminated = true
      · -- a return would have ended the loop and its scope
        rw [if_pos hret] at hprop
        cases hprop
        cases hround
        have hflag : (Scope.frame ((s'.frames.set id { Scope.frame s'.frames id with terminated := true }).take
            s₁.frames.length) id).terminated = true := by
          rw [frame_take hid₁, frame_set_self _ (by omega)]
        have hstate := forRounds_of_terminated hflag h
        rw [hstate] at hend
        exact absurd hflag (by rw [hend]; exact Bool.false_ne_true)
      · rw [if_neg hret] at hprop
        cases hprop
        cases hround
        have hscope : withScope (id :: parents) (fun bodyScope =>
            appendElement rec bodyScope target next element list ls) s₅ =
            .ok ls' { s₃ with frames := s₃.frames.take s₁.frames.length } := by
          unfold withScope
          rw [if_neg hdeep]
          unfold withFrame
          dsimp only
          rw [show s₅.frames.length = s₁.frames.length by rw [hframes], happend]
        have hrest := ih (by
          dsimp only
          rw [List.length_take]
          omega) h
        exact (bind_of_ok hscope).trans hrest

end Rounds

/-! ### The node -/

/-- `[element for target in iter if c…]`. -/
def comprehension (element : Ast .expr) (target : Str) (iter : Ast .expr) (ifs : Ast .exprs) : Ast .expr :=
  .listComp element (.consExpr (.comprehension (.name target) iter ifs) .noExprs)

/-- What a `ListComp` node knows when it comes to the conditions. -/
structure Head where
  element : UInt32
  target : Str
  list : Ref
  iter : Ref
  ls : LoopState

/-- A `ListComp` node up to the conditions. -/
def untilConditions (rec : Rec) (scope : ScopeRef) (ls : LoopState) : M Head := do
  let element ← pos
  skipNext
  let numLoops ← readWord
  throwIf (numLoops != 1) (lit "Only simple list comprehensions are supported")
  let type2 ← readType
  throwIf (type2 != .comprehension) (lit "invalid type")
  let target ← readName
  let list ← alloc (.list [])
  let (obj, ls) ← rec scope ls
  let iter ← castIterator obj
  pure ⟨element, target, list, iter, ls⟩

lemma execListComp_eq (rec : Rec) (scope : ScopeRef) (n : Nat) (ls : LoopState) :
    execListComp rec scope n ls = (do
      let head ← untilConditions rec scope ls
      skipNext
      let endPos ← pos
      listCompRounds rec scope head.target head.iter head.list head.element n .topLevel
      moveTo endPos
      pure (some head.list, head.ls)) := by
  simp only [execListComp, untilConditions, bind_assoc, pure_bind]

/-- The state the iterator is evaluated in. -/
def atIterator (element : Ast .expr) (target : Str) (scope : ScopeRef) (ls : LoopState) (s : State) : State :=
  created (.list []) (advance ((bytes element).length + 8 + (nameBytes target).length) (charges element)
    (atSwitch .listComp ls scope s))

/-- In a function the cursor of `s` stands at the comprehension, and `iter` evaluates to the object at `r`. -/
structure Comprehends (n : Nat) (scope : ScopeRef) (ls : LoopState) (element : Ast .expr) (target : Str)
    (iter : Ast .expr) (ifs : Ast .exprs) (rest : List UInt8) (r : Ref) (s s₁ : State) : Prop where
  inFunction : 2 ≤ scope.length
  live : Live scope s₁.frames
  notInLoop : ls = .none ∨ ls = .normal
  compiles : accepted false (comprehension element target iter ifs) = true
  placed : Placed (bytes (comprehension element target iter ifs) ++ rest) s
  affords : Affords (1 + charges element) s
  memory : MemoryLeft s
  evaluates : executeNext n scope ls (atIterator element target scope ls s) = .ok (some r, ls) s₁
  passes : s₁.interp.data = (advance (bytes iter).length 0 (atIterator element target scope ls s)).interp.data

/-- The loop with the same element, object and conditions builds the list at `s.heap.length`, and leaves
the state `t`: it comes to its end, and not by a return. -/
def Builds (n : Nat) (scope : ScopeRef) (target : Str) (count : Nat) (r : Ref) (s s₁ t : State) : Prop :=
  (∃ p, appendLoop (executeNext n) scope (cStr target) (UInt32.ofNat (s.interp.data.get + 4))
    (UInt32.ofNat (s₁.interp.data.get + 4)) count s.heap.length n (some r) s₁ = .ok p t) ∧
  isTerminated scope t = .ok false t

/-- The node gives the list at `s.heap.length` and leaves the state `t` with the cursor behind it. -/
def YieldsList (n : Nat) (scope : ScopeRef) (ls : LoopState) (len : Nat) (s t : State) : Prop :=
  executeNext (n + 1) scope ls s = .ok (some s.heap.length, ls) (withCode (advance len 0 s).interp.data t)

/-- Of the conditions `skip_next` reads their number only, and what is read next is behind them. -/
structure ConditionsUnread (ifs : Ast .exprs) (s : State) : Prop where
  unread : (finalState skipNext s).interp.data = (advance 4 0 s).interp.data
  behind : ∀ s', skipNext s = .ok () s' →
    s'.interp.data = (advance (sizeBytes ifs.length ++ bytes ifs).length 0 s).interp.data

/-- Without conditions the comprehension gives the list the loop builds. With conditions it gives the
list the loop builds or throws, and the conditions are not read as other nodes. -/
structure ComprehensionAgrees (n : Nat) (scope : ScopeRef) (ls : LoopState) (element : Ast .expr) (target : Str)
    (iter : Ast .expr) (ifs : Ast .exprs) (r : Ref) (s s₁ : State) : Prop where
  builds : ifs.length = 0 → ∀ t, Builds n scope target ifs.length r s s₁ t →
    YieldsList n scope ls (bytes (comprehension element target iter ifs)).length s t
  filters : 0 < ifs.length → ∀ res s', executeNext (n + 1) scope ls s = .ok res s' →
    ∃ t, Builds n scope target ifs.length r s s₁ t ∧
      YieldsList n scope ls (bytes (comprehension element target iter ifs)).length s t
  unread : 0 < ifs.length → ∀ head s',
    untilConditions (executeNext n) scope ls (atSwitch .listComp ls scope s) = .ok head s' → ConditionsUnread ifs s'

section Node

variable {n : Nat} {scope : ScopeRef} {ls : LoopState} {element iter : Ast .expr} {target : Str} {ifs : Ast .exprs}
  {rest : List UInt8} {r : Ref} {s s₁ t : State} {v : Value}

/-- The bytes of the node. -/
lemma bytes_comprehension (element : Ast .expr) (target : Str) (iter : Ast .expr) (ifs : Ast .exprs) :
    bytes (comprehension element target iter ifs) =
      typeBytes .listComp ++ (bytes element ++ (sizeBytes 1 ++ (typeBytes .comprehension ++
        (nameBytes target ++ (bytes iter ++ (sizeBytes ifs.length ++ bytes ifs)))))) := by
  simp [comprehension, bytes, Ast.length]

/-- The element is skipped, or the node comes no further. -/
lemma untilConditions_run (h : Comprehends n scope ls element target iter ifs rest r s s₁) :
    (skippable element = true → untilConditions (executeNext n) scope ls (atSwitch .listComp ls scope s) =
      (do
        let iter ← castIterator (some r)
        pure (⟨UInt32.ofNat (s.interp.data.get + 4), cStr target, s.heap.length, iter, ls⟩ : Head)) s₁) ∧
    (skippable element = false → ∀ head s',
      untilConditions (executeNext n) scope ls (atSwitch .listComp ls scope s) ≠ .ok head s') := by
  have hplaced := h.placed
  rw [bytes_comprehension] at hplaced
  simp only [List.append_assoc] at hplaced
  have hswitch := silent_atSwitch .listComp ls scope s
  have hnode := hswitch.placed (by simp [typeBytes]) hplaced
  have haccepted : accepted false element = true := by
    have hcompiles := h.compiles
    simp only [comprehension, accepted, Bool.and_eq_true] at hcompiles
    exact hcompiles.1
  have hskips := skips_skipNext element (.inl rfl) haccepted
  obtain ⟨helement, hrest⟩ := hnode.append
  have hpos : pos (atSwitch .listComp ls scope s) =
      .ok (UInt32.ofNat (s.interp.data.get + 4)) (atSwitch .listComp ls scope s) := by
    have hdata : (atSwitch .listComp ls scope s).interp.data.pos = UInt32.ofNat (s.interp.data.get + 4) := by
      unfold Bitstream.pos
      rw [hnode.good]
      rfl
    unfold pos
    rw [hdata]
  constructor
  · intro hskippable
    have hskip := hskips.of_affords helement hskippable (hswitch.affords h.affords)
    obtain ⟨hnum, hcode⟩ := readWord_placed (hrest (charges element))
    obtain ⟨htype, hname⟩ := readType_placed (t := .comprehension) (by simp) hcode
    obtain ⟨hread, -⟩ := readName_placed hname
    have hmemory : MemoryLeft (advance (nameBytes target).length 0 (advance 4 0 (advance 4 0
        (advance (bytes element).length (charges element) (atSwitch .listComp ls scope s))))) := h.memory
    have halloc := alloc_of_memoryLeft hmemory (.list [])
    have hstate : created (.list []) (advance (nameBytes target).length 0 (advance 4 0 (advance 4 0
        (advance (bytes element).length (charges element) (atSwitch .listComp ls scope s))))) =
        atIterator element target scope ls s := by
      simp only [advance_advance]
      rfl
    unfold untilConditions
    rw [bind_of_ok hpos, bind_of_ok hskip, bind_of_ok hnum]
    refine (bind_of_ok htype).trans ((bind_of_ok hread).trans ((bind_of_ok halloc).trans ?_))
    rw [hstate]
    exact bind_of_ok h.evaluates
  · intro hskippable head s' hrun
    unfold untilConditions at hrun
    rw [bind_of_ok hpos] at hrun
    obtain ⟨u, s₂, hskip, -⟩ := bind_eq_ok.mp hrun
    have hok := (hskips.of_ok helement hskip).1
    rw [hskippable] at hok
    cases hok

/-- An iterator object is taken as it is, any other is refused. -/
lemma castIterator_of_heap (hr : s₁.heap[r]? = some v) :
    (v.isGenerator = true → castIterator (some r) s₁ = .ok r s₁) ∧
    (v.isGenerator = false → ∀ r' s', castIterator (some r) s₁ ≠ .ok r' s') := by
  have hcast : castIterator (some r) s₁ =
      (if v.isGenerator then pure r else throw (.valueException (lit "Invalid value cast")) : M Ref) s₁ :=
    bind_of_ok (load_of_heap hr)
  rw [hcast]
  constructor
  · intro hgenerator
    rw [hgenerator]
    rfl
  · intro hgenerator r' s' hrun
    rw [hgenerator] at hrun
    cases hrun

/-- The node comes to its conditions when `skip_next` knows the element and the object is an iterator. -/
lemma untilConditions_eq_ok (h : Comprehends n scope ls element target iter ifs rest r s s₁)
    (hr : s₁.heap[r]? = some v) (head : Head) (s' : State) :
    untilConditions (executeNext n) scope ls (atSwitch .listComp ls scope s) = .ok head s' ↔
      (skippable element = true ∧ v.isGenerator = true) ∧
        head = ⟨UInt32.ofNat (s.interp.data.get + 4), cStr target, s.heap.length, r, ls⟩ ∧ s' = s₁ := by
  obtain ⟨hrun, hstuck⟩ := untilConditions_run h
  obtain ⟨hcast, hrefused⟩ := castIterator_of_heap hr
  cases hskippable : skippable element with
  | false =>
    have hnever := hstuck hskippable head s'
    exact ⟨fun hok => absurd hok hnever, fun hall => absurd hall.1.1 Bool.false_ne_true⟩
  | true =>
    rw [hrun hskippable]
    cases hgenerator : v.isGenerator with
    | false =>
      constructor
      · intro hok
        obtain ⟨r', s₂, hcast', -⟩ := bind_eq_ok.mp hok
        exact absurd hcast' (hrefused hgenerator r' s₂)
      · exact fun hall => absurd hall.1.2 Bool.false_ne_true
    | true =>
      rw [bind_of_ok (hcast hgenerator)]
      constructor
      · intro hok
        cases hok
        exact ⟨⟨rfl, rfl⟩, rfl, rfl⟩
      · rintro ⟨-, rfl, rfl⟩
        rfl

/-- `skip_next` takes the number of the conditions for a node type. -/
lemma skipNext_count {w : UInt32} {bs : List UInt8} (hs : Placed (wordBytes w ++ bs) s) :
    ∃ m, skipNext s = skipNode (skipFuel (m + 1)) (.ofCode w) (advance 4 0 s) := by
  obtain ⟨hread, -⟩ := readWord_placed hs
  have htype : readType s = .ok (.ofCode w) (advance 4 0 s) := by
    unfold readType
    rw [bind_of_ok hread]
    rfl
  have hlength : 4 ≤ s.interp.data.bytecode.length := by
    have hinside := hs.inside
    rw [List.length_append, length_wordBytes] at hinside
    omega
  have hstart : skipNext s = skipFuel (s.interp.data.bytecode.length + 1) s := rfl
  refine ⟨s.interp.data.bytecode.length - 1, ?_⟩
  rw [hstart, Nat.sub_add_cancel (by omega)]
  exact bind_of_ok htype

lemma execNode_listComp : execNode (executeNext n) scope n ls .listComp = execListComp (executeNext n) scope n ls := rfl

/-- The node, from its conditions on. -/
lemma executeNext_comprehension (h : Comprehends n scope ls element target iter ifs rest r s s₁) :
    executeNext (n + 1) scope ls s = (do
      let head ← untilConditions (executeNext n) scope ls
      skipNext
      let endPos ← pos
      listCompRounds (executeNext n) scope head.target head.iter head.list head.element n .topLevel
      moveTo endPos
      epilogue s.interp.data.pos (some head.list, head.ls)) (atSwitch .listComp ls scope s) := by
  have hplaced := h.placed
  rw [bytes_comprehension, List.append_assoc] at hplaced
  have hgas : Affords 1 s := h.affords.mono (by omega)
  have hknown : ∀ c, NodeType.listComp ≠ .unknown c := nofun
  rw [executeNext_placed hknown (.inl h.inFunction) hplaced hgas, execNode_listComp, execListComp_eq]
  simp only [bind_assoc, pure_bind]

/-- The cursor of `s₁` stands at the conditions. -/
lemma placed_conditions (h : Comprehends n scope ls element target iter ifs rest r s s₁) :
    Placed (sizeBytes ifs.length ++ (bytes ifs ++ rest)) s₁ ∧
      s₁.interp.data.get + 4 + (bytes ifs).length =
        s.interp.data.get + (bytes (comprehension element target iter ifs)).length ∧
      s₁.interp.data = { s.interp.data with get := s₁.interp.data.get } := by
  have hplaced := h.placed
  have hsplit : bytes (comprehension element target iter ifs) =
      (typeBytes .listComp ++ (bytes element ++ (sizeBytes 1 ++ (typeBytes .comprehension ++
        (nameBytes target ++ bytes iter))))) ++ (sizeBytes ifs.length ++ bytes ifs) := by
    rw [bytes_comprehension]
    simp only [List.append_assoc]
  have hlength : (typeBytes .listComp ++ (bytes element ++ (sizeBytes 1 ++ (typeBytes .comprehension ++
      (nameBytes target ++ bytes iter))))).length =
      4 + (bytes element).length + 8 + (nameBytes target).length + (bytes iter).length := by
    simp only [List.length_append, typeBytes, sizeBytes, length_wordBytes]
    omega
  have hdata : s₁.interp.data = (advance (4 + (bytes element).length + 8 + (nameBytes target).length +
      (bytes iter).length) 0 s).interp.data := by
    rw [h.passes]
    simp only [atIterator, created, atSwitch, advance, Nat.add_assoc]
  have hget : s₁.interp.data.get = s.interp.data.get + (4 + (bytes element).length + 8 + (nameBytes target).length +
      (bytes iter).length) := by
    rw [hdata]
    rfl
  refine ⟨?_, ?_, ?_⟩
  · rw [hsplit, List.append_assoc] at hplaced
    have htail := hplaced.append.2 0
    rw [hlength, List.append_assoc] at htail
    exact htail.of_data hdata
  · rw [hsplit, List.length_append, hlength, List.length_append, sizeBytes, length_wordBytes, hget]
    omega
  · rw [hget, hdata]
    rfl

/-- Going to a place in a readable stream. -/
lemma moveTo_readable {get : Nat} (hgood : s.interp.data.fail = false) (hsmall : s.interp.data.bytecode.length < 2 ^ 32)
    (hget : get ≤ s.interp.data.bytecode.length) :
    moveTo (UInt32.ofNat get) s = .ok () (withCode { s.interp.data with get := get } s) := by
  have htoNat : (UInt32.ofNat get).toNat = get := by
    rw [UInt32.toNat_ofNat']
    omega
  have hmove : s.interp.data.moveTo (UInt32.ofNat get) = { s.interp.data with get := get } := by
    unfold Bitstream.moveTo
    rw [if_neg (by simp [hgood]), htoNat, if_pos hget]
  unfold moveTo
  rw [hmove]
  rfl

lemma advance_zero (len : Nat) (s : State) :
    advance len 0 s = withCode { s.interp.data with get := s.interp.data.get + len } s := by
  simp [advance, withCode]

/-- The rounds stay in the bytecode. -/
lemma over_listCompRounds {code : List UInt8} {put start : Nat} {list : Ref} {name : Str} (hsmall : code.length < 2 ^ 32)
    (hstart : start ≤ code.length) (hs : Over code put s)
    (h : listCompRounds (executeNext n) scope name r list (UInt32.ofNat start) n .topLevel s = .ok () t) :
    Over code put t := by
  have hclosed : Closed (fun _ => True) (StaysIn code put) := closed_staysIn hsmall
  have hmove : StaysIn code put _ (moveTo (UInt32.ofNat start)) := by
    refine staysIn_moveTo ?_
    rw [UInt32.toNat_ofNat']
    omega
  have hscope : Touches (fun _ => True) scope := fun _ _ => trivial
  have hrounds := (hclosed.related.listCompRounds ⟨⟨hscope, hscope⟩, rfl⟩ name r list (fun _ => ⟨hmove, hmove⟩) n
    (hclosed.related.recursive n) .topLevel).1
  exact hrounds.of_ok h rfl hs

/-- Over an iterator the comprehension builds what the loop builds. -/
lemma yieldsList_of_builds (h : Comprehends n scope ls element target iter .noExprs rest r s s₁)
    (hr : s₁.heap[r]? = some v) (hskippable : skippable element = true) (hgenerator : v.isGenerator = true)
    (hbuilds : Builds n scope target 0 r s s₁ t) :
    YieldsList n scope ls (bytes (comprehension element target iter .noExprs)).length s t := by
  obtain ⟨hplaced, hget, hdata⟩ := placed_conditions h
  obtain ⟨⟨p, hloop⟩, hend⟩ := hbuilds
  have hinside := hplaced.inside
  have hsize : (sizeBytes (Ast.length (Ast.noExprs)) ++ (bytes Ast.noExprs ++ rest)).length = 4 + rest.length := by
    simp [sizeBytes, bytes]
  rw [hsize] at hinside
  have hinside' : (advance 4 0 s₁).interp.data.get ≤ (advance 4 0 s₁).interp.data.bytecode.length := by
    show s₁.interp.data.get + 4 ≤ s₁.interp.data.bytecode.length
    omega
  have hskip : skipNext s₁ = .ok () (advance 4 0 s₁) := by
    obtain ⟨m, hskip⟩ := skipNext_count hplaced
    rw [hskip, skipNode_bare rfl]
    rfl
  have hpos : pos (advance 4 0 s₁) = .ok (UInt32.ofNat (s₁.interp.data.get + 4)) (advance 4 0 s₁) := by
    have hposition : (advance 4 0 s₁).interp.data.pos = UInt32.ofNat (s₁.interp.data.get + 4) := by
      have hgood : (advance 4 0 s₁).interp.data.fail = false := hplaced.good
      unfold Bitstream.pos
      rw [hgood]
      rfl
    unfold pos
    rw [hposition]
  have hmove : moveTo (UInt32.ofNat (s₁.interp.data.get + 4)) s₁ = .ok () (advance 4 0 s₁) := by
    rw [moveTo_readable hplaced.good hplaced.small (by omega), advance_zero]
  have hiterator : loopIterator (some r) (advance 4 0 s₁) = .ok r (advance 4 0 s₁) := by
    have hr' : (advance 4 0 s₁).heap[r]? = some v := hr
    show (do
      let v ← load r
      if v.isGenerator then pure r
      else if v.canIterate then castIterator (← iterate r v)
      else throwRuntime (lit "Can't iterate") : M Ref) (advance 4 0 s₁) = _
    rw [bind_of_ok (load_of_heap hr'), hgenerator]
    rfl
  unfold appendLoop at hloop
  rw [bind_of_ok hmove, bind_of_ok hiterator] at hloop
  obtain ⟨id, parents, rfl⟩ := List.exists_cons_of_ne_nil h.live.1
  have hid : id < (advance 4 0 s₁).frames.length := h.live.2 id List.mem_cons_self
  have hflag : (Scope.frame t.frames id).terminated = false := by
    rw [isTerminated_cons] at hend
    injection hend
  have hrounds := listCompRounds_of_forRounds (fun scope ls => closed_keepsFrames.executeNext n scope ls
    fun _ _ => trivial) hid hloop hflag
  have hcode : s₁.interp.data.bytecode = s.interp.data.bytecode := by rw [hdata]
  have hput : s₁.interp.data.put = s.interp.data.put := by rw [hdata]
  have hstart : Over s.interp.data.bytecode s.interp.data.put (advance 4 0 s₁) :=
    ⟨hcode, hput, hplaced.good, hinside'⟩
  have hbody : s.interp.data.get + 4 ≤ s.interp.data.bytecode.length := by
    have hwhole := h.placed.inside
    rw [bytes_comprehension] at hwhole
    simp only [List.length_append, typeBytes, length_wordBytes] at hwhole
    omega
  have hover := over_listCompRounds h.placed.small hbody hstart hrounds
  have hend : moveTo (UInt32.ofNat (s₁.interp.data.get + 4)) t =
      .ok () (withCode (advance (bytes (comprehension element target iter .noExprs)).length 0 s).interp.data t) := by
    have hlast : s₁.interp.data.get + 4 ≤ t.interp.data.bytecode.length := by
      rw [hover.bytecode_eq, ← hcode]
      omega
    have hgood : t.interp.data.fail = s.interp.data.fail := hover.readable.1.trans h.placed.good.symm
    rw [moveTo_readable hover.readable.1 (by rw [hover.bytecode_eq]; exact h.placed.small) hlast, advance_zero]
    have hstream : ({ t.interp.data with get := s₁.interp.data.get + 4 } : Bitstream) =
        { s.interp.data with
          get := s.interp.data.get + (bytes (comprehension element target iter .noExprs)).length } := by
      have hgets : s₁.interp.data.get + 4 =
          s.interp.data.get + (bytes (comprehension element target iter .noExprs)).length := hget
      simp only [hover.bytecode_eq, hover.put_eq, hgood, hgets]
    rw [hstream]
    rfl
  have hhead := (untilConditions_eq_ok h hr _ _).mpr ⟨⟨hskippable, hgenerator⟩, rfl, rfl⟩
  unfold YieldsList
  rw [executeNext_comprehension h, bind_of_ok hhead, bind_of_ok hskip, bind_of_ok hpos, bind_of_ok hrounds,
    bind_of_ok hend]
  rcases h.notInLoop with rfl | rfl
  · rfl
  · rfl

/-- The number of the conditions is no node type `skip_next` knows. -/
def refused (ifs : Ast .exprs) : Bool := !NodeType.isSkipped (.ofCode (UInt32.ofNat ifs.length))

/-- The conditions are left unread exactly when `skip_next` refuses their number. -/
lemma conditionsUnread_iff (hplaced : Placed (sizeBytes ifs.length ++ (bytes ifs ++ rest)) s)
    (haccepted : accepted true ifs = true) (hpos : 0 < ifs.length) :
    ConditionsUnread ifs s ↔ refused ifs = true := by
  have hbytes := length_le_bytes ifs haccepted
  have hinside := hplaced.inside
  have hsmall := hplaced.small
  simp only [List.length_append, sizeBytes, length_wordBytes] at hinside
  have hlength : (sizeBytes ifs.length ++ bytes ifs).length = 4 + (bytes ifs).length := by
    simp [sizeBytes]
  obtain ⟨m, hskip⟩ := skipNext_count hplaced
  unfold refused
  cases hcase : NodeType.isSkipped (.ofCode (UInt32.ofNat ifs.length)) with
  | false =>
    rw [skipNode_unknown hcase] at hskip
    refine ⟨fun _ => rfl, fun _ => ⟨by rw [finalState_of_error hskip], fun s' hs' => ?_⟩⟩
    rw [hskip] at hs'
    cases hs'
  | true =>
    constructor
    swap
    · intro h
      cases h
    rintro ⟨hunread, hbehind⟩
    exfalso
    cases hbare : NodeType.isBare (.ofCode (UInt32.ofNat ifs.length)) with
    | true =>
      rw [skipNode_bare hbare] at hskip
      have hdata := hbehind _ hskip
      rw [hlength] at hdata
      have hget : s.interp.data.get + 4 = s.interp.data.get + (4 + (bytes ifs).length) := congrArg Bitstream.get hdata
      omega
    | false =>
      have hleft : 0 < unread (advance 4 0 s) := by
        have hgood : (advance 4 0 s).interp.data.fail = false := hplaced.good
        unfold unread Bitstream.unread
        rw [hgood]
        show 0 < s.interp.data.bytecode.length - (s.interp.data.get + 4)
        omega
      have htakes := takes_skipNode hcase hbare m _ hleft
      have hsame : unread (finalState (skipNode (skipFuel (m + 1)) (.ofCode (UInt32.ofNat ifs.length)))
          (advance 4 0 s)) = unread (advance 4 0 s) := by
        have hfinal : finalState skipNext s = finalState (skipNode (skipFuel (m + 1))
            (.ofCode (UInt32.ofNat ifs.length))) (advance 4 0 s) := by
          unfold finalState
          rw [hskip]
        rw [hfinal] at hunread
        unfold unread
        rw [hunread]
      omega

/-- A comprehension agrees with the loop exactly when it has no conditions, `skip_next` knows its
element and the object is an iterator, if the loop builds a list; or when it has conditions and does not
come to them, or `skip_next` refuses their number. -/
theorem comprehension_agrees_iff (h : Comprehends n scope ls element target iter ifs rest r s s₁)
    (hr : s₁.heap[r]? = some v) :
    ComprehensionAgrees n scope ls element target iter ifs r s s₁ ↔
      (ifs.length = 0 → (∃ t, Builds n scope target ifs.length r s s₁ t) →
        skippable element = true ∧ v.isGenerator = true) ∧
      (0 < ifs.length → skippable element = true → v.isGenerator = true → refused ifs = true) := by
  have haccepted : accepted true ifs = true := by
    have hcompiles := h.compiles
    simp only [comprehension, accepted, Bool.and_eq_true] at hcompiles
    exact hcompiles.2.1.2.2
  have hhead := untilConditions_eq_ok h hr
  constructor
  · intro hagrees
    constructor
    · rintro hnone ⟨t, hbuilds⟩
      have hyields := hagrees.builds hnone t hbuilds
      unfold YieldsList at hyields
      rw [executeNext_comprehension h] at hyields
      obtain ⟨head, s', hrun, -⟩ := bind_eq_ok.mp hyields
      exact ((hhead _ _).mp hrun).1
    · intro hpos hskippable hgenerator
      have hrun := (hhead _ _).mpr ⟨⟨hskippable, hgenerator⟩, rfl, rfl⟩
      exact (conditionsUnread_iff (placed_conditions h).1 haccepted hpos).mp (hagrees.unread hpos _ _ hrun)
  · rintro ⟨hplain, hconditions⟩
    refine ⟨fun hnone t hbuilds => ?_, fun hpos res s' hrun => ?_, fun hpos head s' hrun => ?_⟩
    · obtain ⟨hskippable, hgenerator⟩ := hplain hnone ⟨t, hbuilds⟩
      cases ifs with
      | noExprs => exact yieldsList_of_builds h hr hskippable hgenerator hbuilds
      | consExpr head tail => cases hnone
    · -- it does not come to the conditions, or `skip_next` throws there
      rw [executeNext_comprehension h] at hrun
      obtain ⟨head, s₂, hfirst, hrest⟩ := bind_eq_ok.mp hrun
      obtain ⟨⟨hskippable, hgenerator⟩, -, rfl⟩ := (hhead _ _).mp hfirst
      obtain ⟨u, s₃, hskip, -⟩ := bind_eq_ok.mp hrest
      obtain ⟨m, hcount⟩ := skipNext_count (placed_conditions h).1
      have hrefused := hconditions hpos hskippable hgenerator
      unfold refused at hrefused
      rw [hcount, skipNode_unknown (by simpa using hrefused)] at hskip
      cases hskip
    · obtain ⟨⟨hskippable, hgenerator⟩, -, rfl⟩ := (hhead _ _).mp hrun
      have hrefused := hconditions hpos hskippable hgenerator
      exact (conditionsUnread_iff (placed_conditions h).1 haccepted hpos).mpr hrefused

end Node

/-- In a function, with `g` the object `v` and two integers behind it, before `code`. -/
def comprehending (v : Value) (code : List UInt8) : State :=
  let values : SortedMap Str ValuePtr := SortedMap.empty.insertAll [(lit "store", some 0), (lit "g", some 1)]
  { startState code 1000 with
    heap := [.persistableDictionary .empty, v, .integer 7, .integer 8]
    frames := [{ Frame.empty with values := values }, .empty] }

/-- `[x for x in g]`. -/
def copyG : Ast .expr := comprehension (.name (lit "x")) (lit "x") (.name (lit "g")) .noExprs

/-- The state behind `g`. -/
def behindG (s : State) : State :=
  finalState (executeNext 4 [1, 0] .none) (atIterator (.name (lit "x")) (lit "x") [1, 0] .none s)

lemma live_of_length {frames : List Frame} (h : frames.length = 2) : Live [1, 0] frames := by
  refine ⟨List.cons_ne_nil _ _, fun id hid => ?_⟩
  simp only [List.mem_cons, List.not_mem_nil, or_false] at hid
  omega

lemma comprehends_copyG {v : Value}
    (hruns : returned (executeNext 4 [1, 0] .none)
      (atIterator (.name (lit "x")) (lit "x") [1, 0] .none (comprehending v (bytes copyG))) = some (some 1, .none))
    (hlength : (behindG (comprehending v (bytes copyG))).frames.length = 2)
    (hpasses : (behindG (comprehending v (bytes copyG))).interp.data = (advance (bytes (.name (lit "g"))).length 0
      (atIterator (.name (lit "x")) (lit "x") [1, 0] .none (comprehending v (bytes copyG)))).interp.data) :
    Comprehends 4 [1, 0] .none (.name (lit "x")) (lit "x") (.name (lit "g")) .noExprs [] 1
      (comprehending v (bytes copyG)) (behindG (comprehending v (bytes copyG))) where
  inFunction := le_refl 2
  live := live_of_length hlength
  notInLoop := .inl rfl
  compiles := rfl
  placed := by
    have hcode : Placed (bytes copyG) (startState (bytes copyG) 1000) := placed_startState _ _ (by decide)
    rw [List.append_nil]
    exact hcode.of_data rfl
  affords := .inr (show 0 + (1 + 0) < 1000 by omega)
  memory := rfl
  evaluates := eq_ok_of_returned hruns
  passes := hpasses

/-- The loop over `g`. -/
def loopOverG (v : Value) : M ValuePtr :=
  appendLoop (executeNext 4) [1, 0] (cStr (lit "x")) (UInt32.ofNat ((comprehending v (bytes copyG)).interp.data.get + 4))
    (UInt32.ofNat ((behindG (comprehending v (bytes copyG))).interp.data.get + 4)) 0
    (comprehending v (bytes copyG)).heap.length 4 (some 1)

/-- The loop comes to its end. -/
lemma builds_of_loopOverG {v : Value} (hloop : returned (loopOverG v) (behindG (comprehending v (bytes copyG))) = some none)
    (hflag : (Scope.frame (finalState (loopOverG v) (behindG (comprehending v (bytes copyG)))).frames 1).terminated =
      false) :
    Builds 4 [1, 0] (lit "x") 0 1 (comprehending v (bytes copyG)) (behindG (comprehending v (bytes copyG)))
      (finalState (loopOverG v) (behindG (comprehending v (bytes copyG)))) := by
  have hrun : loopOverG v (behindG (comprehending v (bytes copyG))) =
      .ok none (finalState (loopOverG v) (behindG (comprehending v (bytes copyG)))) := eq_ok_of_returned hloop
  refine ⟨⟨none, hrun⟩, ?_⟩
  rw [isTerminated_cons, hflag]

/-- `[x for x in range(0, 2)]`. -/
theorem comprehension_agrees_range :
    Builds 4 [1, 0] (lit "x") 0 1 (comprehending (.rangeIterator 0 2 1) (bytes copyG))
      (behindG (comprehending (.rangeIterator 0 2 1) (bytes copyG)))
      (finalState (loopOverG (.rangeIterator 0 2 1)) (behindG (comprehending (.rangeIterator 0 2 1) (bytes copyG)))) ∧
    ComprehensionAgrees 4 [1, 0] .none (.name (lit "x")) (lit "x") (.name (lit "g")) .noExprs 1
      (comprehending (.rangeIterator 0 2 1) (bytes copyG))
      (behindG (comprehending (.rangeIterator 0 2 1) (bytes copyG))) := by
  have hloop : returned (loopOverG (.rangeIterator 0 2 1))
      (behindG (comprehending (.rangeIterator 0 2 1) (bytes copyG))) = some none := by decide +kernel
  have hflag : (Scope.frame (finalState (loopOverG (.rangeIterator 0 2 1))
      (behindG (comprehending (.rangeIterator 0 2 1) (bytes copyG)))).frames 1).terminated = false := by
    decide +kernel
  have hbuilds := builds_of_loopOverG hloop hflag
  have hr : (behindG (comprehending (.rangeIterator 0 2 1) (bytes copyG))).heap[1]? =
      some (.rangeIterator 0 2 1) := by decide +kernel
  have hnode := comprehends_copyG (v := .rangeIterator 0 2 1) (by decide +kernel) (by decide +kernel) (by decide +kernel)
  have hiff := comprehension_agrees_iff hnode hr
  have hnone : ¬0 < Ast.length Ast.noExprs := Nat.lt_irrefl 0
  have hagrees := hiff.mpr ⟨fun _ _ => ⟨rfl, rfl⟩, fun hpos => absurd hpos hnone⟩
  exact ⟨hbuilds, hagrees⟩

/-- `[x for x in l]` throws for a list `l`, and the loop copies the list. -/
theorem comprehension_agrees_list_false :
    Comprehends 4 [1, 0] .none (.name (lit "x")) (lit "x") (.name (lit "g")) .noExprs [] 1
      (comprehending (.list [some 2, some 3]) (bytes copyG))
      (behindG (comprehending (.list [some 2, some 3]) (bytes copyG))) ∧
    ¬ComprehensionAgrees 4 [1, 0] .none (.name (lit "x")) (lit "x") (.name (lit "g")) .noExprs 1
      (comprehending (.list [some 2, some 3]) (bytes copyG))
      (behindG (comprehending (.list [some 2, some 3]) (bytes copyG))) := by
  have hnode := comprehends_copyG (v := .list [some 2, some 3]) (by decide +kernel) (by decide +kernel)
    (by decide +kernel)
  refine ⟨hnode, fun h => ?_⟩
  have hloop : returned (loopOverG (.list [some 2, some 3]))
      (behindG (comprehending (.list [some 2, some 3]) (bytes copyG))) = some none := by decide +kernel
  have hflag : (Scope.frame (finalState (loopOverG (.list [some 2, some 3]))
      (behindG (comprehending (.list [some 2, some 3]) (bytes copyG)))).frames 1).terminated = false := by
    decide +kernel
  have hyields := h.builds rfl _ (builds_of_loopOverG hloop hflag)
  have hthrows : returns (executeNext (4 + 1) [1, 0] .none) (comprehending (.list [some 2, some 3]) (bytes copyG)) =
      false := by
    decide +kernel
  have hreturns := returns_of_ok hyields
  rw [hthrows] at hreturns
  cases hreturns

end ContractPython.Proofs
