import ContractPython.Proofs.Fixed
import ContractPython.Proofs.Scopes

/-!
# Frames and streams

A computation pops the frames it pushes. It reads the bytecode of its interpreter and moves the cursor
inside it; a computation that returns has not failed to read.
-/

namespace ContractPython.Proofs

open Program M

/-! ### Frames -/

/-- `x` keeps the number of frames. -/
abbrev KeepsFrames (α : Type) (x : M α) : Prop :=
  Relates (fun _ s s' => s'.frames.length = s.frames.length) α x

lemma keepsFrames_of_finalState {α : Type} {x : M α}
    (hx : ∀ s, (finalState x s).frames.length = s.frames.length) : KeepsFrames α x :=
  Relates.of_unchanged (Q := fun _ v v' => v' = v) (fun s : State => s.frames.length) (fun _ _ => rfl) hx

lemma keepsFrames_compositional : Compositional KeepsFrames :=
  Relates.compositional (fun _ _ => rfl) fun h h' => h'.trans h

lemma keepsFrames_storeAt (r : Ref) (v : Value) : KeepsFrames _ (storeAt r v) :=
  keepsFrames_of_finalState fun s => by
    rw [finalState_storeAt]
    split <;> rfl

lemma keepsFrames_modifyScope (scope : ScopeRef) (f : Frame → Frame) : KeepsFrames _ (modifyScope scope f) :=
  keepsFrames_of_finalState fun s => by
    rw [finalState_modifyScope]
    cases scope with
    | nil => rfl
    | cons id parents => exact List.length_set

lemma keepsFrames_onData {α : Type} (f : Bitstream → Option α × Bitstream) : KeepsFrames _ (onData f) :=
  keepsFrames_of_finalState fun s => by rw [finalState_onData]

lemma closed_keepsFrames : Closed (fun _ => True) KeepsFrames where
  toSequential := keepsFrames_compositional.toSequential
  throw e _ := keepsFrames_compositional.throw e
  stuck := keepsFrames_compositional.throw _
  malloc := keepsFrames_of_finalState fun s => by rw [finalState_malloc]
  makeShared _ := keepsFrames_of_finalState fun _ => rfl
  load r := keepsFrames_of_finalState fun s => by rw [finalState_load]
  storeAt r v _ := keepsFrames_storeAt r v
  writeStore _ _ := keepsFrames_compositional.bind (keepsFrames_storeAt _ _) fun _ _ => rfl
  findValue _ _ := keepsFrames_of_finalState fun _ => rfl
  setValue scope name value := keepsFrames_of_finalState fun s => length_setValue s.frames scope name value
  hasValue _ _ := keepsFrames_of_finalState fun _ => rfl
  setGlobalTag _ _ _ := keepsFrames_modifyScope _ _
  terminate _ _ := keepsFrames_modifyScope _ _
  requireGlobal _ _ := keepsFrames_modifyScope _ _
  isTerminated scope _ := keepsFrames_of_finalState fun s => by rw [finalState_isTerminated]
  withFrame hf := relates_withFrame (fun id => hf id trivial) fun _ s s' h => by
    rw [List.length_append, List.length_singleton] at h
    rw [List.length_take]
    omega
  str r := keepsFrames_of_finalState fun s => by rw [finalState_str]
  getChain := keepsFrames_of_finalState fun _ => rfl
  setFunds _ _ := keepsFrames_of_finalState fun _ => rfl
  checkAddress _ := keepsFrames_of_finalState fun _ => rfl
  rand := keepsFrames_of_finalState fun _ => rfl
  printProgramOutput _ := keepsFrames_of_finalState fun _ => rfl
  charge := keepsFrames_of_finalState fun s => by rw [finalState_charge]; rfl
  readWord := keepsFrames_onData _
  readString := keepsFrames_onData _
  readStub _ := keepsFrames_compositional.bind (keepsFrames_onData _) fun _ =>
    keepsFrames_compositional.bind (keepsFrames_onData _) fun _ => keepsFrames_compositional.pure _
  peekType := keepsFrames_onData _
  returnTo hf := keepsFrames_compositional.bind (keepsFrames_of_finalState fun _ => rfl) fun start =>
    hf start (keepsFrames_of_finalState fun _ => rfl)
  streamLength := keepsFrames_of_finalState fun _ => rfl
  inGlobalScope hf := keepsFrames_compositional.bind (keepsFrames_of_finalState fun _ => rfl)
    fun scope => hf scope (by simp [Touches])
  findModule _ := keepsFrames_of_finalState fun _ => rfl
  loadRand := loadRand_of_steps keepsFrames_compositional.toSequential
    (keepsFrames_of_finalState fun s => by rw [finalState_malloc])
    (keepsFrames_of_finalState fun _ => rfl) fun _ => keepsFrames_of_finalState fun _ => rfl
  catchStop _ hr := relates_tryNext hr fun _ _ h => h
  record _ _ _ := keepsFrames_of_finalState fun _ => rfl
  checkLimit := keepsFrames_of_finalState fun s => by
    rw [finalState_checkLimit]
    split <;> rfl
  runCallee _ _ _ _ _ _ hn _ := by
    have hbody := keepsFrames_compositional.bind hn fun res => keepsFrames_compositional.pure res.1
    refine relates_runCallee hbody (fun _ _ _ h => h) fun _ s s' hcallee => ?_
    have hlength := hbody.of_ok hcallee
    exact hlength

/-! ### Streams -/

/-- The stream `b` has not failed and the cursor stands in it. -/
def Readable (b : Bitstream) : Prop := b.fail = false ∧ b.get ≤ b.bytecode.length

/-- A read that fails when it comes to the end. -/
structure Consumes {α : Type} (f : Bitstream → Option α × Bitstream) : Prop where
  keeps : ∀ b, (f b).2.bytecode = b.bytecode ∧ (f b).2.put = b.put
  readable : ∀ b a b', f b = (some a, b') → Readable b → Readable b'

lemma consumes_read (count : Nat) : Consumes (Bitstream.read · count) where
  keeps b := by
    unfold Bitstream.read
    split
    · exact ⟨rfl, rfl⟩
    · split <;> exact ⟨rfl, rfl⟩
  readable b a b' h hb := by
    unfold Bitstream.read at h
    rw [hb.1] at h
    by_cases hle : b.get + count ≤ b.bytecode.length
    · simp only [Bool.false_eq_true, if_false, if_pos hle] at h
      cases h
      exact ⟨rfl, hle⟩
    · simp only [Bool.false_eq_true, if_false, if_neg hle] at h
      cases h

lemma consumes_readWord : Consumes Bitstream.readWord where
  keeps b := (consumes_read 4).keeps b
  readable b a b' h hb := by
    unfold Bitstream.readWord at h
    cases hread : b.read 4 with
    | mk o b₁ =>
      rw [hread] at h
      cases o with
      | none => cases h
      | some bs =>
        have hb₁ := (consumes_read 4).readable b bs b₁ hread hb
        cases h
        exact hb₁

lemma consumes_readString : Consumes Bitstream.readString where
  keeps b := by
    have hword := consumes_readWord.keeps b
    unfold Bitstream.readString
    cases hread : b.readWord with
    | mk o b₁ =>
      rw [hread] at hword
      cases o with
      | none => exact hword
      | some length =>
        have hrest := (consumes_read length.toNat).keeps b₁
        exact ⟨hrest.1.trans hword.1, hrest.2.trans hword.2⟩
  readable b a b' h hb := by
    unfold Bitstream.readString at h
    cases hread : b.readWord with
    | mk o b₁ =>
      rw [hread] at h
      cases o with
      | none => cases h
      | some length =>
        have hb₁ := consumes_readWord.readable b length b₁ hread hb
        exact (consumes_read length.toNat).readable b₁ a b' h hb₁

/-- The stream of the interpreter is the one over `code` with the write cursor at `put`, and readable. -/
structure Over (code : List UInt8) (put : Nat) (s : State) : Prop where
  bytecode_eq : s.interp.data.bytecode = code
  put_eq : s.interp.data.put = put
  readable : Readable s.interp.data

/-- Nothing is thrown, or an iterator has come to its end. -/
def goesOn (o : Option Exn) : Bool :=
  match o with
  | none | some .stopIteration => true
  | _ => false

/-- When `x` returns it has stayed in the bytecode. -/
abbrev StaysIn (code : List UInt8) (put : Nat) (α : Type) (x : M α) : Prop :=
  Relates (fun o s s' => goesOn o = true → Over code put s → Over code put s') α x

variable {code : List UInt8} {put : Nat}

lemma staysIn_compositional : Compositional (StaysIn code put) :=
  Relates.compositional (fun _ _ _ h => h) fun h h' ho hs => h' ho (h rfl hs)

lemma staysIn_of_finalState {α : Type} {x : M α} (hx : ∀ s, (finalState x s).interp.data = s.interp.data) :
    StaysIn code put α x := by
  have hkeeps (s s' : State) (hdata : s'.interp.data = s.interp.data) (h : Over code put s) : Over code put s' :=
    ⟨hdata ▸ h.bytecode_eq, hdata ▸ h.put_eq, hdata ▸ h.readable⟩
  refine Relates.intro (fun s a s' h _ => ?_) fun s e s' h _ => ?_
  · have hdata := hx s
    rw [finalState_of_ok h] at hdata
    exact hkeeps s s' hdata
  · have hdata := hx s
    rw [finalState_of_error h] at hdata
    exact hkeeps s s' hdata

/-- A failed read throws what ends the run. -/
lemma onData_eq_error {α : Type} {f : Bitstream → Option α × Bitstream} {s s' : State} {e : Exn}
    (h : onData f s = .error e s') : goesOn (some e) = false := by
  unfold onData at h
  split at h
  · cases h
  · cases h
    rfl

lemma staysIn_onData {α : Type} {f : Bitstream → Option α × Bitstream} (hf : Consumes f) :
    StaysIn code put α (onData f) := by
  refine Relates.intro (fun s a s' h _ hs => ?_) fun s e s' h ho => by simp [onData_eq_error h] at ho
  have hkeeps := hf.keeps s.interp.data
  cases hread : f s.interp.data with
  | mk o b =>
    rw [hread] at hkeeps
    cases o with
    | none => simp [onData, hread] at h
    | some a' =>
      rw [onData_of_some hread] at h
      cases h
      exact ⟨hkeeps.1.trans hs.bytecode_eq, hkeeps.2.trans hs.put_eq, hf.readable _ a b hread hs.readable⟩

lemma consumes_peek : Consumes fun b : Bitstream =>
    match b.readWord with
    | (some w, b') => (some (NodeType.ofCode w), { b' with get := b.get })
    | (none, b') => (none, b') where
  keeps b := by
    have hword := consumes_readWord.keeps b
    cases hread : b.readWord with
    | mk o b₁ =>
      rw [hread] at hword
      cases o with
      | none => exact hword
      | some w => exact hword
  readable b a b' h hb := by
    have hword := consumes_readWord.keeps b
    cases hread : b.readWord with
    | mk o b₁ =>
      rw [hread] at hword h
      cases o with
      | none => cases h
      | some w =>
        have hb₁ := consumes_readWord.readable b w b₁ hread hb
        have hle := hb.2
        rw [← hword.1] at hle
        cases h
        exact ⟨hb₁.1, hle⟩

/-- A padded read may come to the end; then the read behind it fails. -/
lemma staysIn_readStub (count : UInt32) : StaysIn code put _ (readStub count) := by
  have hstub (s : State) : readStub count s = (do
      let next ← readWord
      pure ((s.interp.data.readPadded count.toNat).1, next))
      { s with interp := { s.interp with data := (s.interp.data.readPadded count.toNat).2 } } := rfl
  refine Relates.intro (fun s a s' h _ hs => ?_) fun s e s' h ho => ?_
  swap
  · rw [hstub] at h
    rcases bind_eq_error.mp h with hword | ⟨w, s₁, -, hp⟩
    · simp [onData_eq_error hword] at ho
    · cases hp
  rw [hstub] at h
  obtain ⟨w, s₁, hword, hp⟩ := bind_eq_ok.mp h
  cases hp
  have hpadded : (s.interp.data.readPadded count.toNat).2 = (s.interp.data.read count.toNat).2 := by
    unfold Bitstream.readPadded
    rw [hs.readable.1]
    rfl
  rw [hpadded] at hword
  cases hread : s.interp.data.read count.toNat with
  | mk o b =>
    rw [hread] at hword
    have hkeeps := (consumes_read count.toNat).keeps s.interp.data
    rw [hread] at hkeeps
    cases o with
    | some bs =>
      have hb := (consumes_read count.toNat).readable _ bs b hread hs.readable
      exact (staysIn_onData consumes_readWord).of_ok hword rfl
        ⟨hkeeps.1.trans hs.bytecode_eq, hkeeps.2.trans hs.put_eq, hb⟩
    | none =>
      -- the stream has failed
      unfold Bitstream.read at hread
      rw [hs.readable.1] at hread
      simp only [Bool.false_eq_true, if_false] at hread
      split at hread
      · cases hread
      · cases hread
        simp [readWord, onData, Bitstream.readWord, Bitstream.read] at hword

/-- Going to a place in the bytecode. -/
lemma staysIn_moveTo {start : UInt32} (hstart : start.toNat ≤ code.length) : StaysIn code put _ (moveTo start) := by
  intro s _ hs
  have hmove : s.interp.data.moveTo start = { s.interp.data with get := start.toNat } := by
    unfold Bitstream.moveTo
    rw [if_neg (by simp [hs.readable.1]), if_pos (by rwa [hs.bytecode_eq])]
  refine ⟨?_, ?_, ?_⟩
  · show (s.interp.data.moveTo start).bytecode = code
    rw [hmove]
    exact hs.bytecode_eq
  · show (s.interp.data.moveTo start).put = put
    rw [hmove]
    exact hs.put_eq
  · show Readable (s.interp.data.moveTo start)
    rw [hmove]
    exact ⟨hs.readable.1, by rwa [hs.bytecode_eq]⟩

/-- Going back to where the cursor has been. -/
lemma staysIn_returnTo {α : Type} {f : UInt32 → M α} (hsmall : code.length < 2 ^ 32)
    (hf : ∀ start, StaysIn code put _ (moveTo start) → StaysIn code put _ (f start)) :
    StaysIn code put _ (pos >>= f) := by
  have hpos (s : State) : (pos >>= f) s = f s.interp.data.pos s := rfl
  have hstart (s : State) (hs : Over code put s) : s.interp.data.pos.toNat ≤ code.length := by
    have hle := hs.readable.2
    rw [hs.bytecode_eq] at hle
    unfold Bitstream.pos
    rw [hs.readable.1, if_neg Bool.false_ne_true, UInt32.toNat_ofNat']
    omega
  refine Relates.intro (fun s a s' h ho hs => ?_) fun s e s' h ho hs => ?_
  · rw [hpos] at h
    exact (hf _ (staysIn_moveTo (hstart s hs))).of_ok h ho hs
  · rw [hpos] at h
    exact (hf _ (staysIn_moveTo (hstart s hs))).of_error h ho hs

lemma staysIn_storeAt (r : Ref) (v : Value) : StaysIn code put _ (storeAt r v) :=
  staysIn_of_finalState fun s => by
    rw [finalState_storeAt]
    split <;> rfl

lemma staysIn_modifyScope (scope : ScopeRef) (f : Frame → Frame) : StaysIn code put _ (modifyScope scope f) :=
  staysIn_of_finalState fun s => by
    rw [finalState_modifyScope]
    cases scope <;> rfl

lemma closed_staysIn (hsmall : code.length < 2 ^ 32) : Closed (fun _ => True) (StaysIn code put) where
  toSequential := staysIn_compositional.toSequential
  throw e _ := staysIn_compositional.throw e
  stuck := staysIn_compositional.throw _
  malloc := staysIn_of_finalState fun s => by rw [finalState_malloc]
  makeShared _ := staysIn_of_finalState fun _ => rfl
  load r := staysIn_of_finalState fun s => by rw [finalState_load]
  storeAt r v _ := staysIn_storeAt r v
  writeStore _ _ := staysIn_compositional.bind (staysIn_storeAt _ _) fun _ => staysIn_of_finalState fun _ => rfl
  findValue _ _ := staysIn_of_finalState fun _ => rfl
  setValue _ _ _ := staysIn_of_finalState fun _ => rfl
  hasValue _ _ := staysIn_of_finalState fun _ => rfl
  setGlobalTag _ _ _ := staysIn_modifyScope _ _
  terminate _ _ := staysIn_modifyScope _ _
  requireGlobal _ _ := staysIn_modifyScope _ _
  isTerminated scope _ := staysIn_of_finalState fun s => by rw [finalState_isTerminated]
  withFrame hf := relates_withFrame (fun id => hf id trivial) fun _ s s' h ho hs => by
    have hbody := h ho ⟨hs.bytecode_eq, hs.put_eq, hs.readable⟩
    exact ⟨hbody.bytecode_eq, hbody.put_eq, hbody.readable⟩
  str r := staysIn_of_finalState fun s => by rw [finalState_str]
  getChain := staysIn_of_finalState fun _ => rfl
  setFunds _ _ := staysIn_of_finalState fun _ => rfl
  checkAddress _ := staysIn_of_finalState fun _ => rfl
  rand := staysIn_of_finalState fun _ => rfl
  printProgramOutput _ := staysIn_of_finalState fun _ => rfl
  charge := staysIn_of_finalState fun s => by rw [finalState_charge]; rfl
  readWord := staysIn_onData consumes_readWord
  readString := staysIn_onData consumes_readString
  readStub count := staysIn_readStub count
  peekType := staysIn_onData consumes_peek
  returnTo hf := staysIn_returnTo hsmall hf
  streamLength := staysIn_of_finalState fun _ => rfl
  inGlobalScope hf := staysIn_compositional.bind (staysIn_of_finalState fun _ => rfl)
    fun scope => hf scope (by simp [Touches])
  findModule _ := staysIn_of_finalState fun _ => rfl
  loadRand := loadRand_of_steps staysIn_compositional.toSequential
    (staysIn_of_finalState fun s => by rw [finalState_malloc])
    (staysIn_of_finalState fun _ => rfl) fun _ => staysIn_of_finalState fun _ => rfl
  catchStop _ hr := relates_tryNext hr fun _ _ h _ => h rfl
  record _ _ _ := staysIn_of_finalState fun _ => rfl
  checkLimit := staysIn_of_finalState fun s => by
    rw [finalState_checkLimit]
    split <;> rfl
  runCallee n writeBack pyint scope _ _ _ _ := staysIn_of_finalState fun s => by
    -- the callee reads a stream of its own
    unfold finalState resultState runCallee
    cases evaluate (executeNext n) scope (calleeState pyint s) with
    | error e s' => rfl
    | ok p s' => cases writeBack <;> rfl

/-! ### Leaving the stream alone -/

/-- `x` leaves the stream alone. -/
abbrev KeepsData (α : Type) (x : M α) : Prop :=
  Relates (fun _ s s' => s'.interp.data = s.interp.data) α x

lemma keepsData_of_finalState {α : Type} {x : M α}
    (hx : ∀ s, (finalState x s).interp.data = s.interp.data) : KeepsData α x :=
  Relates.of_unchanged (Q := fun _ v v' => v' = v) (fun s : State => s.interp.data) (fun _ _ => rfl) hx

lemma keepsData_compositional : Compositional KeepsData :=
  Relates.compositional (fun _ _ => rfl) fun h h' => h'.trans h

/-- `x` leaves the stream and the frames alone. -/
abbrev KeepsPlace (α : Type) (x : M α) : Prop :=
  Relates (fun _ s s' => s'.interp.data = s.interp.data ∧ s'.frames = s.frames) α x

lemma keepsPlace_of_finalState {α : Type} {x : M α}
    (hdata : ∀ s, (finalState x s).interp.data = s.interp.data)
    (hframes : ∀ s, (finalState x s).frames = s.frames) : KeepsPlace α x :=
  Relates.intro
    (fun s a s' h => ⟨by rw [← finalState_of_ok h, hdata], by rw [← finalState_of_ok h, hframes]⟩)
    fun s e s' h => ⟨by rw [← finalState_of_error h, hdata], by rw [← finalState_of_error h, hframes]⟩

lemma keepsPlace_compositional : Compositional KeepsPlace :=
  Relates.compositional (fun _ _ => ⟨rfl, rfl⟩) fun h h' => ⟨h'.1.trans h.1, h'.2.trans h.2⟩

lemma keepsPlace_storeAt (r : Ref) (v : Value) : KeepsPlace _ (storeAt r v) :=
  keepsPlace_of_finalState (fun s => by rw [finalState_storeAt]; split <;> rfl)
    fun s => by rw [finalState_storeAt]; split <;> rfl

lemma values_keepsPlace : Values KeepsPlace where
  toSequential := keepsPlace_compositional.toSequential
  throw e _ := keepsPlace_compositional.throw e
  malloc := keepsPlace_of_finalState (fun s => by rw [finalState_malloc]) fun s => by rw [finalState_malloc]
  makeShared _ := keepsPlace_of_finalState (fun _ => rfl) fun _ => rfl
  load r := keepsPlace_of_finalState (fun s => by rw [finalState_load]) fun s => by rw [finalState_load]
  storeAt r v _ := keepsPlace_storeAt r v
  writeStore _ _ := keepsPlace_compositional.bind (keepsPlace_storeAt _ _) fun _ _ => ⟨rfl, rfl⟩
  str r := keepsPlace_of_finalState (fun s => by rw [finalState_str]) fun s => by rw [finalState_str]
  getChain := keepsPlace_of_finalState (fun _ => rfl) fun _ => rfl
  checkAddress _ := keepsPlace_of_finalState (fun _ => rfl) fun _ => rfl
  rand := keepsPlace_of_finalState (fun _ => rfl) fun _ => rfl
  printProgramOutput _ := keepsPlace_of_finalState (fun _ => rfl) fun _ => rfl
  findModule _ := keepsPlace_of_finalState (fun _ => rfl) fun _ => rfl
  loadRand := loadRand_of_steps keepsPlace_compositional.toSequential
    (keepsPlace_of_finalState (fun s => by rw [finalState_malloc]) fun s => by rw [finalState_malloc])
    (keepsPlace_of_finalState (fun _ => rfl) fun _ => rfl)
    fun _ => keepsPlace_of_finalState (fun _ => rfl) fun _ => rfl
  catchStop _ hr := relates_tryNext hr fun _ _ h => h

/-! ### Coming back -/

/-- The loop states in which a node ends behind its last byte. -/
def EndsBehind (ls : LoopState) : Prop := ls = .none ∨ ls = .normal

/-- The epilogue of a node that ends in another loop state goes back. -/
lemma moved_of_epilogue {start : UInt32} {r res : ValuePtr × LoopState} {s s' : State}
    (h : epilogue start r s = .ok res s') (hls : ¬EndsBehind res.2) :
    s'.interp.data = s.interp.data.moveTo start := by
  unfold epilogue at h
  by_cases hends : (r.2 != .normal && r.2 != .none) = true
  · rw [if_pos hends] at h
    cases h
    rfl
  · rw [if_neg hends] at h
    cases h
    refine absurd ?_ hls
    unfold EndsBehind
    cases hr : r.2 <;> simp [hr] at hends ⊢

/-- A stream that has not failed to move has moved. -/
lemma get_moveTo {b : Bitstream} {start : UInt32} (h : (b.moveTo start).fail = false) :
    (b.moveTo start).get = start.toNat := by
  unfold Bitstream.moveTo at h ⊢
  by_cases hfail : b.fail = true
  · rw [if_pos hfail, hfail] at h
    cases h
  · rw [if_neg hfail] at h ⊢
    by_cases hle : start.toNat ≤ b.bytecode.length
    · rw [if_pos hle]
    · rw [if_neg hle] at h
      cases h

lemma bitstream_eq {b b' : Bitstream} (hbytecode : b'.bytecode = b.bytecode) (hget : b'.get = b.get)
    (hput : b'.put = b.put) (hfail : b'.fail = b.fail) : b' = b := by
  cases b
  cases b'
  cases hbytecode
  cases hget
  cases hput
  cases hfail
  rfl

/-- A node that ends in any other loop state puts the cursor back to its start. -/
lemma data_of_unsettled {n : Nat} {scope : ScopeRef} {ls : LoopState} {s s' : State}
    {res : ValuePtr × LoopState} (hsmall : s.interp.data.bytecode.length < 2 ^ 32)
    (hread : Readable s.interp.data) (h : executeNext n scope ls s = .ok res s') (hls : ¬EndsBehind res.2) :
    s'.interp.data = s.interp.data := by
  have hover : Over s.interp.data.bytecode s.interp.data.put s' :=
    ((closed_staysIn hsmall).executeNext n scope ls (by simp [Touches])).of_ok h rfl ⟨rfl, rfl, hread⟩
  cases n with
  | zero => cases h
  | succ n =>
    obtain ⟨u, s₁, hcharge, hcharged⟩ := bind_eq_ok.mp h
    have hdata₁ : s₁.interp.data = s.interp.data := by
      have hfinal := finalState_of_ok hcharge
      rw [finalState_charge] at hfinal
      rw [← hfinal]
      rfl
    obtain ⟨start, s₂, hpos, hnode⟩ := bind_eq_ok.mp hcharged
    cases hpos
    obtain ⟨type, s₃, -, hnode⟩ := bind_eq_ok.mp hnode
    obtain ⟨u, s₄, -, hnode⟩ := bind_eq_ok.mp hnode
    obtain ⟨u, s₅, -, hnode⟩ := bind_eq_ok.mp hnode
    obtain ⟨r, s₆, -, hepilogue⟩ := bind_eq_ok.mp hnode
    have hpos : s₁.interp.data.pos.toNat = s.interp.data.get := by
      have hget := hread.2
      unfold Bitstream.pos
      rw [hdata₁, hread.1, if_neg Bool.false_ne_true, UInt32.toNat_ofNat']
      omega
    have hmoved := moved_of_epilogue hepilogue hls
    have hget := get_moveTo (hmoved ▸ hover.readable.1)
    rw [← hmoved, hpos] at hget
    exact bitstream_eq hover.bytecode_eq hget hover.put_eq (hover.readable.1.trans hread.1.symm)

end ContractPython.Proofs
