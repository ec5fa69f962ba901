import ContractPython.Proofs.Related
import ContractPython.Proofs.Steps
import ContractPython.Proofs.Unread

/-!
# Sessions

The shell submits one program after the other to the same interpreter. A program is written at
the write cursor of the stream, while the execution starts at the read cursor: whether it starts
at the program depends on where the execution before has stopped. An execution that starts at the
program and has nothing behind it does what it would do on a stream of this program alone.
-/

namespace ContractPython.Proofs

open Program M

/-! ### A stream behind other bytes -/

/-- The stream `b` holds the bytes `pre` and then `text`, `b'` holds `text` alone, and the two
read cursors stand at the same byte of it. -/
structure Behind (pre text : List UInt8) (put : Nat) (b b' : Bitstream) : Prop where
  bytecode_eq : b.bytecode = pre ++ text
  alone_eq : b'.bytecode = text
  get_eq : b.get = pre.length + b'.get
  get_le : b'.get ≤ text.length
  fail_eq : b.fail = b'.fail
  put_eq : b.put = put

/-- The positions of the stream `pre ++ text` fit into 32 bits; without `pre` it does not matter. -/
def Addressable (pre text : List UInt8) : Prop := pre = [] ∨ pre.length + text.length + 1 < 2 ^ 32

section Streams

variable {pre text : List UInt8} {put : Nat} {b b' : Bitstream}

lemma behind_refl (hget : b.get ≤ b.bytecode.length) : Behind [] b.bytecode b.put b b :=
  ⟨rfl, rfl, by simp, hget, rfl, rfl⟩

/-- A read operator takes the same from both streams. -/
def ReadsAlike (pre text : List UInt8) (put : Nat) {α : Type} (f : Bitstream → Option α × Bitstream) :
    Prop :=
  ∀ b b', Behind pre text put b b' → (f b).1 = (f b').1 ∧ Behind pre text put (f b).2 (f b').2

lemma readsAlike_read (count : Nat) : ReadsAlike pre text put (Bitstream.read · count) := by
  rintro b b' ⟨hbytes, halone, hget, hle, hfail, hput⟩
  have hlength : b.bytecode.length = pre.length + text.length := by
    rw [hbytes, List.length_append]
  have hdrop : b.bytecode.drop b.get = text.drop b'.get := by
    rw [hbytes, hget, List.drop_length_add_append]
  show (b.read count).1 = (b'.read count).1 ∧
    Behind pre text put (b.read count).2 (b'.read count).2
  unfold Bitstream.read
  rw [hlength, hdrop, hfail]
  by_cases hb : b'.fail = true
  · rw [if_pos hb, if_pos hb]
    exact ⟨rfl, hbytes, halone, hget, hle, hfail, hput⟩
  · rw [if_neg hb, if_neg hb, halone]
    by_cases hroom : b'.get + count ≤ text.length
    · have hnext : b.get + count = pre.length + (b'.get + count) := by omega
      rw [if_pos (by omega), if_pos hroom]
      exact ⟨rfl, hbytes, rfl, hnext, hroom, rfl, hput⟩
    · rw [if_neg (by omega), if_neg hroom]
      exact ⟨rfl, hbytes, rfl, rfl, le_rfl, rfl, hput⟩

lemma readsAlike_readWord : ReadsAlike pre text put Bitstream.readWord := by
  intro b b' h
  obtain ⟨hsame, hbehind⟩ := readsAlike_read 4 b b' h
  have hwords : b.readWord.1 = b'.readWord.1 := by
    unfold Bitstream.readWord
    simp only [hsame]
  exact ⟨hwords, hbehind⟩

lemma readsAlike_readString : ReadsAlike pre text put Bitstream.readString := by
  intro b b' h
  obtain ⟨hsame, hbehind⟩ := readsAlike_readWord b b' h
  unfold Bitstream.readString
  cases hword : b.readWord with
  | mk length b₁ =>
    cases hword' : b'.readWord with
    | mk length' b₁' =>
      rw [hword, hword'] at hsame hbehind
      obtain rfl : length = length' := hsame
      cases length with
      | none => exact ⟨rfl, hbehind⟩
      | some length => exact readsAlike_read _ _ _ hbehind

lemma readsAlike_readPadded (count : Nat) :
    ReadsAlike pre text put fun b => (some (b.readPadded count).1, (b.readPadded count).2) := by
  intro b b' h
  obtain ⟨-, hbehind⟩ := readsAlike_read count b b' h
  have hdrop : b.bytecode.drop b.get = b'.bytecode.drop b'.get := by
    rw [h.bytecode_eq, h.alone_eq, h.get_eq, List.drop_length_add_append]
  have hpadded : (b.readPadded count).1 = (b'.readPadded count).1 ∧
      Behind pre text put (b.readPadded count).2 (b'.readPadded count).2 := by
    unfold Bitstream.readPadded
    rw [hdrop, h.fail_eq]
    by_cases hb : b'.fail = true
    · rw [if_pos hb, if_pos hb]
      exact ⟨rfl, h⟩
    · rw [if_neg hb, if_neg hb]
      exact ⟨rfl, hbehind⟩
  exact ⟨congrArg some hpadded.1, hpadded.2⟩

lemma readsAlike_peekType : ReadsAlike pre text put fun b =>
    match b.readWord with
    | (some w, b') => (some (NodeType.ofCode w), { b' with get := b.get })
    | (none, b') => (none, b') := by
  intro b b' h
  obtain ⟨hsame, hbehind⟩ := readsAlike_readWord b b' h
  dsimp only
  cases hword : b.readWord with
  | mk w b₁ =>
    cases hword' : b'.readWord with
    | mk w' b₁' =>
      rw [hword, hword'] at hsame hbehind
      obtain rfl : w = w' := hsame
      cases w with
      | none => exact ⟨rfl, hbehind⟩
      | some w =>
        exact ⟨rfl, hbehind.bytecode_eq, hbehind.alone_eq, h.get_eq, h.get_le, hbehind.fail_eq,
          hbehind.put_eq⟩

/-- Two numbers that mean the same position of `text` in both streams, or none of them. -/
def SamePos (pre text : List UInt8) (start start' : UInt32) : Prop :=
  (start.toNat = pre.length + start'.toNat) ∨
    (text.length < start'.toNat ∧ pre.length + text.length < start.toNat)

lemma samePos_pos (haddr : Addressable pre text) (h : Behind pre text put b b') :
    SamePos pre text b.pos b'.pos := by
  have hget := h.get_eq
  have hle := h.get_le
  have hlast : (-1 : UInt32).toNat = 2 ^ 32 - 1 := by decide
  unfold Bitstream.pos
  rw [h.fail_eq]
  cases haddr with
  | inl hpre =>
    subst hpre
    have hsame : b.get = b'.get := by simpa using hget
    rw [hsame]
    exact .inl (by simp)
  | inr hroom =>
    by_cases hb : b'.fail = true
    · rw [if_pos hb, if_pos hb]
      refine .inr ⟨?_, ?_⟩ <;> omega
    · rw [if_neg hb, if_neg hb]
      refine .inl ?_
      rw [UInt32.toNat_ofNat', UInt32.toNat_ofNat', Nat.mod_eq_of_lt, Nat.mod_eq_of_lt, hget]
      all_goals omega

lemma behind_moveTo {start start' : UInt32} (hstart : SamePos pre text start start')
    (h : Behind pre text put b b') : Behind pre text put (b.moveTo start) (b'.moveTo start') := by
  obtain ⟨hbytes, halone, hget, hle, hfail, hput⟩ := h
  have hlength : b.bytecode.length = pre.length + text.length := by
    rw [hbytes, List.length_append]
  unfold Bitstream.moveTo
  rw [hlength, halone, hfail]
  by_cases hb : b'.fail = true
  · rw [if_pos hb, if_pos hb]
    exact ⟨hbytes, halone, hget, hle, hfail, hput⟩
  · rw [if_neg hb, if_neg hb]
    by_cases hroom : start'.toNat ≤ text.length
    · have hsame : start.toNat = pre.length + start'.toNat := by
        cases hstart with
        | inl hsame => exact hsame
        | inr hbeyond => omega
      rw [if_pos (by omega), if_pos hroom]
      exact ⟨hbytes, rfl, hsame, hroom, rfl, hput⟩
    · have hbeyond : ¬start.toNat ≤ pre.length + text.length := by
        cases hstart with
        | inl hsame => omega
        | inr hbeyond => omega
      rw [if_neg hbeyond, if_neg hroom]
      exact ⟨hbytes, rfl, hget, hle, rfl, hput⟩

end Streams

/-! ### Runs on the two streams -/

/-- The state with another stream. -/
def withData (b : Bitstream) (s : State) : State := { s with interp := { s.interp with data := b } }

/-- The result in a state with another stream. -/
def outcomeWithData {α : Type} (b : Bitstream) :
    EStateM.Result Exn State α → EStateM.Result Exn State α
  | .ok a s => .ok a (withData b s)
  | .error e s => .error e (withData b s)

/-- Two states that differ in their streams only. -/
def Shifted (pre text : List UInt8) (put : Nat) (s s' : State) : Prop :=
  ∃ b, s' = withData b s ∧ Behind pre text put s.interp.data b

/-- `x` neither looks at the stream nor touches it. -/
def IgnoresData (α : Type) (x : M α) : Prop :=
  ∀ s b, x (withData b s) = outcomeWithData b (x s) ∧ (finalState x s).interp.data = s.interp.data

section Runs

variable {pre text : List UInt8} {put : Nat}

lemma simulates_of_ignores {α : Type} {x : M α} (hx : IgnoresData α x) :
    Simulates (Shifted pre text put) α x x := by
  rintro s s' ⟨b, rfl, hb⟩
  obtain ⟨hsame, hdata⟩ := hx s b
  rw [hsame]
  cases hxs : x s with
  | ok a s₁ =>
    rw [finalState_of_ok hxs] at hdata
    exact .ok ⟨b, rfl, hdata.symm ▸ hb⟩
  | error e s₁ =>
    rw [finalState_of_error hxs] at hdata
    exact .error ⟨b, rfl, hdata.symm ▸ hb⟩

lemma simulates_onData {α : Type} {f : Bitstream → Option α × Bitstream}
    (hf : ReadsAlike pre text put f) : Simulates (Shifted pre text put) α (onData f) (onData f) := by
  rintro s s' ⟨b, rfl, hb⟩
  obtain ⟨hsame, hbehind⟩ := hf _ _ hb
  have hread : (f (withData b s).interp.data).1 = (f s.interp.data).1 := hsame.symm
  unfold onData
  rw [hread]
  cases (f s.interp.data).1 with
  | some a => exact .ok ⟨_, rfl, hbehind⟩
  | none => exact .error ⟨_, rfl, hbehind⟩

lemma ignoresData_malloc : IgnoresData _ malloc := fun s b => by
  refine ⟨?_, by rw [finalState_malloc]⟩
  unfold malloc
  cases h : s.memory.grants s.memory.requests <;> simp [withData, outcomeWithData, h]

lemma ignoresData_load (r : Ref) : IgnoresData _ (load r) := fun s b => by
  unfold load
  cases h : s.heap[r]? <;> simp only [withData, outcomeWithData, finalState, resultState, h, and_self]

lemma ignoresData_storeAt (r : Ref) (v : Value) : IgnoresData _ (storeAt r v) := fun s b => by
  unfold storeAt
  by_cases h : (s.heap[r]?).map Value.ctorIdx = some v.ctorIdx <;>
    simp only [withData, outcomeWithData, finalState, resultState, h, if_true, if_false, and_self]

lemma ignoresData_str (r : Ref) : IgnoresData _ (str r) := fun s b => by
  unfold M.str
  cases h : Value.str s.heap (s.heap.length + 1) r <;>
    simp only [withData, outcomeWithData, finalState, resultState, h, and_self]

lemma ignoresData_modifyScope (scope : ScopeRef) (f : Frame → Frame) :
    IgnoresData _ (modifyScope scope f) := fun _ _ => by cases scope <;> exact ⟨rfl, rfl⟩

lemma ignoresData_charge : IgnoresData _ charge := fun s b => by
  unfold charge
  by_cases h : s.interp.executionStepLimit > 0 ∧
      s.interp.numExecutionSteps + 1 ≥ s.interp.executionStepLimit
  · simp only [withData, outcomeWithData, finalState, resultState, h, tick, if_true, and_self]
  · simp only [withData, outcomeWithData, finalState, resultState, h, tick, if_false, and_self]

lemma simulates_tryNext {r : Ref} (hr : Simulates (Shifted pre text put) _ (next r) (next r)) :
    Simulates (Shifted pre text put) _ (tryNext r) (tryNext r) := by
  intro s s' hs
  have hnext := hr s s' hs
  unfold tryNext
  generalize next r s = res at hnext
  generalize next r s' = res' at hnext
  cases hnext with
  | ok h => exact .ok h
  | @error e _ _ h => cases e <;> first | exact .ok h | exact .error h

lemma simulates_withFrame {α : Type} {f g : Nat → M α}
    (hf : ∀ id, Simulates (Shifted pre text put) α (f id) (g id)) :
    Simulates (Shifted pre text put) α (withFrame f) (withFrame g) := by
  rintro s s' ⟨b, rfl, hb⟩
  have hbody := hf s.frames.length { s with frames := s.frames ++ [.empty] }
    (withData b { s with frames := s.frames ++ [.empty] }) ⟨b, rfl, hb⟩
  unfold withFrame
  generalize f _ _ = res at hbody
  have hstart : g (withData b s).frames.length
      { withData b s with frames := (withData b s).frames ++ [.empty] } =
      g s.frames.length (withData b { s with frames := s.frames ++ [.empty] }) := rfl
  rw [hstart]
  generalize g _ _ = res' at hbody
  cases hbody with
  | ok h =>
    obtain ⟨b', rfl, hb'⟩ := h
    exact .ok ⟨b', rfl, hb'⟩
  | error h =>
    obtain ⟨b', rfl, hb'⟩ := h
    exact .error ⟨b', rfl, hb'⟩

/-- A callee reads its own stream. -/
lemma simulates_runCallee {α : Type} (writeBack : Bool) (pyint : Interp) (x : M α) :
    Simulates (Shifted pre text put) α (runCallee writeBack pyint x) (runCallee writeBack pyint x) := by
  rintro s s' ⟨b, rfl, hb⟩
  have hstart : calleeState pyint (withData b s) = calleeState pyint s := rfl
  unfold runCallee
  rw [hstart]
  cases x (calleeState pyint s) with
  | ok a s₁ =>
    cases writeBack with
    | true => exact .ok ⟨b, rfl, hb⟩
    | false => exact .ok ⟨b, rfl, hb⟩
  | error e s₁ => exact .error ⟨b, rfl, hb⟩

lemma simulates_bind {α β : Type} {x y : M α} {f g : α → M β}
    (hx : Simulates (Shifted pre text put) α x y)
    (hf : ∀ a, Simulates (Shifted pre text put) β (f a) (g a)) :
    Simulates (Shifted pre text put) β (x >>= f) (y >>= g) := hx.bind hf

lemma values_shifted : Values fun α x => Simulates (Shifted pre text put) α x x where
  toSequential := Simulates.congruence.sequential
  throw _ _ := fun _ _ hs => .error hs
  malloc := simulates_of_ignores ignoresData_malloc
  makeShared _ := simulates_of_ignores fun _ _ => ⟨rfl, rfl⟩
  load r := simulates_of_ignores (ignoresData_load r)
  storeAt r v _ := simulates_of_ignores (ignoresData_storeAt r v)
  writeStore r _ := simulates_bind (simulates_of_ignores (ignoresData_storeAt r _)) fun _ =>
    simulates_of_ignores fun _ _ => ⟨rfl, rfl⟩
  str r := simulates_of_ignores (ignoresData_str r)
  getChain := simulates_of_ignores fun _ _ => ⟨rfl, rfl⟩
  checkAddress _ := simulates_of_ignores fun _ _ => ⟨rfl, rfl⟩
  rand := simulates_of_ignores fun _ _ => ⟨rfl, rfl⟩
  printProgramOutput _ := simulates_of_ignores fun _ _ => ⟨rfl, rfl⟩
  findModule _ := simulates_of_ignores fun _ _ => ⟨rfl, rfl⟩
  loadRand := loadRand_of_steps Simulates.congruence.sequential (simulates_of_ignores ignoresData_malloc)
    (simulates_of_ignores fun _ _ => ⟨rfl, rfl⟩) fun _ => simulates_of_ignores fun _ _ => ⟨rfl, rfl⟩
  catchStop _ hr := simulates_tryNext hr

lemma looksUp_shifted : LooksUp Eq fun α => Simulates (Shifted pre text put) α where
  congruence := Simulates.congruence
  values := values_shifted
  findValue _ hs := hs ▸ simulates_of_ignores fun _ _ => ⟨rfl, rfl⟩
  hasValue _ hs := hs ▸ simulates_of_ignores fun _ _ => ⟨rfl, rfl⟩

lemma reading_shifted : Reading fun α x => Simulates (Shifted pre text put) α x x where
  toSequential := Simulates.congruence.sequential
  throw _ _ := fun _ _ hs => .error hs
  charge := simulates_of_ignores ignoresData_charge
  readWord := simulates_onData readsAlike_readWord
  readString := simulates_onData readsAlike_readString
  peekType := simulates_onData readsAlike_peekType

/-- A skip takes the same bytes of both streams, however long the streams are. -/
lemma simulates_skipNext : Simulates (Shifted pre text put) _ skipNext skipNext := by
  rintro s s' ⟨b, rfl, hb⟩
  have hunread : unread s = unread (withData b s) := by
    show Bitstream.unread s.interp.data = Bitstream.unread b
    unfold Bitstream.unread
    rw [hb.fail_eq, hb.bytecode_eq, hb.alone_eq, hb.get_eq, List.length_append,
      Nat.add_sub_add_left]
  have hfew : unread s < 4 * (unread s + 1) := by omega
  have hfew' : unread (withData b s) < 4 * (unread s + 1) := by omega
  obtain ⟨hskip, -⟩ := skipNext_eq_skipFuel s hfew
  obtain ⟨hskip', -⟩ := skipNext_eq_skipFuel (withData b s) hfew'
  rw [hskip, hskip']
  have hstuck : Simulates (Shifted pre text put) _ (skipFuel 0) (skipFuel 0) :=
    fun _ _ hs => .error hs
  exact reading_shifted.skipFuel hstuck _ _ _ ⟨b, rfl, hb⟩

/-- The interpreter does the same on the two streams. -/
lemma related_shifted (haddr : Addressable pre text) :
    Related Eq Eq Eq 0 fun _ => Simulates (Shifted pre text put) where
  congruence _ := Simulates.congruence
  values _ := values_shifted
  reading _ := reading_shifted
  mono h := h
  paid h := simulates_bind reading_shifted.charge fun _ => h
  exhausted hy := by
    rw [hy rfl]
    exact fun _ _ hs => .error hs
  skipNext _ := simulates_skipNext
  readStub _ count := simulates_bind (simulates_onData (readsAlike_readPadded _)) fun _ =>
    simulates_bind (simulates_onData readsAlike_readWord) fun _ => Simulates.congruence.pure _
  record _ _ _ _ := simulates_of_ignores fun _ _ => ⟨rfl, rfl⟩
  returnTo {n α f g} hf := by
    rintro s s' ⟨b, rfl, hb⟩
    refine hf s.interp.data.pos b.pos (fun _ => ?_) s (withData b s) ⟨b, rfl, hb⟩
    rintro s₁ s₁' ⟨b₁, rfl, hb₁⟩
    exact .ok ⟨_, rfl, behind_moveTo (samePos_pos haddr hb) hb₁⟩
  own h := h
  push hid hs := by rw [hid, hs]
  root hid := by rw [hid]
  length_eq hs := by rw [hs]
  findValue _ _ _ := looksUp_shifted.findValue
  setValue _ _ _ _ _ hs := hs ▸ simulates_of_ignores fun _ _ => ⟨rfl, rfl⟩
  hasValue _ _ _ := looksUp_shifted.hasValue
  send _ _ _ hs := looksUp_shifted.send (fun _ _ => simulates_of_ignores fun _ _ => ⟨rfl, rfl⟩) hs
  suicide _ _ _ hs := looksUp_shifted.suicide (fun _ _ => simulates_of_ignores fun _ _ => ⟨rfl, rfl⟩) hs
  setGlobalTag _ _ _ _ hs := hs ▸ simulates_of_ignores (ignoresData_modifyScope _ _)
  requireGlobal _ _ _ hs := hs ▸ simulates_of_ignores (ignoresData_modifyScope _ _)
  terminate _ _ _ hs := hs ▸ simulates_of_ignores (ignoresData_modifyScope _ _)
  isTerminated _ sc _ hs := hs ▸ simulates_of_ignores fun _ _ => by cases sc <;> exact ⟨rfl, rfl⟩
  withFrame hf := simulates_withFrame fun id => hf id id rfl
  inGlobalScope hf := by
    rintro s s' ⟨b, rfl, hb⟩
    exact hf s.interp.globalScope s.interp.globalScope rfl s (withData b s) ⟨b, rfl, hb⟩
  checkLimit _ := simulates_of_ignores fun s b => by
    unfold checkLimit
    by_cases h : s.interp.executionStepLimit = 0 <;>
      simp only [withData, outcomeWithData, finalState, resultState, h, if_true, if_false, and_self]
  runCallee n {writeBack pyint pyint' sc sc'} hp hs _ _ := by
    obtain rfl : pyint' = pyint := by rw [hp.rest, ← hp.scope]
    obtain rfl := hs
    exact simulates_runCallee writeBack pyint' _

end Runs

/-! ### Sessions -/

/-- The execution of the program `p` starts at the first byte of `p`, and nothing is left of
earlier programs behind it. -/
structure StartsAt (s : State) (p : List UInt8) : Prop where
  live : (s.interp.data.assign p).fail = false
  atStart : (s.interp.data.assign p).get = s.interp.data.put
  own : (s.interp.data.assign p).bytecode.drop s.interp.data.put = p
  atEnd : (s.interp.data.assign p).put = (s.interp.data.assign p).bytecode.length

/-- The execution of the program `p` does what it does on a stream of `p` alone. -/
def RunsAlone (n : Nat) (s : State) (p : List UInt8) : Prop :=
  SameResult (fun s₁ s₂ => withData (Bitstream.ofBytes []) s₁ = withData (Bitstream.ofBytes []) s₂)
    (submit n p s) (execute n (withData (Bitstream.ofBytes p) s))

/-- A condition holds of every submission of a session. -/
def Session (Q : State → List UInt8 → Prop) (n : Nat) : State → List (List UInt8) → Prop
  | _, [] => True
  | s, p :: ps => Q s p ∧ Session Q n (finalState (submit n p) s) ps

/-- The stream is ready for a program: the read cursor stands at the write cursor, and the program
covers what lies behind it. -/
structure ReadyFor (s : State) (p : List UInt8) : Prop where
  cursors : s.interp.data.get = s.interp.data.put
  within : s.interp.data.put ≤ s.interp.data.bytecode.length
  covers : s.interp.data.bytecode.length ≤ s.interp.data.put + p.length
  size : p.length < 2 ^ 32

/-- Everything that was submitted has been read. -/
structure Drained (s : State) (p : List UInt8) : Prop where
  read : s.interp.data.get = s.interp.data.bytecode.length
  size : p.length < 2 ^ 32

/-- What `assign` takes of a buffer: its length is narrowed to 32 bits. -/
def narrowed (p : List UInt8) : List UInt8 := p.take (UInt32.ofNat p.length).toNat

lemma narrowed_eq_self_iff (p : List UInt8) : narrowed p = p ↔ p.length < 2 ^ 32 := by
  have hnarrow : (UInt32.ofNat p.length).toNat = p.length % 2 ^ 32 := UInt32.toNat_ofNat'
  unfold narrowed
  rw [hnarrow, List.take_eq_self_iff]
  omega

/-- An execution starts at its program exactly when the stream was ready for it. -/
lemma startsAt_iff_ready (s : State) (p : List UInt8) : StartsAt s p ↔ ReadyFor s p := by
  have hput : (s.interp.data.assign p).put = s.interp.data.put + (narrowed p).length := rfl
  have hbytes : (s.interp.data.assign p).bytecode = s.interp.data.bytecode.take s.interp.data.put ++
      narrowed p ++ s.interp.data.bytecode.drop (s.interp.data.put + (narrowed p).length) := rfl
  have hlength : (s.interp.data.assign p).bytecode.length =
      min s.interp.data.put s.interp.data.bytecode.length + (narrowed p).length +
        (s.interp.data.bytecode.length - (s.interp.data.put + (narrowed p).length)) := by
    rw [hbytes, List.length_append, List.length_append, List.length_take, List.length_drop]
  have hown : s.interp.data.put ≤ s.interp.data.bytecode.length →
      s.interp.data.bytecode.length ≤ s.interp.data.put + (narrowed p).length →
      (s.interp.data.assign p).bytecode.drop s.interp.data.put = narrowed p := by
    intro hwithin hcovers
    have htake : (s.interp.data.bytecode.take s.interp.data.put).length = s.interp.data.put := by
      rw [List.length_take, Nat.min_eq_left hwithin]
    rw [hbytes, List.drop_of_length_le hcovers, List.append_nil]
    exact List.drop_left' htake
  constructor
  · rintro ⟨-, hstart, hp, hend⟩
    rw [hput, hlength] at hend
    have hwithin : s.interp.data.put ≤ s.interp.data.bytecode.length := by omega
    have hcovers : s.interp.data.bytecode.length ≤ s.interp.data.put + (narrowed p).length := by omega
    rw [hown hwithin hcovers] at hp
    rw [hp] at hcovers
    exact ⟨hstart, hwithin, hcovers, (narrowed_eq_self_iff p).mp hp⟩
  · rintro ⟨hstart, hwithin, hcovers, hsize⟩
    have hp := (narrowed_eq_self_iff p).mpr hsize
    rw [hp] at hput hlength hown
    exact ⟨rfl, hstart, hown hwithin hcovers, by rw [hput, hlength]; omega⟩

/-- The state in which a submitted program is executed. -/
def assigned (s : State) (p : List UInt8) : State := withData (s.interp.data.assign p) s

lemma submit_eq_execute (n : Nat) (p : List UInt8) (s : State) :
    submit n p s = execute n (assigned s p) := bind_of_ok rfl

/-- Everything in the stream has been submitted. -/
def Full (s : State) : Prop := s.interp.data.put = s.interp.data.bytecode.length

lemma ready_iff_drained {s : State} (hfull : Full s) (p : List UInt8) : ReadyFor s p ↔ Drained s p := by
  unfold Full at hfull
  constructor
  · rintro ⟨hcursors, -, -, hsize⟩
    exact ⟨hcursors.trans hfull, hsize⟩
  · rintro ⟨hread, hsize⟩
    exact ⟨hread.trans hfull.symm, hfull.le, by omega, hsize⟩

/-- No execution changes what was submitted. -/
lemma submitted_execute (n : Nat) {s : State} (hget : s.interp.data.get ≤ s.interp.data.bytecode.length) :
    (finalState (execute n) s).interp.data.bytecode = s.interp.data.bytecode ∧
      (finalState (execute n) s).interp.data.put = s.interp.data.put := by
  have hsame : Simulates (Shifted [] s.interp.data.bytecode s.interp.data.put) _ (execute n)
      (execute n) := (related_shifted (.inl rfl)).execute
  obtain ⟨b, -, hb⟩ := hsame.finalState ⟨_, rfl, behind_refl hget⟩
  exact ⟨hb.bytecode_eq, hb.put_eq⟩

lemma get_assigned_le {s : State} {p : List UInt8} (h : StartsAt s p) :
    (assigned s p).interp.data.get ≤ (assigned s p).interp.data.bytecode.length := by
  have hput : s.interp.data.put ≤ (s.interp.data.assign p).put := Nat.le_add_right _ _
  have hstart := h.atStart
  have hend := h.atEnd
  show (s.interp.data.assign p).get ≤ (s.interp.data.assign p).bytecode.length
  omega

lemma full_submit (n : Nat) {s : State} {p : List UInt8} (h : StartsAt s p) :
    Full (finalState (submit n p) s) ∧ (finalState (submit n p) s).interp.data.put =
      s.interp.data.put + p.length := by
  have hfinal : finalState (submit n p) s = finalState (execute n) (assigned s p) := by
    unfold finalState
    rw [submit_eq_execute]
  obtain ⟨hbytes, hput⟩ := submitted_execute n (get_assigned_le h)
  have hsize := (narrowed_eq_self_iff p).mpr ((startsAt_iff_ready s p).mp h).size
  have hnext : (assigned s p).interp.data.put = s.interp.data.put + p.length := by
    show s.interp.data.put + (narrowed p).length = _
    rw [hsize]
  unfold Full
  rw [hfinal, hbytes, hput]
  exact ⟨h.atEnd, hnext⟩

/-- The run lemma: after a program that was started right, the next ones are started right as
long as each execution reads to the end. -/
lemma session_startsAt_iff_drained (n : Nat) (ps : List (List UInt8)) {s : State} (hfull : Full s) :
    Session StartsAt n s ps ↔ Session Drained n s ps := by
  induction ps generalizing s with
  | nil => exact Iff.rfl
  | cons p ps ih =>
    have hfirst : StartsAt s p ↔ Drained s p :=
      (startsAt_iff_ready s p).trans (ready_iff_drained hfull p)
    constructor
    · rintro ⟨hp, hps⟩
      exact ⟨hfirst.mp hp, (ih (full_submit n hp).1).mp hps⟩
    · rintro ⟨hp, hps⟩
      have hstart := hfirst.mpr hp
      exact ⟨hstart, (ih (full_submit n hstart).1).mpr hps⟩

/-- An execution that starts at its program sees nothing else. -/
lemma runsAlone_of_startsAt (n : Nat) {s : State} {p : List UInt8} (h : StartsAt s p)
    (hsize : s.interp.data.put + p.length + 1 < 2 ^ 32) : RunsAlone n s p := by
  have hwithin : s.interp.data.put ≤ (s.interp.data.assign p).bytecode.length := by
    have hput : s.interp.data.put ≤ (s.interp.data.assign p).put := Nat.le_add_right _ _
    rw [← h.atEnd]
    exact hput
  have hpre : ((s.interp.data.assign p).bytecode.take s.interp.data.put).length =
      s.interp.data.put := by
    rw [List.length_take, Nat.min_eq_left hwithin]
  have hsplit : (s.interp.data.assign p).bytecode =
      (s.interp.data.assign p).bytecode.take s.interp.data.put ++ p := by
    have hbytes := List.take_append_drop s.interp.data.put (s.interp.data.assign p).bytecode
    rw [h.own] at hbytes
    exact hbytes.symm
  have hget : (s.interp.data.assign p).get =
      ((s.interp.data.assign p).bytecode.take s.interp.data.put).length + 0 := by
    rw [h.atStart, hpre]
    rfl
  have hbehind : Behind ((s.interp.data.assign p).bytecode.take s.interp.data.put) p
      (s.interp.data.assign p).put (s.interp.data.assign p) (Bitstream.ofBytes p) :=
    ⟨hsplit, rfl, hget, Nat.zero_le _, h.live, rfl⟩
  have haddr : Addressable ((s.interp.data.assign p).bytecode.take s.interp.data.put) p :=
    .inr (by rw [hpre]; exact hsize)
  have hsame : Simulates (Shifted ((s.interp.data.assign p).bytecode.take s.interp.data.put) p
      (s.interp.data.assign p).put) _ (execute n) (execute n) := (related_shifted haddr).execute
  unfold RunsAlone
  rw [submit_eq_execute]
  refine (hsame _ _ ⟨Bitstream.ofBytes p, rfl, hbehind⟩).mono ?_
  rintro s₁ s₂ ⟨b, rfl, -⟩
  rfl

lemma session_runsAlone (n : Nat) (ps : List (List UInt8)) {s : State} (h : Session StartsAt n s ps)
    (hsize : s.interp.data.put + (ps.map List.length).sum + 1 < 2 ^ 32) :
    Session (RunsAlone n) n s ps := by
  induction ps generalizing s with
  | nil => trivial
  | cons p ps ih =>
    obtain ⟨hp, hps⟩ := h
    rw [List.map_cons, List.sum_cons] at hsize
    have hnext := (full_submit n hp).2
    exact ⟨runsAlone_of_startsAt n hp (by omega), ih hps (by omega)⟩

/-- Every program of a session is started at its first byte exactly when the first one finds the
stream ready and each execution but the last reads the stream to its end. Then each execution
does what it would do on a stream of its program alone. -/
theorem session_startsAt_iff (n : Nat) (s : State) (p : List UInt8) (ps : List (List UInt8)) :
    (Session StartsAt n s (p :: ps) ↔
      ReadyFor s p ∧ Session Drained n (finalState (submit n p) s) ps) ∧
    (Session StartsAt n s (p :: ps) →
      s.interp.data.put + ((p :: ps).map List.length).sum + 1 < 2 ^ 32 →
      Session (RunsAlone n) n s (p :: ps)) := by
  refine ⟨?_, fun h hsize => session_runsAlone n _ h hsize⟩
  constructor
  · rintro ⟨hp, hps⟩
    exact ⟨(startsAt_iff_ready s p).mp hp,
      (session_startsAt_iff_drained n ps (full_submit n hp).1).mp hps⟩
  · rintro ⟨hp, hps⟩
    have hstart := (startsAt_iff_ready s p).mpr hp
    exact ⟨hstart, (session_startsAt_iff_drained n ps (full_submit n hstart).1).mpr hps⟩

/-- A program that fails before its end, and one that follows it. -/
def failingSession : List (List UInt8) :=
  [moduleCode [.importFrom (.name (lit "nowhere")) (.alias (lit "x") none) 0, .pass],
    moduleCode [.pass]]

/-- The second execution starts in the middle of the first program. -/
theorem session_failing_false : ¬Session StartsAt 20 (startState [] 0) failingSession := by
  rintro ⟨-, hsecond, -⟩
  have hstart := hsecond.atStart
  revert hstart
  decide +kernel

end ContractPython.Proofs
