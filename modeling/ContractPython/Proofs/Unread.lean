import ContractPython.Proofs.Values

/-!
# The fuel of a skip

`skip_next` reads four bytes before each level of its recursion. Fuel for a quarter of the bytes
that can still be read is enough for it, and more changes nothing.
-/

namespace ContractPython.Proofs

open Program M

/-! ### The bytes that can still be read -/

def Bitstream.unread (b : Bitstream) : Nat := if b.fail then 0 else b.bytecode.length - b.get

lemma unread_le (b : Bitstream) : Bitstream.unread b ≤ b.bytecode.length := by
  unfold Bitstream.unread
  split <;> omega

/-- A read that succeeds leaves that much less. -/
lemma unread_read {b b' : Bitstream} {count : Nat} {bytes : List UInt8}
    (h : b.read count = (some bytes, b')) : Bitstream.unread b' + count = Bitstream.unread b := by
  unfold Bitstream.read at h
  split at h
  · cases h
  · rename_i hfail
    split at h
    · cases h
      simp only [Bitstream.unread, hfail]
      simp only [Bool.false_eq_true, if_false]
      omega
    · cases h

/-- A word that was read, and the read behind it. -/
lemma readWord_eq_some {b b' : Bitstream} {w : UInt32} (h : b.readWord = (some w, b')) :
    ∃ bytes, b.read 4 = (some bytes, b') := by
  unfold Bitstream.readWord at h
  cases hread : b.read 4 with
  | mk bytes b₁ =>
    rw [hread] at h
    cases bytes with
    | none => cases h
    | some bytes =>
      obtain ⟨-, rfl⟩ := Prod.ext_iff.mp h
      exact ⟨bytes, rfl⟩

lemma unread_readWord {b b' : Bitstream} {w : UInt32} (h : b.readWord = (some w, b')) :
    Bitstream.unread b' + 4 = Bitstream.unread b := by
  obtain ⟨bytes, hread⟩ := readWord_eq_some h
  exact unread_read hread

lemma unread_readString {b b' : Bitstream} {str : Str} (h : b.readString = (some str, b')) :
    Bitstream.unread b' ≤ Bitstream.unread b := by
  unfold Bitstream.readString at h
  cases hword : b.readWord with
  | mk length b₁ =>
    rw [hword] at h
    cases length with
    | none => cases h
    | some length =>
      have hfirst := unread_readWord hword
      have hrest := unread_read h
      omega

/-- A word that is only looked at takes no bytes. -/
lemma unread_peek {b b' : Bitstream} {w : UInt32} (h : b.readWord = (some w, b')) :
    Bitstream.unread { b' with get := b.get } = Bitstream.unread b := by
  obtain ⟨bytes, hread⟩ := readWord_eq_some h
  unfold Bitstream.read at hread
  split at hread
  · cases hread
  · split at hread <;> cases hread
    rfl

def unread (s : State) : Nat := Bitstream.unread s.interp.data

lemma onData_eq_ok {α : Type} {f : Bitstream → Option α × Bitstream} {s s' : State} {a : α}
    (h : onData f s = .ok a s') : ∃ b, f s.interp.data = (some a, b) ∧ s'.interp.data = b := by
  unfold onData at h
  cases hf : f s.interp.data with
  | mk r b =>
    simp only [hf] at h
    cases r with
    | none => cases h
    | some a' =>
      cases h
      exact ⟨b, rfl, rfl⟩

lemma unread_readWord_ok {s s' : State} {w : UInt32} (h : readWord s = .ok w s') :
    unread s' + 4 = unread s := by
  obtain ⟨b, hread, hdata⟩ := onData_eq_ok h
  unfold unread
  rw [hdata]
  exact unread_readWord hread

/-! ### Reading takes bytes away -/

/-- `skip_next` has a case for the node type. -/
def NodeType.isSkipped : NodeType → Bool
  | .listComp | .comprehension | .import | .importFrom | .alias | .functionDef | .functionStartDefaults
  | .functionStartStub | .functionStart | .functionEnd | .global | .unknown _ => false
  | _ => true

/-- Nothing follows the node type. -/
def NodeType.isBare : NodeType → Bool
  | .pass | .break | .continue => true
  | _ => false

lemma skipNode_bare {type : NodeType} (h : NodeType.isBare type = true) (skip : M Unit) :
    skipNode skip type = pure () := by
  cases type <;> first | rfl | cases h

lemma skipNode_unknown {type : NodeType} (h : NodeType.isSkipped type = false) (skip : M Unit) :
    skipNode skip type = throwRuntime (lit "Failed to skip unknown node type!") := by
  cases type <;> first | rfl | cases h

/-- `x` puts no bytes back, whether it returns or not. -/
abbrev ReadsForth (α : Type) (x : M α) : Prop := Relates (fun _ s s' => unread s' ≤ unread s) α x

/-- `x` reads on when there is something to read. -/
def Takes {α : Type} (x : M α) : Prop := ∀ s, 0 < unread s → unread (finalState x s) < unread s

lemma readsForth_compositional : Compositional ReadsForth :=
  Relates.compositional (fun _ _ => le_rfl) fun h h' => h'.trans h

/-- A failed read leaves nothing. -/
lemma unread_read_none {b b' : Bitstream} {count : Nat} (h : b.read count = (none, b')) :
    Bitstream.unread b' = 0 := by
  unfold Bitstream.read at h
  split at h
  · rename_i hfail
    cases h
    simp [Bitstream.unread, hfail]
  · split at h <;> cases h
    simp [Bitstream.unread]

lemma unread_readWord_none {b b' : Bitstream} (h : b.readWord = (none, b')) : Bitstream.unread b' = 0 := by
  unfold Bitstream.readWord at h
  cases hread : b.read 4 with
  | mk o b₁ =>
    rw [hread] at h
    cases o with
    | some bytes => cases h
    | none =>
      cases h
      exact unread_read_none hread

lemma unread_readString_none {b b' : Bitstream} (h : b.readString = (none, b')) : Bitstream.unread b' = 0 := by
  unfold Bitstream.readString at h
  cases hword : b.readWord with
  | mk length b₁ =>
    rw [hword] at h
    cases length with
    | none =>
      cases h
      exact unread_readWord_none hword
    | some length => exact unread_read_none h

lemma readsForth_onData {α : Type} {f : Bitstream → Option α × Bitstream}
    (hsome : ∀ {b b' a}, f b = (some a, b') → Bitstream.unread b' ≤ Bitstream.unread b)
    (hnone : ∀ {b b'}, f b = (none, b') → Bitstream.unread b' = 0) : ReadsForth α (onData f) := by
  intro s
  unfold onData
  cases hf : f s.interp.data with
  | mk o b =>
    cases o with
    | some a => exact hsome hf
    | none =>
      have hleft : Bitstream.unread b = 0 := hnone hf
      show Bitstream.unread b ≤ unread s
      omega

lemma reading_readsForth : Reading ReadsForth where
  toSequential := readsForth_compositional.toSequential
  throw e _ := readsForth_compositional.throw e
  charge := by
    intro s
    unfold charge
    by_cases hlimit : s.interp.executionStepLimit > 0 ∧
        s.interp.numExecutionSteps + 1 ≥ s.interp.executionStepLimit
    · rw [if_pos hlimit]
      exact le_refl (unread s)
    · rw [if_neg hlimit]
      exact le_refl (unread s)
  readWord := readsForth_onData (fun h => by have hread := unread_readWord h; omega) unread_readWord_none
  readString := readsForth_onData unread_readString unread_readString_none
  peekType := readsForth_onData (fun {b b' type} h => by
      cases hword : b.readWord with
      | mk w b₁ =>
        rw [hword] at h
        cases w with
        | none => cases h
        | some w =>
          cases h
          exact (unread_peek hword).le) fun {b b'} h => by
      cases hword : b.readWord with
      | mk w b₁ =>
        rw [hword] at h
        cases w with
        | some w => cases h
        | none =>
          cases h
          exact unread_readWord_none hword

namespace Takes

lemma onData {α : Type} {f : Bitstream → Option α × Bitstream}
    (hsome : ∀ {b b' a}, f b = (some a, b') → Bitstream.unread b' < Bitstream.unread b)
    (hnone : ∀ {b b'}, f b = (none, b') → Bitstream.unread b' = 0) : Takes (onData f) := by
  intro s hs
  cases hf : f s.interp.data with
  | mk o b =>
    have hdata : (finalState (M.onData f) s).interp.data = b := by
      unfold finalState resultState M.onData
      rw [hf]
      cases o <;> rfl
    unfold unread at hs ⊢
    rw [hdata]
    cases o with
    | some a => exact hsome hf
    | none =>
      rw [hnone hf]
      exact hs

lemma readWord : Takes readWord := onData (fun h => by have hread := unread_readWord h; omega) unread_readWord_none

lemma readString : Takes readString := by
  refine onData (fun {b b' str} h => ?_) unread_readString_none
  unfold Bitstream.readString at h
  cases hword : b.readWord with
  | mk length b₁ =>
    rw [hword] at h
    cases length with
    | none => cases h
    | some length =>
      have hfirst := unread_readWord hword
      have hrest := unread_read h
      omega

lemma first {α β : Type} {x : M α} {f : α → M β} (hx : Takes x) (hf : ∀ a, ReadsForth β (f a)) :
    Takes (x >>= f) := by
  intro s hs
  have hfirst := hx s hs
  cases hxs : x s with
  | error e s₁ =>
    rw [finalState_of_error hxs] at hfirst
    rw [finalState_bind_of_error hxs]
    exact hfirst
  | ok a s₁ =>
    rw [finalState_of_ok hxs] at hfirst
    obtain ⟨-, hle⟩ := (hf a).exists_exn s₁
    rw [finalState_bind_of_ok hxs]
    omega

lemma readType : Takes readType := readWord.first fun _ => readsForth_compositional.pure _

lemma chargedLoop {body : M Unit} (hbody : ReadsForth _ body) : Takes (chargedLoop body) :=
  readWord.first fun _ => readsForth_compositional.toSequential.iterateM
    (fun _ => readsForth_compositional.bind reading_readsForth.charge fun _ => hbody) _ _

lemma readNames : Takes readNames := by
  refine readType.first fun type => ?_
  split
  · exact readsForth_compositional.bind reading_readsForth.readString fun _ => readsForth_compositional.pure _
  · exact readsForth_compositional.bind reading_readsForth.readString fun _ => readsForth_compositional.pure _
  · exact readsForth_compositional.bind reading_readsForth.readWord fun _ =>
      readsForth_compositional.bind (reading_readsForth.throwIf _ _) fun _ =>
      readsForth_compositional.bind reading_readsForth.readName fun _ =>
      readsForth_compositional.bind reading_readsForth.readName fun _ => readsForth_compositional.pure _
  · exact readsForth_compositional.throw _

end Takes

lemma readsForth_skipFuel (n : Nat) : ReadsForth _ (skipFuel n) :=
  reading_readsForth.skipFuel (readsForth_compositional.throw _) n

/-- A case of `skip_next` reads on, unless it has nothing to skip. -/
lemma takes_skipNode {type : NodeType} (hcase : NodeType.isSkipped type = true) (hbare : NodeType.isBare type = false)
    (n : Nat) : Takes (skipNode (skipFuel (n + 1)) type) := by
  have hskip : Takes (skipFuel (n + 1)) := Takes.readType.first fun _ =>
    reading_readsForth.skipNode (readsForth_skipFuel n) _
  have one : ReadsForth _ (skipFuel (n + 1)) := readsForth_skipFuel _
  have two : ReadsForth Unit (do skipFuel (n + 1); skipFuel (n + 1)) := readsForth_compositional.bind one fun _ => one
  have loop : ReadsForth _ (chargedLoop (skipFuel (n + 1))) := by
    exact readsForth_compositional.bind reading_readsForth.readWord fun _ =>
      readsForth_compositional.toSequential.iterateM
        (fun _ => readsForth_compositional.bind reading_readsForth.charge fun _ => one) _ _
  cases type with
  | pass | «break» | «continue» => cases hbare
  | name | string => exact Takes.readString.first fun _ => readsForth_compositional.pure _
  | forLoop => exact Takes.readNames.first fun _ => two
  | whileLoop | «if» | «attribute» | subscript => exact hskip.first fun _ => one
  | assign | call => exact hskip.first fun _ => loop
  | statementList | list | tuple => exact .chargedLoop one
  | index | «return» => exact hskip
  | compare =>
    exact hskip.first fun _ => readsForth_compositional.bind reading_readsForth.readWord fun _ =>
      readsForth_compositional.toSequential.iterateM (fun _ => readsForth_compositional.bind reading_readsForth.charge
        fun _ => readsForth_compositional.bind reading_readsForth.readWord fun _ => one) _ _
  | integer => exact Takes.readWord.first fun _ => readsForth_compositional.pure _
  | ifElse => exact hskip.first fun _ => two
  | dictionary => exact .chargedLoop two
  | unaryOp => exact Takes.readWord.first fun _ => one
  | boolOp => exact Takes.readWord.first fun _ => loop
  | augmentedAssign | binaryOp => exact Takes.readWord.first fun _ => two
  | _ => cases hcase

/-! ### Enough fuel -/

/-- Where few enough bytes are left for the fuel `k`, the two computations agree, do not lack
fuel, and read no bytes twice. -/
def ReadsOn (k : Nat) (α : Type) (x y : M α) : Prop :=
  ∀ s, unread s < 4 * k → x s = y s ∧ (∀ s', x s ≠ .error .outOfFuel s') ∧
    ∀ a s', x s = .ok a s' → unread s' ≤ unread s

lemma readsOn_bind {k : Nat} {α β : Type} {x y : M α} {f g : α → M β} (hx : ReadsOn k α x y)
    (hf : ∀ a, ReadsOn k β (f a) (g a)) : ReadsOn k β (x >>= f) (y >>= g) := by
  intro s hfew
  obtain ⟨hxy, hstuck, hless⟩ := hx s hfew
  cases hxs : x s with
  | error e s₁ =>
    have hys : y s = .error e s₁ := hxy ▸ hxs
    rw [bind_of_error hxs, bind_of_error hys]
    refine ⟨rfl, ?_, nofun⟩
    rintro s' hs'
    cases hs'
    exact hstuck _ hxs
  | ok a s₁ =>
    have hys : y s = .ok a s₁ := hxy ▸ hxs
    have hle : unread s₁ ≤ unread s := hless a s₁ hxs
    rw [bind_of_ok hxs, bind_of_ok hys]
    obtain ⟨hfg, hstuck', hless'⟩ := hf a s₁ (by omega)
    exact ⟨hfg, hstuck', fun b s' hs' => (hless' b s' hs').trans hle⟩

lemma readsOn_onData {k : Nat} {α : Type} {f : Bitstream → Option α × Bitstream}
    (hf : ∀ {b b' a}, f b = (some a, b') → Bitstream.unread b' ≤ Bitstream.unread b) :
    ReadsOn k α (onData f) (onData f) := by
  intro s _
  refine ⟨rfl, ?_, ?_⟩
  · intro s' hs'
    unfold onData at hs'
    split at hs' <;> cases hs'
  · intro a s' hs'
    obtain ⟨b, hread, hdata⟩ := onData_eq_ok hs'
    unfold unread
    rw [hdata]
    exact hf hread

lemma readsOn_congruence (k : Nat) : Congruence (ReadsOn k) where
  pure _ := fun _ _ => ⟨rfl, nofun, fun _ _ h => by cases h; exact le_rfl⟩
  bind := readsOn_bind

/-- What skipping is made of. -/
lemma reading_readsOn (k : Nat) : Reading fun α x => ReadsOn k α x x where
  toSequential := (readsOn_congruence k).sequential
  throw e he := fun _ _ => ⟨rfl, fun _ h => by cases h; exact ne_outOfFuel_of_ordinary he rfl, nofun⟩
  charge := by
    intro s _
    refine ⟨rfl, ?_, ?_⟩
    · intro s' hs'
      unfold charge at hs'
      split at hs' <;> cases hs'
    · intro u s' hs'
      unfold charge at hs'
      split at hs' <;> cases hs'
      exact le_rfl
  readWord := readsOn_onData fun h => by
    have hread := unread_readWord h
    omega
  readString := readsOn_onData unread_readString
  peekType := readsOn_onData fun {b b' type} h => by
    cases hword : b.readWord with
    | mk w b₁ =>
      rw [hword] at h
      cases w with
      | none => cases h
      | some w =>
        cases h
        exact (unread_peek hword).le

/-- Fuel for a quarter of the bytes left is as good as any more. -/
theorem skipFuel_readsOn (k m : Nat) : ReadsOn k _ (skipFuel k) (skipFuel (k + m)) := by
  induction k with
  | zero => exact fun s hfew => absurd hfew (by omega)
  | succ k ih =>
    rw [Nat.add_right_comm]
    intro s hfew
    obtain ⟨-, hstuck, -⟩ := (reading_readsOn (k + 1)).readType s hfew
    cases htype : readType s with
    | error e s₁ =>
      have hskip : ∀ n, skipFuel (n + 1) s = .error e s₁ := fun n => bind_of_error htype
      rw [hskip, hskip]
      refine ⟨rfl, ?_, nofun⟩
      rintro s' hs'
      cases hs'
      exact hstuck _ htype
    | ok type s₁ =>
      -- the type that was read pays for the level of recursion
      have hdeeper : unread s₁ + 4 = unread s := by
        obtain ⟨w, s₂, hword, hpure⟩ := bind_eq_ok.mp htype
        obtain ⟨-, rfl⟩ := pure_eq_ok.mp hpure
        exact unread_readWord_ok hword
      have hskip : ∀ n, skipFuel (n + 1) s = skipNode (skipFuel n) type s₁ := fun n =>
        bind_of_ok htype
      rw [hskip, hskip]
      obtain ⟨hsame, hstuck', hless⟩ := Reading.skipNode_related (readsOn_congruence k)
        (reading_readsOn k) _ _ ih type s₁ (by omega)
      refine ⟨hsame, hstuck', fun a s' hs' => ?_⟩
      have hle := hless a s' hs'
      omega

/-- The bound of `skipNext` on its recursion is never met, and a larger one changes nothing. -/
theorem skipNext_eq_skipFuel (s : State) {k : Nat} (hfew : unread s < 4 * k) :
    skipNext s = skipFuel k s ∧ ∀ s', skipNext s ≠ .error .outOfFuel s' := by
  have hstart : skipNext s = skipFuel (s.interp.data.bytecode.length + 1) s := rfl
  have hlength : unread s < 4 * (s.interp.data.bytecode.length + 1) := by
    have hle := unread_le s.interp.data
    unfold unread
    omega
  obtain ⟨hown, hstuck, -⟩ := skipFuel_readsOn (s.interp.data.bytecode.length + 1) k s hlength
  obtain ⟨hother, -, -⟩ := skipFuel_readsOn k (s.interp.data.bytecode.length + 1) s hfew
  rw [Nat.add_comm] at hother
  rw [hstart]
  exact ⟨hown.trans hother.symm, hstuck⟩

end ContractPython.Proofs
