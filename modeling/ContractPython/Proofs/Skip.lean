import ContractPython.Proofs.Encoding
import ContractPython.Proofs.Steps

/-!
# Skipping

`skip_next` is a second decoder of the bytecode. On the encoding of a tree it does one of
three things: it moves the cursor past the last byte, it runs out of gas, or it throws
because it comes across a node type it does not know. `Ast.skippable` says for which trees
the last cannot happen.
-/

namespace ContractPython.Proofs

open Program M Bytes

/-! ### Standing at an encoding -/

/-- The cursor of a readable stream below 4 GiB stands at the first of the bytes `bs`. -/
structure Placed (bs : List UInt8) (s : State) : Prop where
  good : s.interp.data.fail = false
  here : OccursAt bs s.interp.data.bytecode s.interp.data.get
  inside : s.interp.data.get + bs.length ≤ s.interp.data.bytecode.length
  small : s.interp.data.bytecode.length < 2 ^ 32

/-- The state with the cursor `len` bytes further and `steps` charges made. -/
def advance (len steps : Nat) (s : State) : State :=
  { s with
    interp := { s.interp with
      data := { s.interp.data with get := s.interp.data.get + len }
      numExecutionSteps := s.interp.numExecutionSteps + UInt32.ofNat steps }
    log := List.replicate steps .charged ++ s.log }

/-- The limit leaves room for so many charges. -/
def Affords (steps : Nat) (s : State) : Prop :=
  s.interp.executionStepLimit = 0 ∨
    s.interp.numExecutionSteps.toNat + steps < s.interp.executionStepLimit.toNat

instance (steps : Nat) (s : State) : Decidable (Affords steps s) := inferInstanceAs (Decidable (_ ∨ _))

lemma advance_advance (len len' steps steps' : Nat) (s : State) :
    advance len' steps' (advance len steps s) = advance (len + len') (steps + steps') s := by
  have hlog : List.replicate steps' Event.charged ++ (List.replicate steps .charged ++ s.log) =
      List.replicate (steps + steps') .charged ++ s.log := by
    rw [← List.append_assoc, List.replicate_append_replicate, Nat.add_comm]
  simp only [advance, hlog, UInt32.ofNat_add, Nat.add_assoc, UInt32.add_assoc]

lemma Placed.append {bs bs' : List UInt8} {s : State} (h : Placed (bs ++ bs') s) :
    Placed bs s ∧ ∀ steps, Placed bs' (advance bs.length steps s) := by
  have hin := h.inside
  obtain ⟨hbs, hbs'⟩ := (occursAt_append _ _ _ _).mp h.here
  rw [List.length_append] at hin
  exact ⟨⟨h.good, hbs, by omega, h.small⟩,
    fun _ => ⟨h.good, hbs', by simp only [advance]; omega, h.small⟩⟩

lemma Affords.mono {steps steps' : Nat} {s : State} (h : Affords steps' s) (hle : steps ≤ steps') :
    Affords steps s :=
  h.imp id fun h => by omega

lemma Affords.advance {len steps steps' : Nat} {s : State} (h : Affords (steps + steps') s) :
    Affords steps' (advance len steps s) := by
  rcases h with h | h
  · exact .inl h
  · right
    have hlimit := s.interp.executionStepLimit.toNat_lt
    have hsteps : (s.interp.numExecutionSteps + UInt32.ofNat steps).toNat =
        s.interp.numExecutionSteps.toNat + steps := by
      rw [UInt32.toNat_add, UInt32.toNat_ofNat']
      omega
    simp only [Proofs.advance, hsteps]
    omega

/-! ### Computations that skip -/

/-- At the bytes `bs`, `m` moves past them for the price of `steps` charges if `ok`, and
otherwise throws. -/
def Skips {α : Type} (m : M α) (ok : Bool) (bs : List UInt8) (steps : Nat) : Prop :=
  ∀ s, Placed bs s →
    match m s with
    | .ok _ s' => ok = true ∧ s' = advance bs.length steps s
    | .error e _ => ok = true → e = .outOfGas ∧ ¬Affords steps s

namespace Skips

variable {α β : Type} {m : M α} {f : α → M β} {ok ok' : Bool} {bs bs' : List UInt8}
  {steps steps' : Nat} {s s' : State}

lemma of_ok {a : α} (h : Skips m ok bs steps) (hs : Placed bs s) (hm : m s = .ok a s') :
    ok = true ∧ s' = advance bs.length steps s := by
  have h' := h s hs
  rwa [hm] at h'

lemma of_error {e : Exn} (h : Skips m ok bs steps) (hs : Placed bs s) (hm : m s = .error e s')
    (hok : ok = true) : e = .outOfGas ∧ ¬Affords steps s := by
  have h' := h s hs
  rw [hm] at h'
  exact h' hok

/-- With enough gas the outcome is certain. -/
lemma of_affords {m : M Unit} (h : Skips m ok bs steps) (hs : Placed bs s) (hok : ok = true)
    (hgas : Affords steps s) : m s = .ok () (advance bs.length steps s) := by
  have h' := h s hs
  cases hm : m s with
  | ok _ s' =>
    rw [hm] at h'
    rw [h'.2]
  | error e s' =>
    rw [hm] at h'
    exact absurd hgas (h' hok).2

lemma pure (a : α) : Skips (Pure.pure a : M α) true [] 0 := fun s _ => ⟨rfl, by simp [advance]⟩

lemma throw (e : Exn) (bs : List UInt8) (steps : Nat) :
    Skips (MonadExcept.throw e : M α) false bs steps := fun _ _ h => nomatch h

lemma seq (h : Skips m ok bs steps) (h' : ∀ a, Skips (f a) ok' bs' steps') :
    Skips (m >>= f) (ok && ok') (bs ++ bs') (steps + steps') := by
  intro s hs
  obtain ⟨hbs, hbs'⟩ := hs.append
  cases hm : m s with
  | error e s₁ =>
    rw [bind_of_error hm]
    intro hok
    obtain ⟨he, hgas⟩ := h.of_error hbs hm (by simp_all)
    exact ⟨he, fun hall => hgas (hall.mono (by omega))⟩
  | ok a s₁ =>
    rw [bind_of_ok hm]
    obtain ⟨rfl, rfl⟩ := h.of_ok hbs hm
    have h₂ := h' a _ (hbs' steps)
    cases hf : f a (advance bs.length steps s) with
    | error e s₂ =>
      rw [hf] at h₂
      intro hok
      obtain ⟨he, hgas⟩ := h₂ (by simpa using hok)
      exact ⟨he, fun hall => hgas hall.advance⟩
    | ok b s₂ =>
      rw [hf] at h₂
      refine ⟨by simpa using h₂.1, ?_⟩
      rw [h₂.2, advance_advance, List.length_append]

/-- A free step before `f`. -/
lemma free (h : Skips m ok bs 0) (h' : ∀ a, Skips (f a) ok' bs' steps') :
    Skips (m >>= f) (ok && ok') (bs ++ bs') steps' := by
  simpa using h.seq h'

lemma map (h : Skips m ok bs steps) (g : α → β) :
    Skips (do let a ← m; Pure.pure (g a)) ok bs steps := by
  simpa using h.seq fun a => pure (g a)

/-- A segment of a stream below 4 GiB has a 32-bit length. -/
lemma of_small (h : bs.length < 2 ^ 32 → Skips m ok bs steps) : Skips m ok bs steps := fun s hs =>
  h (by have := hs.inside; have := hs.small; omega) s hs

lemma charge : Skips charge true [] 1 := by
  intro s _
  unfold M.charge
  by_cases hlimit : s.interp.executionStepLimit > 0 ∧
      s.interp.numExecutionSteps + 1 ≥ s.interp.executionStepLimit
  · rw [if_pos hlimit]
    refine fun _ => ⟨rfl, fun hgas => ?_⟩
    obtain ⟨hpos, hge⟩ := hlimit
    have hge := UInt32.le_iff_toNat_le.mp hge
    rcases hgas with h | h
    · simp [h] at hpos
    · rw [UInt32.toNat_add, UInt32.toNat_one] at hge
      omega
  · rw [if_neg hlimit]
    exact ⟨rfl, rfl⟩

/-- Reading a word that is there. -/
lemma word {w : UInt32} {f : UInt32 → M β} (h : Skips (f w) ok bs steps) :
    Skips (readWord >>= f) ok (wordBytes w ++ bs) steps := by
  intro s hs
  obtain ⟨hw, hbs⟩ := hs.append
  have hread : readWord s = .ok w (advance 4 0 s) := by
    simp [readWord, onData, Bitstream.readWord_of_occursAt hw.good hw.here, advance]
  have h' := h _ (hbs 0)
  rw [length_wordBytes] at h'
  rw [bind_of_ok hread]
  cases hf : f w (advance 4 0 s) with
  | error e s' =>
    rw [hf] at h'
    intro hok
    obtain ⟨he, hgas⟩ := h' hok
    exact ⟨he, fun hall => hgas (Affords.advance (by simpa using hall))⟩
  | ok b s' =>
    rw [hf] at h'
    refine ⟨h'.1, ?_⟩
    rw [h'.2, advance_advance, Nat.zero_add, List.length_append, length_wordBytes]

lemma lastWord (w : UInt32) : Skips (do let _ ← readWord : M Unit) true (wordBytes w) 0 := by
  simpa using word (w := w) (f := fun _ => Pure.pure ()) (pure ())

/-- Reading a node type that is there. -/
lemma type {t : NodeType} (ht : NodeType.ofCode t.code = t) {f : NodeType → M β}
    (h : Skips (f t) ok bs steps) : Skips (readType >>= f) ok (typeBytes t ++ bs) steps := by
  have hbind : readType >>= f = readWord >>= fun w => f (.ofCode w) := by
    unfold readType
    rw [bind_assoc]
    simp only [pure_bind]
  rw [hbind]
  exact word (by rwa [ht])

lemma string (str : Str) : Skips readString true (stringBytes str) 0 := by
  intro s hs
  have hlen : str.length < 2 ^ 32 := by
    have := hs.inside
    have := hs.small
    rw [length_stringBytes] at *
    omega
  have hread : readString s = .ok str (advance (stringBytes str).length 0 s) := by
    simp [readString, onData, Bitstream.readString_of_occursAt hs.good hlen hs.here, advance,
      Nat.add_assoc]
  rw [hread]
  exact ⟨rfl, rfl⟩

/-- A loop over as many elements as the size in front of them says. -/
lemma vector {n : Nat} {body : M Unit} (hn : n ≤ bs.length)
    (h : Skips (iterateM n (fun _ => do M.charge; body) ()) ok bs steps) :
    Skips (chargedLoop body) ok (sizeBytes n ++ bs) steps := by
  refine of_small fun hsmall => word ?_
  rw [List.length_append] at hsmall
  have hsize : (UInt32.ofNat n).toNat = n := by
    rw [UInt32.toNat_ofNat']
    omega
  rwa [hsize]

end Skips

/-! ### Trees -/

/-- A name or a string, what `read_name` accepts. -/
def isName : {k : Kind} → Ast k → Bool
  | _, .name _ | _, .str _ => true
  | _, _ => false

/-- A name or a pair of names, what `read_names` accepts. -/
def isNames : Ast .expr → Bool
  | .tuple (.consExpr first (.consExpr second .noExprs)) => isName first && isName second
  | a => isName a

/-- Whether `skip_next` knows every node type of the tree. -/
def skippable : {k : Kind} → Ast k → Bool
  | _, .assign targets value => skippable value && skippable targets
  | _, .suite items => skippable items
  | _, .return value => skippable value
  | _, .dict items => skippable items
  | _, .compare left comparators => skippable left && skippable comparators
  | _, .ifStmt test body orelse =>
    skippable test && (skippable body && (orelse.isNull || skippable orelse))
  | _, .call function arguments _ _ _ => skippable function && skippable arguments
  | _, .attribute value attr => skippable value && skippable attr
  | _, .unaryOp _ operand => skippable operand
  | _, .binOp _ left right => skippable left && skippable right
  | _, .list elements => skippable elements
  | _, .subscript slice value => skippable slice && skippable value
  | _, .index value => skippable value
  | _, .forLoop target iter body _ => isNames target && (skippable iter && skippable body)
  | _, .whileLoop test body _ => skippable test && skippable body
  | _, .augAssign _ target value => skippable target && skippable value
  | _, .expressionStatement expr => skippable expr
  | _, .tuple elements => skippable elements
  | _, .importFrom _ _ _ | _, .importStmt _ | _, .alias _ _ | _, .listComp _ _
  | _, .comprehension _ _ _ | _, .global _ | _, .functionDef _ _ _ _ _ _ _ _ => false
  | _, .consExpr head tail => skippable head && skippable tail
  | _, .consStmt head tail => skippable head && skippable tail
  | _, .consItem key value tail => (skippable key && skippable value) && skippable tail
  | _, .consComparison _ comparator tail => skippable comparator && skippable tail
  | _, _ => true

/-- The number of charges `skip_next` makes on a skippable tree: one for each element of a
vector. -/
def charges : {k : Kind} → Ast k → Nat
  | _, .assign targets value => charges value + charges targets
  | _, .suite items => charges items
  | _, .return value => charges value
  | _, .dict items => charges items
  | _, .compare left comparators => charges left + charges comparators
  | _, .ifStmt test body orelse =>
    charges test + (charges body + if orelse.isNull then 0 else charges orelse)
  | _, .call function arguments _ _ _ => charges function + charges arguments
  | _, .attribute value attr => charges value + charges attr
  | _, .unaryOp _ operand => charges operand
  | _, .binOp _ left right => charges left + charges right
  | _, .list elements => charges elements
  | _, .subscript slice value => charges slice + charges value
  | _, .index value => charges value
  | _, .forLoop _ iter body _ => charges iter + charges body
  | _, .whileLoop test body _ => charges test + charges body
  | _, .augAssign _ target value => charges target + charges value
  | _, .expressionStatement expr => charges expr
  | _, .tuple elements => charges elements
  | _, .consExpr head tail => 1 + charges head + charges tail
  | _, .consStmt head tail => 1 + charges head + charges tail
  | _, .consItem key value tail => 1 + (charges key + charges value) + charges tail
  | _, .consComparison _ comparator tail => 1 + charges comparator + charges tail
  | _, _ => 0

/-- Skipping what the tree stands for: a node, or a vector after its size. -/
def skipTree (skip : M Unit) : {k : Kind} → Ast k → M Unit
  | .exprs, a => iterateM a.length (fun _ => do charge; skip) ()
  | .stmts, a => iterateM a.length (fun _ => do charge; skip) ()
  | .items, a => iterateM a.length (fun _ => do charge; skip; skip) ()
  | .comparisons, a => iterateM a.length (fun _ => do charge; let _ ← readWord; skip) ()
  | .expr, _ | .stmt, _ | .slice, _ => skip

namespace Skips

lemma readName (a : Ast .expr) (h : accepted false a = true) :
    Skips readName (isName a) (bytes a) 0 := by
  cases a with
  | name id => exact type rfl (string _)
  | str value => exact type rfl (string _)
  | number num =>
    cases num with
    | integer i => exact type rfl (throw _ _ _)
    | long s | floating f => cases h
  | nullExpr | otherExpr => cases h
  | _ => exact type rfl (throw _ _ _)

lemma readNames (a : Ast .expr) (h : accepted false a = true) :
    Skips readNames (isNames a) (bytes a) 0 := by
  cases a with
  | name id => exact type rfl ((string _).map fun s => [s])
  | str value => exact type rfl ((string _).map fun s => [s])
  | tuple elements =>
    refine type rfl (word ?_)
    cases elements with
    | noExprs => exact throw _ _ _
    | consExpr first elements =>
      cases elements with
      | noExprs => exact throw _ _ _
      | consExpr second elements =>
        cases elements with
        | noExprs =>
          simp only [accepted, Bool.and_eq_true] at h
          have hpair := (readName first h.1).free fun s => (readName second h.2.1).map fun s' => [s, s']
          have hbytes : bytes (.consExpr first (.consExpr second .noExprs)) = bytes first ++ bytes second := by
            simp [bytes]
          rw [hbytes]
          exact hpair
        | consExpr third elements =>
          simp only [accepted, Bool.and_eq_true] at h
          refine of_small fun hsmall => ?_
          have hlen := length_le_bytes elements h.2.2.2
          simp only [bytes, List.length_append] at hsmall
          have hsize : (UInt32.ofNat (elements.length + 3) != 2) = true := by
            rw [bne_iff_ne, ne_eq, ← UInt32.toNat_inj, UInt32.toNat_ofNat']
            have hthird := four_le_bytes third h.2.2.1 (by simp)
            have htwo : (2 : UInt32).toNat = 2 := rfl
            omega
          simp only [Ast.length, hsize, throwIf, if_true]
          exact throw _ _ _
  | number num =>
    cases num with
    | integer i => exact type rfl (throw _ _ _)
    | long s | floating f => cases h
  | nullExpr | otherExpr => cases h
  | _ => exact type rfl (throw _ _ _)

lemma skipNode {n : Nat} {t : NodeType} (ht : NodeType.ofCode t.code = t) {ok : Bool}
    {bs : List UInt8} {steps : Nat} (h : Skips (skipNode (skipFuel n) t) ok bs steps) :
    Skips (skipFuel (n + 1)) ok (typeBytes t ++ bs) steps := type ht h

end Skips

/-- Skipping a tree with enough fuel for its depth. -/
theorem skips_skipTree {k : Kind} (a : Ast k) {nullOk : Bool} (hacc : accepted nullOk a = true)
    (n : Nat) (hn : (bytes a).length ≤ n) :
    Skips (skipTree (skipFuel n) a) (skippable a) (bytes a) (charges a) := by
  have depth {t : NodeType} (ht : NodeType.ofCode t.code = t) {ok : Bool} {bs : List UInt8}
      {steps : Nat} {n : Nat} (hn : (typeBytes t ++ bs).length ≤ n)
      (h : ∀ n, bs.length ≤ n → Skips (skipNode (skipFuel n) t) ok bs steps) :
      Skips (skipFuel n) ok (typeBytes t ++ bs) steps := by
    rw [List.length_append, typeBytes, length_wordBytes] at hn
    obtain ⟨n, rfl⟩ : ∃ m, n = m + 1 := ⟨n - 1, by omega⟩
    exact Skips.skipNode ht (h n (by omega))
  have bare {t : NodeType} (ht : NodeType.ofCode t.code = t) {ok : Bool} {n : Nat}
      (hn : (typeBytes t).length ≤ n) (h : ∀ n, Skips (skipNode (skipFuel n) t) ok [] 0) :
      Skips (skipFuel n) ok (typeBytes t) 0 := by
    have hbare : Skips (skipFuel n) ok (typeBytes t ++ []) 0 :=
      depth ht (by simpa using hn) fun n _ => h n
    simpa using hbare
  induction a generalizing nullOk n with
  | nullExpr | nullSlice | nullStmt | pass | «continue» | «break» =>
    exact bare rfl hn fun n => Skips.pure ()
  | name id | str value | docString value =>
    exact depth rfl hn fun n _ => (Skips.string _).map fun _ => ()
  | number num =>
    cases num with
    | integer i => exact depth rfl hn fun n _ => Skips.lastWord _
    | long s | floating f => cases hacc
  | «alias» | importStmt | importFrom | listComp | comprehension | global | functionDef =>
    exact depth rfl hn fun n _ => Skips.throw _ _ _
  | tuple elements ih | list elements ih | dict elements ih | suite elements ih =>
    exact depth rfl hn fun n hn => Skips.vector (length_le_bytes _ hacc) <|
      ih hacc n (by simp at hn; omega)
  | compare left comparators ihl ihc | call left comparators _ _ _ ihl ihc =>
    simp only [accepted, Bool.and_eq_true] at hacc
    refine depth rfl hn fun n hn => ?_
    simp only [List.length_append] at hn
    exact (ihl hacc.1 n (by omega)).seq fun _ => Skips.vector (length_le_bytes _ hacc.2) <|
      ihc hacc.2 n (by omega)
  | «attribute» left right ihl ihr | subscript left right ihl ihr | whileLoop left right _ ihl ihr =>
    simp only [accepted, Bool.and_eq_true] at hacc
    refine depth rfl hn fun n hn => ?_
    simp only [List.length_append] at hn
    exact (ihl hacc.1 n (by omega)).seq fun _ => ihr hacc.2 n (by omega)
  | unaryOp op operand ih =>
    refine depth rfl hn fun n hn => ?_
    simp only [List.length_append] at hn
    exact Skips.word (ih hacc n (by omega))
  | boolOp op values =>
    have hvalues : values.length = 0 := by simpa [accepted] using hacc
    have hempty (skip : M Unit) : Skips (chargedLoop skip) true (sizeBytes 0) 0 := by
      have hvector : Skips (chargedLoop skip) true (sizeBytes 0 ++ []) (0 + 0) :=
        Skips.vector (Nat.zero_le _) (Skips.pure ())
      simpa using hvector
    refine depth rfl hn fun n _ => Skips.word ?_
    rw [hvalues]
    exact hempty _
  | binOp op left right ihl ihr | augAssign op left right ihl ihr =>
    simp only [accepted, Bool.and_eq_true] at hacc
    refine depth rfl hn fun n hn => ?_
    simp only [List.length_append] at hn
    exact Skips.word ((ihl hacc.1 n (by omega)).seq fun _ => ihr hacc.2 n (by omega))
  | index value ih | «return» value ih =>
    exact depth rfl hn fun n hn => ih hacc n hn
  | expressionStatement expr ih => exact ih hacc n hn
  | assign targets value iht ihv =>
    simp only [accepted, Bool.and_eq_true] at hacc
    refine depth rfl hn fun n hn => ?_
    simp only [List.length_append] at hn
    exact (ihv hacc.1 n (by omega)).seq fun _ => Skips.vector (length_le_bytes _ hacc.2) <|
      iht hacc.2 n (by omega)
  | ifStmt test body orelse iht ihb iho =>
    simp only [accepted, Bool.and_eq_true, Bool.or_eq_true] at hacc
    cases hnull : orelse.isNull with
    | true =>
      simp only [bytes, hnull, if_true] at hn
      simp only [bytes, skippable, charges, hnull, if_true, Bool.true_or, Bool.and_true]
      refine depth rfl hn fun n hn => ?_
      simp only [List.length_append] at hn
      exact (iht hacc.1 n (by omega)).seq fun _ => ihb hacc.2.1 n (by omega)
    | false =>
      have horelse : accepted false orelse = true := by simpa [hnull] using hacc.2.2
      simp only [bytes, hnull, Bool.false_eq_true, if_false] at hn
      simp only [bytes, skippable, charges, hnull, Bool.false_eq_true, if_false, Bool.false_or]
      refine depth rfl hn fun n hn => ?_
      simp only [List.length_append] at hn
      exact (iht hacc.1 n (by omega)).seq fun _ =>
        (ihb hacc.2.1 n (by omega)).seq fun _ => iho horelse n (by omega)
  | forLoop target iter body _ iht ihi ihb =>
    simp only [accepted, Bool.and_eq_true] at hacc
    refine depth rfl hn fun n hn => ?_
    simp only [List.length_append] at hn
    exact (Skips.readNames target hacc.1).free fun _ =>
      (ihi hacc.2.1 n (by omega)).seq fun _ => ihb hacc.2.2 n (by omega)
  | noExprs | noStmts | noItems | noComparisons => exact Skips.pure ()
  | consExpr head tail ihh iht | consStmt head tail ihh iht =>
    simp only [accepted, Bool.and_eq_true] at hacc
    simp only [bytes, List.length_append] at hn
    exact (Skips.charge.seq fun _ => ihh hacc.1 n (by omega)).seq fun _ => iht hacc.2 n (by omega)
  | consItem key value tail ihk ihv iht =>
    simp only [accepted, Bool.and_eq_true] at hacc
    simp only [bytes, List.length_append] at hn
    rw [bytes, ← List.append_assoc]
    exact (Skips.charge.seq fun _ => (ihk hacc.1 n (by omega)).seq fun _ =>
      ihv hacc.2.1 n (by omega)).seq fun _ => iht hacc.2.2 n (by omega)
  | consComparison op comparator tail ihc iht =>
    simp only [accepted, Bool.and_eq_true] at hacc
    simp only [bytes, List.length_append] at hn
    rw [bytes, ← List.append_assoc]
    exact (Skips.charge.seq fun _ => Skips.word (ihc hacc.1 n (by omega))).seq fun _ =>
      iht hacc.2 n (by omega)
  | otherExpr | otherSlice | otherStmt => cases hacc

/-! ### `skip_next` -/

/-- `skip_next` on the encoding of a node. -/
lemma skips_skipNext {k : Kind} (a : Ast k) (hk : k = .expr ∨ k = .stmt ∨ k = .slice) {nullOk : Bool}
    (hacc : accepted nullOk a = true) :
    Skips skipNext (skippable a) (bytes a) (charges a) := by
  intro s hs
  have hskip := skips_skipTree a hacc (s.interp.data.bytecode.length + 1) (by
    have := hs.inside
    omega)
  rcases hk with rfl | rfl | rfl <;> exact hskip s hs

/-- `skip_next` gets past `len` bytes and changes nothing but the cursor and the step counter. -/
def SkipsExactly (len : Nat) (s : State) : Prop :=
  ∃ steps, skipNext s = .ok () (advance len steps s)

/-- With enough gas `skip_next` gets exactly past the encoding of a statement or an expression
if and only if the tree is skippable. -/
theorem skipsExactly_iff_skippable {k : Kind} (a : Ast k) (hk : k = .expr ∨ k = .stmt)
    (code : List UInt8) (s : State) (hcode : Encodes a code) (hs : Placed code s)
    (hgas : Affords (charges a) s) : SkipsExactly code.length s ↔ skippable a = true := by
  have hlen : code.length < 2 ^ 32 := by
    have := hs.inside
    have := hs.small
    omega
  obtain ⟨hacc, rfl⟩ := (encodes_iff a code hlen).mp hcode
  have hskip := skips_skipNext a (hk.imp id .inl) hacc
  constructor
  · rintro ⟨steps, h⟩
    exact (hskip.of_ok hs h).1
  · intro hok
    exact ⟨charges a, hskip.of_affords hs hok hgas⟩

lemma placed_startState (code : List UInt8) (limit : UInt32) (h : code.length < 2 ^ 32) :
    Placed code (startState code limit) :=
  ⟨rfl, ⟨[], List.append_nil _⟩, (Nat.zero_add _).le, h⟩

/-- The state with another program at the cursor. -/
def withCode (b : Bitstream) (s : State) : State := { s with interp := { s.interp with data := b } }

lemma placed_withCode (code : List UInt8) (s : State) (h : code.length < 2 ^ 32) :
    Placed (code ++ []) (withCode (Bitstream.ofBytes code) s) := by
  obtain ⟨hgood, hhere, hinside, hsmall⟩ := placed_startState code 0 h
  rw [List.append_nil]
  exact ⟨hgood, hhere, hinside, hsmall⟩

lemma Placed.of_data {bs : List UInt8} {s s' : State} (h : Placed bs s) (hdata : s'.interp.data = s.interp.data) :
    Placed bs s' :=
  ⟨by rw [hdata]; exact h.good, by rw [hdata]; exact h.here, by rw [hdata]; exact h.inside,
    by rw [hdata]; exact h.small⟩

/-- `[x for x in y]`. -/
def copyList : Ast .expr :=
  .listComp (.name (lit "x"))
    (.ofExprs [.comprehension (.name (lit "x")) (.name (lit "y")) .noExprs])

/-- A list comprehension is encoded, but cannot be skipped. -/
theorem skipsExactly_copyList_false :
    Encodes copyList (bytes copyList) ∧ Placed (bytes copyList) (startState (bytes copyList) 1000) ∧
      Affords (charges copyList) (startState (bytes copyList) 1000) ∧
      ¬SkipsExactly (bytes copyList).length (startState (bytes copyList) 1000) := by
  have hlen : (bytes copyList).length < 2 ^ 32 := by decide
  refine ⟨(encodes_iff _ _ hlen).mpr ⟨by decide, rfl⟩, placed_startState _ _ hlen, by decide, ?_⟩
  rintro ⟨steps, h⟩
  have hreturns : returns skipNext (startState (bytes copyList) 1000) = false := by decide +kernel
  simp [returns, h] at hreturns

/-- `x + 1`. -/
def successor : Ast .expr := .binOp .add (.name (lit "x")) (.number (.integer 1))

/-- A sum is skipped exactly. -/
theorem skipsExactly_successor :
    SkipsExactly (bytes successor).length (startState (bytes successor) 1000) :=
  have hlen : (bytes successor).length < 2 ^ 32 := by decide
  (skipsExactly_iff_skippable successor (.inl rfl) _ _ ((encodes_iff _ _ hlen).mpr ⟨by decide, rfl⟩)
    (placed_startState _ _ hlen) (by decide)).mpr (by decide)

end ContractPython.Proofs
