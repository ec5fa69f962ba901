import ContractPython.Proofs.Blind
import ContractPython.Proofs.Evaluation
import ContractPython.Trees.Semantics

/-!
# Bytecode that mirrors a tree

A computation that stands at an encoding mirrors one on the tree when it returns the same value or
throws the same exception, in the same state but for the stream, and goes past the encoding. What
`skip_next` does at the encoding of a node mirrors the passing over of the node.
-/

namespace ContractPython.Proofs

open Program M Bytes

/-- The same state but for the stream. -/
def OffStream (s t : State) : Prop := ∃ b, t = withCode b s

/-- The stream with its cursor `len` bytes further. -/
def ahead (len : Nat) (b : Bitstream) : Bitstream := { b with get := b.get + len }

lemma ahead_ahead (len len' : Nat) (b : Bitstream) : ahead len' (ahead len b) = ahead (len + len') b := by
  simp only [ahead, Nat.add_assoc]

lemma ahead_zero (b : Bitstream) : ahead 0 b = b := rfl

lemma advance_eq_withCode (len : Nat) (s : State) : advance len 0 s = withCode (ahead len s.interp.data) s := by
  simp [advance, withCode, ahead]

lemma OffStream.advance {s t : State} (h : OffStream s t) (len : Nat) : OffStream (advance len 0 s) t := by
  obtain ⟨b, rfl⟩ := h
  exact ⟨b, by rw [advance_eq_withCode]; rfl⟩

lemma Placed.ahead {bs bs' : List UInt8} {s s' : State} (h : Placed (bs ++ bs') s)
    (hdata : s'.interp.data = ahead bs.length s.interp.data) : Placed bs' s' :=
  (h.append.2 0).of_data hdata

/-- The size of a vector that is there fits into a word. -/
lemma size_of_placed {bs : List UInt8} {n : Nat} {s : State} (h : Placed (sizeBytes n ++ bs) s)
    (hn : n ≤ bs.length) : (UInt32.ofNat n).toNat = n := by
  have hinside := h.inside
  have hsmall := h.small
  rw [List.length_append] at hinside
  rw [UInt32.toNat_ofNat']
  omega

/-- Both are in the same state but for the stream, whose cursor has come to `b`. -/
def Arrived (b : Bitstream) (s t : State) : Prop := OffStream s t ∧ s.interp.data = b

/-- At the bytes `bs`, `x` does what `y` does and goes past them. -/
def Mirrors {α : Type} (bs : List UInt8) (x y : M α) : Prop :=
  ∀ s t, OffStream s t → Placed bs s →
    InStep OffStream (fun _ => Arrived (ahead bs.length s.interp.data)) (x s) (y t)

/-- What does not read the stream does the same on both sides. -/
lemma Blind.agree {α : Type} {x : M α} (h : Blind α x) {s t : State} (hst : OffStream s t) :
    InStep OffStream (fun _ => Arrived s.interp.data) (x s) (x t) := by
  obtain ⟨b, rfl⟩ := hst
  cases hx : x s with
  | ok a s' =>
    rw [(h b).of_ok hx]
    exact .ok ⟨⟨b, rfl⟩, h.data_eq hx⟩
  | error e s' =>
    rw [(h b).of_error hx]
    exact .error ⟨b, rfl⟩

/-- A list none of whose elements is encoded as nothing. -/
lemma length_le_flatMap {ι : Type} {seg : ι → List UInt8} (l : List ι) (hl : ∀ i ∈ l, seg i ≠ []) :
    l.length ≤ (l.flatMap seg).length := by
  induction l with
  | nil => exact Nat.zero_le _
  | cons i l ih =>
    have hhead := List.length_pos_of_ne_nil (hl i List.mem_cons_self)
    have htail := ih fun j hj => hl j (List.mem_cons_of_mem _ hj)
    rw [List.length_cons, List.flatMap_cons, List.length_append]
    omega

namespace Mirrors

variable {α β ι : Type} {bs bs' : List UInt8} {x y : M α} {f g : α → M β}

lemma blind (h : Blind α x) : Mirrors [] x x := fun _ _ hst _ => h.agree hst

lemma pure (a : α) : Mirrors [] (Pure.pure a : M α) (Pure.pure a) := blind (blind_compositional.pure a)

/-- An exception is thrown wherever the cursor stands. -/
lemma throw (e : Exn) (bs : List UInt8) : Mirrors bs (MonadExcept.throw e : M α) (MonadExcept.throw e) :=
  fun _ _ hst _ => .error hst

lemma seq (h : Mirrors bs x y) (h' : ∀ a, Mirrors bs' (f a) (g a)) :
    Mirrors (bs ++ bs') (x >>= f) (y >>= g) := by
  intro s t hst hs
  refine (h s t hst hs.append.1).bind fun a s' t' harrived => ?_
  refine (h' a s' t' harrived.1 (hs.ahead harrived.2)).mono fun b s'' t'' hend => ⟨hend.1, ?_⟩
  rw [hend.2, harrived.2, ahead_ahead, List.length_append]

/-- A step that does not read, before `f` and `g`. -/
lemma after (h : Blind α x) (h' : ∀ a, Mirrors bs (f a) (g a)) : Mirrors bs (x >>= f) (x >>= g) :=
  (blind h).seq h'

/-- Something that does not read, behind `x` and `y`. -/
lemma before (h : Mirrors bs x y) (h' : ∀ a, Blind β (f a)) : Mirrors bs (x >>= f) (y >>= f) := by
  simpa using h.seq fun a => blind (h' a)

/-- A segment of a stream below 4 GiB has a 32-bit length. -/
lemma of_small (h : bs.length < 2 ^ 32 → Mirrors bs x y) : Mirrors bs x y := fun s t hst hs =>
  h (by have := hs.inside; have := hs.small; omega) s t hst hs

/-- A step of the bytecode that is none on the tree. -/
lemma silent {a : α} (h : Mirrors bs x (Pure.pure a)) {s t : State} (hst : OffStream s t) (hs : Placed bs s) :
    ∃ s', x s = .ok a s' ∧ Arrived (Proofs.ahead bs.length s.interp.data) s' t := by
  have hx : InStep OffStream (fun _ => Arrived (Proofs.ahead bs.length s.interp.data)) (x s) (.ok a t) := h s t hst hs
  generalize x s = r at hx ⊢
  cases hx with
  | ok hend => exact ⟨_, rfl, hend⟩

/-- The bytecode makes a step of its own, which reads `bs`. -/
lemma of_read {z : M β} {a : α} (hread : ∀ s rest, Placed (bs ++ rest) s →
      x s = .ok a (advance bs.length 0 s)) (h : Mirrors bs' (f a) z) : Mirrors (bs ++ bs') (x >>= f) z := by
  intro s t hst hs
  have hend := h (advance bs.length 0 s) t (hst.advance _) (hs.append.2 0)
  rw [bind_of_ok (hread s bs' hs)]
  refine hend.mono fun c s' t' harrived => ⟨harrived.1, harrived.2.trans ?_⟩
  rw [advance_eq_withCode, List.length_append, ← ahead_ahead]
  rfl

/-- A word that is there is read. -/
lemma word {z : M β} {w : UInt32} {f : UInt32 → M β} (h : Mirrors bs (f w) z) :
    Mirrors (wordBytes w ++ bs) (readWord >>= f) z :=
  of_read (fun _ _ hs => by rw [length_wordBytes]; exact (readWord_placed hs).1) h

lemma wordLast {z : M β} {w : UInt32} {f : UInt32 → M β} (h : Mirrors [] (f w) z) :
    Mirrors (wordBytes w) (readWord >>= f) z := by
  simpa using word h

lemma type {z : M β} {t : NodeType} {f : NodeType → M β} (h : Mirrors bs (f t) z)
    (ht : ∀ c, t ≠ .unknown c := by simp) :
    Mirrors (typeBytes t ++ bs) (readType >>= f) z :=
  of_read (fun _ _ hs => by
    rw [typeBytes, length_wordBytes]
    exact (readType_placed ht hs).1) h

lemma typeLast {z : M β} {t : NodeType} {f : NodeType → M β} (h : Mirrors [] (f t) z)
    (ht : ∀ c, t ≠ .unknown c := by simp) : Mirrors (typeBytes t) (readType >>= f) z := by
  simpa using type h ht

lemma string {z : M β} {str : Str} {f : Str → M β} (h : Mirrors bs (f str) z) :
    Mirrors (stringBytes str ++ bs) (readString >>= f) z :=
  of_read (fun _ _ hs => (readString_placed hs).1) h

lemma stringLast {z : M β} {str : Str} {f : Str → M β} (h : Mirrors [] (f str) z) :
    Mirrors (stringBytes str) (readString >>= f) z := by
  simpa using string h

lemma readString (str : Str) : Mirrors (stringBytes str) M.readString (Pure.pure str) := by
  simpa using stringLast (pure str)

lemma expectType {z : M β} {t : NodeType} {message : Str} {f : Unit → M β}
    (h : Mirrors bs (f ()) z) (ht : ∀ c, t ≠ .unknown c := by simp) : Mirrors (typeBytes t ++ bs) (M.expectType t message >>= f) z := by
  have hbind : M.expectType t message >>= f = readType >>= fun t' => throwIf (t' != t) message >>= f := by
    unfold M.expectType
    rw [bind_assoc]
  have hsame : throwIf (t != t) message = Pure.pure () := by simp [throwIf]
  rw [hbind]
  refine type (t := t) ?_ ht
  rwa [hsame, pure_bind]

lemma expectLast {z : M β} {t : NodeType} {message : Str} {f : Unit → M β} (h : Mirrors [] (f ()) z)
    (ht : ∀ c, t ≠ .unknown c := by simp) : Mirrors (typeBytes t) (M.expectType t message >>= f) z := by
  simpa using expectType h ht

/-- Looking at a node type that is there. -/
lemma peek {z : M β} {t : NodeType} {f : NodeType → M β}
    (h : Mirrors (typeBytes t ++ bs) (f t) z) (ht : ∀ c, t ≠ .unknown c := by simp) : Mirrors (typeBytes t ++ bs) (peekType >>= f) z := by
  intro s t' hst hs
  rw [bind_of_ok (peekType_placed ht hs)]
  exact h s t' hst hs

/-- `Read` of as many bytes as are there. -/
lemma padded {z : M β} {text : List UInt8} {f : List UInt8 → M β} (h : Mirrors bs (f text) z) :
    Mirrors (text ++ bs) (readPadded (UInt32.ofNat text.length) >>= f) z := by
  refine of_small fun hsmall => of_read (fun s rest hs => ?_) h
  rw [List.length_append] at hsmall
  have hcount : (UInt32.ofNat text.length).toNat = text.length := by
    rw [UInt32.toNat_ofNat']
    omega
  obtain ⟨hgood, hhere, hinside, -⟩ := hs.append.1
  have hread : s.interp.data.readPadded text.length = (text, ahead text.length s.interp.data) := by
    unfold Bitstream.readPadded
    rw [hgood, take_drop_of_occursAt hhere, Bitstream.read_of_occursAt hgood hhere (by omega)]
    simp [Proofs.ahead]
  rw [advance_eq_withCode]
  exact onData_of_some (by rw [hcount, hread])

/-- A loop over the elements of a vector. -/
lemma iterate {seg : ι → List UInt8} {step : α → M α} {step' : α → ι → M α} (l : List ι)
    (h : ∀ i ∈ l, ∀ a, Mirrors (seg i) (step a) (step' a i)) (a : α) :
    Mirrors (l.flatMap seg) (iterateM l.length step a) (l.foldlM step' a) := by
  induction l generalizing a with
  | nil => exact pure a
  | cons i l ih =>
    rw [List.foldlM_cons]
    exact (h i List.mem_cons_self a).seq fun a' => ih (fun j hj => h j (List.mem_cons_of_mem _ hj)) a'

/-- The size in front of a vector. -/
lemma size {z : M β} {n : Nat} {f : UInt32 → M β} (hn : n ≤ bs.length)
    (h : (UInt32.ofNat n).toNat = n → Mirrors bs (f (UInt32.ofNat n)) z) :
    Mirrors (sizeBytes n ++ bs) (readWord >>= f) z :=
  fun s t hst hs => word (h (size_of_placed hs hn)) s t hst hs

/-- A vector behind its size. -/
lemma elements {seg : ι → List UInt8} {z : M β} {f : UInt32 → M β} (l : List ι) (hl : ∀ i ∈ l, seg i ≠ [])
    (h : (UInt32.ofNat l.length).toNat = l.length → Mirrors (l.flatMap seg) (f (UInt32.ofNat l.length)) z) :
    Mirrors (sizeBytes l.length ++ l.flatMap seg) (readWord >>= f) z :=
  size (length_le_flatMap l hl) h

lemma chargedLoop {seg : ι → List UInt8} {body : M Unit} {body' : ι → M Unit} (l : List ι)
    (hl : ∀ i ∈ l, seg i ≠ []) (h : ∀ i ∈ l, Mirrors (seg i) body (body' i)) :
    Mirrors (sizeBytes l.length ++ l.flatMap seg) (M.chargedLoop body)
      (l.foldlM (fun _ i => do M.charge; body' i) ()) := by
  refine elements l hl fun hsize => ?_
  rw [hsize]
  exact iterate l (fun i hi _ => after .charge fun _ => h i hi) ()

end Mirrors

/-! ### Vectors -/

namespace Tree

section Vectors

/-- The elements of a vector stand behind its size one after another. -/
lemma bytes_expressions (a : Ast .exprs) :
    (expressions a).length = a.length ∧ bytes a = (expressions a).flatMap bytes := by
  generalize hk : Kind.exprs = k at a
  induction a with
  | noExprs => exact ⟨rfl, rfl⟩
  | consExpr head tail _ ih =>
    simp only [expressions, Ast.length, bytes, List.length_cons, List.flatMap_cons]
    exact ⟨by rw [(ih rfl).1], by rw [(ih rfl).2]⟩
  | _ => cases hk

lemma bytes_statements (a : Ast .stmts) :
    (statements a).length = a.length ∧ bytes a = (statements a).flatMap bytes := by
  generalize hk : Kind.stmts = k at a
  induction a with
  | noStmts => exact ⟨rfl, rfl⟩
  | consStmt head tail _ ih =>
    simp only [statements, Ast.length, bytes, List.length_cons, List.flatMap_cons]
    exact ⟨by rw [(ih rfl).1], by rw [(ih rfl).2]⟩
  | _ => cases hk

lemma bytes_items (a : Ast .items) : (items a).length = a.length ∧
    bytes a = (items a).flatMap fun entry => bytes entry.1 ++ bytes entry.2 := by
  generalize hk : Kind.items = k at a
  induction a with
  | noItems => exact ⟨rfl, rfl⟩
  | consItem key value tail _ _ ih =>
    simp only [items, Ast.length, bytes, List.length_cons, List.flatMap_cons, List.append_assoc]
    exact ⟨by rw [(ih rfl).1], by rw [(ih rfl).2]⟩
  | _ => cases hk

lemma bytes_comparisons (a : Ast .comparisons) : (comparisons a).length = a.length ∧
    bytes a = (comparisons a).flatMap fun c => wordBytes c.1.code ++ bytes c.2 := by
  generalize hk : Kind.comparisons = k at a
  induction a with
  | noComparisons => exact ⟨rfl, rfl⟩
  | consComparison op comparator tail _ ih =>
    simp only [comparisons, Ast.length, bytes, List.length_cons, List.flatMap_cons, List.append_assoc]
    exact ⟨by rw [(ih rfl).1], by rw [(ih rfl).2]⟩
  | _ => cases hk

/-- What holds of a vector and passes to its head and its tail holds of its elements. -/
lemma forall_expressions {p : (k : Kind) → Ast k → Prop}
    (hcons : ∀ head tail, p .exprs (.consExpr head tail) → p .expr head ∧ p .exprs tail) {a : Ast .exprs}
    (h : p .exprs a) : ∀ e ∈ expressions a, p .expr e := by
  generalize hk : Kind.exprs = k at a
  induction a with
  | noExprs => simp [expressions]
  | consExpr head tail _ ih =>
    obtain ⟨hhead, htail⟩ := hcons head tail h
    simpa [expressions, hhead] using ih rfl htail
  | _ => cases hk

lemma forall_statements {p : (k : Kind) → Ast k → Prop}
    (hcons : ∀ head tail, p .stmts (.consStmt head tail) → p .stmt head ∧ p .stmts tail) {a : Ast .stmts}
    (h : p .stmts a) : ∀ stmt ∈ statements a, p .stmt stmt := by
  generalize hk : Kind.stmts = k at a
  induction a with
  | noStmts => simp [statements]
  | consStmt head tail _ ih =>
    obtain ⟨hhead, htail⟩ := hcons head tail h
    simpa [statements, hhead] using ih rfl htail
  | _ => cases hk

lemma forall_items {p : Ast .expr → Prop} {q : (k : Kind) → Ast k → Prop}
    (hcons : ∀ key value tail, q .items (.consItem key value tail) → p key ∧ q .expr value ∧ q .items tail)
    {a : Ast .items} (h : q .items a) : ∀ entry ∈ items a, p entry.1 ∧ q .expr entry.2 := by
  generalize hk : Kind.items = k at a
  induction a with
  | noItems => simp [items]
  | consItem key value tail _ _ ih =>
    obtain ⟨hkey, hvalue, htail⟩ := hcons key value tail h
    simpa [items, hkey, hvalue] using ih rfl htail
  | _ => cases hk

lemma forall_comparisons {p : (k : Kind) → Ast k → Prop}
    (hcons : ∀ op comparator tail, p .comparisons (.consComparison op comparator tail) →
      p .expr comparator ∧ p .comparisons tail) {a : Ast .comparisons} (h : p .comparisons a) :
    ∀ c ∈ comparisons a, p .expr c.2 := by
  generalize hk : Kind.comparisons = k at a
  induction a with
  | noComparisons => simp [comparisons]
  | consComparison op comparator tail _ ih =>
    obtain ⟨hcomparator, htail⟩ := hcons op comparator tail h
    simpa [comparisons, hcomparator] using ih rfl htail
  | _ => cases hk

lemma eq_noExprs_of_length {a : Ast .exprs} (h : a.length = 0) : a = .noExprs := by
  cases a with
  | noExprs => rfl
  | consExpr head tail => simp [Ast.length] at h

end Vectors

end Tree

lemma wordBytes_ne_nil (w : UInt32) : wordBytes w ≠ [] :=
  List.ne_nil_of_length_pos (by rw [length_wordBytes]; omega)

lemma bytes_ne_nil {k : Kind} (a : Ast k) {nullOk : Bool} (h : accepted nullOk a = true)
    (hk : k = .expr ∨ k = .stmt ∨ k = .slice) : bytes a ≠ [] := by
  have hfour := four_le_bytes a h hk
  intro hnil
  simp [hnil] at hfour

lemma Tree.nodeType_known {k : Kind} (a : Ast k) (c : UInt32) : Tree.nodeType a ≠ .unknown c := by
  induction a with
  | expressionStatement expr ih => exact ih
  | ifStmt test body orelse =>
    show (if orelse.isNull then NodeType.if else .ifElse) ≠ _
    split <;> simp
  | _ => exact NodeType.noConfusion

/-- The node type stands in front. -/
lemma bytes_eq_type (a : Ast .expr) {nullOk : Bool} (h : accepted nullOk a = true) :
    ∃ rest, bytes a = typeBytes (Tree.nodeType a) ++ rest := by
  cases a with
  | nullExpr => exact ⟨[], (List.append_nil _).symm⟩
  | number num =>
    cases num with
    | integer i => exact ⟨_, rfl⟩
    | long s | floating f => cases h
  | otherExpr => cases h
  | _ => exact ⟨_, rfl⟩

/-! ### Names -/

namespace Mirrors

lemma readName (a : Ast .expr) {nullOk : Bool} (h : accepted nullOk a = true) :
    Mirrors (bytes a) M.readName (Tree.name a) := by
  cases a with
  | name id => exact type (readString _)
  | str value => exact type (readString _)
  | number num =>
    cases num with
    | integer i => exact type (throw _ _)
    | long s | floating f => cases h
  | nullExpr => exact typeLast (throw _ _)
  | otherExpr => cases h
  | _ => exact type (throw _ _)

/-- Two elements are named, any other number of them is refused. -/
lemma readPair (l : List (Ast .expr)) (h : ∀ e ∈ l, accepted false e = true) :
    Mirrors (sizeBytes l.length ++ l.flatMap bytes) (do
      let numElems ← readWord
      throwIf (numElems != 2) (lit "Can only name pairs")
      let first ← M.readName
      let second ← M.readName
      Pure.pure [first, second]) (Tree.pair l) := by
  refine elements l (fun e he => bytes_ne_nil e (h e he) (.inl rfl)) fun hsize => ?_
  have hrefused (hne : l.length ≠ 2) : (UInt32.ofNat l.length != 2) = true := by
    rw [bne_iff_ne, ne_eq, ← UInt32.toNat_inj, hsize]
    exact hne
  have hother (hne : l.length ≠ 2) : Mirrors (l.flatMap bytes) (do
      throwIf (UInt32.ofNat l.length != 2) (lit "Can only name pairs")
      let first ← M.readName
      let second ← M.readName
      Pure.pure [first, second]) (throwRuntime (lit "Can only name pairs") : M (List Str)) := by
    rw [hrefused hne]
    exact throw _ _
  rcases l with _ | ⟨first, _ | ⟨second, _ | ⟨third, rest⟩⟩⟩
  · exact hother (by simp)
  · exact hother (by simp)
  · have hfirst := readName first (h first (by simp))
    have hsecond := readName second (h second (by simp))
    have hpair := hfirst.seq fun s => hsecond.before fun s' => blind_compositional.pure [s, s']
    simpa [Tree.pair, throwIf] using hpair
  · exact hother (by simp)

lemma readNames (a : Ast .expr) {nullOk : Bool} (h : accepted nullOk a = true) :
    Mirrors (bytes a) M.readNames (Tree.names a) := by
  cases a with
  | name id => exact type ((readString _).before fun s => blind_compositional.pure [s])
  | str value => exact type ((readString _).before fun s => blind_compositional.pure [s])
  | tuple elements =>
    obtain ⟨hlength, hbytes⟩ := Tree.bytes_expressions elements
    have hacc : ∀ e ∈ Tree.expressions elements, accepted false e = true :=
      Tree.forall_expressions (p := fun _ a => accepted false a = true)
        (fun head tail h => by simpa [accepted] using h) h
    rw [bytes, hbytes, ← hlength]
    exact type (readPair _ hacc)
  | number num =>
    cases num with
    | integer i => exact type (throw _ _)
    | long s | floating f => cases h
  | nullExpr => exact typeLast (throw _ _)
  | otherExpr => cases h
  | _ => exact type (throw _ _)

/-! ### Passing over -/

lemma skipNode {n : Nat} {t : NodeType} {z : M Unit} (h : Mirrors bs (M.skipNode (skipFuel n) t) z)
    (ht : ∀ c, t ≠ .unknown c := by simp) : Mirrors (typeBytes t ++ bs) (skipFuel (n + 1)) z := type h ht

/-- One round of a loop that skips, and the rounds behind it. -/
lemma round {skip pass rest : M Unit} {n : Nat} {body : M Unit} (h : Mirrors bs skip pass)
    (h' : Mirrors bs' (iterateM n (fun _ => do M.charge; body) ()) rest) (hbody : body = skip) :
    Mirrors (bs ++ bs') (iterateM (n + 1) (fun _ => do M.charge; body) ()) (do M.charge; pass; rest) := by
  subst hbody
  have hround := (after .charge fun _ => h).seq fun _ => h'
  rwa [bind_assoc _ _ (fun _ => rest)] at hround

/-- A loop over so many elements whose size stands in front of them. -/
lemma vector {n : Nat} {body z : M Unit} (hn : n ≤ bs.length)
    (h : Mirrors bs (iterateM n (fun _ => do M.charge; body) ()) z) :
    Mirrors (sizeBytes n ++ bs) (M.chargedLoop body) z :=
  size hn fun hsize => by rwa [hsize]

end Mirrors

/-- Skipping a tree with enough fuel for its depth mirrors the passing over of it. -/
lemma mirrors_skipTree {k : Kind} (a : Ast k) {nullOk : Bool} (hacc : accepted nullOk a = true)
    (n : Nat) (hn : (bytes a).length ≤ n) :
    Mirrors (bytes a) (skipTree (skipFuel n) a) (Tree.passOver a) := by
  have depth {t : NodeType} {z : M Unit} {bs : List UInt8} {n : Nat} (hn : (typeBytes t ++ bs).length ≤ n)
      (h : ∀ n, bs.length ≤ n → Mirrors bs (skipNode (skipFuel n) t) z) (ht : ∀ c, t ≠ .unknown c := by simp) :
      Mirrors (typeBytes t ++ bs) (skipFuel n) z := by
    rw [List.length_append, typeBytes, length_wordBytes] at hn
    obtain ⟨n, rfl⟩ : ∃ m, n = m + 1 := ⟨n - 1, by omega⟩
    exact Mirrors.skipNode (h n (by omega)) ht
  have bare {t : NodeType} {z : M Unit} {n : Nat} (hn : (typeBytes t).length ≤ n)
      (h : ∀ n, Mirrors [] (skipNode (skipFuel n) t) z) (ht : ∀ c, t ≠ .unknown c := by simp) :
      Mirrors (typeBytes t) (skipFuel n) z := by
    have hbare : Mirrors (typeBytes t ++ []) (skipFuel n) z := depth (by simpa using hn) (fun n _ => h n) ht
    simpa using hbare
  have passed {text : List UInt8} {α : Type} {x y : M α} (h : Mirrors text x y) :
      Mirrors text (do let _ ← x) (do let _ ← y) := h.before fun _ => blind_compositional.pure ()
  induction a generalizing nullOk n with
  | nullExpr | nullSlice | nullStmt | pass | «continue» | «break» =>
    exact bare hn fun n => Mirrors.pure ()
  | name id | str value | docString value =>
    exact depth hn fun n _ => passed (Mirrors.readString _)
  | number num =>
    cases num with
    | integer i => exact depth hn fun n _ => Mirrors.wordLast (Mirrors.pure ())
    | long s | floating f => cases hacc
  | «alias» | importStmt | importFrom | listComp | comprehension | global | functionDef =>
    exact depth hn fun n _ => Mirrors.throw _ _
  | tuple elements ih | list elements ih | dict elements ih | suite elements ih =>
    exact depth hn fun n hn => Mirrors.vector (length_le_bytes _ hacc) <|
      ih hacc n (by simp at hn; omega)
  | compare left comparators ihl ihc | call left comparators _ _ _ ihl ihc =>
    simp only [accepted, Bool.and_eq_true] at hacc
    refine depth hn fun n hn => ?_
    simp only [List.length_append] at hn
    exact (ihl hacc.1 n (by omega)).seq fun _ => Mirrors.vector (length_le_bytes _ hacc.2) <|
      ihc hacc.2 n (by omega)
  | «attribute» left right ihl ihr | subscript left right ihl ihr | whileLoop left right _ ihl ihr =>
    simp only [accepted, Bool.and_eq_true] at hacc
    refine depth hn fun n hn => ?_
    simp only [List.length_append] at hn
    exact (ihl hacc.1 n (by omega)).seq fun _ => ihr hacc.2 n (by omega)
  | unaryOp op operand ih =>
    refine depth hn fun n hn => ?_
    simp only [List.length_append] at hn
    exact Mirrors.word (ih hacc n (by omega))
  | boolOp op values =>
    -- the compiler writes only the number of the operands
    obtain rfl := Tree.eq_noExprs_of_length (a := values) (by simpa [accepted] using hacc)
    have hnone (skip : M Unit) : Mirrors (sizeBytes 0) (M.chargedLoop skip) (pure ()) := by
      simpa using Mirrors.vector (Nat.zero_le _) (Mirrors.pure ())
    exact depth hn fun n _ => Mirrors.word (hnone _)
  | binOp op left right ihl ihr | augAssign op left right ihl ihr =>
    simp only [accepted, Bool.and_eq_true] at hacc
    refine depth hn fun n hn => ?_
    simp only [List.length_append] at hn
    exact Mirrors.word ((ihl hacc.1 n (by omega)).seq fun _ => ihr hacc.2 n (by omega))
  | index value ih | «return» value ih =>
    exact depth hn fun n hn => ih hacc n hn
  | expressionStatement expr ih => exact ih hacc n hn
  | assign targets value iht ihv =>
    simp only [accepted, Bool.and_eq_true] at hacc
    refine depth hn fun n hn => ?_
    simp only [List.length_append] at hn
    exact (ihv hacc.1 n (by omega)).seq fun _ => Mirrors.vector (length_le_bytes _ hacc.2) <|
      iht hacc.2 n (by omega)
  | ifStmt test body orelse iht ihb iho =>
    simp only [accepted, Bool.and_eq_true, Bool.or_eq_true] at hacc
    cases hnull : orelse.isNull with
    | true =>
      simp only [bytes, hnull, if_true] at hn
      simp only [bytes, hnull, if_true]
      refine depth hn fun n hn => ?_
      simp only [List.length_append] at hn
      have hrest : (do
          Tree.passOver body
          if orelse.isNull then Pure.pure () else Tree.passOver orelse) = Tree.passOver body := by simp [hnull]
      have hpass : Tree.passOver (.ifStmt test body orelse) = (do
          Tree.passOver test
          Tree.passOver body
          if orelse.isNull then Pure.pure () else Tree.passOver orelse) := rfl
      rw [hpass, hrest]
      exact (iht hacc.1 n (by omega)).seq fun _ => ihb hacc.2.1 n (by omega)
    | false =>
      have horelse : accepted false orelse = true := by simpa [hnull] using hacc.2.2
      simp only [bytes, hnull, Bool.false_eq_true, if_false] at hn
      simp only [bytes, hnull, Bool.false_eq_true, if_false]
      refine depth hn fun n hn => ?_
      simp only [List.length_append] at hn
      have hrest : (if orelse.isNull then Pure.pure () else Tree.passOver orelse) = Tree.passOver orelse := by
        simp [hnull]
      have hpass : Tree.passOver (.ifStmt test body orelse) = (do
          Tree.passOver test
          Tree.passOver body
          if orelse.isNull then Pure.pure () else Tree.passOver orelse) := rfl
      rw [hpass, hrest]
      exact (iht hacc.1 n (by omega)).seq fun _ =>
        (ihb hacc.2.1 n (by omega)).seq fun _ => iho horelse n (by omega)
  | forLoop target iter body _ iht ihi ihb =>
    simp only [accepted, Bool.and_eq_true] at hacc
    refine depth hn fun n hn => ?_
    simp only [List.length_append] at hn
    exact (Mirrors.readNames target hacc.1).seq fun _ =>
      (ihi hacc.2.1 n (by omega)).seq fun _ => ihb hacc.2.2 n (by omega)
  | noExprs | noStmts | noItems | noComparisons => exact Mirrors.pure ()
  | consExpr head tail ihh iht | consStmt head tail ihh iht =>
    simp only [accepted, Bool.and_eq_true] at hacc
    simp only [bytes, List.length_append] at hn
    exact (ihh hacc.1 n (by omega)).round (iht hacc.2 n (by omega)) rfl
  | consItem key value tail ihk ihv iht =>
    simp only [accepted, Bool.and_eq_true] at hacc
    simp only [bytes, List.length_append] at hn
    have hentry := (ihk hacc.1 n (by omega)).seq fun _ => ihv hacc.2.1 n (by omega)
    have hround := hentry.round (iht hacc.2.2 n (by omega)) rfl
    rw [bytes, ← List.append_assoc]
    simpa [Tree.passOver, skipTree, Ast.length] using hround
  | consComparison op comparator tail ihc iht =>
    simp only [accepted, Bool.and_eq_true] at hacc
    simp only [bytes, List.length_append] at hn
    rw [bytes, ← List.append_assoc]
    exact (Mirrors.word (ihc hacc.1 n (by omega))).round (iht hacc.2 n (by omega)) rfl
  | otherExpr | otherSlice | otherStmt => cases hacc

/-- `skip_next` on the encoding of a node. -/
lemma mirrors_skipNext {k : Kind} (a : Ast k) (hk : k = .expr ∨ k = .stmt ∨ k = .slice) {nullOk : Bool}
    (hacc : accepted nullOk a = true) : Mirrors (bytes a) skipNext (Tree.passOver a) := by
  intro s t hst hs
  have hskip := mirrors_skipTree a hacc (s.interp.data.bytecode.length + 1) (by
    have := hs.inside
    omega)
  rcases hk with rfl | rfl | rfl <;> exact hskip s t hst hs

end ContractPython.Proofs
