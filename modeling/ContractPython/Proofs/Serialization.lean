import ContractPython.Model.Serialization
import ContractPython.Proofs.Encoding
import ContractPython.Proofs.Steps

/-!
# Serialization

A sequence of plain values comes back as it was written, except for integers, whose 64 bits are
read as 32, and for strings that are too long for their length field. A value that has come back
as it was written took as many bytes from the stream as the reader expects of it, so that one
integer moves the end of the sequence.
-/

namespace ContractPython.Proofs

open Program M Compiler Bytes

/-- The values `operator<<` supports. -/
inductive PlainValue
  | none
  | integer (i : Int64)
  | bool (b : Bool)
  | string (s : Str)
  deriving DecidableEq

namespace PlainValue

/-- The object behind the `ValuePtr`. -/
def value : PlainValue → Option Value
  | none => Option.none
  | integer i => some (.integer i)
  | bool b => some (.bool b)
  | string s => some (.string s)

/-- What the value is written as. -/
def bytes : PlainValue → List UInt8
  | none => wordBytes ValueType.none.code
  | integer i => wordBytes ValueType.integer.code ++ longBytes i.toUInt64
  | bool b => wordBytes ValueType.bool.code ++ boolBytes b
  | string s => wordBytes ValueType.string.code ++
      (wordBytes (UInt32.ofNat s.length) ++ if UInt32.ofNat s.length > 0 then s else [])

/-- How many bytes the reader takes for the value. -/
def taken : PlainValue → Nat
  | none => 4
  | integer _ => 8
  | bool _ => 5
  | string s => 8 + s.length

def isInteger : PlainValue → Bool
  | integer _ => true
  | _ => false

/-- The value fits into what the reader takes. -/
def Lossless : PlainValue → Prop
  | integer _ => False
  | string s => s.length < 2 ^ 32
  | _ => True

end PlainValue

/-- The values are written to a new stream. -/
def writePlain (vs : List PlainValue) : Output Unit := vs.forM fun v => writeValue v.value

/-- As many reads as there are values give the values back, and the cursor ends at the end. -/
def RoundTripsValues (vs : List PlainValue) : Prop :=
  ∀ s, Generous s → ∃ b ps b' s', writePlain vs (Bitstream.ofBytes []) = .ok () b ∧
    readValues vs.length b s = .ok (ps, b') s' ∧
    List.Forall₂ (fun p v => StandsFor p v.value s') ps vs ∧
    b'.fail = false ∧ b'.get = b.bytecode.length

/-! ### Writing -/

lemma writeValue_atEnd {b : Bitstream} (hb : AtEnd b) (v : PlainValue) :
    writeValue v.value b = .ok () (append b v.bytes) := by
  have htag : ∀ w, writeWord w b = .ok () (append b (wordBytes w)) := fun w => write_atEnd hb _
  cases v with
  | none => exact htag _
  | integer i =>
    refine (bind_of_ok (htag _)).trans ?_
    rw [write_atEnd (hb.append _), append_append]
    rfl
  | bool x =>
    refine (bind_of_ok (htag _)).trans ?_
    rw [write_atEnd (hb.append _), append_append]
    rfl
  | string s =>
    refine (bind_of_ok (htag _)).trans ?_
    have hlength : writeWord (UInt32.ofNat s.length) (append b (wordBytes ValueType.string.code)) =
        .ok () (append (append b (wordBytes ValueType.string.code)) (wordBytes (UInt32.ofNat s.length))) :=
      write_atEnd (hb.append _) _
    refine (bind_of_ok hlength).trans ?_
    dsimp only [PlainValue.bytes]
    split
    · rw [write_atEnd ((hb.append _).append _), append_append, append_append]
    · rw [append_append, List.append_nil]
      rfl

lemma writePlain_atEnd {b : Bitstream} (hb : AtEnd b) (vs : List PlainValue) :
    writePlain vs b = .ok () (append b (vs.flatMap PlainValue.bytes)) := by
  induction vs generalizing b with
  | nil => simp [writePlain, append]
  | cons v vs ih =>
    refine (bind_of_ok (writeValue_atEnd hb v)).trans ?_
    exact (ih (hb.append _)).trans (by rw [append_append, List.flatMap_cons])

/-- The stream of a sequence. -/
lemma writePlain_new (vs : List PlainValue) :
    writePlain vs (Bitstream.ofBytes []) = .ok () (append (Bitstream.ofBytes []) (vs.flatMap PlainValue.bytes)) :=
  writePlain_atEnd ⟨rfl, rfl⟩ vs

/-! ### What a read takes -/

lemma StandsFor.mono {p : ValuePtr} {v : Option Value} {s s' : State} (h : StandsFor p v s)
    (hheap : s.heap <+: s'.heap) : StandsFor p v s' := by
  cases p with
  | none =>
    cases h
    rfl
  | some r =>
    obtain ⟨v', s₁, hload, hv⟩ := bind_eq_ok.mp h
    obtain ⟨rfl, rfl⟩ := pure_eq_ok.mp hv
    obtain ⟨hr, -⟩ := load_eq_ok.mp hload
    obtain ⟨new, hnew⟩ := hheap
    have hr' : s'.heap[r]? = some v' := by
      rw [← hnew, List.getElem?_append_left (lt_length_of_heap hr), hr]
    exact (bind_of_ok (load_of_heap hr')).trans rfl

lemma read_moves {b b' : Bitstream} {n : Nat} {bs : List UInt8} (h : b.read n = (some bs, b')) :
    bs.length = n ∧ b'.get = b.get + n ∧ b'.fail = b.fail := by
  unfold Bitstream.read at h
  by_cases hf : b.fail = true
  · rw [if_pos hf] at h
    cases h
  · rw [if_neg hf] at h
    by_cases hle : b.get + n ≤ b.bytecode.length
    · rw [if_pos hle] at h
      cases h
      refine ⟨?_, rfl, rfl⟩
      rw [List.length_take, List.length_drop]
      omega
    · rw [if_neg hle] at h
      cases h

lemma fromStream_of_some {α : Type} {f : Bitstream → Option α × Bitstream} {b b' : Bitstream} {a : α}
    (h : f b = (some a, b')) (s : State) : fromStream f b s = .ok (a, b') s := by
  unfold fromStream
  rw [h]
  rfl

lemma fromStream_eq_ok {α : Type} {f : Bitstream → Option α × Bitstream} {b b' : Bitstream} {a : α}
    {s s' : State} (h : fromStream f b s = .ok (a, b') s') : f b = (some a, b') ∧ s' = s := by
  unfold fromStream at h
  cases hf : f b with
  | mk o b'' =>
    rw [hf] at h
    cases o with
    | none => cases h
    | some a' =>
      cases h
      exact ⟨rfl, rfl⟩

lemma readWord_moves {b b' : Bitstream} {w : UInt32} (h : b.readWord = (some w, b')) :
    b'.get = b.get + 4 ∧ b'.fail = b.fail := by
  unfold Bitstream.readWord at h
  cases hread : b.read 4 with
  | mk o b'' =>
    rw [hread] at h
    cases o with
    | none => cases h
    | some bs =>
      cases h
      exact (read_moves hread).2

lemma readBool_moves {b b' : Bitstream} {x : Bool} (h : b.readBool = (some x, b')) :
    b'.get = b.get + 1 ∧ b'.fail = b.fail := by
  unfold Bitstream.readBool at h
  cases hread : b.read 1 with
  | mk o b'' =>
    rw [hread] at h
    cases o with
    | none => cases h
    | some bs =>
      cases h
      exact (read_moves hread).2

lemma readString_moves {b b' : Bitstream} {s : Str} (h : b.readString = (some s, b')) :
    b'.get = b.get + 4 + s.length ∧ b'.fail = b.fail ∧ s.length < 2 ^ 32 := by
  unfold Bitstream.readString at h
  cases hword : b.readWord with
  | mk o b'' =>
    rw [hword] at h
    cases o with
    | none => cases h
    | some w =>
      obtain ⟨hget, hfail⟩ := readWord_moves hword
      obtain ⟨hlen, hget', hfail'⟩ := read_moves h
      have hw := w.toNat_lt
      exact ⟨by omega, hfail'.trans hfail, by omega⟩

/-- What a successful read leaves behind. -/
structure Took (b b' : Bitstream) (p : ValuePtr) (s s' : State) : Prop where
  heap_le : s.heap <+: s'.heap
  generous : Generous s'
  fail_eq : b'.fail = b.fail
  taken : ∀ (v : PlainValue) (t : State), s'.heap <+: t.heap → StandsFor p v.value t →
    b'.get = b.get + v.taken ∧ ∀ text, v = .string text → text.length < 2 ^ 32

lemma heap_le_created (v : Value) (s : State) : s.heap <+: (created v s).heap := List.prefix_append _ _

/-- A read that creates an object is told by the object what it took. -/
lemma took_created {b b' : Bitstream} {s : State} {v' : Value} (hmem : Generous s) (hfail : b'.fail = b.fail)
    (htaken : ∀ v : PlainValue, v.value = some v' →
      b'.get = b.get + v.taken ∧ ∀ text, v = .string text → text.length < 2 ^ 32) :
    Took b b' (some s.heap.length) s (created v' s) := by
  refine ⟨heap_le_created _ _, hmem, hfail, ?_⟩
  intro v t ht hv
  have hstands : StandsFor (some s.heap.length) (some v') t :=
    StandsFor.mono ((bind_of_ok (load_of_heap (heap_created v' s))).trans rfl) ht
  unfold StandsFor at hv hstands
  rw [hstands] at hv
  obtain ⟨hv, -⟩ := EStateM.Result.ok.inj hv
  exact htaken v hv.symm

lemma took_of_readValue {b b' : Bitstream} {p : ValuePtr} {s s' : State} (hmem : Generous s)
    (hrun : readValue b s = .ok (p, b') s') : Took b b' p s s' := by
  obtain ⟨⟨w, b₁⟩, s₁, hword, hrest⟩ := bind_eq_ok.mp hrun
  obtain ⟨htag, rfl⟩ := fromStream_eq_ok hword
  obtain ⟨hget₁, hfail₁⟩ := readWord_moves htag
  dsimp only at hrest
  have hcreate (v : Value) (b₂ : Bitstream) : (do let p ← create v; pure (p, b₂)) s₁ =
      .ok (some s₁.heap.length, b₂) (created v s₁) := bind_of_ok (create_of_memoryLeft (hmem _) v)
  cases htype : ValueType.ofCode w with
  | none =>
    rw [htype] at hrest
    cases hrest
  | some type =>
    rw [htype] at hrest
    cases type with
    | none =>
      cases hrest
      refine ⟨List.prefix_rfl, hmem, hfail₁, ?_⟩
      intro v t _ hv
      cases v with
      | none => exact ⟨hget₁, nofun⟩
      | _ => cases hv
    | integer =>
      obtain ⟨⟨i, b₂⟩, s₂, hread, hlast⟩ := bind_eq_ok.mp hrest
      obtain ⟨hfield, rfl⟩ := fromStream_eq_ok hread
      obtain ⟨hget₂, hfail₂⟩ := readWord_moves hfield
      cases (hcreate (.integer i.toInt32.toInt64) b₂).symm.trans hlast
      refine took_created hmem (hfail₂.trans hfail₁) ?_
      intro v hv
      cases v with
      | integer j => exact ⟨by simp only [PlainValue.taken]; omega, nofun⟩
      | _ => cases hv
    | bool =>
      obtain ⟨⟨x, b₂⟩, s₂, hread, hlast⟩ := bind_eq_ok.mp hrest
      obtain ⟨hfield, rfl⟩ := fromStream_eq_ok hread
      obtain ⟨hget₂, hfail₂⟩ := readBool_moves hfield
      cases (hcreate (.bool x) b₂).symm.trans hlast
      refine took_created hmem (hfail₂.trans hfail₁) ?_
      intro v hv
      cases v with
      | bool y => exact ⟨by simp only [PlainValue.taken]; omega, nofun⟩
      | _ => cases hv
    | string =>
      obtain ⟨⟨text, b₂⟩, s₂, hread, hlast⟩ := bind_eq_ok.mp hrest
      obtain ⟨hfield, rfl⟩ := fromStream_eq_ok hread
      obtain ⟨hget₂, hfail₂, hshort⟩ := readString_moves hfield
      cases (hcreate (.string text) b₂).symm.trans hlast
      refine took_created hmem (hfail₂.trans hfail₁) ?_
      intro v hv
      cases v with
      | string text' =>
        cases hv
        refine ⟨by simp only [PlainValue.taken]; omega, ?_⟩
        intro text'' heq
        cases heq
        exact hshort
      | _ => cases hv
    | _ => cases hrest

/-- What a sequence of reads takes that gives the values back. -/
lemma taken_of_readValues {vs : List PlainValue} {b b' : Bitstream} {ps : List ValuePtr} {s s' : State}
    (hmem : Generous s) (h : readValues vs.length b s = .ok (ps, b') s') :
    s.heap <+: s'.heap ∧ ∀ t : State, s'.heap <+: t.heap → List.Forall₂ (fun p v => StandsFor p v.value t) ps vs →
      b'.get = b.get + (vs.map PlainValue.taken).sum ∧ ∀ text, .string text ∈ vs → text.length < 2 ^ 32 := by
  induction vs generalizing b s ps with
  | nil =>
    cases h
    refine ⟨List.prefix_rfl, fun t _ _ => ⟨rfl, ?_⟩⟩
    intro text htext
    cases htext
  | cons v vs ih =>
    obtain ⟨⟨p, b₁⟩, s₁, hread, h⟩ := bind_eq_ok.mp h
    obtain ⟨⟨ps', b₂⟩, s₂, hrest, h⟩ := bind_eq_ok.mp h
    cases h
    have htook := took_of_readValue hmem hread
    obtain ⟨hle, hrest⟩ := ih htook.generous hrest
    refine ⟨htook.heap_le.trans hle, ?_⟩
    intro t ht hstands
    cases hstands with
    | cons hp hps =>
      obtain ⟨hget, hshort⟩ := htook.taken v t (hle.trans ht) hp
      obtain ⟨hget', hshort'⟩ := hrest t ht hps
      refine ⟨?_, ?_⟩
      · rw [List.map_cons, List.sum_cons]
        omega
      · intro text htext
        rcases List.mem_cons.mp htext with rfl | htext
        · exact hshort text rfl
        · exact hshort' text htext

lemma bytes_string {text : Str} (h : text.length < 2 ^ 32) :
    (PlainValue.string text).bytes = wordBytes ValueType.string.code ++ stringBytes text := by
  have hword : (UInt32.ofNat text.length).toNat = text.length := by
    simpa using Nat.mod_eq_of_lt h
  have htext : (if UInt32.ofNat text.length > 0 then text else []) = text := by
    split
    · rfl
    · rename_i hzero
      rw [gt_iff_lt, UInt32.lt_iff_toNat_lt, hword, UInt32.toNat_zero] at hzero
      exact (List.length_eq_zero_iff.mp (Nat.le_zero.mp (Nat.not_lt.mp hzero))).symm
  simp only [PlainValue.bytes, stringBytes, htext]

/-- The reader takes four bytes less of every integer. -/
lemma length_bytes {vs : List PlainValue} (hshort : ∀ text, .string text ∈ vs → text.length < 2 ^ 32) :
    (vs.flatMap PlainValue.bytes).length =
      (vs.map PlainValue.taken).sum + 4 * vs.countP PlainValue.isInteger := by
  induction vs with
  | nil => rfl
  | cons v vs ih =>
    have hrest := ih fun text htext => hshort text (List.mem_cons_of_mem _ htext)
    have hhead : v.bytes.length = v.taken + if v.isInteger then 4 else 0 := by
      cases v with
      | none => rfl
      | integer i => simp [PlainValue.bytes, PlainValue.taken, PlainValue.isInteger, longBytes]
      | bool x => simp [PlainValue.bytes, PlainValue.taken, PlainValue.isInteger, boolBytes]
      | string text =>
        have hlen := hshort text List.mem_cons_self
        rw [bytes_string hlen]
        simp only [PlainValue.taken, PlainValue.isInteger, List.length_append, length_wordBytes, length_stringBytes,
          Bool.false_eq_true, if_false]
        omega
    rw [List.flatMap_cons, List.length_append, List.map_cons, List.sum_cons, List.countP_cons, hhead, hrest]
    split <;> omega

/-! ### Reading back -/

/-- A value that fits is read back. -/
lemma readValue_occursAt {v : PlainValue} (hv : v.Lossless) {b : Bitstream} (hf : b.fail = false)
    (hat : OccursAt v.bytes b.bytecode b.get) {s : State} (hmem : Generous s) :
    ∃ p s', readValue b s = .ok (p, { b with get := b.get + v.bytes.length }) s' ∧
      StandsFor p v.value s' := by
  have htag {type : ValueType} (h : OccursAt (wordBytes type.code) b.bytecode b.get) :
      fromStream Bitstream.readWord b s = .ok (type.code, { b with get := b.get + 4 }) s :=
    fromStream_of_some (Bitstream.readWord_of_occursAt hf h) s
  have hcreate (v : Value) (b₂ : Bitstream) : (do let p ← create v; pure (p, b₂)) s =
      .ok (some s.heap.length, b₂) (created v s) := bind_of_ok (create_of_memoryLeft (hmem _) v)
  have hstands (v : Value) : StandsFor (some s.heap.length) (some v) (created v s) :=
    (bind_of_ok (load_of_heap (heap_created v s))).trans rfl
  cases v with
  | none => exact ⟨none, s, bind_of_ok (htag hat), rfl⟩
  | integer i => exact absurd hv id
  | bool x =>
    simp only [PlainValue.bytes, occursAt_append, length_wordBytes] at hat
    have hle := length_le_of_occursAt hat.2 (by simp [boolBytes, encodeBE])
    simp only [boolBytes, length_encodeBE] at hle
    have hread := Bitstream.read_of_occursAt (b := { b with get := b.get + 4 }) hf hat.2 (by dsimp only; omega)
    have hbool : Bitstream.readBool { b with get := b.get + 4 } =
        (some x, { b with get := b.get + 5 }) := by
      simp only [boolBytes, length_encodeBE] at hread
      cases x <;> simp [Bitstream.readBool, hread]
    refine ⟨_, _, (bind_of_ok (htag hat.1)).trans ((bind_of_ok (fromStream_of_some hbool s)).trans
      ((hcreate _ _).trans ?_)), hstands _⟩
    simp [PlainValue.bytes, boolBytes]
  | string text =>
    rw [bytes_string hv] at hat ⊢
    simp only [occursAt_append, length_wordBytes] at hat
    have hread := Bitstream.readString_of_occursAt (b := { b with get := b.get + 4 }) hf hv hat.2
    refine ⟨_, _, (bind_of_ok (htag hat.1)).trans ((bind_of_ok (fromStream_of_some hread s)).trans
      ((hcreate _ _).trans ?_)), hstands _⟩
    have hlength : b.get + 4 + 4 + text.length =
        b.get + (wordBytes ValueType.string.code ++ stringBytes text).length := by
      rw [List.length_append, length_wordBytes, length_stringBytes]
      omega
    rw [← hlength]

/-- A sequence of values that fit is read back. -/
lemma readValues_occursAt {vs : List PlainValue} (hvs : ∀ v ∈ vs, v.Lossless) {b : Bitstream}
    (hf : b.fail = false) (hat : OccursAt (vs.flatMap PlainValue.bytes) b.bytecode b.get) {s : State} (hmem : Generous s) :
    ∃ ps s', readValues vs.length b s =
        .ok (ps, { b with get := b.get + (vs.flatMap PlainValue.bytes).length }) s' ∧
      List.Forall₂ (fun p v => StandsFor p v.value s') ps vs := by
  induction vs generalizing b s with
  | nil => exact ⟨[], s, rfl, .nil⟩
  | cons v vs ih =>
    rw [List.forall_mem_cons] at hvs
    rw [List.flatMap_cons, occursAt_append] at hat
    obtain ⟨p, s₁, hread, hp⟩ := readValue_occursAt hvs.1 hf hat.1 hmem
    have htook := took_of_readValue hmem hread
    obtain ⟨ps, s₂, hrest, hps⟩ := ih hvs.2 (b := { b with get := b.get + v.bytes.length }) hf hat.2 htook.generous
    have hle := (taken_of_readValues htook.generous hrest).1
    refine ⟨p :: ps, s₂, ?_, .cons (hp.mono hle) hps⟩
    refine (bind_of_ok hread).trans ((bind_of_ok hrest).trans ?_)
    rw [List.flatMap_cons, List.length_append, Nat.add_assoc]
    rfl

/-- A state whose memory manager refuses nothing. -/
lemma generous_startState (code : List UInt8) (limit : UInt32) : Generous (startState code limit) :=
  fun _ => rfl

/-- What comes back is free of integers and of strings that are too long. -/
lemma lossless_of_roundTrips {vs : List PlainValue} (h : RoundTripsValues vs) : ∀ v ∈ vs, v.Lossless := by
  obtain ⟨b, ps, b', s', hwrite, hread, hstands, -, hend⟩ := h _ (generous_startState [] 1)
  obtain rfl : b = append (Bitstream.ofBytes []) (vs.flatMap PlainValue.bytes) := by
    cases (writePlain_new vs).symm.trans hwrite
    rfl
  obtain ⟨-, htaken⟩ := taken_of_readValues (generous_startState [] 1) hread
  obtain ⟨hget, hshort⟩ := htaken s' List.prefix_rfl hstands
  have hlength := length_bytes hshort
  have hzero : vs.countP PlainValue.isInteger = 0 := by
    simp only [append, Bitstream.ofBytes, List.nil_append] at hget hend
    omega
  intro v hv
  cases v with
  | none => trivial
  | integer i => exact absurd rfl (List.countP_eq_zero.mp hzero _ hv)
  | bool x => trivial
  | string text => exact hshort text hv

/-- A sequence of values is read back as it was written if and only if there is no integer in it
and no string of 4 GiB or more. -/
theorem roundTripsValues_iff (vs : List PlainValue) : RoundTripsValues vs ↔ ∀ v ∈ vs, v.Lossless := by
  refine ⟨lossless_of_roundTrips, ?_⟩
  intro hvs s hmem
  let b := append (Bitstream.ofBytes []) (vs.flatMap PlainValue.bytes)
  have hat : OccursAt (vs.flatMap PlainValue.bytes) b.bytecode b.get := by
    simpa [b, append, Bitstream.ofBytes] using occursAt_middle [] (vs.flatMap PlainValue.bytes) []
  obtain ⟨ps, s', hread, hps⟩ := readValues_occursAt hvs (b := b) rfl hat hmem
  refine ⟨_, ps, _, s', writePlain_new vs, hread, hps, rfl, ?_⟩
  simp [b, append, Bitstream.ofBytes]

/-- The integer one comes back as zero, with four bytes left. -/
theorem roundTripsValues_one_false : ¬RoundTripsValues [.integer 1] := by
  intro h
  exact lossless_of_roundTrips h _ List.mem_cons_self

end ContractPython.Proofs
