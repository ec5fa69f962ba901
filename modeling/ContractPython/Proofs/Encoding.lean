import ContractPython.Lib.Program
import ContractPython.Model.Compiler

/-!
# The encoding of a tree

`Ast.bytes` is the encoding as a function of the tree alone, and `Ast.accepted` says for
which trees there is one. The compiler, which writes into a stream and patches the length
of a function body afterwards, appends exactly these bytes.
-/

namespace ContractPython.Proofs

open Program Compiler

/-- The bytes of a node type. -/
def typeBytes (type : NodeType) : List UInt8 := wordBytes type.code

/-- The bytes of the size of a vector. -/
def sizeBytes (size : Nat) : List UInt8 := wordBytes (UInt32.ofNat size)

/-- The bytes of a name. -/
def nameBytes (id : Str) : List UInt8 := typeBytes .name ++ stringBytes (cStr id)

/-- Whether `parse_next` gets through the tree; `nullOk` says whether a null pointer is
allowed where the tree stands. -/
def accepted (nullOk : Bool) : {k : Kind} → Ast k → Bool
  | _, .nullExpr | _, .nullSlice | _, .nullStmt => nullOk
  | _, .importFrom module names _ => accepted false module && accepted false names
  | _, .importStmt names => accepted false names
  | _, .assign targets value => accepted false value && accepted true targets
  | _, .suite items => accepted false items
  | _, .return value => accepted false value
  | _, .dict items => accepted false items
  | _, .compare left comparators => accepted false left && accepted false comparators
  | _, .number (.integer _) => true
  | _, .number _ => false
  | _, .ifStmt test body orelse =>
    accepted false test && (accepted false body && (orelse.isNull || accepted false orelse))
  | _, .call function arguments _ _ _ => accepted false function && accepted true arguments
  | _, .attribute value attr => accepted false value && accepted false attr
  | _, .unaryOp _ operand => accepted false operand
  | _, .boolOp _ values => values.length == 0
  | _, .binOp _ left right => accepted false left && accepted false right
  | _, .list elements => accepted true elements
  | _, .subscript slice value => accepted false slice && accepted false value
  | _, .index value => accepted false value
  | _, .forLoop target iter body _ =>
    accepted false target && (accepted false iter && accepted false body)
  | _, .whileLoop test body _ => accepted false test && accepted false body
  | _, .augAssign _ target value => accepted false target && accepted false value
  | _, .expressionStatement expr => accepted false expr
  | _, .tuple elements => accepted false elements
  | _, .listComp element generators => accepted false element && accepted true generators
  | _, .comprehension target iter ifs =>
    accepted false target && (accepted false iter && accepted true ifs)
  | _, .functionDef name arguments defaults _ _ _ _ body =>
    accepted false name && (accepted true arguments && accepted true defaults && accepted false body)
  | _, .otherExpr | _, .otherSlice | _, .otherStmt => false
  | _, .consExpr head tail => accepted nullOk head && accepted nullOk tail
  | _, .consStmt head tail => accepted nullOk head && accepted nullOk tail
  | _, .consItem key value tail =>
    accepted nullOk key && (accepted nullOk value && accepted nullOk tail)
  | _, .consComparison _ comparator tail => accepted nullOk comparator && accepted nullOk tail
  | _, _ => true

/-- The encoding of a tree. -/
def bytes : {k : Kind} → Ast k → List UInt8
  | _, .nullExpr | _, .nullSlice | _, .nullStmt => typeBytes .pass
  | _, .importFrom module names _ => typeBytes .importFrom ++ (bytes module ++ bytes names)
  | _, .importStmt names => typeBytes .import ++ bytes names
  | _, .alias name asName =>
    typeBytes .alias ++ (stringBytes (cStr name) ++ stringBytes (cStr (asName.getD [])))
  | _, .name id => nameBytes id
  | _, .assign targets value =>
    typeBytes .assign ++ (bytes value ++ (sizeBytes targets.length ++ bytes targets))
  | _, .suite items => typeBytes .statementList ++ (sizeBytes items.length ++ bytes items)
  | _, .str value | _, .docString value => typeBytes .string ++ stringBytes (cStr value)
  | _, .return value => typeBytes .return ++ bytes value
  | _, .dict items => typeBytes .dictionary ++ (sizeBytes items.length ++ bytes items)
  | _, .compare left comparators =>
    typeBytes .compare ++ (bytes left ++ (sizeBytes comparators.length ++ bytes comparators))
  | _, .number (.integer integer) => typeBytes .integer ++ wordBytes integer.toInt32.toUInt32
  | _, .number _ => []
  | _, .ifStmt test body orelse =>
    if orelse.isNull then typeBytes .if ++ (bytes test ++ bytes body)
    else typeBytes .ifElse ++ (bytes test ++ (bytes body ++ bytes orelse))
  | _, .call function arguments _ _ _ =>
    typeBytes .call ++ (bytes function ++ (sizeBytes arguments.length ++ bytes arguments))
  | _, .attribute value attr => typeBytes .attribute ++ (bytes value ++ bytes attr)
  | _, .unaryOp op operand => typeBytes .unaryOp ++ (wordBytes op.code ++ bytes operand)
  | _, .boolOp op values =>
    typeBytes .boolOp ++ (wordBytes op.code ++ sizeBytes values.length)
  | _, .binOp op left right =>
    typeBytes .binaryOp ++ (wordBytes op.code ++ (bytes left ++ bytes right))
  | _, .list elements => typeBytes .list ++ (sizeBytes elements.length ++ bytes elements)
  | _, .subscript slice value => typeBytes .subscript ++ (bytes slice ++ bytes value)
  | _, .index value => typeBytes .index ++ bytes value
  | _, .forLoop target iter body _ =>
    typeBytes .forLoop ++ (bytes target ++ (bytes iter ++ bytes body))
  | _, .whileLoop test body _ => typeBytes .whileLoop ++ (bytes test ++ bytes body)
  | _, .augAssign op target value =>
    typeBytes .augmentedAssign ++ (wordBytes op.code ++ (bytes target ++ bytes value))
  | _, .expressionStatement expr => bytes expr
  | _, .continue => typeBytes .continue
  | _, .break => typeBytes .break
  | _, .tuple elements => typeBytes .tuple ++ (sizeBytes elements.length ++ bytes elements)
  | _, .pass => typeBytes .pass
  | _, .listComp element generators =>
    typeBytes .listComp ++ (bytes element ++ (sizeBytes generators.length ++ bytes generators))
  | _, .comprehension target iter ifs =>
    typeBytes .comprehension ++
      (bytes target ++ (bytes iter ++ (sizeBytes ifs.length ++ bytes ifs)))
  | _, .global names => typeBytes .global ++ (sizeBytes names.length ++ names.flatMap nameBytes)
  | _, .functionDef name arguments defaults _ _ _ _ body =>
    typeBytes .functionDef ++ (bytes name ++
      ((sizeBytes (bytes body).length ++ (typeBytes .functionStart ++
        (sizeBytes arguments.length ++ (bytes arguments ++ (typeBytes .functionStartDefaults ++
          (sizeBytes defaults.length ++ (bytes defaults ++ typeBytes .functionStartStub))))) ++
        bytes body)) ++ typeBytes .functionEnd))
  | _, .otherExpr | _, .otherSlice | _, .otherStmt => []
  | _, .noExprs | _, .noStmts | _, .noItems | _, .noComparisons => []
  | _, .consExpr head tail => bytes head ++ bytes tail
  | _, .consStmt head tail => bytes head ++ bytes tail
  | _, .consItem key value tail => bytes key ++ (bytes value ++ bytes tail)
  | _, .consComparison op comparator tail => wordBytes op.code ++ (bytes comparator ++ bytes tail)

/-- An encoded node has a node type. -/
lemma four_le_bytes {k : Kind} (a : Ast k) {nullOk : Bool} (h : accepted nullOk a = true)
    (hk : k = .expr ∨ k = .stmt ∨ k = .slice) : 4 ≤ (bytes a).length := by
  induction a generalizing nullOk with
  | expressionStatement expr ih => exact ih h (.inl rfl)
  | number num =>
    cases num with
    | integer i => simp [bytes, typeBytes]
    | long s | floating f => cases h
  | ifStmt test body orelse =>
    simp only [bytes]
    split <;> simp [typeBytes]
  | otherExpr | otherSlice | otherStmt => cases h
  | noExprs | noStmts | noItems | noComparisons | consExpr | consStmt | consItem | consComparison =>
    simp at hk
  | _ => simp [bytes, nameBytes, typeBytes]

/-- Every element of a vector has an encoding. -/
lemma length_le_bytes {k : Kind} (a : Ast k) {nullOk : Bool} (h : accepted nullOk a = true) :
    a.length ≤ (bytes a).length := by
  induction a with
  | consExpr head tail _ ih | consStmt head tail _ ih =>
    simp only [accepted, Bool.and_eq_true] at h
    have hhead := four_le_bytes head h.1 (by simp)
    have htail := ih h.2
    simp only [Ast.length, bytes, List.length_append]
    omega
  | consItem key value tail _ _ ih =>
    simp only [accepted, Bool.and_eq_true] at h
    have hkey := four_le_bytes key h.1 (by simp)
    have htail := ih h.2.2
    simp only [Ast.length, bytes, List.length_append]
    omega
  | consComparison op comparator tail _ ih =>
    simp only [accepted, Bool.and_eq_true] at h
    have htail := ih h.2
    simp only [Ast.length, bytes, List.length_append, length_wordBytes]
    omega
  | _ => exact Nat.zero_le _

/-! ### Writing to the end of a stream -/

/-- The stream is writable and its write cursor stands at the end. -/
structure AtEnd (b : Bitstream) : Prop where
  good : b.fail = false
  put_eq : b.put = b.bytecode.length

/-- The stream with bytes written to its end. -/
def append (b : Bitstream) (bs : List UInt8) : Bitstream :=
  { b with bytecode := b.bytecode ++ bs, put := b.put + bs.length }

lemma AtEnd.append {b : Bitstream} (h : AtEnd b) (bs : List UInt8) : AtEnd (append b bs) :=
  ⟨h.good, by simp [Proofs.append, h.put_eq]⟩

lemma append_append (b : Bitstream) (bs bs' : List UInt8) :
    append (append b bs) bs' = append b (bs ++ bs') := by
  simp [append, Nat.add_assoc]

/-- `m` writes as many bytes as `bs` has to the end of the stream, and `bs` itself when the
stream stays below 4 GiB; or it throws if not `ok`. -/
def Emits (m : Output Unit) (ok : Bool) (bs : List UInt8) : Prop :=
  ∀ b, AtEnd b →
    if ok then ∃ b', m b = .ok () b' ∧ AtEnd b' ∧
      b'.bytecode.length = b.bytecode.length + bs.length ∧
      (b.bytecode.length + bs.length < 2 ^ 32 → b' = append b bs)
    else ∃ e b', m b = .error e b'

lemma write_atEnd {b : Bitstream} (hb : AtEnd b) (bs : List UInt8) :
    Compiler.write bs b = .ok () (append b bs) := by
  simp [Compiler.write, Bitstream.write, append, hb.good, hb.put_eq]

namespace Emits

lemma pure : Emits (Pure.pure ()) true [] := fun b hb => by
  refine ⟨b, rfl, hb, by simp, fun _ => ?_⟩
  simp [append]

lemma throw (e : Exn) (bs : List UInt8) : Emits (MonadExcept.throw e) false bs :=
  fun b _ => ⟨e, b, rfl⟩

lemma write (bs : List UInt8) : Emits (write bs) true bs := fun b hb =>
  ⟨append b bs, write_atEnd hb bs, hb.append bs, by simp [append], fun _ => rfl⟩

lemma seq {m m' : Output Unit} {ok ok' : Bool} {bs bs' : List UInt8} (h : Emits m ok bs)
    (h' : Emits m' ok' bs') : Emits (do m; m') (ok && ok') (bs ++ bs') := by
  intro b hb
  have hm := h b hb
  cases ok with
  | false =>
    obtain ⟨e, b', hm⟩ := hm
    exact ⟨e, b', bind_of_error hm⟩
  | true =>
    obtain ⟨b₁, hm, hb₁, hlen₁, happ⟩ := hm
    have hm' := h' b₁ hb₁
    simp only [Bool.true_and]
    cases ok' with
    | false =>
      obtain ⟨e, b', hm'⟩ := hm'
      exact ⟨e, b', (bind_of_ok hm).trans hm'⟩
    | true =>
      obtain ⟨b₂, hm', hb₂, hlen₂, happ'⟩ := hm'
      refine ⟨b₂, (bind_of_ok hm).trans hm', hb₂, by rw [List.length_append]; omega, fun hlen => ?_⟩
      rw [List.length_append] at hlen
      obtain rfl := happ (by omega)
      rw [happ' (by simp only [append, List.length_append]; omega), append_append]

lemma type (t : NodeType) : Emits (writeType t) true (typeBytes t) := write _

lemma word (w : UInt32) : Emits (writeWord w) true (wordBytes w) := write _

lemma size (n : Nat) : Emits (writeSize n) true (sizeBytes n) := write _

lemma string (s : Str) : Emits (writeString s) true (stringBytes s) := write _

lemma name (id : Str) : Emits (writeName id) true (nameBytes id) := (type _).seq (string _)

lemma names (ids : List Str) : Emits (ids.forM writeName) true (ids.flatMap nameBytes) := by
  induction ids with
  | nil => exact pure
  | cons id ids ih => exact (name id).seq ih

end Emits

/-! ### Patching a length -/

/-- The stream after the four bytes at `pos` are overwritten and the cursor is back at the end. -/
def patched (b : Bitstream) (pos w : UInt32) : Bitstream :=
  ((b.moveToWrite pos).write (wordBytes w)).moveToEndWrite

lemma patched_atEnd {b : Bitstream} (hb : AtEnd b) {pos : UInt32} (w : UInt32)
    (hpos : pos.toNat + 4 ≤ b.bytecode.length) :
    AtEnd (patched b pos w) ∧ (patched b pos w).bytecode.length = b.bytecode.length := by
  have hmove : b.moveToWrite pos = { b with put := pos.toNat } := by
    simp only [Bitstream.moveToWrite, hb.good, Bool.false_eq_true, if_false]
    rw [if_pos (by omega)]
  unfold patched
  rw [hmove]
  refine ⟨⟨?_, ?_⟩, ?_⟩
  · simp [Bitstream.moveToEndWrite, Bitstream.write, hb.good]
  · simp [Bitstream.moveToEndWrite, Bitstream.write, hb.good]
  · simp only [Bitstream.moveToEndWrite, Bitstream.write, hb.good, Bool.false_eq_true, if_false,
      List.length_append, List.length_take, List.length_drop, length_wordBytes]
    omega

/-- Overwriting a word that stands between `b` and `rest`. -/
lemma patched_append {b : Bitstream} (hb : AtEnd b) (w w' : UInt32) (rest : List UInt8)
    (hlen : b.bytecode.length < 2 ^ 32) :
    patched (append b (wordBytes w ++ rest)) (UInt32.ofNat b.put) w' =
      append b (wordBytes w' ++ rest) := by
  obtain ⟨bytecode, get, put, fail⟩ := b
  obtain ⟨rfl, rfl⟩ : fail = false ∧ put = bytecode.length := ⟨hb.good, hb.put_eq⟩
  have hpos : (UInt32.ofNat bytecode.length).toNat = bytecode.length := by
    simpa using Nat.mod_eq_of_lt hlen
  have hmove : (append ⟨bytecode, get, bytecode.length, false⟩ (wordBytes w ++ rest)).moveToWrite
      (UInt32.ofNat bytecode.length) =
      ⟨bytecode ++ (wordBytes w ++ rest), get, bytecode.length, false⟩ := by
    simp only [append, Bitstream.moveToWrite, hpos, Bool.false_eq_true, if_false]
    rw [if_pos (by simp)]
  have hdrop : (bytecode ++ (wordBytes w ++ rest)).drop (bytecode.length + 4) = rest := by
    rw [← List.append_assoc]
    exact List.drop_left' (by simp)
  unfold patched
  rw [hmove]
  simp only [Bitstream.write, Bitstream.moveToEndWrite, Bool.false_eq_true, if_false, append,
    length_wordBytes, hdrop, List.take_left, List.append_assoc, List.length_append]

lemma Emits.withBodyLength {header body : Output Unit} {okh okb : Bool} {hs bs : List UInt8}
    (hheader : Emits header okh hs) (hbody : Emits body okb bs) :
    Emits (withBodyLength header body) (okh && okb) (sizeBytes bs.length ++ (hs ++ bs)) := by
  intro b hb
  have hzero : writeWord 0 b = .ok () (append b (wordBytes 0)) := write_atEnd hb _
  have hb₁ := hb.append (wordBytes 0)
  have hh := hheader _ hb₁
  cases okh with
  | false =>
    obtain ⟨e, b', hh⟩ := hh
    refine ⟨e, b', ?_⟩
    unfold Compiler.withBodyLength
    rw [bind_of_ok (rfl : posWrite b = .ok _ b), bind_of_ok hzero, bind_of_error hh]
  | true =>
    obtain ⟨b₂, hh, hb₂, hlen₂, happ₂⟩ := hh
    have hbd := hbody b₂ hb₂
    simp only [Bool.true_and]
    cases okb with
    | false =>
      obtain ⟨e, b', hbd⟩ := hbd
      refine ⟨e, b', ?_⟩
      unfold Compiler.withBodyLength
      rw [bind_of_ok (rfl : posWrite b = .ok _ b), bind_of_ok hzero, bind_of_ok hh,
        bind_of_ok (rfl : posWrite b₂ = .ok _ b₂), bind_of_error hbd]
    | true =>
      obtain ⟨b₃, hbd, hb₃, hlen₃, happ₃⟩ := hbd
      have hrun : Compiler.withBodyLength header body b =
          .ok () (patched b₃ b.posWrite (b₃.posWrite - b₂.posWrite)) := by
        unfold Compiler.withBodyLength
        rw [bind_of_ok (rfl : posWrite b = .ok _ b), bind_of_ok hzero, bind_of_ok hh,
          bind_of_ok (rfl : posWrite b₂ = .ok _ b₂), bind_of_ok hbd]
        rfl
      have hlen₁ : (append b (wordBytes 0)).bytecode.length = b.bytecode.length + 4 := by
        simp [append]
      have hlenBytes : (sizeBytes bs.length ++ (hs ++ bs)).length = 4 + (hs.length + bs.length) := by
        simp [sizeBytes]
      have hpos : b.posWrite.toNat + 4 ≤ b₃.bytecode.length := by
        have : b.put % 2 ^ 32 ≤ b.put := Nat.mod_le _ _
        simp only [Bitstream.posWrite, hb.good, Bool.false_eq_true, if_false, UInt32.toNat_ofNat']
        rw [hb.put_eq] at *
        omega
      obtain ⟨hend, hlen₄⟩ := patched_atEnd hb₃ (b₃.posWrite - b₂.posWrite) hpos
      refine ⟨_, hrun, hend, by omega, fun hlen => ?_⟩
      · rw [hlenBytes] at hlen
        obtain rfl := happ₂ (by omega)
        obtain rfl := happ₃ (by simp only [append, List.length_append, length_wordBytes]; omega)
        have hdiff : (append (append (append b (wordBytes 0)) hs) bs).posWrite -
            (append (append b (wordBytes 0)) hs).posWrite = UInt32.ofNat bs.length := by
          simp only [Bitstream.posWrite, append, hb.good, Bool.false_eq_true, if_false]
          rw [UInt32.ofNat_add, UInt32.add_comm, UInt32.add_sub_cancel]
        rw [hdiff, append_append, append_append, Bitstream.posWrite, hb.good]
        exact patched_append hb _ _ _ (by omega)

/-! ### The compiler -/

/-- What stands for a null pointer that is allowed, or not. -/
def onNull (nullOk : Bool) : Output Unit := if nullOk then writePass else maliciousInput

lemma Emits.onNull (nullOk : Bool) : Emits (onNull nullOk) nullOk (typeBytes .pass) := by
  cases nullOk
  · exact Emits.throw _ _
  · exact Emits.type _

/-- The compiler appends the encoding of an accepted tree and throws on any other. -/
theorem emits_parseNext {k : Kind} (a : Ast k) (nullOk : Bool) :
    Emits (parseNext (onNull nullOk) a) (accepted nullOk a) (bytes a) := by
  have strict {k : Kind} {a : Ast k}
      (ih : ∀ nullOk, Emits (parseNext (onNull nullOk) a) (accepted nullOk a) (bytes a)) :
      Emits (parseNext maliciousInput a) (accepted false a) (bytes a) := ih false
  have lax {k : Kind} {a : Ast k}
      (ih : ∀ nullOk, Emits (parseNext (onNull nullOk) a) (accepted nullOk a) (bytes a)) :
      Emits (parseNext writePass a) (accepted true a) (bytes a) := ih true
  induction a generalizing nullOk with
  | nullExpr | nullSlice | nullStmt => exact Emits.onNull nullOk
  | name id => exact Emits.name id
  | str value | docString value => exact (Emits.type _).seq (Emits.string _)
  | number num =>
    cases num with
    | integer i => exact (Emits.type _).seq (Emits.word _)
    | long s | floating f => exact Emits.throw _ _
  | «alias» name asName => exact (Emits.type _).seq ((Emits.string _).seq (Emits.string _))
  | tuple elements ih => exact (Emits.type _).seq ((Emits.size _).seq (strict ih))
  | list elements ih => exact (Emits.type _).seq ((Emits.size _).seq (lax ih))
  | dict items ih => exact (Emits.type _).seq ((Emits.size _).seq (strict ih))
  | compare left comparators ihl ihc =>
    exact (Emits.type _).seq ((strict ihl).seq ((Emits.size _).seq (strict ihc)))
  | call function arguments _ _ _ ihf iha =>
    exact (Emits.type _).seq ((strict ihf).seq ((Emits.size _).seq (lax iha)))
  | «attribute» value attr ihv iha => exact (Emits.type _).seq ((strict ihv).seq (strict iha))
  | unaryOp op operand ih => exact (Emits.type _).seq ((Emits.word _).seq (strict ih))
  | boolOp op values =>
    have hvalues : Emits (if values.length = 0 then Pure.pure () else unknownStatement)
        (values.length == 0) [] := by
      by_cases hlen : values.length = 0
      · rw [if_pos hlen, hlen]
        exact Emits.pure
      · rw [if_neg hlen, beq_eq_false_iff_ne.mpr hlen]
        exact Emits.throw _ _
    have h := (Emits.type .boolOp).seq ((Emits.word op.code).seq ((Emits.size values.length).seq hvalues))
    rw [List.append_nil] at h
    exact h
  | binOp op left right ihl ihr =>
    exact (Emits.type _).seq ((Emits.word _).seq ((strict ihl).seq (strict ihr)))
  | subscript slice value ihs ihv => exact (Emits.type _).seq ((strict ihs).seq (strict ihv))
  | listComp element generators ihe ihg =>
    exact (Emits.type _).seq ((strict ihe).seq ((Emits.size _).seq (lax ihg)))
  | comprehension target iter ifs iht ihi ihf =>
    exact (Emits.type _).seq ((strict iht).seq ((strict ihi).seq ((Emits.size _).seq (lax ihf))))
  | otherExpr | otherSlice | otherStmt => exact Emits.throw _ _
  | index value ih | «return» value ih | importStmt names ih => exact (Emits.type _).seq (strict ih)
  | suite items ih => exact (Emits.type _).seq ((Emits.size _).seq (strict ih))
  | assign targets value iht ihv =>
    exact (Emits.type _).seq ((strict ihv).seq ((Emits.size _).seq (lax iht)))
  | augAssign op target value iht ihv =>
    exact (Emits.type _).seq ((Emits.word _).seq ((strict iht).seq (strict ihv)))
  | ifStmt test body orelse iht ihb iho =>
    cases hnull : orelse.isNull with
    | true =>
      have h := (Emits.type .if).seq ((strict iht).seq (strict ihb))
      simp only [parseNext, accepted, bytes, hnull, if_true, Bool.true_or, Bool.and_true]
      exact h
    | false =>
      have h := (Emits.type .ifElse).seq ((strict iht).seq ((strict ihb).seq (strict iho)))
      simp only [parseNext, accepted, bytes, hnull, Bool.false_eq_true, if_false, Bool.false_or]
      exact h
  | forLoop target iter body _ iht ihi ihb =>
    exact (Emits.type _).seq ((strict iht).seq ((strict ihi).seq (strict ihb)))
  | whileLoop test body _ iht ihb => exact (Emits.type _).seq ((strict iht).seq (strict ihb))
  | expressionStatement expr ih => exact strict ih
  | «continue» | «break» | pass => exact Emits.type _
  | importFrom module names _ ihm ihn => exact (Emits.type _).seq ((strict ihm).seq (strict ihn))
  | global ids => exact (Emits.type _).seq ((Emits.size _).seq (Emits.names ids))
  | functionDef name arguments defaults _ _ _ _ body ihn iha ihd _ _ _ _ ihb =>
    have hheader := (Emits.type .functionStart).seq ((Emits.size arguments.length).seq
      ((lax iha).seq ((Emits.type .functionStartDefaults).seq ((Emits.size defaults.length).seq
        ((lax ihd).seq (Emits.type .functionStartStub))))))
    have h := (Emits.type .functionDef).seq ((strict ihn).seq
      ((hheader.withBodyLength (strict ihb)).seq (Emits.type .functionEnd)))
    simp only [Bool.true_and, Bool.and_true] at h
    exact h
  | noExprs | noStmts | noItems | noComparisons => exact Emits.pure
  | consExpr head tail ihh iht | consStmt head tail ihh iht => exact (ihh _).seq (iht _)
  | consItem key value tail ihk ihv iht => exact (ihk _).seq ((ihv _).seq (iht _))
  | consComparison op comparator tail ihc iht =>
    exact (Emits.word _).seq ((ihc _).seq (iht _))

/-- `parse_next` encodes the tree as `code`. -/
def Encodes {k : Kind} (a : Ast k) (code : List UInt8) : Prop :=
  ∃ b, parseNext maliciousInput a (Bitstream.ofBytes []) = .ok () b ∧ b.bytecode = code

/-- Below 4 GiB exactly the accepted trees are encoded, and `bytes` is the encoding. -/
lemma encodes_iff {k : Kind} (a : Ast k) (code : List UInt8) (hlen : code.length < 2 ^ 32) :
    Encodes a code ↔ accepted false a = true ∧ code = bytes a := by
  have h := emits_parseNext a false (Bitstream.ofBytes []) ⟨rfl, rfl⟩
  rw [show onNull false = maliciousInput from rfl] at h
  cases hacc : accepted false a with
  | false =>
    rw [hacc] at h
    obtain ⟨e, b', h⟩ := h
    constructor
    · rintro ⟨b, hb, -⟩
      cases h.symm.trans hb
    · rintro ⟨hfalse, -⟩
      cases hfalse
  | true =>
    rw [hacc] at h
    obtain ⟨b', h, -, hlen', happ⟩ := h
    have hlen' : b'.bytecode.length = (bytes a).length := by simpa [Bitstream.ofBytes] using hlen'
    have happ : (bytes a).length < 2 ^ 32 → b'.bytecode = bytes a := fun hsize => by
      rw [happ (by simpa [Bitstream.ofBytes] using hsize)]
      simp [append, Bitstream.ofBytes]
    constructor
    · rintro ⟨b, hb, rfl⟩
      cases h.symm.trans hb
      exact ⟨rfl, happ (by omega)⟩
    · rintro ⟨-, rfl⟩
      exact ⟨b', h, happ hlen⟩

end ContractPython.Proofs
