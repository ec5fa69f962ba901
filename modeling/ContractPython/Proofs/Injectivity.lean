import ContractPython.Lib.Unambiguous
import ContractPython.Proofs.Encoding

/-!
# What the compiler loses

The encoding is unambiguous, but some parts of a tree are not written: the suites behind `else` of
a loop, keywords and starred arguments, decorators, the level of an import, the upper half of an
integer and the bytes of a string from its first NUL on. Two modules of one bytecode are the same
exactly when these parts of them are.
-/

namespace ContractPython.Proofs

open Unambiguous Compiler

/-! ### The same program -/

/-- A tree up to the representation of documentation strings and enumerators. -/
@[simp] def plain : {k : Kind} → Ast k → Ast k
  | _, .docString doc => .expressionStatement (.str doc)
  | _, .tuple elements => .tuple (plain elements)
  | _, .list elements => .list (plain elements)
  | _, .dict items => .dict (plain items)
  | _, .compare left comparators => .compare (plain left) (plain comparators)
  | _, .call function arguments keywords args kwargs =>
    .call (plain function) (plain arguments) (plain keywords) (plain args) (plain kwargs)
  | _, .attribute value attr => .attribute (plain value) (plain attr)
  | _, .unaryOp op operand => .unaryOp (.ofCode op.code) (plain operand)
  | _, .boolOp op values => .boolOp (.ofCode op.code) (plain values)
  | _, .binOp op left right => .binOp (.ofCode op.code) (plain left) (plain right)
  | _, .subscript slice value => .subscript (plain slice) (plain value)
  | _, .listComp element generators => .listComp (plain element) (plain generators)
  | _, .comprehension target iter ifs => .comprehension (plain target) (plain iter) (plain ifs)
  | _, .index value => .index (plain value)
  | _, .suite items => .suite (plain items)
  | _, .assign targets value => .assign (plain targets) (plain value)
  | _, .augAssign op target value => .augAssign (.ofCode op.code) (plain target) (plain value)
  | _, .return value => .return (plain value)
  | _, .ifStmt test body orelse => .ifStmt (plain test) (plain body) (plain orelse)
  | _, .forLoop target iter body orelse =>
    .forLoop (plain target) (plain iter) (plain body) (plain orelse)
  | _, .whileLoop test body orelse => .whileLoop (plain test) (plain body) (plain orelse)
  | _, .expressionStatement expr => .expressionStatement (plain expr)
  | _, .importStmt names => .importStmt (plain names)
  | _, .importFrom module names level => .importFrom (plain module) (plain names) level
  | _, .functionDef name arguments defaults keywords decorators args kwargs body =>
    .functionDef (plain name) (plain arguments) (plain defaults) (plain keywords) (plain decorators)
      (plain args) (plain kwargs) (plain body)
  | _, .consExpr head tail => .consExpr (plain head) (plain tail)
  | _, .consStmt head tail => .consStmt (plain head) (plain tail)
  | _, .consItem key value tail => .consItem (plain key) (plain value) (plain tail)
  | _, .consComparison op comparator tail =>
    .consComparison (.ofCode op.code) (plain comparator) (plain tail)
  | _, a => a

/-! ### The parts that are not written -/

/-- A part of a tree that does not reach the bytecode. -/
inductive Lost
  /-- The bytes of a string from its first NUL on. -/
  | bytes (rest : Str)
  /-- The upper half of an integer. -/
  | upperHalf (w : UInt32)
  /-- Whether an alias has a name of its own. -/
  | named (named : Bool)
  | level (level : Int32)
  | expr (a : Ast .expr)
  | exprs (a : Ast .exprs)
  | stmt (a : Ast .stmt)

/-- What `c_str()` cuts off. -/
def lostBytes (s : Str) : Lost := .bytes (s.drop (cStr s).length)

/-- What the `int32_t` of an integer cuts off. -/
def lostHalf (i : Int64) : Lost := .upperHalf (i.toUInt64 >>> 32).toUInt32

/-- The parts that are not written, in the order of the tree. -/
def lost : {k : Kind} → Ast k → List Lost
  | _, .name id => [lostBytes id]
  | _, .str value | _, .docString value => [lostBytes value]
  | _, .number (.integer i) => [lostHalf i]
  | _, .alias name asName => [lostBytes name, .named asName.isSome, lostBytes (asName.getD [])]
  | _, .tuple elements | _, .list elements => lost elements
  | _, .dict items => lost items
  | _, .compare left comparators => lost left ++ lost comparators
  | _, .call function arguments keywords args kwargs =>
    lost function ++ (lost arguments ++ [.exprs (plain keywords), .expr (plain args), .expr (plain kwargs)])
  | _, .attribute value attr => lost value ++ lost attr
  | _, .unaryOp _ operand => lost operand
  | _, .binOp _ left right => lost left ++ lost right
  | _, .subscript slice value => lost slice ++ lost value
  | _, .listComp element generators => lost element ++ lost generators
  | _, .comprehension target iter ifs => lost target ++ (lost iter ++ lost ifs)
  | _, .index value => lost value
  | _, .suite items => lost items
  | _, .assign targets value => lost value ++ lost targets
  | _, .augAssign _ target value => lost target ++ lost value
  | _, .return value => lost value
  | _, .ifStmt test body orelse =>
    lost test ++ (lost body ++ if orelse.isNull then [] else lost orelse)
  | _, .forLoop target iter body orelse =>
    lost target ++ (lost iter ++ (lost body ++ [.stmt (plain orelse)]))
  | _, .whileLoop test body orelse => lost test ++ (lost body ++ [.stmt (plain orelse)])
  | _, .expressionStatement expr => lost expr
  | _, .importStmt names => lost names
  | _, .importFrom module names level => lost module ++ (lost names ++ [.level level])
  | _, .global names => names.map lostBytes
  | _, .functionDef name arguments defaults keywords decorators args kwargs body =>
    lost name ++ (lost arguments ++ (lost defaults ++ (lost body ++
      [.exprs (plain keywords), .exprs (plain decorators), .expr (plain args), .expr (plain kwargs)])))
  | _, .consExpr head tail => lost head ++ lost tail
  | _, .consStmt head tail => lost head ++ lost tail
  | _, .consItem key value tail => lost key ++ (lost value ++ lost tail)
  | _, .consComparison _ comparator tail => lost comparator ++ lost tail
  | _, _ => []

/-- The lists are as long as each other, and equal exactly when `p` holds. -/
structure Matches (p : Prop) (l l' : List Lost) : Prop where
  length_eq : l.length = l'.length
  iff : p ↔ l = l'

namespace Matches

variable {p q : Prop} {l l' m m' : List Lost}

lemma nil : Matches True [] [] := ⟨rfl, by simp⟩

lemma single {x x' : Lost} (h : p ↔ x = x') : Matches p [x] [x'] := ⟨rfl, by simp [h]⟩

lemma append (h : Matches p l l') (h' : Matches q m m') : Matches (p ∧ q) (l ++ m) (l' ++ m') := by
  refine ⟨by rw [List.length_append, List.length_append, h.length_eq, h'.length_eq], ?_⟩
  rw [h.iff, h'.iff]
  constructor
  · rintro ⟨rfl, rfl⟩
    rfl
  · exact fun heq => List.append_inj heq h.length_eq

lemma congr (h : Matches p l l') (hq : q ↔ p) : Matches q l l' := ⟨h.length_eq, hq.trans h.iff⟩

end Matches

/-- Two trees are the same exactly when their lost parts are. -/
def Agree {k : Kind} (a b : Ast k) : Prop := Matches (plain a = plain b) (lost a) (lost b)

/-! ### Fields -/

/-- The streams are shorter than 4 GiB. -/
abbrev Reads (A B : List UInt8) (P : Prop) : Prop := Determines (2 ^ 32) A B P

lemma wordBytes_inj {w w' : UInt32} (h : wordBytes w = wordBytes w') : w = w' := by
  have hdecode := congrArg Bytes.decodeBE h
  simp only [wordBytes, Bytes.decodeBE_encodeBE] at hdecode
  have hw := w.toNat_lt
  have hw' := w'.toNat_lt
  exact UInt32.toNat_inj.mp (by omega)

lemma reads_word (w w' : UInt32) : Reads (wordBytes w) (wordBytes w') (w = w') :=
  (Determines.fixed (by simp)).mono wordBytes_inj

lemma reads_type (t : NodeType) : Reads (typeBytes t) (typeBytes t) True :=
  (reads_word _ _).mono fun _ => trivial

lemma reads_string (s s' : Str) : Reads (stringBytes s) (stringBytes s') (s = s') := by
  refine .of_length fun hs hs' => ?_
  rw [length_stringBytes] at hs hs'
  have hsize : UInt32.ofNat s.length = UInt32.ofNat s'.length → s.length = s'.length := by
    intro h
    have hnat := congrArg UInt32.toNat h
    simp only [UInt32.toNat_ofNat'] at hnat
    omega
  exact ((reads_word _ _).seq fun h => .fixed (hsize h)).mono And.right

/-- A string is its `c_str()` and what that cuts off. -/
lemma cStr_append (s : Str) : cStr s ++ s.drop (cStr s).length = s :=
  (List.prefix_iff_eq_append.mp (List.takeWhile_prefix _))

lemma matches_string {s s' : Str} (h : cStr s = cStr s') :
    Matches (s = s') [lostBytes s] [lostBytes s'] := by
  refine .single ⟨fun hs => by rw [hs], fun hs => ?_⟩
  have hrest : s.drop (cStr s).length = s'.drop (cStr s').length := Lost.bytes.inj hs
  rw [← cStr_append s, ← cStr_append s', hrest, h]

lemma matches_integer {i i' : Int64} (h : i.toInt32.toUInt32 = i'.toInt32.toUInt32) :
    Matches (i = i') [lostHalf i] [lostHalf i'] := by
  refine .single ⟨fun hi => by rw [hi], fun hi => ?_⟩
  have hhalves : ∀ i : Int64, i.toUInt64.toNat =
      (i.toUInt64 >>> 32).toUInt32.toNat * 2 ^ 32 + i.toInt32.toUInt32.toNat := by
    intro i
    have hlow : i.toInt32.toUInt32.toNat = i.toUInt64.toNat % 2 ^ 32 := by
      have hbits : i.toInt32.toBitVec = i.toBitVec.setWidth 32 :=
        BitVec.signExtend_eq_setWidth_of_le _ (by omega)
      have hnat : i.toInt32.toUInt32.toNat = i.toInt32.toBitVec.toNat := rfl
      rw [hnat, hbits, BitVec.toNat_setWidth]
      rfl
    have hlt := i.toUInt64.toNat_lt
    rw [hlow, UInt64.toNat_toUInt32, UInt64.toNat_shiftRight, Nat.shiftRight_eq_div_pow]
    have hshift : (32 : UInt64).toNat % 64 = 32 := rfl
    rw [hshift]
    omega
  have hupper : (i.toUInt64 >>> 32).toUInt32 = (i'.toUInt64 >>> 32).toUInt32 := Lost.upperHalf.inj hi
  have hnat : i.toUInt64.toNat = i'.toUInt64.toNat := by
    rw [hhalves i, hhalves i', hupper, h]
  exact congrArg UInt64.toInt64 (UInt64.toNat_inj.mp hnat)

lemma reads_name (id id' : Str) : Reads (nameBytes id) (nameBytes id') (cStr id = cStr id') :=
  ((reads_type _).seq fun _ => reads_string _ _).mono And.right

/-- The names of a `global` statement. -/
lemma reads_names {ids ids' : List Str} (hlen : ids.length = ids'.length) :
    Reads (ids.flatMap nameBytes) (ids'.flatMap nameBytes)
      (Matches (ids = ids') (ids.map lostBytes) (ids'.map lostBytes)) := by
  induction ids generalizing ids' with
  | nil =>
    obtain rfl : ids' = [] := List.length_eq_zero_iff.mp hlen.symm
    exact Determines.nil.mono fun _ => Matches.nil.congr (by simp)
  | cons id ids ih =>
    cases ids' with
    | nil => cases hlen
    | cons id' ids' =>
      refine ((reads_name id id').seq fun _ => ih (Nat.succ.inj hlen)).mono fun ⟨hid, hids⟩ => ?_
      exact ((matches_string hid).append hids).congr List.cons_eq_cons

/-! ### The first word of a node -/

/-- The node type an accepted tree starts with. -/
def headType : {k : Kind} → Ast k → NodeType
  | _, .name _ => .name
  | _, .str _ | _, .docString _ => .string
  | _, .number _ => .integer
  | _, .alias _ _ => .alias
  | _, .tuple _ => .tuple
  | _, .list _ => .list
  | _, .dict _ => .dictionary
  | _, .compare _ _ => .compare
  | _, .call _ _ _ _ _ => .call
  | _, .attribute _ _ => .attribute
  | _, .unaryOp _ _ => .unaryOp
  | _, .boolOp _ _ => .boolOp
  | _, .binOp _ _ _ => .binaryOp
  | _, .subscript _ _ => .subscript
  | _, .listComp _ _ => .listComp
  | _, .comprehension _ _ _ => .comprehension
  | _, .index _ => .index
  | _, .suite _ => .statementList
  | _, .assign _ _ => .assign
  | _, .augAssign _ _ _ => .augmentedAssign
  | _, .return _ => .return
  | _, .ifStmt _ _ orelse => if orelse.isNull then .if else .ifElse
  | _, .forLoop _ _ _ _ => .forLoop
  | _, .whileLoop _ _ _ => .whileLoop
  | _, .expressionStatement expr => headType expr
  | _, .continue => .continue
  | _, .break => .break
  | _, .importStmt _ => .import
  | _, .importFrom _ _ _ => .importFrom
  | _, .global _ => .global
  | _, .functionDef _ _ _ _ _ _ _ _ => .functionDef
  | _, _ => .pass

lemma headType_ifStmt (test : Ast .expr) (body orelse : Ast .stmt) :
    headType (.ifStmt test body orelse) = if orelse.isNull then .if else .ifElse := rfl

lemma bytes_ifStmt (test : Ast .expr) (body orelse : Ast .stmt) :
    bytes (.ifStmt test body orelse) = if orelse.isNull
      then typeBytes .if ++ (bytes test ++ bytes body)
      else typeBytes .ifElse ++ (bytes test ++ (bytes body ++ bytes orelse)) := rfl

lemma lost_ifStmt (test : Ast .expr) (body orelse : Ast .stmt) :
    lost (.ifStmt test body orelse) =
      lost test ++ (lost body ++ if orelse.isNull then [] else lost orelse) := rfl

/-- The kinds of trees that are nodes. -/
def Kind.isNode : Kind → Bool
  | .expr | .stmt | .slice => true
  | _ => false

lemma headType_occurs {k : Kind} {nullOk : Bool} (a : Ast k) (hk : Kind.isNode k = true)
    (ha : accepted nullOk a = true) : typeBytes (headType a) <+: bytes a := by
  induction a generalizing nullOk with
  | number num =>
    cases num with
    | integer i => exact List.prefix_append _ _
    | long s | floating f => cases ha
  | otherExpr | otherSlice | otherStmt => cases ha
  | nullExpr | nullSlice | nullStmt | «continue» | «break» | pass => exact List.prefix_refl _
  | expressionStatement expr ih => exact ih rfl ha
  | ifStmt test body orelse =>
    rw [headType_ifStmt, bytes_ifStmt]
    split <;> exact List.prefix_append _ _
  | noExprs | consExpr | noStmts | consStmt | noItems | consItem | noComparisons | consComparison =>
    cases hk
  | _ => exact List.prefix_append _ _

/-- Nodes of different types do not start the same stream. -/
lemma reads_clash {k k' : Kind} {nullOk nullOk' : Bool} {a : Ast k} {b : Ast k'} {P : Prop}
    (hk : Kind.isNode k = true) (hk' : Kind.isNode k' = true) (ha : accepted nullOk a = true)
    (hb : accepted nullOk' b = true) (hne : (headType a).code ≠ (headType b).code) :
    Reads (bytes a) (bytes b) P :=
  .clash (headType_occurs a hk ha) (headType_occurs b hk' hb) (by simp [typeBytes])
    fun h => hne (wordBytes_inj h)

/-- The words an expression starts with. -/
def isExprCode (code : UInt32) : Bool :=
  [2, 5, 6, 7, 8, 11, 12, 13, 14, 15, 16, 17, 18, 19, 20, 29].contains code

lemma isExprCode_headType {a : Ast .expr} (ha : accepted false a = true) :
    isExprCode (headType a).code = true := by
  cases a with
  | nullExpr | otherExpr => cases ha
  | _ => rfl

lemma expr_clash {t : NodeType} {e : Ast .expr} (h : t = headType (.expressionStatement e))
    (he : accepted false e = true) (ht : isExprCode t.code = false) : False := by
  have hcode := isExprCode_headType he
  rw [show headType e = t from h.symm, ht] at hcode
  cases hcode

lemma expr_ne {e : Ast .expr} (he : accepted false e = true) {t : NodeType}
    (ht : isExprCode t.code = false) : headType (.expressionStatement e) ≠ t :=
  fun h => expr_clash h.symm he ht

lemma eq_nullStmt_of_isNull {a : Ast .stmt} (h : a.isNull = true) : a = .nullStmt := by
  cases a <;> first | rfl | cases h

lemma if_clash {t : NodeType} {test : Ast .expr} {body orelse : Ast .stmt}
    (h : t = headType (.ifStmt test body orelse)) (hif : t ≠ .if) (helse : t ≠ .ifElse) : False := by
  rw [headType_ifStmt] at h
  split at h
  · exact hif h
  · exact helse h

lemma headType_eq_of_code {k k' : Kind} (a : Ast k) (b : Ast k')
    (h : (headType a).code = (headType b).code) : headType a = headType b := by
  have hnamed : ∀ {k : Kind} (a : Ast k) c, headType a ≠ .unknown c := by
    intro k a c
    induction a with
    | expressionStatement e ih => exact ih
    | ifStmt test body orelse =>
      rw [headType_ifStmt]
      split <;> nofun
    | _ => nofun
  have hofCode := congrArg NodeType.ofCode h
  rwa [NodeType.ofCode_code _ (hnamed a), NodeType.ofCode_code _ (hnamed b)] at hofCode

/-! ### Unambiguous trees -/

/-- What starts the stream at the place of `a` determines `a` up to its lost parts. -/
def Decodes {k : Kind} (a : Ast k) : Prop :=
  ∀ (b : Ast k) (nullOk : Bool), (nullOk = true → k = .expr ∨ k = .exprs) → a.length = b.length →
    accepted nullOk a = true → accepted nullOk b = true → Reads (bytes a) (bytes b) (Agree a b)

lemma length_of_isNode {k : Kind} (a : Ast k) (hk : Kind.isNode k = true) : a.length = 0 := by
  cases a <;> first | rfl | cases hk

/-- Sizes of vectors that fit the stream. -/
lemma reads_size {n n' : Nat} {A B : List UInt8} {P : Prop} (hn : n ≤ A.length)
    (hn' : n' ≤ B.length) (h : n = n' → Reads A B P) :
    Reads (sizeBytes n ++ A) (sizeBytes n' ++ B) P := by
  refine .of_length fun hA hB => ?_
  rw [List.length_append] at hA hB
  refine ((reads_word _ _).seq fun hsize => h ?_).mono And.right
  have hnat := congrArg UInt32.toNat hsize
  simp only [UInt32.toNat_ofNat'] at hnat
  omega

namespace Decodes

variable {k : Kind} {a b : Ast k}

lemma node (h : Decodes a) (hk : Kind.isNode k = true) (ha : accepted false a = true)
    (hb : accepted false b = true) : Reads (bytes a) (bytes b) (Agree a b) :=
  h b false nofun (by rw [length_of_isNode a hk, length_of_isNode b hk]) ha hb

/-- A vector after its size. -/
lemma vector (h : Decodes a) (ha : accepted false a = true) (hb : accepted false b = true) :
    Reads (sizeBytes a.length ++ bytes a) (sizeBytes b.length ++ bytes b) (Agree a b) :=
  reads_size (length_le_bytes a ha) (length_le_bytes b hb) fun hlen => h b false nofun hlen ha hb

/-- A vector whose elements may be null. -/
lemma elements {a b : Ast .exprs} (h : Decodes a) (ha : accepted true a = true)
    (hb : accepted true b = true) :
    Reads (sizeBytes a.length ++ bytes a) (sizeBytes b.length ++ bytes b) (Agree a b) :=
  reads_size (length_le_bytes a ha) (length_le_bytes b hb) fun hlen =>
    h b true (fun _ => .inr rfl) hlen ha hb

lemma elements_seq {a b : Ast .exprs} (h : Decodes a) (ha : accepted true a = true)
    (hb : accepted true b = true) {A B : List UInt8} {P : Prop} (hrest : Reads A B P) :
    Reads (sizeBytes a.length ++ (bytes a ++ A)) (sizeBytes b.length ++ (bytes b ++ B))
      (Agree a b ∧ P) := by
  rw [← List.append_assoc, ← List.append_assoc (sizeBytes b.length)]
  exact (h.elements ha hb).seq fun _ => hrest

end Decodes

lemma agree_of_lost_nil {k : Kind} {a b : Ast k} (ha : lost a = []) (hb : lost b = [])
    (h : plain a = plain b) : Agree a b := by
  unfold Agree
  rw [ha, hb]
  exact Matches.nil.congr ⟨fun _ => trivial, fun _ => h⟩

/-- It is enough to look at nodes of one type. -/
lemma decodes_of_headType {k : Kind} {a : Ast k} (hk : Kind.isNode k = true)
    (h : ∀ (b : Ast k) (nullOk : Bool), (nullOk = true → k = .expr ∨ k = .exprs) →
      accepted nullOk a = true → accepted nullOk b = true → headType a = headType b →
      Reads (bytes a) (bytes b) (Agree a b)) : Decodes a := by
  intro b nullOk hnull _ ha hb
  by_cases hcode : (headType a).code = (headType b).code
  · exact h b nullOk hnull ha hb (headType_eq_of_code a b hcode)
  · exact reads_clash hk hk ha hb hcode

lemma decodes_nullExpr : Decodes (.nullExpr) := by
  refine decodes_of_headType rfl fun b nullOk _ ha hb hhead => ?_
  cases b with
  | nullExpr => exact (reads_type _).mono fun _ => agree_of_lost_nil rfl rfl rfl
  | otherExpr => cases hb
  | _ => nomatch hhead

lemma decodes_name (id : Str) : Decodes (.name id) := by
  refine decodes_of_headType rfl fun b nullOk _ ha hb hhead => ?_
  cases b with
  | name id' => exact (reads_name id id').mono fun h => (matches_string h).congr (by simp)
  | _ => nomatch hhead

lemma decodes_str (value : Str) : Decodes (.str value) := by
  refine decodes_of_headType rfl fun b nullOk _ ha hb hhead => ?_
  cases b with
  | str value' =>
    exact ((reads_type _).seq fun _ => reads_string _ _).mono fun h =>
      (matches_string h.2).congr (by simp)
  | _ => nomatch hhead

lemma decodes_number (num : Number) : Decodes (.number num) := by
  refine decodes_of_headType rfl fun b nullOk _ ha hb hhead => ?_
  cases b with
  | number num' =>
    cases num with
    | long s | floating f => cases ha
    | integer i =>
      cases num' with
      | long s | floating f => cases hb
      | integer i' =>
        exact ((reads_type _).seq fun _ => reads_word _ _).mono fun h =>
          (matches_integer h.2).congr (by simp)
  | _ => nomatch hhead

lemma decodes_alias (name : Str) (asName : Option Str) : Decodes (.alias name asName) := by
  refine decodes_of_headType rfl fun b nullOk _ ha hb hhead => ?_
  cases b with
  | «alias» name' asName' =>
    refine ((reads_type _).seq fun _ => (reads_string _ _).seq fun _ => reads_string _ _).mono
      fun ⟨_, hname, hasName⟩ => ?_
    have hsome : Matches (asName.isSome = asName'.isSome) [.named asName.isSome] [.named asName'.isSome] :=
      .single (by simp)
    refine ((matches_string hname).append (hsome.append (matches_string hasName))).congr ?_
    cases asName <;> cases asName' <;> simp
  | _ => nomatch hhead

lemma decodes_tuple {elements : Ast .exprs} (ih : Decodes elements) : Decodes (.tuple elements) := by
  refine decodes_of_headType rfl fun b nullOk _ ha hb hhead => ?_
  cases b with
  | tuple elements' =>
    exact ((reads_type _).seq fun _ => ih.vector ha hb).mono fun h => h.2.congr (by simp)
  | _ => nomatch hhead

lemma decodes_list {elements : Ast .exprs} (ih : Decodes elements) : Decodes (.list elements) := by
  refine decodes_of_headType rfl fun b nullOk _ ha hb hhead => ?_
  cases b with
  | list elements' =>
    exact ((reads_type _).seq fun _ => ih.elements ha hb).mono fun h =>
      h.2.congr (by simp)
  | _ => nomatch hhead

lemma decodes_dict {items : Ast .items} (ih : Decodes items) : Decodes (.dict items) := by
  refine decodes_of_headType rfl fun b nullOk _ ha hb hhead => ?_
  cases b with
  | dict items' =>
    exact ((reads_type _).seq fun _ => ih.vector ha hb).mono fun h => h.2.congr (by simp)
  | _ => nomatch hhead

lemma decodes_compare {left : Ast .expr} {comparators : Ast .comparisons} (ihl : Decodes left)
    (ihc : Decodes comparators) : Decodes (.compare left comparators) := by
  refine decodes_of_headType rfl fun b nullOk _ ha hb hhead => ?_
  cases b with
  | compare left' comparators' =>
    obtain ⟨hl, hc⟩ := Bool.and_eq_true_iff.mp ha
    obtain ⟨hl', hc'⟩ := Bool.and_eq_true_iff.mp hb
    exact ((reads_type _).seq fun _ => (ihl.node rfl hl hl').seq fun _ => ihc.vector hc hc').mono
      fun ⟨_, h, h'⟩ => (h.append h').congr (by simp)
  | _ => nomatch hhead

lemma decodes_call {function args kwargs : Ast .expr} {arguments keywords : Ast .exprs}
    (ihf : Decodes function) (iha : Decodes arguments) :
    Decodes (.call function arguments keywords args kwargs) := by
  refine decodes_of_headType rfl fun b nullOk _ ha hb hhead => ?_
  cases b with
  | call function' arguments' keywords' args' kwargs' =>
    obtain ⟨hf, ha⟩ := Bool.and_eq_true_iff.mp ha
    obtain ⟨hf', ha'⟩ := Bool.and_eq_true_iff.mp hb
    refine ((reads_type _).seq fun _ => (ihf.node rfl hf hf').seq fun _ => iha.elements ha ha').mono
      fun ⟨_, h, h'⟩ => ?_
    have hlost : Matches (plain keywords = plain keywords' ∧ plain args = plain args' ∧
        plain kwargs = plain kwargs') [.exprs (plain keywords), .expr (plain args), .expr (plain kwargs)]
        [.exprs (plain keywords'), .expr (plain args'), .expr (plain kwargs')] :=
      ⟨rfl, by simp⟩
    exact (h.append (h'.append hlost)).congr (by simp)
  | _ => nomatch hhead

lemma decodes_attribute {value attr : Ast .expr} (ihv : Decodes value) (iha : Decodes attr) :
    Decodes (.attribute value attr) := by
  refine decodes_of_headType rfl fun b nullOk _ ha hb hhead => ?_
  cases b with
  | «attribute» value' attr' =>
    obtain ⟨hv, ha⟩ := Bool.and_eq_true_iff.mp ha
    obtain ⟨hv', ha'⟩ := Bool.and_eq_true_iff.mp hb
    exact ((reads_type _).seq fun _ => (ihv.node rfl hv hv').seq fun _ => iha.node rfl ha ha').mono
      fun ⟨_, h, h'⟩ => (h.append h').congr (by simp)
  | _ => nomatch hhead

lemma decodes_unaryOp (op : UnaryOpType) {operand : Ast .expr} (ih : Decodes operand) :
    Decodes (.unaryOp op operand) := by
  refine decodes_of_headType rfl fun b nullOk _ ha hb hhead => ?_
  cases b with
  | unaryOp op' operand' =>
    exact ((reads_type _).seq fun _ => (reads_word _ _).seq fun _ => ih.node rfl ha hb).mono
      fun ⟨_, hop, h⟩ => h.congr (by simp [hop])
  | _ => nomatch hhead

lemma decodes_boolOp (op : BoolOpType) (values : Ast .exprs) : Decodes (.boolOp op values) := by
  refine decodes_of_headType rfl fun b nullOk _ ha hb hhead => ?_
  cases b with
  | boolOp op' values' =>
    have hvalues : ∀ {values : Ast .exprs}, (values.length == 0) = true → values = .noExprs := by
      intro values hlen
      cases values with
      | noExprs => rfl
      | consExpr head tail => cases hlen
    obtain rfl := hvalues ha
    obtain rfl := hvalues hb
    exact ((reads_type _).seq fun _ => (reads_word _ _).seq fun _ => reads_word _ _).mono
      fun ⟨_, hop, _⟩ => agree_of_lost_nil rfl rfl (by simp [hop])
  | _ => nomatch hhead

lemma decodes_binOp (op : BinaryOpType) {left right : Ast .expr} (ihl : Decodes left)
    (ihr : Decodes right) : Decodes (.binOp op left right) := by
  refine decodes_of_headType rfl fun b nullOk _ ha hb hhead => ?_
  cases b with
  | binOp op' left' right' =>
    obtain ⟨hl, hr⟩ := Bool.and_eq_true_iff.mp ha
    obtain ⟨hl', hr'⟩ := Bool.and_eq_true_iff.mp hb
    exact ((reads_type _).seq fun _ => (reads_word _ _).seq fun _ => (ihl.node rfl hl hl').seq fun _ =>
      ihr.node rfl hr hr').mono fun ⟨_, hop, h, h'⟩ => (h.append h').congr (by simp [hop])
  | _ => nomatch hhead

lemma decodes_subscript {slice : Ast .slice} {value : Ast .expr} (ihs : Decodes slice)
    (ihv : Decodes value) : Decodes (.subscript slice value) := by
  refine decodes_of_headType rfl fun b nullOk _ ha hb hhead => ?_
  cases b with
  | subscript slice' value' =>
    obtain ⟨hs, hv⟩ := Bool.and_eq_true_iff.mp ha
    obtain ⟨hs', hv'⟩ := Bool.and_eq_true_iff.mp hb
    exact ((reads_type _).seq fun _ => (ihs.node rfl hs hs').seq fun _ => ihv.node rfl hv hv').mono
      fun ⟨_, h, h'⟩ => (h.append h').congr (by simp)
  | _ => nomatch hhead

lemma decodes_listComp {element : Ast .expr} {generators : Ast .exprs} (ihe : Decodes element)
    (ihg : Decodes generators) : Decodes (.listComp element generators) := by
  refine decodes_of_headType rfl fun b nullOk _ ha hb hhead => ?_
  cases b with
  | listComp element' generators' =>
    obtain ⟨he, hg⟩ := Bool.and_eq_true_iff.mp ha
    obtain ⟨he', hg'⟩ := Bool.and_eq_true_iff.mp hb
    exact ((reads_type _).seq fun _ => (ihe.node rfl he he').seq fun _ => ihg.elements hg hg').mono
      fun ⟨_, h, h'⟩ => (h.append h').congr (by simp)
  | _ => nomatch hhead

lemma decodes_comprehension {target iter : Ast .expr} {ifs : Ast .exprs} (iht : Decodes target)
    (ihi : Decodes iter) (ihf : Decodes ifs) : Decodes (.comprehension target iter ifs) := by
  refine decodes_of_headType rfl fun b nullOk _ ha hb hhead => ?_
  cases b with
  | comprehension target' iter' ifs' =>
    obtain ⟨ht, ha⟩ := Bool.and_eq_true_iff.mp ha
    obtain ⟨hi, hf⟩ := Bool.and_eq_true_iff.mp ha
    obtain ⟨ht', hb⟩ := Bool.and_eq_true_iff.mp hb
    obtain ⟨hi', hf'⟩ := Bool.and_eq_true_iff.mp hb
    exact ((reads_type _).seq fun _ => (iht.node rfl ht ht').seq fun _ => (ihi.node rfl hi hi').seq
      fun _ => ihf.elements hf hf').mono
      fun ⟨_, h, h', h''⟩ => (h.append (h'.append h'')).congr (by simp)
  | _ => nomatch hhead

lemma decodes_nullSlice : Decodes (.nullSlice) := by
  intro b nullOk hnull _ ha _
  cases hnull ha <;> contradiction

lemma decodes_index {value : Ast .expr} (ih : Decodes value) : Decodes (.index value) := by
  refine decodes_of_headType rfl fun b nullOk hnull ha hb hhead => ?_
  cases b with
  | index value' =>
    exact ((reads_type _).seq fun _ => ih.node rfl ha hb).mono fun h => h.2.congr (by simp)
  | nullSlice | otherSlice => nomatch hhead

lemma decodes_nullStmt : Decodes (.nullStmt) := by
  intro b nullOk hnull _ ha _
  cases hnull ha <;> contradiction

lemma decodes_noExprs : Decodes (.noExprs) := by
  intro b nullOk _ hlen _ _
  cases b with
  | noExprs => exact Determines.nil.mono fun _ => agree_of_lost_nil rfl rfl rfl
  | consExpr head tail => nomatch hlen

lemma decodes_consExpr {head : Ast .expr} {tail : Ast .exprs} (ihh : Decodes head)
    (iht : Decodes tail) : Decodes (.consExpr head tail) := by
  intro b nullOk hnull hlen ha hb
  cases b with
  | noExprs => nomatch hlen
  | consExpr head' tail' =>
    obtain ⟨hh, ht⟩ := Bool.and_eq_true_iff.mp ha
    obtain ⟨hh', ht'⟩ := Bool.and_eq_true_iff.mp hb
    have hhead := ihh head' nullOk (fun _ => .inl rfl)
      (by rw [length_of_isNode head rfl, length_of_isNode head' rfl]) hh hh'
    have htail := iht tail' nullOk (fun _ => .inr rfl) (Nat.succ.inj hlen) ht ht'
    exact (hhead.seq fun _ => htail).mono fun ⟨h, h'⟩ => (h.append h').congr (by simp)

lemma decodes_noStmts : Decodes (.noStmts) := by
  intro b nullOk _ hlen _ _
  cases b with
  | noStmts => exact Determines.nil.mono fun _ => agree_of_lost_nil rfl rfl rfl
  | consStmt head tail => nomatch hlen

lemma decodes_consStmt {head : Ast .stmt} {tail : Ast .stmts} (ihh : Decodes head)
    (iht : Decodes tail) : Decodes (.consStmt head tail) := by
  intro b nullOk hnull hlen ha hb
  cases b with
  | noStmts => nomatch hlen
  | consStmt head' tail' =>
    obtain ⟨hh, ht⟩ := Bool.and_eq_true_iff.mp ha
    obtain ⟨hh', ht'⟩ := Bool.and_eq_true_iff.mp hb
    have hhead := ihh head' nullOk (fun hok => by cases hnull hok <;> contradiction)
      (by rw [length_of_isNode head rfl, length_of_isNode head' rfl]) hh hh'
    have htail := iht tail' nullOk (fun hok => by cases hnull hok <;> contradiction)
      (Nat.succ.inj hlen) ht ht'
    exact (hhead.seq fun _ => htail).mono fun ⟨h, h'⟩ => (h.append h').congr (by simp)

lemma decodes_noItems : Decodes (.noItems) := by
  intro b nullOk _ hlen _ _
  cases b with
  | noItems => exact Determines.nil.mono fun _ => agree_of_lost_nil rfl rfl rfl
  | consItem key value tail => nomatch hlen

lemma decodes_consItem {key value : Ast .expr} {tail : Ast .items} (ihk : Decodes key)
    (ihv : Decodes value) (iht : Decodes tail) : Decodes (.consItem key value tail) := by
  intro b nullOk hnull hlen ha hb
  cases b with
  | noItems => nomatch hlen
  | consItem key' value' tail' =>
    obtain ⟨hk, ha⟩ := Bool.and_eq_true_iff.mp ha
    obtain ⟨hv, ht⟩ := Bool.and_eq_true_iff.mp ha
    obtain ⟨hk', hb⟩ := Bool.and_eq_true_iff.mp hb
    obtain ⟨hv', ht'⟩ := Bool.and_eq_true_iff.mp hb
    have hkey := ihk key' nullOk (fun _ => .inl rfl)
      (by rw [length_of_isNode key rfl, length_of_isNode key' rfl]) hk hk'
    have hvalue := ihv value' nullOk (fun _ => .inl rfl)
      (by rw [length_of_isNode value rfl, length_of_isNode value' rfl]) hv hv'
    have htail := iht tail' nullOk (fun hok => by cases hnull hok <;> contradiction)
      (Nat.succ.inj hlen) ht ht'
    exact (hkey.seq fun _ => hvalue.seq fun _ => htail).mono
      fun ⟨h, h', h''⟩ => (h.append (h'.append h'')).congr (by simp)

lemma decodes_noComparisons : Decodes (.noComparisons) := by
  intro b nullOk _ hlen _ _
  cases b with
  | noComparisons => exact Determines.nil.mono fun _ => agree_of_lost_nil rfl rfl rfl
  | consComparison op comparator tail => nomatch hlen

lemma decodes_consComparison (op : CompareOpType) {comparator : Ast .expr} {tail : Ast .comparisons}
    (ihc : Decodes comparator) (iht : Decodes tail) : Decodes (.consComparison op comparator tail) := by
  intro b nullOk hnull hlen ha hb
  cases b with
  | noComparisons => nomatch hlen
  | consComparison op' comparator' tail' =>
    obtain ⟨hc, ht⟩ := Bool.and_eq_true_iff.mp ha
    obtain ⟨hc', ht'⟩ := Bool.and_eq_true_iff.mp hb
    have hcomparator := ihc comparator' nullOk (fun _ => .inl rfl)
      (by rw [length_of_isNode comparator rfl, length_of_isNode comparator' rfl]) hc hc'
    have htail := iht tail' nullOk (fun hok => by cases hnull hok <;> contradiction)
      (Nat.succ.inj hlen) ht ht'
    exact ((reads_word _ _).seq fun _ => hcomparator.seq fun _ => htail).mono
      fun ⟨hop, h, h'⟩ => (h.append h').congr (by simp [hop])

lemma decodes_suite {items : Ast .stmts} (ih : Decodes items) : Decodes (.suite items) := by
  refine decodes_of_headType rfl fun b nullOk _ ha hb hhead => ?_
  cases b with
  | suite items' =>
    exact ((reads_type _).seq fun _ => ih.vector ha hb).mono fun h => h.2.congr (by simp)
  | expressionStatement e => exact (expr_clash hhead hb rfl).elim
  | ifStmt => exact (if_clash hhead nofun nofun).elim
  | _ => nomatch hhead

lemma decodes_assign {targets : Ast .exprs} {value : Ast .expr} (iht : Decodes targets)
    (ihv : Decodes value) : Decodes (.assign targets value) := by
  refine decodes_of_headType rfl fun b nullOk _ ha hb hhead => ?_
  cases b with
  | assign targets' value' =>
    obtain ⟨hv, ht⟩ := Bool.and_eq_true_iff.mp ha
    obtain ⟨hv', ht'⟩ := Bool.and_eq_true_iff.mp hb
    exact ((reads_type _).seq fun _ => (ihv.node rfl hv hv').seq fun _ => iht.elements ht ht').mono
      fun ⟨_, h, h'⟩ => (h.append h').congr (by simp [and_comm])
  | expressionStatement e => exact (expr_clash hhead hb rfl).elim
  | ifStmt => exact (if_clash hhead nofun nofun).elim
  | _ => nomatch hhead

lemma decodes_augAssign (op : BinaryOpType) {target value : Ast .expr} (iht : Decodes target)
    (ihv : Decodes value) : Decodes (.augAssign op target value) := by
  refine decodes_of_headType rfl fun b nullOk _ ha hb hhead => ?_
  cases b with
  | augAssign op' target' value' =>
    obtain ⟨ht, hv⟩ := Bool.and_eq_true_iff.mp ha
    obtain ⟨ht', hv'⟩ := Bool.and_eq_true_iff.mp hb
    exact ((reads_type _).seq fun _ => (reads_word _ _).seq fun _ => (iht.node rfl ht ht').seq fun _ =>
      ihv.node rfl hv hv').mono fun ⟨_, hop, h, h'⟩ => (h.append h').congr (by simp [hop])
  | expressionStatement e => exact (expr_clash hhead hb rfl).elim
  | ifStmt => exact (if_clash hhead nofun nofun).elim
  | _ => nomatch hhead

lemma decodes_return {value : Ast .expr} (ih : Decodes value) : Decodes (.return value) := by
  refine decodes_of_headType rfl fun b nullOk _ ha hb hhead => ?_
  cases b with
  | «return» value' =>
    exact ((reads_type _).seq fun _ => ih.node rfl ha hb).mono fun h => h.2.congr (by simp)
  | expressionStatement e => exact (expr_clash hhead hb rfl).elim
  | ifStmt => exact (if_clash hhead nofun nofun).elim
  | _ => nomatch hhead

lemma decodes_importStmt {names : Ast .expr} (ih : Decodes names) : Decodes (.importStmt names) := by
  refine decodes_of_headType rfl fun b nullOk _ ha hb hhead => ?_
  cases b with
  | importStmt names' =>
    exact ((reads_type _).seq fun _ => ih.node rfl ha hb).mono fun h => h.2.congr (by simp)
  | expressionStatement e => exact (expr_clash hhead hb rfl).elim
  | ifStmt => exact (if_clash hhead nofun nofun).elim
  | _ => nomatch hhead

lemma decodes_importFrom {module names : Ast .expr} (level : Int32) (ihm : Decodes module)
    (ihn : Decodes names) : Decodes (.importFrom module names level) := by
  refine decodes_of_headType rfl fun b nullOk _ ha hb hhead => ?_
  cases b with
  | importFrom module' names' level' =>
    obtain ⟨hm, hn⟩ := Bool.and_eq_true_iff.mp ha
    obtain ⟨hm', hn'⟩ := Bool.and_eq_true_iff.mp hb
    refine ((reads_type _).seq fun _ => (ihm.node rfl hm hm').seq fun _ => ihn.node rfl hn hn').mono
      fun ⟨_, h, h'⟩ => ?_
    have hlevel : Matches (level = level') [.level level] [.level level'] := .single (by simp)
    exact (h.append (h'.append hlevel)).congr (by simp)
  | expressionStatement e => exact (expr_clash hhead hb rfl).elim
  | ifStmt => exact (if_clash hhead nofun nofun).elim
  | _ => nomatch hhead

lemma decodes_forLoop {target iter : Ast .expr} {body : Ast .stmt} (orelse : Ast .stmt)
    (iht : Decodes target) (ihi : Decodes iter) (ihb : Decodes body) :
    Decodes (.forLoop target iter body orelse) := by
  refine decodes_of_headType rfl fun b nullOk _ ha hb hhead => ?_
  cases b with
  | forLoop target' iter' body' orelse' =>
    obtain ⟨ht, ha⟩ := Bool.and_eq_true_iff.mp ha
    obtain ⟨hi, hbody⟩ := Bool.and_eq_true_iff.mp ha
    obtain ⟨ht', hb⟩ := Bool.and_eq_true_iff.mp hb
    obtain ⟨hi', hbody'⟩ := Bool.and_eq_true_iff.mp hb
    refine ((reads_type _).seq fun _ => (iht.node rfl ht ht').seq fun _ => (ihi.node rfl hi hi').seq
      fun _ => ihb.node rfl hbody hbody').mono fun ⟨_, h, h', h''⟩ => ?_
    have helse : Matches (plain orelse = plain orelse') [.stmt (plain orelse)] [.stmt (plain orelse')] :=
      .single (by simp)
    exact (h.append (h'.append (h''.append helse))).congr (by simp)
  | expressionStatement e => exact (expr_clash hhead hb rfl).elim
  | ifStmt => exact (if_clash hhead nofun nofun).elim
  | _ => nomatch hhead

lemma decodes_whileLoop {test : Ast .expr} {body : Ast .stmt} (orelse : Ast .stmt) (iht : Decodes test)
    (ihb : Decodes body) : Decodes (.whileLoop test body orelse) := by
  refine decodes_of_headType rfl fun b nullOk _ ha hb hhead => ?_
  cases b with
  | whileLoop test' body' orelse' =>
    obtain ⟨ht, hbody⟩ := Bool.and_eq_true_iff.mp ha
    obtain ⟨ht', hbody'⟩ := Bool.and_eq_true_iff.mp hb
    refine ((reads_type _).seq fun _ => (iht.node rfl ht ht').seq fun _ => ihb.node rfl hbody hbody').mono
      fun ⟨_, h, h'⟩ => ?_
    have helse : Matches (plain orelse = plain orelse') [.stmt (plain orelse)] [.stmt (plain orelse')] :=
      .single (by simp)
    exact (h.append (h'.append helse)).congr (by simp)
  | expressionStatement e => exact (expr_clash hhead hb rfl).elim
  | ifStmt => exact (if_clash hhead nofun nofun).elim
  | _ => nomatch hhead

lemma length_le_flatMap_nameBytes (names : List Str) :
    names.length ≤ (names.flatMap nameBytes).length := by
  induction names with
  | nil => exact Nat.zero_le _
  | cons name names ih =>
    simp only [List.flatMap_cons, List.length_append, List.length_cons, nameBytes, typeBytes,
      length_wordBytes]
    omega

lemma decodes_global (names : List Str) : Decodes (.global names) := by
  refine decodes_of_headType rfl fun b nullOk _ ha hb hhead => ?_
  cases b with
  | global names' =>
    exact ((reads_type _).seq fun _ => reads_size (length_le_flatMap_nameBytes _)
        (length_le_flatMap_nameBytes _) reads_names).mono
      fun h => h.2.congr (by simp)
  | expressionStatement e => exact (expr_clash hhead hb rfl).elim
  | ifStmt => exact (if_clash hhead nofun nofun).elim
  | _ => nomatch hhead

lemma decodes_continue : Decodes (.continue) := by
  refine decodes_of_headType rfl fun b nullOk _ ha hb hhead => ?_
  cases b with
  | «continue» => exact (reads_type _).mono fun _ => agree_of_lost_nil rfl rfl rfl
  | expressionStatement e => exact (expr_clash hhead hb rfl).elim
  | ifStmt => exact (if_clash hhead nofun nofun).elim
  | _ => nomatch hhead

lemma decodes_break : Decodes (.break) := by
  refine decodes_of_headType rfl fun b nullOk _ ha hb hhead => ?_
  cases b with
  | «break» => exact (reads_type _).mono fun _ => agree_of_lost_nil rfl rfl rfl
  | expressionStatement e => exact (expr_clash hhead hb rfl).elim
  | ifStmt => exact (if_clash hhead nofun nofun).elim
  | _ => nomatch hhead

lemma decodes_pass : Decodes (.pass) := by
  refine decodes_of_headType rfl fun b nullOk hnull ha hb hhead => ?_
  cases b with
  | pass => exact (reads_type _).mono fun _ => agree_of_lost_nil rfl rfl rfl
  | nullStmt => cases hnull hb <;> contradiction
  | otherStmt => cases hb
  | expressionStatement e => exact (expr_clash hhead hb rfl).elim
  | ifStmt => exact (if_clash hhead nofun nofun).elim
  | _ => nomatch hhead

lemma decodes_functionDef {name args kwargs : Ast .expr} {arguments defaults keywords decorators : Ast .exprs}
    {body : Ast .stmt} (ihn : Decodes name) (iha : Decodes arguments) (ihd : Decodes defaults)
    (ihb : Decodes body) :
    Decodes (.functionDef name arguments defaults keywords decorators args kwargs body) := by
  refine decodes_of_headType rfl fun b nullOk _ ha hb hhead => ?_
  cases b with
  | functionDef name' arguments' defaults' keywords' decorators' args' kwargs' body' =>
    obtain ⟨hn, ha⟩ := Bool.and_eq_true_iff.mp ha
    obtain ⟨ha, hbody⟩ := Bool.and_eq_true_iff.mp ha
    obtain ⟨harguments, hdefaults⟩ := Bool.and_eq_true_iff.mp ha
    obtain ⟨hn', hb⟩ := Bool.and_eq_true_iff.mp hb
    obtain ⟨hb, hbody'⟩ := Bool.and_eq_true_iff.mp hb
    obtain ⟨harguments', hdefaults'⟩ := Bool.and_eq_true_iff.mp hb
    have hheader := (reads_type .functionStart).seq fun _ => iha.elements_seq harguments harguments'
      ((reads_type .functionStartDefaults).seq fun _ => ihd.elements_seq hdefaults hdefaults'
        (reads_type .functionStartStub))
    have hlength : Reads (sizeBytes (bytes body).length) (sizeBytes (bytes body').length) True :=
      (reads_word _ _).mono fun _ => trivial
    refine ((reads_type _).seq fun _ => (ihn.node rfl hn hn').seq fun _ => (hlength.seq fun _ =>
      hheader.seq fun _ => ihb.node rfl hbody hbody').seq fun _ => reads_type _).mono
      fun ⟨_, h, ⟨_, ⟨_, h', _, h'', _⟩, h₃⟩, _⟩ => ?_
    have hlost : Matches (plain keywords = plain keywords' ∧ plain decorators = plain decorators' ∧
        plain args = plain args' ∧ plain kwargs = plain kwargs')
        [.exprs (plain keywords), .exprs (plain decorators), .expr (plain args), .expr (plain kwargs)]
        [.exprs (plain keywords'), .exprs (plain decorators'), .expr (plain args'),
          .expr (plain kwargs')] :=
      ⟨rfl, by simp⟩
    refine (h.append (h'.append (h''.append (h₃.append hlost)))).congr ?_
    simp only [plain, Ast.functionDef.injEq]
    tauto
  | expressionStatement e => exact (expr_clash hhead hb rfl).elim
  | ifStmt => exact (if_clash hhead nofun nofun).elim
  | _ => nomatch hhead

lemma decodes_ifStmt {test : Ast .expr} {body orelse : Ast .stmt} (iht : Decodes test) (ihb : Decodes body)
    (iho : Decodes orelse) : Decodes (.ifStmt test body orelse) := by
  refine decodes_of_headType rfl fun b nullOk _ ha hb hhead => ?_
  cases b with
  | ifStmt test' body' orelse' =>
    obtain ⟨ht, ha⟩ := Bool.and_eq_true_iff.mp ha
    obtain ⟨hbody, ho⟩ := Bool.and_eq_true_iff.mp ha
    obtain ⟨ht', hb⟩ := Bool.and_eq_true_iff.mp hb
    obtain ⟨hbody', ho'⟩ := Bool.and_eq_true_iff.mp hb
    rw [headType_ifStmt, headType_ifStmt] at hhead
    rw [bytes_ifStmt, bytes_ifStmt]
    split at hhead
    · rename_i hnull
      split at hhead
      · rename_i hnull'
        rw [if_pos hnull, if_pos hnull']
        obtain rfl := eq_nullStmt_of_isNull hnull
        obtain rfl := eq_nullStmt_of_isNull hnull'
        exact ((reads_type _).seq fun _ => (iht.node rfl ht ht').seq fun _ =>
          ihb.node rfl hbody hbody').mono fun ⟨_, h, h'⟩ =>
            (h.append (h'.append Matches.nil)).congr (by simp)
      · cases hhead
    · rename_i hnull
      split at hhead
      · cases hhead
      · rename_i hnull'
        rw [if_neg hnull, if_neg hnull']
        rw [Bool.not_eq_true] at hnull hnull'
        rw [hnull, Bool.false_or] at ho
        rw [hnull', Bool.false_or] at ho'
        refine ((reads_type _).seq fun _ => (iht.node rfl ht ht').seq fun _ =>
          (ihb.node rfl hbody hbody').seq fun _ => iho.node rfl ho ho').mono fun ⟨_, h, h', h''⟩ => ?_
        unfold Agree
        rw [lost_ifStmt, lost_ifStmt, hnull, hnull']
        exact (h.append (h'.append h'')).congr (by simp)
  | expressionStatement e =>
    have hcode := isExprCode_headType hb
    exact (if_clash hhead.symm (expr_ne hb rfl) (expr_ne hb rfl)).elim
  | _ => exact (if_clash hhead.symm nofun nofun).elim

lemma decodes_docString (doc : Str) : Decodes (.docString doc) := by
  refine decodes_of_headType rfl fun b nullOk _ ha hb hhead => ?_
  cases b with
  | docString doc' =>
    exact ((reads_type _).seq fun _ => reads_string _ _).mono fun h =>
      (matches_string h.2).congr (by simp)
  | expressionStatement e =>
    cases e with
    | str value =>
      exact ((reads_type _).seq fun _ => reads_string _ _).mono fun h =>
        (matches_string h.2).congr (by simp)
    | _ => nomatch hhead
  | ifStmt => exact (if_clash hhead nofun nofun).elim
  | _ => nomatch hhead

lemma decodes_expressionStatement {e : Ast .expr} (ih : Decodes e) :
    Decodes (.expressionStatement e) := by
  refine decodes_of_headType rfl fun b nullOk _ ha hb hhead => ?_
  cases b with
  | expressionStatement e' => exact (ih.node rfl ha hb).mono fun h => h.congr (by simp)
  | docString doc =>
    cases e with
    | str value =>
      exact ((reads_type _).seq fun _ => reads_string _ _).mono fun h =>
        (matches_string h.2).congr (by simp)
    | _ => nomatch hhead
  | ifStmt => exact (if_clash hhead (expr_ne ha rfl) (expr_ne ha rfl)).elim
  | nullStmt | otherStmt => exact absurd hhead (expr_ne ha rfl)
  | _ => exact absurd hhead (expr_ne ha rfl)

/-- Every tree is unambiguous up to its lost parts. -/
theorem decodes {k : Kind} (a : Ast k) : Decodes a := by
  induction a with
  | nullExpr => exact decodes_nullExpr
  | name id => exact decodes_name id
  | str value => exact decodes_str value
  | number num => exact decodes_number num
  | «alias» name asName => exact decodes_alias name asName
  | tuple elements ih => exact decodes_tuple ih
  | list elements ih => exact decodes_list ih
  | dict items ih => exact decodes_dict ih
  | compare left comparators ihl ihc => exact decodes_compare ihl ihc
  | call function arguments keywords args kwargs ihf iha => exact decodes_call ihf iha
  | «attribute» value attr ihv iha => exact decodes_attribute ihv iha
  | unaryOp op operand ih => exact decodes_unaryOp op ih
  | boolOp op values _ => exact decodes_boolOp op values
  | binOp op left right ihl ihr => exact decodes_binOp op ihl ihr
  | subscript slice value ihs ihv => exact decodes_subscript ihs ihv
  | listComp element generators ihe ihg => exact decodes_listComp ihe ihg
  | comprehension target iter ifs iht ihi ihf => exact decodes_comprehension iht ihi ihf
  | nullSlice => exact decodes_nullSlice
  | index value ih => exact decodes_index ih
  | otherExpr | otherSlice | otherStmt => exact fun _ _ _ _ ha _ => nomatch ha
  | nullStmt => exact decodes_nullStmt
  | noExprs => exact decodes_noExprs
  | consExpr head tail ihh iht => exact decodes_consExpr ihh iht
  | noStmts => exact decodes_noStmts
  | consStmt head tail ihh iht => exact decodes_consStmt ihh iht
  | noItems => exact decodes_noItems
  | consItem key value tail ihk ihv iht => exact decodes_consItem ihk ihv iht
  | noComparisons => exact decodes_noComparisons
  | consComparison op comparator tail ihc iht => exact decodes_consComparison op ihc iht
  | suite items ih => exact decodes_suite ih
  | assign targets value iht ihv => exact decodes_assign iht ihv
  | augAssign op target value iht ihv => exact decodes_augAssign op iht ihv
  | «return» value ih => exact decodes_return ih
  | importStmt names ih => exact decodes_importStmt ih
  | importFrom module names level ihm ihn => exact decodes_importFrom level ihm ihn
  | forLoop target iter body orelse iht ihi ihb => exact decodes_forLoop orelse iht ihi ihb
  | whileLoop test body orelse iht ihb => exact decodes_whileLoop orelse iht ihb
  | global names => exact decodes_global names
  | «continue» => exact decodes_continue
  | «break» => exact decodes_break
  | pass => exact decodes_pass
  | functionDef name arguments defaults keywords decorators args kwargs body ihn iha ihd _ _ _ _ ihb => exact decodes_functionDef ihn iha ihd ihb
  | ifStmt test body orelse iht ihb iho => exact decodes_ifStmt iht ihb iho
  | docString doc => exact decodes_docString doc
  | expressionStatement e ih => exact decodes_expressionStatement ih

/-! ### Modules -/

lemma encodes_of_run {body : Ast .stmt} {code : List UInt8} (h : run body = .ok code) :
    Encodes body code := by
  unfold run at h
  split at h
  · rename_i b hb
    exact ⟨b, hb, Except.ok.inj h⟩
  · cases h

/-- `while True: pass`, with a suite behind `else`. -/
def idleLoop (orelse : Ast .stmt) : Ast .stmt :=
  .suite (.ofStmts [.whileLoop (.name (lit "True")) .pass orelse])

lemma run_idleLoop (orelse : Ast .stmt) :
    run (idleLoop orelse) = .ok (bytes (idleLoop .nullStmt)) := rfl

end ContractPython.Proofs
