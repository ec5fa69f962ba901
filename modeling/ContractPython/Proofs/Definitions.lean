import ContractPython.Proofs.Encoding
import ContractPython.Proofs.Evaluation
import ContractPython.Proofs.Scopes

/-!
# Function definitions

The encoding of a `def` is its name, the length of its body, its parameters with their defaults and
the body. The reader binds the name to a function whose code is the body, wherever the definition
stands. Only a default that is not null stops it: it is evaluated in the global scope of the
interpreter, where the top-level check allows no literal.
-/

namespace ContractPython.Proofs

open Program Compiler Scope M Bytes

/-! ### Computations that read a segment -/

/-- At the bytes `bs`, `x` returns `a` for the price of `steps` charges, and does nothing but go
past the bytes. -/
def Returns {α : Type} (x : M α) (bs : List UInt8) (steps : Nat) (a : α) : Prop :=
  ∀ s rest, Placed (bs ++ rest) s → Affords steps s →
    ∃ s', x s = .ok a s' ∧ Silent bs.length steps 0 s s'

namespace Returns

variable {α β : Type} {x : M α} {f : α → M β} {bs bs' rest : List UInt8} {steps steps' : Nat} {a : α} {b : β}
  {s : State}

lemma pure (a : α) : Returns (Pure.pure a : M α) [] 0 a :=
  fun s _ _ _ => ⟨s, rfl, ⟨by simp, List.prefix_rfl, rfl, rfl, rfl, rfl, rfl, rfl⟩⟩

/-- The state behind the segment. -/
lemma run (h : Returns x bs steps a) (steps' : Nat) (hs : Placed (bs ++ rest) s)
    (hgas : Affords (steps + steps') s) :
    ∃ s', x s = .ok a s' ∧ Silent bs.length steps 0 s s' ∧ Placed rest s' ∧ Affords steps' s' := by
  obtain ⟨s', hx, hsilent⟩ := h s rest hs (hgas.mono (by omega))
  exact ⟨s', hx, hsilent, hsilent.placed rfl hs, hsilent.affords hgas⟩

lemma bind (h : Returns x bs steps a) (f : α → M β) (h' : Returns (f a) bs' steps' b) :
    Returns (x >>= f) (bs ++ bs') (steps + steps') b := by
  intro s rest hs hgas
  rw [List.append_assoc] at hs
  obtain ⟨s₁, hx, hsilent, hs₁, hgas₁⟩ := h.run steps' hs hgas
  obtain ⟨s₂, hf, hsilent'⟩ := h' s₁ rest hs₁ hgas₁
  refine ⟨s₂, (bind_of_ok hx).trans hf, ?_⟩
  have hboth := hsilent.trans hsilent'
  rwa [← List.length_append] at hboth

lemma word (w : UInt32) : Returns readWord (wordBytes w) 0 w := by
  intro s rest hs _
  refine ⟨_, (readWord_placed hs).1, ?_⟩
  rw [length_wordBytes]
  exact .advance 4 0 s

lemma name (id : Str) : Returns readName (nameBytes id) 0 (cStr id) :=
  fun s _ hs _ => ⟨_, (readName_placed hs).1, .advance _ 0 s⟩

lemma charge : Returns M.charge [] 1 () :=
  fun s _ _ hgas => ⟨_, charge_affords hgas, .advance 0 1 s⟩

/-- `Read` of a segment that is there. -/
lemma padded (hlen : bs.length < 2 ^ 32) : Returns (readPadded (UInt32.ofNat bs.length)) bs 0 bs := by
  intro s rest hs _
  have hsegment := hs.append.1
  have hin := hsegment.inside
  have hcount : (UInt32.ofNat bs.length).toNat = bs.length := by
    simpa using Nat.mod_eq_of_lt hlen
  have htake : (s.interp.data.bytecode.drop s.interp.data.get).take bs.length = bs :=
    take_drop_of_occursAt hsegment.here
  have hread := Bitstream.read_of_occursAt hsegment.good hsegment.here (by omega)
  have hpadded : s.interp.data.readPadded bs.length =
      (bs, { s.interp.data with get := s.interp.data.get + bs.length }) := by
    unfold Bitstream.readPadded
    rw [hsegment.good, htake, hread]
    simp
  refine ⟨_, onData_of_some (by rw [hcount, hpadded]), ?_⟩
  exact ⟨by simp, List.prefix_rfl, rfl, rfl, rfl, rfl, rfl, rfl⟩

/-- A loop that collects what it reads; `acc` is the accumulator with what was collected so far. -/
lemma iterate {ι γ : Type} {step : α → M α} (acc : List γ → α) (get : ι → γ) (seg : ι → List UInt8)
    {steps : Nat} (is : List ι)
    (h : ∀ l, ∀ i ∈ is, Returns (step (acc l)) (seg i) steps (acc (l ++ [get i]))) (l : List γ) :
    Returns (iterateM is.length step (acc l)) (is.flatMap seg) (steps * is.length)
      (acc (l ++ is.map get)) := by
  induction is generalizing l with
  | nil =>
    rw [List.map_nil, List.append_nil]
    exact pure _
  | cons i is ih =>
    have htail := ih (fun l j hj => h l j (List.mem_cons_of_mem _ hj)) (l ++ [get i])
    have hboth := (h l i List.mem_cons_self).bind _ htail
    rwa [Nat.add_comm, ← Nat.mul_succ, List.append_assoc] at hboth

end Returns

/-! ### Definitions as the parser makes them -/

/-- A literal in the place of a default. -/
inductive Literal
  | integer (i : Int64)
  | string (text : Str)

namespace Literal

def ast : Literal → Ast .expr
  | .integer i => .number (.integer i)
  | .string text => .str text

def type : Literal → NodeType
  | .integer _ => .integer
  | .string _ => .string

def value : Literal → Value
  | .integer i => .integer i
  | .string text => .string text

end Literal

/-- `def name(params): body`, where the last parameters have the literals as defaults. Names are
identifiers: they are not empty and contain no NUL. -/
structure Definition where
  name : Str
  params : List Str
  literals : List Literal
  keywords : Ast .exprs
  decorators : Ast .exprs
  args : Ast .expr
  kwargs : Ast .expr
  body : Ast .stmt
  named : ∀ id ∈ name :: params, id ≠ [] ∧ cStr id = id
  trailing : literals.length ≤ params.length

namespace Definition

variable (f : Definition)

/-- How many parameters have no default. -/
def mandatory : Nat := f.params.length - f.literals.length

/-- The parser's list of defaults: a null pointer for each parameter without one. -/
def defaults : List (Ast .expr) := List.replicate f.mandatory .nullExpr ++ f.literals.map Literal.ast

def ast : Ast .stmt :=
  .functionDef (.name f.name) (.ofExprs (f.params.map .name)) (.ofExprs f.defaults) f.keywords
    f.decorators f.args f.kwargs f.body

/-- The encoding in front of the length of the body. -/
def front : List UInt8 := typeBytes .functionDef ++ nameBytes f.name

/-- The encoding between the length of the body and the end marker. -/
def back : List UInt8 :=
  typeBytes .functionStart ++ (sizeBytes f.params.length ++ (f.params.flatMap nameBytes ++
    (typeBytes .functionStartDefaults ++ (sizeBytes f.params.length ++ (f.defaults.flatMap bytes ++
      (typeBytes .functionStartStub ++ bytes f.body))))))

end Definition

/-- What the compiler writes for a definition. -/
def Definition.segment (f : Definition) : List UInt8 :=
  f.front ++ (wordBytes (UInt32.ofNat (bytes f.body).length) ++ (f.back ++ typeBytes .functionEnd))

lemma bytes_ofExprs (es : List (Ast .expr)) : bytes (.ofExprs es) = es.flatMap bytes := by
  induction es with
  | nil => rfl
  | cons e es ih => simp [Ast.ofExprs, bytes, ih]

lemma length_ofExprs (es : List (Ast .expr)) : (Ast.ofExprs es).length = es.length := by
  induction es with
  | nil => rfl
  | cons e es ih => simp [Ast.ofExprs, Ast.length, ih]

namespace Definition

variable (f : Definition)

@[simp] lemma length_defaults : f.defaults.length = f.params.length := by
  have := f.trailing
  simp only [defaults, mandatory, List.length_append, List.length_replicate, List.length_map]
  omega

lemma bytes_ast : bytes f.ast = f.segment := by
  have hparams : (f.params.map Ast.name).flatMap bytes = f.params.flatMap nameBytes := by
    rw [List.flatMap_map]
    rfl
  simp [ast, segment, front, back, bytes, bytes_ofExprs, length_ofExprs, hparams, sizeBytes]

end Definition

/-! ### The definitions in a tree -/

/-- Positions behind further bytes. -/
def behind (bs : List UInt8) (ds : List (Nat × Ast .stmt)) : List (Nat × Ast .stmt) :=
  ds.map fun d => (bs.length + d.1, d.2)

/-- The definitions in a tree, at any depth, with their positions in its encoding. -/
def definitions : {k : Kind} → Ast k → List (Nat × Ast .stmt)
  | _, .suite items => behind (typeBytes .statementList ++ sizeBytes items.length) (definitions items)
  | _, .consStmt head tail => definitions head ++ behind (bytes head) (definitions tail)
  | _, .ifStmt test body orelse =>
    behind (typeBytes .if ++ bytes test) (definitions body) ++
      if orelse.isNull then [] else
        behind (typeBytes .ifElse ++ (bytes test ++ bytes body)) (definitions orelse)
  | _, .forLoop target iter body _ =>
    behind (typeBytes .forLoop ++ (bytes target ++ bytes iter)) (definitions body)
  | _, .whileLoop test body _ => behind (typeBytes .whileLoop ++ bytes test) (definitions body)
  | _, .functionDef name arguments defaults keywords decorators args kwargs body =>
    (0, .functionDef name arguments defaults keywords decorators args kwargs body) ::
      behind (typeBytes .functionDef ++ (bytes name ++ (sizeBytes (bytes body).length ++
        (typeBytes .functionStart ++ (sizeBytes arguments.length ++ (bytes arguments ++
          (typeBytes .functionStartDefaults ++ (sizeBytes defaults.length ++ (bytes defaults ++
            typeBytes .functionStartStub))))))))) (definitions body)
  | _, _ => []

/-- Each definition stands at its position. -/
def StandIn (ds : List (Nat × Ast .stmt)) (bs : List UInt8) : Prop :=
  ∀ d ∈ ds, OccursAt (bytes d.2) bs d.1

namespace StandIn

variable {ds ds' : List (Nat × Ast .stmt)} {bs bs' : List UInt8}

lemma nil : StandIn [] bs := nofun

lemma append (h : StandIn ds bs) (h' : StandIn ds' bs) : StandIn (ds ++ ds') bs := by
  intro d hd
  obtain hd | hd := List.mem_append.mp hd
  · exact h d hd
  · exact h' d hd

/-- More bytes behind change nothing. -/
lemma before (h : StandIn ds bs) (bs' : List UInt8) : StandIn ds (bs ++ bs') := by
  intro d hd
  unfold OccursAt
  rw [List.drop_append]
  exact (h d hd).trans (List.prefix_append _ _)

lemma behind (h : StandIn ds bs) (bs' : List UInt8) : StandIn (behind bs' ds) (bs' ++ bs) := by
  intro d hd
  obtain ⟨e, he, rfl⟩ := List.mem_map.mp hd
  have hdrop : (bs' ++ bs).drop (bs'.length + e.1) = bs.drop e.1 := by
    rw [← List.drop_drop, List.drop_left]
  unfold OccursAt
  rw [hdrop]
  exact h e he

end StandIn

/-- Every definition in a tree stands in the encoding of the tree. -/
lemma standIn_definitions {k : Kind} (a : Ast k) : StandIn (definitions a) (bytes a) := by
  induction a with
  | suite items ih =>
    have hitems := ih.behind (typeBytes .statementList ++ sizeBytes items.length)
    rw [List.append_assoc] at hitems
    exact hitems
  | consStmt head tail ihh iht => exact (ihh.before _).append (iht.behind _)
  | ifStmt test body orelse iht ihb iho =>
    cases hnull : orelse.isNull with
    | true =>
      have hbody := ihb.behind (typeBytes .if ++ bytes test)
      simp only [definitions, bytes, hnull, if_true, List.append_nil]
      rwa [List.append_assoc] at hbody
    | false =>
      -- the two forms put words of the same length in front of the body
      have hbody := (ihb.behind (typeBytes .ifElse ++ bytes test)).before (bytes orelse)
      have horelse := iho.behind (typeBytes .ifElse ++ (bytes test ++ bytes body))
      simp only [List.append_assoc] at hbody horelse
      simp only [definitions, bytes, hnull, Bool.false_eq_true, if_false]
      exact hbody.append horelse
  | forLoop target iter body _ _ _ ihb =>
    have hbody := ihb.behind (typeBytes .forLoop ++ (bytes target ++ bytes iter))
    simp only [List.append_assoc] at hbody
    exact hbody
  | whileLoop test body _ _ ihb =>
    have hbody := ihb.behind (typeBytes .whileLoop ++ bytes test)
    rw [List.append_assoc] at hbody
    exact hbody
  | functionDef name arguments defaults keywords decorators args kwargs body _ _ _ _ _ _ _ ihb =>
    have hself : StandIn [(0, .functionDef name arguments defaults keywords decorators args kwargs body)]
        (bytes (.functionDef name arguments defaults keywords decorators args kwargs body)) := by
      intro d hd
      obtain rfl := List.mem_singleton.mp hd
      exact List.prefix_rfl
    have hbody := (ihb.behind (typeBytes .functionDef ++ (bytes name ++ (sizeBytes (bytes body).length ++
      (typeBytes .functionStart ++ (sizeBytes arguments.length ++ (bytes arguments ++
        (typeBytes .functionStartDefaults ++ (sizeBytes defaults.length ++ (bytes defaults ++
          typeBytes .functionStartStub)))))))))).before (typeBytes .functionEnd)
    refine hself.append ?_
    simp only [List.append_assoc] at hbody
    simp only [bytes, List.append_assoc]
    exact hbody
  | _ => exact StandIn.nil

/-! ### Patching the length -/

/-- The `FunctionDef` case up to the point where the compiler goes back to the length. -/
def unpatched (name : Ast .expr) (arguments defaults : Ast .exprs) (body : Ast .stmt) : Output Unit := do
  writeType .functionDef
  parseNext maliciousInput name
  writeWord 0
  writeType .functionStart
  writeSize arguments.length
  parseNext writePass arguments
  writeType .functionStartDefaults
  writeSize defaults.length
  parseNext writePass defaults
  writeType .functionStartStub
  parseNext maliciousInput body

section Patching

variable (f : Definition)

lemma accepted_ofExprs {nullOk : Bool} {es : List (Ast .expr)} (h : ∀ e ∈ es, accepted nullOk e = true) :
    accepted nullOk (.ofExprs es) = true := by
  induction es with
  | nil => rfl
  | cons e es ih =>
    simp only [Ast.ofExprs, accepted, Bool.and_eq_true]
    exact ⟨h e List.mem_cons_self, ih fun e' he' => h e' (List.mem_cons_of_mem _ he')⟩

/-- Names, null pointers and literals compile. -/
lemma accepted_parameters :
    accepted true (.ofExprs (f.params.map .name)) = true ∧ accepted true (.ofExprs f.defaults) = true := by
  constructor
  · refine accepted_ofExprs fun e he => ?_
    obtain ⟨id, -, rfl⟩ := List.mem_map.mp he
    rfl
  · refine accepted_ofExprs fun e he => ?_
    obtain hnull | hliteral := List.mem_append.mp he
    · rw [List.eq_of_mem_replicate hnull]
      rfl
    · obtain ⟨l, -, rfl⟩ := List.mem_map.mp hliteral
      cases l <;> rfl

/-- A definition compiles when its body does. -/
lemma accepted_ast : accepted false f.ast = accepted false f.body := by
  obtain ⟨hparams, hdefaults⟩ := accepted_parameters f
  simp only [Definition.ast, accepted, hparams, hdefaults, Bool.true_and]

lemma emits_unpatched : Emits
    (unpatched (.name f.name) (.ofExprs (f.params.map .name)) (.ofExprs f.defaults) f.body)
    (accepted false f.body) (f.front ++ (wordBytes 0 ++ f.back)) := by
  obtain ⟨hparams, hdefaults⟩ := accepted_parameters f
  have hbytes : (f.params.map Ast.name).flatMap bytes = f.params.flatMap nameBytes := by
    rw [List.flatMap_map]
    rfl
  have hemits := (Emits.type .functionDef).seq ((Emits.name f.name).seq ((Emits.word 0).seq
    ((Emits.type .functionStart).seq ((Emits.size (Ast.ofExprs (f.params.map .name)).length).seq
      ((emits_parseNext (.ofExprs (f.params.map .name)) true).seq
        ((Emits.type .functionStartDefaults).seq ((Emits.size (Ast.ofExprs f.defaults).length).seq
          ((emits_parseNext (.ofExprs f.defaults) true).seq ((Emits.type .functionStartStub).seq
            (emits_parseNext f.body false))))))))))
  simp only [hparams, hdefaults, Bool.true_and, bytes_ofExprs, hbytes, length_ofExprs, List.length_map,
    Definition.length_defaults] at hemits
  unfold Definition.front Definition.back
  rw [List.append_assoc]
  unfold unpatched
  rw [length_ofExprs, length_ofExprs, List.length_map, Definition.length_defaults]
  exact hemits

end Patching

/-! ### Reading a definition -/

section Reading

variable {n : Nat} {scope : ScopeRef} {ls : LoopState} {s : State} {rest : List UInt8}

lemma returns_parameterStep (l : List Str) (id : Str) :
    Returns (parameterStep l) (nameBytes id) 1 (l ++ [cStr id]) := by
  have hname := (Returns.name id).bind (fun arg => pure (l ++ [arg])) (Returns.pure _)
  have hboth := Returns.charge.bind (fun _ => do let arg ← readName; pure (l ++ [arg])) hname
  rw [List.append_nil, List.nil_append] at hboth
  exact hboth

/-- A null default is a `Pass`, which every scope allows. -/
lemma returns_pass (n : Nat) (scope : ScopeRef) :
    Returns (evaluate (executeNext (n + 1)) scope) (typeBytes .pass) 1 none := by
  intro s rest hs hgas
  have hpass : ∀ c, NodeType.pass ≠ .unknown c := fun _ h => NodeType.noConfusion h
  refine ⟨_, evaluate_placed hpass (.inr rfl) hs hgas rfl, ?_⟩
  exact silent_atSwitch .pass .none scope s

lemma returns_defaultStep (n : Nat) (l : List ValuePtr) :
    Returns (defaultStep (executeNext (n + 1)) (l, false)) (typeBytes .pass) 2 (l ++ [none], false) := by
  intro s rest hs hgas
  have hgas' : Affords (1 + 1) s := hgas
  obtain ⟨hcharge, hs₁, hgas₁⟩ := charge_placed hs hgas'
  obtain ⟨s₂, hpass, hsilent⟩ := returns_pass n s.interp.globalScope _ _ hs₁ hgas₁
  have hglobal : globalScope (advance 0 1 s) = .ok s.interp.globalScope (advance 0 1 s) := rfl
  refine ⟨s₂, ?_, ?_⟩
  · unfold defaultStep
    rw [bind_of_ok hcharge, bind_of_ok hglobal, bind_of_ok hpass]
    rfl
  · have hboth := (Silent.advance 0 1 s).trans hsilent
    rwa [Nat.zero_add] at hboth

/-- Parameters without defaults. -/
lemma returns_nulls (n m : Nat) :
    Returns (iterateM m (defaultStep (executeNext (n + 1))) ([], false))
      ((List.replicate m Ast.nullExpr).flatMap bytes) (2 * m) (List.replicate m none, false) := by
  have hnulls := Returns.iterate (fun l => (l, false)) (fun _ => none) bytes (List.replicate m Ast.nullExpr)
    (fun l e he => by
      obtain rfl := List.eq_of_mem_replicate he
      exact returns_defaultStep n l) []
  rwa [List.length_replicate, List.map_replicate, List.nil_append] at hnulls

/-- A marker that is there. -/
lemma expectType_placed (t : NodeType) (ht : ∀ c, t ≠ .unknown c) (hs : Placed (typeBytes t ++ rest) s) :
    (∀ message, expectType t message s = .ok () (advance 4 0 s)) ∧ Placed rest (advance 4 0 s) := by
  obtain ⟨hread, hrest⟩ := readType_placed ht hs
  refine ⟨fun message => ?_, hrest⟩
  unfold expectType
  rw [bind_of_ok hread, bne_self_eq_false]
  rfl

lemma length_typeBytes (t : NodeType) : (typeBytes t).length = 4 := length_wordBytes _

/-- The numbers in front of the vectors hold their sizes. -/
lemma toNat_ofNat_params (f : Definition) (hs : Placed (f.back ++ rest) s) :
    (UInt32.ofNat f.params.length).toNat = f.params.length ∧ (bytes f.body).length < 2 ^ 32 := by
  have hin := hs.inside
  have hsmall := hs.small
  have hcount := length_le_bytes _ (accepted_parameters f).1
  have hnames : (f.params.map Ast.name).flatMap bytes = f.params.flatMap nameBytes := by
    rw [List.flatMap_map]
    rfl
  rw [length_ofExprs, List.length_map, bytes_ofExprs, hnames] at hcount
  unfold Definition.back at hin
  simp only [List.length_append] at hin
  have hlt : f.params.length < 2 ^ 32 := by omega
  refine ⟨?_, by omega⟩
  simpa using Nat.mod_eq_of_lt hlt

/-- The stub of a definition is read up to its defaults. -/
lemma readFunctionStub_header (f : Definition) (rec : Rec) (steps : Nat)
    (hs : Placed (wordBytes (UInt32.ofNat (bytes f.body).length) ++ (f.back ++ rest)) s)
    (hgas : Affords (f.params.length + steps) s) :
    ∃ s', readFunctionStub rec s = (do
        let (defaults, _) ← iterateM f.params.length (defaultStep rec) ([], false)
        expectType .functionStartStub (lit "Stop hacking the bytecode, you pathetic little worm!")
        let stub ← readPadded (UInt32.ofNat (bytes f.body).length)
        expectType .functionEnd
          (lit "Are you kidding me, you stupid script kiddy? [wrong type order]")
        create (.vmFunction stub (f.params.map cStr) defaults)) s' ∧
      Silent (20 + (f.params.flatMap nameBytes).length) f.params.length 0 s s' ∧
      Placed (f.defaults.flatMap bytes ++ (typeBytes .functionStartStub ++ (bytes f.body ++ rest))) s' ∧
      Affords steps s' := by
  obtain ⟨h₁, hs₁⟩ := readWord_placed hs
  obtain ⟨hnum, -⟩ := toNat_ofNat_params f hs₁
  have hparams := Returns.iterate id cStr nameBytes f.params (fun l id _ => returns_parameterStep l id) []
  rw [Nat.one_mul, List.nil_append, id_eq, id_eq] at hparams
  unfold Definition.back at hs₁
  simp only [List.append_assoc] at hs₁
  obtain ⟨h₂, hs₂⟩ := expectType_placed .functionStart nofun hs₁
  obtain ⟨h₃, hs₃⟩ := readWord_placed hs₂
  have q₃ := ((Silent.advance 4 0 s).trans (.advance 4 0 _)).trans (.advance 4 0 _)
  rw [← Nat.zero_add (f.params.length + steps)] at hgas
  obtain ⟨s₄, h₄, q₄, hs₄, hgas₄⟩ := hparams.run steps hs₃ (q₃.affords hgas)
  obtain ⟨h₅, hs₅⟩ := expectType_placed .functionStartDefaults nofun hs₄
  obtain ⟨h₆, hs₆⟩ := readWord_placed hs₅
  have q₆ := (Silent.advance 4 0 s₄).trans (.advance 4 0 _)
  have hsame : (UInt32.ofNat f.params.length != UInt32.ofNat f.params.length) = false := bne_self_eq_false _
  have hno : ∀ what t, throwIf false what t = .ok () t := fun _ _ => rfl
  refine ⟨advance 4 0 (advance 4 0 s₄), ?_, ?_, hs₆, q₆.affords (hgas₄.mono (by omega))⟩
  · unfold readFunctionStub
    rw [bind_of_ok h₁, bind_of_ok (h₂ _), bind_of_ok h₃, hnum, bind_of_ok h₄, bind_of_ok (h₅ _), bind_of_ok h₆,
      hsame, hnum, bind_of_ok (hno _ _)]
  · have hall := q₃.trans (q₄.trans q₆)
    convert hall using 1
    · omega
    · omega

/-- The stub of a definition without defaults is read up to its end marker. -/
lemma readFunctionStub_placed (f : Definition) (hplain : f.literals = []) (n : Nat)
    (hs : Placed (wordBytes (UInt32.ofNat (bytes f.body).length) ++
      (f.back ++ (typeBytes .functionEnd ++ rest))) s)
    (hgas : Affords (3 * f.params.length) s) :
    ∃ s', readFunctionStub (executeNext (n + 1)) s =
        create (.vmFunction (bytes f.body) (f.params.map cStr) (List.replicate f.params.length none)) s' ∧
      Silent (4 + (f.back.length + 4)) (3 * f.params.length) 0 s s' := by
  have hdefaults : f.defaults = List.replicate f.params.length .nullExpr := by
    simp [Definition.defaults, Definition.mandatory, hplain]
  have hbody := (toNat_ofNat_params f (readWord_placed hs).2).2
  obtain ⟨s₁, h₁, q₁, hs₁, hgas₁⟩ := readFunctionStub_header f (executeNext (n + 1)) (2 * f.params.length) hs
    (hgas.mono (by omega))
  rw [hdefaults] at hs₁
  obtain ⟨s₂, h₂, q₂, hs₂, hgas₂⟩ := (returns_nulls n f.params.length).run 0 hs₁ hgas₁
  obtain ⟨h₃, hs₃⟩ := expectType_placed .functionStartStub nofun hs₂
  obtain ⟨s₄, h₄, q₄, hs₄, -⟩ := (Returns.padded hbody).run 0 hs₃
    ((Silent.advance 4 0 s₂).affords (hgas₂.mono (by omega)))
  obtain ⟨h₅, -⟩ := expectType_placed .functionEnd nofun hs₄
  refine ⟨advance 4 0 s₄, ?_, ?_⟩
  · rw [h₁, bind_of_ok h₂]
    dsimp only
    rw [bind_of_ok (h₃ _), bind_of_ok h₄, bind_of_ok (h₅ _)]
  · have hall := q₁.trans (q₂.trans ((Silent.advance 4 0 s₂).trans (q₄.trans (.advance 4 0 s₄))))
    unfold Definition.back
    simp only [List.length_append, hdefaults, length_typeBytes, sizeBytes, length_wordBytes]
    convert hall using 1
    · omega
    · omega

/-- The name of a definition is read. -/
lemma execFunctionDef_header (f : Definition) (rec : Rec) (scope : ScopeRef) (ls : LoopState) (steps : Nat)
    (hs : Placed (f.segment ++ rest) s) (hgas : Affords (1 + steps) s) :
    ∃ s', execFunctionDef rec scope (atSwitch .functionDef ls scope s) = (do
        let p ← readFunctionStub rec
        setValue scope f.name p
        pure none) s' ∧
      Silent f.front.length 1 0 s s' ∧
      Placed (wordBytes (UInt32.ofNat (bytes f.body).length) ++
        (f.back ++ (typeBytes .functionEnd ++ rest))) s' ∧
      Affords steps s' := by
  have hname : cStr f.name = f.name ∧ f.name ≠ [] := (f.named f.name List.mem_cons_self).symm
  unfold Definition.segment Definition.front at hs
  simp only [List.append_assoc] at hs
  have q₁ := silent_atSwitch .functionDef ls scope s
  have hs₁ := q₁.placed (length_typeBytes _) hs
  obtain ⟨h₂, hs₂⟩ := readName_placed hs₁
  have q₂ := q₁.trans (Silent.advance (nameBytes f.name).length 0 _)
  have hnonempty : throwIf f.name.isEmpty (lit "Function name of length zero")
      (advance (nameBytes f.name).length 0 (atSwitch .functionDef ls scope s)) = .ok () _ :=
    throwIf_eq_ok.mpr ⟨by simp [hname.2], rfl⟩
  refine ⟨_, ?_, ?_, hs₂, q₂.affords hgas⟩
  · unfold execFunctionDef
    rw [bind_of_ok h₂, hname.1, bind_of_ok hnonempty]
  · unfold Definition.front
    rw [List.length_append, length_typeBytes]
    exact q₂

/-- A definition is read up to its end marker, before the function object is made. -/
lemma execFunctionDef_placed (f : Definition) (hplain : f.literals = []) (n : Nat) (scope : ScopeRef)
    (ls : LoopState) (hs : Placed (f.segment ++ rest) s) (hgas : Affords (1 + 3 * f.params.length) s) :
    ∃ s', execFunctionDef (executeNext (n + 1)) scope (atSwitch .functionDef ls scope s) = (do
        let p ← create (.vmFunction (bytes f.body) f.params (List.replicate f.params.length none))
        setValue scope f.name p
        pure none) s' ∧ Silent f.segment.length (1 + 3 * f.params.length) 0 s s' := by
  have hparams : f.params.map cStr = f.params := by
    have hid : ∀ id ∈ f.params, cStr id = id := fun id hid => (f.named id (List.mem_cons_of_mem _ hid)).2
    rw [List.map_congr_left hid, List.map_id']
  obtain ⟨s₁, h₁, q₁, hs₁, hgas₁⟩ :=
    execFunctionDef_header f (executeNext (n + 1)) scope ls (3 * f.params.length) hs hgas
  obtain ⟨s₂, h₂, q₂⟩ := readFunctionStub_placed f hplain n hs₁ hgas₁
  rw [hparams] at h₂
  refine ⟨s₂, ?_, ?_⟩
  · rw [h₁, bind_of_eq h₂]
  · have hall := q₁.trans q₂
    unfold Definition.segment
    simp only [List.length_append, length_typeBytes, length_wordBytes]
    exact hall

/-- The node of a definition. -/
lemma executeNext_functionDef_eq (f : Definition) (n : Nat) (scope : ScopeRef) (ls : LoopState)
    (hs : Placed (f.segment ++ rest) s) (hgas : Affords 1 s) :
    executeNext (n + 1) scope ls s = (do
      let res ← keep ls (execFunctionDef (executeNext n) scope)
      epilogue s.interp.data.pos res) (atSwitch .functionDef ls scope s) := by
  have hknown : ∀ c, NodeType.functionDef ≠ .unknown c := fun _ h => NodeType.noConfusion h
  unfold Definition.segment Definition.front at hs
  simp only [List.append_assoc] at hs
  exact executeNext_placed hknown (.inr rfl) hs hgas

/-- The cursor goes past the definition, and its name is bound to the function `fn`. -/
structure Defines (f : Definition) (fn : Value) (scope : ScopeRef) (s s' : State) : Prop where
  data_eq : s'.interp.data = { s.interp.data with get := s.interp.data.get + f.segment.length }
  heap_le : s.heap <+: s'.heap
  bound : ∃ r, s'.heap[r]? = some fn ∧ s'.frames = Scope.setValue s.frames scope f.name (some r) ∧
    ∃ id ∈ scope, (frame s'.frames id).values.find? f.name = some (some r)

/-- Executing a definition without defaults, with a new object or without memory for it. -/
lemma executeNext_functionDef (f : Definition) (hplain : f.literals = []) (n : Nat)
    (hls : ls = .none ∨ ls = .normal) (hlive : Live scope s.frames) (hs : Placed (f.segment ++ rest) s)
    (hgas : Affords (1 + 3 * f.params.length) s) :
    (MemoryLeft s → ∃ s', executeNext (n + 2) scope ls s = .ok (none, ls) s' ∧
      Defines f (.vmFunction (bytes f.body) f.params (List.replicate f.params.length none)) scope s s') ∧
    (¬MemoryLeft s → ∃ e s', executeNext (n + 2) scope ls s = .error e s') := by
  obtain ⟨s₁, hexec, hsilent⟩ := execFunctionDef_placed f hplain n scope ls hs hgas
  have hnode := executeNext_functionDef_eq f (n + 1) scope ls hs (hgas.mono (by omega))
  have hleft : MemoryLeft s₁ ↔ MemoryLeft s := by
    unfold MemoryLeft
    rw [hsilent.memory_eq]
    rfl
  constructor
  · intro hmem
    have hcreate := create_of_memoryLeft (hleft.mpr hmem)
      (.vmFunction (bytes f.body) f.params (List.replicate f.params.length none))
    rw [bind_of_ok hcreate] at hexec
    have hnodeOk : keep ls (execFunctionDef (executeNext (n + 1)) scope) (atSwitch .functionDef ls scope s) =
        .ok (none, ls) _ := bind_of_ok hexec
    have hend : ∀ t, epilogue s.interp.data.pos (none, ls) t = .ok (none, ls) t := by
      obtain rfl | rfl := hls <;> exact fun _ => rfl
    obtain ⟨id, hid, -, hset⟩ := exists_setValue_eq s.frames f.name hlive.1
    refine ⟨_, (hnode.trans (bind_of_ok hnodeOk)).trans (hend _), ?_, ?_, s₁.heap.length, ?_, ?_, id, hid, ?_⟩
    · show s₁.interp.data = _
      rw [hsilent.interp_eq]
    · exact hsilent.heap_le.trans (List.prefix_append _ _)
    · exact List.getElem?_concat_length
    · show Scope.setValue s₁.frames scope f.name _ = _
      rw [hsilent.frames_eq]
    · show (frame (Scope.setValue s₁.frames scope f.name _) id).values.find? f.name = _
      rw [hsilent.frames_eq, hset, frame_bindIn_self _ _ (hlive.2 id hid)]
      exact SortedMap.find?_insert_self _ _ _
  · intro hmem
    obtain ⟨e, hcreate⟩ := create_of_not_memoryLeft (fun h => hmem (hleft.mp h))
      (.vmFunction (bytes f.body) f.params (List.replicate f.params.length none))
    rw [bind_of_error hcreate] at hexec
    have hnodeError : keep ls (execFunctionDef (executeNext (n + 1)) scope)
        (atSwitch .functionDef ls scope s) = .error e _ := bind_of_error hexec
    exact ⟨e, _, hnode.trans (bind_of_error hnodeError)⟩

end Reading

/-! ### The round trip -/

/-- What becomes of a definition without defaults that stands at position `pos` of a bytecode. -/
structure RoundTrips (f : Definition) (code : List UInt8) (pos : Nat) : Prop where
  encodes_body : Encodes f.body (bytes f.body)
  stands : OccursAt f.segment code pos
  /-- The length field holds the length. -/
  length_eq : (UInt32.ofNat (bytes f.body).length).toNat = (bytes f.body).length
  /-- Wherever the compiler comes to the definition, it overwrites the zero it wrote for the length. -/
  patches : ∀ b, AtEnd b → b.bytecode.length + f.segment.length < 2 ^ 32 → ∃ b₁ b₂,
    unpatched (.name f.name) (.ofExprs (f.params.map .name)) (.ofExprs f.defaults) f.body b = .ok () b₁ ∧
    parseNext maliciousInput f.ast b = .ok () b₂ ∧
    b₁.bytecode = b.bytecode ++ (f.front ++ (wordBytes 0 ++ f.back)) ∧
    b₂.bytecode = b.bytecode ++ (f.front ++ (wordBytes (UInt32.ofNat (bytes f.body).length) ++
      (f.back ++ typeBytes .functionEnd)))
  /-- Wherever the interpreter comes to the definition, it binds the function. -/
  executes : ∀ n scope ls s rest, ls = .none ∨ ls = .normal → Live scope s.frames →
    Placed (f.segment ++ rest) s → Affords (1 + 3 * f.params.length) s → MemoryLeft s →
    ∃ s', executeNext (n + 2) scope ls s = .ok (none, ls) s' ∧
      Defines f (.vmFunction (bytes f.body) f.params (List.replicate f.params.length none)) scope s s'

/-- A body that compiles below 4 GiB. -/
lemma roundTrips_of_stands {f : Definition} {code : List UInt8} {pos : Nat} (hplain : f.literals = [])
    (hbody : accepted false f.body = true) (hstands : OccursAt f.segment code pos)
    (hlen : (bytes f.body).length < 2 ^ 32) : RoundTrips f code pos where
  encodes_body := (encodes_iff f.body _ hlen).mpr ⟨hbody, rfl⟩
  stands := hstands
  length_eq := by simpa using Nat.mod_eq_of_lt hlen
  patches b hb hsmall := by
    have hunpatched := emits_unpatched f b hb
    have hparse := emits_parseNext f.ast false b hb
    rw [accepted_ast] at hparse
    rw [hbody] at hunpatched hparse
    obtain ⟨b₁, hrun₁, -, -, hb₁⟩ := hunpatched
    obtain ⟨b₂, hrun₂, -, -, hb₂⟩ := hparse
    rw [f.bytes_ast] at hb₂
    have hle : (f.front ++ (wordBytes 0 ++ f.back)).length ≤ f.segment.length := by
      simp [Definition.segment]
    rw [hb₁ (by omega)] at hrun₁
    rw [hb₂ hsmall] at hrun₂
    exact ⟨_, _, hrun₁, hrun₂, rfl, rfl⟩
  executes n scope ls s rest hls hlive hs hgas hmem :=
    (executeNext_functionDef f hplain n hls hlive hs hgas).1 hmem

/-- The definitions in an accepted tree are accepted. -/
lemma accepted_of_definitions {k : Kind} {a : Ast k} {nullOk : Bool} (h : accepted nullOk a = true)
    {d : Nat × Ast .stmt} (hd : d ∈ definitions a) : accepted false d.2 = true := by
  have moved {bs : List UInt8} {ds : List (Nat × Ast .stmt)} (hds : ∀ e ∈ ds, accepted false e.2 = true) :
      ∀ e ∈ behind bs ds, accepted false e.2 = true := by
    intro e he
    obtain ⟨e', he', rfl⟩ := List.mem_map.mp he
    exact hds e' he'
  induction a generalizing nullOk d with
  | suite items ih => exact moved (fun e he => ih h he) d hd
  | consStmt head tail ihh iht =>
    simp only [accepted, Bool.and_eq_true] at h
    obtain hd | hd := List.mem_append.mp hd
    · exact ihh h.1 hd
    · exact moved (fun e he => iht h.2 he) d hd
  | ifStmt test body orelse _ ihb iho =>
    simp only [accepted, Bool.and_eq_true, Bool.or_eq_true] at h
    obtain ⟨-, hbody, horelse⟩ := h
    obtain hd | hd := List.mem_append.mp hd
    · exact moved (fun e he => ihb hbody he) d hd
    · split at hd
      · cases hd
      · rename_i hnull
        exact moved (fun e he => iho (horelse.resolve_left hnull) he) d hd
  | forLoop target iter body _ _ _ ihb =>
    simp only [accepted, Bool.and_eq_true] at h
    exact moved (fun e he => ihb h.2.2 he) d hd
  | whileLoop test body _ _ ihb =>
    simp only [accepted, Bool.and_eq_true] at h
    exact moved (fun e he => ihb h.2 he) d hd
  | functionDef name arguments defaults keywords decorators args kwargs body _ _ _ _ _ _ _ ihb =>
    obtain rfl | hd := List.mem_cons.mp hd
    · exact h
    · simp only [accepted, Bool.and_eq_true] at h
      exact moved (fun e he => ihb h.2.2 he) d hd
  | _ => cases hd

/-- A definition without defaults at any depth of a program makes its round trip. -/
theorem functionDef_roundTrips {k : Kind} {root : Ast k} {code : List UInt8} (hcode : Encodes root code)
    (hsmall : code.length < 2 ^ 32) {f : Definition} (hplain : f.literals = []) {pos : Nat}
    (hf : (pos, f.ast) ∈ definitions root) : RoundTrips f code pos := by
  obtain ⟨haccepted, rfl⟩ := (encodes_iff root code hsmall).mp hcode
  have hstands := standIn_definitions root _ hf
  have hbody := accepted_of_definitions haccepted hf
  rw [accepted_ast] at hbody
  rw [f.bytes_ast] at hstands
  refine roundTrips_of_stands hplain hbody hstands ?_
  have hne : f.segment ≠ [] := by simp [Definition.segment, Definition.front, typeBytes, wordBytes, encodeBE]
  have hle := length_le_of_occursAt hstands hne
  simp only [Definition.segment, Definition.back, List.length_append] at hle
  omega

/-- `def inner(b, c): pass`. -/
def innerDef : Definition where
  name := lit "inner"
  params := [lit "b", lit "c"]
  literals := []
  keywords := .noExprs
  decorators := .noExprs
  args := .nullExpr
  kwargs := .nullExpr
  body := .pass
  named := by decide
  trailing := by decide

/-- `def outer(): ` around the definition. -/
def outerDef : Ast .stmt := defStmt "outer" [innerDef.ast]

theorem functionDef_roundTrips_inner : RoundTrips innerDef (bytes outerDef) 49 := by
  have hsmall : (bytes outerDef).length < 2 ^ 32 := by decide +kernel
  have hcode : Encodes outerDef (bytes outerDef) := (encodes_iff _ _ hsmall).mpr ⟨rfl, rfl⟩
  have hstmts : (0, innerDef.ast) ∈ definitions (.ofStmts [innerDef.ast]) := .head _
  have hsuite : (8, innerDef.ast) ∈ definitions (.suite (.ofStmts [innerDef.ast])) :=
    List.mem_map.mpr ⟨_, hstmts, rfl⟩
  have hinner : (49, innerDef.ast) ∈ definitions outerDef := .tail _ (List.mem_map.mpr ⟨_, hsuite, rfl⟩)
  exact functionDef_roundTrips hcode hsmall rfl hinner

/-- The same with a doc string of 4 GiB as its body. -/
def hugeDef : Definition := { innerDef with body := .docString (List.replicate (2 ^ 32) 97) }

lemma length_hugeDef : (bytes hugeDef.body).length = 8 + 2 ^ 32 := by
  have hstr : cStr (List.replicate (2 ^ 32) 97) = List.replicate (2 ^ 32) 97 := by
    unfold cStr
    rw [List.takeWhile_replicate]
    rfl
  show (typeBytes .string ++ stringBytes (cStr (List.replicate (2 ^ 32) 97))).length = _
  rw [hstr, List.length_append, length_stringBytes, List.length_replicate, typeBytes, length_wordBytes,
    ← Nat.add_assoc]

/-- An interpreter about to run `code` with a memory manager that refuses every request. -/
def memoryless (code : List UInt8) : State := { startState code 100 with memory := ⟨fun _ => false, 0⟩ }

/-- A body of 4 GiB compiles, but no length field holds its length; and without memory for the
function a definition throws. -/
theorem functionDef_roundTrips_huge_false :
    (∃ b, parseNext maliciousInput hugeDef.ast (Bitstream.ofBytes []) = .ok () b) ∧
    (∃ b, parseNext maliciousInput hugeDef.body (Bitstream.ofBytes []) = .ok () b ∧
      ∀ w : UInt32, w.toNat ≠ b.bytecode.length) ∧
    ∃ e s', executeNext 2 [0] .none (memoryless innerDef.segment) = .error e s' := by
  have hempty : AtEnd (Bitstream.ofBytes []) := ⟨rfl, rfl⟩
  refine ⟨?_, ?_, ?_⟩
  · obtain ⟨b, hb, -⟩ := emits_parseNext hugeDef.ast false _ hempty
    exact ⟨b, hb⟩
  · obtain ⟨b, hb, -, hlen, -⟩ := emits_parseNext hugeDef.body false _ hempty
    refine ⟨b, hb, fun w hw => ?_⟩
    have hlt := w.toNat_lt
    rw [length_hugeDef] at hlen
    simp only [Bitstream.ofBytes, List.length_nil] at hlen
    omega
  · have hlive : Live [0] (memoryless innerDef.segment).frames := ⟨List.cons_ne_nil _ _, by decide⟩
    have hsmall : innerDef.segment.length < 2 ^ 32 := by decide +kernel
    obtain ⟨hgood, hhere, hinside, -⟩ := placed_startState innerDef.segment 100 hsmall
    have hplaced : Placed (innerDef.segment ++ []) (memoryless innerDef.segment) := by
      rw [List.append_nil]
      exact ⟨hgood, hhere, hinside, hsmall⟩
    have hgas : Affords (1 + 3 * innerDef.params.length) (memoryless innerDef.segment) := .inr (by decide)
    have hrun := executeNext_functionDef innerDef rfl 0 (.inl rfl) hlive hplaced hgas
    exact hrun.2 fun h => by cases h

end ContractPython.Proofs
