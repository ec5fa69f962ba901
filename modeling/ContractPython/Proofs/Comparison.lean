import ContractPython.Proofs.Evaluation

/-!
# Comparisons of plain values

The operators of a `Compare` node are `operator==`, `operator>` and `operator>=` on two objects, each
with a case of its own for `None`, and `List::contains`. The laws between them hold except for
strings, which have no order, and for bools, which are never equal.
-/

namespace ContractPython.Proofs

open Program M

/-- The values that comparisons are about. -/
inductive Plain
  | none
  | bool (b : Bool)
  | integer (i : Int64)
  | string (text : Str)
  deriving DecidableEq

namespace Plain

/-- What an object is as a plain value. -/
def ofValue : Value → Option Plain
  | .bool b => some (.bool b)
  | .integer i => some (.integer i)
  | .string text => some (.string text)
  | _ => Option.none

/-- What a pointer shows as a plain value. -/
def at? (heap : List Value) : ValuePtr → Option Plain
  | Option.none => some .none
  | some r => heap[r]?.bind ofValue

def isString : Plain → Bool
  | string _ => true
  | _ => false

def isBool : Plain → Bool
  | bool _ => true
  | _ => false

/-- Two values of a type with an order. -/
def ordered : Plain → Plain → Bool
  | integer _, integer _ => true
  | string _, string _ => true
  | _, _ => false

/-- `operator==`, with `None` equal to itself: bools are missing. -/
def equals : Plain → Plain → Bool
  | none, none => true
  | integer i, integer j => i == j
  | string text, string text' => text == text'
  | _, _ => false

/-- `operator>`. -/
def more : Plain → Plain → Bool
  | integer i, integer j => i > j
  | _, _ => false

/-- `operator>=`, with `None` against itself: strings are missing. -/
def moreEqual : Plain → Plain → Bool
  | none, none => true
  | integer i, integer j => i ≥ j
  | _, _ => false

/-- The operators of a `Compare` node that compare two values. -/
def compare : CompareOpType → Plain → Plain → Option Bool
  | .equals, a, b => some (equals a b)
  | .notEqual, a, b => some !(equals a b)
  | .less, a, b => some (more b a)
  | .lessEqual, a, b => some (moreEqual b a)
  | .more, a, b => some (more a b)
  | .moreEqual, a, b => some (moreEqual a b)
  | _, _, _ => Option.none

end Plain

variable {s : State} {p q : ValuePtr} {a b : Plain}

lemma ofValue_ne_none {v : Value} (h : Plain.ofValue v = some a) : a ≠ .none := by
  cases v <;> cases h <;> simp

/-- A test of two objects, and what stands for it when one is missing, as a function of the values. -/
lemma compareWith_eq (test : Value → Value → Bool) (onNull : Bool → Bool) (verdict : Plain → Plain → Bool)
    (htest : ∀ v v' a b, Plain.ofValue v = some a → Plain.ofValue v' = some b → test v v' = verdict a b)
    (hboth : onNull true = verdict .none .none)
    (hone : ∀ a, a ≠ .none → onNull false = verdict .none a ∧ onNull false = verdict a .none)
    (ha : Plain.at? s.heap p = some a) (hb : Plain.at? s.heap q = some b) :
    compareWith test onNull p q s = .ok (verdict a b) s := by
  cases p with
  | none =>
    cases ha
    cases q with
    | none =>
      cases hb
      rw [← hboth]
      rfl
    | some r' =>
      obtain ⟨v', -, hb⟩ := Option.bind_eq_some_iff.mp hb
      rw [← (hone b (ofValue_ne_none hb)).1]
      rfl
  | some r =>
    obtain ⟨v, hv, ha⟩ := Option.bind_eq_some_iff.mp ha
    cases q with
    | none =>
      cases hb
      rw [← (hone a (ofValue_ne_none ha)).2]
      rfl
    | some r' =>
      obtain ⟨v', hv', hb⟩ := Option.bind_eq_some_iff.mp hb
      rw [← htest v v' a b ha hb]
      simp only [compareWith]
      rw [bind_of_ok (load_of_heap hv), bind_of_ok (load_of_heap hv')]
      rfl

lemma equals_eq {v v' : Value} (ha : Plain.ofValue v = some a) (hb : Plain.ofValue v' = some b) :
    v.equals v' = Plain.equals a b := by
  cases v <;> cases ha <;> cases v' <;> cases hb <;> rfl

lemma greater_eq {v v' : Value} (ha : Plain.ofValue v = some a) (hb : Plain.ofValue v' = some b) :
    v.greater v' = Plain.more a b := by
  cases v <;> cases ha <;> cases v' <;> cases hb <;> rfl

lemma greaterEqual_eq {v v' : Value} (ha : Plain.ofValue v = some a) (hb : Plain.ofValue v' = some b) :
    v.greaterEqual v' = Plain.moreEqual a b := by
  cases v <;> cases ha <;> cases v' <;> cases hb <;> rfl

/-- A comparison of two plain values gives its verdict and changes nothing. -/
lemma compareOp_eq {op : CompareOpType} {verdict : Bool} (ha : Plain.at? s.heap p = some a)
    (hb : Plain.at? s.heap q = some b) (hop : Plain.compare op a b = some verdict) :
    compareOp op p q s = .ok verdict s := by
  cases op with
  | equals =>
    cases hop
    refine compareWith_eq _ _ Plain.equals (fun _ _ _ _ ha hb => equals_eq ha hb) rfl (fun a hne => ?_) ha hb
    cases a <;> simp_all [Plain.equals]
  | notEqual =>
    cases hop
    refine compareWith_eq _ _ (fun a b => !Plain.equals a b)
      (fun _ _ _ _ ha hb => by rw [equals_eq ha hb]) rfl (fun a hne => ?_) ha hb
    cases a <;> simp_all [Plain.equals]
  | less =>
    cases hop
    refine compareWith_eq _ (fun _ => false) (fun a b => Plain.more b a) (fun _ _ _ _ ha hb => greater_eq hb ha) rfl
      (fun a hne => ?_) ha hb
    cases a <;> simp [Plain.more]
  | lessEqual =>
    cases hop
    refine compareWith_eq _ _ (fun a b => Plain.moreEqual b a)
      (fun _ _ _ _ ha hb => greaterEqual_eq hb ha) rfl (fun a hne => ?_) ha hb
    cases a <;> simp_all [Plain.moreEqual]
  | more =>
    cases hop
    refine compareWith_eq _ (fun _ => false) Plain.more (fun _ _ _ _ ha hb => greater_eq ha hb) rfl
      (fun a hne => ?_) ha hb
    cases a <;> simp [Plain.more]
  | moreEqual =>
    cases hop
    refine compareWith_eq _ _ Plain.moreEqual (fun _ _ _ _ ha hb => greaterEqual_eq ha hb) rfl
      (fun a hne => ?_) ha hb
    cases a <;> simp_all [Plain.moreEqual]
  | _ => cases hop

/-! ### The laws -/

/-- The comparison yields true. -/
def Holds (op : CompareOpType) (p q : ValuePtr) (s : State) : Prop := compareOp op p q s = .ok true s

lemma holds_iff {op : CompareOpType} {verdict : Bool} (ha : Plain.at? s.heap p = some a)
    (hb : Plain.at? s.heap q = some b) (hop : Plain.compare op a b = some verdict) :
    Holds op p q s ↔ verdict = true := by
  unfold Holds
  rw [compareOp_eq ha hb hop]
  simp

/-- The operators agree with each other on two values. -/
structure Coherent (s : State) (p q : ValuePtr) (a b : Plain) : Prop where
  equals : Holds .equals p q s ↔ a = b
  notEqual : Holds .notEqual p q s ↔ ¬Holds .equals p q s
  lessEqual : Holds .lessEqual p q s ↔ Holds .less p q s ∨ Holds .equals p q s
  moreEqual : Holds .moreEqual p q s ↔ Holds .lessEqual q p s
  order : Plain.ordered a b = true →
    (Holds .less p q s ∧ ¬Holds .equals p q s ∧ ¬Holds .more p q s) ∨
    (¬Holds .less p q s ∧ Holds .equals p q s ∧ ¬Holds .more p q s) ∨
    (¬Holds .less p q s ∧ ¬Holds .equals p q s ∧ Holds .more p q s)

/-- They do unless the values are two strings or twice the same bool. -/
lemma coherent_iff (ha : Plain.at? s.heap p = some a) (hb : Plain.at? s.heap q = some b) :
    Coherent s p q a b ↔
      ¬(a.isString = true ∧ b.isString = true) ∧ ¬(a.isBool = true ∧ a = b) := by
  have hequals : Holds .equals p q s ↔ Plain.equals a b = true := holds_iff ha hb rfl
  have hnotEqual : Holds .notEqual p q s ↔ (!Plain.equals a b) = true := holds_iff ha hb rfl
  have hless : Holds .less p q s ↔ Plain.more b a = true := holds_iff ha hb rfl
  have hlessEqual : Holds .lessEqual p q s ↔ Plain.moreEqual b a = true := holds_iff ha hb rfl
  have hmore : Holds .more p q s ↔ Plain.more a b = true := holds_iff ha hb rfl
  have hmoreEqual : Holds .moreEqual p q s ↔ Plain.moreEqual a b = true := holds_iff ha hb rfl
  have hswapped : Holds .lessEqual q p s ↔ Plain.moreEqual a b = true := holds_iff hb ha rfl
  constructor
  · intro h
    obtain ⟨hequal, -, hle, -, horder⟩ := h
    rw [hequals] at hequal
    rw [hlessEqual, hless, hequals] at hle
    rw [hless, hequals, hmore] at horder
    refine ⟨fun ⟨hsa, hsb⟩ => ?_, fun ⟨hbool, heq⟩ => ?_⟩
    · cases a <;> cases hsa
      cases b <;> cases hsb
      simp [Plain.moreEqual, Plain.more, Plain.equals, Plain.ordered] at hle horder
      exact hle horder
    · subst heq
      cases a <;> cases hbool
      simp [Plain.equals] at hequal
  · rintro ⟨hstrings, hbools⟩
    constructor
    · rw [hequals]
      cases a <;> cases b <;> simp_all [Plain.equals, Plain.isBool]
    · rw [hnotEqual, hequals]
      simp
    · rw [hlessEqual, hless, hequals]
      cases a <;> cases b <;> simp_all [Plain.equals, Plain.moreEqual, Plain.more, Plain.isString]
      exact Int64.le_iff_lt_or_eq
    · rw [hmoreEqual, hswapped]
    · rw [hless, hequals, hmore]
      cases a <;> cases b <;> simp_all [Plain.equals, Plain.more, Plain.ordered, Plain.isString]
      rw [Int64.lt_iff_toInt_lt, Int64.lt_iff_toInt_lt, Int64.le_iff_toInt_le, Int64.le_iff_toInt_le,
        ← Int64.toInt_inj]
      omega

/-! ### Membership -/

/-- `x in l` tells whether some element is equal to `x`. -/
def DecidesMembership (s : State) (p : ValuePtr) (r : Ref) (l : List ValuePtr) : Prop :=
  ∃ found, compareOp .in p (some r) s = .ok found s ∧
    (found = true ↔ ∃ e ∈ l, Holds .equals e p s)

/-- From the front of the list, no `None` comes before an element equal to `p`. -/
def NoneBehind (s : State) (p : ValuePtr) : List ValuePtr → Prop
  | [] => True
  | e :: rest => e ≠ none ∧ (Holds .equals e p s ∨ NoneBehind s p rest)

/-- The scan ends at the first element equal to the object, and throws at a `None`. -/
lemma listContains_run {c : Ref} {v : Value} (hc : s.heap[c]? = some v) (hv : Plain.ofValue v = some a) :
    ∀ l : List ValuePtr, (∀ e ∈ l, (Plain.at? s.heap e).isSome = true) →
      (NoneBehind s (some c) l → ∃ found, listContains v l s = .ok found s ∧
        (found = true ↔ ∃ e ∈ l, Holds .equals e (some c) s)) ∧
      (¬NoneBehind s (some c) l → ∃ e, listContains v l s = .error e s) := by
  have ha : Plain.at? s.heap (some c) = some a := by simp [Plain.at?, hc, hv]
  intro l hplain
  induction l with
  | nil =>
    refine ⟨fun _ => ⟨false, rfl, ?_⟩, fun h => absurd trivial h⟩
    simp
  | cons e rest ih =>
    obtain ⟨ihfound, iherror⟩ := ih fun e he => hplain e (List.mem_cons_of_mem _ he)
    cases e with
    | none =>
      refine ⟨fun h => absurd rfl h.1, fun _ => ⟨_, rfl⟩⟩
    | some r =>
      obtain ⟨b, hb⟩ := Option.isSome_iff_exists.mp (hplain _ List.mem_cons_self)
      obtain ⟨w, hw, hwb⟩ := Option.bind_eq_some_iff.mp hb
      have hholds : Holds .equals (some r) (some c) s ↔ w.equals v = true := by
        rw [holds_iff hb ha rfl, equals_eq hwb hv]
      have hrun : listContains v (some r :: rest) s =
          (if w.equals v = true then pure true else listContains v rest) s :=
        bind_of_ok (f := fun w : Value => if w.equals v = true then pure true else listContains v rest)
          (load_of_heap hw)
      rw [hrun]
      by_cases hequal : w.equals v = true
      · rw [if_pos hequal]
        refine ⟨fun _ => ⟨true, rfl, ?_⟩, fun h => absurd ⟨nofun, .inl (hholds.mpr hequal)⟩ h⟩
        simp [hholds, hequal]
      · rw [if_neg hequal]
        have hbehind : NoneBehind s (some c) (some r :: rest) ↔ NoneBehind s (some c) rest := by
          simp [NoneBehind, hholds, hequal]
        rw [hbehind]
        refine ⟨fun h => ?_, iherror⟩
        obtain ⟨found, hok, hfound⟩ := ihfound h
        refine ⟨found, hok, hfound.trans ?_⟩
        simp [hholds, hequal]

lemma decidesMembership_iff {r : Ref} {l : List ValuePtr} (hr : s.heap[r]? = some (.list l))
    (ha : Plain.at? s.heap p = some a) (hplain : ∀ e ∈ l, (Plain.at? s.heap e).isSome = true) :
    DecidesMembership s p r l ↔ p ≠ none ∧ NoneBehind s p l := by
  have hlist : containedIn p (some r) s = (do
      let c ← assertGeneric p
      listContains (← load c) l) s := bind_of_ok (load_of_heap hr)
  unfold DecidesMembership
  simp only [compareOp]
  rw [hlist]
  cases p with
  | none =>
    constructor
    · rintro ⟨found, hok, -⟩
      cases hok
    · rintro ⟨hne, -⟩
      exact absurd rfl hne
  | some c =>
    obtain ⟨v, hc, hv⟩ := Option.bind_eq_some_iff.mp ha
    have hscan : (do
        let c ← assertGeneric (some c)
        listContains (← load c) l : M Bool) s = listContains v l s := bind_of_ok (load_of_heap hc)
    rw [hscan]
    obtain ⟨hfound, herror⟩ := listContains_run hc hv l hplain
    constructor
    · rintro ⟨found, hok, -⟩
      refine ⟨nofun, ?_⟩
      by_contra hnot
      obtain ⟨e, herr⟩ := herror hnot
      cases hok.symm.trans herr
    · rintro ⟨-, hbehind⟩
      exact hfound hbehind

/-- Equality is symmetric and transitive, and reflexive but for bools; the operators agree with each
other but on two strings and on twice the same bool; and `in` is about equality but for `None`. -/
theorem comparisons_coherent_iff (s : State) :
    (∀ p a, Plain.at? s.heap p = some a → (Holds .equals p p s ↔ a.isBool = false)) ∧
    (∀ p q a b, Plain.at? s.heap p = some a → Plain.at? s.heap q = some b →
      Holds .equals p q s → Holds .equals q p s) ∧
    (∀ p q r a b c, Plain.at? s.heap p = some a → Plain.at? s.heap q = some b →
      Plain.at? s.heap r = some c → Holds .equals p q s → Holds .equals q r s → Holds .equals p r s) ∧
    (∀ p q a b, Plain.at? s.heap p = some a → Plain.at? s.heap q = some b →
      (Coherent s p q a b ↔
        ¬(a.isString = true ∧ b.isString = true) ∧ ¬(a.isBool = true ∧ a = b))) ∧
    (∀ p a r l, Plain.at? s.heap p = some a → s.heap[r]? = some (.list l) →
      (∀ e ∈ l, (Plain.at? s.heap e).isSome = true) →
      (DecidesMembership s p r l ↔ p ≠ none ∧ NoneBehind s p l)) := by
  have hequals : ∀ {p q a b}, Plain.at? s.heap p = some a → Plain.at? s.heap q = some b →
      (Holds .equals p q s ↔ a = b ∧ a.isBool = false) := by
    intro p q a b ha hb
    rw [holds_iff ha hb rfl]
    cases a <;> cases b <;> simp [Plain.equals, Plain.isBool]
  refine ⟨fun p a ha => ?_, fun p q a b ha hb hpq => ?_, fun p q r a b c ha hb hc hpq hqr => ?_,
    fun p q a b ha hb => coherent_iff ha hb, fun p a r l ha hr hplain => decidesMembership_iff hr ha hplain⟩
  · rw [hequals ha ha]
    simp
  · obtain ⟨rfl, hbool⟩ := (hequals ha hb).mp hpq
    exact (hequals hb ha).mpr ⟨rfl, hbool⟩
  · obtain ⟨rfl, hbool⟩ := (hequals ha hb).mp hpq
    obtain ⟨rfl, -⟩ := (hequals hb hc).mp hqr
    exact (hequals ha hc).mpr ⟨rfl, hbool⟩

/-- Two strings at 0 and 1. -/
def twoStrings : State := { startState [] 0 with heap := [.string (lit "a"), .string (lit "b")] }

/-- None of `'a' < 'b'`, `'a' == 'b'` and `'a' > 'b'` holds. -/
theorem comparisons_twoStrings_false :
    ¬∀ s p q a b, Plain.at? s.heap p = some a → Plain.at? s.heap q = some b → Coherent s p q a b := by
  intro h
  have hlaws := h twoStrings (some 0) (some 1) (.string (lit "a")) (.string (lit "b")) rfl rfl
  obtain hless | hequal | hmore := hlaws.order rfl
  · cases hless.1
  · cases hequal.2.1
  · cases hmore.2.2

theorem comparisons_integers : Coherent { startState [] 0 with heap := [.integer 1, .integer 2] }
    (some 0) (some 1) (.integer 1) (.integer 2) :=
  ((comparisons_coherent_iff _).2.2.2.1 (some 0) (some 1) _ _ rfl rfl).mpr (by decide)

/-! ### Chains -/

/-- The operators on two integers. -/
def integerOps : List CompareOpType := [.equals, .notEqual, .less, .lessEqual, .more, .moreEqual]

/-- The verdict on two integers. -/
def compareIntegers (op : CompareOpType) (v w : Int64) : Bool :=
  (Plain.compare op (.integer v) (.integer w)).getD false

/-- `v op₁ v₁ op₂ v₂ ...` as the conjunction of its comparisons. -/
def conjunction (v : Int64) : List (CompareOpType × Int64) → Bool
  | [] => true
  | (op, w) :: rest => compareIntegers op v w && conjunction w rest

/-- What the loop of a `Compare` node does with the value so far. -/
def chainStep (current : Plain) (comparison : CompareOpType × Int64) : Plain :=
  .bool ((Plain.compare comparison.1 current (.integer comparison.2)).getD false)

/-- The operands of a chain evaluate to integers without side effects. -/
inductive Operands (rec : Rec) (scope : ScopeRef) (s₀ : State) :
    Ast .comparisons → List (CompareOpType × Int64) → Nat → Nat → Prop
  | none : Operands rec scope s₀ .noComparisons [] 0 0
  | cons {op : CompareOpType} {e : Ast .expr} {tail : Ast .comparisons} {v : Int64}
      {l : List (CompareOpType × Int64)} {steps requests steps' requests' : Nat} (hop : op ∈ integerOps)
      (he : EvaluatesTo rec scope s₀ (bytes e) steps requests (.integer v))
      (htail : Operands rec scope s₀ tail l steps' requests') :
      Operands rec scope s₀ (.consComparison op e tail) ((op, v) :: l)
        (1 + steps + steps') (requests + 1 + requests')

lemma compare_integerOp {op : CompareOpType} (hop : op ∈ integerOps) (a b : Plain) :
    ∃ verdict, Plain.compare op a b = some verdict := by
  simp only [integerOps, List.mem_cons, List.not_mem_nil, or_false] at hop
  rcases hop with rfl | rfl | rfl | rfl | rfl | rfl <;> exact ⟨_, rfl⟩

lemma ofCode_integerOp {op : CompareOpType} (hop : op ∈ integerOps) :
    CompareOpType.ofCode op.code = op := by
  simp only [integerOps, List.mem_cons, List.not_mem_nil, or_false] at hop
  rcases hop with rfl | rfl | rfl | rfl | rfl | rfl <;> rfl

section Run

variable {rec : Rec} {scope : ScopeRef} {s₀ : State} {rest : List UInt8}

/-- A plain object stays what it is. -/
lemma Silent.at?_eq {len steps requests : Nat} {s s' : State} (h : Silent len steps requests s s')
    {p : ValuePtr} {a : Plain} (hp : Plain.at? s.heap p = some a) : Plain.at? s'.heap p = some a := by
  cases p with
  | none => exact hp
  | some r =>
    obtain ⟨v, hv, ha⟩ := Option.bind_eq_some_iff.mp hp
    exact Option.bind_eq_some_iff.mpr ⟨v, h.heap_eq hv, ha⟩

/-- One comparison of the chain. -/
lemma compareStep_placed {op : CompareOpType} {e : Ast .expr} {v : Int64} {steps requests : Nat}
    {current : ValuePtr} {a : Plain} (hop : op ∈ integerOps)
    (he : EvaluatesTo rec scope s₀ (bytes e) steps requests (.integer v)) {s : State}
    (hframes : s.frames = s₀.frames) (hheap : s₀.heap <+: s.heap)
    (hcurrent : Plain.at? s.heap current = some a)
    (hs : Placed (wordBytes op.code ++ (bytes e ++ rest)) s) (hgas : Affords (1 + steps) s)
    (hmem : Grants (requests + 1) s) :
    ∃ p s', compareStep rec scope current s = .ok p s' ∧
      Plain.at? s'.heap p = some (chainStep a (op, v)) ∧
      Silent (4 + (bytes e).length) (1 + steps) (requests + 1) s s' := by
  obtain ⟨hcharge, hplaced, hgas'⟩ := charge_placed hs hgas
  obtain ⟨hword, hplaced⟩ := readWord_placed hplaced
  rw [advance_advance] at hword hplaced
  have hsilent : Silent 4 1 0 s (advance (0 + 4) (1 + 0) s) := .advance 4 1 s
  obtain ⟨r, s', heval, hr, hsilent'⟩ := he (advance (0 + 4) (1 + 0) s) rest hframes hheap hplaced
    (hsilent.affords hgas) (hsilent.grants (by simpa using hmem.mono (by omega)))
  have hboth := hsilent.trans hsilent'
  obtain ⟨verdict, hverdict⟩ := compare_integerOp hop a (.integer v)
  have hcompare : compareOp op current (some r) s' = .ok verdict s' := by
    refine compareOp_eq (hboth.at?_eq hcurrent) ?_ hverdict
    simp [Plain.at?, hr, Plain.ofValue]
  have hleft : MemoryLeft s' := (hboth.grants (by simpa using hmem)).memoryLeft
  refine ⟨some s'.heap.length, created (.bool verdict) s', ?_, ?_,
    by simpa using hboth.trans (.created (.bool verdict) s')⟩
  · unfold compareStep
    rw [bind_of_ok hcharge, bind_of_ok hword, bind_of_ok heval, ofCode_integerOp hop, bind_of_ok hcompare]
    exact create_of_memoryLeft hleft _
  · simp [Plain.at?, created, Plain.ofValue, chainStep, hverdict]

/-- The loop of a `Compare` node. -/
lemma compareSteps_placed {comps : Ast .comparisons} {l : List (CompareOpType × Int64)}
    {steps requests : Nat} (h : Operands rec scope s₀ comps l steps requests) :
    ∀ {s : State} {current : ValuePtr} {a : Plain}, s.frames = s₀.frames → s₀.heap <+: s.heap →
      Plain.at? s.heap current = some a → Placed (bytes comps ++ rest) s → Affords steps s →
      Grants requests s → ∃ p s', iterateM comps.length (compareStep rec scope) current s = .ok p s' ∧
        Plain.at? s'.heap p = some (l.foldl chainStep a) ∧
        Silent (bytes comps).length steps requests s s' := by
  induction h with
  | none =>
    intro s current a _ _ hcurrent _ _ _
    exact ⟨current, s, rfl, hcurrent, by simpa [bytes, advance] using Silent.advance 0 0 s⟩
  | @cons op e tail v l steps requests steps' requests' hop he htail ih =>
    intro s current a hframes hheap hcurrent hs hgas hmem
    simp only [bytes, List.append_assoc] at hs
    obtain ⟨p, s₁, hstep, hp, hsilent⟩ := compareStep_placed hop he hframes hheap hcurrent hs
      (hgas.mono (by omega)) (hmem.mono (by omega))
    have hrest : Placed (bytes tail ++ rest) s₁ := by
      rw [← List.append_assoc] at hs
      exact hsilent.placed (by simp) hs
    obtain ⟨p', s₂, hloop, hp', hsilent'⟩ := ih (hsilent.frames_eq.trans hframes)
      (hheap.trans hsilent.heap_le) hp hrest (hsilent.affords hgas) (hsilent.grants hmem)
    refine ⟨p', s₂, (bind_of_ok hstep).trans hloop, hp', ?_⟩
    simpa [bytes, Nat.add_assoc] using hsilent.trans hsilent'

lemma Operands.length_le {comps : Ast .comparisons} {l : List (CompareOpType × Int64)}
    {steps requests : Nat} (h : Operands rec scope s₀ comps l steps requests) :
    comps.length ≤ (bytes comps).length := by
  induction h with
  | none => exact le_refl 0
  | cons hop he htail ih =>
    simp only [Ast.length, bytes, List.length_append, length_wordBytes]
    omega

/-- The switch of a `Compare` node. -/
lemma execCompare_placed {e₀ : Ast .expr} {comps : Ast .comparisons} {v₀ : Int64}
    {l : List (CompareOpType × Int64)} {steps requests steps' requests' : Nat}
    (he : EvaluatesTo rec scope s₀ (bytes e₀) steps requests (.integer v₀))
    (hcomps : Operands rec scope s₀ comps l steps' requests') {s : State}
    (hframes : s.frames = s₀.frames) (hheap : s₀.heap <+: s.heap)
    (hs : Placed (bytes e₀ ++ (sizeBytes comps.length ++ (bytes comps ++ rest))) s)
    (hgas : Affords (steps + steps') s) (hmem : Grants (requests + requests') s) :
    ∃ p s', execCompare rec scope s = .ok p s' ∧
      Plain.at? s'.heap p = some (l.foldl chainStep (.integer v₀)) := by
  obtain ⟨r, s₁, heval, hr, hsilent⟩ := he s _ hframes hheap hs (hgas.mono (by omega)) (hmem.mono (by omega))
  have hsize := hsilent.placed rfl hs
  obtain ⟨hword, hplaced⟩ := readWord_placed hsize
  have hsilent' := hsilent.trans (Silent.advance 4 0 s₁)
  have hlength : (UInt32.ofNat comps.length).toNat = comps.length := by
    have hin := hplaced.inside
    have hsmall := hplaced.small
    have hle := hcomps.length_le
    rw [List.length_append] at hin
    rw [UInt32.toNat_ofNat']
    omega
  have hcurrent : Plain.at? (advance 4 0 s₁).heap (some r) = some (.integer v₀) := by
    show (s₁.heap[r]?).bind Plain.ofValue = _
    rw [hr]
    rfl
  obtain ⟨p, s', hloop, hp, -⟩ := compareSteps_placed hcomps (hsilent'.frames_eq.trans hframes)
    (hheap.trans hsilent'.heap_le) hcurrent hplaced (hsilent'.affords (by simpa using hgas))
    (hsilent'.grants (by simpa using hmem))
  refine ⟨p, s', ?_, hp⟩
  unfold execCompare
  rw [bind_of_ok heval, bind_of_ok hword, hlength]
  exact hloop

end Run

/-! ### The value of a chain -/

/-- After the first comparison the value so far is a bool, and no integer is equal to it. -/
lemma chained_bool (b : Bool) {l : List (CompareOpType × Int64)} (hops : ∀ c ∈ l, c.1 ∈ integerOps)
    (hne : l ≠ []) : l.foldl chainStep (.bool b) = .bool ((l.getLast hne).1 == .notEqual) := by
  induction l generalizing b with
  | nil => exact absurd rfl hne
  | cons c rest ih =>
    cases rest with
    | nil =>
      have hop := hops c List.mem_cons_self
      simp only [integerOps, List.mem_cons, List.not_mem_nil, or_false] at hop
      obtain ⟨op, v⟩ := c
      rcases hop with rfl | rfl | rfl | rfl | rfl | rfl <;> rfl
    | cons c' rest =>
      rw [List.foldl_cons]
      exact ih _ (fun d hd => hops d (List.mem_cons_of_mem _ hd)) (by simp)

lemma chained_eq (v : Int64) {l : List (CompareOpType × Int64)} (hops : ∀ c ∈ l, c.1 ∈ integerOps)
    (hne : l ≠ []) : l.foldl chainStep (.integer v) =
      .bool (if l.length = 1 then conjunction v l else (l.getLast hne).1 == .notEqual) := by
  cases l with
  | nil => exact absurd rfl hne
  | cons c rest =>
    cases rest with
    | nil => simp [chainStep, conjunction, compareIntegers]
    | cons c' rest =>
      rw [if_neg (by simp), List.foldl_cons]
      exact chained_bool _ (fun d hd => hops d (List.mem_cons_of_mem _ hd)) (by simp)

lemma Operands.ops {rec : Rec} {scope : ScopeRef} {s₀ : State} {comps : Ast .comparisons}
    {l : List (CompareOpType × Int64)} {steps requests : Nat}
    (h : Operands rec scope s₀ comps l steps requests) : ∀ c ∈ l, c.1 ∈ integerOps := by
  induction h with
  | none => simp
  | cons hop he htail ih =>
    intro c hc
    obtain rfl | hc := List.mem_cons.mp hc
    · exact hop
    · exact ih c hc

/-- A chain of comparisons of integers is the conjunction of its comparisons when it has only one, or
when the conjunction is what the last operator says of a bool and an integer. -/
theorem chain_conjunction_iff {n : Nat} {scope : ScopeRef} {ls : LoopState} {s : State}
    {e₀ : Ast .expr} {comps : Ast .comparisons} {rest : List UInt8} {v₀ : Int64}
    {l : List (CompareOpType × Int64)} {steps requests steps' requests' : Nat} (hdeep : 2 ≤ scope.length)
    (hs : Placed (bytes (.compare e₀ comps) ++ rest) s)
    (he : EvaluatesTo (executeNext n) scope s (bytes e₀) steps requests (.integer v₀))
    (hcomps : Operands (executeNext n) scope s comps l steps' requests') (hne : l ≠ [])
    (hgas : Affords (1 + (steps + steps')) s) (hmem : Grants (requests + requests') s) :
    (∃ r s', executeNext (n + 1) scope ls s = .ok (some r, ls) s' ∧
      s'.heap[r]? = some (.bool (conjunction v₀ l))) ↔
        l.length = 1 ∨ conjunction v₀ l = ((l.getLast hne).1 == .notEqual) := by
  simp only [bytes, List.append_assoc] at hs
  have hsilent := silent_atSwitch .compare ls scope s
  obtain ⟨p, s', hexec, hp⟩ := execCompare_placed he hcomps (s := atSwitch .compare ls scope s) rfl
    hsilent.heap_le (hsilent.placed (length_wordBytes _) hs) (hsilent.affords hgas)
    (hsilent.grants (by simpa using hmem))
  rw [chained_eq v₀ hcomps.ops hne] at hp
  obtain ⟨r, rfl⟩ : ∃ r, p = some r := by
    cases p with
    | none => cases hp
    | some r => exact ⟨r, rfl⟩
  obtain ⟨w, hw, hwb⟩ := Option.bind_eq_some_iff.mp hp
  obtain ⟨s'', hrun, hheap⟩ : ∃ s'', executeNext (n + 1) scope ls s = .ok (some r, ls) s'' ∧
      s''.heap = s'.heap := by
    have hnode : execNode (executeNext n) scope n ls .compare (atSwitch .compare ls scope s) =
        .ok (some r, ls) s' := bind_of_ok hexec
    have htype : ∀ c, NodeType.compare ≠ .unknown c := by simp
    rw [executeNext_placed htype (.inl hdeep) hs (hgas.mono (by omega)), bind_of_ok hnode]
    unfold epilogue
    split
    · exact ⟨_, rfl, rfl⟩
    · exact ⟨_, rfl, rfl⟩
  have hvalue : s''.heap[r]? = some (.bool (if l.length = 1 then conjunction v₀ l
      else (l.getLast hne).1 == .notEqual)) := by
    rw [hheap, hw]
    cases w <;> cases hwb
    rfl
  constructor
  · rintro ⟨r', s₁, hok, hbool⟩
    cases hrun.symm.trans hok
    have hsame := hvalue.symm.trans hbool
    by_cases hone : l.length = 1
    · exact .inl hone
    · rw [if_neg hone] at hsame
      simp only [Option.some.injEq, Value.bool.injEq] at hsame
      exact .inr hsame.symm
  · intro hcondition
    refine ⟨r, s'', hrun, hvalue.trans ?_⟩
    split
    · rfl
    · rw [hcondition.resolve_left (by assumption)]

/-- A literal is an integer expression without side effects. -/
lemma evaluatesTo_integer (n : Nat) {scope : ScopeRef} (hdeep : 2 ≤ scope.length) (s₀ : State) (i : Int64) :
    EvaluatesTo (executeNext (n + 1)) scope s₀ (bytes (.number (.integer i))) 1 1
      (.integer i.toInt32.toInt64) := by
  intro s rest _ _ hs hgas hmem
  simp only [bytes, List.append_assoc] at hs
  have hsilent := silent_atSwitch .integer .none scope s
  obtain ⟨hread, -⟩ := readWord_placed (hsilent.placed (length_wordBytes _) hs)
  have hboth := hsilent.trans (Silent.advance 4 0 _)
  have hleft : MemoryLeft (advance 4 0 (atSwitch .integer .none scope s)) :=
    (hboth.grants (by simpa using hmem)).memoryLeft
  have hinteger : execInteger (atSwitch .integer .none scope s) =
      .ok (some s.heap.length)
        (created (.integer i.toInt32.toInt64) (advance 4 0 (atSwitch .integer .none scope s))) := by
    unfold execInteger
    rw [bind_of_ok hread]
    exact create_of_memoryLeft hleft _
  have hnode : execNode (executeNext n) scope n .none .integer (atSwitch .integer .none scope s) = _ :=
    bind_of_ok hinteger
  have hlength : (bytes (.number (.integer i))).length = 4 + 4 + 0 := by
    simp [bytes, typeBytes]
  have htype : ∀ c, NodeType.integer ≠ .unknown c := by simp
  refine ⟨_, _, evaluate_placed htype (.inl hdeep) hs hgas hnode, ?_, ?_⟩
  · simp [created, atSwitch, advance]
  · rw [hlength]
    exact hboth.trans (.created _ _)

/-- `e₀ op₁ e₁ op₂ ...` over literals. -/
def literals : List (CompareOpType × Int64) → Ast .comparisons
  | [] => .noComparisons
  | (op, i) :: rest => .consComparison op (.number (.integer i)) (literals rest)

/-- The state with the cursor in front of a comparison of literals. -/
def comparing (i : Int64) (l : List (CompareOpType × Int64)) : State :=
  startState (bytes (.compare (.number (.integer i)) (literals l))) 1000

lemma placed_comparing (i : Int64) (l : List (CompareOpType × Int64))
    (h : (bytes (.compare (.number (.integer i)) (literals l))).length < 2 ^ 32) :
    Placed (bytes (.compare (.number (.integer i)) (literals l)) ++ []) (comparing i l) := by
  rw [List.append_nil]
  exact placed_startState _ _ h

/-- `1 < 2` is the truth. -/
theorem chain_conjunction_oneTwo : ∃ r s', executeNext 2 [1, 0] .none (comparing 1 [(.less, 2)]) =
    .ok (some r, .none) s' ∧ s'.heap[r]? = some (.bool true) := by
  have hscope : 2 ≤ List.length [1, 0] := by decide
  have he : EvaluatesTo (executeNext 1) [1, 0] (comparing 1 [(.less, 2)]) (bytes (.number (.integer 1)))
      1 1 (.integer 1) := evaluatesTo_integer 0 hscope _ 1
  have hcomps : Operands (executeNext 1) [1, 0] (comparing 1 [(.less, 2)]) (literals [(.less, 2)])
      [(.less, 2)] 2 2 := .cons (by decide) (evaluatesTo_integer 0 hscope _ 2) .none
  exact (chain_conjunction_iff hscope (placed_comparing 1 _ (by decide)) he hcomps (by decide) (by decide)
    (fun _ _ => rfl)).mpr (.inl rfl)

/-- `1 < 2 < 3` is false. -/
theorem chain_conjunction_oneTwoThree_false :
    ¬∃ r s', executeNext 2 [1, 0] .none (comparing 1 [(.less, 2), (.less, 3)]) =
      .ok (some r, .none) s' ∧ s'.heap[r]? = some (.bool (conjunction 1 [(.less, 2), (.less, 3)])) := by
  rintro ⟨r, s', hrun, hr⟩
  have hreturned : returned (executeNext 2 [1, 0] .none) (comparing 1 [(.less, 2), (.less, 3)]) =
      some (some 5, .none) := by decide +kernel
  have hheap : (finalState (executeNext 2 [1, 0] .none)
      (comparing 1 [(.less, 2), (.less, 3)])).heap[5]? = some (.bool false) := by decide +kernel
  rw [eq_ok_of_returned hreturned] at hrun
  cases hrun
  cases hheap.symm.trans hr

end ContractPython.Proofs
