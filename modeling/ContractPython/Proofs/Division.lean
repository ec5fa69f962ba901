import Mathlib.Tactic.Linarith
import Mathlib.Tactic.Ring
import ContractPython.Proofs.Arithmetic

/-!
# Division

The quotient and the remainder are computed with 64 bits and pass through an `int32_t`. The
division identity survives where both fit, and for one more pair: the quotient of `-2^63` by
`-2^32` is `2^31`, and what is left of it, `-2^31`, times `-2^32` is `-2^63` modulo `2^64`.
-/

namespace ContractPython.Proofs

open Program M

/-- `m` throws an exception of the source. -/
def Raises (m : M ValuePtr) (s : State) : Prop := ∃ what s', m s = .error (.runtimeError what) s'

/-- What the evaluations of `a / b` and `a % b` have to do. -/
def DivisionLaw (a b : Int64) (m : M ValuePtr) (s t : State) : Prop :=
  if b = 0 then Raises m s ∧ Raises m t
  else ∃ q r, yielded m s = some q ∧ yielded m t = some r ∧ q * b + r = a ∧
    r.toInt.natAbs < b.toInt.natAbs

/-- The quotient and the remainder are those of an `int32_t`, or the low half of the quotient is
enough. -/
def Divisible (a b : Int64) : Prop :=
  b = 0 ∨ (FitsInt32 (a / b) ∧ FitsInt32 (a % b)) ∨ (a = Int64.minValue ∧ b = -4294967296)

instance (a b : Int64) : Decidable (Divisible a b) := inferInstanceAs (Decidable (_ ∨ _))

/-! ### What the halves give -/

/-- Quotient and remainder without multiples of `2^32`: the identity modulo `2^64` needs both as
they are, but for one pair. -/
lemma halves_of_identity {a b q r k m t : Int} (ha : -2 ^ 63 ≤ a ∧ a < 2 ^ 63) (hb : b.natAbs ≤ 2 ^ 63)
    (hqr : q * b + r = a) (hr : r.natAbs < b.natAbs) (hsign : 0 ≤ r ∧ r ≤ a ∨ a ≤ r ∧ r ≤ 0)
    (hk : -2 ^ 31 ≤ q - k * 2 ^ 32 ∧ q - k * 2 ^ 32 < 2 ^ 31)
    (hm : -2 ^ 31 ≤ r - m * 2 ^ 32 ∧ r - m * 2 ^ 32 < 2 ^ 31)
    (hlaw : (q - k * 2 ^ 32) * b + (r - m * 2 ^ 32) = a + t * 2 ^ 64)
    (hr' : (r - m * 2 ^ 32).natAbs < b.natAbs) :
    (k = 0 ∧ m = 0) ∨ (a = -2 ^ 63 ∧ b = -2 ^ 32) := by
  -- what is cut off sums up to a multiple of `2^32`
  have hcut : k * b + m = -t * 2 ^ 32 := by linarith
  by_cases hbig : 2 ^ 32 < b.natAbs
  · have hq : q.natAbs < 2 ^ 31 := by
      by_contra hge
      have hmul : 2 ^ 31 * (2 ^ 32 + 1) ≤ q.natAbs * b.natAbs := Nat.mul_le_mul (by omega) (by omega)
      rw [← Int.natAbs_mul] at hmul
      omega
    have hzero : k = 0 := by omega
    subst hzero
    left
    omega
  · have hlow : ((q - k * 2 ^ 32) * b).natAbs ≤ 2 ^ 31 * b.natAbs := by
      rw [Int.natAbs_mul]
      exact Nat.mul_le_mul_right _ (by omega)
    have hexpand : (q - k * 2 ^ 32) * b = q * b - k * b * 2 ^ 32 := by ring
    have hkb : (k * b).natAbs ≤ 2 ^ 32 := by omega
    by_cases hzero : k = 0
    · subst hzero
      left
      omega
    · have hle : b.natAbs ≤ (k * b).natAbs := by
        rw [Int.natAbs_mul]
        exact Nat.le_mul_of_pos_left _ (by omega)
      by_cases ht : t = 0
      · subst ht
        have hone : b.natAbs = 1 := by omega
        omega
      · -- only divisors next to `2^32` are left
        have hfar : 2 ^ 32 - 1 ≤ (k * b).natAbs := by omega
        have hone : k.natAbs = 1 := by
          by_contra hne
          have htwo : 2 * b.natAbs ≤ k.natAbs * b.natAbs := Nat.mul_le_mul_right _ (by omega)
          rw [← Int.natAbs_mul] at htwo
          omega
        right
        obtain rfl | rfl : k = 1 ∨ k = -1 := by omega
        · have hb : b = 2 ^ 32 ∨ b = 2 ^ 32 - 1 ∨ b = -2 ^ 32 ∨ b = -(2 ^ 32 - 1) := by omega
          rcases hb with rfl | rfl | rfl | rfl <;> omega
        · have hb : b = 2 ^ 32 ∨ b = 2 ^ 32 - 1 ∨ b = -2 ^ 32 ∨ b = -(2 ^ 32 - 1) := by omega
          rcases hb with rfl | rfl | rfl | rfl <;> omega

/-- The remainder has the sign of the dividend and is not larger. -/
lemma tmod_between (a b : Int) : 0 ≤ a.tmod b ∧ a.tmod b ≤ a ∨ a ≤ a.tmod b ∧ a.tmod b ≤ 0 := by
  have habs : (a.tmod b).natAbs ≤ a.natAbs := by
    rw [Int.natAbs_tmod]
    exact Nat.mod_le _ _
  rcases Int.le_total 0 a with h | h
  · have hnonneg := Int.tmod_nonneg b h
    omega
  · have hneg := Int.tmod_nonneg b (Int.neg_nonneg_of_nonpos h)
    rw [Int.neg_tmod] at hneg
    omega

lemma bmod_eq_sub (i : Int) : ∃ k, i.bmod (2 ^ 32) = i - k * 2 ^ 32 ∧
    -2 ^ 31 ≤ i - k * 2 ^ 32 ∧ i - k * 2 ^ 32 < 2 ^ 31 := by
  refine ⟨(i + 2 ^ 31) / 2 ^ 32, ?_⟩
  rw [Int.bmod_def]
  omega

lemma toInt_narrow (i : Int64) : (narrow i).toInt = i.toInt.bmod (2 ^ 32) := by
  simp [narrow]

lemma fitsInt32_iff {i : Int64} : FitsInt32 i ↔ i.toInt.bmod (2 ^ 32) = i.toInt := by
  unfold FitsInt32
  rw [← Int64.toInt_inj, toInt_narrow]

section Integers

variable {a b : Int64}

/-- The machine division is defined. -/
def Defined (a b : Int64) : Prop := b ≠ 0 ∧ ¬(a = Int64.minValue ∧ b = -1)

lemma toInt_quotient (h : Defined a b) : (a / b).toInt = a.toInt.tdiv b.toInt := by
  by_cases ha : a = Int64.minValue
  · exact Int64.toInt_div_of_ne_right _ _ fun hb => h.2 ⟨ha, hb⟩
  · exact Int64.toInt_div_of_ne_left _ _ ha

lemma natAbs_remainder (hb : b ≠ 0) : (a % b).toInt.natAbs < b.toInt.natAbs := by
  have hpos : 0 < b.toInt.natAbs := by
    rw [Int.natAbs_pos]
    exact fun h => hb (Int64.toInt_inj.mp h)
  rw [Int64.toInt_mod, Int.natAbs_tmod]
  exact Nat.mod_lt _ hpos

/-- The division identity of the machine. -/
lemma quotient_mul_add (h : Defined a b) : (a / b).toInt * b.toInt + (a % b).toInt = a.toInt := by
  rw [toInt_quotient h, Int64.toInt_mod, Int.add_comm]
  exact Int.tmod_add_tdiv_mul _ _

/-- The division identity of the narrowed results. -/
lemma narrow_division_iff (h : Defined a b) :
    (narrow (a / b) * b + narrow (a % b) = a ∧ (narrow (a % b)).toInt.natAbs < b.toInt.natAbs) ↔
      Divisible a b := by
  have ha : -2 ^ 63 ≤ a.toInt ∧ a.toInt < 2 ^ 63 := ⟨a.le_toInt, a.toInt_lt⟩
  have hb : b.toInt.natAbs ≤ 2 ^ 63 := by
    have hlow := b.le_toInt
    have hhigh := b.toInt_lt
    omega
  constructor
  · rintro ⟨hidentity, hsmall⟩
    obtain ⟨k, hquotient, hk⟩ := bmod_eq_sub (a / b).toInt
    obtain ⟨m, hremainder, hm⟩ := bmod_eq_sub (a % b).toInt
    rw [← Int64.toInt_inj, Int64.toInt_add, Int64.toInt_mul, Int.bmod_add_bmod, toInt_narrow, toInt_narrow,
      hquotient, hremainder] at hidentity
    rw [toInt_narrow, hremainder] at hsmall
    have hlaw : ∃ t, ((a / b).toInt - k * 2 ^ 32) * b.toInt + ((a % b).toInt - m * 2 ^ 32) =
        a.toInt + t * 2 ^ 64 := by
      generalize ((a / b).toInt - k * 2 ^ 32) * b.toInt + ((a % b).toInt - m * 2 ^ 32) = x at hidentity
      refine ⟨(x + 2 ^ 63) / 2 ^ 64, ?_⟩
      rw [← hidentity, Int.bmod_def]
      omega
    obtain ⟨t, hlaw⟩ := hlaw
    obtain ⟨rfl, rfl⟩ | ⟨hmin, hdivisor⟩ := halves_of_identity ha hb (quotient_mul_add h)
      (natAbs_remainder h.1) (Int64.toInt_mod a b ▸ tmod_between _ _) hk hm hlaw hsmall
    · refine .inr (.inl ⟨fitsInt32_iff.mpr ?_, fitsInt32_iff.mpr ?_⟩)
      · omega
      · omega
    · exact .inr (.inr ⟨Int64.toInt_inj.mp hmin, Int64.toInt_inj.mp hdivisor⟩)
  · rintro (hzero | ⟨hq, hr⟩ | ⟨rfl, rfl⟩)
    · exact absurd hzero h.1
    · unfold FitsInt32 at hq hr
      rw [hq, hr]
      refine ⟨?_, natAbs_remainder h.1⟩
      rw [← Int64.toInt_inj, Int64.toInt_add, Int64.toInt_mul, Int.bmod_add_bmod, quotient_mul_add h]
      exact Int.bmod_eq_of_le (by omega) (by omega)
    · decide

lemma not_divisible_overflow : ¬Divisible Int64.minValue (-1) := by decide

end Integers

/-! ### What the node does -/

section Node

variable {rec : Rec} {scope : ScopeRef} {op : BinaryOpType} {a b : Int64} {l : Ref} {s s' : State}

/-- A `BinaryOp` node behind its operands. -/
lemma execBinaryOp_apply (hop : op = .div ∨ op = .mod)
    (hget : GetsOperands (binaryOperands rec scope) op a b l s s') :
    execBinaryOp rec scope s =
      (do let v ← liftExcept (Value.binaryOp op (.integer a) (.integer b)); create v) s' := by
  obtain ⟨r, hget, hl, hr⟩ := hget
  have hexec : execBinaryOp rec scope = binaryOperands rec scope >>= fun x => binaryOp x.1 x.2.1 x.2.2 := by
    simp only [execBinaryOp, binaryOperands, bind_assoc, pure_bind]
  rw [hexec, bind_of_ok hget]
  rcases hop with rfl | rfl <;>
    simp only [binaryOp, assertGeneric, pure_bind, bind_of_ok (load_of_heap hl), bind_of_ok (load_of_heap hr)]

/-- A zero divisor is rejected. -/
lemma raises_zero (hop : op = .div ∨ op = .mod)
    (hget : GetsOperands (binaryOperands rec scope) op a 0 l s s') : Raises (execBinaryOp rec scope) s := by
  unfold Raises
  rw [execBinaryOp_apply hop hget]
  rcases hop with rfl | rfl
  · exact ⟨_, s', rfl⟩
  · exact ⟨_, s', rfl⟩

/-- The machine traps. -/
lemma yielded_overflow (hop : op = .div ∨ op = .mod)
    (hget : GetsOperands (binaryOperands rec scope) op Int64.minValue (-1) l s s') :
    yielded (execBinaryOp rec scope) s = none := by
  unfold yielded
  rw [execBinaryOp_apply hop hget]
  rcases hop with rfl | rfl <;> rfl

lemma yielded_div (h : Defined a b) (hget : GetsOperands (binaryOperands rec scope) .div a b l s s')
    (hmem : MemoryLeft s') : yielded (execBinaryOp rec scope) s = some (narrow (a / b)) := by
  have hvalue : Value.binaryOp .div (.integer a) (.integer b) = .ok (.integer (narrow (a / b))) := by
    simp only [Value.binaryOp, if_neg h.1, if_neg h.2]
    rfl
  unfold yielded
  rw [execBinaryOp_apply (.inl rfl) hget, hvalue]
  exact yielded_create hmem _

lemma yielded_mod (h : Defined a b) (hget : GetsOperands (binaryOperands rec scope) .mod a b l s s')
    (hmem : MemoryLeft s') : yielded (execBinaryOp rec scope) s = some (narrow (a % b)) := by
  have hvalue : Value.binaryOp .mod (.integer a) (.integer b) = .ok (.integer (narrow (a % b))) := by
    simp only [Value.binaryOp, if_neg h.1, if_neg h.2]
    rfl
  unfold yielded
  rw [execBinaryOp_apply (.inr rfl) hget, hvalue]
  exact yielded_create hmem _

end Node

/-- Wherever `a / b` and `a % b` are evaluated, they obey the law of division exactly when the
divisor is zero or nothing is lost by the conversion to an `int32_t`. -/
theorem division_lawful_iff (rec : Rec) (scope : ScopeRef) (a b : Int64) (l l' : Ref) (s s' t t' : State)
    (hdiv : GetsOperands (binaryOperands rec scope) .div a b l s s') (hmem : MemoryLeft s')
    (hmod : GetsOperands (binaryOperands rec scope) .mod a b l' t t') (hmem' : MemoryLeft t') :
    DivisionLaw a b (execBinaryOp rec scope) s t ↔ Divisible a b := by
  unfold DivisionLaw
  by_cases hzero : b = 0
  · subst hzero
    rw [if_pos rfl]
    exact ⟨fun _ => .inl rfl, fun _ => ⟨raises_zero (.inl rfl) hdiv, raises_zero (.inr rfl) hmod⟩⟩
  · rw [if_neg hzero]
    by_cases hover : a = Int64.minValue ∧ b = -1
    · obtain ⟨rfl, rfl⟩ := hover
      rw [yielded_overflow (.inl rfl) hdiv]
      constructor
      · rintro ⟨q, r, hq, -⟩
        cases hq
      · exact fun h => absurd h not_divisible_overflow
    · have hdefined : Defined a b := ⟨hzero, hover⟩
      rw [yielded_div hdefined hdiv hmem, yielded_mod hdefined hmod hmem', ← narrow_division_iff hdefined]
      constructor
      · rintro ⟨q, r, hq, hr, hlaw⟩
        cases hq
        cases hr
        exact hlaw
      · exact fun hlaw => ⟨_, _, rfl, rfl, hlaw⟩

/-- A function that is about to execute the fields of `x op y`. -/
def dividing (op : BinaryOpType) (x y : Int64) : State :=
  { startState (wordBytes op.code ++ (bytes (.name (lit "x") : Ast .expr) ++
      bytes (.name (lit "y") : Ast .expr))) 1000 with
    heap := [.persistableDictionary .empty, .integer x, .integer y]
    frames := (startState [] 1000).frames ++ [{ Frame.empty with
      values := (SortedMap.empty.insert (lit "x") (some 1)).insert (lit "y") (some 2) }] }

/-- The smallest integer divided by minus one is a trap of the machine. -/
theorem division_lawful_overflow_false :
    ¬DivisionLaw Int64.minValue (-1) (execBinaryOp (executeNext 5) [1, 0])
        (dividing .div Int64.minValue (-1)) (dividing .mod Int64.minValue (-1)) ∧
      (execBinaryOp (executeNext 5) [1, 0] (dividing .div Int64.minValue (-1)) matches
        .error (.crash _) _) = true := by
  refine ⟨?_, by decide +kernel⟩
  rintro ⟨q, r, hq, -⟩
  have hnone : yielded (execBinaryOp (executeNext 5) [1, 0]) (dividing .div Int64.minValue (-1)) = none := by
    decide +kernel
  rw [hnone] at hq
  cases hq

/-- Seven by minus two. -/
theorem division_lawful_seven :
    DivisionLaw 7 (-2) (execBinaryOp (executeNext 5) [1, 0]) (dividing .div 7 (-2)) (dividing .mod 7 (-2)) :=
  have hdiv : ∃ s', GetsOperands (binaryOperands (executeNext 5) [1, 0]) .div 7 (-2) 1 (dividing .div 7 (-2)) s' ∧
      MemoryLeft s' :=
    ⟨_, ⟨2, eq_ok_of_returned (by decide +kernel), by decide +kernel, by decide +kernel⟩, by decide +kernel⟩
  have hmod : ∃ s', GetsOperands (binaryOperands (executeNext 5) [1, 0]) .mod 7 (-2) 1 (dividing .mod 7 (-2)) s' ∧
      MemoryLeft s' :=
    ⟨_, ⟨2, eq_ok_of_returned (by decide +kernel), by decide +kernel, by decide +kernel⟩, by decide +kernel⟩
  have ⟨s', hget, hmem⟩ := hdiv
  have ⟨t', hget', hmem'⟩ := hmod
  (division_lawful_iff (executeNext 5) [1, 0] 7 (-2) 1 1 _ s' _ t' hget hmem hget' hmem').mpr (by decide)

end ContractPython.Proofs
