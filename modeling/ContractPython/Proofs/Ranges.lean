import Mathlib.Tactic.Ring
import ContractPython.Proofs.Steps

/-!
# Ranges

`range(start, stop, step)` keeps its arguments in an `int` each and counts upwards, whatever the
sign of the step is: the position is compared with the end before each element, and moves on
before anybody asks whether there is a next one.
-/

namespace ContractPython.Proofs

open Program M

/-- The position lies before the end in the direction of the step. -/
def Before (step x stop : Int) : Prop := if 0 < step then x < stop else stop < x

/-- The range iterator at `r` stands at the position `x`, and no member has lost anything. -/
def Stands (r : Ref) (step stop x : Int) (s : State) : Prop :=
  ∃ pos' stop' step' : Int32, s.heap[r]? = some (.rangeIterator pos' stop' step') ∧
    pos'.toInt = x ∧ stop'.toInt = stop ∧ step'.toInt = step

/-- From the position `x` on, the iterator at `r` yields each position before the end and stops
at the first one that is not. -/
inductive Iterates (r : Ref) (step stop : Int) : Int → State → Prop
  | done {x : Int} {s s' : State} (hx : ¬Before step x stop) (hat : Stands r step stop x s)
    (hnext : next r s = .error .stopIteration s') : Iterates r step stop x s
  | more {x : Int} {s s' : State} {q : Ref} {i : Int64} (hx : Before step x stop)
    (hat : Stands r step stop x s) (hnext : next r s = .ok (some q) s')
    (hq : s'.heap[q]? = some (.integer i)) (hi : i.toInt = x)
    (hrest : Iterates r step stop (x + step) s') : Iterates r step stop x s

/-- `range(start, stop, step)` is the exact progression, and a step of zero is rejected. -/
def RangeExact (start stop step : Int64) : Prop :=
  ∀ (s : State) (a b c : Ref), Generous s → s.heap[a]? = some (.integer start) →
    s.heap[b]? = some (.integer stop) → s.heap[c]? = some (.integer step) →
    if step = 0 then ∃ e s', callBuiltin .range [some a, some b, some c] s = .error e s'
    else ∃ r s', callBuiltin .range [some a, some b, some c] s = .ok (some r) s' ∧
      Iterates r step.toInt stop.toInt start.toInt s'

/-- How many elements an ascending range has. -/
def rounds (step stop x : Int) : Nat := ((stop - x + step - 1) / step).toNat

/-- The integer is one of an `int`. -/
def IsInt (i : Int) : Prop := -2 ^ 31 ≤ i ∧ i < 2 ^ 31

/-- The arguments fit, and the range either goes up and its last position fits, too, or it goes
down and has no element because it ends where it starts. -/
def RangeFits (start stop step : Int) : Prop :=
  (IsInt start ∧ IsInt stop ∧ IsInt step) ∧
    (0 < step ∧ IsInt (start + rounds step stop start * step) ∨ step < 0 ∧ start = stop)

instance (i : Int) : Decidable (IsInt i) := inferInstanceAs (Decidable (_ ∧ _))

instance (start stop step : Int) : Decidable (RangeFits start stop step) :=
  inferInstanceAs (Decidable (_ ∧ _))

/-! ### The number of elements -/

lemma rounds_of_le {step stop x : Int} (hstep : 0 < step) (hx : stop ≤ x) : rounds step stop x = 0 := by
  unfold rounds
  have hneg : (stop - x + step - 1) / step ≤ 0 := by
    apply Int.le_of_lt_add_one
    exact Int.ediv_lt_of_lt_mul hstep (by omega)
  omega

lemma rounds_of_lt {step stop x : Int} (hstep : 0 < step) (hx : x < stop) :
    rounds step stop x = rounds step stop (x + step) + 1 := by
  unfold rounds
  have hsplit : stop - x + step - 1 = (stop - (x + step) + step - 1) + 1 * step := by omega
  have hnonneg : 0 ≤ (stop - (x + step) + step - 1) / step := Int.ediv_nonneg (by omega) (by omega)
  rw [hsplit, Int.add_mul_ediv_right _ _ (by omega)]
  omega

/-! ### One step of the iterator -/

section Next

variable {r : Ref} {pos stop step : Int32} {s : State}

lemma next_at_end (hr : s.heap[r]? = some (.rangeIterator pos stop step)) (hend : stop ≤ pos) :
    next r s = .error .stopIteration s := by
  unfold next
  rw [bind_of_ok (load_of_heap hr)]
  simp only [ge_iff_le, hend, if_true]
  rfl

/-- The state after an element. -/
def stepped (r : Ref) (pos stop step : Int32) (s : State) : State :=
  { created (.integer pos.toInt64) s with
    heap := (s.heap ++ [Value.integer pos.toInt64]).set r (.rangeIterator (pos + step) stop step) }

lemma next_before_end (hr : s.heap[r]? = some (.rangeIterator pos stop step)) (hend : ¬stop ≤ pos)
    (hmem : MemoryLeft s) : next r s = .ok (some s.heap.length) (stepped r pos stop step s) := by
  have hstays : (created (.integer pos.toInt64) s).heap[r]? = some (.rangeIterator pos stop step) := by
    unfold created
    rw [List.getElem?_append_left (lt_length_of_heap hr), hr]
  unfold next
  rw [bind_of_ok (load_of_heap hr)]
  simp only [ge_iff_le, hend, if_false]
  have hstore : storeAt r (.rangeIterator (pos + step) stop step) (created (.integer pos.toInt64) s) =
      .ok () (stepped r pos stop step s) := storeAt_of_heap hstays rfl
  rw [bind_of_ok (create_of_memoryLeft hmem _), bind_of_ok hstore]
  rfl

end Next

/-! ### Whole iterations -/

lemma Stands.bounds {r : Ref} {step stop x : Int} {s : State} (h : Stands r step stop x s) :
    IsInt x ∧ IsInt stop ∧ IsInt step := by
  obtain ⟨pos', stop', step', -, rfl, rfl, rfl⟩ := h
  exact ⟨⟨pos'.le_toInt, pos'.toInt_lt⟩, ⟨stop'.le_toInt, stop'.toInt_lt⟩, step'.le_toInt, step'.toInt_lt⟩

namespace Iterates

variable {r : Ref} {step stop x : Int} {s : State}

lemma stands (h : Iterates r step stop x s) : Stands r step stop x s := by
  cases h with
  | done _ hat _ => exact hat
  | more _ hat _ _ _ _ => exact hat

/-- An ascending iteration gets to its last position. -/
lemma last_isInt (h : Iterates r step stop x s) (hstep : 0 < step) :
    IsInt (x + rounds step stop x * step) := by
  induction h with
  | done hx hat _ =>
    unfold Before at hx
    rw [if_pos hstep] at hx
    rw [rounds_of_le hstep (by omega)]
    simpa using hat.bounds.1
  | @more x _ _ _ _ hx _ _ _ _ _ ih =>
    unfold Before at hx
    rw [if_pos hstep] at hx
    rw [rounds_of_lt hstep hx]
    have hsum : x + ((rounds step stop (x + step) + 1 : Nat) : Int) * step =
        x + step + rounds step stop (x + step) * step := by
      push_cast
      ring
    rwa [hsum]

/-- A descending iteration ends where it starts. -/
lemma start_eq (h : Iterates r step stop x s) (hstep : step < 0) (hmem : MemoryLeft s) : x = stop := by
  obtain ⟨pos', stop', step', hr, rfl, rfl, -⟩ := h.stands
  have hend : stop' ≤ pos' ↔ stop'.toInt ≤ pos'.toInt := Int32.le_iff_toInt_le
  cases h with
  | done hx hat hnext =>
    unfold Before at hx
    rw [if_neg (by omega)] at hx
    by_cases hstop : stop' ≤ pos'
    · have hle := hend.mp hstop
      omega
    · rw [next_before_end hr hstop hmem] at hnext
      cases hnext
  | more hx hat hnext _ _ _ =>
    unfold Before at hx
    rw [if_neg (by omega)] at hx
    rw [next_at_end hr (hend.mpr hx.le)] at hnext
    cases hnext

end Iterates

/-- An ascending range whose last position fits is iterated exactly. -/
lemma iterates_ascending {r : Ref} {pos stop step : Int32} {s : State} (hmem : Generous s)
    (hr : s.heap[r]? = some (.rangeIterator pos stop step)) (hstep : 0 < step.toInt)
    (hlast : IsInt (pos.toInt + rounds step.toInt stop.toInt pos.toInt * step.toInt)) :
    Iterates r step.toInt stop.toInt pos.toInt s := by
  have hend : ∀ pos : Int32, stop ≤ pos ↔ stop.toInt ≤ pos.toInt := fun _ => Int32.le_iff_toInt_le
  have hat : Stands r step.toInt stop.toInt pos.toInt s := ⟨_, _, _, hr, rfl, rfl, rfl⟩
  -- on the number of elements left
  generalize hn : rounds step.toInt stop.toInt pos.toInt = n at hlast
  induction n generalizing pos s with
  | zero =>
    have hx : ¬pos.toInt < stop.toInt := by
      intro hlt
      rw [rounds_of_lt hstep hlt] at hn
      omega
    refine .done ?_ hat (next_at_end hr ((hend pos).mpr (by omega)))
    unfold Before
    rwa [if_pos hstep]
  | succ n ih =>
    have hx : pos.toInt < stop.toInt := by
      by_contra hge
      rw [rounds_of_le hstep (by omega)] at hn
      omega
    have hstop : ¬stop ≤ pos := fun h => absurd ((hend pos).mp h) (by omega)
    -- the next position fits, because the last one does
    have hbefore : 0 ≤ (n : Int) * step.toInt := Int.mul_nonneg (by omega) (by omega)
    have hsum : pos.toInt + ((n + 1 : Nat) : Int) * step.toInt = pos.toInt + step.toInt + n * step.toInt := by
      push_cast
      ring
    rw [hsum] at hlast
    have hadd : (pos + step).toInt = pos.toInt + step.toInt := by
      have hlow := pos.le_toInt
      rw [Int32.toInt_add]
      unfold IsInt at hlast
      exact Int.bmod_eq_of_le (by omega) (by omega)
    have hr' : (stepped r pos stop step s).heap[r]? = some (.rangeIterator (pos + step) stop step) := by
      have hlt : r < (s.heap ++ [Value.integer pos.toInt64]).length := by
        rw [List.length_append, List.length_singleton]
        exact Nat.lt_succ_of_lt (lt_length_of_heap hr)
      exact List.getElem?_set_self hlt
    have hq : (stepped r pos stop step s).heap[s.heap.length]? = some (.integer pos.toInt64) := by
      have hne : r ≠ s.heap.length := (lt_length_of_heap hr).ne
      exact (List.getElem?_set_ne hne).trans List.getElem?_concat_length
    refine .more ?_ hat (next_before_end hr hstop (hmem _)) hq (Int32.toInt_toInt64 pos) ?_
    · unfold Before
      rwa [if_pos hstep]
    · rw [← hadd]
      rw [rounds_of_lt hstep hx, ← hadd, Nat.add_right_cancel_iff] at hn
      rw [← hadd] at hlast
      exact ih hmem hr' ⟨_, _, _, hr', rfl, rfl, rfl⟩ hn hlast

/-! ### The call -/

section Call

variable {s : State} {a b c : Ref} {start stop step : Int64}

/-- What `range` makes of three integers. -/
lemma callBuiltin_range (hmem : MemoryLeft s) (ha : s.heap[a]? = some (.integer start))
    (hb : s.heap[b]? = some (.integer stop)) (hc : s.heap[c]? = some (.integer step)) :
    callBuiltin .range [some a, some b, some c] s =
      .ok (some s.heap.length) (created (.rangeIterator start.toInt32 stop.toInt32 step.toInt32) s) := by
  have hunpack : ∀ {r : Ref} {i : Int64}, s.heap[r]? = some (.integer i) →
      unpackInt (some r) s = .ok i.toInt32 s := by
    intro r i hr
    simp only [unpackInt, unpackInteger, loadPtr, bind_assoc, pure_bind, bind_of_ok (load_of_heap hr)]
    rfl
  have hcall : callBuiltin .range [some a, some b, some c] s = callRange [some a, some b, some c] s := rfl
  rw [hcall]
  unfold callRange
  dsimp only
  rw [bind_of_ok (hunpack ha), bind_of_ok (hunpack hb), bind_of_ok (hunpack hc)]
  exact create_of_memoryLeft hmem _

end Call

/-- Three integers and nothing else. -/
def threeIntegers (start stop step : Int64) : State :=
  { startState [] 1000 with heap := [.integer start, .integer stop, .integer step] }

/-- What an exact range needs. -/
lemma rangeFits_of_exact {start stop step : Int64} (h : RangeExact start stop step) :
    RangeFits start.toInt stop.toInt step.toInt := by
  have hmem : MemoryLeft (threeIntegers start stop step) := rfl
  have hcall := callBuiltin_range (s := threeIntegers start stop step) (a := 0) (b := 1) (c := 2) hmem rfl rfl rfl
  have hexact := h (threeIntegers start stop step) 0 1 2 (fun _ => rfl) rfl rfl rfl
  rw [hcall] at hexact
  by_cases hzero : step = 0
  · rw [if_pos hzero] at hexact
    obtain ⟨e, s', he⟩ := hexact
    cases he
  · rw [if_neg hzero] at hexact
    obtain ⟨r, s', hok, hiterates⟩ := hexact
    cases hok
    have hbounds := hiterates.stands.bounds
    refine ⟨hbounds, ?_⟩
    have hne : step.toInt ≠ 0 := fun h0 => hzero (Int64.toInt_inj.mp h0)
    rcases Int.lt_or_gt_of_ne hne with hneg | hpos
    · exact .inr ⟨hneg, hiterates.start_eq hneg rfl⟩
    · exact .inl ⟨hpos, hiterates.last_isInt hpos⟩

lemma toInt_toInt32_of_isInt {i : Int64} (h : IsInt i.toInt) : i.toInt32.toInt = i.toInt := by
  rw [Int64.toInt_toInt32]
  unfold IsInt at h
  exact Int.bmod_eq_of_le (by omega) (by omega)

lemma exact_of_rangeFits {start stop step : Int64} (h : RangeFits start.toInt stop.toInt step.toInt) :
    RangeExact start stop step := by
  intro s a b c hmem ha hb hc
  obtain ⟨⟨hstart, hstop, hstep⟩, hdirection⟩ := h
  have hzero : step ≠ 0 := by
    rintro rfl
    rcases hdirection with ⟨hpos, -⟩ | ⟨hneg, -⟩
    · exact absurd hpos (by decide)
    · exact absurd hneg (by decide)
  rw [if_neg hzero]
  refine ⟨_, _, callBuiltin_range (hmem _) ha hb hc, ?_⟩
  have hr := heap_created (.rangeIterator start.toInt32 stop.toInt32 step.toInt32) s
  rw [← toInt_toInt32_of_isInt hstart, ← toInt_toInt32_of_isInt hstop, ← toInt_toInt32_of_isInt hstep]
  rw [← toInt_toInt32_of_isInt hstart, ← toInt_toInt32_of_isInt hstop, ← toInt_toInt32_of_isInt hstep]
    at hdirection
  rcases hdirection with ⟨hpos, hlast⟩ | ⟨hneg, heq⟩
  · exact iterates_ascending hmem hr hpos hlast
  · refine .done ?_ ⟨_, _, _, hr, rfl, rfl, rfl⟩ (next_at_end hr ?_)
    · unfold Before
      rw [if_neg (by omega), heq]
      omega
    · rw [Int32.le_iff_toInt_le, heq]

/-- A range is the exact progression if and only if it goes up and nothing in it overflows, or it
goes down and ends where it starts. -/
theorem range_exact_iff (start stop step : Int64) :
    RangeExact start stop step ↔ RangeFits start.toInt stop.toInt step.toInt :=
  ⟨rangeFits_of_exact, exact_of_rangeFits⟩

/-- `range(3, 0, -1)` yields nothing. -/
theorem range_exact_countdown_false : ¬RangeExact 3 0 (-1) := by
  intro h
  have hfits := rangeFits_of_exact h
  revert hfits
  decide

end ContractPython.Proofs
