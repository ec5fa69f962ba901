import Mathlib.Algebra.Group.Subgroup.Basic
import Mathlib.Algebra.Group.Hom.End

/-!
# Linear checksums

A register that is moved on by an additive map and to which one symbol after another is added. Whether
two words leave it alike depends on their difference only.
-/

namespace LinearChecksum

/-! ### The distance of two words -/

section Distance

variable {α β : Type*} [DecidableEq α] [DecidableEq β]

/-- The number of places in which two words differ. -/
def distance (word word' : List α) : ℕ := (word.zip word').countP fun p => p.1 ≠ p.2

lemma distance_cons (a a' : α) (word word' : List α) :
    distance (a :: word) (a' :: word') = distance word word' + if a ≠ a' then 1 else 0 := by
  unfold distance
  rw [List.zip_cons_cons, List.countP_cons]
  simp

lemma distance_map_le (f : α → β) (word word' : List α) :
    distance (word.map f) (word'.map f) ≤ distance word word' := by
  induction word generalizing word' with
  | nil => exact Nat.zero_le _
  | cons a word ih =>
    cases word' with
    | nil => exact Nat.zero_le _
    | cons a' word' =>
      have hrest := ih word'
      rw [List.map_cons, List.map_cons, distance_cons, distance_cons]
      by_cases h : a = a'
      · simpa [h] using hrest
      · have hone : (if f a ≠ f a' then 1 else 0) ≤ 1 := by split <;> omega
        rw [if_pos h]
        omega

lemma distance_le_append {word word' : List α} (h : word.length = word'.length) (tail tail' : List α) :
    distance tail tail' ≤ distance (word ++ tail) (word' ++ tail') := by
  unfold distance
  rw [List.zip_append h, List.countP_append]
  exact Nat.le_add_left _ _

end Distance

/-! ### The register -/

variable {S : Type*} [AddCommGroup S] (step : S →+ S)

/-- The register behind a word. -/
def run (s : S) (word : List S) : S := word.foldl (fun s v => step s + v) s

variable {step} {s s' : S} {word word' : List S}

@[simp] lemma run_nil : run step s [] = s := rfl

@[simp] lemma run_cons (v : S) : run step s (v :: word) = run step (step s + v) word := rfl

lemma run_append : run step s (word ++ word') = run step (run step s word) word' := List.foldl_append

lemma run_replicate_zero (n : ℕ) : run step s (List.replicate n 0) = step^[n] s := by
  induction n generalizing s with
  | zero => rfl
  | succ n ih => rw [List.replicate_succ, run_cons, add_zero, ih, Function.iterate_succ_apply]

/-- The difference of two words. -/
def diff (word word' : List S) : List S := List.zipWith (· - ·) word word'

lemma run_diff (h : word.length = word'.length) :
    run step (s - s') (diff word word') = run step s word - run step s' word' := by
  induction word generalizing word' s s' with
  | nil =>
    obtain rfl : word' = [] := List.length_eq_zero_iff.mp h.symm
    rfl
  | cons v word ih =>
    cases word' with
    | nil => cases h
    | cons v' word' =>
      have hstep : step (s - s') + (v - v') = step s + v - (step s' + v') := by
        rw [map_sub, add_sub_add_comm]
      rw [run_cons, run_cons, ← ih (Nat.succ.inj h), ← hstep]
      rfl

/-- The word behind a register, and the word behind an empty one. -/
lemma run_eq_add : run step s word = step^[word.length] s + run step 0 word := by
  have hlength : word.length = (List.replicate word.length (0 : S)).length := List.length_replicate.symm
  have hdiff : diff word (List.replicate word.length 0) = word := by
    induction word with
    | nil => rfl
    | cons v word ih =>
      rw [List.length_cons, List.replicate_succ]
      exact congrArg₂ List.cons (sub_zero v) (ih List.length_replicate.symm)
  have h : run step (s - s) (diff word (List.replicate word.length 0)) =
      run step s word - run step s (List.replicate word.length 0) := run_diff hlength
  rw [sub_self, hdiff, run_replicate_zero] at h
  rw [h, add_sub_cancel]

lemma eq_of_diff (h : word.length = word'.length) (hzero : ∀ v ∈ diff word word', v = 0) : word = word' := by
  induction word generalizing word' with
  | nil => exact (List.length_eq_zero_iff.mp h.symm).symm
  | cons v word ih =>
    cases word' with
    | nil => cases h
    | cons v' word' =>
      obtain ⟨hhead, htail⟩ := List.forall_mem_cons.mp hzero
      rw [sub_eq_zero.mp hhead, ih (Nat.succ.inj h) htail]

/-! ### The difference and the distance -/

variable [DecidableEq S]

lemma countP_diff : (diff word word').countP (· ≠ 0) = distance word word' := by
  induction word generalizing word' with
  | nil => rfl
  | cons v word ih =>
    cases word' with
    | nil => rfl
    | cons v' word' =>
      have hdiff : diff (v :: word) (v' :: word') = (v - v') :: diff word word' := rfl
      rw [hdiff, distance_cons, List.countP_cons, ih]
      simp [sub_eq_zero]

/-- A symbol that has been moved on for at most `n` steps is no symbol any more. -/
def Spreads (step : S →+ S) (symbols : AddSubgroup S) (n : ℕ) : Prop :=
  ∀ d, 1 ≤ d → d ≤ n → ∀ a ∈ symbols, a ≠ 0 → step^[d] a ∉ symbols

section Detection

variable {symbols : AddSubgroup S} {n : ℕ} (hinj : Function.Injective step) (hspreads : Spreads step symbols n)
include hinj

lemma run_ne_zero_of_countP_zero {a : S} (ha : a ≠ 0) (hcount : word.countP (· ≠ 0) = 0) : run step a word ≠ 0 := by
  have hzero : word = List.replicate word.length 0 := by
    refine List.eq_replicate_iff.mpr ⟨rfl, fun v hv => ?_⟩
    simpa using List.countP_eq_zero.mp hcount v hv
  rw [hzero, run_replicate_zero]
  intro hrun
  apply ha
  apply hinj.iterate word.length
  rw [hrun, iterate_map_zero]

include hspreads

/-- One more error does not undo an error. -/
lemma run_ne_zero_of_countP_le_one {a : S} (ha : a ∈ symbols) (hne : a ≠ 0) (hmem : ∀ v ∈ word, v ∈ symbols)
    (hcount : word.countP (· ≠ 0) ≤ 1) {d : ℕ} (hlength : d + word.length ≤ n) : run step (step^[d] a) word ≠ 0 := by
  have hiterate (d : ℕ) : step^[d] a ≠ 0 := by
    intro hzero
    apply hne
    apply hinj.iterate d
    rw [hzero, iterate_map_zero]
  induction word generalizing d with
  | nil => exact hiterate d
  | cons v word ih =>
    obtain ⟨hv, hword⟩ := List.forall_mem_cons.mp hmem
    rw [List.length_cons] at hlength
    rw [run_cons, ← Function.iterate_succ_apply' step]
    by_cases hzero : v = 0
    · subst hzero
      rw [add_zero]
      exact ih hword (by simpa using hcount) (by omega)
    · rw [List.countP_cons_of_pos (by simpa using hzero)] at hcount
      refine run_ne_zero_of_countP_zero hinj (fun hsum => ?_) (by omega)
      apply hspreads (d + 1) (by omega) (by omega) a ha hne
      rw [eq_neg_of_add_eq_zero_left hsum]
      exact neg_mem hv

/-- Two errors are seen. -/
lemma eq_zero_of_run_eq_zero (hmem : ∀ v ∈ word, v ∈ symbols) (hcount : word.countP (· ≠ 0) ≤ 2)
    (hlength : word.length ≤ n) (hrun : run step 0 word = 0) : ∀ v ∈ word, v = 0 := by
  induction word with
  | nil => simp
  | cons v word ih =>
    obtain ⟨hv, hword⟩ := List.forall_mem_cons.mp hmem
    rw [List.length_cons] at hlength
    rw [run_cons, map_zero, zero_add] at hrun
    by_cases hzero : v = 0
    · subst hzero
      exact List.forall_mem_cons.mpr ⟨rfl, ih hword (by simpa using hcount) (by omega) hrun⟩
    · rw [List.countP_cons_of_pos (by simpa using hzero)] at hcount
      exact absurd hrun (run_ne_zero_of_countP_le_one hinj hspreads hv hzero hword (by omega) (d := 0) (by omega))

/-- Two words of the same length that leave the register alike and differ in at most two symbols are the same. -/
theorem eq_of_run_eq (hmem : ∀ v ∈ word, v ∈ symbols) (hmem' : ∀ v ∈ word', v ∈ symbols)
    (hlength : word.length = word'.length) (hn : word.length ≤ n) (hdistance : distance word word' ≤ 2)
    (hrun : run step s word = run step s word') : word = word' := by
  apply eq_of_diff hlength
  apply eq_zero_of_run_eq_zero hinj hspreads
  · intro v hv
    obtain ⟨i, hi, rfl⟩ := List.getElem_of_mem hv
    unfold diff at hi ⊢
    rw [List.getElem_zipWith]
    exact sub_mem (hmem _ (List.getElem_mem _)) (hmem' _ (List.getElem_mem _))
  · rw [countP_diff]
    exact hdistance
  · unfold diff
    rw [List.length_zipWith]
    omega
  · have h : run step (s - s) (diff word word') = run step s word - run step s word' := run_diff hlength
    rwa [sub_self, hrun, sub_self] at h

end Detection

end LinearChecksum
