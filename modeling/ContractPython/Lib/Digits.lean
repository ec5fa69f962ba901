import Mathlib.Data.Nat.Digits.Lemmas

/-!
# Numbers in a base

Lists of digits with the most significant one first, the numbers they spell, and the change of
the base that keeps the zeros in front.
-/

namespace Digits

/-- The number the digits spell in base `b`. -/
def value (b : ℕ) (l : List ℕ) : ℕ := Nat.ofDigits b l.reverse

variable {b c : ℕ} {l l' : List ℕ}

@[simp] lemma value_nil : value b [] = 0 := rfl

lemma value_append : value b (l ++ l') = value b l * b ^ l'.length + value b l' := by
  unfold value
  rw [List.reverse_append, Nat.ofDigits_append, List.length_reverse, Nat.add_comm, Nat.mul_comm]

lemma value_concat (d : ℕ) : value b (l ++ [d]) = value b l * b + d := by
  rw [value_append]
  simp [value]

lemma value_cons (d : ℕ) : value b (d :: l) = d * b ^ l.length + value b l := by
  have h : value b ([d] ++ l) = value b [d] * b ^ l.length + value b l := value_append
  simpa [value] using h

@[simp] lemma value_replicate_zero (n : ℕ) : value b (List.replicate n 0) = 0 := by
  rw [value, List.reverse_replicate, Nat.ofDigits_replicate_zero]

lemma value_lt (hb : 1 < b) (h : ∀ d ∈ l, d < b) : value b l < b ^ l.length := by
  have hlt := Nat.ofDigits_lt_base_pow_length hb (l := l.reverse) fun d hd => h d (List.mem_reverse.mp hd)
  rwa [List.length_reverse] at hlt

/-- So many digits are determined by their number. -/
lemma eq_of_value_eq (hb : 1 < b) (hl : ∀ d ∈ l, d < b) (hl' : ∀ d ∈ l', d < b) (hlength : l.length = l'.length)
    (hvalue : value b l = value b l') : l = l' := by
  apply List.reverse_injective
  apply Nat.ofDigits_inj_of_len_eq hb
  · rw [List.length_reverse, List.length_reverse, hlength]
  · exact fun d hd => hl d (List.mem_reverse.mp hd)
  · exact fun d hd => hl' d (List.mem_reverse.mp hd)
  · exact hvalue

/-! ### Zeros in front -/

/-- The number of zeros in front. -/
def zeros (l : List ℕ) : ℕ := (l.takeWhile (· == 0)).length

/-- The digits behind them. -/
def significant (l : List ℕ) : List ℕ := l.dropWhile (· == 0)

lemma zeros_append_significant (l : List ℕ) : List.replicate (zeros l) 0 ++ significant l = l := by
  induction l with
  | nil => rfl
  | cons d l ih =>
    by_cases hd : d = 0
    · subst hd
      have hzeros : zeros (0 :: l) = zeros l + 1 := rfl
      have hsignificant : significant (0 :: l) = significant l := rfl
      rw [hzeros, hsignificant, List.replicate_succ, List.cons_append, ih]
    · simp [zeros, significant, hd]

lemma zeros_add_length (l : List ℕ) : zeros l + (significant l).length = l.length := by
  conv_rhs => rw [← zeros_append_significant l, List.length_append, List.length_replicate]

lemma drop_zeros (l : List ℕ) : l.drop (zeros l) = significant l := by
  have h : (l.takeWhile (· == 0) ++ l.dropWhile (· == 0)).drop (zeros l) = significant l := List.drop_left
  rwa [List.takeWhile_append_dropWhile] at h

/-- All but `n` of the zeros dropped. -/
lemma drop_zeros_sub {n : ℕ} (hn : n ≤ zeros l) :
    l.drop (zeros l - n) = List.replicate n 0 ++ significant l := by
  conv_lhs => rw [← zeros_append_significant l]
  have hzeros : zeros (List.replicate (zeros l) 0 ++ significant l) = zeros l := by rw [zeros_append_significant]
  rw [hzeros, List.drop_append_of_le_length (by simp), List.drop_replicate]
  congr 2
  omega

lemma value_significant (l : List ℕ) : value b (significant l) = value b l := by
  conv_rhs => rw [← zeros_append_significant l, value_append, value_replicate_zero, Nat.zero_mul, Nat.zero_add]

lemma head_significant (l : List ℕ) : (significant l).head? ≠ some 0 := by
  have h := List.head?_dropWhile_not (fun d : ℕ => d == 0) l
  intro hzero
  unfold significant at hzero
  rw [hzero] at h
  simp at h

/-- They are the digits of the number. -/
lemma significant_eq (hb : 1 < b) (h : ∀ d ∈ l, d < b) : significant l = (Nat.digits b (value b l)).reverse := by
  have hlt : ∀ d ∈ (significant l).reverse, d < b := fun d hd =>
    h d ((List.dropWhile_sublist _).mem (List.mem_reverse.mp hd))
  have hlast : ∀ hne : (significant l).reverse ≠ [], (significant l).reverse.getLast hne ≠ 0 := by
    intro hne hzero
    apply head_significant l
    rw [List.getLast_reverse] at hzero
    rw [List.head?_eq_some_head (by simpa using hne), hzero]
  have hdigits := Nat.digits_ofDigits b hb _ hlt hlast
  rw [← value_significant (b := b) l, value, hdigits, List.reverse_reverse]

/-- Zeros and the digits of a number. -/
lemma zeros_digits (n v : ℕ) : zeros (List.replicate n 0 ++ (Nat.digits b v).reverse) = n := by
  have hnone : zeros (Nat.digits b v).reverse = 0 := by
    unfold zeros
    cases hdigits : (Nat.digits b v).reverse with
    | nil => rfl
    | cons d rest =>
      have hne : Nat.digits b v ≠ [] := by
        intro hnil
        simp [hnil] at hdigits
      have hv : v ≠ 0 := fun hv => hne (Nat.digits_eq_nil_iff_eq_zero.mpr hv)
      have hhead : (Nat.digits b v).getLast hne = d := by
        have hlast := List.getLast_eq_head_reverse hne
        rw [hlast]
        simp [hdigits]
      have hd : d ≠ 0 := hhead ▸ Nat.getLast_digit_ne_zero b hv
      simp [hd]
  induction n with
  | zero => simpa using hnone
  | succ n ih =>
    rw [List.replicate_succ, List.cons_append]
    exact congrArg (· + 1) ih

/-! ### The change of the base -/

/-- The number in another base, with as many zeros in front. -/
def rebase (b c : ℕ) (l : List ℕ) : List ℕ := List.replicate (zeros l) 0 ++ (Nat.digits c (value b l)).reverse

lemma value_rebase : value c (rebase b c l) = value b l := by
  unfold rebase
  rw [value_append, value_replicate_zero, Nat.zero_mul, Nat.zero_add, value, List.reverse_reverse,
    Nat.ofDigits_digits]

lemma lt_of_mem_rebase (hc : 1 < c) : ∀ d ∈ rebase b c l, d < c := by
  intro d hd
  rcases List.mem_append.mp hd with hzero | hdigit
  · rw [List.eq_of_mem_replicate hzero]
    omega
  · exact Nat.digits_lt_base hc (List.mem_reverse.mp hdigit)

/-- Going back to the first base gives the digits back. -/
theorem rebase_rebase (hb : 1 < b) (h : ∀ d ∈ l, d < b) : rebase c b (rebase b c l) = l := by
  have hzeros : zeros (rebase b c l) = zeros l := zeros_digits _ _
  show List.replicate (zeros (rebase b c l)) 0 ++ (Nat.digits b (value c (rebase b c l))).reverse = l
  rw [hzeros, value_rebase, ← significant_eq hb h, zeros_append_significant]

/-! ### Groups of bits -/

/-- `fine`, in groups of `i` bits, spells what `coarse` spells in groups of `o` bits, and fewer than `i`
zero bits behind it. -/
def Regroups (i o : ℕ) (fine coarse : List ℕ) : Prop :=
  ∃ p < i, fine.length * i = coarse.length * o + p ∧ value (2 ^ i) fine = value (2 ^ o) coarse * 2 ^ p

variable {i o : ℕ} {fine fine' coarse coarse' : List ℕ}

lemma one_lt_two_pow (hi : 0 < i) : 1 < 2 ^ i := Nat.one_lt_two_pow (by omega)

/-- A remainder below the divisor, in both ways to divide. -/
lemma eq_of_mul_add_eq {q q' p p' : ℕ} (hp : p < i) (hp' : p' < i) (h : q * i + p = q' * i + p') :
    q = q' ∧ p = p' := by
  have hi : 0 < i := by omega
  have hdiv := congrArg (· / i) h
  rw [Nat.mul_comm q, Nat.mul_comm q', Nat.mul_add_div hi, Nat.mul_add_div hi, Nat.div_eq_of_lt hp,
    Nat.div_eq_of_lt hp', Nat.add_zero, Nat.add_zero] at hdiv
  subst hdiv
  exact ⟨rfl, by omega⟩

lemma Regroups.coarse_unique (hio : i ≤ o) (hcoarse : ∀ d ∈ coarse, d < 2 ^ o) (hcoarse' : ∀ d ∈ coarse', d < 2 ^ o)
    (h : Regroups i o fine coarse) (h' : Regroups i o fine coarse') : coarse = coarse' := by
  obtain ⟨p, hp, hlength, hvalue⟩ := h
  obtain ⟨p', hp', hlength', hvalue'⟩ := h'
  obtain ⟨hcount, rfl⟩ := eq_of_mul_add_eq (hp.trans_le hio) (hp'.trans_le hio) (hlength.symm.trans hlength')
  have hsame := Nat.eq_of_mul_eq_mul_right (Nat.two_pow_pos p) (hvalue.symm.trans hvalue')
  exact eq_of_value_eq (one_lt_two_pow (by omega)) hcoarse hcoarse' hcount hsame

lemma Regroups.fine_unique (hfine : ∀ d ∈ fine, d < 2 ^ i) (hfine' : ∀ d ∈ fine', d < 2 ^ i)
    (h : Regroups i o fine coarse) (h' : Regroups i o fine' coarse) : fine = fine' := by
  obtain ⟨p, hp, hlength, hvalue⟩ := h
  obtain ⟨p', hp', hlength', hvalue'⟩ := h'
  have hsame : fine.length * i + p' = fine'.length * i + p := by omega
  obtain ⟨hcount, rfl⟩ := eq_of_mul_add_eq hp' hp hsame
  exact eq_of_value_eq (one_lt_two_pow (by omega)) hfine hfine' hcount (hvalue.trans hvalue'.symm)

end Digits
