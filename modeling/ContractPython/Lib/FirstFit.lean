import Mathlib.Data.List.Basic

/-!
# First fit

Ranges of numbers, each a start and a length, and the search for the first gap between ranges in
ascending order.
-/

namespace FirstFit

/-- Two ranges without a common number. -/
def Apart (b b' : Nat × Nat) : Prop := b.1 + b.2 ≤ b'.1 ∨ b'.1 + b'.2 ≤ b.1

lemma Apart.symm {b b' : Nat × Nat} (h : Apart b b') : Apart b' b := Or.symm h

/-- A range of positive length is not apart from itself. -/
lemma not_apart_self {b : Nat × Nat} (h : 0 < b.2) : ¬Apart b b := by
  unfold Apart
  omega

/-- Ranges one behind the other, the first of them behind `last`. -/
def Ascending : Nat → List (Nat × Nat) → Prop
  | _, [] => True
  | last, b :: bs => last ≤ b.1 ∧ Ascending (b.1 + b.2) bs

/-- The end of the last range before the first gap of `size` numbers. -/
def firstGap (size : Nat) : Nat → List (Nat × Nat) → Option Nat
  | _, [] => none
  | last, b :: bs => if size ≤ b.1 - last then some last else firstGap size (b.1 + b.2) bs

section

variable {size last g : Nat} {bs : List (Nat × Nat)}

lemma Ascending.le (h : Ascending last bs) {b : Nat × Nat} (hb : b ∈ bs) : last ≤ b.1 := by
  induction bs generalizing last with
  | nil => cases hb
  | cons b' bs ih =>
    obtain rfl | hb := List.mem_cons.mp hb
    · exact h.1
    · have := ih h.2 hb
      have := h.1
      omega

/-- A gap lies behind the start of the search. -/
lemma le_of_firstGap (h : Ascending last bs) (hg : firstGap size last bs = some g) : last ≤ g := by
  induction bs generalizing last with
  | nil => cases hg
  | cons b bs ih =>
    rw [firstGap] at hg
    split at hg
    · exact Nat.le_of_eq (Option.some.inj hg)
    · have := ih h.2 hg
      have := h.1
      omega

/-- There is a range behind the gap. -/
lemma exists_behind_firstGap (h : Ascending last bs) (hg : firstGap size last bs = some g) :
    ∃ b ∈ bs, g + size ≤ b.1 := by
  induction bs generalizing last with
  | nil => cases hg
  | cons b bs ih =>
    rw [firstGap] at hg
    split at hg
    · have := h.1
      obtain rfl := Option.some.inj hg
      exact ⟨b, List.mem_cons_self, by omega⟩
    · obtain ⟨b', hb', hle⟩ := ih h.2 hg
      exact ⟨b', List.mem_cons_of_mem _ hb', hle⟩

/-- The gap is apart from all ranges. -/
lemma apart_of_firstGap (h : Ascending last bs) (hg : firstGap size last bs = some g)
    {b : Nat × Nat} (hb : b ∈ bs) : Apart (g, size) b := by
  induction bs generalizing last with
  | nil => cases hb
  | cons b' bs ih =>
    have hlast := h.1
    rw [firstGap] at hg
    split at hg
    · obtain rfl := Option.some.inj hg
      obtain rfl | hb := List.mem_cons.mp hb
      · exact .inl (by omega)
      · have := h.2.le hb
        exact .inl (by omega)
    · obtain rfl | hb := List.mem_cons.mp hb
      · exact .inr (le_of_firstGap h.2 hg)
      · exact ih h.2 hg hb

/-- Where `size` numbers are free in front of a range, the search finds a gap. -/
lemma firstGap_ne_none (h : Ascending last bs) {q : Nat} (hlast : last ≤ q) (hsize : 0 < size)
    {b : Nat × Nat} (hb : b ∈ bs) (hroom : q + size ≤ b.1) (hfree : ∀ b ∈ bs, Apart (q, size) b) :
    firstGap size last bs ≠ none := by
  induction bs generalizing last with
  | nil => cases hb
  | cons b' bs ih =>
    rw [firstGap]
    by_cases hgap : size ≤ b'.1 - last
    · simp [hgap]
    rw [if_neg hgap]
    obtain hbefore | hbehind := hfree b' List.mem_cons_self
    · simp only at hbefore
      omega
    · have hrest : b ∈ bs := by
        obtain rfl | hb := List.mem_cons.mp hb
        · simp only at hbehind
          omega
        · exact hb
      exact ih h.2 hbehind hrest fun b hb => hfree b (List.mem_cons_of_mem _ hb)

/-- Among ranges of whole units, the gap starts at a whole unit. -/
lemma dvd_of_firstGap {d : Nat} (hlast : d ∣ last) (hd : ∀ b ∈ bs, d ∣ b.1 + b.2)
    (hg : firstGap size last bs = some g) : d ∣ g := by
  induction bs generalizing last with
  | nil => cases hg
  | cons b bs ih =>
    rw [firstGap] at hg
    split at hg
    · obtain rfl := Option.some.inj hg
      exact hlast
    · exact ih (hd b List.mem_cons_self) (fun b' hb' => hd b' (List.mem_cons_of_mem _ hb')) hg

end

end FirstFit
