import Mathlib.Data.List.Basic
import Mathlib.Algebra.GroupWithZero.Nat
import Mathlib.Algebra.BigOperators.Group.List.Basic

/-!
# Finite maps as sorted entry lists

An ordered map kept as a list of entries with strictly increasing keys. The order
of the keys is part of the value, so two maps with the same lookups are equal and
iteration visits the keys in ascending order.
-/

open Std

/-- A finite map whose entries are sorted by strictly increasing keys. -/
structure SortedMap (κ ν : Type) [Ord κ] where
  entries : List (κ × ν)
  sorted : entries.Pairwise (fun a b => compare a.1 b.1 = .lt)

namespace SortedMap

variable {κ ν : Type} [Ord κ]

section Entries

/-- The value stored under `k`, if any. -/
def lookup (k : κ) : List (κ × ν) → Option ν
  | [] => none
  | (k', v) :: rest => if compare k k' = .eq then some v else lookup k rest

/-- Insertion at the place of `k`, replacing the value of an equal key. -/
def insertEntry (k : κ) (v : ν) : List (κ × ν) → List (κ × ν)
  | [] => [(k, v)]
  | (k', v') :: rest =>
    match compare k k' with
    | .lt => (k, v) :: (k', v') :: rest
    | .eq => (k, v) :: rest
    | .gt => (k', v') :: insertEntry k v rest

lemma mem_insertEntry (k : κ) (v : ν) (l : List (κ × ν)) (e : κ × ν)
    (h : e ∈ insertEntry k v l) : e = (k, v) ∨ e ∈ l := by
  induction l with
  | nil => simpa [insertEntry] using h
  | cons hd rest ih =>
    obtain ⟨k', v'⟩ := hd
    rw [insertEntry] at h
    cases hc : compare k k' <;> rw [hc] at h <;> simp only [List.mem_cons] at h ⊢
    · exact h
    · tauto
    · rcases h with h | h
      · exact Or.inr (Or.inl h)
      · rcases ih h with h | h <;> tauto

variable [TransOrd κ]

lemma insertEntry_sorted (k : κ) (v : ν) (l : List (κ × ν))
    (h : l.Pairwise (fun a b => compare a.1 b.1 = .lt)) :
    (insertEntry k v l).Pairwise (fun a b => compare a.1 b.1 = .lt) := by
  induction l with
  | nil => simp [insertEntry]
  | cons hd rest ih =>
    obtain ⟨k', v'⟩ := hd
    obtain ⟨hhd, hrest⟩ := List.pairwise_cons.mp h
    rw [insertEntry]
    cases hc : compare k k' with
    | lt =>
      refine List.pairwise_cons.mpr ⟨?_, h⟩
      intro e he
      rcases List.mem_cons.mp he with rfl | he
      · exact hc
      · exact TransCmp.lt_trans hc (hhd e he)
    | eq =>
      refine List.pairwise_cons.mpr ⟨?_, hrest⟩
      intro e he
      exact TransCmp.lt_of_eq_of_lt hc (hhd e he)
    | gt =>
      refine List.pairwise_cons.mpr ⟨?_, ih hrest⟩
      intro e he
      rcases mem_insertEntry k v rest e he with rfl | he
      · exact OrientedCmp.lt_of_gt hc
      · exact hhd e he

end Entries

/-- The map with no entries. -/
def empty : SortedMap κ ν := ⟨[], List.Pairwise.nil⟩

instance : Inhabited (SortedMap κ ν) := ⟨empty⟩

instance [DecidableEq κ] [DecidableEq ν] : DecidableEq (SortedMap κ ν) := fun m m' =>
  decidable_of_iff (m.entries = m'.entries) (by cases m; cases m'; simp)

def find? (m : SortedMap κ ν) (k : κ) : Option ν := lookup k m.entries

def contains (m : SortedMap κ ν) (k : κ) : Bool := (m.find? k).isSome

def size (m : SortedMap κ ν) : Nat := m.entries.length

def insert [TransOrd κ] (m : SortedMap κ ν) (k : κ) (v : ν) : SortedMap κ ν :=
  ⟨insertEntry k v m.entries, insertEntry_sorted k v m.entries m.sorted⟩

def erase (m : SortedMap κ ν) (k : κ) : SortedMap κ ν :=
  ⟨m.entries.filter (fun e => compare k e.1 != .eq), m.sorted.filter _⟩

/-- The smallest key, where iteration starts. -/
def first? (m : SortedMap κ ν) : Option κ := m.entries.head?.map Prod.fst

/-- The smallest key above `k`, where iteration continues after `k`. -/
def next? (m : SortedMap κ ν) (k : κ) : Option κ :=
  (m.entries.find? (fun e => compare k e.1 == .lt)).map Prod.fst

@[simp] lemma find?_empty (k : κ) : (empty : SortedMap κ ν).find? k = none := rfl

@[simp] lemma erase_erase (m : SortedMap κ ν) (k : κ) : (m.erase k).erase k = m.erase k := by
  unfold erase
  simp only [List.filter_filter, Bool.and_self]

/-- Iteration continues with the entry behind. -/
lemma next?_of_entries [TransOrd κ] {m : SortedMap κ ν} {k : κ} {v : ν} {done rest : List (κ × ν)}
    (h : m.entries = done ++ (k, v) :: rest) : m.next? k = rest.head?.map Prod.fst := by
  have hsorted := m.sorted
  rw [h, List.pairwise_append] at hsorted
  obtain ⟨-, hrest, hdone⟩ := hsorted
  have hbefore : done.find? (fun e => compare k e.1 == .lt) = none := by
    rw [List.find?_eq_none]
    intro e he
    have hlt := hdone e he (k, v) List.mem_cons_self
    rw [OrientedCmp.gt_of_lt hlt]
    decide
  unfold next?
  rw [h, List.find?_append, hbefore, Option.none_or, List.find?_cons_of_neg (by simp)]
  cases rest with
  | nil => rfl
  | cons e rest =>
    have hlt := (List.pairwise_cons.mp hrest).1 e List.mem_cons_self
    rw [List.find?_cons_of_pos (by simpa using hlt), List.head?_cons]

section Lookup

variable [LawfulEqOrd κ]

lemma lookup_insertEntry_self (k : κ) (v : ν) (l : List (κ × ν)) :
    lookup k (insertEntry k v l) = some v := by
  induction l with
  | nil => simp [insertEntry, lookup]
  | cons hd rest ih =>
    obtain ⟨k', v'⟩ := hd
    rw [insertEntry]
    cases hc : compare k k' with
    | lt => simp [lookup]
    | eq => simp [lookup]
    | gt => simp [lookup, hc, ih]

lemma lookup_insertEntry_of_ne (k k' : κ) (v : ν) (hne : k' ≠ k) (l : List (κ × ν)) :
    lookup k' (insertEntry k v l) = lookup k' l := by
  have hk : compare k' k ≠ .eq := fun h => hne (compare_eq_iff_eq.mp h)
  induction l with
  | nil => simp [insertEntry, lookup, hk]
  | cons hd rest ih =>
    obtain ⟨k'', v''⟩ := hd
    rw [insertEntry]
    cases hc : compare k k'' with
    | lt => simp [lookup, hk]
    | eq =>
      obtain rfl := compare_eq_iff_eq.mp hc
      simp [lookup, hk]
    | gt => simp [lookup, ih]

lemma lookup_filter_self (k : κ) (l : List (κ × ν)) :
    lookup k (l.filter (fun e => compare k e.1 != .eq)) = none := by
  induction l with
  | nil => rfl
  | cons hd rest ih =>
    by_cases h : k = hd.1
    · simpa [h] using (h ▸ ih)
    · simp [h, lookup, ih]

lemma lookup_filter_of_ne (k k' : κ) (hne : k' ≠ k) (l : List (κ × ν)) :
    lookup k' (l.filter (fun e => compare k e.1 != .eq)) = lookup k' l := by
  induction l with
  | nil => rfl
  | cons hd rest ih =>
    by_cases h : k = hd.1
    · subst h
      simp [ih, lookup, hne]
    · simp [h, lookup, ih]

lemma mem_of_lookup {k : κ} {v : ν} {l : List (κ × ν)} (h : lookup k l = some v) : (k, v) ∈ l := by
  induction l with
  | nil => cases h
  | cons hd rest ih =>
    obtain ⟨k', v'⟩ := hd
    rw [lookup] at h
    split at h
    · rename_i hc
      obtain rfl := compare_eq_iff_eq.mp hc
      obtain rfl := Option.some.inj h
      exact List.mem_cons_self
    · exact List.mem_cons_of_mem _ (ih h)

lemma lookup_of_mem {k : κ} {v : ν} {l : List (κ × ν)}
    (hl : l.Pairwise (fun a b => compare a.1 b.1 = .lt)) (h : (k, v) ∈ l) : lookup k l = some v := by
  induction l with
  | nil => cases h
  | cons hd rest ih =>
    obtain ⟨k', v'⟩ := hd
    obtain ⟨hhd, hrest⟩ := List.pairwise_cons.mp hl
    rw [lookup]
    obtain heq | h := List.mem_cons.mp h
    · cases heq
      rw [if_pos ReflOrd.compare_self]
    · have hlt := hhd (k, v) h
      have hne : ¬compare k k' = .eq := by
        intro hc
        obtain rfl := compare_eq_iff_eq.mp hc
        rw [hc] at hlt
        cases hlt
      rw [if_neg hne]
      exact ih hrest h

lemma find?_eq_some_iff {m : SortedMap κ ν} {k : κ} {v : ν} :
    m.find? k = some v ↔ (k, v) ∈ m.entries :=
  ⟨mem_of_lookup, lookup_of_mem m.sorted⟩

lemma contains_eq_false {m : SortedMap κ ν} {k : κ} (h : ∀ e ∈ m.entries, e.1 ≠ k) :
    m.contains k = false := by
  unfold contains
  cases hv : m.find? k with
  | none => rfl
  | some v => exact absurd rfl (h _ (find?_eq_some_iff.mp hv))

/-- A new key only comes in. -/
lemma insertEntry_perm {k : κ} (v : ν) {l : List (κ × ν)} (h : ∀ e ∈ l, e.1 ≠ k) :
    (insertEntry k v l).Perm ((k, v) :: l) := by
  induction l with
  | nil => exact .refl _
  | cons hd rest ih =>
    obtain ⟨k', v'⟩ := hd
    rw [insertEntry]
    cases hc : compare k k' with
    | lt => exact .refl _
    | eq => exact absurd (compare_eq_iff_eq.mp hc).symm (h _ List.mem_cons_self)
    | gt =>
      have hrest := ih fun e he => h e (List.mem_cons_of_mem _ he)
      exact (hrest.cons _).trans (.swap _ _ _)

lemma mem_erase {m : SortedMap κ ν} {k : κ} {e : κ × ν} :
    e ∈ (m.erase k).entries ↔ e ∈ m.entries ∧ e.1 ≠ k := by
  have hne : (compare k e.1 != .eq) = true ↔ e.1 ≠ k := by
    rw [bne_iff_ne, ne_eq, Std.compare_eq_iff_eq]
    exact not_congr eq_comm
  exact List.mem_filter.trans (and_congr_right fun _ => hne)

@[simp] lemma find?_erase_self (m : SortedMap κ ν) (k : κ) : (m.erase k).find? k = none :=
  lookup_filter_self k m.entries

lemma find?_erase_of_ne (m : SortedMap κ ν) (k k' : κ) (hne : k' ≠ k) :
    (m.erase k).find? k' = m.find? k' :=
  lookup_filter_of_ne k k' hne m.entries

variable [TransOrd κ]

@[simp] lemma find?_insert_self (m : SortedMap κ ν) (k : κ) (v : ν) :
    (m.insert k v).find? k = some v :=
  lookup_insertEntry_self k v m.entries

lemma find?_insert_of_ne (m : SortedMap κ ν) (k k' : κ) (v : ν) (hne : k' ≠ k) :
    (m.insert k v).find? k' = m.find? k' :=
  lookup_insertEntry_of_ne k k' v hne m.entries

/-- Several entries, the later ones on top of the earlier ones. -/
def insertAll (m : SortedMap κ ν) : List (κ × ν) → SortedMap κ ν
  | [] => m
  | (k, v) :: rest => (m.insert k v).insertAll rest

lemma find?_insertAll_of_notMem {k : κ} {es : List (κ × ν)} (h : k ∉ es.map Prod.fst) (m : SortedMap κ ν) :
    (m.insertAll es).find? k = m.find? k := by
  induction es generalizing m with
  | nil => rfl
  | cons e es ih =>
    obtain ⟨hne, hrest⟩ := not_or.mp (mt List.mem_cons.mpr h)
    rw [insertAll, ih hrest, find?_insert_of_ne _ _ _ _ hne]

/-- Every key of different keys gets its value. -/
lemma find?_insertAll_of_mem {k : κ} {v : ν} {es : List (κ × ν)} (hnodup : (es.map Prod.fst).Nodup)
    (h : (k, v) ∈ es) (m : SortedMap κ ν) : (m.insertAll es).find? k = some v := by
  induction es generalizing m with
  | nil => cases h
  | cons e es ih =>
    obtain ⟨hnew, hrest⟩ := List.nodup_cons.mp hnodup
    obtain rfl | hmem := List.mem_cons.mp h
    · rw [insertAll, find?_insertAll_of_notMem hnew, find?_insert_self]
    · exact ih hrest hmem _

end Lookup

/-! ### Sums of the stored values -/

section Sum

/-- The sum of a measure over all entries. -/
def total (f : ν → Nat) (m : SortedMap κ ν) : Nat := (m.entries.map (fun e => f e.2)).sum

@[simp] lemma total_empty (f : ν → Nat) : total f (empty : SortedMap κ ν) = 0 := rfl

/-- One stored value is at most the total. -/
lemma le_total_of_find? (f : ν → Nat) (m : SortedMap κ ν) (k : κ) (v : ν)
    (h : m.find? k = some v) : f v ≤ total f m := by
  have hl : ∀ l : List (κ × ν), lookup k l = some v → f v ≤ (l.map (fun e => f e.2)).sum := by
    intro l
    induction l with
    | nil => simp [lookup]
    | cons hd rest ih =>
      obtain ⟨k', v'⟩ := hd
      intro hv
      rw [lookup] at hv
      split at hv
      · obtain rfl := Option.some.inj hv
        simp
      · have := ih hv
        simp only [List.map_cons, List.sum_cons]
        omega
  exact hl m.entries h

variable [TransOrd κ]

lemma sum_insertEntry (f : ν → Nat) (k : κ) (v : ν) (l : List (κ × ν))
    (h : l.Pairwise (fun a b => compare a.1 b.1 = .lt)) :
    ((insertEntry k v l).map (fun e => f e.2)).sum + ((lookup k l).map f).getD 0 =
      (l.map (fun e => f e.2)).sum + f v := by
  induction l with
  | nil => simp [insertEntry, lookup]
  | cons hd rest ih =>
    obtain ⟨k', v'⟩ := hd
    obtain ⟨hhd, hrest⟩ := List.pairwise_cons.mp h
    rw [insertEntry]
    cases hc : compare k k' with
    | lt =>
      -- a key below the head is below every key, so it is not stored yet
      have hnone : lookup k rest = none := by
        have habove : ∀ e ∈ rest, compare k e.1 = .lt :=
          fun e he => TransCmp.lt_trans hc (hhd e he)
        clear ih h hhd hrest
        induction rest with
        | nil => rfl
        | cons e rest ih =>
          have he := habove e (by simp)
          simp [lookup, he, ih (fun e' he' => habove e' (by simp [he']))]
      simp [lookup, hc, hnone]
      omega
    | eq => simp [lookup, hc]; omega
    | gt =>
      have hi := ih hrest
      simp only [List.map_cons, List.sum_cons, lookup, hc, reduceCtorEq, if_false]
      omega

/-- Storing `v` under `k` replaces the old value of `k` in the total. -/
lemma total_insert (f : ν → Nat) (m : SortedMap κ ν) (k : κ) (v : ν) :
    total f (m.insert k v) + ((m.find? k).map f).getD 0 = total f m + f v :=
  sum_insertEntry f k v m.entries m.sorted

end Sum

end SortedMap
