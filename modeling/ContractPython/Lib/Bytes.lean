import Mathlib.Data.List.Basic
import Mathlib.Algebra.Order.Ring.Nat
import Mathlib.Tactic.Ring

/-!
# Big-endian words and segments of byte strings

Fixed-width numbers written most significant byte first, and the relation saying
that a byte string occurs inside another one at a given position.
-/

namespace Bytes

/-- The last `width` base-256 digits of a number, most significant first. -/
def encodeBE : Nat → Nat → List UInt8
  | 0, _ => []
  | width + 1, x => UInt8.ofNat (x / 256 ^ width) :: encodeBE width x

/-- The number a byte string spells in base 256. -/
def decodeBE : List UInt8 → Nat
  | [] => 0
  | b :: rest => b.toNat * 256 ^ rest.length + decodeBE rest

@[simp] lemma length_encodeBE (width x : Nat) : (encodeBE width x).length = width := by
  induction width with
  | zero => rfl
  | succ width ih => simp [encodeBE, ih]

@[simp] lemma decodeBE_encodeBE (width x : Nat) : decodeBE (encodeBE width x) = x % 256 ^ width := by
  induction width with
  | zero => simp [encodeBE, decodeBE, Nat.mod_one]
  | succ width ih =>
    have hdigit : (UInt8.ofNat (x / 256 ^ width)).toNat = x / 256 ^ width % 256 := by simp
    rw [encodeBE, decodeBE, hdigit, length_encodeBE, ih, pow_succ, Nat.mod_mul]
    ring

/-! ### Segments -/

variable {α : Type}

/-- `seg` occurs in `data` starting at position `pos`. -/
def OccursAt (seg data : List α) (pos : Nat) : Prop := seg <+: data.drop pos

lemma occursAt_append (seg seg' data : List α) (pos : Nat) :
    OccursAt (seg ++ seg') data pos ↔ OccursAt seg data pos ∧ OccursAt seg' data (pos + seg.length) := by
  unfold OccursAt
  constructor
  · rintro ⟨rest, h⟩
    refine ⟨⟨seg' ++ rest, by simpa using h⟩, ⟨rest, ?_⟩⟩
    rw [← List.drop_drop, ← h]
    simp
  · rintro ⟨⟨rest, h⟩, ⟨rest', h'⟩⟩
    rw [← List.drop_drop, ← h, List.drop_left] at h'
    exact ⟨rest', by rw [List.append_assoc, h', h]⟩

lemma occursAt_middle (before seg after : List α) :
    OccursAt seg (before ++ seg ++ after) before.length := by
  refine ⟨after, ?_⟩
  rw [List.append_assoc, List.drop_left]

lemma take_drop_of_occursAt {seg data : List α} {pos : Nat} (h : OccursAt seg data pos) :
    (data.drop pos).take seg.length = seg :=
  (List.prefix_iff_eq_take.mp h).symm

lemma length_le_of_occursAt {seg data : List α} {pos : Nat} (h : OccursAt seg data pos)
    (hne : seg ≠ []) : pos + seg.length ≤ data.length := by
  have hle := h.length_le
  have hpos := List.length_pos_of_ne_nil hne
  rw [List.length_drop] at hle
  omega

end Bytes
