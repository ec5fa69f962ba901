import Mathlib.Data.List.Basic

/-!
# Unambiguous formats

Two texts that start the same stream of symbols, and what can be said about them then. A format
is unambiguous when this is that what they stand for is the same. The length of the stream is
bounded, so that formats with bounded length fields have a place here.
-/

namespace Unambiguous

variable {α : Type} {N : Nat} {A A' B B' : List α} {P Q : Prop}

/-- When `A` and `B` start one stream of fewer than `N` symbols, `P` holds and they end at the
same place. -/
def Determines (N : Nat) (A B : List α) (P : Prop) : Prop :=
  ∀ x y, (A ++ x).length < N → A ++ x = B ++ y → P ∧ x = y

namespace Determines

lemma nil : Determines N ([] : List α) [] True := fun _ _ _ h => ⟨trivial, h⟩

lemma mono (h : Determines N A B P) (hPQ : P → Q) : Determines N A B Q := fun x y hlen heq =>
  (h x y hlen heq).imp_left hPQ

/-- What comes first may be used for what comes next. -/
lemma seq (h : Determines N A B P) (h' : P → Determines N A' B' Q) :
    Determines N (A ++ A') (B ++ B') (P ∧ Q) := by
  intro x y hlen heq
  rw [List.append_assoc] at hlen heq
  rw [List.append_assoc B] at heq
  obtain ⟨hP, hrest⟩ := h _ _ hlen heq
  have hlen' : (A' ++ x).length < N := by
    rw [List.length_append] at hlen
    omega
  obtain ⟨hQ, hxy⟩ := h' hP x y hlen' hrest
  exact ⟨⟨hP, hQ⟩, hxy⟩

/-- Texts of one length are equal. -/
lemma fixed (hlen : A.length = B.length) : Determines N A B (A = B) := fun _ _ _ heq =>
  List.append_inj heq hlen

/-- Texts with different starts do not start the same stream. -/
lemma clash {C D : List α} (hA : C <+: A) (hB : D <+: B) (hlen : C.length = D.length) (hne : C ≠ D) :
    Determines N A B P := by
  obtain ⟨rest, rfl⟩ := hA
  obtain ⟨rest', rfl⟩ := hB
  intro x y _ heq
  rw [List.append_assoc, List.append_assoc] at heq
  exact absurd (List.append_inj heq hlen).1 hne

/-- The bound may be used. -/
lemma of_length (h : A.length < N → B.length < N → Determines N A B P) : Determines N A B P := by
  intro x y hlen heq
  have hlen' : (B ++ y).length < N := heq ▸ hlen
  rw [List.length_append] at hlen hlen'
  exact h (by omega) (by omega) x y (by rw [List.length_append]; exact hlen) heq

end Determines

end Unambiguous
