import Mathlib.Data.List.Induction
import ContractPython.Model.Containers

/-!
# The persistent store as one map

A `PersistableDictionary` keeps its entries in four maps, one for each type. `Entries` is the
one map it stands for, and `Refines` says that the four maps agree with it. Booleans break the
agreement: `has` and `remove` do not look at them.
-/

namespace ContractPython.Proofs

/-! ### Operations -/

/-- A value a contract stores. -/
inductive Entry
  | string (val : Str)
  | integer (val : Int64)
  | bool (val : Bool)
  deriving DecidableEq

namespace Entry

def value : Entry → Value
  | .string val => .string val
  | .integer val => .integer val
  | .bool val => .bool val

def string? : Entry → Option Str
  | .string val => some val
  | _ => none

def integer? : Entry → Option Int64
  | .integer val => some val
  | _ => none

def isBool : Entry → Bool
  | .bool _ => true
  | _ => false

end Entry

/-- An operation on the store. -/
inductive StoreOp
  | insert (key : Str) (entry : Entry)
  | apply (key : Str) (operand : Entry) (op : BinaryOpType)
  | remove (key : Str)
  | clear
  deriving DecidableEq

/-- The store after an operation; one that throws leaves it as it was. -/
def StoreOp.after (st : Store) : StoreOp → Store
  | .insert key entry => (st.insert key entry.value).toOption.getD st
  | .apply key operand op => (st.apply key (some operand.value) op).toOption.getD st
  | .remove key => st.remove key
  | .clear => st.clear

/-- The store after a sequence of operations, starting empty. -/
def storeAfter (ops : List StoreOp) : Store := ops.foldl StoreOp.after .empty

/-! ### The one map -/

/-- What is stored under each key. -/
abbrev Entries := Str → Option Entry

/-- The operators `apply` knows. -/
def arithmetic : BinaryOpType → Int64 → Int64 → Option Int64
  | .add, old, operand => some (operand + old)
  | .sub, old, operand => some (old - operand)
  | .mult, old, operand => some (old * operand)
  | _, _, _ => none

/-- The integer a successful `apply` leaves; a missing entry counts as zero. -/
def applied (old : Option Entry) (operand : Entry) (op : BinaryOpType) : Option Int64 := do
  let before ← match old with
    | none => some 0
    | some entry => entry.integer?
  arithmetic op before (← operand.integer?)

/-- The last successful write to a key since it was removed. -/
def StoreOp.written (entries : Entries) : StoreOp → Entries
  | .insert key entry => Function.update entries key (some entry)
  | .apply key operand op =>
    match applied (entries key) operand op with
    | some result => Function.update entries key (some (.integer result))
    | none => entries
  | .remove key => Function.update entries key none
  | .clear => fun _ => none

def entriesAfter (ops : List StoreOp) : Entries := ops.foldl StoreOp.written fun _ => none

/-! ### The law -/

/-- The number of maps that hold a key. -/
def holders (st : Store) (key : Str) : Nat :=
  (st.elementsString.contains key).toNat + (st.elementsInt.contains key).toNat +
    (st.elementsDouble.contains key).toNat + (st.elementsBool.contains key).toNat

/-- The four maps behave as the one map `entries`. -/
structure OneMap (st : Store) (entries : Entries) : Prop where
  holders_le : ∀ key, holders st key ≤ 1
  get_eq : ∀ key, st.get? key = (entries key).map Entry.value
  has_eq : ∀ key, st.has key = (st.get? key).isSome
  applies : ∀ key old operand op, st.get? key = some (.integer old) →
    (arithmetic op old operand).isSome →
    (st.apply key (some (.integer operand)) op).toOption.isSome

/-- The store behaves as one map in every state it goes through. -/
def AlwaysOneMap (ops : List StoreOp) : Prop :=
  ∀ done, done <+: ops → OneMap (storeAfter done) (entriesAfter done)

/-- Whether an operation stores a boolean. -/
def StoreOp.insertsBool : StoreOp → Bool
  | .insert _ entry => entry.isBool
  | _ => false

/-! ### Without booleans -/

/-- At a key the maps of strings and integers hold the entry, the other two nothing. -/
structure Agrees (st : Store) (key : Str) (entry : Option Entry) : Prop where
  string_eq : st.elementsString.find? key = entry.bind Entry.string?
  integer_eq : st.elementsInt.find? key = entry.bind Entry.integer?
  no_double : st.elementsDouble.find? key = none
  no_bool : st.elementsBool.find? key = none
  not_bool : ∀ e, entry = some e → e.isBool = false

/-- The four maps hold the entries of the one map. -/
def Refines (st : Store) (entries : Entries) : Prop := ∀ key, Agrees st key (entries key)

namespace Agrees

variable {st : Store} {key : Str} {entry : Option Entry} (h : Agrees st key entry)
include h

lemma get_eq : st.get? key = entry.map Entry.value := by
  unfold Store.get?
  rw [h.string_eq, h.integer_eq, h.no_double, h.no_bool]
  cases entry with
  | none => rfl
  | some e =>
    have hbool := h.not_bool e rfl
    cases e with
    | string val => rfl
    | integer val => rfl
    | bool val => cases hbool

lemma has_eq : st.has key = (st.get? key).isSome := by
  rw [h.get_eq]
  unfold Store.has SortedMap.contains
  rw [h.string_eq, h.integer_eq, h.no_double]
  cases entry with
  | none => rfl
  | some e =>
    have hbool := h.not_bool e rfl
    cases e with
    | string val => rfl
    | integer val => rfl
    | bool val => cases hbool

lemma holders_le : holders st key ≤ 1 := by
  unfold holders SortedMap.contains
  rw [h.string_eq, h.integer_eq, h.no_double, h.no_bool]
  cases entry with
  | none => simp
  | some e => cases e <;> simp [Entry.string?, Entry.integer?]

/-- What `apply` computes from the entry. -/
lemma apply_eq (operand : Entry) (op : BinaryOpType) :
    (st.apply key (some operand.value) op).toOption =
      (applied entry operand op).map fun result =>
        { st with elementsInt := st.elementsInt.insert key result } := by
  unfold Store.apply SortedMap.contains
  rw [h.string_eq, h.integer_eq, h.no_double, h.no_bool]
  cases entry with
  | none => cases operand <;> cases op <;> rfl
  | some e =>
    have hbool := h.not_bool e rfl
    cases e with
    | string val => rfl
    | integer val => cases operand <;> cases op <;> rfl
    | bool val => cases hbool

end Agrees

namespace Refines

variable {st st' : Store} {entries : Entries}

lemma empty : Refines .empty fun _ => none := fun _ =>
  ⟨rfl, rfl, rfl, rfl, fun _ hentry => nomatch hentry⟩

/-- A change at one key. -/
lemma update (h : Refines st entries) {key : Str} {entry : Option Entry}
    (hself : Agrees st' key entry)
    (hother : ∀ key', key' ≠ key → ∀ e, Agrees st key' e → Agrees st' key' e) :
    Refines st' (Function.update entries key entry) := by
  intro key'
  by_cases hkey : key' = key
  · subst hkey
    rwa [Function.update_self]
  · rw [Function.update_of_ne hkey]
    exact hother key' hkey _ (h key')

lemma remove (h : Refines st entries) (key : Str) :
    Refines (st.remove key) (Function.update entries key none) := by
  apply h.update
  · exact ⟨SortedMap.find?_erase_self _ _, SortedMap.find?_erase_self _ _,
      SortedMap.find?_erase_self _ _, (h key).no_bool, fun _ hentry => nomatch hentry⟩
  · intro key' hkey e he
    exact ⟨(SortedMap.find?_erase_of_ne _ _ _ hkey).trans he.string_eq,
      (SortedMap.find?_erase_of_ne _ _ _ hkey).trans he.integer_eq,
      (SortedMap.find?_erase_of_ne _ _ _ hkey).trans he.no_double, he.no_bool, he.not_bool⟩

/-- A string goes into the map of strings when no other map holds its key. -/
lemma insertString (h : Refines st entries) (key : Str) (val : Str)
    (hfree : (entries key).bind Entry.integer? = none) :
    Refines { st with elementsString := st.elementsString.insert key val }
      (Function.update entries key (some (.string val))) := by
  apply h.update
  · have hkey := h key
    refine ⟨SortedMap.find?_insert_self _ _ _, hkey.integer_eq.trans hfree, hkey.no_double,
      hkey.no_bool, ?_⟩
    intro e he
    cases he
    rfl
  · intro key' hkey e he
    exact ⟨(SortedMap.find?_insert_of_ne _ _ _ _ hkey).trans he.string_eq, he.integer_eq,
      he.no_double, he.no_bool, he.not_bool⟩

/-- An integer goes into the map of integers when the map of strings does not hold its key. -/
lemma insertInteger (h : Refines st entries) (key : Str) (val : Int64)
    (hfree : (entries key).bind Entry.string? = none) :
    Refines { st with elementsInt := st.elementsInt.insert key val }
      (Function.update entries key (some (.integer val))) := by
  apply h.update
  · have hkey := h key
    refine ⟨hkey.string_eq.trans hfree, SortedMap.find?_insert_self _ _ _, hkey.no_double,
      hkey.no_bool, ?_⟩
    intro e he
    cases he
    rfl
  · intro key' hkey e he
    exact ⟨he.string_eq, (SortedMap.find?_insert_of_ne _ _ _ _ hkey).trans he.integer_eq,
      he.no_double, he.no_bool, he.not_bool⟩

/-- Every operation but the insertion of a boolean does to the four maps what it does to the
one map. -/
lemma after (h : Refines st entries) (op : StoreOp) (hop : op.insertsBool = false) :
    Refines (op.after st) (op.written entries) := by
  cases op with
  | insert key entry =>
    have hfree : ∀ {α : Type} (f : Entry → Option α),
        (Function.update entries key none key).bind f = none := by simp
    have hremoved := h.remove key
    cases entry with
    | string val =>
      have hwritten := hremoved.insertString key val (hfree _)
      rwa [Function.update_idem] at hwritten
    | integer val =>
      have hwritten := hremoved.insertInteger key val (hfree _)
      rwa [Function.update_idem] at hwritten
    | bool val => cases hop
  | apply key operand op =>
    unfold StoreOp.after StoreOp.written
    dsimp only
    rw [(h key).apply_eq operand op]
    cases happlied : applied (entries key) operand op with
    | none => exact h
    | some result =>
      have hfree : (entries key).bind Entry.string? = none := by
        cases hentry : entries key with
        | none => rfl
        | some e =>
          cases e with
          | string val => simp [hentry, applied, Entry.integer?] at happlied
          | integer val => rfl
          | bool val => rfl
      exact h.insertInteger key result hfree
  | remove key => exact h.remove key
  | clear => exact empty

/-- Four maps that hold the entries of one map behave as that map. -/
lemma oneMap (h : Refines st entries) : OneMap st entries where
  holders_le key := (h key).holders_le
  get_eq key := (h key).get_eq
  has_eq key := (h key).has_eq
  applies key old operand op hget hop := by
    have hkey := h key
    have happly := hkey.apply_eq (.integer operand) op
    rw [hkey.get_eq] at hget
    obtain ⟨e, he, hvalue⟩ := Option.map_eq_some_iff.mp hget
    obtain ⟨result, hresult⟩ := Option.isSome_iff_exists.mp hop
    have hinteger : e = .integer old := by
      cases e <;> cases hvalue
      rfl
    have happlied : applied (entries key) (.integer operand) op = some result := by
      rw [he, hinteger]
      exact hresult
    rw [happlied] at happly
    exact Option.isSome_iff_exists.mpr ⟨_, happly⟩

end Refines

/-- Without booleans the four maps keep holding the entries of the one map. -/
lemma refines_after (ops : List StoreOp) (hops : ∀ op ∈ ops, op.insertsBool = false) :
    Refines (storeAfter ops) (entriesAfter ops) := by
  induction ops using List.reverseRecOn with
  | nil => exact Refines.empty
  | append_singleton done op ih =>
    unfold storeAfter entriesAfter at *
    rw [List.foldl_append, List.foldl_append]
    have hdone := ih fun op' hmem => hops op' (List.mem_append_left _ hmem)
    exact hdone.after op (hops op (by simp))

/-- A boolean that was just inserted is there, but `has` does not see it. -/
lemma not_oneMap_of_bool (st : Store) (key : Str) (val : Bool) (entries : Entries) :
    ¬OneMap ((StoreOp.insert key (.bool val)).after st) entries := by
  intro h
  have hafter : (StoreOp.insert key (.bool val)).after st =
      { st.remove key with elementsBool := (st.remove key).elementsBool.insert key val } := rfl
  have hhas : ((StoreOp.insert key (.bool val)).after st).has key = false := by
    rw [hafter]
    simp [Store.has, Store.remove, SortedMap.contains]
  have hget : ((StoreOp.insert key (.bool val)).after st).get? key = some (.bool val) := by
    rw [hafter]
    simp [Store.get?, Store.remove]
  have heq := h.has_eq key
  rw [hhas, hget] at heq
  cases heq

/-! ### The store as one map -/

/-- The four maps behave as one map in every state exactly when no operation stores a boolean. -/
theorem alwaysOneMap_iff_no_bool (ops : List StoreOp) :
    AlwaysOneMap ops ↔ ∀ op ∈ ops, op.insertsBool = false := by
  constructor
  · intro hlaw op hmem
    obtain ⟨done, rest, rfl⟩ := List.append_of_mem hmem
    have hreached := hlaw (done ++ [op]) ⟨rest, by simp⟩
    unfold storeAfter at hreached
    rw [List.foldl_append] at hreached
    cases op with
    | insert key entry =>
      cases entry with
      | bool val => exact absurd hreached (not_oneMap_of_bool _ key val _)
      | string val | integer val => rfl
    | apply key operand op => rfl
    | remove key => rfl
    | clear => rfl
  · intro hops done hdone
    have hprefix : ∀ op ∈ done, op.insertsBool = false := fun op hmem => hops op (hdone.subset hmem)
    exact (refines_after done hprefix).oneMap

/-- A flag that was true and becomes a number is in two maps. -/
theorem alwaysOneMap_flag_false :
    ¬AlwaysOneMap [.insert (lit "flag") (.bool true), .insert (lit "flag") (.integer 1)] := by
  intro hlaw
  have hone := hlaw _ (List.prefix_refl _)
  exact absurd (hone.holders_le (lit "flag")) (by decide)

end ContractPython.Proofs
