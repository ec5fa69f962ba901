import ContractPython.Model.Blockchain
import ContractPython.Proofs.Steps

/-!
# The random numbers of the blockchain module

Seeding and drawing only ever swap two entries of the array, so that it stays a permutation of the
bytes. A seeding string that is empty, or starts with a NUL, makes the first draw divide by zero.
-/

namespace ContractPython.Proofs

open Program M

/-! ### What the generator goes through -/

/-- The array is a permutation of the bytes, and the indices are bytes. -/
structure Permuted (p : Prng) : Prop where
  perm : p.s.toList.Perm ((List.range 256).map UInt8.ofNat)
  i_lt : p.i < 256
  j_lt : p.j < 256

namespace Prng

/-- The states behind the swaps of `prng_seed_bytes`. -/
def seedLoopStates (key : Str) : Nat → Nat → Nat → Prng → List Prng
  | 0, _, _, _ => []
  | count + 1, i, j, p =>
    let j' := (j + (p.s.getD i 0).toNat + (Prng.getOctet key i).toNat) % 256
    p.swap i j' :: seedLoopStates key count (i + 1) j' (p.swap i j')

/-- The states of the passes over the keys, up to the first one that is empty. -/
def seedStates : List Str → Prng → List Prng
  | [], _ => []
  | key :: keys, p =>
    if key.length = 0 then []
    else
      let seeded : Prng := { Prng.seedLoop key 256 0 0 p with i := 0, j := 0, seeded := true }
      seedLoopStates key 256 0 0 p ++ seeded :: seedStates keys seeded

/-- The states of `prng_get_octet`. -/
def octetStates (p : Prng) : List Prng :=
  let i := (p.i + 1) % 256
  let j := (p.j + (p.s.getD i 0).toNat) % 256
  [{ p with i := i }, { p with i := i, j := j }, p.nextOctet.2]

/-- The states of `prng_get_uint`. -/
def uintStates (p : Prng) : List Prng :=
  octetStates p ++ octetStates p.nextOctet.2 ++ octetStates p.nextOctet.2.nextOctet.2 ++
    octetStates p.nextOctet.2.nextOctet.2.nextOctet.2

/-- The generator as `seed` leaves it. -/
def seedAll (keys : List Str) (p : Prng) : Except Exn Prng := keys.foldlM (fun p key => p.seedBytes key) p

/-- The generator a draw starts from. -/
def ready (keys : List Str) (p : Prng) : Except Exn Prng := if p.seeded then .ok p else seedAll keys p

/-- The states of one draw. -/
def drawStates (keys : List Str) (p : Prng) : List Prng :=
  (if p.seeded then [] else seedStates keys p) ++
    match ready keys p with
    | .ok p' => uintStates p'
    | .error _ => []

end Prng

/-! ### Swaps -/

section Swaps

variable {p p' : Prng} {key : Str} {keys : List Str} {i j : Nat}

lemma getD_lt (s : Vector UInt8 256) (hi : i < 256) : s.getD i 0 = s[i] := by
  simp [Vector.getD, hi]

/-- Inside the array the macro swaps the two entries, also when they are one. -/
lemma swap_eq (hi : i < 256) (hj : j < 256) : p.swap i j = { p with s := p.s.swap i j } := by
  have hs : (p.s.setIfInBounds i (p.s.getD j 0)).setIfInBounds j (p.s.getD i 0) = p.s.swap i j := by
    ext k hk
    rw [getD_lt p.s hi, getD_lt p.s hj, Vector.getElem_setIfInBounds, Vector.getElem_setIfInBounds,
      Vector.getElem_swap]
    grind
  unfold Prng.swap
  rw [hs]

lemma Permuted.swap (h : Permuted p) (hi : i < 256) (hj : j < 256) : Permuted (p.swap i j) := by
  rw [swap_eq hi hj]
  exact ⟨(Vector.swap_perm hi hj).toList.trans h.perm, h.i_lt, h.j_lt⟩

lemma permuted_init : Permuted Prng.init where
  perm := by
    have hs : Prng.init.s.toList = (List.range 256).map UInt8.ofNat := by decide +kernel
    rw [hs]
  i_lt := by decide
  j_lt := by decide

/-! ### Seeding -/

/-- The loop over the key keeps the permutation in each of its rounds. -/
lemma permuted_seedLoop {count : Nat} (h : Permuted p) (hcount : i + count ≤ 256) :
    Permuted (p.seedLoop key count i j) ∧ ∀ q ∈ Prng.seedLoopStates key count i j p, Permuted q := by
  induction count generalizing i j p with
  | zero => exact ⟨h, fun _ hq => absurd hq List.not_mem_nil⟩
  | succ count ih =>
    have hswap : Permuted (p.swap i ((j + (p.s.getD i 0).toNat + (Prng.getOctet key i).toNat) % 256)) :=
      h.swap (by omega) (Nat.mod_lt _ (by decide))
    obtain ⟨hlast, hall⟩ := ih (i := i + 1)
      (j := (j + (p.s.getD i 0).toNat + (Prng.getOctet key i).toNat) % 256) hswap (by omega)
    exact ⟨hlast, List.forall_mem_cons.mpr ⟨hswap, hall⟩⟩

lemma seedBytes_of_ne (hkey : key ≠ []) :
    p.seedBytes key = .ok { p.seedLoop key 256 0 0 with i := 0, j := 0, seeded := true } := by
  unfold Prng.seedBytes
  rw [if_neg fun h => hkey (List.eq_nil_of_length_eq_zero h)]

lemma permuted_seeded (h : Permuted p) :
    Permuted { p.seedLoop key 256 0 0 with i := 0, j := 0, seeded := true } := by
  have hloop : Permuted (p.seedLoop key 256 0 0) := (permuted_seedLoop h le_rfl).1
  exact ⟨hloop.perm, Nat.succ_pos 255, Nat.succ_pos 255⟩

/-- Every pass keeps the permutation, wherever the seeding ends. -/
lemma permuted_seedStates (h : Permuted p) : ∀ q ∈ Prng.seedStates keys p, Permuted q := by
  induction keys generalizing p with
  | nil => exact fun _ hq => absurd hq List.not_mem_nil
  | cons key keys ih =>
    unfold Prng.seedStates
    by_cases hkey : key.length = 0
    · rw [if_pos hkey]
      exact fun _ hq => absurd hq List.not_mem_nil
    · rw [if_neg hkey]
      have hseeded : Permuted { p.seedLoop key 256 0 0 with i := 0, j := 0, seeded := true } := permuted_seeded h
      intro q hq
      obtain hloop | hrest := List.mem_append.mp hq
      · exact (permuted_seedLoop h le_rfl).2 q hloop
      · obtain rfl | hlater := List.mem_cons.mp hrest
        · exact hseeded
        · exact ih hseeded q hlater

/-- Keys with content seed the generator. -/
lemma seedAll_of_ne (h : Permuted p) (hkeys : ∀ key ∈ keys, key ≠ []) :
    ∃ q, Prng.seedAll keys p = .ok q ∧ Permuted q := by
  induction keys generalizing p with
  | nil => exact ⟨p, rfl, h⟩
  | cons key keys ih =>
    unfold Prng.seedAll
    rw [List.foldlM_cons, seedBytes_of_ne (hkeys key List.mem_cons_self)]
    exact ih (permuted_seeded h) fun key' hkey' => hkeys key' (List.mem_cons_of_mem _ hkey')

/-- An empty key makes `get_octet` divide by zero. -/
lemma seedAll_of_nil (hnil : [] ∈ keys) : Prng.seedAll keys p = .error (.crash (lit "modulo by zero")) := by
  induction keys generalizing p with
  | nil => exact absurd hnil List.not_mem_nil
  | cons key keys ih =>
    unfold Prng.seedAll
    rw [List.foldlM_cons]
    by_cases hkey : key = []
    · rw [hkey]
      rfl
    · rw [seedBytes_of_ne hkey]
      exact ih ((List.mem_cons.mp hnil).resolve_left fun h => hkey h.symm)

/-! ### Drawing -/

lemma permuted_nextOctet (h : Permuted p) : Permuted p.nextOctet.2 := by
  have hi : (p.i + 1) % 256 < 256 := Nat.mod_lt _ (by decide)
  have hj : (p.j + (p.s.getD ((p.i + 1) % 256) 0).toNat) % 256 < 256 := Nat.mod_lt _ (by decide)
  have hmoved : Permuted { p with i := (p.i + 1) % 256, j := (p.j + (p.s.getD ((p.i + 1) % 256) 0).toNat) % 256 } :=
    ⟨h.perm, hi, hj⟩
  exact hmoved.swap hi hj

lemma permuted_octetStates (h : Permuted p) : ∀ q ∈ Prng.octetStates p, Permuted q := by
  have hi : (p.i + 1) % 256 < 256 := Nat.mod_lt _ (by decide)
  intro q hq
  simp only [Prng.octetStates, List.mem_cons, List.not_mem_nil, or_false] at hq
  obtain rfl | rfl | rfl := hq
  · exact ⟨h.perm, hi, h.j_lt⟩
  · exact ⟨h.perm, hi, Nat.mod_lt _ (by decide)⟩
  · exact permuted_nextOctet h

lemma permuted_uintStates (h : Permuted p) : ∀ q ∈ Prng.uintStates p, Permuted q := by
  have hfirst := permuted_nextOctet h
  have hsecond := permuted_nextOctet hfirst
  have hthird := permuted_nextOctet hsecond
  intro q hq
  simp only [Prng.uintStates, List.mem_append] at hq
  obtain ((hq | hq) | hq) | hq := hq
  · exact permuted_octetStates h q hq
  · exact permuted_octetStates hfirst q hq
  · exact permuted_octetStates hsecond q hq
  · exact permuted_octetStates hthird q hq

lemma permuted_nextUint (h : Permuted p) : Permuted p.nextUint.2 :=
  permuted_nextOctet (permuted_nextOctet (permuted_nextOctet (permuted_nextOctet h)))

end Swaps

/-! ### Draws of a contract -/

/-- `random()` of the module object at `module`, so many times. -/
def drawRandoms (module : Ref) : Nat → M Unit
  | 0 => pure ()
  | n + 1 => do
    drawRandoms module n
    let _ ← getRandom module

/-- Up to so many draws nothing divides by zero, and whatever the generator goes through is a permutation
with indices in range. -/
structure GeneratorSound (module : Ref) (n : Nat) (s : State) : Prop where
  divides : ∀ t, drawRandoms module n s ≠ .error (.crash (lit "modulo by zero")) t
  permuted : ∀ k < n, ∀ t, drawRandoms module k s = .ok () t → ∀ p functionMap,
    t.heap[module]? = some (.blockchainModule p functionMap) →
    ∀ q ∈ p :: Prng.drawStates t.chain.seedKeys p, Permuted q

/-- Between two draws. -/
structure Drawn (module : Ref) (keys : List Str) (s : State) : Prop where
  keys_eq : s.chain.seedKeys = keys
  generator : ∃ p functionMap, s.heap[module]? = some (.blockchainModule p functionMap) ∧ Permuted p

section Draws

variable {module : Ref} {keys : List Str} {s t : State} {p : Prng} {functionMap : SortedMap Str Ref}

lemma seeded_run (p : Prng) (s : State) : seeded p s =
    match Prng.ready s.chain.seedKeys p with
    | .ok q => .ok q s
    | .error e => .error e s := by
  have hchain : getChain s = .ok s.chain s := rfl
  unfold seeded Prng.ready
  rw [bind_of_ok hchain]
  by_cases hseeded : p.seeded = true
  · rw [if_pos hseeded, if_pos hseeded]
    rfl
  · rw [if_neg hseeded, if_neg hseeded]
    show liftExcept (Prng.seedAll s.chain.seedKeys p) s = _
    cases Prng.seedAll s.chain.seedKeys p <;> rfl

lemma storeAt_generator (h : s.heap[module]? = some (.blockchainModule p functionMap)) (q : Prng) :
    storeAt module (.blockchainModule q functionMap) s =
      .ok () { s with heap := s.heap.set module (.blockchainModule q functionMap) } :=
  storeAt_of_heap h rfl

/-- A draw seeds the generator and stores it. -/
lemma getRandom_run (h : s.heap[module]? = some (.blockchainModule p functionMap)) {q : Prng}
    (hready : Prng.ready s.chain.seedKeys p = .ok q) : getRandom module s =
      create (.integer (Int64.ofInt q.nextUint.1.toNat))
        { s with heap := s.heap.set module (.blockchainModule q.nextUint.2 functionMap) } := by
  have hseeded : seeded p s = .ok q s := by
    rw [seeded_run, hready]
  unfold getRandom
  rw [bind_of_ok (load_of_heap h)]
  dsimp only
  rw [bind_of_ok hseeded]
  exact bind_of_ok (storeAt_generator h q.nextUint.2)

lemma ready_of_ne (h : Permuted p) (hkeys : ∀ key ∈ keys, key ≠ []) :
    ∃ q, Prng.ready keys p = .ok q ∧ Permuted q := by
  unfold Prng.ready
  by_cases hseeded : p.seeded = true
  · rw [if_pos hseeded]
    exact ⟨p, rfl, h⟩
  · rw [if_neg hseeded]
    exact seedAll_of_ne h hkeys

lemma ready_of_nil (hseeded : p.seeded = false) (hnil : [] ∈ keys) :
    Prng.ready keys p = .error (.crash (lit "modulo by zero")) := by
  unfold Prng.ready
  rw [hseeded]
  exact seedAll_of_nil hnil

lemma permuted_ready {q : Prng} (h : Permuted p) (hready : Prng.ready keys p = .ok q) : Permuted q := by
  cases hseeded : p.seeded with
  | true =>
    unfold Prng.ready at hready
    rw [hseeded] at hready
    cases hready
    exact h
  | false =>
    by_cases hnil : [] ∈ keys
    · rw [ready_of_nil hseeded hnil] at hready
      cases hready
    · have hkeys : ∀ key ∈ keys, key ≠ [] := by
        rintro key hkey rfl
        exact hnil hkey
      obtain ⟨q', hq', hpermuted⟩ := ready_of_ne h hkeys
      cases hready.symm.trans hq'
      exact hpermuted

/-- A draw keeps the permutation, unless the memory manager refuses the number. -/
lemma Drawn.draw (h : Drawn module keys s) (hkeys : ∀ key ∈ keys, key ≠ []) :
    (∃ v t, getRandom module s = .ok v t ∧ Drawn module keys t) ∨
      ∃ e t, getRandom module s = .error e t ∧ e ≠ .crash (lit "modulo by zero") := by
  obtain ⟨p, functionMap, hp, hpermuted⟩ := h.generator
  obtain ⟨q, hq, hpermuted'⟩ := ready_of_ne hpermuted hkeys
  rw [← h.keys_eq] at hq
  rw [getRandom_run hp hq]
  generalize hs₁ : { s with heap := s.heap.set module (.blockchainModule q.nextUint.2 functionMap) } = s₁
  have hstored : s₁.heap[module]? = some (.blockchainModule q.nextUint.2 functionMap) := by
    rw [← hs₁]
    exact List.getElem?_set_self (lt_length_of_heap hp)
  have hkeys' : s₁.chain.seedKeys = keys := by
    rw [← hs₁]
    exact h.keys_eq
  by_cases hmem : MemoryLeft s₁
  · left
    refine ⟨_, _, create_of_memoryLeft hmem _, hkeys', _, functionMap, ?_, permuted_nextUint hpermuted'⟩
    exact (List.getElem?_append_left (lt_length_of_heap hstored)).trans hstored
  · right
    exact ⟨_, _, create_refused hmem _, nofun⟩

/-- After the draws that succeeded. -/
lemma Drawn.draws (h : Drawn module keys s) (hkeys : ∀ key ∈ keys, key ≠ []) (n : Nat) :
    (∃ t, drawRandoms module n s = .ok () t ∧ Drawn module keys t) ∨
      ∃ e t, drawRandoms module n s = .error e t ∧ e ≠ .crash (lit "modulo by zero") := by
  induction n with
  | zero => exact .inl ⟨s, rfl, h⟩
  | succ n ih =>
    unfold drawRandoms
    obtain ⟨t, hrun, hdrawn⟩ | ⟨e, t, hrun, he⟩ := ih
    · rw [bind_of_ok hrun]
      obtain ⟨v, t', hdraw, hdrawn'⟩ | ⟨e, t', hdraw, he⟩ := hdrawn.draw hkeys
      · rw [bind_of_ok hdraw]
        exact .inl ⟨t', rfl, hdrawn'⟩
      · exact .inr ⟨e, t', bind_of_error hdraw, he⟩
    · exact .inr ⟨e, t, bind_of_error hrun, he⟩

/-- The states of a draw, wherever it ends. -/
lemma permuted_drawStates (h : Permuted p) : ∀ q ∈ p :: Prng.drawStates keys p, Permuted q := by
  intro q hq
  obtain rfl | hq := List.mem_cons.mp hq
  · exact h
  obtain hseeding | hdrawing := List.mem_append.mp hq
  · by_cases hseeded : p.seeded = true
    · rw [if_pos hseeded] at hseeding
      exact absurd hseeding List.not_mem_nil
    · rw [if_neg hseeded] at hseeding
      exact permuted_seedStates h q hseeding
  · cases hready : Prng.ready keys p with
    | error e =>
      rw [hready] at hdrawing
      exact absurd hdrawing List.not_mem_nil
    | ok p' =>
      rw [hready] at hdrawing
      exact permuted_uintStates (permuted_ready h hready) q hdrawing

/-- The first draw fails on an empty key. -/
lemma drawRandoms_of_nil (h : s.heap[module]? = some (.blockchainModule Prng.init functionMap))
    (hnil : [] ∈ s.chain.seedKeys) (n : Nat) :
    drawRandoms module (n + 1) s = .error (.crash (lit "modulo by zero")) s := by
  have hseeded : seeded Prng.init s = .error (.crash (lit "modulo by zero")) s := by
    rw [seeded_run, ready_of_nil rfl hnil]
  have hdraw : getRandom module s = .error (.crash (lit "modulo by zero")) s := by
    unfold getRandom
    rw [bind_of_ok (load_of_heap h)]
    exact bind_of_error hseeded
  induction n with
  | zero => exact (bind_of_ok rfl).trans (bind_of_error hdraw)
  | succ n ih => exact bind_of_error ih

/-- The draws of a contract keep the permutation and divide by zero exactly when a seeding string is
empty. -/
theorem generator_sound_iff {module : Ref} {s : State} {functionMap : SortedMap Str Ref} (n : Nat)
    (h : s.heap[module]? = some (.blockchainModule Prng.init functionMap)) :
    GeneratorSound module (n + 1) s ↔ ∀ key ∈ s.chain.seedKeys, key ≠ [] := by
  constructor
  · rintro hsound key hkey rfl
    exact hsound.divides s (drawRandoms_of_nil h hkey n)
  · intro hkeys
    have hdrawn : Drawn module s.chain.seedKeys s := ⟨rfl, Prng.init, functionMap, h, permuted_init⟩
    constructor
    · intro t hrun
      obtain ⟨t', hok, -⟩ | ⟨e, t', herror, he⟩ := hdrawn.draws hkeys (n + 1)
      · cases hok.symm.trans hrun
      · cases herror.symm.trans hrun
        exact he rfl
    · intro k _ t hrun p functionMap' hp
      obtain ⟨t', hok, hdrawn'⟩ | ⟨e, t', herror, -⟩ := hdrawn.draws hkeys k
      · cases hok.symm.trans hrun
        obtain ⟨p', functionMap'', hp', hpermuted⟩ := hdrawn'.generator
        cases hp'.symm.trans hp
        exact permuted_drawStates hpermuted
      · cases herror.symm.trans hrun

/-- A contract with the module at 0, where every seeding string is `a` but the transaction's. -/
def seededBy (txid : Str) : State :=
  { startState [] 0 with
    heap := [.blockchainModule Prng.init .empty]
    chain := Blockchain.ofArguments ⟨txid, lit "a", lit "a", 0, 0, 0, lit "a", lit "a", 0, 0⟩ .main }

theorem generator_sound_a : GeneratorSound 0 3 (seededBy (lit "a")) := by
  have h : (seededBy (lit "a")).heap[0]? = some (.blockchainModule Prng.init .empty) := rfl
  have hiff := generator_sound_iff 2 h
  apply hiff.mpr
  decide

/-- Without a transaction id the first draw divides by zero. -/
theorem generator_sound_noTxid_false : ¬GeneratorSound 0 1 (seededBy []) := by
  intro h
  exact h.divides (seededBy []) (drawRandoms_of_nil rfl (by decide) 0)

end Draws

end ContractPython.Proofs
