import ContractPython.Proofs.Skip

/-!
# Running an encoded node

What the steps in front of a node's switch do when the cursor stands at its encoding, and what an
evaluation without side effects leaves behind.
-/

namespace ContractPython.Proofs

open Program M Bytes

/-! ### Reading what is there -/

section Reading

variable {rest : List UInt8} {s : State}

/-- The cursor behind a segment. -/
lemma placed_advance {b : List UInt8} {len : Nat} (steps : Nat) (hlen : b.length = len)
    (h : Placed (b ++ rest) s) : Placed rest (advance len steps s) := hlen ▸ h.append.2 steps

lemma readWord_placed {w : UInt32} (h : Placed (wordBytes w ++ rest) s) :
    readWord s = .ok w (advance 4 0 s) ∧ Placed rest (advance 4 0 s) := by
  obtain ⟨hw, -⟩ := h.append
  refine ⟨?_, placed_advance 0 (length_wordBytes w) h⟩
  simp [readWord, onData, Bitstream.readWord_of_occursAt hw.good hw.here, advance]

lemma readType_placed {t : NodeType} (ht : ∀ c, t ≠ .unknown c) (h : Placed (typeBytes t ++ rest) s) :
    readType s = .ok t (advance 4 0 s) ∧ Placed rest (advance 4 0 s) := by
  obtain ⟨hread, hrest⟩ := readWord_placed h
  refine ⟨?_, hrest⟩
  unfold readType
  rw [bind_of_ok hread, NodeType.ofCode_code t ht]
  rfl

lemma peekType_placed {t : NodeType} (hknown : ∀ c, t ≠ .unknown c) (hs : Placed (typeBytes t ++ rest) s) :
    peekType s = .ok t s := by
  obtain ⟨hword, -⟩ := hs.append
  have hread := Bitstream.readWord_of_occursAt hword.good hword.here
  refine onData_of_some (a := t) (b := s.interp.data) ?_
  rw [hread]
  dsimp only
  rw [NodeType.ofCode_code t hknown]

lemma readString_placed {text : Str} (h : Placed (stringBytes text ++ rest) s) :
    readString s = .ok text (advance (stringBytes text).length 0 s) ∧
      Placed rest (advance (stringBytes text).length 0 s) := by
  obtain ⟨htext, hrest⟩ := h.append
  refine ⟨?_, hrest 0⟩
  have hsmall : text.length < 2 ^ 32 := by
    have hin := htext.inside
    have hsmall := htext.small
    rw [length_stringBytes] at hin
    omega
  simp [readString, onData, Bitstream.readString_of_occursAt htext.good hsmall htext.here, advance,
    Nat.add_assoc]

lemma readName_placed {id : Str} (h : Placed (nameBytes id ++ rest) s) :
    readName s = .ok (cStr id) (advance (nameBytes id).length 0 s) ∧
      Placed rest (advance (nameBytes id).length 0 s) := by
  refine ⟨?_, h.append.2 0⟩
  unfold nameBytes at h
  rw [List.append_assoc] at h
  obtain ⟨htype, hstring⟩ := readType_placed (t := .name) nofun h
  obtain ⟨hread, -⟩ := readString_placed hstring
  unfold readName
  rw [bind_of_ok htype]
  show readString (advance 4 0 s) = _
  rw [hread, advance_advance]
  simp [nameBytes, typeBytes]

lemma charge_affords (h : Affords 1 s) : charge s = .ok () (advance 0 1 s) := by
  unfold charge
  rw [if_neg]
  · rfl
  · rintro ⟨hpos, hge⟩
    have hge := UInt32.le_iff_toNat_le.mp hge
    rcases h with h | h
    · simp [h] at hpos
    · rw [UInt32.toNat_add, UInt32.toNat_one] at hge
      omega

lemma charge_placed {k : Nat} (h : Placed rest s) (hgas : Affords (1 + k) s) :
    charge s = .ok () (advance 0 1 s) ∧ Placed rest (advance 0 1 s) ∧ Affords k (advance 0 1 s) :=
  ⟨charge_affords (hgas.mono (by omega)), placed_advance 1 rfl (b := []) h, hgas.advance⟩

end Reading

/-! ### Evaluations without side effects -/

/-- The memory manager grants the next requests. -/
def Grants (requests : Nat) (s : State) : Prop :=
  ∀ k < requests, s.memory.grants (s.memory.requests + k) = true

/-- The cursor moves `len` bytes, `steps` charges and `requests` requests for memory are made, new
objects may come in, and nothing else happens. -/
structure Silent (len steps requests : Nat) (s s' : State) : Prop where
  interp_eq : s'.interp = { s.interp with
    data := { s.interp.data with get := s.interp.data.get + len }
    numExecutionSteps := s.interp.numExecutionSteps + UInt32.ofNat steps }
  heap_le : s.heap <+: s'.heap
  memory_eq : s'.memory = { s.memory with requests := s.memory.requests + requests }
  frames_eq : s'.frames = s.frames
  chain_eq : s'.chain = s.chain
  codec_eq : s'.codec = s.codec
  rand_eq : s'.rand = s.rand
  out_eq : s'.stdoutBuffer = s.stdoutBuffer

namespace Silent

variable {len len' steps steps' requests requests' : Nat} {s s' s'' : State}

lemma trans (h : Silent len steps requests s s') (h' : Silent len' steps' requests' s' s'') :
    Silent (len + len') (steps + steps') (requests + requests') s s'' where
  interp_eq := by
    rw [h'.interp_eq, h.interp_eq]
    simp only [UInt32.ofNat_add, Nat.add_assoc, UInt32.add_assoc]
  heap_le := h.heap_le.trans h'.heap_le
  memory_eq := by rw [h'.memory_eq, h.memory_eq, Nat.add_assoc]
  frames_eq := h'.frames_eq.trans h.frames_eq
  chain_eq := h'.chain_eq.trans h.chain_eq
  codec_eq := h'.codec_eq.trans h.codec_eq
  rand_eq := h'.rand_eq.trans h.rand_eq
  out_eq := h'.out_eq.trans h.out_eq

lemma advance (len steps : Nat) (s : State) : Silent len steps 0 s (advance len steps s) :=
  ⟨rfl, List.prefix_rfl, rfl, rfl, rfl, rfl, rfl, rfl⟩

lemma created (v : Value) (s : State) : Silent 0 0 1 s (created v s) :=
  ⟨by simp [Proofs.created], List.prefix_append _ _, rfl, rfl, rfl, rfl, rfl, rfl⟩

lemma placed {b b' : List UInt8} (h : Silent len steps requests s s') (hlen : b.length = len)
    (hs : Placed (b ++ b') s) : Placed b' s' := by
  have hdata : s'.interp.data = (Proofs.advance len 0 s).interp.data := by
    rw [h.interp_eq]
    rfl
  exact (placed_advance 0 hlen hs).of_data hdata

lemma affords (h : Silent len steps requests s s') (hs : Affords (steps + steps') s) :
    Affords steps' s' := by
  have hlater : Affords steps' (Proofs.advance len steps s) := hs.advance
  unfold Affords at *
  rw [h.interp_eq]
  exact hlater

lemma grants (h : Silent len steps requests s s') (hs : Grants (requests + requests') s) :
    Grants requests' s' := by
  intro k hk
  rw [h.memory_eq]
  have hnext := hs (requests + k) (by omega)
  rwa [← Nat.add_assoc] at hnext

/-- An object stays what it is. -/
lemma heap_eq (h : Silent len steps requests s s') {r : Ref} {v : Value} (hr : s.heap[r]? = some v) :
    s'.heap[r]? = some v := by
  obtain ⟨new, hnew⟩ := h.heap_le
  rw [← hnew, List.getElem?_append_left (lt_length_of_heap hr), hr]

end Silent

lemma Grants.mono {requests requests' : Nat} {s : State} (h : Grants requests' s)
    (hle : requests ≤ requests') : Grants requests s := fun k hk => h k (by omega)

lemma Grants.memoryLeft {requests : Nat} {s : State} (h : Grants (requests + 1) s) : MemoryLeft s :=
  h 0 (by omega)

/-- Whenever the cursor comes to `code` later than in `s₀`, and the variables are still the same,
the node there evaluates to an object `v` without side effects. -/
def EvaluatesTo (rec : Rec) (scope : ScopeRef) (s₀ : State) (code : List UInt8) (steps requests : Nat)
    (v : Value) : Prop :=
  ∀ s rest, s.frames = s₀.frames → s₀.heap <+: s.heap → Placed (code ++ rest) s → Affords steps s →
    Grants requests s → ∃ r s', evaluate rec scope s = .ok (some r) s' ∧ s'.heap[r]? = some v ∧
      Silent code.length steps requests s s'

/-- A scope of frames that are there. -/
def Live (scope : ScopeRef) (frames : List Frame) : Prop := scope ≠ [] ∧ ∀ id ∈ scope, id < frames.length

/-! ### Nodes -/

/-- The state a node's switch starts in. -/
def atSwitch (type : NodeType) (ls : LoopState) (scope : ScopeRef) (s : State) : State :=
  { advance 4 1 s with
    log := .nodeEntered type ls (Scope.depth scope) :: (advance 4 1 s).log }

lemma silent_atSwitch (type : NodeType) (ls : LoopState) (scope : ScopeRef) (s : State) :
    Silent 4 1 0 s (atSwitch type ls scope s) :=
  ⟨rfl, List.prefix_rfl, rfl, rfl, rfl, rfl, rfl, rfl⟩

variable {n : Nat} {scope : ScopeRef} {ls : LoopState} {type : NodeType} {rest : List UInt8}
  {s s' : State}

/-- `execute_next` up to the switch. -/
lemma executeNext_placed (htype : ∀ c, type ≠ .unknown c)
    (htop : 2 ≤ scope.length ∨ topLevelType type = true) (hs : Placed (typeBytes type ++ rest) s)
    (hgas : Affords 1 s) : executeNext (n + 1) scope ls s = (do
      let res ← execNode (executeNext n) scope n ls type
      epilogue s.interp.data.pos res) (atSwitch type ls scope s) := by
  have hcharge := charge_affords hgas
  have hplaced : Placed (typeBytes type ++ rest) (advance 0 1 s) := placed_advance 1 rfl (b := []) hs
  obtain ⟨hread, -⟩ := readType_placed htype hplaced
  have hcheck : checkTopLevel scope ls type (advance 4 1 s) = .ok () (advance 4 1 s) := by
    unfold checkTopLevel
    refine throwIf_eq_ok.mpr ⟨?_, rfl⟩
    rcases htop with hdeep | htop
    · have hdepth : (Scope.depth scope == 0) = false := by
        rw [beq_eq_false_iff_ne]
        unfold Scope.depth
        omega
      simp [hdepth]
    · simp [htop]
  have hpos : pos (advance 0 1 s) = .ok s.interp.data.pos (advance 0 1 s) := rfl
  rw [advance_advance] at hread
  show (do charge; executeCharged (executeNext n) scope n ls) s = _
  rw [bind_of_ok hcharge]
  unfold executeCharged
  rw [bind_of_ok hpos, bind_of_ok hread, bind_of_ok hcheck]
  rfl

/-- A node that leaves the loop state alone. -/
lemma evaluate_placed {p : ValuePtr} (htype : ∀ c, type ≠ .unknown c)
    (htop : 2 ≤ scope.length ∨ topLevelType type = true) (hs : Placed (typeBytes type ++ rest) s)
    (hgas : Affords 1 s)
    (hnode : execNode (executeNext n) scope n .none type (atSwitch type .none scope s) = .ok (p, .none) s') :
    evaluate (executeNext (n + 1)) scope s = .ok p s' := by
  have hexec : executeNext (n + 1) scope .none s = .ok (p, .none) s' := by
    rw [executeNext_placed htype htop hs hgas, bind_of_ok hnode]
    rfl
  unfold evaluate
  rw [bind_of_ok hexec]
  rfl

/-- Such a node does what its case does, whatever that is. -/
lemma evaluate_keep {t : NodeType} {x : M ValuePtr} (htype : ∀ c, t ≠ .unknown c)
    (htop : 2 ≤ scope.length ∨ topLevelType t = true) (hs : Placed (typeBytes t ++ rest) s)
    (hgas : Affords 1 s) (hnode : execNode (executeNext n) scope n .none t = keep .none x) :
    evaluate (executeNext (n + 1)) scope s = x (atSwitch t .none scope s) := by
  have hrun : executeNext (n + 1) scope .none s = (do
      let res ← execNode (executeNext n) scope n .none t
      epilogue s.interp.data.pos res) (atSwitch t .none scope s) :=
    executeNext_placed htype htop hs hgas
  rw [hnode] at hrun
  cases hx : x (atSwitch t .none scope s) with
  | ok p s' => exact evaluate_placed htype htop hs hgas (by rw [hnode]; exact bind_of_ok hx)
  | error e s' =>
    unfold evaluate
    rw [bind_of_error (hrun.trans (bind_of_error (bind_of_error hx)))]

end ContractPython.Proofs
