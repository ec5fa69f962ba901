import ContractPython.Proofs.Encoding
import ContractPython.Proofs.Evaluation

/-!
# Dictionary displays

A display takes its keys for names and reads them without evaluating them, an assignment to an
element evaluates them.
-/

namespace ContractPython.Proofs

open Program M Bytes

/-! ### Items -/

/-- A later state in which the same variables stand for the same objects, that at `rd` apart. -/
structure Fits (rd : Ref) (s₀ s : State) : Prop where
  frames_eq : s.frames = s₀.frames
  chain_eq : s.chain = s₀.chain
  codec_eq : s.codec = s₀.codec
  length_le : s₀.heap.length ≤ s.heap.length
  heap_eq : ∀ (r : Ref) (v : Value), r ≠ rd → s₀.heap[r]? = some v → s.heap[r]? = some v

/-- The node `code` is evaluated without side effects: to an object `v`, one there already (but not
that at `rd`) or a new one, or else it throws or gives `None`. -/
def Gives (rec : Rec) (scope : ScopeRef) (rd : Ref) (s₀ : State) (code : List UInt8) (steps requests : Nat)
    (o : Option Value) : Prop :=
  ∀ s rest, Fits rd s₀ s → Placed (code ++ rest) s → Affords steps s → Grants requests s →
    match o with
    | some v => ∃ r s', evaluate rec scope s = .ok (some r) s' ∧ s'.heap[r]? = some v ∧
        Silent code.length steps requests s s' ∧ r ≠ rd ∧ (r < s₀.heap.length ∨ s.heap.length ≤ r)
    | none => ∀ r s', evaluate rec scope s ≠ .ok (some r) s'

/-- An item of a display, the objects its expressions evaluate to, and what that costs. -/
structure Item where
  key : Ast .expr
  value : Ast .expr
  keyGives : Option Value
  valueGives : Option Value
  keySteps : Nat
  keyRequests : Nat
  valueSteps : Nat
  valueRequests : Nat

namespace Item

/-- The text `read_name` reads from a key. -/
def text (item : Item) : Option Str :=
  match item.key with
  | .name id => some (cStr id)
  | .str value => some (cStr value)
  | _ => none

/-- The entry the display makes. -/
def shown (item : Item) : Option (Str × Value) := do
  let key ← item.text
  let v ← item.valueGives
  pure (key, v)

/-- The entry the assignment makes: the key is the text of a string. -/
def assigned (item : Item) : Option (Str × Value) :=
  match item.valueGives, item.keyGives with
  | some v, some (.string key) => some (key, v)
  | _, _ => none

/-- The expressions do what the item says, with at least `n` for the depth of nodes. -/
structure Sound (n : Nat) (scope : ScopeRef) (rd : Ref) (s₀ : State) (item : Item) : Prop where
  compiles : accepted false item.key = true
  key_gives : ∀ m, n ≤ m →
    Gives (executeNext m) scope rd s₀ (bytes item.key) item.keySteps item.keyRequests item.keyGives
  value_gives : ∀ m, n ≤ m →
    Gives (executeNext m) scope rd s₀ (bytes item.value) item.valueSteps item.valueRequests item.valueGives

/-- `d[key] = value`. -/
def assignment (d : Str) (item : Item) : Ast .stmt :=
  .assign (.consExpr (.subscript (.index item.key) (.name d)) .noExprs) item.value

end Item

/-- The items of a display. -/
def display : List Item → Ast .items
  | [] => .noItems
  | item :: items => .consItem item.key item.value (display items)

/-- Charges for the items, whether they are displayed or assigned. -/
def itemSteps (items : List Item) : Nat := (items.map fun item => 3 + item.valueSteps + item.keySteps).sum

/-- Requests for memory. -/
def itemRequests (items : List Item) : Nat := (items.map fun item => item.valueRequests + item.keyRequests).sum

/-- Statements one after another. -/
def executeAll (n : Nat) (scope : ScopeRef) (count : Nat) : M Unit :=
  iterateM count (fun _ => do
    let _ ← evaluate (executeNext n) scope
    pure ()) ()

/-- The name `d` stands for an empty dictionary. -/
structure StartsEmpty (scope : ScopeRef) (d : Str) (rd : Ref) (s₀ : State) : Prop where
  inFunction : 2 ≤ scope.length
  notNone : cStr d ≠ lit "None"
  notBuiltin : Scope.builtinNamed (cStr d) = none
  bound : Scope.findValue s₀.frames scope (cStr d) = some (some rd)
  empty : s₀.heap[rd]? = some (.dictionary .empty)

/-- `x` gives a dictionary like the one `y` leaves at `rd`, and throws when `y` does. -/
structure DisplayAgrees (x : M ValuePtr) (s : State) (y : M Unit) (t : State) (rd : Ref) : Prop where
  gives : ∀ t', y t = .ok () t' → ∃ r s' elements elements', x s = .ok (some r) s' ∧
    s'.heap[r]? = some (.dictionary elements) ∧ t'.heap[rd]? = some (.dictionary elements') ∧
    ∀ key, (elements.find? key).map (content · s') = (elements'.find? key).map (content · t')
  throws : ∀ e t', y t = .error e t' → ∃ e' s', x s = .error e' s'

/-- The keys read as names make the same dictionary as the keys evaluated; or neither is made. -/
def KeysAgree (items : List Item) : Prop :=
  match items.mapM Item.assigned with
  | some entries => ∃ entries', items.mapM Item.shown = some entries' ∧
      ∀ key, ((SortedMap.empty : SortedMap Str Value).insertAll entries').find? key =
        ((SortedMap.empty : SortedMap Str Value).insertAll entries).find? key
  | none => items.mapM Item.shown = none

/-! ### Dictionaries that are filled -/

/-- A dictionary's entries are objects with these contents, apart from the one at `x`. -/
def Shows (heap : List Value) (x : Ref) (elements : SortedMap Str ValuePtr) (m : SortedMap Str Value) : Prop :=
  ∀ key, Option.Rel (fun p v => ∃ r, p = some r ∧ r ≠ x ∧ heap[r]? = some v) (elements.find? key) (m.find? key)

/-- The dictionary at `x` has the entries of `m`. -/
def Filled (x : Ref) (m : SortedMap Str Value) (s : State) : Prop :=
  ∃ elements, s.heap[x]? = some (.dictionary elements) ∧ Shows s.heap x elements m

/-- A silent step, and an assignment to the object at `x`. -/
def Writes (x : Ref) (len steps requests : Nat) (s s' : State) : Prop :=
  ∃ t v, Silent len steps requests s t ∧ s' = { t with heap := t.heap.set x v }

section Filling

variable {rd x r : Ref} {m : SortedMap Str Value} {s₀ s s' : State} {v : Value} {len steps requests : Nat}

lemma Fits.of_silent (h : Fits rd s₀ s) (hs : Silent len steps requests s s') : Fits rd s₀ s' where
  frames_eq := hs.frames_eq.trans h.frames_eq
  chain_eq := hs.chain_eq.trans h.chain_eq
  codec_eq := hs.codec_eq.trans h.codec_eq
  length_le := h.length_le.trans hs.heap_le.length_le
  heap_eq r v hne hr := hs.heap_eq (h.heap_eq r v hne hr)

lemma Fits.set (h : Fits rd s₀ s) (hx : x = rd ∨ s₀.heap.length ≤ x) (v : Value) :
    Fits rd s₀ { s with heap := s.heap.set x v } where
  frames_eq := h.frames_eq
  chain_eq := h.chain_eq
  codec_eq := h.codec_eq
  length_le := by
    rw [List.length_set]
    exact h.length_le
  heap_eq r v' hne hr := by
    have hrx : x ≠ r := by
      rintro rfl
      have hlt := lt_length_of_heap hr
      rcases hx with hx | hx
      · exact hne hx
      · exact absurd hlt (Nat.not_lt.mpr hx)
    rw [List.getElem?_set_ne hrx]
    exact h.heap_eq r v' hne hr

lemma Filled.of_silent (h : Filled x m s) (hs : Silent len steps requests s s') : Filled x m s' := by
  obtain ⟨elements, hx, hholds⟩ := h
  refine ⟨elements, hs.heap_eq hx, fun key => ?_⟩
  have hkey := hholds key
  generalize elements.find? key = p at hkey
  generalize m.find? key = v at hkey
  cases hkey with
  | none => exact .none
  | some h =>
    obtain ⟨r, hp, hne, hr⟩ := h
    exact .some ⟨r, hp, hne, hs.heap_eq hr⟩

/-- `insert` of an object. -/
lemma Filled.insert (h : Filled x m s) (hr : s.heap[r]? = some v) (hne : r ≠ x) (key : Str) :
    ∃ v', dictInsert x key (some r) s = .ok () { s with heap := s.heap.set x v' } ∧
      Filled x (m.insert key v) { s with heap := s.heap.set x v' } := by
  obtain ⟨elements, hx, hholds⟩ := h
  refine ⟨.dictionary (elements.insert key (some r)), ?_, elements.insert key (some r), ?_, fun key' => ?_⟩
  · unfold dictInsert
    rw [bind_of_ok (valueCast_of_heap Value.dictionary? hx rfl)]
    exact storeAt_of_heap hx rfl
  · exact List.getElem?_set_self (lt_length_of_heap hx)
  · by_cases heq : key' = key
    · subst heq
      rw [SortedMap.find?_insert_self, SortedMap.find?_insert_self]
      refine .some ⟨r, rfl, hne, ?_⟩
      rw [List.getElem?_set_ne hne.symm]
      exact hr
    · rw [SortedMap.find?_insert_of_ne _ _ _ _ heq, SortedMap.find?_insert_of_ne _ _ _ _ heq]
      have hkey := hholds key'
      generalize elements.find? key' = p at hkey
      generalize m.find? key' = v at hkey
      cases hkey with
      | none => exact .none
      | some h =>
        obtain ⟨r', hp, hne', hr'⟩ := h
        refine .some ⟨r', hp, hne', ?_⟩
        rw [List.getElem?_set_ne hne'.symm]
        exact hr'

namespace Writes

lemma placed {b b' : List UInt8} (h : Writes x len steps requests s s') (hlen : b.length = len)
    (hs : Placed (b ++ b') s) : Placed b' s' := by
  obtain ⟨t, v, hsilent, rfl⟩ := h
  obtain ⟨hgood, hhere, hinside, hsmall⟩ := hsilent.placed hlen hs
  exact ⟨hgood, hhere, hinside, hsmall⟩

lemma affords {steps' : Nat} (h : Writes x len steps requests s s') (hs : Affords (steps + steps') s) :
    Affords steps' s' := by
  obtain ⟨t, v, hsilent, rfl⟩ := h
  exact hsilent.affords hs

lemma grants {requests' : Nat} (h : Writes x len steps requests s s') (hs : Grants (requests + requests') s) :
    Grants requests' s' := by
  obtain ⟨t, v, hsilent, rfl⟩ := h
  exact hsilent.grants hs

lemma fits (h : Writes x len steps requests s s') (hs : Fits rd s₀ s) (hx : x = rd ∨ s₀.heap.length ≤ x) :
    Fits rd s₀ s' := by
  obtain ⟨t, v, hsilent, rfl⟩ := h
  exact (hs.of_silent hsilent).set hx v

end Writes

end Filling

/-! ### The display -/

/-- One round of the loop of a `Dictionary` node. -/
def displayRound (rec : Rec) (scope : ScopeRef) (res : Ref) : M Unit := do
  charge
  let name ← readName
  let value ← evaluate rec scope
  let _ ← assertGeneric value
  dictInsert res name value

section Display

variable {n depth : Nat} {scope : ScopeRef} {rd x : Ref} {m : SortedMap Str Value} {rest : List UInt8} {s₀ s : State}

/-- A node of another type is no name. -/
lemma readName_of_type {type : NodeType} (hs : Placed (typeBytes type ++ rest) s) (hknown : ∀ c, type ≠ .unknown c)
    (hname : type ≠ .name) (hstring : type ≠ .string) (text : Str) (s' : State) : readName s ≠ .ok text s' := by
  intro h
  unfold readName at h
  rw [bind_of_ok (readType_placed hknown hs).1] at h
  cases type <;> first | exact hname rfl | exact hstring rfl | cases h

lemma readName_key {item : Item} (hcompiles : accepted false item.key = true)
    (hs : Placed (bytes item.key ++ rest) s) :
    match item.text with
    | some text => readName s = .ok text (advance (bytes item.key).length 0 s)
    | none => ∀ text s', readName s ≠ .ok text s' := by
  unfold Item.text
  generalize item.key = key at hcompiles hs
  cases key with
  | name id => exact (readName_placed hs).1
  | str value =>
    simp only [bytes, List.append_assoc] at hs
    obtain ⟨htype, hstring⟩ := readType_placed (t := .string) (by simp) hs
    obtain ⟨hread, -⟩ := readString_placed hstring
    dsimp only
    unfold readName
    rw [bind_of_ok htype]
    show readString (advance 4 0 s) = _
    rw [hread, advance_advance]
    simp [bytes, typeBytes]
  | number num =>
    cases num with
    | integer i =>
      simp only [bytes, List.append_assoc] at hs
      exact readName_of_type hs (by simp) (by simp) (by simp)
    | long text => cases hcompiles
    | floating b => cases hcompiles
  | nullExpr => cases hcompiles
  | otherExpr => cases hcompiles
  | _ =>
    simp only [bytes, List.append_assoc] at hs
    exact readName_of_type hs (by simp) (by simp) (by simp)

/-- One item. -/
lemma displayRound_run {item : Item} (hsound : item.Sound n scope rd s₀) (hdepth : n ≤ depth) (hfits : Fits rd s₀ s)
    (hx : s₀.heap.length ≤ x) (hfilled : Filled x m s) (hs : Placed (bytes item.key ++ (bytes item.value ++ rest)) s)
    (hgas : Affords (1 + item.valueSteps) s) (hmem : Grants item.valueRequests s) :
    match item.shown with
    | some (key, v) => ∃ s', displayRound (executeNext depth) scope x s = .ok () s' ∧
        Writes x ((bytes item.key).length + (bytes item.value).length) (1 + item.valueSteps) item.valueRequests s s' ∧
        Filled x (m.insert key v) s'
    | none => ∀ s', displayRound (executeNext depth) scope x s ≠ .ok () s' := by
  obtain ⟨hcharge, hplaced, hgas₁⟩ := charge_placed hs hgas
  have hread := readName_key hsound.compiles hplaced
  unfold Item.shown
  cases htext : item.text with
  | none =>
    rw [htext] at hread
    intro s' h
    unfold displayRound at h
    rw [bind_of_ok hcharge] at h
    obtain ⟨text, s₁, hname, -⟩ := bind_eq_ok.mp h
    exact hread text s₁ hname
  | some text =>
    rw [htext] at hread
    have hnamed : Silent (bytes item.key).length 1 0 s (advance (bytes item.key).length 0 (advance 0 1 s)) := by
      have hboth := (Silent.advance 0 1 s).trans (.advance (bytes item.key).length 0 _)
      simpa only [Nat.zero_add, Nat.add_zero] using hboth
    have hvalue := hsound.value_gives depth hdepth _ rest (hfits.of_silent hnamed)
      (hnamed.placed rfl hs) (hnamed.affords hgas) (hnamed.grants (by simpa using hmem))
    cases hgives : item.valueGives with
    | none =>
      rw [hgives] at hvalue
      intro s' h
      unfold displayRound at h
      rw [bind_of_ok hcharge, bind_of_ok hread] at h
      obtain ⟨value, s₁, hrun, h⟩ := bind_eq_ok.mp h
      obtain ⟨r, s₂, hr, -⟩ := bind_eq_ok.mp h
      cases value with
      | none => cases hr
      | some r => exact hvalue r s₁ hrun
    | some v =>
      rw [hgives] at hvalue
      obtain ⟨r, s₁, hrun, hr, hsilent, -, hplace⟩ := hvalue
      have hne : r ≠ x := by
        rintro rfl
        obtain ⟨elements, hcell, -⟩ := hfilled
        have hlt : r < s.heap.length := lt_length_of_heap hcell
        rcases hplace with hold | hnew
        · exact absurd hold (Nat.not_lt.mpr hx)
        · exact absurd hlt (Nat.not_lt.mpr hnew)
      have hboth := hnamed.trans hsilent
      obtain ⟨v', hinsert, hfilled'⟩ := (hfilled.of_silent hboth).insert hr hne text
      refine ⟨{ s₁ with heap := s₁.heap.set x v' }, ?_, ⟨s₁, v', ?_, rfl⟩, hfilled'⟩
      · unfold displayRound
        rw [bind_of_ok hcharge, bind_of_ok hread, bind_of_ok hrun]
        exact hinsert
      · simpa only [Nat.zero_add] using hboth

/-- All items, one after another. -/
lemma displayLoop_run (depth : Nat) {items : List Item} (hsound : ∀ item ∈ items, item.Sound n scope rd s₀) (hdepth : n ≤ depth)
    (hfits : Fits rd s₀ s) (hx : s₀.heap.length ≤ x) (hfilled : Filled x m s)
    (hs : Placed (bytes (display items) ++ rest) s) (hgas : Affords (itemSteps items) s)
    (hmem : Grants (itemRequests items) s) :
    match items.mapM Item.shown with
    | some entries => ∃ s', iterateM items.length (fun _ => displayRound (executeNext depth) scope x) () s = .ok () s' ∧
        Filled x (m.insertAll entries) s'
    | none => ∀ s', iterateM items.length (fun _ => displayRound (executeNext depth) scope x) () s ≠ .ok () s' := by
  induction items generalizing m s with
  | nil => exact ⟨s, rfl, hfilled⟩
  | cons item items ih =>
    obtain ⟨hitem, hitems⟩ := List.forall_mem_cons.mp hsound
    simp only [display, bytes, List.append_assoc] at hs
    simp only [itemSteps, List.map_cons, List.sum_cons] at hgas
    simp only [itemRequests, List.map_cons, List.sum_cons] at hmem
    have hround := displayRound_run hitem hdepth hfits hx hfilled hs (hgas.mono (by omega)) (hmem.mono (by omega))
    rw [List.mapM_cons]
    cases hshown : item.shown with
    | none =>
      rw [hshown] at hround
      intro s' h
      obtain ⟨u, s₁, hrun, -⟩ := bind_eq_ok.mp h
      exact hround s₁ hrun
    | some entry =>
      obtain ⟨key, v⟩ := entry
      rw [hshown] at hround
      obtain ⟨s₁, hrun, hwrites, hfilled₁⟩ := hround
      have hplaced : Placed (bytes (display items) ++ rest) s₁ := by
        refine hwrites.placed (b := bytes item.key ++ bytes item.value) (by rw [List.length_append]) ?_
        simpa only [List.append_assoc] using hs
      have hrest := ih hitems (hwrites.fits hfits (.inr hx)) hfilled₁ hplaced
        (hwrites.affords (hgas.mono (by simp only [itemSteps]; omega)))
        (hwrites.grants (hmem.mono (by simp only [itemRequests]; omega)))
      have hfirst (count : Nat) : iterateM (count + 1) (fun _ => displayRound (executeNext depth) scope x) () s =
          iterateM count (fun _ => displayRound (executeNext depth) scope x) () s₁ := bind_of_ok hrun
      rw [List.length_cons, hfirst]
      cases hall : items.mapM Item.shown with
      | none =>
        rw [hall] at hrest
        exact hrest
      | some entries =>
        rw [hall] at hrest
        exact hrest

end Display

/-! ### The assignments -/

section Assignments

variable {n depth : Nat} {scope : ScopeRef} {d : Str} {rd r : Ref} {m : SortedMap Str Value} {rest : List UInt8}
  {s₀ s : State} {v : Value}

/-- A variable is looked up. -/
lemma getValue_bound {name : Str} {p : ValuePtr} (hnone : name ≠ lit "None") (hbuiltin : Scope.builtinNamed name = none)
    (hbound : Scope.findValue s.frames scope name = some p) :
    ∃ s', getValue scope name s = .ok p s' ∧ Silent 0 0 0 s s' := by
  have hfind : findValue scope name s = .ok (some p)
      { s with log := .nameFound (Scope.binders s.frames scope name).head? :: s.log } := by
    unfold findValue
    rw [hbound]
  refine ⟨_, ?_, (⟨?_, List.prefix_rfl, rfl, rfl, rfl, rfl, rfl, rfl⟩ : Silent 0 0 0 s
    { s with log := .nameFound (Scope.binders s.frames scope name).head? :: s.log })⟩
  · unfold getValue
    rw [if_neg hnone, hbuiltin]
    dsimp only
    rw [bind_of_ok hfind]
    rfl
  · simp

/-- The target `d[key]` of an assignment. -/
lemma assignTarget_run (depth : Nat) {item : Item} (hstart : StartsEmpty scope d rd s₀) (hsound : item.Sound n scope rd s₀)
    (hdepth : n ≤ depth) (hfits : Fits rd s₀ s) (hfilled : Filled rd m s) (hr : s.heap[r]? = some v) (hne : r ≠ rd)
    (hs : Placed (typeBytes .subscript ++ (typeBytes .index ++ (bytes item.key ++ (nameBytes d ++ rest)))) s)
    (hgas : Affords (1 + item.keySteps) s) (hmem : Grants item.keyRequests s) :
    match item.keyGives with
    | some (.string key) => ∃ s', assignTarget (executeNext (depth + 1)) scope r s = .ok () s' ∧
        Writes rd (8 + (bytes item.key).length + (nameBytes d).length) (1 + item.keySteps) item.keyRequests s s' ∧
        Filled rd (m.insert key v) s'
    | _ => ∀ s', assignTarget (executeNext (depth + 1)) scope r s ≠ .ok () s' := by
  have hpeek := peekType_placed (t := .subscript) nofun hs
  obtain ⟨htype, hindexed⟩ := readType_placed (t := .subscript) nofun hs
  have hgas₁ : Affords 1 (advance 4 0 s) := (Silent.advance 4 0 s).affords (hgas.mono (by omega))
  have hindex : evaluate (executeNext (depth + 1)) scope (advance 4 0 s) =
      evaluate (executeNext depth) scope (atSwitch .index .none scope (advance 4 0 s)) :=
    evaluate_keep (t := .index) nofun (.inl hstart.inFunction) hindexed hgas₁ rfl
  have hfront := (Silent.advance 4 0 s).trans (silent_atSwitch .index .none scope (advance 4 0 s))
  have hkey := hsound.key_gives depth hdepth _ (nameBytes d ++ rest) (hfits.of_silent hfront)
    (hfront.placed (b := typeBytes .subscript ++ typeBytes .index) rfl (by simpa only [List.append_assoc] using hs))
    (hfront.affords (by simpa using hgas)) (hfront.grants (by simpa using hmem))
  have hopen (s' : State) (h : assignTarget (executeNext (depth + 1)) scope r s = .ok () s') :
      ∃ q s₁, evaluate (executeNext depth) scope (atSwitch .index .none scope (advance 4 0 s)) = .ok (some q) s₁ := by
    unfold assignTarget at h
    rw [bind_of_ok hpeek, if_pos rfl, bind_of_ok htype] at h
    obtain ⟨p, s₁, hp, h⟩ := bind_eq_ok.mp h
    rw [hindex] at hp
    obtain ⟨q, s₂, hq, -⟩ := bind_eq_ok.mp h
    cases p with
    | none => cases hq
    | some q => exact ⟨q, s₁, hp⟩
  cases hgives : item.keyGives with
  | none =>
    rw [hgives] at hkey
    intro s' h
    obtain ⟨q, s₁, hrun⟩ := hopen s' h
    exact hkey q s₁ hrun
  | some k =>
    rw [hgives] at hkey
    obtain ⟨q, s₁, hrun, hq, hsilent, -, -⟩ := hkey
    have hread := hfront.trans hsilent
    obtain ⟨hname, -⟩ := readName_placed (hread.placed (b := typeBytes .subscript ++ (typeBytes .index ++ bytes item.key))
      (by simp [typeBytes]; omega) (by simpa only [List.append_assoc] using hs))
    have hnamed := hread.trans (.advance (nameBytes d).length 0 s₁)
    have hbound : Scope.findValue (advance (nameBytes d).length 0 s₁).frames scope (cStr d) = some (some rd) := by
      rw [hnamed.frames_eq, hfits.frames_eq]
      exact hstart.bound
    obtain ⟨s₂, hget, hlooked⟩ := getValue_bound hstart.notNone hstart.notBuiltin hbound
    have hall := hnamed.trans hlooked
    have hfilled₂ := hfilled.of_silent hall
    have hq₂ : s₂.heap[q]? = some k := hlooked.heap_eq hq
    have hd : ∃ elements, s₂.heap[rd]? = some (.dictionary elements) := by
      obtain ⟨elements, hcell, -⟩ := hfilled₂
      exact ⟨elements, hcell⟩
    obtain ⟨elements, hcell⟩ := hd
    have hstep : assignTarget (executeNext (depth + 1)) scope r s = (do
        let key ← dictKey q
        dictInsert rd key (some r)) s₂ := by
      unfold assignTarget
      rw [bind_of_ok hpeek, if_pos rfl, bind_of_ok htype, bind_of_ok (hindex.trans hrun)]
      dsimp only [assertGeneric]
      rw [pure_bind, bind_of_ok hname, bind_of_ok hget]
      dsimp only [subscriptTarget]
      rw [pure_bind, bind_of_ok (load_of_heap hcell)]
    by_cases hstring : ∃ key, k = .string key
    · obtain ⟨key, rfl⟩ := hstring
      obtain ⟨v', hinsert, hfilled'⟩ := hfilled₂.insert (hall.heap_eq hr) hne key
      refine ⟨{ s₂ with heap := s₂.heap.set rd v' }, ?_, ⟨s₂, v', ?_, rfl⟩, hfilled'⟩
      · have hkeyed : dictKey q s₂ = .ok key s₂ := by
          unfold dictKey
          rw [bind_of_ok (load_of_heap hq₂)]
          rfl
        rw [hstep, bind_of_ok hkeyed, hinsert]
      · simpa only [Nat.zero_add, Nat.add_zero] using hall
    · have hthrows (s' : State) : assignTarget (executeNext (depth + 1)) scope r s ≠ .ok () s' := by
        rw [hstep]
        intro h
        obtain ⟨key, s₃, hkeyed, -⟩ := bind_eq_ok.mp h
        unfold dictKey at hkeyed
        rw [bind_of_ok (load_of_heap hq₂)] at hkeyed
        cases k <;> first | exact hstring ⟨_, rfl⟩ | cases hkeyed
      cases k <;> first | exact hthrows | exact absurd ⟨_, rfl⟩ hstring

/-- The statement `d[key] = value`. -/
lemma assignment_run {item : Item} (hstart : StartsEmpty scope d rd s₀) (hsound : item.Sound n scope rd s₀)
    (hdepth : n ≤ depth) (hfits : Fits rd s₀ s) (hfilled : Filled rd m s)
    (hs : Placed (bytes (item.assignment d) ++ rest) s)
    (hgas : Affords (3 + item.valueSteps + item.keySteps) s)
    (hmem : Grants (item.valueRequests + item.keyRequests) s) :
    match item.assigned with
    | some (key, v) => ∃ s', evaluate (executeNext (depth + 2)) scope s = .ok none s' ∧
        Writes rd (bytes (item.assignment d)).length (3 + item.valueSteps + item.keySteps)
          (item.valueRequests + item.keyRequests) s s' ∧ Filled rd (m.insert key v) s'
    | none => ∀ p s', evaluate (executeNext (depth + 2)) scope s ≠ .ok p s' := by
  have hlength : (bytes (item.assignment d)).length =
      4 + (bytes item.value).length + 4 + (8 + (bytes item.key).length + (nameBytes d).length) := by
    simp [Item.assignment, bytes, typeBytes, sizeBytes]
    omega
  simp only [Item.assignment, bytes, List.append_assoc, List.nil_append] at hs
  have hnode : evaluate (executeNext (depth + 2)) scope s =
      execAssign (executeNext (depth + 1)) scope (atSwitch .assign .none scope s) :=
    evaluate_keep (t := .assign) (by simp) (.inl hstart.inFunction) hs (hgas.mono (by omega)) rfl
  have hswitch := silent_atSwitch .assign .none scope s
  have hplaced := hswitch.placed (length_wordBytes _) hs
  have hvalue := hsound.value_gives (depth + 1) (by omega) _ _ (hfits.of_silent hswitch) hplaced
    (hswitch.affords (hgas.mono (by omega))) (hswitch.grants (hmem.mono (by omega)))
  rw [hnode]
  unfold Item.assigned
  cases hgives : item.valueGives with
  | none =>
    rw [hgives] at hvalue
    intro p s' h
    obtain ⟨value, s₁, hrun, h⟩ := bind_eq_ok.mp h
    obtain ⟨q, s₂, hq, -⟩ := bind_eq_ok.mp h
    cases value with
    | none => cases hq
    | some q => exact hvalue q s₁ hrun
  | some v =>
    rw [hgives] at hvalue
    obtain ⟨r, s₁, hrun, hr, hsilent, hne, -⟩ := hvalue
    have hevaluated := hswitch.trans hsilent
    obtain ⟨hword, hplaced₂⟩ := readWord_placed (w := UInt32.ofNat 1) (hsilent.placed rfl hplaced)
    have hsized := hevaluated.trans (.advance 4 0 s₁)
    obtain ⟨hcharge, hplaced₃, -⟩ := charge_placed (k := 0) hplaced₂ (hsized.affords (hgas.mono (by omega)))
    have hcharged := hsized.trans (.advance 0 1 (advance 4 0 s₁))
    have htarget := assignTarget_run depth hstart hsound hdepth (hfits.of_silent hcharged)
      (hfilled.of_silent hcharged) (hr : (advance 0 1 (advance 4 0 s₁)).heap[r]? = some v) hne hplaced₃
      (hcharged.affords (hgas.mono (by omega))) (hcharged.grants (hmem.mono (by omega)))
    have hone : (UInt32.ofNat 1).toNat = 1 := rfl
    have hstep : execAssign (executeNext (depth + 1)) scope (atSwitch .assign .none scope s) = (do
        assignTarget (executeNext (depth + 1)) scope r
        pure none) (advance 0 1 (advance 4 0 s₁)) := by
      unfold execAssign
      rw [bind_of_ok hrun]
      dsimp only [assertGeneric]
      rw [pure_bind]
      unfold chargedLoop
      simp only [bind_assoc]
      rw [bind_of_ok hword, hone]
      simp only [iterateM, bind_assoc, pure_bind]
      rw [bind_of_ok hcharge]
    rw [hstep]
    have hfails (hno : ∀ s', assignTarget (executeNext (depth + 1)) scope r (advance 0 1 (advance 4 0 s₁)) ≠ .ok () s')
        (p : ValuePtr) (s' : State) : (do
          assignTarget (executeNext (depth + 1)) scope r
          pure none) (advance 0 1 (advance 4 0 s₁)) ≠ .ok p s' := by
      intro h
      obtain ⟨u, s₂, hrun, -⟩ := bind_eq_ok.mp h
      exact hno s₂ hrun
    cases hkey : item.keyGives with
    | none =>
      rw [hkey] at htarget
      exact hfails htarget
    | some k =>
      rw [hkey] at htarget
      cases k with
      | string key =>
        obtain ⟨s', hassign, ⟨t, v', hsilent', rfl⟩, hfilled'⟩ := htarget
        refine ⟨_, bind_of_ok hassign, ⟨t, v', ?_, rfl⟩, hfilled'⟩
        have hall := hcharged.trans hsilent'
        rw [hlength]
        have hsteps : 1 + item.valueSteps + 0 + 1 + (1 + item.keySteps) = 3 + item.valueSteps + item.keySteps := by
          omega
        rw [hsteps] at hall
        simpa only [Nat.add_zero, Nat.zero_add] using hall
      | _ => exact hfails htarget

/-- All assignments, one after another. -/
lemma executeAll_run {items : List Item} (hstart : StartsEmpty scope d rd s₀)
    (hsound : ∀ item ∈ items, item.Sound n scope rd s₀) (hfits : Fits rd s₀ s) (hfilled : Filled rd m s)
    (hs : Placed (items.flatMap (fun item => bytes (item.assignment d)) ++ rest) s)
    (hgas : Affords (itemSteps items) s) (hmem : Grants (itemRequests items) s) :
    match items.mapM Item.assigned with
    | some entries => ∃ s', executeAll (n + 2) scope items.length s = .ok () s' ∧
        Filled rd (m.insertAll entries) s'
    | none => ∀ s', executeAll (n + 2) scope items.length s ≠ .ok () s' := by
  induction items generalizing m s with
  | nil => exact ⟨s, rfl, hfilled⟩
  | cons item items ih =>
    obtain ⟨hitem, hitems⟩ := List.forall_mem_cons.mp hsound
    simp only [List.flatMap_cons, List.append_assoc] at hs
    simp only [itemSteps, List.map_cons, List.sum_cons] at hgas
    simp only [itemRequests, List.map_cons, List.sum_cons] at hmem
    have hround := assignment_run hstart hitem (Nat.le_refl n) hfits hfilled hs (hgas.mono (by omega))
      (hmem.mono (by omega))
    rw [List.mapM_cons]
    cases hassigned : item.assigned with
    | none =>
      rw [hassigned] at hround
      intro s' h
      obtain ⟨u, s₁, hrun, -⟩ := bind_eq_ok.mp h
      obtain ⟨p, s₂, hrun, -⟩ := bind_eq_ok.mp hrun
      exact hround p s₂ hrun
    | some entry =>
      obtain ⟨key, v⟩ := entry
      rw [hassigned] at hround
      obtain ⟨s₁, hrun, hwrites, hfilled₁⟩ := hround
      have hrest := ih hitems (hwrites.fits hfits (.inl rfl)) hfilled₁ (hwrites.placed rfl hs)
        (hwrites.affords (hgas.mono (by simp only [itemSteps]; omega)))
        (hwrites.grants (hmem.mono (by simp only [itemRequests]; omega)))
      have hfirst : executeAll (n + 2) scope (items.length + 1) s = executeAll (n + 2) scope items.length s₁ :=
        bind_of_ok (bind_of_ok hrun)
      rw [List.length_cons, hfirst]
      cases hall : items.mapM Item.assigned with
      | none =>
        rw [hall] at hrest
        exact hrest
      | some entries =>
        rw [hall] at hrest
        exact hrest

end Assignments

/-! ### The law -/

section Law

variable {n : Nat} {scope : ScopeRef} {d : Str} {rd : Ref} {items : List Item} {rest : List UInt8} {s₀ s : State}

lemma length_display (items : List Item) : (display items).length = items.length := by
  induction items with
  | nil => rfl
  | cons item items ih => simp only [display, Ast.length, List.length_cons, ih]

/-- An encoded item takes room. -/
lemma length_le_display (hsound : ∀ item ∈ items, item.Sound n scope rd s₀) :
    items.length ≤ (bytes (display items)).length := by
  induction items with
  | nil => exact Nat.le_refl 0
  | cons item items ih =>
    obtain ⟨hitem, hitems⟩ := List.forall_mem_cons.mp hsound
    have hkey := four_le_bytes item.key hitem.compiles (.inl rfl)
    have hrest := ih hitems
    simp only [display, bytes, List.length_append, List.length_cons]
    omega

/-- The display as a node. -/
lemma display_run (hdeep : 2 ≤ scope.length) (hsound : ∀ item ∈ items, item.Sound n scope rd s₀)
    (hfits : Fits rd s₀ s) (hs : Placed (bytes (.dict (display items)) ++ rest) s)
    (hgas : Affords (1 + itemSteps items) s) (hmem : Grants (1 + itemRequests items) s) :
    match items.mapM Item.shown with
    | some entries => ∃ r s', evaluate (executeNext (n + 2)) scope s = .ok (some r) s' ∧
        Filled r (SortedMap.empty.insertAll entries) s'
    | none => ∀ p s', evaluate (executeNext (n + 2)) scope s ≠ .ok p s' := by
  simp only [bytes, List.append_assoc] at hs
  have hnode : evaluate (executeNext (n + 2)) scope s =
      execDictionary (executeNext (n + 1)) scope (atSwitch .dictionary .none scope s) :=
    evaluate_keep (t := .dictionary) (by simp) (.inl hdeep) hs (hgas.mono (by omega)) rfl
  have hswitch := silent_atSwitch .dictionary .none scope s
  have hplaced := hswitch.placed (length_wordBytes _) hs
  generalize hx : atSwitch .dictionary .none scope s = s₁ at *
  have hmem₁ : Grants (1 + itemRequests items) s₁ := hswitch.grants (by simpa using hmem)
  obtain ⟨x, s₂, hallocated, hp⟩ := bind_eq_ok.mp
    (create_of_memoryLeft (hmem₁.mono (by omega) : Grants (0 + 1) s₁).memoryLeft (.dictionary .empty))
  cases hp
  have hcreated := hswitch.trans (.created (.dictionary .empty) s₁)
  have hsize : (UInt32.ofNat (display items).length).toNat = items.length := by
    have hle := length_le_display hsound
    have hin := hplaced.inside
    have hsmall := hplaced.small
    rw [List.length_append, List.length_append] at hin
    rw [length_display, UInt32.toNat_ofNat_of_lt']
    exact lt_of_le_of_lt (by omega) hsmall
  obtain ⟨hword, hplaced₂⟩ := readWord_placed (hcreated.placed (b := typeBytes .dictionary) (length_wordBytes _) hs)
  have hsized := hcreated.trans (.advance 4 0 (created (.dictionary .empty) s₁))
  have hold : s₀.heap.length ≤ s₁.heap.length := (hfits.of_silent hswitch).length_le
  have hempty : Filled s₁.heap.length .empty (advance 4 0 (created (.dictionary .empty) s₁)) :=
    ⟨.empty, heap_created _ s₁, fun key => .none⟩
  have hloop := displayLoop_run (n + 1) hsound (by omega) (hfits.of_silent hsized) hold hempty hplaced₂
    (hsized.affords (by simpa using hgas)) (hsized.grants (by simpa [Nat.add_comm] using hmem))
  have hstep : execDictionary (executeNext (n + 1)) scope s₁ = (do
      iterateM items.length (fun _ => displayRound (executeNext (n + 1)) scope s₁.heap.length) ()
      pure (some s₁.heap.length)) (advance 4 0 (created (.dictionary .empty) s₁)) := by
    unfold execDictionary
    rw [bind_of_ok hallocated]
    unfold chargedLoop
    simp only [bind_assoc]
    rw [bind_of_ok hword, hsize]
    rfl
  rw [hnode, hstep]
  cases hall : items.mapM Item.shown with
  | none =>
    rw [hall] at hloop
    intro p s' h
    obtain ⟨u, s₃, hrun, -⟩ := bind_eq_ok.mp h
    exact hloop s₃ hrun
  | some entries =>
    rw [hall] at hloop
    obtain ⟨s', hrun, hfilled⟩ := hloop
    exact ⟨_, s', bind_of_ok hrun, hfilled⟩

/-- What a filled dictionary shows. -/
lemma Shows.content_eq {x : Ref} {elements : SortedMap Str ValuePtr} {m : SortedMap Str Value}
    (h : Shows s.heap x elements m) (key : Str) :
    (elements.find? key).map (content · s) = (m.find? key).map some := by
  have hkey := h key
  generalize elements.find? key = p at hkey
  generalize m.find? key = v at hkey
  cases hkey with
  | none => rfl
  | some h =>
    obtain ⟨r, rfl, -, hr⟩ := h
    exact congrArg some hr

/-- A display makes the dictionary of the assignments exactly when its keys, read as names, name the
entries that the keys evaluate to. -/
theorem display_agrees_iff {b b' : Bitstream} {rest' : List UInt8} (hstart : StartsEmpty scope d rd s₀)
    (hsound : ∀ item ∈ items, item.Sound n scope rd s₀)
    (hdisplay : Placed (bytes (.dict (display items)) ++ rest) (withCode b s₀))
    (hassign : Placed (items.flatMap (fun item => bytes (item.assignment d)) ++ rest') (withCode b' s₀))
    (hgas : Affords (1 + itemSteps items) s₀) (hmem : Grants (1 + itemRequests items) s₀) :
    DisplayAgrees (evaluate (executeNext (n + 2)) scope) (withCode b s₀)
      (executeAll (n + 2) scope items.length) (withCode b' s₀) rd ↔ KeysAgree items := by
  have hfits (b : Bitstream) : Fits rd s₀ (withCode b s₀) :=
    ⟨rfl, rfl, rfl, Nat.le_refl _, fun _ _ _ hr => hr⟩
  have hempty : Filled rd .empty (withCode b' s₀) := ⟨.empty, hstart.empty, fun key => .none⟩
  have hshown := display_run hstart.inFunction hsound (hfits b) hdisplay hgas hmem
  have hassigned := executeAll_run hstart hsound (hfits b') hempty hassign (hgas.mono (by omega))
    (hmem.mono (by omega))
  unfold KeysAgree
  cases hentries : items.mapM Item.assigned with
  | none =>
    rw [hentries] at hassigned
    cases hentries' : items.mapM Item.shown with
    | none =>
      rw [hentries'] at hshown
      refine iff_of_true ⟨fun t' hrun => absurd hrun (hassigned t'), fun e t' _ => ?_⟩ rfl
      cases hx : evaluate (executeNext (n + 2)) scope (withCode b s₀) with
      | ok p s' => exact absurd hx (hshown p s')
      | error e s' => exact ⟨e, s', rfl⟩
    | some entries' =>
      rw [hentries'] at hshown
      obtain ⟨r, s', hx, -⟩ := hshown
      refine iff_of_false (fun hagrees => ?_) nofun
      cases hrun : executeAll (n + 2) scope items.length (withCode b' s₀) with
      | ok u t' => exact hassigned t' hrun
      | error e t' =>
        obtain ⟨e', s'', hthrows⟩ := hagrees.throws e t' hrun
        cases hx.symm.trans hthrows
  | some entries =>
    rw [hentries] at hassigned
    obtain ⟨t', hrun, elements', hcell', hholds'⟩ := hassigned
    cases hentries' : items.mapM Item.shown with
    | none =>
      rw [hentries'] at hshown
      refine iff_of_false (fun hagrees => ?_) ?_
      · obtain ⟨r, s', elements, -, hx, -⟩ := hagrees.gives t' hrun
        exact hshown _ s' hx
      · rintro ⟨entries', hsome, -⟩
        cases hsome
    | some entries' =>
      rw [hentries'] at hshown
      obtain ⟨r, s', hx, elements, hcell, hholds⟩ := hshown
      constructor
      · intro hagrees
        obtain ⟨r', s'', elements₁, elements₂, hx', hcell₁, hcell₂, hsame⟩ := hagrees.gives t' hrun
        cases hx.symm.trans hx'
        cases hcell.symm.trans hcell₁
        cases hcell'.symm.trans hcell₂
        refine ⟨entries', rfl, fun key => ?_⟩
        have hkey := hsame key
        rw [hholds.content_eq, hholds'.content_eq] at hkey
        exact Option.map_injective (Option.some_injective Value) hkey
      · rintro ⟨_, heq, hsame⟩
        cases heq
        refine ⟨fun t'' hrun' => ?_, fun e t'' hrun' => ?_⟩
        · cases hrun.symm.trans hrun'
          refine ⟨r, s', elements, elements', hx, hcell, hcell', fun key => ?_⟩
          rw [hholds.content_eq, hholds'.content_eq, hsame]
        · cases hrun.symm.trans hrun'

end Law

/-! ### Literals -/

/-- A node that makes a new object. -/
lemma gives_of_create {rec : Rec} {scope : ScopeRef} {rd : Ref} {s₀ : State} {code : List UInt8} {v : Value}
    (hrd : rd < s₀.heap.length) (h : ∀ s rest, Placed (code ++ rest) s → Affords 1 s →
      ∃ t, evaluate rec scope s = create v t ∧ Silent code.length 1 0 s t) :
    Gives rec scope rd s₀ code 1 1 (some v) := by
  intro s rest hfits hs hgas hmem
  obtain ⟨t, hrun, hsilent⟩ := h s rest hs hgas
  have hleft : MemoryLeft t := (hsilent.grants (by simpa using hmem) : Grants (0 + 1) t).memoryLeft
  have hle : s.heap.length ≤ t.heap.length := hsilent.heap_le.length_le
  refine ⟨t.heap.length, created v t, hrun.trans (create_of_memoryLeft hleft v), heap_created v t, ?_, ?_, .inr hle⟩
  · simpa using hsilent.trans (.created v t)
  · rintro rfl
    exact absurd hrd (Nat.not_lt.mpr (hfits.length_le.trans hle))

lemma gives_str (k : Nat) {scope : ScopeRef} (hdeep : 2 ≤ scope.length) {rd : Ref} {s₀ : State}
    (hrd : rd < s₀.heap.length) (value : Str) :
    Gives (executeNext (k + 1)) scope rd s₀ (bytes (.str value)) 1 1 (some (.string (cStr value))) := by
  refine gives_of_create hrd fun s rest hs hgas => ?_
  simp only [bytes, List.append_assoc] at hs
  have hswitch := silent_atSwitch .string .none scope s
  obtain ⟨hread, -⟩ := readString_placed (hswitch.placed (length_wordBytes _) hs)
  refine ⟨_, (evaluate_keep (t := .string) (by simp) (.inl hdeep) hs hgas rfl).trans (bind_of_ok hread), ?_⟩
  simpa [bytes, typeBytes] using hswitch.trans (.advance (stringBytes (cStr value)).length 0 _)

lemma gives_integer (k : Nat) {scope : ScopeRef} (hdeep : 2 ≤ scope.length) {rd : Ref} {s₀ : State}
    (hrd : rd < s₀.heap.length) (i : Int64) :
    Gives (executeNext (k + 1)) scope rd s₀ (bytes (.number (.integer i))) 1 1
      (some (.integer i.toInt32.toInt64)) := by
  refine gives_of_create hrd fun s rest hs hgas => ?_
  simp only [bytes, List.append_assoc] at hs
  have hswitch := silent_atSwitch .integer .none scope s
  obtain ⟨hread, -⟩ := readWord_placed (hswitch.placed (length_wordBytes _) hs)
  have hinteger : execInteger (atSwitch .integer .none scope s) =
      create (.integer i.toInt32.toInt64) (advance 4 0 (atSwitch .integer .none scope s)) := by
    unfold execInteger
    exact bind_of_ok hread
  refine ⟨_, (evaluate_keep (t := .integer) (by simp) (.inl hdeep) hs hgas rfl).trans hinteger, ?_⟩
  simpa [bytes, typeBytes] using hswitch.trans (.advance 4 0 _)

/-- In a function, with `d` an empty dictionary and `x` the string `a`. -/
def assigning : State :=
  let values : SortedMap Str ValuePtr :=
    SortedMap.empty.insertAll [(lit "store", some 0), (lit "d", some 1), (lit "x", some 2)]
  { startState [] 1000 with
    heap := [.persistableDictionary .empty, .dictionary .empty, .string (lit "a")]
    frames := [{ Frame.empty with values := values }, .empty] }

/-- The item `'a': 1`. -/
def itemA : Item := ⟨.str (lit "a"), .number (.integer 1), some (.string (lit "a")), some (.integer 1), 1, 1, 1, 1⟩

/-- The item `x: 1`. -/
def itemX : Item := ⟨.name (lit "x"), .number (.integer 1), some (.string (lit "a")), some (.integer 1), 1, 0, 1, 1⟩

/-- `{'a': 1}` is what `d['a'] = 1` makes of an empty dictionary. -/
theorem display_agrees_itemA : DisplayAgrees (evaluate (executeNext 3) [1, 0])
    (withCode (Bitstream.ofBytes (bytes (.dict (display [itemA])))) assigning)
    (executeAll 3 [1, 0] 1) (withCode (Bitstream.ofBytes
      ([itemA].flatMap fun item => bytes (item.assignment (lit "d")))) assigning) 1 := by
  have hstart : StartsEmpty [1, 0] (lit "d") 1 assigning :=
    ⟨by decide, by decide, by decide, by decide +kernel, rfl⟩
  have hsound : itemA.Sound 1 [1, 0] 1 assigning := by
    refine ⟨rfl, fun m hm => ?_, fun m hm => ?_⟩
    all_goals obtain ⟨k, rfl⟩ := Nat.exists_eq_add_of_le' hm
    · exact gives_str k (by decide) (by decide) (lit "a")
    · exact gives_integer k (by decide) (by decide) 1
  have hdisplay := placed_withCode (bytes (.dict (display [itemA]))) assigning (by decide)
  have hassign := placed_withCode ([itemA].flatMap fun item => bytes (item.assignment (lit "d"))) assigning
    (by decide)
  have hagree : KeysAgree [itemA] := ⟨[(lit "a", .integer 1)], rfl, fun _ => rfl⟩
  have hgas : Affords (1 + itemSteps [itemA]) assigning := by decide
  have hmem : Grants (1 + itemRequests [itemA]) assigning := fun _ _ => rfl
  have hall : ∀ item ∈ [itemA], item.Sound 1 [1, 0] 1 assigning := List.forall_mem_singleton.mpr hsound
  exact (display_agrees_iff hstart hall hdisplay hassign hgas hmem).mpr hagree

/-- `{x: 1}` has the key `x`, `d[x] = 1` makes an entry for what `x` stands for. -/
theorem display_agrees_itemX_false : ¬DisplayAgrees (evaluate (executeNext 3) [1, 0])
    (withCode (Bitstream.ofBytes (bytes (.dict (display [itemX])))) assigning) (executeAll 3 [1, 0] 1)
    (withCode (Bitstream.ofBytes (bytes (itemX.assignment (lit "d")))) assigning) 1 := by
  intro h
  have hassigned : returned (executeAll 3 [1, 0] 1)
      (withCode (Bitstream.ofBytes (bytes (itemX.assignment (lit "d")))) assigning) = some () := by decide +kernel
  have hshown : returned (evaluate (executeNext 3) [1, 0])
      (withCode (Bitstream.ofBytes (bytes (.dict (display [itemX])))) assigning) = some (some 3) := by
    decide +kernel
  obtain ⟨r, s', elements, elements', hx, hcell, hcell', hsame⟩ := h.gives _ (eq_ok_of_returned hassigned)
  cases (eq_ok_of_returned hshown).symm.trans hx
  have hin : ((finalState (executeAll 3 [1, 0] 1)
      (withCode (Bitstream.ofBytes (bytes (itemX.assignment (lit "d")))) assigning)).heap[1]?.bind
      Value.dictionary?).map (fun e => (e.find? (lit "a")).isSome) = some true := by decide +kernel
  have hout : ((finalState (evaluate (executeNext 3) [1, 0])
      (withCode (Bitstream.ofBytes (bytes (.dict (display [itemX])))) assigning)).heap[3]?.bind
      Value.dictionary?).map (fun e => (e.find? (lit "a")).isSome) = some false := by decide +kernel
  rw [hcell'] at hin
  rw [hcell] at hout
  have hin' : (elements'.find? (lit "a")).isSome = true := Option.some.inj hin
  have hout' : (elements.find? (lit "a")).isSome = false := Option.some.inj hout
  have hkey := congrArg Option.isSome (hsame (lit "a"))
  rw [Option.isSome_map, Option.isSome_map, hin', hout'] at hkey
  cases hkey

end ContractPython.Proofs
