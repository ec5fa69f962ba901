import ContractPython.Trees.Expressions

/-!
# Lists of statements, branches and loops

These nodes hand loop states on. A statement that breaks off takes the cursor back to its first byte; the
list it stands in passes over as many statements as are left from there, the branch it ends passes over
it in the place of the other branch, and the loop around it passes over its body.
-/

namespace ContractPython.Proofs

open Program M Bytes

variable {n : Nat} {scope : ScopeRef} {nullOk : Bool}

/-- What is done behind a segment. -/
lemma Switched.after {k : Kind} {ls ls' : LoopState} {len len' : Nat} {b b' : Bitstream} {s t : State}
    (h : Switched k ls len' b' ls' s t) (hb : b' = ahead len b) : Switched k ls (len + len') b ls' s t where
  offStream := h.offStream
  leads := h.leads
  behind hends := by rw [h.behind hends, hb, ahead_ahead]

/-- The flag of a scope is the same on both sides. -/
lemma isTerminated_same (scope : ScopeRef) {s t : State} (hst : OffStream s t) :
    ∃ flag, isTerminated scope s = .ok flag s ∧ isTerminated scope t = .ok flag t := by
  obtain ⟨b, rfl⟩ := hst
  cases scope with
  | nil => exact ⟨false, rfl, rfl⟩
  | cons id parents => exact ⟨_, rfl, rfl⟩

/-- A step that only the bytecode makes, and that only looks at the state. -/
lemma Mirrors.looks {α β : Type} {bs : List UInt8} {x : M α} {f : α → M β} {z : M β}
    (hx : ∀ s, ∃ a, x s = .ok a s) (h : ∀ a, Mirrors bs (f a) z) : Mirrors bs (x >>= f) z := by
  intro s t hst hs
  obtain ⟨a, ha⟩ := hx s
  rw [bind_of_ok ha]
  exact h a s t hst hs

/-! ### Lists of statements -/

/-- The first round of a list of statements. -/
lemma iterateM_statements (rec : Rec) (acc : ValuePtr × LoopState) (rounds : Nat) : iterateM (rounds + 1) (statementListStep rec scope) acc = (do
    charge
    let terminated ← isTerminated scope
    if terminated || acc.2 == .break || acc.2 == .continue then do
      skipNext
      iterateM rounds (statementListStep rec scope) acc
    else do
      let (final, child) ← rec scope (if acc.2 == .topLevel then .normal else acc.2)
      iterateM rounds (statementListStep rec scope)
        (final, if acc.2 != .none && child != .normal then child else acc.2)) := by
  show statementListStep rec scope acc >>= iterateM rounds (statementListStep rec scope) = _
  unfold statementListStep
  rw [bind_assoc]
  congr 1
  funext _
  rw [bind_assoc]
  congr 1
  funext terminated
  split
  · rw [bind_assoc]
    simp only [pure_bind]
  · rw [bind_assoc]
    simp only [pure_bind]

/-- A list that has broken off passes over the statements that are left. -/
lemma mirrors_brokenOff (rec : Rec) (scope : ScopeRef) (acc : ValuePtr × LoopState)
    (hbreak : acc.2 = .break ∨ acc.2 = .continue) (stmts : List (Ast .stmt)) (hall : ∀ stmt ∈ stmts, accepted nullOk stmt = true) :
    Mirrors (stmts.flatMap bytes) (iterateM stmts.length (statementListStep rec scope) acc) (do
      stmts.foldlM (fun _ left => do
        charge
        Tree.passOver left) ()
      pure acc) := by
  have hoff (terminated : Bool) : (terminated || acc.2 == .break || acc.2 == .continue) = true := by
    rcases hbreak with h | h <;> simp [h]
  induction stmts with
  | nil => exact Mirrors.pure acc
  | cons stmt rest ih =>
    have hskip := mirrors_skipNext stmt (.inr (.inl rfl)) (hall stmt List.mem_cons_self)
    have hrest := ih fun left hleft => hall left (List.mem_cons_of_mem _ hleft)
    rw [List.length_cons, iterateM_statements, List.foldlM_cons, bind_assoc, bind_assoc]
    refine Mirrors.after .charge fun _ => Mirrors.looks (fun s => ?_) fun terminated => ?_
    · cases scope <;> exact ⟨_, rfl⟩
    · rw [if_pos (hoff terminated)]
      exact hskip.seq fun _ => hrest

/-- The loop state of a statement of a list. -/
lemma child_settled {ls : LoopState} (hls : ls ≠ .ignoreAll) (hbreak : ls ≠ .break) (hcontinue : ls ≠ .continue) :
    (if ls == .topLevel then LoopState.normal else ls) = .none ∧ ls = .none ∨
      (if ls == .topLevel then LoopState.normal else ls) = .normal ∧ ls ≠ .none := by
  cases ls <;> simp_all

/-- As many statements are passed over as are left, the one that broke off first. -/
lemma agree_breaking {stmt : Ast .stmt} {rest : List (Ast .stmt)} {rec : Rec} {ls child : LoopState} {final : ValuePtr}
    {len : Nat} {b : Bitstream} {s t : State} (hall : ∀ left ∈ stmt :: rest, accepted nullOk left = true)
    (hst : OffStream s t) (hs : Placed ((stmt :: rest).flatMap bytes) s) (hls : ls ≠ .none)
    (hbreak : child = .break ∨ child = .continue) :
    InStep OffStream (fun res => Switched .stmt ls len b res.2)
      (iterateM rest.length (statementListStep rec scope)
        (final, if ls != .none && child != .normal then child else ls) s)
      ((do
        (stmt :: rest).dropLast.foldlM (fun _ left => do
          charge
          Tree.passOver left) ()
        pure (final, child)) t) := by
  have hstate : (if ls != .none && child != .normal then child else ls) = child := by
    rcases hbreak with rfl | rfl <;> simp [hls]
  have hlength : rest.length = (stmt :: rest).dropLast.length := by simp
  have hsplit := List.dropLast_append_getLast (List.cons_ne_nil stmt rest)
  have hleft : Placed ((stmt :: rest).dropLast.flatMap bytes) s := by
    rw [← hsplit, List.flatMap_append] at hs
    exact hs.append.1
  rw [hstate, hlength]
  have hskip := mirrors_brokenOff rec scope (final, child) hbreak (stmt :: rest).dropLast
    fun left hmem => hall left (List.dropLast_subset _ hmem)
  refine ((hskip s t hst hleft).and_right (P := fun res _ => res.2 = child) fun res t' hres => ?_).mono
    fun res s' t' hend => ⟨hend.1.1, .inr ⟨rfl, hls, ?_⟩, fun hends => ?_⟩
  · obtain ⟨u, t₁, -, hpure⟩ := bind_eq_ok.mp hres
    cases hpure
    rfl
  · rwa [hend.2]
  · rw [hend.2] at hends
    rcases hbreak with rfl | rfl <;> simp [EndsBehind] at hends

variable (hn : MeansAll n)
include hn

/-- A list of statements that nothing has broken off yet, or that has broken off. -/
lemma agree_statements (stmts : List (Ast .stmt)) (hall : ∀ stmt ∈ stmts, Fit nullOk .stmt stmt)
    (acc : ValuePtr × LoopState) (hls : acc.2 ≠ .ignoreAll) (s t : State) (hst : OffStream s t)
    (hs : Placed (stmts.flatMap bytes) s) :
    InStep OffStream (fun res => Switched .stmt acc.2 (stmts.flatMap bytes).length s.interp.data res.2)
      (iterateM stmts.length (statementListStep (executeNext n) scope) acc s)
      (Tree.suite (Tree.execute n) scope stmts acc t) := by
  induction stmts generalizing acc s t with
  | nil => exact .ok ⟨hst, .inl rfl, fun _ => rfl⟩
  | cons stmt rest ih =>
    have hfit := hall stmt List.mem_cons_self
    have hfits : ∀ left ∈ rest, Fit nullOk .stmt left := fun left hleft => hall left (List.mem_cons_of_mem _ hleft)
    rw [List.length_cons, iterateM_statements, Tree.suite]
    refine (Blind.charge.agree hst).bind fun _ s₁ t₁ hcharged => ?_
    obtain ⟨hst₁, hdata₁⟩ := hcharged
    have hs₁ := hs.of_data hdata₁
    obtain ⟨flag, hflag, hflag'⟩ := isTerminated_same scope hst₁
    rw [bind_of_ok hflag, bind_of_ok hflag', List.flatMap_cons, List.length_append]
    by_cases hoff : (flag || acc.2 == .break || acc.2 == .continue) = true
    · -- the list has broken off, or its function has returned
      rw [if_pos hoff, if_pos hoff]
      have hskip := mirrors_skipNext stmt (.inr (.inl rfl)) hfit.1
      refine (hskip s₁ t₁ hst₁ hs₁.append.1).bind fun _ s₂ t₂ hskipped => ?_
      have hs₂ : Placed (rest.flatMap bytes) s₂ := hs₁.ahead hskipped.2
      refine (ih hfits acc hls s₂ t₂ hskipped.1 hs₂).mono fun res s₃ t₃ hend => hend.after ?_
      rw [hskipped.2, hdata₁]
    · rw [if_neg hoff, if_neg hoff]
      simp only [Bool.or_eq_true, beq_iff_eq, not_or, Bool.not_eq_true] at hoff
      obtain ⟨⟨rfl, hbreak⟩, hcontinue⟩ := hoff
      have hchild := child_settled hls hbreak hcontinue
      generalize (if acc.2 == .topLevel then LoopState.normal else acc.2) = inner at hchild ⊢
      have henters : Enters stmt scope inner s₁ :=
        ⟨hchild.elim (fun h => .inl h.1) fun h => .inr (.inl h.1), fun _ => hflag⟩
      refine (hn stmt (.inr (.inl rfl)) hfit scope inner s₁ t₁ hst₁ hs₁.append.1 henters).bind
        fun res s₂ t₂ hcame => ?_
      obtain ⟨final, child⟩ := res
      dsimp only at hcame ⊢
      by_cases hbroken : (child == .break || child == .continue) = true
      · rw [if_pos hbroken]
        simp only [Bool.or_eq_true, beq_iff_eq] at hbroken
        have hnone : acc.2 ≠ .none := by
          rcases hchild with ⟨rfl, -⟩ | ⟨-, hnone⟩
          · rcases hcame.leads with rfl | ⟨-, hne, -⟩
            · simp at hbroken
            · exact absurd rfl hne
          · exact hnone
        have hback : ¬EndsBehind child := by
          rcases hbroken with rfl | rfl <;> simp [EndsBehind]
        exact agree_breaking (fun left hleft => (hall left hleft).1) hcame.offStream
          (hs₁.of_data (hcame.back hback)) hnone hbroken
      · rw [if_neg hbroken]
        simp only [Bool.or_eq_true, beq_iff_eq] at hbroken
        obtain rfl : child = inner := hcame.leads.resolve_right fun h => hbroken h.2.2
        have hsame : (if acc.2 != .none && child != .normal then child else acc.2) = acc.2 := by
          rcases hchild with ⟨-, hnone⟩ | ⟨rfl, -⟩
          · simp [hnone]
          · simp
        have hends : EndsBehind child := hchild.imp (fun h => h.1) fun h => h.1
        have hs₂ : Placed (rest.flatMap bytes) s₂ := hs₁.ahead (hcame.behind hends)
        rw [hsame]
        refine (ih hfits (final, acc.2) hls s₂ t₂ hcame.offStream hs₂).mono fun res s₃ t₃ hend => hend.after ?_
        rw [hcame.behind hends, hdata₁]

lemma acts_suite (stmts : Ast .stmts) (hfit : Fit nullOk .stmts stmts) :
    Acts n (.suite stmts) (sizeBytes stmts.length ++ bytes stmts) := by
  intro scope ls s t hst hs henters
  have hall : ∀ stmt ∈ Tree.statements stmts, Fit nullOk .stmt stmt :=
    Tree.forall_statements (fun head tail h => h.both rfl rfl) hfit
  have hls : ls ≠ .ignoreAll := by
    rcases henters.1 with rfl | rfl | ⟨-, hne⟩
    · simp
    · simp
    · exact hne
  obtain ⟨hlength, hbytes⟩ := Tree.bytes_statements stmts
  have hsize := size_of_placed hs (length_le_bytes stmts hfit.1)
  obtain ⟨hread, hrest⟩ := readWord_placed hs
  show InStep _ _ (execStatementList (executeNext n) scope ls s) _
  unfold execStatementList
  rw [bind_of_ok hread, hsize, ← hlength]
  rw [hbytes] at hrest ⊢
  refine (agree_statements hn _ hall (none, ls) hls _ t (hst.advance 4) hrest).mono fun res s' t' hend => ?_
  rw [List.length_append, sizeBytes, length_wordBytes]
  exact hend.after (by rw [advance_eq_withCode]; rfl)

/-! ### Branches -/

omit hn in
lemma Enters.settled {k : Kind} {a : Ast k} {ls : LoopState} {s : State} (h : Enters a scope ls s)
    (ha : Tree.straight a = false) : EndsBehind ls := by
  rcases h.1 with hnone | hnormal | ⟨hstraight, -⟩
  · exact .inl hnone
  · exact .inr hnormal
  · simp [ha] at hstraight

/-- The test of a branch goes on in the loop state of the branch. -/
lemma agree_test (a : Ast .expr) (hfit : Fit nullOk .expr a) {ls : LoopState} (hls : EndsBehind ls) {s t : State}
    (hst : OffStream s t) (hs : Placed (bytes a) s) :
    InStep OffStream (fun res s' t' => res.2 = ls ∧ Arrived (ahead (bytes a).length s.interp.data) s' t')
      (executeNext n scope ls s) (Tree.execute n a scope ls t) := by
  have henters : Enters a scope ls s :=
    ⟨hls.imp id .inl, fun hwhile => by simp [isWhile_of_ne_stmt a (by simp)] at hwhile⟩
  refine (hn a (.inl rfl) hfit scope ls s t hst hs henters).mono fun res s' t' hcame => ?_
  have hsame : res.2 = ls := hcame.leads.resolve_right fun h => by simp at h
  exact ⟨hsame, hcame.offStream, hcame.behind (hsame ▸ hls)⟩

/-- A branch that is taken. -/
lemma agree_branch (a : Ast .stmt) (hfit : Fit nullOk .stmt a) (hwhile : Tree.isWhile a = false) {ls : LoopState}
    (hls : EndsBehind ls) {s t : State} (hst : OffStream s t) (hs : Placed (bytes a) s) :
    InStep OffStream (fun res => Came .stmt ls (bytes a).length s.interp.data res.2)
      (executeNext n scope ls s) (Tree.execute n a scope ls t) :=
  hn a (.inr (.inl rfl)) hfit scope ls s t hst hs ⟨hls.imp id .inl, fun h => by simp [hwhile] at h⟩

lemma acts_ifStmt (test : Ast .expr) (body orelse : Ast .stmt) (hnull : orelse.isNull = true)
    (htest : Fit nullOk .expr test) (hbody : Fit nullOk .stmt body) (hwhile : Tree.isWhile body = false) :
    Acts n (.ifStmt test body orelse) (bytes test ++ bytes body) := by
  intro scope ls s t hst hs henters
  have hls : EndsBehind ls := henters.settled rfl
  have htype : Tree.nodeType (.ifStmt test body orelse) = .if := if_pos hnull
  rw [htype, Tree.node, if_pos hnull, List.length_append]
  show InStep _ _ (execIf (executeNext n) scope ls s) (Tree.ifStmt (Tree.execute n) scope ls test body t)
  refine (agree_test hn test htest hls hst hs.append.1).bind fun res s₁ t₁ htested => ?_
  obtain ⟨val, ls'⟩ := res
  obtain ⟨rfl, hst₁, hdata₁⟩ := htested
  dsimp only
  refine ((values_blind.objects.boolTest val).agree hst₁).bind fun holds s₂ t₂ hholds => ?_
  obtain ⟨hst₂, hdata₂⟩ := hholds
  have hs₂ : Placed (bytes body) s₂ := (hs.ahead hdata₁).of_data hdata₂
  have hdata : s₂.interp.data = ahead (bytes test).length s.interp.data := hdata₂.trans hdata₁
  cases holds with
  | true =>
    exact (agree_branch hn body hbody hwhile hls hst₂ hs₂).mono fun res s' t' hcame => hcame.toSwitched.after hdata
  | false =>
    refine (mirrors_skipNext body (.inr (.inl rfl)) hbody.1 s₂ t₂ hst₂ hs₂).bind fun _ s₃ t₃ hskipped => ?_
    exact .ok (Switched.after ⟨hskipped.1, .inl rfl, fun _ => hskipped.2⟩ hdata)

lemma acts_ifElse (test : Ast .expr) (body orelse : Ast .stmt) (hnull : orelse.isNull = false)
    (htest : Fit nullOk .expr test) (hbody : Fit nullOk .stmt body) (horelse : Fit nullOk .stmt orelse)
    (hwhile : Tree.isWhile body = false) (hwhile' : Tree.isWhile orelse = false) :
    Acts n (.ifStmt test body orelse) (bytes test ++ (bytes body ++ bytes orelse)) := by
  intro scope ls s t hst hs henters
  have hls : EndsBehind ls := henters.settled rfl
  have htype : Tree.nodeType (.ifStmt test body orelse) = .ifElse := if_neg (by simp [hnull])
  rw [htype, Tree.node, if_neg (by simp [hnull]), List.length_append]
  show InStep _ _ (execIfElse (executeNext n) scope ls s) (Tree.ifElse (Tree.execute n) scope ls test body orelse t)
  refine (agree_test hn test htest hls hst hs.append.1).bind fun res s₁ t₁ htested => ?_
  obtain ⟨val, ls'⟩ := res
  obtain ⟨rfl, hst₁, hdata₁⟩ := htested
  dsimp only
  refine ((values_blind.objects.loadPtr val).agree hst₁).bind fun v s₂ t₂ hloaded => ?_
  obtain ⟨hst₂, hdata₂⟩ := hloaded
  have hs₂ : Placed (bytes body ++ bytes orelse) s₂ := (hs.ahead hdata₁).of_data hdata₂
  have hdata : s₂.interp.data = ahead (bytes test).length s.interp.data := hdata₂.trans hdata₁
  have hskip := mirrors_skipNext body (.inr (.inl rfl)) hbody.1
  have hother : InStep OffStream (fun res => Switched .stmt ls' ((bytes test).length + (bytes body ++ bytes orelse).length)
      s.interp.data res.2) ((skipNext >>= fun _ => executeNext n scope ls') s₂)
      ((Tree.passOver body >>= fun _ => Tree.execute n orelse scope ls') t₂) := by
    refine (hskip s₂ t₂ hst₂ hs₂.append.1).bind fun _ s₃ t₃ hskipped => ?_
    have hs₃ : Placed (bytes orelse) s₃ := hs₂.ahead hskipped.2
    refine (agree_branch hn orelse horelse hwhile' hls hskipped.1 hs₃).mono fun res s' t' hcame => ?_
    rw [List.length_append]
    exact (hcame.toSwitched.after hskipped.2).after hdata
  cases v with
  | none => exact hother
  | some v =>
    cases v with
    | bool holds =>
      cases holds with
      | false => exact hother
      | true =>
        refine (agree_branch hn body hbody hwhile hls hst₂ hs₂.append.1).bind fun res s₃ t₃ hcame => ?_
        by_cases hends : (res.2 == .none || res.2 == .normal) = true
        · rw [if_pos hends]
          simp only [Bool.or_eq_true, beq_iff_eq] at hends
          have hs₃ : Placed (bytes orelse) s₃ := hs₂.ahead (hcame.behind hends)
          refine (mirrors_skipNext orelse (.inr (.inl rfl)) horelse.1 s₃ t₃ hcame.offStream hs₃).bind
            fun _ s₄ t₄ hskipped => ?_
          rw [List.length_append]
          exact .ok (((Switched.mk hskipped.1 hcame.leads fun _ => hskipped.2).after (hcame.behind hends)).after hdata)
        · rw [if_neg hends]
          simp only [Bool.or_eq_true, beq_iff_eq] at hends
          -- the cursor is back at the branch that was taken
          have hs₃ : Placed (bytes body) s₃ := hs₂.append.1.of_data (hcame.back hends)
          refine (hskip s₃ t₃ hcame.offStream hs₃).bind fun _ s₄ t₄ hskipped => ?_
          exact .ok ⟨hskipped.1, hcame.leads, fun hbehind => absurd hbehind hends⟩
    | _ => exact .error hst₂

/-! ### Loops -/

/-- The loop states of a loop: its body is a list that begins in one and ends in one. -/
def Looping (ls : LoopState) : Prop := ls = .topLevel ∨ ls = .break ∨ ls = .continue

omit hn in
lemma Looping.not_endsBehind {ls : LoopState} (h : Looping ls) : ¬EndsBehind ls := by
  rcases h with rfl | rfl | rfl <;> simp [EndsBehind]

omit hn in
lemma Looping.leads {k : Kind} {ls ls' : LoopState} (h : Looping ls) (hleads : Leads k ls ls') : Looping ls' := by
  rcases hleads with rfl | ⟨-, -, hbreak⟩
  · exact h
  · exact .inr hbreak

omit hn in
lemma blind_propagateReturn (inner : ScopeRef) (ret : ValuePtr) (res : ValuePtr × LoopState) :
    Blind _ (propagateReturn scope inner ret res) := by
  refine blind_compositional.bind (.isTerminated inner) fun terminated => ?_
  split
  · exact blind_compositional.bind (.modifyScope scope _) fun _ => blind_compositional.pure _
  · exact blind_compositional.pure _

omit hn in
lemma propagateReturn_snd {inner : ScopeRef} {ret : ValuePtr} {res r : ValuePtr × LoopState} {s s' : State}
    (h : propagateReturn scope inner ret res s = .ok r s') : r.2 = res.2 := by
  obtain ⟨terminated, s₁, -, h⟩ := bind_eq_ok.mp h
  split at h
  · obtain ⟨u, s₂, -, h⟩ := bind_eq_ok.mp h
    cases h
    rfl
  · cases h
    rfl

/-- One execution of the body of a loop takes the cursor back to the first byte of the body. -/
lemma agree_round (scope inner : ScopeRef) (body : Ast .stmt) (hfit : Fit nullOk .stmt body)
    (hsuite : Tree.isSuite body = true) {ls : LoopState} (hls : Looping ls) (ret : ValuePtr) {s t : State} (hst : OffStream s t)
    (hs : Placed (bytes body) s) :
    InStep OffStream (fun res s' t' => Looping res.2 ∧ Arrived s.interp.data s' t')
      ((executeNext n inner ls >>= propagateReturn scope inner ret) s)
      ((Tree.execute n body inner ls >>= propagateReturn scope inner ret) t) := by
  have hstraight : Tree.straight body = true ∧ Tree.isWhile body = false := by
    cases body with
    | suite stmts => exact ⟨rfl, rfl⟩
    | _ => simp [Tree.isSuite] at hsuite
  have henters : Enters body inner ls s := by
    refine ⟨.inr (.inr ⟨hstraight.1, ?_⟩), fun h => by simp [hstraight.2] at h⟩
    rcases hls with rfl | rfl | rfl <;> simp
  refine (hn body (.inr (.inl rfl)) hfit inner ls s t hst hs henters).bind fun res s₁ t₁ hcame => ?_
  have hls' : Looping res.2 := hls.leads hcame.leads
  refine (((blind_propagateReturn inner ret res).agree hcame.offStream).and_left
    fun r s' hr => propagateReturn_snd hr).mono fun r s' t' hend => ⟨hend.2 ▸ hls', hend.1.1, ?_⟩
  rw [hend.1.2, hcame.back hls'.not_endsBehind]

omit hn in
/-- A scope of its own around the same steps. -/
lemma agree_withScope {α : Type} {P : α → Bitstream → Prop} {f g : ScopeRef → M α} {s t : State}
    (hst : OffStream s t) (hfg : ∀ inner s' t', OffStream s' t' → s'.interp.data = s.interp.data →
      InStep OffStream (fun a s'' t'' => P a s''.interp.data ∧ OffStream s'' t'') (f inner s') (g inner t')) :
    InStep OffStream (fun a s' t' => P a s'.interp.data ∧ OffStream s' t') (withScope scope f s) (withScope scope g t) := by
  obtain ⟨b, rfl⟩ := hst
  unfold withScope
  split
  · exact .error ⟨b, rfl⟩
  · have hbody := hfg (s.frames.length :: scope) { s with frames := s.frames ++ [.empty] }
      { withCode b s with frames := s.frames ++ [.empty] } ⟨b, rfl⟩ rfl
    have hframes : (withCode b s).frames = s.frames := rfl
    simp only [withFrame, hframes]
    revert hbody
    generalize f (s.frames.length :: scope) { s with frames := s.frames ++ [.empty] } = r
    generalize g (s.frames.length :: scope) { withCode b s with frames := s.frames ++ [.empty] } = r'
    intro hbody
    cases hbody with
    | ok h =>
      obtain ⟨hP, b', rfl⟩ := h
      exact .ok ⟨hP, b', rfl⟩
    | error h =>
      obtain ⟨b', rfl⟩ := h
      exact .error ⟨b', rfl⟩

omit hn in
/-- Going to a place in a segment the cursor has come to. -/
lemma moveTo_ahead {bs : List UInt8} {s₀ s : State} (hs₀ : Placed bs s₀) {len len' : Nat} (hlen : len' ≤ bs.length)
    (hdata : s.interp.data = ahead len s₀.interp.data) :
    moveTo (ahead len' s₀.interp.data).pos s = .ok () (withCode (ahead len' s₀.interp.data) s) := by
  have hinside := hs₀.inside
  have hsmall := hs₀.small
  have hpos : (ahead len' s₀.interp.data).pos.toNat = s₀.interp.data.get + len' := by
    unfold Bitstream.pos
    rw [ahead, hs₀.good, if_neg Bool.false_ne_true, UInt32.toNat_ofNat']
    dsimp only
    omega
  have hmove : s.interp.data.moveTo (ahead len' s₀.interp.data).pos = ahead len' s₀.interp.data := by
    unfold Bitstream.moveTo
    rw [hdata, hpos, if_neg (by simp [ahead, hs₀.good]), if_pos (by simp only [ahead]; omega)]
    rfl
  unfold moveTo
  rw [hmove]
  rfl

omit hn in
lemma moveTo_start {bs : List UInt8} {s₀ s : State} (hs₀ : Placed bs s₀) {len : Nat}
    (hdata : s.interp.data = ahead len s₀.interp.data) :
    moveTo s₀.interp.data.pos s = .ok () (withCode s₀.interp.data s) :=
  moveTo_ahead hs₀ (Nat.zero_le _) hdata

/-- The rounds of a `while` loop: but for the first test the cursor stands at the body. -/
lemma agree_whileRounds (test : Ast .expr) (body : Ast .stmt) (htest : Fit nullOk .expr test)
    (hbody : Fit nullOk .stmt body) (hsuite : Tree.isSuite body = true) {s₀ : State}
    (hs₀ : Placed (bytes test ++ bytes body) s₀) (rounds : Nat) {ls : LoopState} (hls : Looping ls) (ret : ValuePtr)
    {s t : State} (hst : OffStream s t)
    (hat : s.interp.data = ahead (bytes test).length s₀.interp.data ∨
      s.interp.data = s₀.interp.data ∧ Running scope s ∧ ls ≠ .break) :
    InStep OffStream (fun _ => Arrived (ahead (bytes test).length s₀.interp.data))
      (whileRounds (executeNext n) scope s₀.interp.data.pos rounds ls ret s)
      (Tree.whileRounds (Tree.execute n) scope test body rounds ls ret t) := by
  induction rounds generalizing ls ret s t with
  | zero => exact .error hst
  | succ rounds ih =>
    obtain ⟨flag, hflag, hflag'⟩ := isTerminated_same scope hst
    rw [whileRounds, Tree.whileRounds, bind_of_ok hflag, bind_of_ok hflag']
    by_cases hoff : (flag || ls == .break) = true
    · rw [if_pos hoff, if_pos hoff]
      rcases hat with hdata | ⟨-, hrunning, hbreak⟩
      · exact .ok ⟨hst, hdata⟩
      · obtain ⟨rfl, -⟩ := EStateM.Result.ok.inj (hflag.symm.trans hrunning)
        simp [hbreak] at hoff
    · rw [if_neg hoff, if_neg hoff]
      obtain ⟨len, hdata⟩ : ∃ len, s.interp.data = ahead len s₀.interp.data :=
        hat.elim (fun hdata => ⟨_, hdata⟩) fun hdata => ⟨0, hdata.1⟩
      refine (Blind.charge.agree hst).bind fun _ s₁ t₁ hcharged => ?_
      obtain ⟨⟨b, rfl⟩, hdata₁⟩ := hcharged
      rw [bind_of_ok (moveTo_start hs₀ (hdata₁.trans hdata))]
      have hs₁ : Placed (bytes test ++ bytes body) (withCode s₀.interp.data s₁) := hs₀.of_data rfl
      refine (hn.expression test htest (withCode s₀.interp.data s₁) (withCode b s₁) ⟨b, rfl⟩ hs₁.append.1).bind fun val s₂ t₂ htested => ?_
      refine ((values_blind.objects.boolTest val).agree htested.1).bind fun holds s₃ t₃ hholds => ?_
      have hdata₃ : s₃.interp.data = ahead (bytes test).length s₀.interp.data := hholds.2.trans htested.2
      cases holds with
      | false => exact .ok ⟨hholds.1, hdata₃⟩
      | true =>
        refine (agree_withScope (P := fun res b => Looping res.2 ∧ b = ahead (bytes test).length s₀.interp.data) hholds.1
          fun inner s' t' hst' hdata' => ?_).bind fun res s₄ t₄ hround => ?_
        · have hat' : s'.interp.data = ahead (bytes test).length s₀.interp.data := hdata'.trans hdata₃
          refine (agree_round hn scope inner body hbody hsuite hls ret hst' (hs₀.ahead hat')).mono fun res s'' t'' hend => ?_
          exact ⟨⟨hend.1, hend.2.2.trans hat'⟩, hend.2.1⟩
        · exact ih hround.1.1 res.1 hround.2 (.inl hround.1.2)

lemma acts_whileLoop (test : Ast .expr) (body orelse : Ast .stmt) (htest : Fit nullOk .expr test)
    (hbody : Fit nullOk .stmt body) (hsuite : Tree.isSuite body = true) :
    Acts n (.whileLoop test body orelse) (bytes test ++ bytes body) := by
  intro scope ls s t hst hs henters
  have hrounds := agree_whileRounds hn test body htest hbody hsuite hs n (.inl rfl) none hst
    (.inr ⟨rfl, henters.2 rfl, by simp⟩)
  show InStep _ _ (keep ls (execWhileLoop (executeNext n) scope n) s)
    (keep ls (Tree.whileLoop (Tree.execute n) scope n test body) t)
  refine InStep.bind (Q := fun _ => Arrived (ahead (bytes test ++ bytes body).length s.interp.data)) ?_
    fun p s' t' hend => .ok ⟨hend.1, .inl rfl, fun _ => hend.2⟩
  have hpos : pos s = .ok s.interp.data.pos s := rfl
  unfold execWhileLoop
  rw [bind_of_ok hpos]
  refine hrounds.bind fun res s₁ t₁ hend => ?_
  refine (mirrors_skipNext body (.inr (.inl rfl)) hbody.1 s₁ t₁ hend.1 (hs.ahead hend.2)).bind fun _ s₂ t₂ hskipped => ?_
  rw [List.length_append, ← ahead_ahead, ← hend.2]
  exact .ok hskipped

omit hn in
lemma blind_bindNames (inner : ScopeRef) (names : List Str) (next : ValuePtr) : Blind _ (bindNames inner names next) := by
  unfold bindNames
  split
  · exact .setValue _ _ _
  · refine blind_compositional.bind (values_blind.objects.valueCast _ _) fun _ => ?_
    refine blind_compositional.bind (values_blind.objects.tupleGet _ _) fun _ => ?_
    refine blind_compositional.bind (.setValue _ _ _) fun _ => ?_
    exact blind_compositional.bind (values_blind.objects.tupleGet _ _) fun _ => .setValue _ _ _
  · exact blind_compositional.throw _

/-- The rounds of a `for` loop, with the cursor at the body. -/
lemma agree_forRounds (body : Ast .stmt) (hfit : Fit nullOk .stmt body) (hsuite : Tree.isSuite body = true)
    (names : List Str) (iter : Ref) (rounds : Nat) {ls : LoopState} (hls : Looping ls) (ret : ValuePtr) {s t : State}
    (hst : OffStream s t) (hs : Placed (bytes body) s) :
    InStep OffStream (fun _ => Arrived s.interp.data)
      (forRounds (executeNext n) scope names iter rounds ls ret s)
      (forRounds (Tree.execute n body) scope names iter rounds ls ret t) := by
  induction rounds generalizing ls ret s t with
  | zero => exact .error hst
  | succ rounds ih =>
    obtain ⟨flag, hflag, hflag'⟩ := isTerminated_same scope hst
    rw [forRounds, forRounds, bind_of_ok hflag, bind_of_ok hflag']
    by_cases hoff : (flag || ls == .break) = true
    · rw [if_pos hoff, if_pos hoff]
      exact .ok ⟨hst, rfl⟩
    · rw [if_neg hoff, if_neg hoff]
      refine (Blind.charge.agree hst).bind fun _ s₁ t₁ hcharged => ?_
      refine (agree_withScope (P := fun res b => (∀ r, res = some r → Looping r.2) ∧ b = s.interp.data) hcharged.1
        fun inner s₂ t₂ hst₂ hdata₂ => ?_).bind fun round s₃ t₃ hround => ?_
      · refine ((Blind.tryNext iter (values_blind.next iter)).agree hst₂).bind fun next s₃ t₃ hnext => ?_
        have hat : s₃.interp.data = s.interp.data := hnext.2.trans (hdata₂.trans hcharged.2)
        cases next with
        | none => exact .ok ⟨⟨by simp, hat⟩, hnext.1⟩
        | some next =>
          refine ((blind_bindNames inner names next).agree hnext.1).bind fun _ s₄ t₄ hbound => ?_
          have hat₄ : s₄.interp.data = s.interp.data := hbound.2.trans hat
          rw [← bind_assoc, ← bind_assoc]
          refine (agree_round hn scope inner body hfit hsuite hls ret hbound.1 (hs.of_data hat₄)).bind
            fun res s₅ t₅ hend => .ok ⟨⟨fun r hr => ?_, hend.2.2.trans hat₄⟩, hend.2.1⟩
          cases hr
          exact hend.1
      · cases round with
        | none => exact .ok ⟨hround.2, hround.1.2⟩
        | some r =>
          have hs₃ : Placed (bytes body) s₃ := hs.of_data hround.1.2
          refine (ih (hround.1.1 r rfl) r.1 hround.2 hs₃).mono fun p s' t' hend => ?_
          rwa [hround.1.2] at hend

lemma acts_forLoop (target iter : Ast .expr) (body orelse : Ast .stmt) (htarget : accepted nullOk target = true)
    (hiter : Fit nullOk .expr iter) (hbody : Fit nullOk .stmt body) (hsuite : Tree.isSuite body = true) :
    Acts n (.forLoop target iter body orelse) (bytes target ++ (bytes iter ++ bytes body)) := by
  refine acts_keep (x := fun scope => execForLoop (executeNext n) scope n)
    (y := fun scope => Tree.forLoop (Tree.execute n) scope n target iter body) (fun _ _ => rfl) (fun _ _ => rfl)
    fun scope => ?_
  refine (Mirrors.readNames target htarget).seq fun names => (hn.expression iter hiter).seq fun obj => ?_
  refine Mirrors.after (values_blind.loopIterator obj) fun iter s t hst hs => ?_
  refine (agree_forRounds hn body hbody hsuite names iter n (.inl rfl) none hst hs).bind fun res s₁ t₁ hend => ?_
  have hs₁ : Placed (bytes body) s₁ := hs.of_data hend.2
  refine (mirrors_skipNext body (.inr (.inl rfl)) hbody.1 s₁ t₁ hend.1 hs₁).bind fun _ s₂ t₂ hskipped => ?_
  rw [← hend.2]
  exact .ok hskipped

/-! ### Comprehensions -/

/-- The rounds of a comprehension: the cursor goes back to the element each time. -/
lemma agree_listCompRounds (element : Ast .expr) (hfit : Fit nullOk .expr element)
    (hstraight : Tree.straight element = true) {bs : List UInt8} {s₀ : State} (hs₀ : Placed (bytes element ++ bs) s₀)
    (target : Str) (iter list : Ref) (rounds : Nat) {s t : State} (hst : OffStream s t) {len : Nat}
    (hdata : s.interp.data = ahead len s₀.interp.data) :
    InStep OffStream (fun _ s' t' => OffStream s' t' ∧ ∃ len, s'.interp.data = ahead len s₀.interp.data)
      (listCompRounds (executeNext n) scope target iter list s₀.interp.data.pos rounds .topLevel s)
      (Tree.listCompRounds (Tree.execute n) scope target element iter list rounds .topLevel t) := by
  induction rounds generalizing s t len with
  | zero => exact .error hst
  | succ rounds ih =>
    obtain ⟨flag, hflag, hflag'⟩ := isTerminated_same scope hst
    rw [listCompRounds, Tree.listCompRounds, bind_of_ok hflag, bind_of_ok hflag']
    by_cases hoff : (flag || LoopState.topLevel == .break) = true
    · rw [if_pos hoff, if_pos hoff]
      exact .ok ⟨hst, len, hdata⟩
    · rw [if_neg hoff, if_neg hoff]
      refine (Blind.charge.agree hst).bind fun _ s₁ t₁ hcharged => ?_
      refine ((Blind.tryNext iter (values_blind.next iter)).agree hcharged.1).bind fun next s₂ t₂ hnext => ?_
      have hdata₂ : s₂.interp.data = ahead len s₀.interp.data := hnext.2.trans (hcharged.2.trans hdata)
      cases next with
      | none => exact .ok ⟨hnext.1, len, hdata₂⟩
      | some next =>
        refine (agree_withScope (P := fun ls b => ls = .topLevel ∧ b = s₀.interp.data) hnext.1
          fun inner s₃ t₃ hst₃ hdata₃ => ?_).bind fun ls s₄ t₄ hround => ?_
        · refine ((Blind.setValue inner target next).agree hst₃).bind fun _ s₄ t₄ hbound => ?_
          have hdata₄ := hbound.2.trans (hdata₃.trans hdata₂)
          obtain ⟨⟨b, rfl⟩, -⟩ := hbound
          rw [bind_of_ok (moveTo_start hs₀ hdata₄)]
          have hs₄ : Placed (bytes element ++ bs) (withCode s₀.interp.data s₄) := hs₀.of_data rfl
          have henters : Enters element inner .topLevel (withCode s₀.interp.data s₄) :=
            ⟨.inr (.inr ⟨hstraight, by simp⟩), fun h => by simp [isWhile_of_ne_stmt element (by simp)] at h⟩
          refine (hn element (.inl rfl) hfit inner .topLevel (withCode s₀.interp.data s₄) (withCode b s₄) ⟨b, rfl⟩
            hs₄.append.1 henters).bind fun res s₅ t₅ hcame => ?_
          obtain ⟨val, ls⟩ := res
          obtain rfl : ls = .topLevel := hcame.leads.resolve_right fun h => by simp at h
          refine ((values_blind.objects.listAppend list val).agree hcame.offStream).bind fun _ s₆ t₆ happended => ?_
          exact .ok ⟨⟨rfl, happended.2.trans (hcame.back (by simp [EndsBehind]))⟩, happended.1⟩
        · obtain ⟨⟨rfl, hback⟩, hst₄⟩ := hround
          exact ih hst₄ (hback.trans (ahead_zero _).symm)

omit hn in
/-- A comprehension in the place of an element cannot be passed over. -/
lemma straight_of_passOver {a : Ast .expr} {t t' : State} {u : Unit} (h : Tree.passOver a t = .ok u t') :
    Tree.straight a = true := by
  cases a with
  | listComp element generators => cases h
  | _ => rfl

omit hn in
/-- What a comprehension does behind the number of its generators. -/
def execGenerator (rec : Rec) (scope : ScopeRef) (n : Nat) (ls : LoopState) (bodyPos : UInt32) :
    M (ValuePtr × LoopState) := do
  let type2 ← readType
  throwIf (type2 != .comprehension) (lit "invalid type")
  let target ← readName
  let list ← alloc (.list [])
  let (obj, ls) ← rec scope ls
  let iter ← castIterator obj
  skipNext
  let endPos ← pos
  listCompRounds rec scope target iter list bodyPos n .topLevel
  moveTo endPos
  pure (some list, ls)

omit hn in
lemma execGenerator_of_type {rec : Rec} {ls : LoopState} {start : UInt32} {t : NodeType} {s s' : State}
    (hread : readType s = .ok t s') (ht : t ≠ .comprehension) :
    execGenerator rec scope n ls start s = .error (.runtimeError (lit "invalid type")) s' := by
  have hne : (t != .comprehension) = true := by simpa using ht
  unfold execGenerator
  rw [bind_of_ok hread, hne]
  rfl

/-- The generator of a comprehension and its rounds, with the element somewhere in front of it. -/
lemma agree_generate (element : Ast .expr) (helement : Fit nullOk .expr element)
    (hstraight : Tree.straight element = true) {bs : List UInt8} {s₀ : State} (hs₀ : Placed (bytes element ++ bs) s₀)
    (generator : Ast .expr) (hfit : Fit true .expr generator) {ls : LoopState} (hls : EndsBehind ls) {len : Nat}
    (hinside : len + (bytes generator).length ≤ (bytes element ++ bs).length) {s t : State} (hst : OffStream s t)
    (hs : Placed (bytes generator) s) (hdata : s.interp.data = ahead len s₀.interp.data) :
    InStep OffStream (fun res s' t' => res.2 = ls ∧ Arrived (ahead (len + (bytes generator).length) s₀.interp.data) s' t')
      (execGenerator (executeNext n) scope n ls s₀.interp.data.pos s)
      (Tree.generate (Tree.execute n) scope n ls element generator t) := by
  have hother (htype : Tree.nodeType generator ≠ .comprehension) :
      ∃ s', OffStream s' t ∧ execGenerator (executeNext n) scope n ls s₀.interp.data.pos s =
        .error (.runtimeError (lit "invalid type")) s' := by
    obtain ⟨tail, hbytes⟩ := bytes_eq_type generator hfit.1
    rw [hbytes] at hs
    exact ⟨_, hst.advance 4, execGenerator_of_type (readType_placed (Tree.nodeType_known generator) hs).1 htype⟩
  cases generator with
  | comprehension target iter ifs =>
    have haccepted : (accepted false target && (accepted false iter && accepted true ifs)) = true := hfit.1
    have hplain : (Tree.plain iter && ifs.length == 0) = true := hfit.2
    rw [Bool.and_eq_true, Bool.and_eq_true] at haccepted
    rw [Bool.and_eq_true, beq_iff_eq] at hplain
    obtain rfl := Tree.eq_noExprs_of_length hplain.2
    have hbytes : bytes (.comprehension target iter .noExprs) =
        typeBytes .comprehension ++ (bytes target ++ (bytes iter ++ bytes .nullExpr)) := rfl
    rw [hbytes] at hs hinside ⊢
    obtain ⟨hread, hs₁⟩ := readType_placed (t := .comprehension) (by simp) hs
    have hsame : throwIf (NodeType.comprehension != .comprehension) (lit "invalid type") = pure () := rfl
    unfold execGenerator Tree.generate
    rw [bind_of_ok hread, hsame, pure_bind]
    refine (Mirrors.readName target haccepted.1 _ t (hst.advance 4) hs₁.append.1).bind fun name s₂ t₂ hnamed => ?_
    refine ((values_blind.alloc (.list [])).agree hnamed.1).bind fun list s₃ t₃ hlist => ?_
    have hs₃ := (hs₁.ahead hnamed.2).of_data hlist.2
    refine (agree_test hn iter ⟨haccepted.2.1, hplain.1⟩ hls hlist.1 hs₃.append.1).bind fun res s₄ t₄ htested => ?_
    obtain ⟨obj, ls'⟩ := res
    obtain ⟨rfl, hst₄, hdata₄⟩ := htested
    dsimp only
    refine ((values_blind.objects.castIterator obj).agree hst₄).bind fun r s₅ t₅ hiter => ?_
    -- the empty list of conditions reads as a null pointer
    have hnull := mirrors_skipNext .nullExpr (.inl rfl) (rfl : accepted true .nullExpr = true)
    obtain ⟨s₆, hskip, hst₆, hdata₆⟩ := hnull.silent hiter.1 ((hs₃.ahead hdata₄).of_data hiter.2)
    rw [bind_of_ok hskip]
    have hend : s₆.interp.data = ahead (len + (typeBytes .comprehension ++
        (bytes target ++ (bytes iter ++ bytes .nullExpr))).length) s₀.interp.data := by
      rw [hdata₆, hiter.2, hdata₄, hlist.2, hnamed.2, advance_eq_withCode]
      simp only [withCode, hdata, ahead_ahead, List.length_append, typeBytes, length_wordBytes, Nat.add_assoc]
    have hpos : pos s₆ = .ok s₆.interp.data.pos s₆ := rfl
    rw [bind_of_ok hpos, hend]
    refine (agree_listCompRounds hn element helement hstraight hs₀ name r list n hst₆ hend).bind
      fun _ s₇ t₇ hrounds => ?_
    obtain ⟨hst₇, len', hdata₇⟩ := hrounds
    rw [bind_of_ok (moveTo_ahead hs₀ hinside hdata₇)]
    obtain ⟨b, rfl⟩ := hst₇
    exact .ok ⟨rfl, ⟨b, rfl⟩, rfl⟩
  | _ =>
    obtain ⟨s', hst', hthrown⟩ := hother NodeType.noConfusion
    rw [hthrown]
    exact .error hst'

lemma acts_listComp (element : Ast .expr) (generators : Ast .exprs) (helement : Fit nullOk .expr element)
    (hfit : Fit true .exprs generators) :
    Acts n (.listComp element generators) (bytes element ++ (sizeBytes generators.length ++ bytes generators)) := by
  intro scope ls s t hst hs henters
  have hls : EndsBehind ls := henters.settled rfl
  show InStep _ _ (execListComp (executeNext n) scope n ls s)
    (Tree.listComp (Tree.execute n) scope n ls element (Tree.expressions generators) t)
  have hpos : pos s = .ok s.interp.data.pos s := rfl
  unfold execListComp Tree.listComp
  rw [bind_of_ok hpos]
  refine ((mirrors_skipNext element (.inl rfl) helement.1 s t hst hs.append.1).and_right
    (P := fun _ _ => Tree.straight element = true) fun _ _ h => straight_of_passOver h).bind fun _ s₁ t₁ hskipped => ?_
  obtain ⟨⟨hst₁, hdata₁⟩, hstraight⟩ := hskipped
  have hs₁ := hs.ahead hdata₁
  have hgenerators : ∀ e ∈ Tree.expressions generators, Fit true .expr e :=
    Tree.forall_expressions (fun head tail h => h.both rfl rfl) hfit
  obtain ⟨hlength, hbytes⟩ := Tree.bytes_expressions generators
  have hsize := size_of_placed hs₁ (length_le_bytes generators hfit.1)
  obtain ⟨hread, hs₂⟩ := readWord_placed hs₁
  rw [bind_of_ok hread, ← hlength]
  have hst₂ := hst₁.advance 4
  have hdata₂ : (advance 4 0 s₁).interp.data = ahead ((bytes element).length + 4) s.interp.data := by
    rw [advance_eq_withCode, ← ahead_ahead, ← hdata₁]
    rfl
  generalize advance 4 0 s₁ = s₂ at hs₂ hst₂ hdata₂ ⊢
  rw [hbytes] at hs₂
  rw [← hlength] at hsize
  have hbytes' := hbytes
  generalize Tree.expressions generators = l at hsize hs₂ hgenerators hlength hbytes' ⊢
  have hrefused (hne : l.length ≠ 1) : (UInt32.ofNat l.length != 1) = true := by
    rw [bne_iff_ne, ne_eq, ← UInt32.toNat_inj, hsize]
    exact hne
  rcases l with _ | ⟨generator, _ | ⟨second, rest⟩⟩
  · rw [hrefused (by simp)]
    exact .error hst₂
  · have hone : (UInt32.ofNat [generator].length != 1) = false := rfl
    rw [hone]
    have hinside : (bytes element).length + 4 + (bytes generator).length ≤
        (bytes element ++ (sizeBytes generators.length ++ bytes generators)).length := by
      simp [sizeBytes, hbytes', Nat.add_assoc]
    rw [List.flatMap_cons, List.flatMap_nil, List.append_nil] at hs₂
    refine (agree_generate hn element helement hstraight hs generator (hgenerators generator (by simp)) hls hinside
      hst₂ hs₂ hdata₂).mono fun res s' t' hend => Switched.mk hend.2.1 (.inl hend.1) fun _ => hend.2.2.trans ?_
    simp [sizeBytes, hbytes', Nat.add_assoc]
  · rw [hrefused (by simp)]
    exact .error hst₂

end ContractPython.Proofs
