import ContractPython.Proofs.Related

/-!
# From the primitive steps to the whole interpreter

`Closed P Φ` lists the primitive steps of the interpreter. A property with these closure
conditions holds of every node, every call and every run, whatever the bytecode is: it is a
relation that looks at the first of two runs only. `P` says which frames the computation may mark
as terminated or global; frames pushed on the way must be among them.
-/

namespace ContractPython.Proofs

open Program M

/-- The scope whose own flags are touched satisfies `P`. -/
def Touches (P : Nat → Prop) (scope : ScopeRef) : Prop := ∀ id ∈ scope.head?, P id

@[simp] lemma touches_cons {P : Nat → Prop} {id : Nat} {scope : ScopeRef} :
    Touches P (id :: scope) ↔ P id := by simp [Touches]

/-- A property of each write of the funds holds of the transfers. -/
lemma Values.transfers {Φ : ∀ α : Type, M α → Prop} (h : Values Φ) {scope : ScopeRef}
    (hset : ∀ sendMap balance, Φ _ (setFunds sendMap balance))
    (hfind : ∀ name, Φ _ (findValue scope name)) (hhas : ∀ name, Φ _ (hasValue scope name)) :
    Φ _ (send scope) ∧ Φ _ (suicide scope) := by
  have hlooks : LooksUp (fun sc sc' => sc = scope ∧ sc' = scope) (fun α x y => Φ α x ∧ Φ α y) := {
    congruence := ⟨fun a => ⟨h.pure a, h.pure a⟩, fun hx hf =>
      ⟨h.bind hx.1 fun a => (hf a).1, h.bind hx.2 fun a => (hf a).2⟩⟩
    values := by simpa only [and_self] using h
    findValue := by
      rintro _ _ name ⟨rfl, rfl⟩
      exact ⟨hfind name, hfind name⟩
    hasValue := by
      rintro _ _ name ⟨rfl, rfl⟩
      exact ⟨hhas name, hhas name⟩ }
  have hsets : ∀ sendMap balance, Φ _ (setFunds sendMap balance) ∧ Φ _ (setFunds sendMap balance) :=
    fun sendMap balance => ⟨hset sendMap balance, hset sendMap balance⟩
  exact ⟨(hlooks.send hsets ⟨rfl, rfl⟩).1, (hlooks.suicide hsets ⟨rfl, rfl⟩).1⟩

/-- The closure conditions of a property `Φ` of computations. -/
structure Closed (P : Nat → Prop) (Φ : ∀ α : Type, M α → Prop) : Prop extends
    Values Φ, Reading Φ where
  setFunds : ∀ sendMap balance, Φ _ (setFunds sendMap balance)
  stuck : ∀ {α : Type}, Φ α (MonadExcept.throw Exn.outOfFuel)
  streamLength : Φ _ streamLength
  findValue : ∀ scope name, Φ _ (findValue scope name)
  setValue : ∀ scope name value, Φ _ (setValue scope name value)
  hasValue : ∀ scope name, Φ _ (hasValue scope name)
  setGlobalTag : ∀ scope name, Touches P scope → Φ _ (setGlobalTag scope name)
  requireGlobal : ∀ scope, Touches P scope → Φ _ (requireGlobal scope)
  terminate : ∀ scope, Touches P scope → Φ _ (terminate scope)
  isTerminated : ∀ scope, Touches P scope → Φ _ (isTerminated scope)
  withFrame : ∀ {α : Type} {f : Nat → M α}, (∀ id, P id → Φ _ (f id)) → Φ _ (withFrame f)
  record : ∀ type ls depth, Φ _ (record (.nodeEntered type ls depth))
  readStub : ∀ count, Φ _ (readStub count)
  returnTo : ∀ {α : Type} {f : UInt32 → M α}, (∀ start, Φ _ (moveTo start) → Φ _ (f start)) →
    Φ _ (pos >>= f)
  inGlobalScope : ∀ {α : Type} {f : ScopeRef → M α}, (∀ scope, Touches P scope → Φ _ (f scope)) →
    Φ _ (globalScope >>= f)
  checkLimit : Φ _ checkLimit
  runCallee : ∀ n writeBack pyint scope, Touches P pyint.globalScope → Touches P scope →
    Φ _ (executeNext n scope .none) →
    (∀ k, n = k + 1 → Φ _ (executeCharged (executeNext k) scope k .none)) →
    Φ _ (runCallee writeBack pyint (evaluate (executeNext n) scope))

/-- The closure conditions of a property that depends on the scopes: `S` tells the scopes the
computation may stand in and `F` the frames it may push. -/
structure ClosedOn (S : ScopeRef → Prop) (F : Nat → Prop) (Φ : ∀ α : Type, M α → Prop) : Prop extends
    Values Φ, Reading Φ where
  stuck : ∀ {α : Type}, Φ α (MonadExcept.throw Exn.outOfFuel)
  streamLength : Φ _ streamLength
  push : ∀ {id scope}, F id → S scope → S (id :: scope)
  root : ∀ {id}, F id → S [id]
  findValue : ∀ scope name, S scope → Φ _ (findValue scope name)
  setValue : ∀ scope name value, S scope → Φ _ (setValue scope name value)
  hasValue : ∀ scope name, S scope → Φ _ (hasValue scope name)
  send : ∀ scope, S scope → Φ _ (send scope)
  suicide : ∀ scope, S scope → Φ _ (suicide scope)
  setGlobalTag : ∀ scope name, S scope → Φ _ (setGlobalTag scope name)
  requireGlobal : ∀ scope, S scope → Φ _ (requireGlobal scope)
  terminate : ∀ scope, S scope → Φ _ (terminate scope)
  isTerminated : ∀ scope, S scope → Φ _ (isTerminated scope)
  withFrame : ∀ {α : Type} {f : Nat → M α}, (∀ id, F id → Φ _ (f id)) → Φ _ (withFrame f)
  record : ∀ type ls depth, Φ _ (record (.nodeEntered type ls depth))
  readStub : ∀ count, Φ _ (readStub count)
  returnTo : ∀ {α : Type} {f : UInt32 → M α}, (∀ start, Φ _ (moveTo start) → Φ _ (f start)) →
    Φ _ (pos >>= f)
  inGlobalScope : ∀ {α : Type} {f : ScopeRef → M α}, (∀ scope, S scope → Φ _ (f scope)) →
    Φ _ (globalScope >>= f)
  checkLimit : Φ _ checkLimit
  runCallee : ∀ n writeBack pyint scope, S pyint.globalScope → S scope →
    Φ _ (executeNext n scope .none) →
    (∀ k, n = k + 1 → Φ _ (executeCharged (executeNext k) scope k .none)) →
    Φ _ (runCallee writeBack pyint (evaluate (executeNext n) scope))

namespace ClosedOn

variable {S : ScopeRef → Prop} {F : Nat → Prop} {Φ : ∀ α : Type, M α → Prop} (h : ClosedOn S F Φ)
include h

lemma skipNext : Φ _ skipNext := h.bind h.streamLength fun _ => h.skipFuel h.stuck _

/-- A closed property relates the computations that both have it. -/
lemma related : Related (fun sc sc' => (S sc ∧ S sc') ∧ sc.length = sc'.length)
    (fun sc sc' => (S sc ∧ S sc') ∧ sc.length = sc'.length)
    (fun id id' => F id ∧ F id') 0 (fun _ α x y => Φ α x ∧ Φ α y) where
  congruence _ := ⟨fun a => ⟨h.pure a, h.pure a⟩, fun hx hf =>
    ⟨h.bind hx.1 fun a => (hf a).1, h.bind hx.2 fun a => (hf a).2⟩⟩
  values _ := by simpa only [and_self] using h.toValues
  reading _ := by simpa only [and_self] using h.toReading
  mono hx := hx
  paid hx := ⟨h.bind h.charge fun _ => hx.1, h.bind h.charge fun _ => hx.2⟩
  exhausted hy := ⟨h.stuck, hy rfl ▸ h.stuck⟩
  skipNext _ := ⟨h.skipNext, h.skipNext⟩
  readStub _ count := ⟨h.readStub count, h.readStub count⟩
  record _ type ls depth := ⟨h.record type ls depth, h.record type ls depth⟩
  returnTo hf :=
    ⟨h.returnTo fun start hstart => (hf start start fun _ => ⟨hstart, hstart⟩).1,
      h.returnTo fun start hstart => (hf start start fun _ => ⟨hstart, hstart⟩).2⟩
  own hs := hs
  push hid hs := ⟨⟨h.push hid.1 hs.1.1, h.push hid.2 hs.1.2⟩, by simpa using hs.2⟩
  root hid := ⟨⟨h.root hid.1, h.root hid.2⟩, rfl⟩
  length_eq hs := hs.2
  findValue _ _ _ name hs := ⟨h.findValue _ name hs.1.1, h.findValue _ name hs.1.2⟩
  setValue _ _ _ name value hs := ⟨h.setValue _ name value hs.1.1, h.setValue _ name value hs.1.2⟩
  hasValue _ _ _ name hs := ⟨h.hasValue _ name hs.1.1, h.hasValue _ name hs.1.2⟩
  send _ _ _ hs := ⟨h.send _ hs.1.1, h.send _ hs.1.2⟩
  suicide _ _ _ hs := ⟨h.suicide _ hs.1.1, h.suicide _ hs.1.2⟩
  setGlobalTag _ _ _ name hs := ⟨h.setGlobalTag _ name hs.1.1, h.setGlobalTag _ name hs.1.2⟩
  requireGlobal _ _ _ hs := ⟨h.requireGlobal _ hs.1.1, h.requireGlobal _ hs.1.2⟩
  terminate _ _ _ hs := ⟨h.terminate _ hs.1.1, h.terminate _ hs.1.2⟩
  isTerminated _ _ _ hs := ⟨h.isTerminated _ hs.1.1, h.isTerminated _ hs.1.2⟩
  withFrame hf :=
    ⟨h.withFrame fun id hid => (hf id id ⟨hid, hid⟩).1,
      h.withFrame fun id hid => (hf id id ⟨hid, hid⟩).2⟩
  inGlobalScope hf :=
    ⟨h.inGlobalScope fun scope hs => (hf scope scope ⟨⟨hs, hs⟩, rfl⟩).1,
      h.inGlobalScope fun scope hs => (hf scope scope ⟨⟨hs, hs⟩, rfl⟩).2⟩
  checkLimit _ := ⟨h.checkLimit, h.checkLimit⟩
  runCallee n _ _ _ _ _ hp hs hexec hcharged :=
    ⟨h.runCallee n _ _ _ hp.scope.1.1 hs.1.1 hexec.1 fun k hk => (hcharged k hk).1,
      h.runCallee n _ _ _ hp.scope.1.2 hs.1.2 hexec.2 fun k hk => (hcharged k hk).2⟩

/-- A closed property holds of the execution of whatever node the cursor stands at. -/
theorem executeNext (n : Nat) (scope : ScopeRef) (ls : LoopState) (hs : S scope) :
    Φ _ (executeNext n scope ls) := (h.related.executeNext ⟨⟨hs, hs⟩, rfl⟩ ls).1

end ClosedOn

namespace Closed

variable {P : Nat → Prop} {Φ : ∀ α : Type, M α → Prop} (h : Closed P Φ)
include h

lemma skipNext : Φ _ skipNext := h.bind h.streamLength fun _ => h.skipFuel h.stuck _

/-- The scopes are those with a frame that may be touched. -/
lemma on : ClosedOn (Touches P) P Φ where
  toValues := h.toValues
  charge := h.charge
  readWord := h.readWord
  readString := h.readString
  peekType := h.peekType
  stuck := h.stuck
  streamLength := h.streamLength
  push hid _ := touches_cons.mpr hid
  root hid := touches_cons.mpr hid
  findValue scope name _ := h.findValue scope name
  setValue scope name value _ := h.setValue scope name value
  hasValue scope name _ := h.hasValue scope name
  send _ _ := (h.transfers h.setFunds (h.findValue _) (h.hasValue _)).1
  suicide _ _ := (h.transfers h.setFunds (h.findValue _) (h.hasValue _)).2
  setGlobalTag := h.setGlobalTag
  requireGlobal := h.requireGlobal
  terminate := h.terminate
  isTerminated := h.isTerminated
  withFrame := h.withFrame
  record := h.record
  readStub := h.readStub
  returnTo := h.returnTo
  inGlobalScope := h.inGlobalScope
  checkLimit := h.checkLimit
  runCallee := h.runCallee

/-- A closed property relates the computations that both have it, in whatever scope they stand. -/
lemma related : Related (fun sc sc' => sc.length = sc'.length)
    (fun sc sc' => (Touches P sc ∧ Touches P sc') ∧ sc.length = sc'.length)
    (fun id id' => P id ∧ P id') 0 (fun _ α x y => Φ α x ∧ Φ α y) where
  congruence := h.on.related.congruence
  values := h.on.related.values
  reading := h.on.related.reading
  mono hx := hx
  paid := h.on.related.paid (n := 0)
  exhausted := h.on.related.exhausted
  skipNext := h.on.related.skipNext
  readStub := h.on.related.readStub
  record := h.on.related.record
  returnTo := h.on.related.returnTo (n := 0)
  own hs := hs.2
  push hid hs := ⟨⟨touches_cons.mpr hid.1, touches_cons.mpr hid.2⟩, by simpa using hs⟩
  root := h.on.related.root
  length_eq hs := hs
  findValue _ _ _ name _ := ⟨h.findValue _ name, h.findValue _ name⟩
  setValue _ _ _ name value _ := ⟨h.setValue _ name value, h.setValue _ name value⟩
  hasValue _ _ _ name _ := ⟨h.hasValue _ name, h.hasValue _ name⟩
  send _ _ _ _ := ⟨(h.transfers h.setFunds (h.findValue _) (h.hasValue _)).1,
    (h.transfers h.setFunds (h.findValue _) (h.hasValue _)).1⟩
  suicide _ _ _ _ := ⟨(h.transfers h.setFunds (h.findValue _) (h.hasValue _)).2,
    (h.transfers h.setFunds (h.findValue _) (h.hasValue _)).2⟩
  setGlobalTag := h.on.related.setGlobalTag
  requireGlobal := h.on.related.requireGlobal
  terminate := h.on.related.terminate
  isTerminated := h.on.related.isTerminated
  withFrame := h.on.related.withFrame (n := 0)
  inGlobalScope := h.on.related.inGlobalScope (n := 0)
  checkLimit := h.on.related.checkLimit
  runCallee := h.on.related.runCallee

/-- A closed property holds of a call, whoever calls. -/
lemma call (n : Nat) (writeBack : Bool) (callable : Ref) (args : List ValuePtr) (scope : ScopeRef) :
    Φ _ (call (M.executeNext n) writeBack callable args scope) :=
  (h.related.call (h.related.recursive n) rfl writeBack callable args).1

/-- A closed property holds of the execution of whatever node the cursor stands at. -/
theorem executeNext (n : Nat) (scope : ScopeRef) (ls : LoopState) (hs : Touches P scope) :
    Φ _ (executeNext n scope ls) := (h.related.executeNext ⟨⟨hs, hs⟩, rfl⟩ ls).1

lemma execute (n : Nat) : Φ _ (execute n) := h.related.execute.1

/-- A closed property holds of a call from outside. -/
lemma calldata (n : Nat) (data : Str) : Φ _ (calldata n data) := (h.related.calldata data).1

/-- A closed property holds of a whole run. -/
theorem runProgram (n : Nat) (data : Str) : Φ _ (runProgram n data) := (h.related.runProgram data).1

omit h in
/-- Two closed properties that hold of every cursor movement hold together. -/
lemma and {Φ' : ∀ α : Type, M α → Prop} (h : Closed P Φ) (h' : Closed P Φ')
    (hmove : ∀ start, Φ _ (moveTo start)) (hmove' : ∀ start, Φ' _ (moveTo start)) :
    Closed P fun α x => Φ α x ∧ Φ' α x where
  pure a := ⟨h.pure a, h'.pure a⟩
  bind hx hf := ⟨h.bind hx.1 fun a => (hf a).1, h'.bind hx.2 fun a => (hf a).2⟩
  throw e he := ⟨h.throw e he, h'.throw e he⟩
  stuck := ⟨h.stuck, h'.stuck⟩
  malloc := ⟨h.malloc, h'.malloc⟩
  makeShared v := ⟨h.makeShared v, h'.makeShared v⟩
  load r := ⟨h.load r, h'.load r⟩
  storeAt r v hv := ⟨h.storeAt r v hv, h'.storeAt r v hv⟩
  writeStore r st := ⟨h.writeStore r st, h'.writeStore r st⟩
  str r := ⟨h.str r, h'.str r⟩
  getChain := ⟨h.getChain, h'.getChain⟩
  setFunds sendMap balance := ⟨h.setFunds sendMap balance, h'.setFunds sendMap balance⟩
  checkAddress a := ⟨h.checkAddress a, h'.checkAddress a⟩
  rand := ⟨h.rand, h'.rand⟩
  printProgramOutput out := ⟨h.printProgramOutput out, h'.printProgramOutput out⟩
  findModule name := ⟨h.findModule name, h'.findModule name⟩
  loadRand := ⟨h.loadRand, h'.loadRand⟩
  catchStop r hr := ⟨h.catchStop r hr.1, h'.catchStop r hr.2⟩
  charge := ⟨h.charge, h'.charge⟩
  readWord := ⟨h.readWord, h'.readWord⟩
  readString := ⟨h.readString, h'.readString⟩
  peekType := ⟨h.peekType, h'.peekType⟩
  streamLength := ⟨h.streamLength, h'.streamLength⟩
  findValue scope name := ⟨h.findValue scope name, h'.findValue scope name⟩
  setValue scope name value := ⟨h.setValue scope name value, h'.setValue scope name value⟩
  hasValue scope name := ⟨h.hasValue scope name, h'.hasValue scope name⟩
  setGlobalTag scope name hs := ⟨h.setGlobalTag scope name hs, h'.setGlobalTag scope name hs⟩
  requireGlobal scope hs := ⟨h.requireGlobal scope hs, h'.requireGlobal scope hs⟩
  terminate scope hs := ⟨h.terminate scope hs, h'.terminate scope hs⟩
  isTerminated scope hs := ⟨h.isTerminated scope hs, h'.isTerminated scope hs⟩
  withFrame hf := ⟨h.withFrame fun id hid => (hf id hid).1, h'.withFrame fun id hid => (hf id hid).2⟩
  record type ls depth := ⟨h.record type ls depth, h'.record type ls depth⟩
  readStub count := ⟨h.readStub count, h'.readStub count⟩
  returnTo hf := ⟨h.returnTo fun start hstart => (hf start ⟨hstart, hmove' start⟩).1,
    h'.returnTo fun start hstart => (hf start ⟨hmove start, hstart⟩).2⟩
  inGlobalScope hf :=
    ⟨h.inGlobalScope fun scope hs => (hf scope hs).1, h'.inGlobalScope fun scope hs => (hf scope hs).2⟩
  checkLimit := ⟨h.checkLimit, h'.checkLimit⟩
  runCallee n writeBack pyint scope hg hs hn hcharged :=
    ⟨h.runCallee n writeBack pyint scope hg hs hn.1 fun k hk => (hcharged k hk).1,
      h'.runCallee n writeBack pyint scope hg hs hn.2 fun k hk => (hcharged k hk).2⟩

end Closed

end ContractPython.Proofs
