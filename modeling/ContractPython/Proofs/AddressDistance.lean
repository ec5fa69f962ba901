import ContractPython.Proofs.SegwitAddr

/-!
# The distance of witness addresses

A symbol that has been moved on in the register is no symbol any more, over the length of an address, so
that two addresses differ in at least three characters.
-/

namespace ContractPython.Btc

open LinearChecksum

/-! ### Symbols in the register -/

/-- The values of five bits. -/
def symbols : AddSubgroup Residue where
  carrier := {a | a.chk.toNat < 32}
  zero_mem' := by decide
  add_mem' {a b} ha hb := by
    show (a.chk ^^^ b.chk).toNat < 32
    rw [UInt32.toNat_xor]
    exact Nat.xor_lt_two_pow (n := 5) ha hb
  neg_mem' ha := ha

/-- The step as arithmetic on natural numbers, which is cheap to evaluate. -/
def natStep (c : ℕ) : ℕ :=
  let b := c / 2 ^ 25
  (c % 2 ^ 25 * 32) ^^^ (b % 2 * 0x3b6a57b2) ^^^ (b / 2 % 2 * 0x26508e6d) ^^^ (b / 4 % 2 * 0x1ea119fa) ^^^
    (b / 8 % 2 * 0x3d4233dd) ^^^ (b / 16 % 2 * 0x2a1462b3)

lemma toNat_polymod_eq (a : Residue) : (polymod a).chk.toNat = natStep a.chk.toNat := by
  have htable : ∀ b < 32, (generators (UInt32.ofNat b)).toNat = (b % 2 * 0x3b6a57b2) ^^^ ((b / 2 % 2 * 0x26508e6d) ^^^
      ((b / 4 % 2 * 0x1ea119fa) ^^^ ((b / 8 % 2 * 0x3d4233dd) ^^^ (b / 16 % 2 * 0x2a1462b3)))) := by decide
  have hterms := htable (a.chk.toNat / 2 ^ 25) (Nat.div_lt_of_lt_mul a.lt)
  rw [← toNat_top, UInt32.ofNat_toNat, toNat_top] at hterms
  rw [chk_polymod, bech32PolymodStep_eq, UInt32.toNat_xor, toNat_shifted_low, hterms]
  simp only [natStep, Nat.xor_assoc]

/-- The word does not become a symbol in so many steps. -/
def spreadsFrom : ℕ → ℕ → Bool
  | 0, _ => true
  | n + 1, c => 32 ≤ natStep c && spreadsFrom n (natStep c)

lemma spreadsFrom_polymod {n : ℕ} {a : Residue} (h : spreadsFrom n a.chk.toNat = true) {d : ℕ} (hd : 1 ≤ d)
    (hn : d ≤ n) : 32 ≤ (polymod^[d] a).chk.toNat := by
  induction n generalizing a d with
  | zero => omega
  | succ n ih =>
    rw [spreadsFrom, Bool.and_eq_true, ← toNat_polymod_eq] at h
    obtain ⟨hnow, hlater⟩ := h
    obtain ⟨d, rfl⟩ : ∃ e, d = e + 1 := ⟨d - 1, by omega⟩
    rw [Function.iterate_succ_apply]
    by_cases hzero : d = 0
    · subst hzero
      exact of_decide_eq_true hnow
    · exact ih hlater (by omega) (by omega)

/-- Over the length of an address, a symbol is not moved onto a symbol. -/
lemma polymod_spreads : Spreads polymod symbols 90 := by
  intro d hd hn a ha hne hmem
  have htable : ∀ v < 32, v ≠ 0 → spreadsFrom 90 v = true := by decide +kernel
  have hpos : a.chk.toNat ≠ 0 := fun hzero => hne (Residue.ext (UInt32.toNat_inj.mp hzero))
  have hspread := spreadsFrom_polymod (htable _ ha hpos) hd hn
  have hlt : (polymod^[d] a).chk.toNat < 32 := hmem
  omega

/-! ### The distance -/

lemma ofValue_injective : Function.Injective Residue.ofValue := by
  intro v w h
  have hchk := congrArg UInt32.toNat (congrArg Residue.chk h)
  exact UInt8.toNat_inj.mp hchk

/-- Two accepted strings with the same human readable part and of the same length that differ in at most two
characters carry the same values. -/
theorem eq_of_distance_le_two {s s' hrp : Str} {data data' : List UInt8}
    (hs : bech32Decode s = some (hrp, data)) (hs' : bech32Decode s' = some (hrp, data'))
    (hlength : s.length = s'.length) (hdistance : distance s s' ≤ 2) : data = data' := by
  obtain ⟨part, body, rfl, h, rfl, rfl⟩ := bech32Decode_eq_some.mp hs
  obtain ⟨part', body', rfl, h', hpart, rfl⟩ := bech32Decode_eq_some.mp hs'
  have hparts : part.length = part'.length := by simpa using congrArg List.length hpart
  have hbodies : body.length = body'.length := by simp [hparts] at hlength; omega
  have hsymbols {part body : Str} (h : Decodes part body) :
      ∀ v ∈ (body.map symbolValue).map Residue.ofValue, v ∈ symbols := by
    intro v hv
    obtain ⟨w, hw, rfl⟩ := List.mem_map.mp hv
    obtain ⟨ch, hch, rfl⟩ := List.mem_map.mp hw
    exact (symbolValue_spec ch (h.hasValue ch hch)).1
  have hle : distance ((body.map symbolValue).map Residue.ofValue) ((body'.map symbolValue).map Residue.ofValue) ≤ 2 :=
    calc _ ≤ distance (body.map symbolValue) (body'.map symbolValue) := distance_map_le _ _ _
      _ ≤ distance body body' := distance_map_le _ _ _
      _ ≤ distance ('1'.toUInt8 :: body) ('1'.toUInt8 :: body') := by
        rw [distance_cons]
        exact Nat.le_add_right _ _
      _ ≤ _ := distance_le_append hparts _ _
      _ ≤ 2 := hdistance
  have hrun := h'.checksum
  rw [← hpart, ← h.checksum] at hrun
  have hsame := eq_of_run_eq polymod_injective polymod_spreads (hsymbols h) (hsymbols h') (by simpa using hbodies)
    (by simp; have := h.length_le; omega) hle hrun.symm
  rw [List.map_injective_iff.mpr ofValue_injective hsame, hbodies]

/-- Two accepted addresses of the same length that differ in at most two characters are the same version
and program. -/
theorem segwitAddrDecode_eq_of_distance_le_two (hrp addr addr' : Str) (decoded decoded' : Int × List UInt8)
    (h : segwitAddrDecode hrp addr = some decoded) (h' : segwitAddrDecode hrp addr' = some decoded')
    (hlength : addr.length = addr'.length) (hdistance : LinearChecksum.distance addr addr' ≤ 2) :
    decoded = decoded' := by
  obtain ⟨version, program⟩ := decoded
  obtain ⟨version', program'⟩ := decoded'
  obtain ⟨v, syms, hdecode, -, hconvert, -, rfl⟩ := segwitAddrDecode_eq_some.mp h
  obtain ⟨v', syms', hdecode', -, hconvert', -, rfl⟩ := segwitAddrDecode_eq_some.mp h'
  have hdata := eq_of_distance_le_two hdecode hdecode' hlength hdistance
  rw [List.cons.injEq] at hdata
  obtain ⟨rfl, rfl⟩ := hdata
  obtain rfl := Option.some.inj (hconvert.symm.trans hconvert')
  rfl

theorem segwitAddrDecode_upper_lower :
    segwitAddrDecode (lit "2") (lit "210832q742233") = some (15, [60, 84]) ∧
      ∀ decoded, segwitAddrDecode (lit "2") (lit "210832Q742233") = some decoded → decoded = (15, [60, 84]) := by
  have hlower : segwitAddrDecode (lit "2") (lit "210832q742233") = some (15, [60, 84]) := by decide +kernel
  exact ⟨hlower, fun decoded h => segwitAddrDecode_eq_of_distance_le_two _ _ _ _ _ h hlower (by decide)
    (by decide +kernel)⟩

end ContractPython.Btc
