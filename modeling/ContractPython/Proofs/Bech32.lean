import ContractPython.Lib.Digits
import ContractPython.Lib.LinearChecksum
import ContractPython.Model.SegwitAddr

/-!
# The checksum of bech32

The checksum is linear and its step loses nothing. The strings the decoder accepts are those the encoder
writes, in upper or in lower case.
-/

namespace ContractPython.Btc

open LinearChecksum

/-! ### The register -/

/-- The values `chk` takes: 30 bits. -/
structure Residue where
  chk : UInt32
  lt : chk.toNat < 2 ^ 30
  deriving DecidableEq

namespace Residue

@[ext] lemma ext {a b : Residue} (h : a.chk = b.chk) : a = b := by
  cases a
  cases b
  cases h
  rfl

instance : Add Residue := ⟨fun a b => ⟨a.chk ^^^ b.chk, by
  rw [UInt32.toNat_xor]
  exact Nat.xor_lt_two_pow a.lt b.lt⟩⟩

instance : Zero Residue := ⟨⟨0, by decide⟩⟩

instance : Neg Residue := ⟨id⟩

@[simp] lemma chk_add (a b : Residue) : (a + b).chk = a.chk ^^^ b.chk := rfl

@[simp] lemma chk_zero : (0 : Residue).chk = 0 := rfl

lemma neg_eq (a : Residue) : -a = a := rfl

instance : AddCommGroup Residue where
  add_assoc a b c := ext (UInt32.xor_assoc _ _ _)
  zero_add a := ext UInt32.zero_xor
  add_zero a := ext UInt32.xor_zero
  add_comm a b := ext (UInt32.xor_comm _ _)
  neg_add_cancel a := ext UInt32.xor_self
  nsmul := nsmulRec
  zsmul := zsmulRec

/-- A value fed to the register. -/
def ofValue (v : UInt8) : Residue := ⟨v.toUInt32, by
  have hlt := v.toNat_lt
  rw [UInt8.toNat_toUInt32]
  omega⟩

end Residue

/-! ### The step -/

lemma and_one_cases (x : UInt32) : x &&& 1 = 0 ∨ x &&& 1 = 1 := by
  have h : (x &&& 1).toNat = x.toNat % 2 := by
    rw [UInt32.toNat_and]
    exact Nat.and_one_is_mod _
  rcases Nat.mod_two_eq_zero_or_one x.toNat with hmod | hmod
  · exact .inl (UInt32.toNat_inj.mp (h.trans hmod))
  · exact .inr (UInt32.toNat_inj.mp (h.trans hmod))

lemma xor_and (a b c : UInt32) : (a ^^^ b) &&& c = (a &&& c) ^^^ (b &&& c) := by
  rw [← UInt32.toNat_inj, UInt32.toNat_and, UInt32.toNat_xor, UInt32.toNat_xor, UInt32.toNat_and, UInt32.toNat_and]
  exact Nat.and_xor_distrib_right

lemma generatorTerm_xor (b b' i generator : UInt32) :
    generatorTerm (b ^^^ b') i generator = generatorTerm b i generator ^^^ generatorTerm b' i generator := by
  have hneg : ∀ p q : UInt32, (p = 0 ∨ p = 1) → (q = 0 ∨ q = 1) → 0 - (p ^^^ q) = (0 - p) ^^^ (0 - q) := by
    rintro p q (rfl | rfl) (rfl | rfl) <;> decide
  unfold generatorTerm
  rw [UInt32.shiftRight_xor, xor_and (b >>> i), hneg _ _ (and_one_cases _) (and_one_cases _), xor_and]

lemma generatorTerm_lt (b i generator : UInt32) (h : generator.toNat < 2 ^ 30) :
    (generatorTerm b i generator).toNat < 2 ^ 30 := by
  unfold generatorTerm
  rw [UInt32.toNat_and]
  exact Nat.and_le_right.trans_lt h

/-- The terms of the five bits that are shifted out. -/
def generators (b : UInt32) : UInt32 :=
  generatorTerm b 0 0x3b6a57b2 ^^^ generatorTerm b 1 0x26508e6d ^^^ generatorTerm b 2 0x1ea119fa ^^^
    generatorTerm b 3 0x3d4233dd ^^^ generatorTerm b 4 0x2a1462b3

lemma generators_xor (b b' : UInt32) : generators (b ^^^ b') = generators b ^^^ generators b' := by
  unfold generators
  simp only [generatorTerm_xor]
  ac_rfl

lemma generators_lt (b : UInt32) : (generators b).toNat < 2 ^ 30 := by
  unfold generators
  simp only [UInt32.toNat_xor]
  refine Nat.xor_lt_two_pow (Nat.xor_lt_two_pow (Nat.xor_lt_two_pow (Nat.xor_lt_two_pow ?_ ?_) ?_) ?_) ?_ <;>
    exact generatorTerm_lt _ _ _ (by decide)

lemma bech32PolymodStep_eq (pre : UInt32) :
    bech32PolymodStep pre = ((pre &&& 0x1FFFFFF) <<< 5) ^^^ generators (pre >>> 25) := by
  unfold bech32PolymodStep generators
  simp only [UInt32.xor_assoc]

lemma toNat_shifted_low (pre : UInt32) : ((pre &&& 0x1FFFFFF) <<< 5).toNat = pre.toNat % 2 ^ 25 * 32 := by
  have hmask : (0x1FFFFFF : UInt32).toNat = 2 ^ 25 - 1 := rfl
  have hfive : (5 : UInt32).toNat % 32 = 5 := rfl
  rw [UInt32.toNat_shiftLeft, UInt32.toNat_and, hmask, hfive, Nat.and_two_pow_sub_one_eq_mod, Nat.shiftLeft_eq]
  omega

lemma bech32PolymodStep_lt (pre : UInt32) : (bech32PolymodStep pre).toNat < 2 ^ 30 := by
  rw [bech32PolymodStep_eq, UInt32.toNat_xor, toNat_shifted_low]
  exact Nat.xor_lt_two_pow (by omega) (generators_lt _)

lemma bech32PolymodStep_xor (a b : UInt32) :
    bech32PolymodStep (a ^^^ b) = bech32PolymodStep a ^^^ bech32PolymodStep b := by
  rw [bech32PolymodStep_eq, bech32PolymodStep_eq, bech32PolymodStep_eq, xor_and, UInt32.shiftLeft_xor,
    UInt32.shiftRight_xor, generators_xor]
  ac_rfl

/-- The step on residues. -/
def polymod : Residue →+ Residue where
  toFun a := ⟨bech32PolymodStep a.chk, bech32PolymodStep_lt a.chk⟩
  map_zero' := Residue.ext (by decide)
  map_add' a b := Residue.ext (bech32PolymodStep_xor a.chk b.chk)

@[simp] lemma chk_polymod (a : Residue) : (polymod a).chk = bech32PolymodStep a.chk := rfl

lemma toNat_top (pre : UInt32) : (pre >>> 25).toNat = pre.toNat / 2 ^ 25 := by
  have hshift : (25 : UInt32).toNat % 32 = 25 := rfl
  rw [UInt32.toNat_shiftRight, hshift, Nat.shiftRight_eq_div_pow]

/-- While no bit is shifted out, the step is a shift. -/
lemma toNat_polymod {a : Residue} (h : a.chk.toNat < 2 ^ 25) : (polymod a).chk.toNat = a.chk.toNat * 32 := by
  have htop : a.chk >>> 25 = 0 := by
    rw [← UInt32.toNat_inj, toNat_top]
    exact Nat.div_eq_of_lt h
  have hnone : generators 0 = 0 := by decide
  rw [chk_polymod, bech32PolymodStep_eq, htop, hnone, UInt32.xor_zero, toNat_shifted_low, Nat.mod_eq_of_lt h]

/-- The last five bits tell which bits were shifted out. -/
lemma polymod_injective : Function.Injective polymod := by
  rw [injective_iff_map_eq_zero]
  intro a ha
  have hstep : bech32PolymodStep a.chk = 0 := congrArg Residue.chk ha
  have htable : ∀ b < 32, (generators (UInt32.ofNat b)).toNat % 32 = 0 → b = 0 := by decide
  have hzero : a.chk.toNat / 2 ^ 25 = 0 := by
    apply htable _ (Nat.div_lt_of_lt_mul a.lt)
    rw [bech32PolymodStep_eq] at hstep
    have hsame : (a.chk &&& 0x1FFFFFF) <<< 5 = generators (a.chk >>> 25) := by
      have h := congrArg (· ^^^ generators (a.chk >>> 25)) hstep
      simpa [UInt32.xor_assoc] using h
    rw [← toNat_top, UInt32.ofNat_toNat, ← hsame, toNat_shifted_low]
    omega
  have hlow : a.chk.toNat < 2 ^ 25 := by omega
  have hshifted := toNat_polymod hlow
  rw [ha] at hshifted
  apply Residue.ext
  rw [← UInt32.toNat_inj]
  show a.chk.toNat = 0
  have hnone : (0 : Residue).chk.toNat = 0 := rfl
  omega

/-! ### Feeding the register -/

/-- The register before the first value. -/
def one : Residue := ⟨1, by decide⟩

lemma foldl_feed (c : Residue) (values : List UInt8) :
    values.foldl (fun chk v => feed chk v.toUInt32) c.chk = (run polymod c (values.map Residue.ofValue)).chk := by
  induction values generalizing c with
  | nil => rfl
  | cons v values ih => exact ih (polymod c + Residue.ofValue v)

/-- The register behind the human readable part. -/
def hrpResidue (hrp : Str) : Residue :=
  run polymod (polymod (run polymod one ((hrp.map fun ch : UInt8 => ch >>> 5).map Residue.ofValue)))
    ((hrp.map fun ch : UInt8 => ch &&& 0x1f).map Residue.ofValue)

lemma feedHrp_eq (hrp : Str) : feedHrp hrp = (hrpResidue hrp).chk := by
  unfold feedHrp hrpResidue
  rw [← foldl_feed, chk_polymod, ← foldl_feed, List.foldl_map, List.foldl_map]
  rfl

lemma foldl_step (c : Residue) (n : ℕ) :
    (List.range n).foldl (fun chk _ => bech32PolymodStep chk) c.chk = (polymod^[n] c).chk := by
  induction n with
  | zero => rfl
  | succ n ih =>
    rw [List.range_succ, List.foldl_append, ih, Function.iterate_succ_apply']
    rfl

lemma mul_xor_lt {x v : ℕ} (hv : v < 32) : (x * 32) ^^^ v = x * 32 + v := by
  have hmul : x * 32 = 2 ^ 5 * x := by omega
  apply Nat.eq_of_testBit_eq
  intro i
  rw [hmul, Nat.testBit_xor, Nat.testBit_two_pow_mul_add _ (by simpa using hv), Nat.testBit_two_pow_mul]
  by_cases hi : 5 ≤ i
  · have hpow : 2 ^ 5 ≤ 2 ^ i := Nat.pow_le_pow_right (by omega) hi
    have hbit : v.testBit i = false := Nat.testBit_lt_two_pow (by omega)
    simp [hi, hbit]
  · have hlow : i < 5 := by omega
    simp [hi, hlow]

/-- Six symbols fill the register without a reduction. -/
lemma toNat_run_zero (values : List UInt8) (hlt : ∀ v ∈ values, v.toNat < 32) (hlength : values.length ≤ 6) :
    (run polymod 0 (values.map Residue.ofValue)).chk.toNat = Digits.value 32 (values.map UInt8.toNat) := by
  induction values using List.reverseRecOn with
  | nil => rfl
  | append_singleton values v ih =>
    rw [List.length_append, List.length_singleton] at hlength
    have hvalues : ∀ v ∈ values, v.toNat < 32 := fun w hw => hlt w (List.mem_append_left _ hw)
    have hv : v.toNat < 32 := hlt v (List.mem_append_right _ (List.mem_singleton_self v))
    have hrun := ih hvalues (by omega)
    have hsmall : Digits.value 32 (values.map UInt8.toNat) < 2 ^ 25 := by
      have hbound := Digits.value_lt (b := 32) (by omega) (l := values.map UInt8.toNat) (by simpa using hvalues)
      rw [List.length_map] at hbound
      calc _ < 32 ^ values.length := hbound
        _ ≤ 32 ^ 5 := Nat.pow_le_pow_right (by omega) (by omega)
        _ = 2 ^ 25 := by norm_num
    rw [List.map_append, List.map_append, run_append, List.map_singleton, List.map_singleton, run_cons, run_nil,
      Residue.chk_add, UInt32.toNat_xor, toNat_polymod (by rw [hrun]; exact hsmall), hrun, Digits.value_concat]
    exact mul_xor_lt hv

/-- The symbols of the checksum. -/
def checkValues (chk : UInt32) : List UInt8 :=
  (List.range 6).map fun i => ((chk >>> UInt32.ofNat ((5 - i) * 5)) &&& 0x1f).toUInt8

lemma toNat_checkValue (chk : UInt32) {k : ℕ} (hk : k < 32) :
    ((chk >>> UInt32.ofNat k) &&& 0x1f).toNat = chk.toNat / 2 ^ k % 32 := by
  have hmask : (0x1f : UInt32).toNat = 2 ^ 5 - 1 := rfl
  have hshift : (UInt32.ofNat k).toNat % 32 = k := by
    rw [UInt32.toNat_ofNat']
    omega
  rw [UInt32.toNat_and, UInt32.toNat_shiftRight, hshift, hmask, Nat.and_two_pow_sub_one_eq_mod,
    Nat.shiftRight_eq_div_pow]

lemma map_checkValues (chk : UInt32) : (checkValues chk).map UInt8.toNat =
    [chk.toNat / 2 ^ 25 % 32, chk.toNat / 2 ^ 20 % 32, chk.toNat / 2 ^ 15 % 32, chk.toNat / 2 ^ 10 % 32,
      chk.toNat / 2 ^ 5 % 32, chk.toNat / 2 ^ 0 % 32] := by
  have hvalue (k : ℕ) (hk : k < 32) :
      (((chk >>> UInt32.ofNat k) &&& 0x1f).toUInt8).toNat = chk.toNat / 2 ^ k % 32 := by
    rw [UInt32.toNat_toUInt8, toNat_checkValue chk hk]
    omega
  have hrange : List.range 6 = [0, 1, 2, 3, 4, 5] := by decide
  unfold checkValues
  rw [hrange]
  simp only [List.map_cons, List.map_nil]
  rw [hvalue _ (by omega), hvalue _ (by omega), hvalue _ (by omega), hvalue _ (by omega), hvalue _ (by omega),
    hvalue _ (by omega)]

lemma lt_of_mem_checkValues {chk : UInt32} : ∀ v ∈ checkValues chk, v.toNat < 32 := by
  intro v hv
  have hmem := List.mem_map_of_mem (f := UInt8.toNat) hv
  rw [map_checkValues] at hmem
  simp only [List.mem_cons, List.not_mem_nil, or_false] at hmem
  omega

lemma value_checkValues (a : Residue) : Digits.value 32 ((checkValues a.chk).map UInt8.toNat) = a.chk.toNat := by
  have hlt := a.lt
  rw [map_checkValues]
  simp only [Digits.value_cons, Digits.value_nil, List.length_cons, List.length_nil]
  omega

/-- The checksum is the one continuation by six symbols that leaves the register at one. -/
lemma run_eq_one_iff (c : Residue) {check : List UInt8} (hlt : ∀ v ∈ check, v.toNat < 32) (hlength : check.length = 6) :
    run polymod c (check.map Residue.ofValue) = one ↔ check = checkValues (polymod^[6] c + one).chk := by
  have hvalue := toNat_run_zero check hlt hlength.le
  rw [run_eq_add, List.length_map, hlength, add_comm, ← eq_sub_iff_add_eq, sub_eq_add_neg, Residue.neg_eq, add_comm one]
  constructor
  · intro hrun
    rw [hrun] at hvalue
    apply List.map_injective_iff.mpr (fun _ _ => UInt8.toNat_inj.mp)
    apply Digits.eq_of_value_eq (b := 32) (by omega)
    · simpa using hlt
    · simpa using lt_of_mem_checkValues
    · simp [checkValues, hlength]
    · rw [← hvalue, value_checkValues]
  · intro hcheck
    apply Residue.ext
    rw [← UInt32.toNat_inj, hvalue, hcheck, value_checkValues]

/-! ### Characters -/

/-- The character of a value. -/
def valueSymbol (v : UInt8) : UInt8 := charset.getD v.toNat 0

/-- The value of a character that has one. -/
def symbolValue (ch : UInt8) : UInt8 := UInt8.ofNat (valueOf ch).toNat

lemma forall_uint8 {p : UInt8 → Prop} (h : ∀ n < 256, p (UInt8.ofNat n)) (ch : UInt8) : p ch := by
  have hch := h ch.toNat ch.toNat_lt
  rwa [UInt8.ofNat_toNat] at hch

lemma valueOf_valueSymbol {v : UInt8} (hv : v.toNat < 32) :
    valueOf (valueSymbol v) = v.toNat ∧ valueSymbol v ≠ '1'.toUInt8 ∧ isUpper (valueSymbol v) = false := by
  have htable : ∀ n < 32, valueOf (valueSymbol (UInt8.ofNat n)) = n ∧
      valueSymbol (UInt8.ofNat n) ≠ '1'.toUInt8 ∧ isUpper (valueSymbol (UInt8.ofNat n)) = false := by decide +kernel
  have h := htable v.toNat hv
  rwa [UInt8.ofNat_toNat] at h

lemma symbolValue_spec (ch : UInt8) : valueOf ch ≠ -1 →
    (symbolValue ch).toNat < 32 ∧ valueSymbol (symbolValue ch) = lowered ch ∧ ch ≠ '1'.toUInt8 :=
  forall_uint8 (p := fun ch => valueOf ch ≠ -1 →
    (symbolValue ch).toNat < 32 ∧ valueSymbol (symbolValue ch) = lowered ch ∧ ch ≠ '1'.toUInt8) (by decide +kernel) ch

lemma lowered_spec (ch : UInt8) : isHrpChar (lowered ch) = isHrpChar ch ∧ isUpper (lowered ch) = false ∧
    lowered ch &&& 0x1f = ch &&& 0x1f ∧ valueOf (lowered ch) = valueOf ch ∧
    (lowered ch = '1'.toUInt8 ↔ ch = '1'.toUInt8) ∧ (isUpper ch = false → lowered ch = ch) :=
  forall_uint8 (p := fun ch => isHrpChar (lowered ch) = isHrpChar ch ∧ isUpper (lowered ch) = false ∧
    lowered ch &&& 0x1f = ch &&& 0x1f ∧ valueOf (lowered ch) = valueOf ch ∧
    (lowered ch = '1'.toUInt8 ↔ ch = '1'.toUInt8) ∧ (isUpper ch = false → lowered ch = ch)) (by decide +kernel) ch

/-! ### Encoding -/

/-- The encoder writes the human readable part, the separator, the values and the symbols that make the
checksum one. -/
lemma bech32Encode_eq_some {hrp : Str} {data : List UInt8} {s : Str} :
    bech32Encode hrp data = some s ↔ (∀ ch ∈ hrp, isHrpChar ch = true ∧ isUpper ch = false) ∧
      hrp.length + 7 + data.length ≤ 90 ∧ (∀ v ∈ data, v.toNat < 32) ∧
      ∃ check : List UInt8, check.length = 6 ∧ (∀ v ∈ check, v.toNat < 32) ∧
        run polymod (hrpResidue hrp) ((data ++ check).map Residue.ofValue) = one ∧
        s = hrp ++ '1'.toUInt8 :: (data ++ check).map valueSymbol := by
  have hvalid : (hrp.any fun ch => !isHrpChar ch || isUpper ch) = false ↔
      ∀ ch ∈ hrp, isHrpChar ch = true ∧ isUpper ch = false := by
    simp
  have hdata : (data.any (· >>> 5 != 0)) = false ↔ ∀ v ∈ data, v.toNat < 32 := by
    have hsmall (v : UInt8) : (v >>> 5 != 0) = false ↔ v.toNat < 32 := by
      have hshift : (5 : UInt8).toNat % 8 = 5 := rfl
      have hlt := v.toNat_lt
      rw [bne_eq_false_iff_eq, ← UInt8.toNat_inj, UInt8.toNat_shiftRight, hshift, Nat.shiftRight_eq_div_pow,
        UInt8.toNat_zero]
      omega
    rw [List.any_eq_false]
    exact forall₂_congr fun v _ => by rw [← hsmall v, Bool.not_eq_true]
  have hcheck : ∀ chk : UInt32, ((List.range 6).map fun i => ((chk >>> UInt32.ofNat ((5 - i) * 5)) &&& 0x1f).toNat).map
      (fun v => charset.getD v 0) = (checkValues chk).map valueSymbol := by
    intro chk
    unfold checkValues
    rw [List.map_map, List.map_map]
    refine List.map_congr_left fun i hi => ?_
    have hlt : ((chk >>> UInt32.ofNat ((5 - i) * 5)) &&& 0x1f).toNat < 256 := by
      rw [toNat_checkValue chk (by omega)]
      omega
    simp only [Function.comp_apply, valueSymbol, UInt32.toNat_toUInt8, Nat.mod_eq_of_lt hlt]
  have hrest (check : List UInt8) : run polymod (hrpResidue hrp) ((data ++ check).map Residue.ofValue) =
      run polymod (run polymod (hrpResidue hrp) (data.map Residue.ofValue)) (check.map Residue.ofValue) := by
    rw [List.map_append, run_append]
  unfold bech32Encode
  rw [← hvalid, ← hdata]
  cases hhrp : hrp.any fun ch => !isHrpChar ch || isUpper ch with
  | true => simp
  | false =>
    by_cases hlong : hrp.length + 7 + data.length > 90
    · rw [if_neg (by simp), if_pos hlong]
      exact iff_of_false (by simp) fun h => absurd h.2.1 (by omega)
    cases hlarge : data.any (· >>> 5 != 0) with
    | true => simp
    | false =>
      rw [if_neg (by simp), if_neg hlong, if_neg (by simp), feedHrp_eq, foldl_feed]
      dsimp only
      rw [foldl_step, hcheck]
      generalize hend : run polymod (hrpResidue hrp) (data.map Residue.ofValue) = c at hrest
      have htext (check : List UInt8) : hrp ++ '1'.toUInt8 :: (data ++ check).map valueSymbol =
          hrp ++ '1'.toUInt8 :: (data.map fun v => charset.getD v.toNat 0) ++ check.map valueSymbol := by
        rw [List.map_append, List.append_assoc, List.cons_append]
        rfl
      constructor
      · intro h
        obtain rfl := Option.some.inj h
        refine ⟨rfl, by omega, rfl, checkValues (polymod^[6] c + one).chk, by simp [checkValues],
          lt_of_mem_checkValues, ?_, (htext _).symm⟩
        rw [hrest, run_eq_one_iff _ lt_of_mem_checkValues (by simp [checkValues])]
      · rintro ⟨-, -, -, check, hlength, hlt, hrun, rfl⟩
        rw [hrest, run_eq_one_iff _ hlt hlength] at hrun
        rw [hrun, htext]
        rfl

/-! ### Decoding -/

/-- A string with both cases is refused. -/
def mixedCase (s : Str) : Bool := s.any isLower && s.any isUpper

/-- What the decoder asks of the two parts of a string. -/
structure Decodes (part body : Str) : Prop where
  part_ne_nil : part ≠ []
  six_le : 6 ≤ body.length
  length_le : part.length + 1 + body.length ≤ 90
  hrpChar : ∀ ch ∈ part, isHrpChar ch = true
  hasValue : ∀ ch ∈ body, valueOf ch ≠ -1
  oneCase : mixedCase (part ++ '1'.toUInt8 :: body) = false
  checksum : run polymod (hrpResidue (part.map lowered)) ((body.map symbolValue).map Residue.ofValue) = one

lemma Decodes.notMem {part body : Str} (h : Decodes part body) : '1'.toUInt8 ∉ body :=
  fun hmem => (symbolValue_spec _ (h.hasValue _ hmem)).2.2 rfl

lemma takeWhile_reverse {part body : Str} (h : '1'.toUInt8 ∉ body) :
    (part ++ '1'.toUInt8 :: body).reverse.takeWhile (· != '1'.toUInt8) = body.reverse := by
  have hall : ∀ ch ∈ body.reverse, (ch != '1'.toUInt8) = true := by
    intro ch hch
    rw [bne_iff_ne]
    rintro rfl
    exact h (List.mem_reverse.mp hch)
  have hsplit : (part ++ '1'.toUInt8 :: body).reverse = body.reverse ++ '1'.toUInt8 :: part.reverse := by simp
  rw [hsplit, List.takeWhile_append_of_pos hall, List.takeWhile_cons_of_neg (by simp), List.append_nil]

/-- The last separator. -/
lemma exists_separator {s : Str} (h : (s.reverse.takeWhile (· != '1'.toUInt8)).length < s.length) :
    ∃ part body, s = part ++ '1'.toUInt8 :: body ∧ '1'.toUInt8 ∉ body := by
  have happend := List.takeWhile_append_dropWhile (p := fun ch : UInt8 => ch != '1'.toUInt8) (l := s.reverse)
  cases hdrop : s.reverse.dropWhile (· != '1'.toUInt8) with
  | nil =>
    rw [hdrop, List.append_nil] at happend
    rw [happend, List.length_reverse] at h
    omega
  | cons ch rest =>
    have hhead := List.head?_dropWhile_not (fun ch : UInt8 => ch != '1'.toUInt8) s.reverse
    rw [hdrop] at hhead happend
    obtain rfl : ch = '1'.toUInt8 := by simpa using hhead
    refine ⟨rest.reverse, (s.reverse.takeWhile (· != '1'.toUInt8)).reverse, ?_, fun hmem => ?_⟩
    · have hreverse := congrArg List.reverse happend
      rw [List.reverse_reverse, List.reverse_append, List.reverse_cons, List.append_assoc] at hreverse
      exact hreverse.symm
    · have hall := List.all_takeWhile (l := s.reverse) (p := fun ch : UInt8 => ch != '1'.toUInt8)
      have hne := List.all_eq_true.mp hall _ (List.mem_reverse.mp hmem)
      simp at hne

/-- The decoder on a string that is split at its last separator. -/
lemma bech32Decode_split {part body : Str} (hone : '1'.toUInt8 ∉ body) {hrp : Str} {data : List UInt8} :
    bech32Decode (part ++ '1'.toUInt8 :: body) = some (hrp, data) ↔ Decodes part body ∧ hrp = part.map lowered ∧
      data = (body.map symbolValue).take (body.length - 6) := by
  have hlength : (part ++ '1'.toUInt8 :: body).length = part.length + 1 + body.length := by
    rw [List.length_append, List.length_cons]
    omega
  have hdata : ((part ++ '1'.toUInt8 :: body).reverse.takeWhile (· != '1'.toUInt8)).length = body.length := by
    rw [takeWhile_reverse hone, List.length_reverse]
  have htake : (part ++ '1'.toUInt8 :: body).take (part.length + 1 + body.length - (1 + body.length)) = part := by
    have hsub : part.length + 1 + body.length - (1 + body.length) = part.length := by omega
    rw [hsub, List.take_left]
  have hdrop : (part ++ '1'.toUInt8 :: body).drop (part.length + 1 + body.length - body.length) = body := by
    have hsub : part.length + 1 + body.length - body.length = (part ++ ['1'.toUInt8]).length := by simp
    have hassoc : part ++ '1'.toUInt8 :: body = part ++ ['1'.toUInt8] ++ body := by simp
    rw [hsub, hassoc, List.drop_left]
  have hmixed : ((part.any isLower || body.any isLower) && (part.any isUpper || body.any isUpper)) =
      mixedCase (part ++ '1'.toUInt8 :: body) := by
    have hneither : isLower '1'.toUInt8 = false ∧ isUpper '1'.toUInt8 = false := by decide
    unfold mixedCase
    rw [List.any_append, List.any_append, List.any_cons, List.any_cons, hneither.1, hneither.2, Bool.false_or,
      Bool.false_or]
  have hresidue : part.foldl (fun chk (ch : UInt8) => feed chk (ch &&& 0x1f).toUInt32)
      (bech32PolymodStep ((part.map lowered).foldl (fun chk (ch : UInt8) => feed chk (ch >>> 5).toUInt32) 1)) =
      (hrpResidue (part.map lowered)).chk := by
    have hlow : (part.map lowered).map (fun ch : UInt8 => ch &&& 0x1f) = part.map fun ch => ch &&& 0x1f := by
      rw [List.map_map]
      exact List.map_congr_left fun ch _ => (lowered_spec ch).2.2.1
    unfold hrpResidue
    rw [hlow, ← foldl_feed, chk_polymod, ← foldl_feed]
    simp only [List.foldl_map]
    rfl
  unfold bech32Decode
  dsimp only
  rw [hlength, hdata, htake, hdrop, hmixed, hresidue]
  by_cases hbounds : part.length + 1 + body.length < 8 ∨ part.length + 1 + body.length > 90
  · rw [if_pos (by simpa using hbounds)]
    refine iff_of_false (by simp) ?_
    rintro ⟨h, -⟩
    have hpos := List.length_pos_of_ne_nil h.part_ne_nil
    have hsix := h.six_le
    have hle := h.length_le
    omega
  rw [if_neg (by simpa using hbounds)]
  by_cases hshort : 1 + body.length ≥ part.length + 1 + body.length ∨ body.length < 6
  · rw [if_pos (by simpa using hshort)]
    refine iff_of_false (by simp) ?_
    rintro ⟨h, -⟩
    have hpos := List.length_pos_of_ne_nil h.part_ne_nil
    have hsix := h.six_le
    omega
  rw [if_neg (by simpa using hshort)]
  cases hhrp : part.any fun ch => !isHrpChar ch with
  | true =>
    refine iff_of_false (by simp) ?_
    rintro ⟨h, -⟩
    obtain ⟨ch, hch, hbad⟩ := List.any_eq_true.mp hhrp
    rw [h.hrpChar ch hch] at hbad
    cases hbad
  | false =>
    cases hvalue : body.any fun ch => valueOf ch == -1 with
    | true =>
      refine iff_of_false (by simp) ?_
      rintro ⟨h, -⟩
      obtain ⟨ch, hch, hbad⟩ := List.any_eq_true.mp hvalue
      exact h.hasValue ch hch (beq_iff_eq.mp hbad)
    | false =>
      cases hcase : mixedCase (part ++ '1'.toUInt8 :: body) with
      | true =>
        refine iff_of_false (by simp) ?_
        rintro ⟨h, -⟩
        rw [h.oneCase] at hcase
        cases hcase
      | false =>
        have hfeed := foldl_feed (hrpResidue (part.map lowered)) (body.map symbolValue)
        have hvalues : (body.map fun ch => UInt8.ofNat (valueOf ch).toNat) = body.map symbolValue := rfl
        rw [if_neg (by simp), if_neg (by simp), if_neg (by simp), hvalues, hfeed]
        have hiff : (run polymod (hrpResidue (part.map lowered)) ((body.map symbolValue).map Residue.ofValue)).chk = 1 ↔
            run polymod (hrpResidue (part.map lowered)) ((body.map symbolValue).map Residue.ofValue) = one :=
          ⟨fun h => Residue.ext h, fun h => congrArg Residue.chk h⟩
        by_cases hsum : (run polymod (hrpResidue (part.map lowered))
            ((body.map symbolValue).map Residue.ofValue)).chk = 1
        · rw [if_pos hsum]
          constructor
          · intro h
            obtain ⟨rfl, rfl⟩ := Prod.mk.inj (Option.some.inj h)
            refine ⟨⟨?_, by omega, by omega, ?_, ?_, hcase, hiff.mp hsum⟩, rfl, rfl⟩
            · rintro rfl
              simp at hshort
            · simpa using hhrp
            · simpa using hvalue
          · rintro ⟨-, rfl, rfl⟩
            rfl
        · rw [if_neg hsum]
          exact iff_of_false (by simp) fun h => hsum (hiff.mpr h.1.checksum)

/-- The accepted strings. -/
lemma bech32Decode_eq_some {s hrp : Str} {data : List UInt8} : bech32Decode s = some (hrp, data) ↔
    ∃ part body, s = part ++ '1'.toUInt8 :: body ∧ Decodes part body ∧ hrp = part.map lowered ∧
      data = (body.map symbolValue).take (body.length - 6) := by
  constructor
  · intro h
    have hlt : (s.reverse.takeWhile (· != '1'.toUInt8)).length < s.length := by
      by_contra hge
      unfold bech32Decode at h
      dsimp only at h
      split at h
      · cases h
      · rw [if_pos (by simp; omega)] at h
        cases h
    obtain ⟨part, body, rfl, hone⟩ := exists_separator hlt
    exact ⟨part, body, rfl, (bech32Decode_split hone).mp h⟩
  · rintro ⟨part, body, rfl, hdecodes, hrest⟩
    exact (bech32Decode_split hdecodes.notMem).mpr ⟨hdecodes, hrest⟩

/-! ### Round trip -/

lemma symbolValue_lowered (ch : UInt8) : symbolValue (lowered ch) = symbolValue ch := by
  unfold symbolValue
  rw [(lowered_spec ch).2.2.2.1]

lemma symbolValue_valueSymbol {v : UInt8} (hv : v.toNat < 32) : symbolValue (valueSymbol v) = v := by
  unfold symbolValue
  rw [(valueOf_valueSymbol hv).1, Int.toNat_natCast, UInt8.ofNat_toNat]

/-- A string is accepted exactly when its lower case is what the encoder writes, and it has one case. -/
theorem bech32Decode_iff_bech32Encode (s hrp : Str) (data : List UInt8) :
    bech32Decode s = some (hrp, data) ↔
      hrp ≠ [] ∧ bech32Encode hrp data = some (s.map lowered) ∧ mixedCase s = false := by
  rw [bech32Decode_eq_some, bech32Encode_eq_some]
  constructor
  · rintro ⟨part, body, rfl, h, rfl, rfl⟩
    have hlt : ∀ v ∈ body.map symbolValue, v.toNat < 32 := by
      intro v hv
      obtain ⟨ch, hch, rfl⟩ := List.mem_map.mp hv
      exact (symbolValue_spec ch (h.hasValue ch hch)).1
    have hsix := h.six_le
    have hle := h.length_le
    have hbody : body.map lowered = (body.map symbolValue).map valueSymbol := by
      rw [List.map_map]
      exact List.map_congr_left fun ch hch => (symbolValue_spec ch (h.hasValue ch hch)).2.1.symm
    have hone : lowered '1'.toUInt8 = '1'.toUInt8 := by decide
    refine ⟨by simpa using h.part_ne_nil, ⟨?_, ?_, fun v hv => hlt v (List.mem_of_mem_take hv),
      (body.map symbolValue).drop (body.length - 6), ?_, fun v hv => hlt v (List.mem_of_mem_drop hv), ?_, ?_⟩, h.oneCase⟩
    · intro ch hch
      obtain ⟨ch', hch', rfl⟩ := List.mem_map.mp hch
      exact ⟨(lowered_spec ch').1.trans (h.hrpChar ch' hch'), (lowered_spec ch').2.1⟩
    · rw [List.length_map, List.length_take, List.length_map]
      omega
    · rw [List.length_drop, List.length_map]
      omega
    · rw [List.take_append_drop]
      exact h.checksum
    · rw [List.take_append_drop, List.map_append, List.map_cons, hone, hbody]
  · rintro ⟨hne, ⟨hvalid, hlength, hdata, check, hsix, hcheck, hrun, htext⟩, hcase⟩
    obtain ⟨part, tail, rfl, rfl, htail⟩ := List.map_eq_append_iff.mp htext
    obtain ⟨one, body, rfl, hone, hbody⟩ := List.map_eq_cons_iff.mp htail
    obtain rfl : one = '1'.toUInt8 := (lowered_spec one).2.2.2.2.1.mp hone
    have hlt : ∀ v ∈ data ++ check, v.toNat < 32 := fun v hv => (List.mem_append.mp hv).elim (hdata v) (hcheck v)
    have hvalues : body.map symbolValue = data ++ check := by
      have hlower : (body.map lowered).map symbolValue = body.map symbolValue := by
        rw [List.map_map]
        exact List.map_congr_left fun ch _ => symbolValue_lowered ch
      have hback : ((data ++ check).map valueSymbol).map symbolValue = data ++ check := by
        rw [List.map_map]
        exact (List.map_congr_left fun v hv => symbolValue_valueSymbol (hlt v hv)).trans (List.map_id _)
      rw [← hlower, hbody, hback]
    have hcount : body.length = data.length + 6 := by
      have h := congrArg List.length hvalues
      rwa [List.length_map, List.length_append, hsix] at h
    rw [List.length_map] at hlength
    refine ⟨part, body, rfl, ⟨by simpa using hne, by omega, by omega, ?_, ?_, hcase, by rw [hvalues]; exact hrun⟩, rfl, ?_⟩
    · intro ch hch
      rw [← (lowered_spec ch).1]
      exact (hvalid _ (List.mem_map_of_mem hch)).1
    · intro ch hch
      have hmem := List.mem_map_of_mem (f := lowered) hch
      rw [hbody] at hmem
      obtain ⟨v, hv, hsame⟩ := List.mem_map.mp hmem
      rw [← (lowered_spec ch).2.2.2.1, ← hsame, (valueOf_valueSymbol (hlt v hv)).1]
      omega
    · rw [hvalues, hcount, Nat.add_sub_cancel, List.take_left]

end ContractPython.Btc
