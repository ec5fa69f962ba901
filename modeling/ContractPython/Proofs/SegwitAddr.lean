import ContractPython.Lib.Digits
import ContractPython.Proofs.Bech32

/-!
# Segregated witness addresses

`convert_bits` writes the bits of a number in groups of another size. Widening, where no bit may be
left over, is the inverse of narrowing, which pads with zeros, so an accepted address is what the encoder writes.
-/

namespace ContractPython.Btc

open Digits

/-! ### The regrouping of bits -/

/-- What `convert_bits` has written when `bits` of the bits of `n` have not been. -/
structure Emitted (outbits n bits : ℕ) (out : List UInt8) (total : ℕ) : Prop where
  length : out.length * outbits + bits = total
  value_eq : value (2 ^ outbits) (out.map UInt8.toNat) = n / 2 ^ bits
  lt : ∀ v ∈ out, v.toNat < 2 ^ outbits

variable {outbits inbits n bits total : ℕ} {out : List UInt8} {val : UInt32}

/-- A shift by less than the width of a register. -/
lemma toNat_ofNat_mod {k : ℕ} (hk : k < 32) : (UInt32.ofNat k).toNat % 32 = k := by
  rw [UInt32.toNat_ofNat']
  omega

/-- The mask of a group. -/
lemma toNat_maxv (ho : outbits ≤ 8) : ((1 <<< UInt32.ofNat outbits) - 1 : UInt32).toNat = 2 ^ outbits - 1 := by
  interval_cases outbits <;> rfl

/-- The bits of a register that a shift and the mask select. -/
lemma toNat_selected {k : ℕ} (hpos : 0 < outbits) (ho : outbits ≤ 8) (hk : k + outbits ≤ 32)
    (hval : val.toNat = n % 2 ^ 32) :
    ((val >>> UInt32.ofNat k) &&& ((1 <<< UInt32.ofNat outbits) - 1)).toUInt8.toNat = n / 2 ^ k % 2 ^ outbits := by
  have hbase : 2 ^ 32 = 2 ^ k * 2 ^ (32 - k) := by rw [← pow_add, Nat.add_sub_cancel' (by omega)]
  have hdvd : 2 ^ outbits ∣ 2 ^ (32 - k) := Nat.pow_dvd_pow 2 (by omega)
  have hbyte : n / 2 ^ k % 2 ^ outbits < 2 ^ 8 :=
    (Nat.mod_lt _ (Nat.two_pow_pos _)).trans_le (Nat.pow_le_pow_right (by omega) ho)
  rw [UInt32.toNat_toUInt8, UInt32.toNat_and, UInt32.toNat_shiftRight, toNat_ofNat_mod (by omega), toNat_maxv ho,
    Nat.and_two_pow_sub_one_eq_mod, Nat.shiftRight_eq_div_pow, hval, hbase, Nat.mod_mul_right_div_self,
    Nat.mod_mod_of_dvd _ hdvd, Nat.mod_eq_of_lt hbyte]

lemma emitBits_spec (hpos : 0 < outbits) (ho : outbits ≤ 8) (hval : val.toNat = n % 2 ^ 32) (rounds : ℕ)
    (hrounds : bits ≤ rounds) (hbits : bits ≤ 32) (h : Emitted outbits n bits out total) :
    (emitBits outbits val rounds bits out).1 < outbits ∧
      Emitted outbits n (emitBits outbits val rounds bits out).1 (emitBits outbits val rounds bits out).2 total := by
  induction rounds generalizing bits out with
  | zero =>
    obtain rfl : bits = 0 := by omega
    exact ⟨hpos, h⟩
  | succ rounds ih =>
    unfold emitBits
    by_cases hmore : bits ≥ outbits
    · rw [if_pos hmore]
      have hsplit : n / 2 ^ bits = n / 2 ^ (bits - outbits) / 2 ^ outbits := by
        rw [Nat.div_div_eq_div_mul, ← pow_add, Nat.sub_add_cancel hmore]
      have hdigit := toNat_selected (k := bits - outbits) hpos ho (by omega) hval
      refine ih (by omega) (by omega) ⟨?_, ?_, ?_⟩
      · have hlength := h.length
        rw [List.length_append, List.length_singleton, Nat.add_mul, Nat.one_mul]
        omega
      · rw [List.map_append, List.map_singleton, value_concat, h.value_eq, hdigit, hsplit, Nat.div_add_mod']
      · intro v hv
        rcases List.mem_append.mp hv with hold | hnew
        · exact h.lt v hold
        · rw [List.mem_singleton.mp hnew, hdigit]
          exact Nat.mod_lt _ (Nat.two_pow_pos _)
    · rw [if_neg hmore]
      exact ⟨by simpa using hmore, h⟩

/-- The loop over the input: what it has read and not written is below the size of a group. -/
lemma convertLoop_spec (hpos : 0 < outbits) (ho : outbits ≤ 8) (hi : inbits ≤ 8) {input : List UInt8}
    (hinput : ∀ b ∈ input, b.toNat < 2 ^ inbits) :
    (convertLoop outbits inbits input).1.toNat = value (2 ^ inbits) (input.map UInt8.toNat) % 2 ^ 32 ∧
      (convertLoop outbits inbits input).2.1 < outbits ∧
      Emitted outbits (value (2 ^ inbits) (input.map UInt8.toNat)) (convertLoop outbits inbits input).2.1
        (convertLoop outbits inbits input).2.2 (input.length * inbits) := by
  induction input using List.reverseRecOn with
  | nil =>
    have hstart : convertLoop outbits inbits [] = (0, 0, []) := rfl
    rw [hstart]
    exact ⟨rfl, hpos, ⟨by simp, by simp, by simp⟩⟩
  | append_singleton input b ih =>
    have hb : b.toNat < 2 ^ inbits := hinput b (by simp)
    obtain ⟨hval, hbits, hemitted⟩ := ih fun b hb => hinput b (List.mem_append_left _ hb)
    have hnext : (((convertLoop outbits inbits input).1 <<< UInt32.ofNat inbits) ||| b.toUInt32).toNat =
        value (2 ^ inbits) ((input ++ [b]).map UInt8.toNat) % 2 ^ 32 := by
      have hsmall : b.toNat = b.toNat % 2 ^ 32 := by
        have hlt := b.toNat_lt
        omega
      rw [UInt32.toNat_or, UInt32.toNat_shiftLeft, toNat_ofNat_mod (by omega), UInt8.toNat_toUInt32, Nat.shiftLeft_eq, hval, hsmall,
        ← Nat.or_mod_two_pow, Nat.mul_comm, ← Nat.two_pow_add_eq_or_of_lt hb, List.map_append, List.map_singleton,
        value_concat, Nat.mul_comm (value _ _)]
      exact ((Nat.mod_modEq _ _).mul_left _).add_right _
    have hstep : convertLoop outbits inbits (input ++ [b]) =
        (((convertLoop outbits inbits input).1 <<< UInt32.ofNat inbits) ||| b.toUInt32,
          emitBits outbits (((convertLoop outbits inbits input).1 <<< UInt32.ofNat inbits) ||| b.toUInt32)
            ((convertLoop outbits inbits input).2.1 + inbits) ((convertLoop outbits inbits input).2.1 + inbits)
            (convertLoop outbits inbits input).2.2) := by
      unfold convertLoop
      rw [List.foldl_append]
      rfl
    rw [hstep]
    refine ⟨hnext, emitBits_spec hpos ho hnext _ le_rfl (by omega) ⟨?_, ?_, hemitted.lt⟩⟩
    · have hlength := hemitted.length
      rw [List.length_append, List.length_singleton, Nat.add_mul, Nat.one_mul]
      omega
    · rw [hemitted.value_eq, List.map_append, List.map_singleton, value_concat, Nat.add_comm _ inbits, pow_add,
        ← Nat.div_div_eq_div_mul, Nat.mul_comm, Nat.mul_add_div (Nat.two_pow_pos _), Nat.div_eq_of_lt hb, Nat.add_zero]

/-- The bits that are left, with zeros behind them. -/
lemma toNat_rest {k : ℕ} (ho : outbits ≤ 8) (hk : k ≤ outbits) (hval : val.toNat = n % 2 ^ 32) :
    ((val <<< UInt32.ofNat k) &&& ((1 <<< UInt32.ofNat outbits) - 1)).toNat = n * 2 ^ k % 2 ^ outbits := by
  have hdvd : 2 ^ outbits ∣ 2 ^ 32 := Nat.pow_dvd_pow 2 (by omega)
  rw [UInt32.toNat_and, UInt32.toNat_shiftLeft, toNat_ofNat_mod (by omega), toNat_maxv ho,
    Nat.and_two_pow_sub_one_eq_mod, Nat.shiftLeft_eq, hval, Nat.mod_mod_of_dvd _ hdvd]
  exact ((Nat.mod_modEq n (2 ^ 32)).of_dvd hdvd).mul_right (2 ^ k)

variable {i o : ℕ} {fine coarse : List UInt8}

/-- With padding the groups become smaller. -/
lemma convertBits_pad (hi : 0 < i) (hi8 : i ≤ 8) (ho8 : o ≤ 8) (hcoarse : ∀ v ∈ coarse, v.toNat < 2 ^ o) :
    ∃ fine, convertBits i coarse o true = some fine ∧ (∀ v ∈ fine, v.toNat < 2 ^ i) ∧
      Regroups i o (fine.map UInt8.toNat) (coarse.map UInt8.toNat) := by
  obtain ⟨hval, hbits, hemitted⟩ := convertLoop_spec hi hi8 ho8 hcoarse
  unfold convertBits
  generalize convertLoop i o coarse = acc at hval hbits hemitted ⊢
  obtain ⟨val, bits, out⟩ := acc
  dsimp only at hval hbits hemitted ⊢
  by_cases hzero : bits = 0
  · subst hzero
    refine ⟨out, rfl, hemitted.lt, 0, hi, ?_, ?_⟩
    · rw [List.length_map, List.length_map, Nat.add_zero]
      exact hemitted.length
    · rw [hemitted.value_eq, pow_zero, Nat.div_one, Nat.mul_one]
  have hrest := toNat_rest hi8 (Nat.sub_le i bits) hval
  generalize (val <<< UInt32.ofNat (i - bits)) &&& ((1 <<< UInt32.ofNat i) - 1) = rest at hrest ⊢
  generalize hn : value (2 ^ o) (coarse.map UInt8.toNat) = n at hemitted hrest
  have hlt : n * 2 ^ (i - bits) % 2 ^ i < 2 ^ i := Nat.mod_lt _ (Nat.two_pow_pos _)
  have hlast : rest.toUInt8.toNat = n * 2 ^ (i - bits) % 2 ^ i := by
    have hbyte : 2 ^ i ≤ 2 ^ 8 := Nat.pow_le_pow_right (by omega) hi8
    rw [UInt32.toNat_toUInt8, hrest, Nat.mod_eq_of_lt (hlt.trans_le hbyte)]
  refine ⟨out ++ [rest.toUInt8], by simp [hzero], ?_, i - bits, by omega, ?_, ?_⟩
  · intro v hv
    rcases List.mem_append.mp hv with hold | hnew
    · exact hemitted.lt v hold
    · rwa [List.mem_singleton.mp hnew, hlast]
  · have hlength := hemitted.length
    rw [List.length_map, List.length_map, List.length_append, List.length_singleton, Nat.add_mul, Nat.one_mul]
    omega
  · have hquotient : n / 2 ^ bits = n * 2 ^ (i - bits) / 2 ^ i := by
      have hsplit : 2 ^ i = 2 ^ bits * 2 ^ (i - bits) := by rw [← pow_add, Nat.add_sub_cancel' hbits.le]
      rw [hsplit, Nat.mul_div_mul_right _ _ (Nat.two_pow_pos _)]
    rw [List.map_append, List.map_singleton, value_concat, hemitted.value_eq, hlast, hquotient, Nat.div_add_mod', hn]

lemma toNat_map_injective : Function.Injective (List.map UInt8.toNat) :=
  List.map_injective_iff.mpr fun _ _ => UInt8.toNat_inj.mp

lemma forall_mem_toNat {l : List UInt8} {bound : ℕ} (h : ∀ v ∈ l, v.toNat < bound) :
    ∀ d ∈ l.map UInt8.toNat, d < bound := by
  intro d hd
  obtain ⟨v, hv, rfl⟩ := List.mem_map.mp hd
  exact h v hv

/-- Without padding they become larger, where only zeros are left over. -/
lemma convertBits_noPad (hi : 0 < i) (hio : i ≤ o) (ho8 : o ≤ 8) (hfine : ∀ v ∈ fine, v.toNat < 2 ^ i) :
    convertBits o fine i false = some coarse ↔
      (∀ v ∈ coarse, v.toNat < 2 ^ o) ∧ Regroups i o (fine.map UInt8.toNat) (coarse.map UInt8.toNat) := by
  obtain ⟨hval, hbits, hemitted⟩ := convertLoop_spec (hi.trans_le hio) ho8 (hio.trans ho8) hfine
  have hrest := toNat_rest ho8 (Nat.sub_le o (convertLoop o i fine).2.1) hval
  unfold convertBits
  generalize convertLoop o i fine = acc at hval hbits hemitted hrest ⊢
  obtain ⟨val, bits, out⟩ := acc
  dsimp only at hval hbits hemitted hrest ⊢
  generalize (val <<< UInt32.ofNat (o - bits)) &&& ((1 <<< UInt32.ofNat o) - 1) = rest at hrest ⊢
  have hleft : rest = 0 ↔ value (2 ^ i) (fine.map UInt8.toNat) % 2 ^ bits = 0 := by
    have hsplit : 2 ^ o = 2 ^ bits * 2 ^ (o - bits) := by rw [← pow_add, Nat.add_sub_cancel' hbits.le]
    have hpos := Nat.two_pow_pos (o - bits)
    rw [← UInt32.toNat_inj, hrest, hsplit, Nat.mul_mod_mul_right]
    exact (Nat.mul_eq_zero.trans (or_iff_left hpos.ne'))
  have hsome : (if rest != 0 || bits ≥ i then none else some out) = some coarse ↔
      (rest = 0 ∧ bits < i) ∧ out = coarse := by
    by_cases hok : rest = 0 ∧ bits < i
    · rw [if_neg (by simpa using hok), Option.some.injEq, and_iff_right hok]
    · have hbad : rest ≠ 0 ∨ bits ≥ i := (not_and_or.mp hok).imp_right Nat.le_of_not_lt
      rw [if_pos (by simpa using hbad)]
      exact iff_of_false (by simp) fun h => hok h.1
  rw [if_neg (by simp), hsome, hleft]
  have hlength := hemitted.length
  constructor
  · rintro ⟨⟨hmod, hlt⟩, rfl⟩
    refine ⟨hemitted.lt, bits, hlt, ?_, ?_⟩
    · rw [List.length_map, List.length_map, hlength]
    · rw [hemitted.value_eq, Nat.div_mul_cancel (Nat.dvd_of_mod_eq_zero hmod)]
  · rintro ⟨hcoarse, p, hp, hcount, hvalue⟩
    rw [List.length_map, List.length_map, ← hlength] at hcount
    obtain ⟨hsame, rfl⟩ := eq_of_mul_add_eq hbits (hp.trans_le hio) hcount
    refine ⟨⟨by rw [hvalue, Nat.mul_mod_left], hp⟩, toNat_map_injective ?_⟩
    refine eq_of_value_eq (one_lt_two_pow (hi.trans_le hio)) (forall_mem_toNat hemitted.lt) (forall_mem_toNat hcoarse)
      (by rw [List.length_map, List.length_map, hsame]) ?_
    rw [hemitted.value_eq, hvalue, Nat.mul_div_cancel _ (Nat.two_pow_pos _)]

/-- Widening without padding is the inverse of narrowing with it. -/
lemma convertBits_iff (hi : 0 < i) (hio : i ≤ o) (ho8 : o ≤ 8) (hfine : ∀ v ∈ fine, v.toNat < 2 ^ i)
    (hcoarse : ∀ v ∈ coarse, v.toNat < 2 ^ o) :
    convertBits o fine i false = some coarse ↔ convertBits i coarse o true = some fine := by
  obtain ⟨fine', hpad, hfine', hregroups⟩ := convertBits_pad hi (hio.trans ho8) ho8 hcoarse
  rw [convertBits_noPad hi hio ho8 hfine, hpad, Option.some.injEq]
  constructor
  · rintro ⟨-, h⟩
    exact toNat_map_injective (hregroups.fine_unique (forall_mem_toNat hfine') (forall_mem_toNat hfine) h)
  · rintro rfl
    exact ⟨hcoarse, hregroups⟩

/-! ### Addresses -/

lemma toNat_lt_256 (l : List UInt8) : ∀ v ∈ l, v.toNat < 2 ^ 8 := fun v _ => v.toNat_lt

/-- What both directions ask of a version and a program. -/
structure Witness (v : UInt8) (program : List UInt8) : Prop where
  version_le : v.toNat ≤ 16
  two_le : 2 ≤ program.length
  length_le : program.length ≤ 40
  hash : v = 0 → program.length = 20 ∨ program.length = 32

/-- The three tests, as both directions make them. -/
lemma witness_iff {v : UInt8} {program : List UInt8} :
    Witness v program ↔ ¬(v == 0 && program.length != 20 && program.length != 32) = true ∧
      ¬(program.length < 2 || program.length > 40) = true ∧ ¬16 < v.toNat := by
  have hhash : (v == 0 && program.length != 20 && program.length != 32) = true ↔
      v = 0 ∧ program.length ≠ 20 ∧ program.length ≠ 32 := by
    simp [and_assoc]
  have hlength : (program.length < 2 || program.length > 40) = true ↔ program.length < 2 ∨ 40 < program.length := by
    simp
  rw [hhash, hlength]
  constructor
  · intro h
    have htwo := h.two_le
    have hle := h.length_le
    refine ⟨fun hbad => ?_, by omega, by have := h.version_le; omega⟩
    rcases h.hash hbad.1 with h20 | h32
    · exact hbad.2.1 h20
    · exact hbad.2.2 h32
  · rintro ⟨hhash, hlength, hversion⟩
    refine ⟨by omega, by omega, by omega, fun hv => ?_⟩
    by_contra hneither
    exact hhash ⟨hv, not_or.mp hneither⟩

lemma hrp_eq_iff {hrp hrpActual : Str} (h : hrpActual.length < 84) : hrp.take 84 = hrpActual.take 84 ↔ hrp = hrpActual := by
  refine ⟨fun heq => ?_, fun heq => by rw [heq]⟩
  have hlength := congrArg List.length heq
  rw [List.length_take, List.length_take] at hlength
  rwa [List.take_of_length_le h.le, List.take_of_length_le (by omega)] at heq

/-- The version and the program of an accepted address are the groups behind the checksum. -/
lemma segwitAddrDecode_eq_some {hrp addr : Str} {version : Int} {program : List UInt8} :
    segwitAddrDecode hrp addr = some (version, program) ↔
      ∃ v syms, bech32Decode addr = some (hrp, v :: syms) ∧ syms.length ≤ 64 ∧
        convertBits 8 syms 5 false = some program ∧ Witness v program ∧ version = v.toNat := by
  unfold segwitAddrDecode
  cases hdecode : bech32Decode addr with
  | none => simp
  | some decoded =>
    obtain ⟨hrpActual, data⟩ := decoded
    have hshort : hrpActual.length < 84 := by
      have hencode := ((bech32Decode_iff_bech32Encode _ _ _).mp hdecode).2.1
      have hle := (bech32Encode_eq_some.mp hencode).2.1
      omega
    cases data with
    | nil => simp
    | cons v syms =>
      have hversion : v > 16 ↔ 16 < v.toNat := UInt8.lt_iff_toNat_lt
      have hexists : (∃ v' syms', some (hrpActual, v :: syms) = some (hrp, v' :: syms') ∧ syms'.length ≤ 64 ∧
          convertBits 8 syms' 5 false = some program ∧ Witness v' program ∧ version = v'.toNat) ↔
          hrp = hrpActual ∧ syms.length ≤ 64 ∧ convertBits 8 syms 5 false = some program ∧ Witness v program ∧
            version = v.toNat := by
        constructor
        · rintro ⟨v', syms', heq, hrest⟩
          cases heq
          exact ⟨rfl, hrest⟩
        · rintro ⟨rfl, hrest⟩
          exact ⟨v, syms, rfl, hrest⟩
      rw [hexists]
      dsimp only
      generalize hhead : (v :: syms).headD 0 = version'
      obtain rfl : v = version' := hhead
      rw [List.tail_cons]
      by_cases hlong : syms.length ≤ 64
      · rw [if_neg (by simpa [Nat.lt_succ_iff] using hlong)]
        by_cases hname : hrp = hrpActual
        · rw [if_neg (by simpa using (hrp_eq_iff hshort).mpr hname)]
          by_cases hlarge : v > 16
          · rw [if_pos hlarge]
            refine iff_of_false (by simp) fun h => ?_
            exact (witness_iff.mp h.2.2.2.1).2.2 (hversion.mp hlarge)
          rw [if_neg hlarge]
          cases hconvert : convertBits 8 syms 5 false with
          | none => simp
          | some witdata =>
            have hsame : some witdata = some program ↔ witdata = program := by rw [Option.some.injEq]
            dsimp only
            rw [hsame]
            by_cases hlength : (witdata.length < 2 || witdata.length > 40) = true
            · rw [if_pos hlength]
              refine iff_of_false (by simp) ?_
              rintro ⟨-, -, rfl, hwitness, -⟩
              exact (witness_iff.mp hwitness).2.1 hlength
            rw [if_neg hlength]
            by_cases hhash : (v == 0 && witdata.length != 20 && witdata.length != 32) = true
            · rw [if_pos hhash]
              refine iff_of_false (by simp) ?_
              rintro ⟨-, -, rfl, hwitness, -⟩
              exact (witness_iff.mp hwitness).1 hhash
            rw [if_neg hhash, Option.some.injEq, Prod.mk.injEq]
            constructor
            · rintro ⟨hver, rfl⟩
              exact ⟨hname, hlong, rfl, witness_iff.mpr ⟨hhash, hlength, fun h => hlarge (hversion.mpr h)⟩, hver.symm⟩
            · rintro ⟨-, -, rfl, -, hver⟩
              exact ⟨hver.symm, rfl⟩
        · rw [if_pos (by simpa using fun h => hname ((hrp_eq_iff hshort).mp h))]
          exact iff_of_false (by simp) fun h => hname h.1
      · rw [if_pos (by simp; omega)]
        exact iff_of_false (by simp) fun h => hlong h.2.1

lemma segwitAddrEncode_eq_some {hrp s : Str} {v : UInt8} {program : List UInt8} :
    segwitAddrEncode hrp v.toNat program = some s ↔
      ∃ syms, convertBits 5 program 8 true = some syms ∧ bech32Encode hrp (v :: syms) = some s ∧ Witness v program := by
  obtain ⟨syms, hpad, -, -⟩ := convertBits_pad (i := 5) (o := 8) (by omega) (by omega) (by omega) (toNat_lt_256 program)
  have hv : UInt8.ofInt v.toNat = v := by
    have hlt := v.toNat_lt
    have hmod : ((v.toNat : Int) % 2 ^ 8).toNat = v.toNat := by omega
    rw [UInt8.ofInt, hmod, UInt8.ofNat_toNat]
  have hzero : ((v.toNat : Int) == 0) = (v == 0) := by
    rw [Bool.eq_iff_iff, beq_iff_eq, beq_iff_eq, ← UInt8.toNat_inj, UInt8.toNat_zero]
    omega
  have hexists : (∃ syms', some syms = some syms' ∧ bech32Encode hrp (v :: syms') = some s ∧ Witness v program) ↔
      bech32Encode hrp (v :: syms) = some s ∧ Witness v program := by
    constructor
    · rintro ⟨syms', heq, h⟩
      cases heq
      exact h
    · exact fun h => ⟨syms, rfl, h⟩
  unfold segwitAddrEncode
  rw [hpad, Option.getD_some, hv, hzero, hexists, witness_iff]
  by_cases hlarge : 16 < v.toNat
  · rw [if_pos (by omega)]
    exact iff_of_false (by simp) fun h => h.2.2.2 hlarge
  rw [if_neg (by omega)]
  by_cases hhash : (v == 0 && program.length != 20 && program.length != 32) = true
  · rw [if_pos hhash]
    exact iff_of_false (by simp) fun h => h.2.1 hhash
  rw [if_neg hhash]
  by_cases hlength : (program.length < 2 || program.length > 40) = true
  · rw [if_pos hlength]
    exact iff_of_false (by simp) fun h => h.2.2.1 hlength
  rw [if_neg hlength, and_iff_left ⟨hhash, hlength, hlarge⟩]

/-- An address is accepted, with a version and a program, exactly when its lower case is the address the
encoder writes for them, and it has one case. -/
theorem segwitAddrDecode_iff_segwitAddrEncode (hrp addr : Str) (version : Int) (program : List UInt8) :
    segwitAddrDecode hrp addr = some (version, program) ↔
      hrp ≠ [] ∧ 0 ≤ version ∧ segwitAddrEncode hrp version program = some (addr.map lowered) ∧
        mixedCase addr = false := by
  have hregroup {v : UInt8} {syms : List UInt8} {s : Str} (h : bech32Encode hrp (v :: syms) = some s) :
      convertBits 8 syms 5 false = some program ↔ convertBits 5 program 8 true = some syms := by
    have hlt := (bech32Encode_eq_some.mp h).2.2.1
    exact convertBits_iff (by omega) (by omega) le_rfl (fun w hw => hlt w (List.mem_cons_of_mem _ hw))
      (toNat_lt_256 program)
  constructor
  · intro h
    obtain ⟨v, syms, hdecode, -, hwide, hwitness, rfl⟩ := segwitAddrDecode_eq_some.mp h
    obtain ⟨hne, hencode, hcase⟩ := (bech32Decode_iff_bech32Encode _ _ _).mp hdecode
    exact ⟨hne, by omega, segwitAddrEncode_eq_some.mpr ⟨syms, (hregroup hencode).mp hwide, hencode, hwitness⟩, hcase⟩
  · rintro ⟨hne, hnonneg, h, hcase⟩
    have hversion : version ≤ 16 := by
      by_contra hlarge
      unfold segwitAddrEncode at h
      rw [if_pos (by omega)] at h
      cases h
    obtain ⟨v, rfl⟩ : ∃ v : UInt8, version = v.toNat := by
      refine ⟨UInt8.ofNat version.toNat, ?_⟩
      have hsmall : version.toNat < 256 := by omega
      rw [UInt8.toNat_ofNat', Nat.mod_eq_of_lt hsmall]
      omega
    obtain ⟨syms, hnarrow, hencode, hwitness⟩ := segwitAddrEncode_eq_some.mp h
    have hwide := (hregroup hencode).mpr hnarrow
    have hlt := (bech32Encode_eq_some.mp hencode).2.2.1
    obtain ⟨-, p, hp, hlength, -⟩ := (convertBits_noPad (by omega) (by omega) le_rfl
      fun w hw => hlt w (List.mem_cons_of_mem _ hw)).mp hwide
    rw [List.length_map, List.length_map] at hlength
    have hle := hwitness.length_le
    exact segwitAddrDecode_eq_some.mpr ⟨v, syms, (bech32Decode_iff_bech32Encode _ _ _).mpr ⟨hne, hencode, hcase⟩,
      by omega, hwide, hwitness, rfl⟩

end ContractPython.Btc
