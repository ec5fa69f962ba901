import ContractPython.Lib.Digits
import ContractPython.Model.Base58

/-!
# Base58 is a change of the base

The encoder and the decoder of base58 compute with carries in buffers of a fixed size. Both write
the same number in another base, with as many zeros in front, and neither leaves its buffer.
-/

namespace ContractPython.Btc

open Digits

/-! ### Words -/

/-- An octet of a word: shifted and masked, or masked and shifted. -/
lemma toNat_shifted (word k : UInt32) (hk : k.toNat < 32) :
    ((word >>> k) &&& 0xff).toUInt8.toNat = word.toNat / 2 ^ k.toNat % 256 := by
  have hmask : (0xff : UInt32).toNat = 2 ^ 8 - 1 := rfl
  rw [UInt32.toNat_toUInt8, UInt32.toNat_and, UInt32.toNat_shiftRight, Nat.mod_eq_of_lt hk, hmask,
    Nat.and_two_pow_sub_one_eq_mod, Nat.shiftRight_eq_div_pow]
  omega

lemma toNat_masked (word mask k : UInt32) (hk : k.toNat < 32) (hmask : mask.toNat >>> k.toNat = 2 ^ 8 - 1) :
    ((word &&& mask) >>> k).toUInt8.toNat = word.toNat / 2 ^ k.toNat % 256 := by
  rw [UInt32.toNat_toUInt8, UInt32.toNat_shiftRight, UInt32.toNat_and, Nat.mod_eq_of_lt hk,
    Nat.shiftRight_and_distrib, hmask, Nat.and_two_pow_sub_one_eq_mod, Nat.shiftRight_eq_div_pow]
  omega

lemma value_wordOctets (word : UInt32) : value 256 ((wordOctets word).map UInt8.toNat) = word.toNat := by
  have hlt := word.toNat_lt
  have h0 : (0 : UInt32).toNat = 0 := rfl
  have h8 : (8 : UInt32).toNat = 8 := rfl
  have h16 : (0x10 : UInt32).toNat = 16 := rfl
  have h24 : (0x18 : UInt32).toNat = 24 := rfl
  simp only [wordOctets, List.map_cons, List.map_nil, value_cons, value_nil, List.length_cons, List.length_nil]
  rw [toNat_shifted _ _ (by rw [h24]; omega), toNat_shifted _ _ (by rw [h16]; omega),
    toNat_shifted _ _ (by rw [h8]; omega), toNat_shifted _ _ (by rw [h0]; omega), h0, h8, h16, h24]
  omega

/-- The words of a number are read as four octets each. -/
lemma value_flatMap_wordOctets (outi : List UInt32) :
    value 256 ((outi.flatMap wordOctets).map UInt8.toNat) = value (2 ^ 32) (outi.map UInt32.toNat) := by
  induction outi with
  | nil => rfl
  | cons word rest ih =>
    have hlength : ((rest.flatMap wordOctets).map UInt8.toNat).length = 4 * rest.length := by
      rw [List.length_map, List.length_flatMap]
      simp [wordOctets, Nat.mul_comm]
    have hbase : (256 : ℕ) ^ 4 = 2 ^ 32 := by norm_num
    rw [List.flatMap_cons, List.map_append, value_append, value_wordOctets, ih, hlength, List.map_cons, value_cons,
      List.length_map, pow_mul, hbase]

/-- The number 58 times as large, and the carry that comes in, are what is kept and what is carried out. -/
lemma value_mulAdd (outi : List UInt32) (c : UInt32) (hc : c.toNat < 64) :
    (mulAdd outi c).1.length = outi.length ∧ (mulAdd outi c).2.toNat < 64 ∧
      (mulAdd outi c).2.toNat * (2 ^ 32) ^ outi.length + value (2 ^ 32) ((mulAdd outi c).1.map UInt32.toNat) =
        value (2 ^ 32) (outi.map UInt32.toNat) * 58 + c.toNat := by
  induction outi with
  | nil => simpa [mulAdd] using hc
  | cons word rest ih =>
    obtain ⟨hlength, hcarry, hvalue⟩ := ih
    have hstep : mulAdd (word :: rest) c =
        (((word.toUInt64 * 58 + (mulAdd rest c).2.toUInt64) &&& 0xffffffff).toUInt32 :: (mulAdd rest c).1,
          (((word.toUInt64 * 58 + (mulAdd rest c).2.toUInt64) &&& 0x3f00000000) >>> 32).toUInt32) := rfl
    have hword := word.toNat_lt
    have ht : (word.toUInt64 * 58 + (mulAdd rest c).2.toUInt64).toNat = word.toNat * 58 + (mulAdd rest c).2.toNat := by
      have h58 : (58 : UInt64).toNat = 58 := rfl
      rw [UInt64.toNat_add, UInt64.toNat_mul, UInt32.toNat_toUInt64, UInt32.toNat_toUInt64, h58]
      omega
    generalize word.toUInt64 * 58 + (mulAdd rest c).2.toUInt64 = t at hstep ht
    have hlow : (t &&& 0xffffffff).toUInt32.toNat = t.toNat % 2 ^ 32 := by
      have hmask : (0xffffffff : UInt64).toNat = 2 ^ 32 - 1 := rfl
      rw [UInt64.toNat_toUInt32, UInt64.toNat_and, hmask, Nat.and_two_pow_sub_one_eq_mod]
      omega
    have hhigh : ((t &&& 0x3f00000000) >>> 32).toUInt32.toNat = t.toNat / 2 ^ 32 := by
      have hmask : (0x3f00000000 : UInt64).toNat >>> 32 = 2 ^ 6 - 1 := rfl
      have hshift : (32 : UInt64).toNat % 64 = 32 := rfl
      have hlt : t.toNat / 2 ^ 32 < 64 := Nat.div_lt_of_lt_mul (by omega)
      rw [UInt64.toNat_toUInt32, UInt64.toNat_shiftRight, UInt64.toNat_and, hshift, Nat.shiftRight_and_distrib,
        hmask, Nat.and_two_pow_sub_one_eq_mod, Nat.shiftRight_eq_div_pow, Nat.mod_eq_of_lt hlt,
        Nat.mod_eq_of_lt (by omega)]
    rw [hstep]
    refine ⟨by rw [List.length_cons, List.length_cons, hlength], by rw [hhigh]; omega, ?_⟩
    rw [List.map_cons, List.map_cons, value_cons, value_cons, List.length_map, List.length_map, hlength, hlow, hhigh]
    have hsplit : t.toNat / 2 ^ 32 * (2 ^ 32) ^ (rest.length + 1) + t.toNat % 2 ^ 32 * (2 ^ 32) ^ rest.length =
        t.toNat * (2 ^ 32) ^ rest.length := by
      generalize 2 ^ 32 = base
      conv_rhs => rw [← Nat.div_add_mod' t.toNat base]
      ring
    calc t.toNat / 2 ^ 32 * (2 ^ 32) ^ (rest.length + 1) + (t.toNat % 2 ^ 32 * (2 ^ 32) ^ rest.length +
          value (2 ^ 32) ((mulAdd rest c).1.map UInt32.toNat))
        = t.toNat * (2 ^ 32) ^ rest.length + value (2 ^ 32) ((mulAdd rest c).1.map UInt32.toNat) := by
          rw [← Nat.add_assoc, hsplit]
      _ = word.toNat * (2 ^ 32) ^ rest.length * 58 + ((mulAdd rest c).2.toNat * (2 ^ 32) ^ rest.length +
          value (2 ^ 32) ((mulAdd rest c).1.map UInt32.toNat)) := by
          rw [ht]
          ring
      _ = (word.toNat * (2 ^ 32) ^ rest.length + value (2 ^ 32) (rest.map UInt32.toNat)) * 58 + c.toNat := by
          rw [hvalue]
          ring

/-! ### The decoder -/

/-- The character of a digit. -/
def symbol (d : ℕ) : UInt8 := b58digitsOrdered.getD d 0

lemma digitOf_symbol (unwritten : Unwritten) {d : ℕ} (hd : d < 58) :
    symbol d &&& 0x80 = 0 ∧ digitOf unwritten (symbol d) = d := by
  have hmap : ∀ d < 58, symbol d &&& 0x80 = 0 ∧ b58digitsMap[(symbol d).toNat]? = some (d : Int) := by decide +kernel
  obtain ⟨hlow, hdigit⟩ := hmap d hd
  exact ⟨hlow, by rw [digitOf, List.getD_eq_getElem?_getD, hdigit, Option.getD_some]⟩

lemma exists_digits {s : Str} (h : ∀ ch ∈ s, ch ∈ b58digitsOrdered) :
    ∃ ds : List ℕ, (∀ d ∈ ds, d < 58) ∧ s = ds.map symbol := by
  induction s with
  | nil => exact ⟨[], by simp, rfl⟩
  | cons ch s ih =>
    obtain ⟨ds, hds, rfl⟩ := ih fun ch hch => h ch (List.mem_cons_of_mem _ hch)
    obtain ⟨d, hd, hch⟩ := List.getElem_of_mem (h ch List.mem_cons_self)
    have hlength : b58digitsOrdered.length = 58 := by decide
    refine ⟨d :: ds, List.forall_mem_cons.mpr ⟨hlength ▸ hd, hds⟩, ?_⟩
    rw [List.map_cons, symbol, List.getD_eq_getElem?_getD, List.getElem?_eq_getElem hd, hch]
    rfl

/-- The words hold a number of at most `binsz` octets. -/
structure Holds (binsz : ℕ) (outi : List UInt32) (v : ℕ) : Prop where
  length : outi.length = (binsz + 3) / 4
  value_eq : value (2 ^ 32) (outi.map UInt32.toNat) = v
  lt : v < 256 ^ binsz

lemma two_pow_32_pow (n : ℕ) : (2 ^ 32) ^ n = 256 ^ (4 * n) := by
  rw [pow_mul]
  norm_num

/-- The first word holds the octets that do not fill a word. -/
lemma Holds.head_lt {binsz v : ℕ} {word : UInt32} {rest : List UInt32} (h : Holds binsz (word :: rest) v)
    (hleft : binsz % 4 ≠ 0) : word.toNat < 256 ^ (binsz % 4) := by
  have hlength := h.length
  rw [List.length_cons] at hlength
  have hbinsz : binsz = binsz % 4 + 4 * rest.length := by omega
  have hvalue := h.value_eq
  rw [List.map_cons, value_cons, List.length_map] at hvalue
  have hlt : word.toNat * (2 ^ 32) ^ rest.length < 256 ^ (binsz % 4) * (2 ^ 32) ^ rest.length := by
    calc word.toNat * (2 ^ 32) ^ rest.length ≤ v := by omega
      _ < 256 ^ binsz := h.lt
      _ = 256 ^ (binsz % 4) * (2 ^ 32) ^ rest.length := by
        rw [two_pow_32_pow, ← pow_add, ← hbinsz]
  exact Nat.lt_of_mul_lt_mul_right hlt

lemma and_zeromask {word : UInt32} {k : ℕ} (hk : k < 4) (h : word.toNat < 256 ^ k) :
    word &&& 0xffffffff <<< UInt32.ofNat (k * 8) = 0 := by
  have hmask : ∀ k < 4, ((0xffffffff : UInt32) <<< UInt32.ofNat (k * 8)).toNat = (2 ^ (32 - 8 * k) - 1) <<< (8 * k) := by
    decide
  have hpow : (256 : ℕ) ^ k = 2 ^ (8 * k) := by
    rw [pow_mul]
    norm_num
  rw [← UInt32.toNat_inj, UInt32.toNat_and, hmask k hk]
  apply Nat.eq_of_testBit_eq
  intro i
  rw [Nat.testBit_and, Nat.testBit_shiftLeft]
  by_cases hi : 8 * k ≤ i
  · have hbit : word.toNat.testBit i = false :=
      Nat.testBit_lt_two_pow ((hpow ▸ h).trans_le (Nat.pow_le_pow_right (by omega) hi))
    rw [hbit]
    simp
  · simp [hi]

/-- The mask of the octets above the number. -/
def zeromask (binsz : ℕ) : UInt32 :=
  if binsz % 4 != 0 then 0xffffffff <<< UInt32.ofNat (binsz % 4 * 8) else 0

lemma Holds.masked {binsz v : ℕ} {outi : List UInt32} (h : Holds binsz outi v) :
    outi.headD 0 &&& zeromask binsz = 0 := by
  unfold zeromask
  by_cases hleft : binsz % 4 = 0
  · simp [hleft]
  · rw [if_pos (by simpa using hleft)]
    cases outi with
    | nil => simp
    | cons word rest => exact and_zeromask (Nat.mod_lt _ (by omega)) (h.head_lt hleft)

/-- One digit more, while the number fits. -/
lemma Holds.decodeDigit (unwritten : Unwritten) {binsz v d : ℕ} {outi : List UInt32} (h : Holds binsz outi v)
    (hd : d < 58) (hfits : v * 58 + d < 256 ^ binsz) :
    ∃ outi', decodeDigit unwritten (zeromask binsz) outi (symbol d) = some outi' ∧ Holds binsz outi' (v * 58 + d) := by
  obtain ⟨hlow, hdigit⟩ := digitOf_symbol unwritten hd
  have hc : (UInt32.ofNat d).toNat = d := by
    rw [UInt32.toNat_ofNat']
    omega
  obtain ⟨hlength, -, hvalue⟩ := value_mulAdd outi (UInt32.ofNat d) (by rw [hc]; omega)
  rw [hc, h.value_eq] at hvalue
  have hfull : 256 ^ binsz ≤ (2 ^ 32) ^ outi.length := by
    rw [two_pow_32_pow, h.length]
    exact Nat.pow_le_pow_right (by omega) (by omega)
  have hcarry : (mulAdd outi (UInt32.ofNat d)).2 = 0 := by
    rw [← UInt32.toNat_inj]
    show _ = 0
    by_contra hne
    have hle := Nat.mul_le_mul_right ((2 ^ 32) ^ outi.length) (Nat.one_le_iff_ne_zero.mpr hne)
    omega
  have hholds : Holds binsz (mulAdd outi (UInt32.ofNat d)).1 (v * 58 + d) := by
    refine ⟨hlength.trans h.length, ?_, hfits⟩
    rw [hcarry] at hvalue
    simpa using hvalue
  refine ⟨_, ?_, hholds⟩
  unfold Btc.decodeDigit
  rw [hdigit, Int.toNat_natCast, hlow, if_neg (by simp), if_neg (by simp)]
  dsimp only
  rw [hcarry, if_neg (by simp), hholds.masked, if_neg (by simp)]

/-- The loop over the digits. -/
lemma Holds.decodeDigits (unwritten : Unwritten) {binsz : ℕ} (ds : List ℕ) (hds : ∀ d ∈ ds, d < 58) {v : ℕ}
    {outi : List UInt32} (h : Holds binsz outi v) (hfits : v * 58 ^ ds.length + value 58 ds < 256 ^ binsz) :
    ∃ outi', (ds.map symbol).foldlM (Btc.decodeDigit unwritten (zeromask binsz)) outi = some outi' ∧
      Holds binsz outi' (v * 58 ^ ds.length + value 58 ds) := by
  induction ds generalizing v outi with
  | nil => exact ⟨outi, rfl, by simpa using h⟩
  | cons d ds ih =>
    have hsplit : v * 58 ^ (d :: ds).length + value 58 (d :: ds) = (v * 58 + d) * 58 ^ ds.length + value 58 ds := by
      rw [value_cons, List.length_cons, pow_succ]
      ring
    rw [hsplit] at hfits ⊢
    have hone : v * 58 + d < 256 ^ binsz := by
      have hle := Nat.le_mul_of_pos_right (v * 58 + d) (Nat.pow_pos (n := ds.length) (show 0 < 58 by omega))
      omega
    obtain ⟨outi₁, hdigit, hholds⟩ := h.decodeDigit unwritten (hds d List.mem_cons_self) hone
    obtain ⟨outi₂, hrest, hend⟩ := ih (fun d hd => hds d (List.mem_cons_of_mem _ hd)) hholds hfits
    refine ⟨outi₂, ?_, hend⟩
    rw [List.map_cons, List.foldlM_cons, hdigit]
    exact hrest

/-- The octets that are written spell the number. -/
lemma Holds.outputOctets {binsz v : ℕ} {outi : List UInt32} (h : Holds binsz outi v) :
    (outputOctets (binsz % 4) outi).length = binsz ∧
      value 256 ((Btc.outputOctets (binsz % 4) outi).map UInt8.toNat) = v := by
  have hlength := h.length
  have hvalue := h.value_eq
  cases outi with
  | nil =>
    rw [List.length_nil] at hlength
    exact ⟨by simp [Btc.outputOctets]; omega, hvalue⟩
  | cons word rest =>
    rw [List.length_cons] at hlength
    rw [List.map_cons, value_cons, List.length_map, two_pow_32_pow] at hvalue
    have hrest : (rest.flatMap wordOctets).length = 4 * rest.length := by
      rw [List.length_flatMap]
      simp [wordOctets, Nat.mul_comm]
    -- the octets of the first word, and four for each other word
    have hout (first : List UInt8) (hfirst : Btc.outputOctets (binsz % 4) (word :: rest) = first ++ rest.flatMap wordOctets)
        (hsize : first.length + 4 * rest.length = binsz) (hword : value 256 (first.map UInt8.toNat) = word.toNat) :
        (Btc.outputOctets (binsz % 4) (word :: rest)).length = binsz ∧
          value 256 ((Btc.outputOctets (binsz % 4) (word :: rest)).map UInt8.toNat) = v := by
      rw [hfirst, List.length_append, hrest, List.map_append, value_append, hword, List.length_map, hrest,
        value_flatMap_wordOctets]
      exact ⟨hsize, hvalue⟩
    have hhead := h.head_lt
    have h0 : (word &&& 0xff).toUInt8.toNat = word.toNat % 256 := by
      have hmask : (0xff : UInt32).toNat = 2 ^ 8 - 1 := rfl
      rw [UInt32.toNat_toUInt8, UInt32.toNat_and, hmask, Nat.and_two_pow_sub_one_eq_mod]
      omega
    have h8 : ((word &&& 0xff00) >>> 8).toUInt8.toNat = word.toNat / 2 ^ 8 % 256 :=
      toNat_masked word 0xff00 8 (by decide) (by decide)
    have h16 : ((word &&& 0xff0000) >>> 16).toUInt8.toNat = word.toNat / 2 ^ 16 % 256 :=
      toNat_masked word 0xff0000 16 (by decide) (by decide)
    have hleft : binsz % 4 = 0 ∨ binsz % 4 = 1 ∨ binsz % 4 = 2 ∨ binsz % 4 = 3 := by omega
    rcases hleft with hleft | hleft | hleft | hleft <;> rw [hleft] at hout hhead ⊢
    · exact hout (wordOctets word) rfl (by simp [wordOctets]; omega) (value_wordOctets word)
    · refine hout [(word &&& 0xff).toUInt8] rfl (by simp; omega) ?_
      simp only [List.map_cons, List.map_nil, value_cons, value_nil, List.length_nil, h0]
      omega
    · refine hout [((word &&& 0xff00) >>> 8).toUInt8, (word &&& 0xff).toUInt8] rfl (by simp; omega) ?_
      simp only [List.map_cons, List.map_nil, value_cons, value_nil, List.length_cons, List.length_nil, h0, h8]
      omega
    · refine hout [((word &&& 0xff0000) >>> 16).toUInt8, ((word &&& 0xff00) >>> 8).toUInt8, (word &&& 0xff).toUInt8]
        rfl (by simp; omega) ?_
      simp only [List.map_cons, List.map_nil, value_cons, value_nil, List.length_cons, List.length_nil, h0, h8, h16]
      omega

lemma zeros_map_toNat (l : List UInt8) : zeros (l.map UInt8.toNat) = (l.takeWhile (· == 0)).length := by
  induction l with
  | nil => rfl
  | cons b l ih =>
    by_cases hb : b = 0
    · subst hb
      exact congrArg (· + 1) ih
    · have hne : b.toNat ≠ 0 := fun h => hb (UInt8.toNat_inj.mp h)
      simp [zeros, hb, hne]

lemma takeWhile_symbols (unwritten : Unwritten) {ds : List ℕ} (hds : ∀ d ∈ ds, d < 58) :
    ((ds.map symbol).takeWhile fun ch => digitOf unwritten ch == 0).length = zeros ds := by
  induction ds with
  | nil => rfl
  | cons d ds ih =>
    have hd := (digitOf_symbol unwritten (hds d List.mem_cons_self)).2
    have hrest := ih fun d hd => hds d (List.mem_cons_of_mem _ hd)
    by_cases hzero : d = 0
    · subst hzero
      rw [List.map_cons, List.takeWhile_cons_of_pos (by rw [hd]; rfl), List.length_cons, hrest]
      rfl
    · rw [List.map_cons, List.takeWhile_cons_of_neg (by rw [hd]; simpa using hzero)]
      simp [zeros, hzero]

/-- What the decoder gives for base58 digits: the same number in base 256, at the end of what it has written. -/
lemma btcBase58Decode_symbols (unwritten : Unwritten) {ds : List ℕ} (hds : ∀ d ∈ ds, d < 58) :
    ∃ bin binsize, btcBase58Decode unwritten ds.length (ds.map symbol) = some (bin, binsize) ∧
      bin.length = ds.length ∧ binsize ≤ ds.length ∧
      (bin.drop (ds.length - binsize)).map UInt8.toNat = rebase 58 256 ds := by
  have hstart : Holds ds.length (List.replicate ((ds.length + 3) / 4) 0) 0 := by
    refine ⟨List.length_replicate, ?_, Nat.pow_pos (by omega)⟩
    rw [List.map_replicate]
    exact value_replicate_zero _
  have hsignificant : ∀ d ∈ significant ds, d < 58 := fun d hd => hds d ((List.dropWhile_sublist _).mem hd)
  have hlt : value 58 ds < 256 ^ (significant ds).length := by
    rw [← value_significant]
    exact (value_lt (by omega) hsignificant).trans_le (Nat.pow_le_pow_left (by omega) _)
  have hadd := zeros_add_length ds
  obtain ⟨outi, hfold, hholds⟩ := hstart.decodeDigits unwritten (significant ds) hsignificant (by
    rw [Nat.zero_mul, Nat.zero_add, value_significant]
    exact hlt.trans_le (Nat.pow_le_pow_right (by omega) (by omega)))
  rw [Nat.zero_mul, Nat.zero_add, value_significant] at hholds
  obtain ⟨hlength, hvalue⟩ := hholds.outputOctets
  generalize hbin : outputOctets (ds.length % 4) outi = bin at hlength hvalue
  have hbytes : ∀ d ∈ bin.map UInt8.toNat, d < 256 := by
    intro d hd
    obtain ⟨b, -, rfl⟩ := List.mem_map.mp hd
    exact b.toNat_lt
  have hdigits := significant_eq (by omega) hbytes
  rw [hvalue] at hdigits
  have hshort : (Nat.digits 256 (value 58 ds)).length ≤ (significant ds).length :=
    (Nat.digits_length_le_iff (by omega) _).mpr hlt
  have hadd' := zeros_add_length (bin.map UInt8.toNat)
  rw [hdigits, List.length_reverse, List.length_map, hlength] at hadd'
  refine ⟨bin, ds.length - zeros (bin.map UInt8.toNat) + zeros ds, ?_, hlength, by omega, ?_⟩
  · unfold btcBase58Decode
    dsimp only
    rw [takeWhile_symbols unwritten hds, ← List.map_drop, drop_zeros]
    have hmask : (if ds.length % 4 != 0 then 0xffffffff <<< UInt32.ofNat (ds.length % 4 * 8) else 0) = zeromask ds.length := rfl
    rw [hmask, hfold, zeros_map_toNat]
    simp only [Option.bind_eq_bind, Option.bind_some, hbin]
  · have hsub : ds.length - (ds.length - zeros (bin.map UInt8.toNat) + zeros ds) = zeros (bin.map UInt8.toNat) - zeros ds := by
      omega
    rw [List.map_drop, hsub, drop_zeros_sub (by omega), hdigits]
    rfl

/-! ### The encoder -/

/-- The buffer, from its end, holds a number behind `high`, and zeros in front of it. -/
structure Written (size : ℕ) (acc : List UInt8 × ℕ) (v : ℕ) : Prop where
  length : acc.1.length = size
  used_le : acc.2 ≤ size
  digit_lt : ∀ d ∈ acc.1, d.toNat < 58
  zero : ∀ d ∈ acc.1.drop acc.2, d = 0
  value_eq : Nat.ofDigits 58 (acc.1.map UInt8.toNat) = v

lemma ofDigits_eq_zero {buf : List UInt8} (h : ∀ d ∈ buf, d = 0) : Nat.ofDigits 58 (buf.map UInt8.toNat) = 0 := by
  rw [List.eq_replicate_iff.mpr ⟨rfl, h⟩, List.map_replicate]
  exact Nat.ofDigits_replicate_zero

/-- One byte more, while the number fits. -/
lemma written_encodeByte (buf : List UInt8) {used carry v : ℕ} (h : Written buf.length (buf, used) v)
    (hfits : v * 256 + carry < 58 ^ buf.length) :
    ∃ acc, encodeByte used carry buf = some acc ∧ Written buf.length acc (v * 256 + carry) := by
  induction buf generalizing used carry v with
  | nil =>
    have hused : used = 0 := Nat.le_zero.mp h.used_le
    have hcarry : carry = 0 := by
      rw [List.length_nil, pow_zero] at hfits
      omega
    have hv : v = 0 := h.value_eq.symm
    subst hused hcarry hv
    exact ⟨([], 0), rfl, h⟩
  | cons d buf ih =>
    have hvalue := h.value_eq
    rw [List.map_cons, Nat.ofDigits_cons] at hvalue
    by_cases hdone : used = 0 ∧ carry = 0
    · obtain ⟨rfl, rfl⟩ := hdone
      have hv : v = 0 := by
        rw [← h.value_eq]
        exact ofDigits_eq_zero h.zero
      subst hv
      exact ⟨(d :: buf, 0), rfl, h⟩
    · have hrest : Written buf.length (buf, used - 1) (Nat.ofDigits 58 (buf.map UInt8.toNat)) := by
        refine ⟨rfl, ?_, fun d hd => h.digit_lt d (List.mem_cons_of_mem _ hd), fun e he => ?_, rfl⟩
        · have hle := h.used_le
          simp only [List.length_cons] at hle
          dsimp only
          omega
        · cases used with
          | zero => exact h.zero e (List.mem_cons_of_mem _ (List.mem_of_mem_drop he))
          | succ used => exact h.zero e he
      have hroom : Nat.ofDigits 58 (buf.map UInt8.toNat) * 256 + (carry + 256 * d.toNat) / 58 < 58 ^ buf.length := by
        rw [List.length_cons, pow_succ, ← hvalue] at hfits
        apply Nat.lt_of_mul_lt_mul_right (a := 58)
        have hle := Nat.div_mul_le_self (carry + 256 * d.toNat) 58
        linarith
      obtain ⟨acc, hencode, hwritten⟩ := ih hrest hroom
      have hstep : encodeByte used carry (d :: buf) =
          (encodeByte (used - 1) ((carry + 256 * d.toNat) / 58) buf).map fun acc =>
            (UInt8.ofNat ((carry + 256 * d.toNat) % 58) :: acc.1, acc.2 + 1) := by
        cases used with
        | zero =>
          cases carry with
          | zero => exact absurd ⟨rfl, rfl⟩ hdone
          | succ carry => rfl
        | succ used => rfl
      have hdigit : (UInt8.ofNat ((carry + 256 * d.toNat) % 58)).toNat = (carry + 256 * d.toNat) % 58 := by
        rw [UInt8.toNat_ofNat']
        omega
      refine ⟨(UInt8.ofNat ((carry + 256 * d.toNat) % 58) :: acc.1, acc.2 + 1), by rw [hstep, hencode]; rfl, ?_, ?_, ?_,
        hwritten.zero, ?_⟩
      · simp [hwritten.length]
      · have hle := hwritten.used_le
        simp only [List.length_cons]
        omega
      · refine List.forall_mem_cons.mpr ⟨?_, hwritten.digit_lt⟩
        rw [hdigit]
        omega
      · rw [List.map_cons, Nat.ofDigits_cons, hwritten.value_eq, hdigit]
        omega

/-- The loop over the bytes. -/
lemma Written.encodeBytes {size : ℕ} (bin : List UInt8) {acc : List UInt8 × ℕ} {v : ℕ} (h : Written size acc v)
    (hfits : v * 256 ^ bin.length + value 256 (bin.map UInt8.toNat) < 58 ^ size) :
    ∃ acc', bin.foldlM (fun acc byte => encodeByte acc.2 byte.toNat acc.1) acc = some acc' ∧
      Written size acc' (v * 256 ^ bin.length + value 256 (bin.map UInt8.toNat)) := by
  induction bin generalizing acc v with
  | nil => exact ⟨acc, rfl, by simpa using h⟩
  | cons byte bin ih =>
    have hsplit : v * 256 ^ (byte :: bin).length + value 256 ((byte :: bin).map UInt8.toNat) =
        (v * 256 + byte.toNat) * 256 ^ bin.length + value 256 (bin.map UInt8.toNat) := by
      rw [List.map_cons, value_cons, List.length_cons, List.length_map, pow_succ]
      ring
    rw [hsplit] at hfits ⊢
    have hone : v * 256 + byte.toNat < 58 ^ size := by
      have hle := Nat.le_mul_of_pos_right (v * 256 + byte.toNat) (Nat.pow_pos (n := bin.length) (show 0 < 256 by omega))
      omega
    obtain ⟨buf, used⟩ := acc
    obtain rfl : buf.length = size := h.length
    obtain ⟨acc₁, hbyte, hwritten⟩ := written_encodeByte buf h hone
    obtain ⟨acc₂, hrest, hend⟩ := ih hwritten hfits
    refine ⟨acc₂, ?_, hend⟩
    rw [List.foldlM_cons, hbyte]
    exact hrest

/-- The buffer is long enough: there are fewer than 1.38 digits of base 58 in a byte. -/
lemma pow_le_size (n : ℕ) : 256 ^ n ≤ 58 ^ (n * 138 / 100 + 1) := by
  have hrate : 256 ^ 100 ≤ 58 ^ 138 := by norm_num
  have hpow : (256 ^ n) ^ 100 ≤ (58 ^ (n * 138 / 100 + 1)) ^ 100 := by
    calc (256 ^ n) ^ 100 = (256 ^ 100) ^ n := by rw [← pow_mul, ← pow_mul, Nat.mul_comm]
      _ ≤ (58 ^ 138) ^ n := Nat.pow_le_pow_left hrate n
      _ = 58 ^ (138 * n) := by rw [← pow_mul]
      _ ≤ 58 ^ ((n * 138 / 100 + 1) * 100) := Nat.pow_le_pow_right (by omega) (by omega)
      _ = (58 ^ (n * 138 / 100 + 1)) ^ 100 := by rw [pow_mul]
  exact (Nat.pow_le_pow_iff_left (by omega)).mp hpow

/-- The bytes as base58 text. -/
def text (bin : List UInt8) : Str := (rebase 256 58 (bin.map UInt8.toNat)).map symbol

lemma map_dropWhile_toNat (l : List UInt8) :
    (l.dropWhile (· == 0)).map UInt8.toNat = significant (l.map UInt8.toNat) := by
  induction l with
  | nil => rfl
  | cons b l ih =>
    by_cases hb : b = 0
    · subst hb
      exact ih
    · have hne : b.toNat ≠ 0 := fun h => hb (UInt8.toNat_inj.mp h)
      simp [significant, hb, hne]

lemma toNat_lt_of_mem (bin : List UInt8) : ∀ d ∈ bin.map UInt8.toNat, d < 256 := by
  intro d hd
  obtain ⟨b, -, rfl⟩ := List.mem_map.mp hd
  exact b.toNat_lt

/-- The encoder writes the text, where it fits, and otherwise says what would fit. -/
lemma btcBase58Encode_eq (b58sz : ℕ) (bin : List UInt8) :
    btcBase58Encode b58sz bin =
      if b58sz ≤ (text bin).length then .error (.tooSmall ((text bin).length + 1)) else .ok (text bin) := by
  have hzcount := zeros_map_toNat bin
  have hadd := zeros_add_length (bin.map UInt8.toNat)
  rw [List.length_map] at hadd
  have hsig : (bin.drop (zeros (bin.map UInt8.toNat))).map UInt8.toNat = significant (bin.map UInt8.toNat) := by
    rw [List.map_drop, drop_zeros]
  have hcount : (bin.drop (zeros (bin.map UInt8.toNat))).length = bin.length - zeros (bin.map UInt8.toNat) :=
    List.length_drop
  have hlt := value_lt (by omega) (toNat_lt_of_mem (bin.drop (zeros (bin.map UInt8.toNat))))
  rw [List.length_map, hcount] at hlt
  have hfits := hlt.trans_le (pow_le_size (bin.length - zeros (bin.map UInt8.toNat)))
  generalize hsize : (bin.length - zeros (bin.map UInt8.toNat)) * 138 / 100 + 1 = size at hfits
  have hstart : Written size (List.replicate size 0, 0) 0 := by
    refine ⟨List.length_replicate, Nat.zero_le _, fun d hd => ?_, fun d hd => ?_, ?_⟩
    · rw [List.eq_of_mem_replicate hd]
      decide
    · exact List.eq_of_mem_replicate hd
    · exact ofDigits_eq_zero fun d hd => List.eq_of_mem_replicate hd
  obtain ⟨acc, hencode, hwritten⟩ := hstart.encodeBytes (bin.drop (zeros (bin.map UInt8.toNat))) (by simpa using hfits)
  rw [Nat.zero_mul, Nat.zero_add, hsig, value_significant] at hwritten
  -- the digits of the buffer, from its start
  have hdigits : (acc.1.reverse.dropWhile (· == 0)).map UInt8.toNat =
      (Nat.digits 58 (value 256 (bin.map UInt8.toNat))).reverse := by
    have hbuf : ∀ d ∈ acc.1.reverse.map UInt8.toNat, d < 58 := by
      intro d hd
      obtain ⟨b, hb, rfl⟩ := List.mem_map.mp hd
      exact hwritten.digit_lt b (List.mem_reverse.mp hb)
    rw [map_dropWhile_toNat, significant_eq (by omega) hbuf, value, List.map_reverse, List.reverse_reverse,
      hwritten.value_eq]
  have htext : text bin = List.replicate (zeros (bin.map UInt8.toNat)) '1'.toUInt8 ++
      (acc.1.reverse.dropWhile (· == 0)).map fun d => b58digitsOrdered.getD d.toNat 0 := by
    have hone : symbol 0 = '1'.toUInt8 := by decide
    rw [text, rebase, ← hdigits, List.map_append, List.map_replicate, hone, List.map_map]
    rfl
  have hlength : (text bin).length =
      zeros (bin.map UInt8.toNat) + (acc.1.reverse.dropWhile (· == 0)).length := by
    rw [htext]
    simp
  unfold btcBase58Encode Btc.encodeBytes
  dsimp only
  rw [← hzcount, hsize, hencode]
  dsimp only
  rw [← hlength, ← htext]

/-! ### The checksum -/

/-- The first octets of the double hash. -/
def checksum (sha256Raw : Sha256) (data : List UInt8) : List UInt8 := (doubleHash sha256Raw data).take 4

lemma length_checksum (sha256Raw : Sha256) (data : List UInt8) : (checksum sha256Raw data).length = 4 := by
  simp [checksum, doubleHash]

/-- What the check asks of the bytes: the checksum at their end, and not only zeros. -/
structure Checked (sha256Raw : Sha256) (bytes : List UInt8) : Prop where
  four_le : 4 ≤ bytes.length
  sum_eq : bytes.drop (bytes.length - 4) = checksum sha256Raw (bytes.take (bytes.length - 4))
  exists_ne : ∃ b ∈ bytes, b ≠ 0

lemma skipZeros_replicate (z : ℕ) (bin : List UInt8) (str : Str) :
    skipZeros (List.replicate z 0 ++ bin) (List.replicate z '1'.toUInt8 ++ str) = skipZeros bin str := by
  induction z with
  | zero => rfl
  | succ z ih =>
    rw [List.replicate_succ, List.replicate_succ, List.cons_append, List.cons_append, skipZeros,
      if_pos (by decide)]
    exact ih

lemma symbol_injective {d e : ℕ} (hd : d < 58) (he : e < 58) (h : symbol d = symbol e) : d = e := by
  have hd' := (digitOf_symbol ⟨fun _ => 0, fun n => Vector.replicate n 0⟩ hd).2
  have he' := (digitOf_symbol ⟨fun _ => 0, fun n => Vector.replicate n 0⟩ he).2
  rw [h, he'] at hd'
  exact (Int.ofNat.inj hd').symm

lemma eq_of_map_symbol {l l' : List ℕ} (hl : ∀ d ∈ l, d < 58) (hl' : ∀ d ∈ l', d < 58)
    (h : l.map symbol = l'.map symbol) : l = l' := by
  induction l generalizing l' with
  | nil =>
    cases l' with
    | nil => rfl
    | cons e l' => simp at h
  | cons d l ih =>
    cases l' with
    | nil => simp at h
    | cons e l' =>
      rw [List.map_cons, List.map_cons, List.cons.injEq] at h
      rw [List.forall_mem_cons] at hl hl'
      rw [symbol_injective hl.1 hl'.1 h.1, ih hl.2 hl'.2 h.2]

lemma exists_ne_zero_iff {bytes : List UInt8} : (∃ b ∈ bytes, b ≠ 0) ↔ value 256 (bytes.map UInt8.toNat) ≠ 0 := by
  constructor
  · rintro ⟨b, hb, hne⟩ hzero
    have hdigits := significant_eq (by omega) (toNat_lt_of_mem bytes)
    rw [hzero, Nat.digits_zero, List.reverse_nil] at hdigits
    have hall := zeros_append_significant (bytes.map UInt8.toNat)
    rw [hdigits, List.append_nil] at hall
    have hmem := List.mem_map_of_mem (f := UInt8.toNat) hb
    rw [← hall] at hmem
    exact hne (UInt8.toNat_inj.mp (List.eq_of_mem_replicate hmem))
  · intro hne
    by_contra hall
    apply hne
    have hzero : ∀ b ∈ bytes, b = 0 := by
      intro b hb
      by_contra hb'
      exact hall ⟨b, hb, hb'⟩
    rw [List.eq_replicate_iff.mpr ⟨rfl, hzero⟩, List.map_replicate]
    exact value_replicate_zero _

/-- The zeros and the ones in front are as many, so that only bytes that are all zero are refused. -/
lemma zeros_refused_iff {ds : List ℕ} (hds : ∀ d ∈ ds, d < 58) {bytes : List UInt8}
    (hbytes : bytes.map UInt8.toNat = rebase 58 256 ds) (n : ℕ) :
    ((skipZeros (bytes ++ List.replicate n 0) (ds.map symbol)).1.headD 0 == 0 ||
        (skipZeros (bytes ++ List.replicate n 0) (ds.map symbol)).2.headD 0 == '1'.toUInt8) = false ↔
      ∃ b ∈ bytes, b ≠ 0 := by
  have hone : symbol 0 = '1'.toUInt8 := by decide
  have hzeros : zeros (bytes.map UInt8.toNat) = zeros ds := by rw [hbytes, rebase, zeros_digits]
  have hvalue : value 256 (bytes.map UInt8.toNat) = value 58 ds := by rw [hbytes, value_rebase]
  have hstr : ds.map symbol = List.replicate (zeros ds) '1'.toUInt8 ++ (significant ds).map symbol := by
    conv_lhs => rw [← zeros_append_significant ds, List.map_append, List.map_replicate, hone]
  have hbin : bytes = List.replicate (zeros ds) 0 ++ bytes.dropWhile (· == 0) := by
    apply List.map_injective_iff.mpr (fun _ _ => UInt8.toNat_inj.mp)
    rw [List.map_append, List.map_replicate, map_dropWhile_toNat, ← hzeros]
    exact (zeros_append_significant _).symm
  rw [exists_ne_zero_iff, hvalue]
  have hskip : skipZeros (bytes ++ List.replicate n 0) (ds.map symbol) =
      skipZeros (bytes.dropWhile (· == 0) ++ List.replicate n 0) ((significant ds).map symbol) := by
    rw [hstr]
    conv_lhs => rw [hbin, List.append_assoc, skipZeros_replicate]
  rw [hskip]
  have hsig := significant_eq (by omega) hds
  have hdrop : (bytes.dropWhile (· == 0)).map UInt8.toNat = (Nat.digits 256 (value 58 ds)).reverse := by
    rw [map_dropWhile_toNat, significant_eq (by omega) (toNat_lt_of_mem bytes), hvalue]
  by_cases hv : value 58 ds = 0
  · rw [hv, Nat.digits_zero, List.reverse_nil] at hsig hdrop
    rw [hsig, List.map_eq_nil_iff.mp hdrop]
    cases n <;> simp [skipZeros, List.replicate_succ, hv]
  · refine iff_of_true ?_ hv
    have hd := head_significant ds
    have hb := head_significant (bytes.map UInt8.toNat)
    rw [← map_dropWhile_toNat] at hb
    cases hds' : significant ds with
    | nil =>
      rw [hds', eq_comm, List.reverse_eq_nil_iff, Nat.digits_eq_nil_iff_eq_zero] at hsig
      exact absurd hsig hv
    | cons d rest =>
      cases hbytes' : bytes.dropWhile (· == 0) with
      | nil =>
        rw [hbytes', List.map_nil, eq_comm, List.reverse_eq_nil_iff, Nat.digits_eq_nil_iff_eq_zero] at hdrop
        exact absurd hdrop hv
      | cons b rest' =>
        rw [hds'] at hd
        rw [hbytes'] at hb
        have hb0 : b ≠ 0 := by
          rintro rfl
          exact hb rfl
        have hd0 : symbol d ≠ '1'.toUInt8 := by
          rw [← hone]
          intro hsame
          have hlt : d < 58 := hds d ((List.dropWhile_sublist _).mem (hds' ▸ List.mem_cons_self))
          rw [symbol_injective hlt (by omega) hsame] at hd
          exact hd rfl
        rw [List.cons_append, List.map_cons, skipZeros, if_neg (by simp [hb0])]
        simp [hb0, hd0]

section Check

variable (sha256Raw : Sha256) (unwritten : Unwritten)

lemma btcB58check_neg_iff {ds : List ℕ} (hds : ∀ d ∈ ds, d < 58) {bytes : List UInt8}
    (hbytes : bytes.map UInt8.toNat = rebase 58 256 ds) (n : ℕ) :
    btcB58check sha256Raw (bytes ++ List.replicate n 0) bytes.length (ds.map symbol) < 0 ↔
      ¬Checked sha256Raw bytes := by
  have hzeros := zeros_refused_iff hds hbytes n
  unfold btcB58check
  by_cases hfour : bytes.length < 4
  · rw [if_pos hfour]
    exact iff_of_true (by omega) fun h => absurd h.four_le (by omega)
  rw [if_neg hfour]
  have hpayload : (bytes ++ List.replicate n 0).take (bytes.length - 4) = bytes.take (bytes.length - 4) :=
    List.take_append_of_le_length (by omega)
  have hend : ((bytes ++ List.replicate n 0).drop (bytes.length - 4)).take 4 = bytes.drop (bytes.length - 4) := by
    rw [List.drop_append_of_le_length (by omega), List.take_append_of_le_length (by rw [List.length_drop]; omega),
      List.take_of_length_le (by rw [List.length_drop]; omega)]
  rw [hpayload, hend]
  by_cases hsum : bytes.drop (bytes.length - 4) = checksum sha256Raw (bytes.take (bytes.length - 4))
  · rw [if_neg (by simpa [checksum] using hsum)]
    dsimp only
    cases hrefused : (skipZeros (bytes ++ List.replicate n 0) (ds.map symbol)).1.headD 0 == 0 ||
        (skipZeros (bytes ++ List.replicate n 0) (ds.map symbol)).2.headD 0 == '1'.toUInt8 with
    | true =>
      rw [if_pos rfl]
      refine iff_of_true (by omega) fun h => ?_
      rw [hzeros.mpr h.exists_ne] at hrefused
      cases hrefused
    | false =>
      rw [if_neg (by simp)]
      exact iff_of_false (by omega) fun h => h ⟨by omega, hsum, hzeros.mp hrefused⟩
  · rw [if_pos (by simpa [checksum] using hsum)]
    exact iff_of_true (by omega) fun h => hsum h.sum_eq

/-- Decoding base58 digits with their checksum. -/
lemma btcBase58DecodeCheck_symbols {ds : List ℕ} (hds : ∀ d ∈ ds, d < 58) (hlength : ds.length ≤ 128)
    {buffer : List UInt8} (hbuffer : ds.length ≤ buffer.length) :
    ∃ bytes : List UInt8, bytes.map UInt8.toNat = rebase 58 256 ds ∧ bytes.length ≤ ds.length ∧
      (btcBase58DecodeCheck unwritten sha256Raw (ds.map symbol) buffer).2 =
        bytes ++ List.replicate (buffer.length - bytes.length) 0 ∧
      ((btcBase58DecodeCheck unwritten sha256Raw (ds.map symbol) buffer).1 = bytes.length ∧ Checked sha256Raw bytes ∨
        (btcBase58DecodeCheck unwritten sha256Raw (ds.map symbol) buffer).1 = 0 ∧ ¬Checked sha256Raw bytes) := by
  obtain ⟨bin, binsize, hdecode, hbin, hbinsize, hbytes⟩ := btcBase58Decode_symbols unwritten hds
  have hsize : (bin.drop (ds.length - binsize)).length = binsize := by
    rw [List.length_drop, hbin]
    omega
  have hmoved : ((bin ++ buffer.drop ds.length).drop (ds.length - binsize)).take binsize =
      bin.drop (ds.length - binsize) := by
    rw [List.drop_append_of_le_length (by omega), List.take_append_of_le_length (by omega),
      List.take_of_length_le (by omega)]
  have hcheck := btcB58check_neg_iff sha256Raw hds hbytes (buffer.length - binsize)
  rw [hsize] at hcheck
  refine ⟨bin.drop (ds.length - binsize), hbytes, by omega, ?_⟩
  have hguard : (ds.length > 128 || buffer.length < ds.length) = false := by
    rw [Bool.or_eq_false_iff, decide_eq_false_iff_not, decide_eq_false_iff_not]
    omega
  unfold btcBase58DecodeCheck
  rw [List.length_map]
  dsimp only
  rw [hguard, hdecode, if_neg (by simp)]
  dsimp only
  rw [hmoved, hsize]
  by_cases hchecked : Checked sha256Raw (bin.drop (ds.length - binsize))
  · rw [if_neg fun h => hcheck.mp h hchecked]
    exact ⟨rfl, .inl ⟨rfl, hchecked⟩⟩
  · rw [if_pos (hcheck.mpr hchecked)]
    exact ⟨rfl, .inr ⟨rfl, hchecked⟩⟩

end Check

lemma checked_append {sha256Raw : Sha256} {data : List UInt8} (h : ∃ b ∈ data ++ checksum sha256Raw data, b ≠ 0) :
    Checked sha256Raw (data ++ checksum sha256Raw data) := by
  have hsum := length_checksum sha256Raw data
  have hsize : (data ++ checksum sha256Raw data).length - 4 = data.length := by
    rw [List.length_append, hsum, Nat.add_sub_cancel]
  refine ⟨by rw [List.length_append]; omega, ?_, h⟩
  rw [hsize, List.drop_left, List.take_left]

lemma btcBase58EncodeCheck_eq_some {sha256Raw : Sha256} {data : List UInt8} {strsize : ℕ} {s : Str} :
    btcBase58EncodeCheck sha256Raw data strsize = some s ↔
      data.length ≤ 128 ∧ s.length < strsize ∧ text (data ++ checksum sha256Raw data) = s := by
  have hencode := btcBase58Encode_eq strsize (data ++ checksum sha256Raw data)
  unfold btcBase58EncodeCheck
  unfold checksum at hencode
  rw [hencode]
  by_cases hlong : data.length > 128
  · rw [if_pos hlong]
    exact iff_of_false (by simp) fun h => absurd h.1 (by omega)
  rw [if_neg hlong]
  by_cases hfits : strsize ≤ (text (data ++ (doubleHash sha256Raw data).take 4)).length
  · rw [if_pos hfits]
    refine iff_of_false (by simp [Except.toOption]) ?_
    rintro ⟨-, hlt, rfl⟩
    exact absurd hlt (by unfold checksum; omega)
  · rw [if_neg hfits]
    constructor
    · intro h
      obtain rfl := Option.some.inj h
      exact ⟨by omega, by omega, rfl⟩
    · rintro ⟨-, -, h⟩
      exact congrArg some h

/-- A string of base58 digits decodes to bytes and their checksum exactly when it is the string they are
encoded as, unless all of them are zero. -/
theorem decodeCheck_iff_encodeCheck (sha256Raw : Sha256) (unwritten : Unwritten) (s : Str)
    (hs : ∀ ch ∈ s, ch ∈ b58digitsOrdered) (hlength : s.length ≤ 128) (buffer : List UInt8)
    (hbuffer : s.length ≤ buffer.length) :
    0 < (btcBase58DecodeCheck unwritten sha256Raw s buffer).1 ↔
      ∃ data, btcBase58EncodeCheck sha256Raw data (s.length + 1) = some s ∧
        (∃ b ∈ data ++ checksum sha256Raw data, b ≠ 0) ∧
        btcBase58DecodeCheck unwritten sha256Raw s buffer = (((data ++ checksum sha256Raw data).length : Int),
          data ++ checksum sha256Raw data ++
            List.replicate (buffer.length - (data ++ checksum sha256Raw data).length) 0) := by
  obtain ⟨ds, hds, rfl⟩ := exists_digits hs
  rw [List.length_map] at hlength hbuffer
  obtain ⟨bytes, hbytes, hshort, hbuf, hcode⟩ := btcBase58DecodeCheck_symbols sha256Raw unwritten hds hlength hbuffer
  constructor
  · intro hpos
    obtain ⟨hcode, hchecked⟩ := hcode.resolve_right fun h => by omega
    have hsplit : bytes.take (bytes.length - 4) ++ checksum sha256Raw (bytes.take (bytes.length - 4)) = bytes := by
      rw [← hchecked.sum_eq, List.take_append_drop]
    refine ⟨bytes.take (bytes.length - 4), ?_, by rw [hsplit]; exact hchecked.exists_ne, ?_⟩
    · refine btcBase58EncodeCheck_eq_some.mpr ⟨?_, Nat.lt_succ_self _, ?_⟩
      · rw [List.length_take]
        omega
      · rw [hsplit, text, hbytes, rebase_rebase (by omega) hds]
    · rw [hsplit, ← hcode, ← hbuf]
  · rintro ⟨data, -, -, hdecode⟩
    rw [hdecode, List.length_append, length_checksum]
    omega

theorem exists_encodeCheck_sevens :
    ∃ data, btcBase58EncodeCheck (fun _ => .replicate 32 7) data 9 = some (lit "3VXbLZfL") ∧
      (∃ b ∈ data ++ checksum (fun _ => .replicate 32 7) data, b ≠ 0) ∧
      btcBase58DecodeCheck ⟨fun _ => 0, fun n => .replicate n 0⟩ (fun _ => .replicate 32 7) (lit "3VXbLZfL")
        (List.replicate 16 0) = (((data ++ checksum (fun _ => .replicate 32 7) data).length : Int),
          data ++ checksum (fun _ => .replicate 32 7) data ++
            List.replicate (16 - (data ++ checksum (fun _ => .replicate 32 7) data).length) 0) :=
  (decodeCheck_iff_encodeCheck (fun _ => .replicate 32 7) ⟨fun _ => 0, fun n => .replicate n 0⟩ (lit "3VXbLZfL")
    (by decide +kernel) (by decide) (List.replicate 16 0) (by decide)).mp (by decide +kernel)

/-- Decoding what was encoded gives the bytes, their checksum and zeros in the rest of the buffer. -/
theorem decodeCheck_encodeCheck (sha256Raw : Sha256) (unwritten : Unwritten) (data : List UInt8) (strsize : ℕ)
    (s : Str) (hencode : btcBase58EncodeCheck sha256Raw data strsize = some s)
    (hne : ∃ b ∈ data ++ checksum sha256Raw data, b ≠ 0) (hlength : s.length ≤ 128) (buffer : List UInt8)
    (hbuffer : s.length ≤ buffer.length) :
    btcBase58DecodeCheck unwritten sha256Raw s buffer = (((data ++ checksum sha256Raw data).length : Int),
      data ++ checksum sha256Raw data ++
        List.replicate (buffer.length - (data ++ checksum sha256Raw data).length) 0) := by
  obtain ⟨-, -, rfl⟩ := btcBase58EncodeCheck_eq_some.mp hencode
  have hdigits : ∀ d ∈ rebase 256 58 ((data ++ checksum sha256Raw data).map UInt8.toNat), d < 58 :=
    lt_of_mem_rebase (by omega)
  unfold text at hlength hbuffer ⊢
  rw [List.length_map] at hlength hbuffer
  obtain ⟨bytes, hbytes, -, hbuf, hcode⟩ :=
    btcBase58DecodeCheck_symbols sha256Raw unwritten hdigits hlength hbuffer
  rw [rebase_rebase (by omega) (toNat_lt_of_mem _)] at hbytes
  obtain rfl := List.map_injective_iff.mpr (fun _ _ => UInt8.toNat_inj.mp) hbytes
  obtain ⟨hcode, -⟩ := hcode.resolve_right fun h => h.2 (checked_append hne)
  rw [← hcode, ← hbuf]

theorem decodeCheck_encodeCheck_sevens :
    btcBase58DecodeCheck ⟨fun _ => 0, fun n => .replicate n 0⟩ (fun _ => .replicate 32 7) (lit "3VXbLZfL")
      (List.replicate 16 9) = (6, [5, 1, 7, 7, 7, 7] ++ List.replicate 10 0) :=
  decodeCheck_encodeCheck (fun _ => .replicate 32 7) ⟨fun _ => 0, fun n => .replicate n 0⟩ [5, 1] 60
    (lit "3VXbLZfL") (by decide +kernel) ⟨5, by decide, by decide⟩ (by decide) (List.replicate 16 9) (by decide)

end ContractPython.Btc
