import ContractPython.Proofs.Addresses
import ContractPython.Proofs.Base58
import ContractPython.Proofs.SegwitAddr

/-!
# Addresses and the decoders behind them

`addr_check` over the decoders of the library: it accepts the addresses the library makes. What it says of a
string that is not base58 depends on what was on the stack.
-/

namespace ContractPython.Btc

open Digits Proofs

variable (sha256Raw : Sha256) (unwritten : Unwritten) (net : NetType)

/-- Bytes with their checksum that are not all zero and begin with a prefix of the network, as base58 text. -/
def EncodesBase58 (s : Str) : Prop :=
  ∃ data, btcBase58EncodeCheck sha256Raw data (s.length + 1) = some s ∧
    (∃ b ∈ data ++ checksum sha256Raw data, b ≠ 0) ∧
    ∃ version ∈ (data ++ checksum sha256Raw data).head?, NetPrefix net version

/-- A witness program of 20 bytes as an address of the network. -/
def EncodesSegwit (s : Str) : Prop :=
  ∃ version program, 0 ≤ version ∧ program.length = 20 ∧
    segwitAddrEncode (chainParams net).bech32Hrp version program = some (s.map lowered) ∧ mixedCase s = false

variable {sha256Raw unwritten net} {s : Str}

lemma takenAsBase58_iff_encodesBase58 (hs : ∀ ch ∈ s, ch ∈ b58digitsOrdered) (hlength : s.length ≤ 128) :
    TakenAsBase58 (btcCodec unwritten sha256Raw) net s ↔ EncodesBase58 sha256Raw net s := by
  have hbuffer : s.length ≤ (unwritten.buffer (s.length * 2)).toList.length := by
    rw [Vector.length_toList]
    omega
  have hhead (data : List UInt8) (n : ℕ) : (data ++ checksum sha256Raw data ++ List.replicate n 0).head? =
      (data ++ checksum sha256Raw data).head? := by
    have hsum := length_checksum sha256Raw data
    refine List.head?_append_of_ne_nil _ fun hnil => ?_
    have hlength := congrArg List.length hnil
    rw [List.length_append, hsum] at hlength
    cases hlength
  constructor
  · rintro ⟨hpos, version, hversion, hprefix⟩
    obtain ⟨data, hencode, hne, hdecode⟩ :=
      (decodeCheck_iff_encodeCheck sha256Raw unwritten s hs hlength _ hbuffer).mp hpos
    refine ⟨data, hencode, hne, version, ?_, hprefix⟩
    have hbuf : ((btcCodec unwritten sha256Raw).base58DecodeCheck s).2 = _ := congrArg Prod.snd hdecode
    rwa [hbuf, hhead] at hversion
  · rintro ⟨data, hencode, hne, version, hversion, hprefix⟩
    have hdecode := decodeCheck_encodeCheck sha256Raw unwritten data _ s hencode hne hlength _ hbuffer
    have hcode : ((btcCodec unwritten sha256Raw).base58DecodeCheck s).1 = _ := congrArg Prod.fst hdecode
    have hbuf : ((btcCodec unwritten sha256Raw).base58DecodeCheck s).2 = _ := congrArg Prod.snd hdecode
    refine ⟨?_, version, ?_, hprefix⟩
    · rw [hcode, List.length_append, length_checksum]
      omega
    · rwa [hbuf, hhead]

lemma segwit_iff_encodesSegwit :
    (∃ version program, segwitAddrDecode (chainParams net).bech32Hrp s = some (version, program) ∧
      program.length = 20) ↔ EncodesSegwit net s := by
  have hhrp : (chainParams net).bech32Hrp ≠ [] := by cases net <;> decide
  have hiff := segwitAddrDecode_iff_segwitAddrEncode (chainParams net).bech32Hrp s
  constructor
  · rintro ⟨version, program, hdecode, hlength⟩
    obtain ⟨-, hnonneg, hencode, hcase⟩ := (hiff version program).mp hdecode
    exact ⟨version, program, hnonneg, hlength, hencode, hcase⟩
  · rintro ⟨version, program, hnonneg, hlength, hencode, hcase⟩
    exact ⟨version, program, (hiff version program).mpr ⟨hhrp, hnonneg, hencode, hcase⟩, hlength⟩

lemma addrCheck_btcCodec_iff : addrCheck (btcCodec unwritten sha256Raw) net s = true ↔
    TakenAsBase58 (btcCodec unwritten sha256Raw) net s ∨ EncodesSegwit net s :=
  addrCheck_iff.trans (or_congr Iff.rfl segwit_iff_encodesSegwit)

lemma mem_b58digitsOrdered_of_mem_text {bin : List UInt8} : ∀ ch ∈ text bin, ch ∈ b58digitsOrdered := by
  intro ch hch
  obtain ⟨d, hd, rfl⟩ := List.mem_map.mp hch
  have hlength : b58digitsOrdered.length = 58 := by decide
  have hlt := lt_of_mem_rebase (by omega) d hd
  rw [symbol, List.getD_eq_getElem?_getD, List.getElem?_eq_getElem (by omega), Option.getD_some]
  exact List.getElem_mem _

/-- An address to compute with: the hash is ones and every checksum sevens. -/
lemma p2pkhAddr_sevens : btcP2pkhAddrFromHash160 (fun _ => .replicate 32 7) (.replicate 20 1) (chainParams .main) 40 =
    some (lit "16Jswqk47s9PUcyCc88MMVwzgvHNEzGRc") := by decide +kernel

/-- Of the strings of base58 digits those are accepted that an encoder makes for the network. -/
theorem addrCheck_iff_encodes (sha256Raw : Sha256) (unwritten : Unwritten) (net : NetType) (s : Str)
    (hs : ∀ ch ∈ s, ch ∈ b58digitsOrdered) (hlength : s.length ≤ 128) :
    addrCheck (btcCodec unwritten sha256Raw) net s = true ↔ EncodesBase58 sha256Raw net s ∨ EncodesSegwit net s := by
  rw [addrCheck_btcCodec_iff, takenAsBase58_iff_encodesBase58 hs hlength]

theorem encodes_p2pkh_sevens : EncodesBase58 (fun _ => .replicate 32 7) .main (lit "16Jswqk47s9PUcyCc88MMVwzgvHNEzGRc") ∨
    EncodesSegwit .main (lit "16Jswqk47s9PUcyCc88MMVwzgvHNEzGRc") := by
  have htext := (btcBase58EncodeCheck_eq_some.mp p2pkhAddr_sevens).2.2
  have hdigits : ∀ ch ∈ lit "16Jswqk47s9PUcyCc88MMVwzgvHNEzGRc", ch ∈ b58digitsOrdered := by
    rw [← htext]
    exact mem_b58digitsOrdered_of_mem_text
  have hlength : (lit "16Jswqk47s9PUcyCc88MMVwzgvHNEzGRc").length ≤ 128 := by decide
  have hencodes : EncodesBase58 (fun _ => .replicate 32 7) .main (lit "16Jswqk47s9PUcyCc88MMVwzgvHNEzGRc") :=
    ⟨0 :: List.replicate 20 1, btcBase58EncodeCheck_eq_some.mpr ⟨by decide, Nat.lt_succ_self _, htext⟩,
      ⟨1, by decide, by decide⟩, 0, rfl, .inl rfl⟩
  exact (addrCheck_iff_encodes _ ⟨fun _ => 0, fun n => .replicate n 0⟩ .main _ hdigits hlength).mp
    (addrCheck_btcCodec_iff.mpr (.inl ((takenAsBase58_iff_encodesBase58 hdigits hlength).mpr hencodes)))

/-! ### Addresses the library makes -/

/-- The text is as long as the buffer of the encoder and the zeros in front. -/
lemma length_text_le (bin : List UInt8) : (text bin).length ≤ bin.length + (bin.length * 138 / 100 + 1) := by
  have hzeros := zeros_add_length (bin.map UInt8.toNat)
  have hlt := (value_lt (by omega) (toNat_lt_of_mem bin)).trans_le
    ((pow_le_size (bin.map UInt8.toNat).length))
  rw [List.length_map] at hzeros hlt
  have hdigits := (Nat.digits_length_le_iff (by omega) _).mpr hlt
  unfold text rebase
  rw [List.length_map, List.length_append, List.length_replicate, List.length_reverse]
  omega

lemma text_injective : Function.Injective text := by
  intro bin bin' h
  have hlt (bin : List UInt8) : ∀ d ∈ rebase 256 58 (bin.map UInt8.toNat), d < 58 := lt_of_mem_rebase (by omega)
  have hdigits := congrArg (rebase 58 256) (eq_of_map_symbol (hlt bin) (hlt bin') h)
  rw [rebase_rebase (by omega) (toNat_lt_of_mem bin), rebase_rebase (by omega) (toNat_lt_of_mem bin')] at hdigits
  exact toNat_map_injective hdigits

/-- Zeros are written as ones, which no witness program is. -/
lemma not_encodesSegwit_text_zeros {bin : List UInt8} (h : ∀ b ∈ bin, b = 0) : ¬EncodesSegwit net (text bin) := by
  intro hsegwit
  obtain ⟨version, program, hdecode, -⟩ := segwit_iff_encodesSegwit.mpr hsegwit
  obtain ⟨v, syms, hbech32, -⟩ := segwitAddrDecode_eq_some.mp hdecode
  obtain ⟨part, body, htext, hdecodes, -⟩ := bech32Decode_eq_some.mp hbech32
  have hones : ∀ ch ∈ text bin, ch = '1'.toUInt8 := by
    have hzeros : bin = List.replicate bin.length 0 := List.eq_replicate_iff.mpr ⟨rfl, h⟩
    rw [hzeros]
    intro ch hch
    obtain ⟨d, hd, rfl⟩ := List.mem_map.mp hch
    rw [rebase, List.map_replicate, UInt8.toNat_zero, value_replicate_zero, Nat.digits_zero, List.reverse_nil,
      List.append_nil] at hd
    rw [List.eq_of_mem_replicate hd]
    decide
  obtain ⟨ch, hch⟩ := List.exists_mem_of_length_pos (l := body) (by have := hdecodes.six_le; omega)
  have hmem : ch ∈ text bin := by
    rw [htext]
    exact List.mem_append_right _ (List.mem_cons_of_mem _ hch)
  exact hdecodes.notMem (hones ch hmem ▸ hch)

/-- The address made for a public key hash is accepted on its network, unless its octets are all zero. -/
theorem addrCheck_p2pkhAddr (sha256Raw : Sha256) (unwritten : Unwritten) (net : NetType) (hashin : Vector UInt8 20)
    (len : ℕ) (s : Str) (h : btcP2pkhAddrFromHash160 sha256Raw hashin (chainParams net) len = some s) :
    addrCheck (btcCodec unwritten sha256Raw) net s = true ↔
      ∃ b ∈ (chainParams net).b58prefixPubkeyAddress :: hashin.toList ++
        checksum sha256Raw ((chainParams net).b58prefixPubkeyAddress :: hashin.toList), b ≠ 0 := by
  unfold btcP2pkhAddrFromHash160 at h
  generalize hdata : (chainParams net).b58prefixPubkeyAddress :: hashin.toList = data at h
  have hcount : data.length = 21 := by
    rw [← hdata, List.length_cons, Vector.length_toList]
  obtain ⟨-, -, rfl⟩ := btcBase58EncodeCheck_eq_some.mp h
  have hshort : (text (data ++ checksum sha256Raw data)).length ≤ 128 := by
    have hle := length_text_le (data ++ checksum sha256Raw data)
    rw [List.length_append, length_checksum, hcount] at hle
    omega
  rw [addrCheck_iff_encodes sha256Raw unwritten net _ mem_b58digitsOrdered_of_mem_text hshort]
  constructor
  · rintro (hbase58 | hsegwit)
    · obtain ⟨data', hencode, hne, -⟩ := hbase58
      obtain ⟨-, -, htext⟩ := btcBase58EncodeCheck_eq_some.mp hencode
      rwa [text_injective htext] at hne
    · by_contra hzero
      refine not_encodesSegwit_text_zeros (fun b hb => ?_) hsegwit
      by_contra hb'
      exact hzero ⟨b, hb, hb'⟩
  · intro hne
    refine .inl ⟨data, btcBase58EncodeCheck_eq_some.mpr ⟨by omega, Nat.lt_succ_self _, rfl⟩, hne, _, ?_, .inl rfl⟩
    rw [← hdata]
    rfl

theorem addrCheck_p2pkhAddr_sevens :
    addrCheck (btcCodec ⟨fun _ => 0, fun n => .replicate n 0⟩ fun _ => .replicate 32 7) .main
      (lit "16Jswqk47s9PUcyCc88MMVwzgvHNEzGRc") = true :=
  (addrCheck_p2pkhAddr (fun _ => .replicate 32 7) ⟨fun _ => 0, fun n => .replicate n 0⟩ .main (.replicate 20 1) 40 _
    p2pkhAddr_sevens).mpr ⟨1, by decide, by decide⟩

lemma exists_bech32Encode {hrp : Str} {data : List UInt8}
    (hhrp : ∀ ch ∈ hrp, isHrpChar ch = true ∧ isUpper ch = false) (hlength : hrp.length + 7 + data.length ≤ 90)
    (hdata : ∀ v ∈ data, v.toNat < 32) : ∃ s, bech32Encode hrp data = some s := by
  have hlarge : data.any (· >>> 5 != 0) = false := by
    refine List.any_eq_false.mpr fun v hv => ?_
    have hall : ∀ n < 32, UInt8.ofNat n >>> 5 = 0 := by decide
    have hzero := hall v.toNat (hdata v hv)
    rw [UInt8.ofNat_toNat] at hzero
    simp [hzero]
  have hvalid : (hrp.any fun ch => !isHrpChar ch || isUpper ch) = false :=
    List.any_eq_false.mpr fun ch hch => by simp [(hhrp ch hch).1, (hhrp ch hch).2]
  unfold bech32Encode
  rw [hvalid, hlarge, if_neg (by simp), if_neg (by omega), if_neg (by simp)]
  exact ⟨_, rfl⟩

lemma notUpper_of_bech32Encode {hrp : Str} {data : List UInt8} (h : bech32Encode hrp data = some s) :
    ∀ ch ∈ s, isUpper ch = false := by
  obtain ⟨hhrp, -, hdata, check, -, hcheck, -, rfl⟩ := bech32Encode_eq_some.mp h
  intro ch hch
  rcases List.mem_append.mp hch with hpart | htail
  · exact (hhrp ch hpart).2
  rcases List.mem_cons.mp htail with rfl | hbody
  · decide
  obtain ⟨v, hv, rfl⟩ := List.mem_map.mp hbody
  exact (valueOf_valueSymbol ((List.mem_append.mp hv).elim (hdata v) (hcheck v))).2.2

/-- The address made for the hash of a witness public key is accepted on its network. -/
theorem addrCheck_p2wpkhAddr (sha256Raw : Sha256) (unwritten : Unwritten) (net : NetType) (hashin : Vector UInt8 20) :
    ∃ s, btcP2wpkhAddrFromHash160 hashin (chainParams net) = some s ∧
      addrCheck (btcCodec unwritten sha256Raw) net s = true := by
  have hprogram : hashin.toList.length = 20 := Vector.length_toList
  obtain ⟨syms, hpad, hlt, p, hp, hcount, -⟩ :=
    convertBits_pad (i := 5) (o := 8) (by omega) (by omega) (by omega) (toNat_lt_256 hashin.toList)
  rw [List.length_map, List.length_map, hprogram] at hcount
  have hhrp : (∀ ch ∈ (chainParams net).bech32Hrp, isHrpChar ch = true ∧ isUpper ch = false) ∧
      (chainParams net).bech32Hrp.length ≤ 4 := by
    cases net <;> simp [chainParams, lit, isHrpChar, isUpper] <;> decide
  have hdata : ∀ v ∈ 0 :: syms, v.toNat < 32 := List.forall_mem_cons.mpr ⟨by decide, hlt⟩
  obtain ⟨s, hs⟩ := exists_bech32Encode hhrp.1 (by rw [List.length_cons]; omega) hdata
  have hencode : segwitAddrEncode (chainParams net).bech32Hrp 0 hashin.toList = some s :=
    segwitAddrEncode_eq_some (v := 0).mpr ⟨syms, hpad, hs, by decide, by omega, by omega, fun _ => .inl hprogram⟩
  have hupper := notUpper_of_bech32Encode hs
  refine ⟨s, hencode, addrCheck_btcCodec_iff.mpr (.inr ⟨0, hashin.toList, le_rfl, hprogram, ?_, ?_⟩)⟩
  · have hsame : s.map lowered = s := by
      conv_rhs => rw [← List.map_id s]
      exact List.map_congr_left fun ch hch => if_neg (by simp [hupper ch hch])
    rw [hsame, hencode]
  · have hnone : s.any isUpper = false := List.any_eq_false.mpr fun ch hch => by simp [hupper ch hch]
    rw [mixedCase, hnone, Bool.and_false]

/-! ### Strings that are not base58 -/

lemma foldlM_eq_none {α β : Type} {f : β → α → Option β} {a : α} (hf : ∀ b, f b a = none) {l : List α} (ha : a ∈ l)
    (b : β) : l.foldlM f b = none := by
  obtain ⟨front, back, rfl⟩ := List.append_of_mem ha
  rw [List.foldlM_append]
  cases front.foldlM f b with
  | none => rfl
  | some b' =>
    show (a :: back).foldlM f b' = none
    rw [List.foldlM_cons, hf]
    rfl

/-- A character that is no digit stops the decoder. -/
lemma btcBase58Decode_eq_none {ch : UInt8} (hch : ch ∈ s) (hascii : ch &&& 0x80 = 0) (hbad : ch ∉ b58digitsOrdered)
    (binsz : ℕ) : btcBase58Decode unwritten binsz s = none := by
  have htable : ∀ n < 128, UInt8.ofNat n ∉ b58digitsOrdered → b58digitsMap[n]? = some (-1) := by decide +kernel
  have hsmall : ch.toNat < 128 :=
    forall_uint8 (p := fun ch => ch &&& 0x80 = 0 → ch.toNat < 128) (by decide +kernel) ch hascii
  have hdigit : digitOf unwritten ch = -1 := by
    have h := htable ch.toNat hsmall (by rwa [UInt8.ofNat_toNat])
    rw [digitOf, List.getD_eq_getElem?_getD, h, Option.getD_some]
  have hstop (zeromask : UInt32) (outi : List UInt32) : decodeDigit unwritten zeromask outi ch = none := by
    unfold decodeDigit
    rw [if_neg (by simp [hascii]), if_pos (by simp [hdigit])]
  have hmem : ch ∈ s.drop (s.takeWhile fun ch => digitOf unwritten ch == 0).length := by
    have hsplit := List.takeWhile_append_dropWhile (p := fun ch => digitOf unwritten ch == 0) (l := s)
    have hdrop : ((s.takeWhile fun ch => digitOf unwritten ch == 0) ++ s.dropWhile fun ch => digitOf unwritten ch == 0).drop
        (s.takeWhile fun ch => digitOf unwritten ch == 0).length = s.dropWhile fun ch => digitOf unwritten ch == 0 :=
      List.drop_left
    rw [hsplit] at hdrop
    rw [hdrop]
    rw [← hsplit] at hch
    refine (List.mem_append.mp hch).resolve_left fun hzero => ?_
    have hall := List.all_eq_true.mp (List.all_takeWhile (l := s) (p := fun ch => digitOf unwritten ch == 0)) ch hzero
    rw [hdigit] at hall
    cases hall
  unfold btcBase58Decode
  dsimp only
  rw [foldlM_eq_none (hstop _) hmem]
  rfl

/-- Then the check reads what was in the buffer before. -/
lemma btcBase58DecodeCheck_of_none (sha256Raw : Sha256) (hnone : btcBase58Decode unwritten s.length s = none) (hlength : s.length ≤ 128)
    (data : List UInt8) (hdata : s.length ≤ data.length) :
    btcBase58DecodeCheck unwritten sha256Raw s data =
      (if btcB58check sha256Raw (data.take s.length ++ List.replicate (data.length - s.length) 0) s.length s < 0 then 0
        else (s.length : Int), data.take s.length ++ List.replicate (data.length - s.length) 0) := by
  have hguard : (s.length > 128 || data.length < s.length) = false := by
    rw [Bool.or_eq_false_iff, decide_eq_false_iff_not, decide_eq_false_iff_not]
    omega
  unfold btcBase58DecodeCheck
  dsimp only
  rw [hguard, hnone, if_neg (by simp)]
  dsimp only
  rw [Nat.sub_self, List.drop_zero]
  split <;> rfl

/-- A stack that holds these octets and zeros. -/
def holding (bytes : List UInt8) : Unwritten :=
  ⟨fun _ => 0, fun size => Vector.ofFn fun i : Fin size => bytes.getD i 0⟩

lemma holding_buffer {bytes : List UInt8} {size : ℕ} (h : bytes.length ≤ size) :
    ((holding bytes).buffer size).toList = bytes ++ List.replicate (size - bytes.length) 0 := by
  unfold holding
  apply List.ext_getElem
  · simp
    omega
  · intro i hi hi'
    rw [Vector.getElem_toList, Vector.getElem_ofFn, List.getElem_append, List.getD_eq_getElem?_getD]
    by_cases hlt : i < bytes.length
    · rw [dif_pos hlt, List.getElem?_eq_getElem hlt, Option.getD_some]
    · rw [dif_neg hlt, List.getElem?_eq_none (Nat.le_of_not_lt hlt), List.getElem_replicate]
      rfl

/-- Behind a first character that is no one, the checksum and the first octet decide. -/
lemma btcB58check_neg_iff_of_first (hfirst : s.head? ≠ some '1'.toUInt8) {bin : List UInt8} {binsz : ℕ}
    (hfour : 4 ≤ binsz) : btcB58check sha256Raw bin binsz s < 0 ↔
      (bin.drop (binsz - 4)).take 4 ≠ checksum sha256Raw (bin.take (binsz - 4)) ∨ bin.headD 0 = 0 := by
  have hskip : skipZeros bin s = (bin, s) := by
    cases bin with
    | nil => rfl
    | cons b bin =>
      cases s with
      | nil => rfl
      | cons ch s =>
        have hch : ch ≠ '1'.toUInt8 := fun h => hfirst (by rw [h]; rfl)
        rw [skipZeros, if_neg (by simp [hch])]
  have hhead : s.headD 0 ≠ '1'.toUInt8 := by
    cases s with
    | nil => decide
    | cons ch s => exact fun h => hfirst (by rw [← h]; rfl)
  unfold btcB58check
  rw [if_neg (by omega), hskip]
  dsimp only
  by_cases hsum : (bin.drop (binsz - 4)).take 4 = checksum sha256Raw (bin.take (binsz - 4))
  · rw [if_neg (by simpa [checksum] using hsum)]
    by_cases hzero : bin.headD 0 = 0
    · rw [if_pos (by rw [hzero]; rfl)]
      exact iff_of_true (by omega) (.inr hzero)
    · rw [if_neg (by rw [Bool.or_eq_true, beq_iff_eq, beq_iff_eq, not_or]; exact ⟨hzero, hhead⟩)]
      exact iff_of_false (by omega) fun h => h.elim (fun h => h hsum) hzero
  · rw [if_pos (by simpa [checksum] using hsum)]
    exact iff_of_true (by omega) (.inl hsum)

/-- The answer to a string is the same whatever was on the stack exactly when every character is a base58 digit,
or the string is accepted as a witness program. -/
theorem addrCheck_determined_iff (sha256Raw : Sha256) (net : NetType) (s : Str) (hascii : ∀ ch ∈ s, ch &&& 0x80 = 0)
    (hfirst : s.head? ≠ some '1'.toUInt8) (hlow : 5 ≤ s.length) (hhigh : s.length ≤ 128) :
    (∀ unwritten unwritten', addrCheck (btcCodec unwritten sha256Raw) net s =
        addrCheck (btcCodec unwritten' sha256Raw) net s) ↔
      (∀ ch ∈ s, ch ∈ b58digitsOrdered) ∨ EncodesSegwit net s := by
  constructor
  · intro hsame
    by_contra hneither
    obtain ⟨hbad, hsegwit⟩ := not_or.mp hneither
    obtain ⟨ch, hch, hno⟩ : ∃ ch ∈ s, ch ∉ b58digitsOrdered := by
      by_contra hall
      refine hbad fun ch hch => ?_
      by_contra hno
      exact hall ⟨ch, hch, hno⟩
    have hdecode {bytes : List UInt8} (hbytes : bytes.length = s.length) :
        (btcCodec (holding bytes) sha256Raw).base58DecodeCheck s =
          (if btcB58check sha256Raw (bytes ++ List.replicate s.length 0) s.length s < 0 then 0 else (s.length : Int),
            bytes ++ List.replicate s.length 0) := by
      have hbuffer := holding_buffer (show bytes.length ≤ s.length * 2 by omega)
      have hrest : s.length * 2 - bytes.length = s.length := by omega
      rw [hrest] at hbuffer
      have hnone : btcBase58Decode (holding bytes) s.length s = none :=
        btcBase58Decode_eq_none hch (hascii ch hch) hno s.length
      have hcheck := btcBase58DecodeCheck_of_none sha256Raw hnone hhigh
        (bytes ++ List.replicate s.length 0) (by rw [List.length_append, hbytes]; omega)
      have hmoved : (bytes ++ List.replicate s.length 0).take s.length = bytes := by rw [← hbytes, List.take_left]
      have hleft : (bytes ++ List.replicate s.length 0).length - s.length = s.length := by
        rw [List.length_append, List.length_replicate, hbytes, Nat.add_sub_cancel]
      rw [hmoved, hleft] at hcheck
      show btcBase58DecodeCheck _ _ _ _ = _
      rw [hbuffer]
      exact hcheck
    -- zeros on the stack
    have hzeros : addrCheck (btcCodec (holding (List.replicate s.length 0)) sha256Raw) net s = false := by
      rw [Bool.eq_false_iff]
      intro haccepted
      obtain ⟨hpos, -⟩ := (addrCheck_btcCodec_iff.mp haccepted).resolve_right hsegwit
      have hneg : btcB58check sha256Raw (List.replicate s.length 0 ++ List.replicate s.length 0) s.length s < 0 := by
        rw [btcB58check_neg_iff_of_first hfirst (by omega)]
        exact .inr (by cases s <;> simp [List.replicate_succ] at hlow ⊢)
      rw [hdecode (by simp), if_pos hneg] at hpos
      exact absurd hpos (by omega)
    -- a script address on the stack
    have haddress : ∃ bytes, addrCheck (btcCodec (holding bytes) sha256Raw) net s = true := by
      have hne : (chainParams net).b58prefixScriptAddress ≠ 0 := by cases net <;> decide
      generalize hversion : (chainParams net).b58prefixScriptAddress = version at hne
      obtain ⟨data, rest, hcons, hdata⟩ : ∃ data rest, data = version :: rest ∧ data.length = s.length - 4 :=
        ⟨_, List.replicate (s.length - 5) 0, rfl, by simp; omega⟩
      have hsum := length_checksum sha256Raw data
      have hbytes : (data ++ checksum sha256Raw data).length = s.length := by
        rw [List.length_append, hdata, hsum]
        omega
      have hcheck : ¬btcB58check sha256Raw (data ++ checksum sha256Raw data ++ List.replicate s.length 0) s.length s < 0 := by
        rw [btcB58check_neg_iff_of_first hfirst (by omega), ← hdata, List.append_assoc, List.drop_left, List.take_left,
          ← hsum, List.take_left,
          hcons]
        exact fun h => h.elim (fun h => h rfl) hne
      refine ⟨data ++ checksum sha256Raw data, addrCheck_iff.mpr (.inl ⟨?_, version, ?_, .inr hversion.symm⟩)⟩
      · rw [hdecode hbytes, if_neg hcheck]
        omega
      · rw [hdecode hbytes, hcons]
        rfl
    obtain ⟨bytes, haccepted⟩ := haddress
    rw [hsame _ (holding bytes), haccepted] at hzeros
    cases hzeros
  · intro h unwritten unwritten'
    rw [Bool.eq_iff_iff, addrCheck_btcCodec_iff, addrCheck_btcCodec_iff]
    rcases h with hdigits | hsegwit
    · rw [takenAsBase58_iff_encodesBase58 hdigits hhigh, takenAsBase58_iff_encodesBase58 hdigits hhigh]
    · exact iff_of_true (.inr hsegwit) (.inr hsegwit)

set_option maxRecDepth 2000 in
theorem addrCheck_hello_depends : ¬∀ unwritten unwritten',
    addrCheck (btcCodec unwritten fun _ => .replicate 32 7) .main (lit "hello") =
      addrCheck (btcCodec unwritten' fun _ => .replicate 32 7) .main (lit "hello") := by
  intro h
  rcases (addrCheck_determined_iff (fun _ => .replicate 32 7) .main (lit "hello") (by decide) (by decide) (by decide)
    (by decide)).mp h with hdigits | hsegwit
  · exact absurd hdigits (by decide)
  · obtain ⟨version, program, hdecode, -⟩ := segwit_iff_encodesSegwit.mpr hsegwit
    have hnone : segwitAddrDecode (chainParams .main).bech32Hrp (lit "hello") = none := by decide
    rw [hnone] at hdecode
    cases hdecode

end ContractPython.Btc
