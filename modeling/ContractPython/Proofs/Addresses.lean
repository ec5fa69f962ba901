import ContractPython.Model.Blockchain

/-!
# Which addresses are accepted

`addr_check` looks at the first byte of a base58 address and at the length of a witness program. It
does not look at the length of the base58 address nor at the version of the witness program.
-/

namespace ContractPython.Proofs

/-- What base58check decoding promises: of the strings of at most 128 characters it accepts those that
stand for bytes of which the last four are the checksum of the others, and it gives these bytes. -/
structure DecodesBase58 (base58 : Str → Option (List UInt8)) (checksum : List UInt8 → List UInt8)
    (codec : AddressCodec) : Prop where
  length_checksum : ∀ payload, (checksum payload).length = 4
  length_le : ∀ s bytes, base58 s = some bytes → s.length ≤ 2 * bytes.length
  accepts : ∀ s payload, s.length ≤ 128 → base58 s = some (payload ++ checksum payload) →
    0 < (codec.base58DecodeCheck s).1
  decodes : ∀ s, 0 < (codec.base58DecodeCheck s).1 → ∃ payload rest,
    base58 s = some (payload ++ checksum payload) ∧
    (codec.base58DecodeCheck s).1 = ((payload ++ checksum payload).length : Int) ∧
    (codec.base58DecodeCheck s).2 = payload ++ checksum payload ++ rest

section Addresses

variable (codec : AddressCodec) (net : NetType) (s : Str)

/-- One of the two prefixes of the network. -/
def NetPrefix (version : UInt8) : Prop :=
  version = (chainParams net).b58prefixPubkeyAddress ∨ version = (chainParams net).b58prefixScriptAddress

/-- A version byte of the network, 20 bytes and their checksum. -/
def WellFormedBase58 (base58 : Str → Option (List UInt8)) (checksum : List UInt8 → List UInt8) : Prop :=
  ∃ version hash, NetPrefix net version ∧ hash.length = 20 ∧
    base58 s = some (version :: hash ++ checksum (version :: hash))

/-- A witness program of version 0 and of 20 bytes. -/
def WellFormedSegwit : Prop :=
  ∃ program, codec.segwitAddrDecode (chainParams net).bech32Hrp s = some (0, program) ∧ program.length = 20

/-- The base58 decoder accepts the string and gives a prefix of the network first. -/
def TakenAsBase58 : Prop :=
  0 < (codec.base58DecodeCheck s).1 ∧ ∃ version ∈ (codec.base58DecodeCheck s).2.head?, NetPrefix net version

/-- What `addr_check` leaves unchecked: the length of a base58 address, and otherwise the version of a
witness program of 20 bytes. -/
def LengthAndVersion : Prop :=
  (TakenAsBase58 codec net s → (codec.base58DecodeCheck s).1 = 25 ∨ WellFormedSegwit codec net s) ∧
    (¬TakenAsBase58 codec net s → ∀ version program,
      codec.segwitAddrDecode (chainParams net).bech32Hrp s = some (version, program) → program.length = 20 →
      version = 0)

variable {codec net s} {base58 : Str → Option (List UInt8)} {checksum : List UInt8 → List UInt8}

lemma takenAsBase58_iff : TakenAsBase58 codec net s ↔
    ((codec.base58DecodeCheck s).1 > 0 &&
        (codec.base58DecodeCheck s).2.head? == some (chainParams net).b58prefixPubkeyAddress) = true ∨
      ((codec.base58DecodeCheck s).1 > 0 &&
        (codec.base58DecodeCheck s).2.head? == some (chainParams net).b58prefixScriptAddress) = true := by
  unfold TakenAsBase58 NetPrefix
  cases (codec.base58DecodeCheck s).2.head? with
  | none => simp
  | some version =>
    simp only [Option.mem_def, Option.some.injEq, exists_eq_left']
    simp [and_or_left]

/-- Acceptance is one of the two branches. -/
lemma addrCheck_iff : addrCheck codec net s = true ↔ TakenAsBase58 codec net s ∨ ∃ version program,
    codec.segwitAddrDecode (chainParams net).bech32Hrp s = some (version, program) ∧ program.length = 20 := by
  rw [takenAsBase58_iff]
  unfold addrCheck
  dsimp only
  split
  · rename_i hpubkey
    simp [hpubkey]
  · rename_i hpubkey
    split
    · rename_i hscript
      simp [hscript]
    · rename_i hscript
      simp only [hpubkey, hscript, or_self]
      cases codec.segwitAddrDecode (chainParams net).bech32Hrp s with
      | none => simp
      | some decoded => simp [Prod.ext_iff]

lemma exists_payload (hcodec : DecodesBase58 base58 checksum codec) (htaken : TakenAsBase58 codec net s)
    (hlength : (codec.base58DecodeCheck s).1 = 25) : WellFormedBase58 net s base58 checksum := by
  obtain ⟨hpos, version, hversion, hprefix⟩ := htaken
  obtain ⟨payload, rest, hbase58, hr, hbuf⟩ := hcodec.decodes s hpos
  have hpayload : payload.length = 21 := by
    rw [hr, List.length_append, hcodec.length_checksum] at hlength
    omega
  cases payload with
  | nil => cases hpayload
  | cons version' hash =>
    rw [hbuf] at hversion
    cases hversion
    exact ⟨_, hash, hprefix, by simpa using hpayload, hbase58⟩

lemma taken_of_wellFormed (hcodec : DecodesBase58 base58 checksum codec)
    (h : WellFormedBase58 net s base58 checksum) :
    TakenAsBase58 codec net s ∧ (codec.base58DecodeCheck s).1 = 25 := by
  obtain ⟨version, hash, hprefix, hhash, hbase58⟩ := h
  have hlength : (version :: hash ++ checksum (version :: hash)).length = 25 := by
    rw [List.length_append, List.length_cons, hhash, hcodec.length_checksum]
  have hshort : s.length ≤ 128 := by
    have hle := hcodec.length_le s _ hbase58
    omega
  have hpos := hcodec.accepts s _ hshort hbase58
  obtain ⟨payload, rest, hbase58', hr, hbuf⟩ := hcodec.decodes s hpos
  rw [hbase58] at hbase58'
  have heq := Option.some.inj hbase58'
  rw [← heq] at hr hbuf
  refine ⟨⟨hpos, version, ?_, hprefix⟩, ?_⟩
  · rw [hbuf]
    rfl
  · rw [hr, hlength]
    rfl

/-- An accepted address is well formed exactly when its length, or its version, is. -/
theorem address_well_formed_iff {base58 : Str → Option (List UInt8)} {checksum : List UInt8 → List UInt8}
    {codec : AddressCodec} (hcodec : DecodesBase58 base58 checksum codec) (net : NetType) (s : Str) :
    (addrCheck codec net s = true → WellFormedBase58 net s base58 checksum ∨ WellFormedSegwit codec net s) ↔
      LengthAndVersion codec net s := by
  rw [addrCheck_iff]
  constructor
  · intro h
    refine ⟨fun htaken => ?_, fun htaken version program hdecoded hlength => ?_⟩
    · exact (h (.inl htaken)).imp_left fun hwell => (taken_of_wellFormed hcodec hwell).2
    · obtain hwell | ⟨program', hdecoded', -⟩ := h (.inr ⟨version, program, hdecoded, hlength⟩)
      · exact absurd (taken_of_wellFormed hcodec hwell).1 htaken
      · rw [hdecoded] at hdecoded'
        exact congrArg Prod.fst (Option.some.inj hdecoded')
  · rintro ⟨hbase58, hsegwit⟩ haccepted
    by_cases htaken : TakenAsBase58 codec net s
    · exact (hbase58 htaken).imp_left fun hlength => exists_payload hcodec htaken hlength
    · obtain ⟨version, program, hdecoded, hlength⟩ := haccepted.resolve_left htaken
      have hversion := hsegwit htaken version program hdecoded hlength
      rw [hversion] at hdecoded
      exact .inr ⟨program, hdecoded, hlength⟩

end Addresses

/-! ### Two addresses -/

/-- The checksum and the decoders, as far as one string goes. -/
def checksumIn (bytes payload : List UInt8) : List UInt8 :=
  if payload = bytes.take (bytes.length - 4) then bytes.drop (bytes.length - 4) else [0, 0, 0, 0]

def base58Of (address : Str) (bytes : List UInt8) (s : Str) : Option (List UInt8) :=
  if s = address then some bytes else none

def codecOf (address : Str) (bytes : List UInt8) : AddressCodec where
  base58DecodeCheck s := if s = address then (bytes.length, bytes) else (0, [])
  segwitAddrDecode _ _ := none

lemma decodesBase58_codecOf {address : Str} {bytes : List UInt8} (hbytes : 4 ≤ bytes.length)
    (haddress : address.length ≤ 2 * bytes.length) :
    DecodesBase58 (base58Of address bytes) (checksumIn bytes) (codecOf address bytes) where
  length_checksum payload := by
    unfold checksumIn
    split
    · rw [List.length_drop]
      omega
    · rfl
  length_le s bytes' h := by
    unfold base58Of at h
    split at h
    · rename_i hs
      cases h
      rw [hs]
      exact haddress
    · cases h
  accepts s payload _ h := by
    unfold base58Of at h
    split at h
    · rename_i hs
      unfold codecOf
      dsimp only
      rw [if_pos hs]
      dsimp only
      omega
    · cases h
  decodes s h := by
    unfold codecOf at h ⊢
    dsimp only at h ⊢
    split at h
    · rename_i hs
      have hchecksum : checksumIn bytes (bytes.take (bytes.length - 4)) = bytes.drop (bytes.length - 4) := if_pos rfl
      have hbytes' : bytes.take (bytes.length - 4) ++ checksumIn bytes (bytes.take (bytes.length - 4)) = bytes := by
        rw [hchecksum]
        exact List.take_append_drop _ _
      refine ⟨bytes.take (bytes.length - 4), [], ?_, ?_, ?_⟩
      · rw [hbytes']
        exact if_pos hs
      · rw [hbytes', if_pos hs]
      · rw [hbytes', if_pos hs, List.append_nil]
    · cases h

/-- The default sender of the module and the bytes it stands for. -/
def senderAddress : Str := lit "1A1zP1eP5QGefi2DMPTfTL5SLmv7DivfNa"

def senderBytes : List UInt8 :=
  [0x00, 0x62, 0xe9, 0x07, 0xb1, 0x5c, 0xbf, 0x27, 0xd5, 0x42, 0x53, 0x99, 0xeb, 0xf6, 0xf0, 0xfb, 0x50, 0xeb, 0xb8,
    0x8f, 0x18, 0xc2, 0x9b, 0x7d, 0x93]

/-- The default sender is well formed. -/
theorem address_well_formed_sender :
    WellFormedBase58 .main senderAddress (base58Of senderAddress senderBytes) (checksumIn senderBytes) ∨
      WellFormedSegwit (codecOf senderAddress senderBytes) .main senderAddress := by
  have hcodec : DecodesBase58 (base58Of senderAddress senderBytes) (checksumIn senderBytes)
      (codecOf senderAddress senderBytes) := decodesBase58_codecOf (by decide) (by decide)
  have hiff := address_well_formed_iff hcodec .main senderAddress
  have haccepted : addrCheck (codecOf senderAddress senderBytes) .main senderAddress = true := by decide
  refine hiff.mpr ⟨fun _ => .inl ?_, fun _ version program hdecoded => ?_⟩ haccepted
  · decide
  · cases hdecoded

/-- A version byte and its checksum, without any hash. -/
def shortAddress : Str := lit "1Wh4bh"

def shortBytes : List UInt8 := [0x00, 0x14, 0x06, 0xe0, 0x58]

/-- The short address is accepted. -/
theorem address_well_formed_short_false :
    DecodesBase58 (base58Of shortAddress shortBytes) (checksumIn shortBytes) (codecOf shortAddress shortBytes) ∧
      ¬(addrCheck (codecOf shortAddress shortBytes) .main shortAddress = true →
        WellFormedBase58 .main shortAddress (base58Of shortAddress shortBytes) (checksumIn shortBytes) ∨
          WellFormedSegwit (codecOf shortAddress shortBytes) .main shortAddress) := by
  have hcodec : DecodesBase58 (base58Of shortAddress shortBytes) (checksumIn shortBytes)
      (codecOf shortAddress shortBytes) := decodesBase58_codecOf (by decide) (by decide)
  refine ⟨hcodec, fun h => ?_⟩
  obtain ⟨version, hash, -, hhash, hbase58⟩ | ⟨program, hdecoded, -⟩ := h (by decide)
  · have hbytes : shortBytes = version :: hash ++ checksumIn shortBytes (version :: hash) :=
      Option.some.inj hbase58
    have hlength : shortBytes.length = hash.length + 1 + 4 := by
      rw [← List.length_cons, ← hcodec.length_checksum (version :: hash), ← List.length_append]
      exact congrArg List.length hbytes
    rw [hhash] at hlength
    cases hlength
  · cases hdecoded

end ContractPython.Proofs
