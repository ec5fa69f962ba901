import ContractPython.Model.Base58

/-!
# Segregated witness addresses

`thirdparty/btc/segwit_addr.c`: the checksum over GF(32), the strings it protects and the regrouping of
bits. A C string is what stands before its terminator.
-/

namespace ContractPython.Btc

/-! ### Strings with a checksum -/

/-- `-((b >> i) & 1) & generator`. -/
def generatorTerm (b i generator : UInt32) : UInt32 := (0 - ((b >>> i) &&& 1)) &&& generator

def bech32PolymodStep (pre : UInt32) : UInt32 :=
  let b := pre >>> 25
  ((pre &&& 0x1FFFFFF) <<< 5) ^^^ generatorTerm b 0 0x3b6a57b2 ^^^ generatorTerm b 1 0x26508e6d ^^^
    generatorTerm b 2 0x1ea119fa ^^^ generatorTerm b 3 0x3d4233dd ^^^ generatorTerm b 4 0x2a1462b3

/-- A step, and the next value. -/
def feed (chk v : UInt32) : UInt32 := bech32PolymodStep chk ^^^ v

def charset : Str := lit "qpzry9x8gf2tvdw0s3jn54khce6mua7l"

def charsetRev : List Int := [
    -1, -1, -1, -1, -1, -1, -1, -1, -1, -1, -1, -1, -1, -1, -1, -1,
    -1, -1, -1, -1, -1, -1, -1, -1, -1, -1, -1, -1, -1, -1, -1, -1,
    -1, -1, -1, -1, -1, -1, -1, -1, -1, -1, -1, -1, -1, -1, -1, -1,
    15, -1, 10, 17, 21, 20, 26, 30,  7,  5, -1, -1, -1, -1, -1, -1,
    -1, 29, -1, 24, 13, 25,  9,  8, 23, -1, 18, 22, 31, 27, 19, -1,
     1,  0,  3, 16, 11, 28, 12, 14,  6,  4,  2, -1, -1, -1, -1, -1,
    -1, 29, -1, 24, 13, 25,  9,  8, 23, -1, 18, 22, 31, 27, 19, -1,
     1,  0,  3, 16, 11, 28, 12, 14,  6,  4,  2, -1, -1, -1, -1, -1]

def isUpper (ch : UInt8) : Bool := 'A'.toUInt8 ≤ ch && ch ≤ 'Z'.toUInt8

def isLower (ch : UInt8) : Bool := 'a'.toUInt8 ≤ ch && ch ≤ 'z'.toUInt8

/-- The characters a human readable part may have. From 128 on a `char` is negative. -/
def isHrpChar (ch : UInt8) : Bool := 33 ≤ ch && ch ≤ 126

/-- The loops over the human readable part. -/
def feedHrp (hrp : Str) : UInt32 :=
  let chk := hrp.foldl (fun chk (ch : UInt8) => feed chk (ch >>> 5).toUInt32) 1
  hrp.foldl (fun chk ch => feed chk (ch &&& 0x1f).toUInt32) (bech32PolymodStep chk)

def bech32Encode (hrp : Str) (data : List UInt8) : Option Str :=
  if hrp.any fun ch => !isHrpChar ch || isUpper ch then none
  else if hrp.length + 7 + data.length > 90 then none
  else if data.any (· >>> 5 != 0) then none
  else
    let chk := data.foldl (fun chk v => feed chk v.toUInt32) (feedHrp hrp)
    let chk := (List.range 6).foldl (fun chk _ => bech32PolymodStep chk) chk
    let chk := chk ^^^ 1
    let check := (List.range 6).map fun i => ((chk >>> UInt32.ofNat ((5 - i) * 5)) &&& 0x1f).toNat
    some (hrp ++ '1'.toUInt8 :: (data.map fun v => charset.getD v.toNat 0) ++ check.map fun v => charset.getD v 0)

/-- The lower case of a character of the human readable part. -/
def lowered (ch : UInt8) : UInt8 := if isUpper ch then ch - 'A'.toUInt8 + 'a'.toUInt8 else ch

/-- The value of a character behind the separator. -/
def valueOf (ch : UInt8) : Int := if ch &&& 0x80 != 0 then -1 else charsetRev.getD ch.toNat (-1)

/-- The human readable part and the values without the checksum. -/
def bech32Decode (input : Str) : Option (Str × List UInt8) :=
  let inputLen := input.length
  if inputLen < 8 || inputLen > 90 then none
  else
    let dataLen := (input.reverse.takeWhile (· != '1'.toUInt8)).length
    if 1 + dataLen ≥ inputLen || dataLen < 6 then none
    else
      let hrp := input.take (inputLen - (1 + dataLen))
      let data := input.drop (inputLen - dataLen)
      if hrp.any fun ch => !isHrpChar ch then none
      else if data.any fun ch => valueOf ch == -1 then none
      else if (hrp.any isLower || data.any isLower) && (hrp.any isUpper || data.any isUpper) then none
      else
        let values := data.map fun ch => UInt8.ofNat (valueOf ch).toNat
        let chk := (hrp.map lowered).foldl (fun chk (ch : UInt8) => feed chk (ch >>> 5).toUInt32) 1
        let chk := hrp.foldl (fun chk ch => feed chk (ch &&& 0x1f).toUInt32) (bech32PolymodStep chk)
        let chk := values.foldl (fun chk v => feed chk v.toUInt32) chk
        if chk = 1 then some (hrp.map lowered, values.take (dataLen - 6)) else none

/-! ### Witness programs -/

/-- The inner loop of `convert_bits`: while there are `outbits` bits, they are written. -/
def emitBits (outbits : Nat) (val : UInt32) : Nat → Nat → List UInt8 → Nat × List UInt8
  | 0, bits, out => (bits, out)
  | rounds + 1, bits, out =>
    if bits ≥ outbits then
      let bits := bits - outbits
      emitBits outbits val rounds bits
        (out ++ [((val >>> UInt32.ofNat bits) &&& ((1 <<< UInt32.ofNat outbits) - 1)).toUInt8])
    else (bits, out)

/-- The loop over the input: the value, the bits it still has to give, and the output. A round leaves
the inner loop after at most as many writes as there are bits. -/
def convertLoop (outbits inbits : Nat) (input : List UInt8) : UInt32 × Nat × List UInt8 :=
  input.foldl (fun acc b =>
    let val := (acc.1 <<< UInt32.ofNat inbits) ||| b.toUInt32
    let bits := acc.2.1 + inbits
    (val, emitBits outbits val bits bits acc.2.2)) (0, 0, [])

def convertBits (outbits : Nat) (input : List UInt8) (inbits : Nat) (pad : Bool) : Option (List UInt8) :=
  let (val, bits, out) := convertLoop outbits inbits input
  let rest := (val <<< UInt32.ofNat (outbits - bits)) &&& ((1 <<< UInt32.ofNat outbits) - 1)
  if pad then some (if bits != 0 then out ++ [rest.toUInt8] else out)
  else if rest != 0 || bits ≥ inbits then none
  else some out

def segwitAddrEncode (hrp : Str) (witver : Int) (witprog : List UInt8) : Option Str :=
  if witver > 16 then none
  else if witver == 0 && witprog.length != 20 && witprog.length != 32 then none
  else if witprog.length < 2 || witprog.length > 40 then none
  else bech32Encode hrp (UInt8.ofInt witver :: (convertBits 5 witprog 8 true).getD [])

/-- The version and the program. -/
def segwitAddrDecode (hrp addr : Str) : Option (Int × List UInt8) :=
  match bech32Decode addr with
  | none => none
  | some (hrpActual, data) =>
    if data.length == 0 || data.length > 65 then none
    else if hrp.take 84 != hrpActual.take 84 then none
    else if data.headD 0 > 16 then none
    else
      match convertBits 8 data.tail 5 false with
      | none => none
      | some witdata =>
        if witdata.length < 2 || witdata.length > 40 then none
        else if data.headD 0 == 0 && witdata.length != 20 && witdata.length != 32 then none
        else some ((data.headD 0).toNat, witdata)

/-- The address of a witness public key hash. -/
def btcP2wpkhAddrFromHash160 (hashin : Vector UInt8 20) (chain : ChainParams) : Option Str :=
  segwitAddrEncode chain.bech32Hrp 0 hashin.toList

/-- The decoders `addr_check` calls. The buffer for the first is on the stack and twice as long as the address. -/
def btcCodec (unwritten : Unwritten) (sha256Raw : Sha256) : AddressCodec where
  base58DecodeCheck address :=
    btcBase58DecodeCheck unwritten sha256Raw address (unwritten.buffer (address.length * 2)).toList
  segwitAddrDecode := segwitAddrDecode

end ContractPython.Btc
