import ContractPython.Model.Blockchain

/-!
# Base58 addresses

`thirdparty/btc/base58.c`. Sizes, and the positions in a buffer, are natural numbers; a C string is
what stands before its terminator.
-/

namespace ContractPython.Btc

/-- What the code reads without having written it: the bytes behind `b58digits_map`, and the contents
of a buffer on the stack. -/
structure Unwritten where
  behindMap : UInt8 → Int
  buffer : (size : Nat) → Vector UInt8 size

def b58digitsMap : List Int := [
    -1, -1, -1, -1, -1, -1, -1, -1, -1, -1, -1, -1, -1, -1, -1, -1,
    -1, -1, -1, -1, -1, -1, -1, -1, -1, -1, -1, -1, -1, -1, -1, -1,
    -1, -1, -1, -1, -1, -1, -1, -1, -1, -1, -1, -1, -1, -1, -1, -1,
    -1, 0, 1, 2, 3, 4, 5, 6, 7, 8, -1, -1, -1, -1, -1, -1,
    -1, 9, 10, 11, 12, 13, 14, 15, 16, -1, 17, 18, 19, 20, 21, -1,
    22, 23, 24, 25, 26, 27, 28, 29, 30, 31, 32, -1, -1, -1, -1, -1,
    -1, 33, 34, 35, 36, 37, 38, 39, 40, 41, 42, 43, -1, 44, 45, 46,
    47, 48, 49, 50, 51, 52, 53, 54, 55, 56, 57, -1, -1, -1, -1, -1]

def b58digitsOrdered : Str := lit "123456789ABCDEFGHJKLMNPQRSTUVWXYZabcdefghijkmnopqrstuvwxyz"

/-! ### Decoding -/

section Decoding

variable (unwritten : Unwritten)

/-- `b58digits_map[ch]`. The map has 128 entries. -/
def digitOf (ch : UInt8) : Int := b58digitsMap.getD ch.toNat (unwritten.behindMap ch)

/-- The words of the number times 58, from the last to the first, and the carry. -/
def mulAdd (outi : List UInt32) (c : UInt32) : List UInt32 × UInt32 :=
  outi.foldr (fun word acc =>
    let t := word.toUInt64 * 58 + acc.2.toUInt64
    ((t &&& 0xffffffff).toUInt32 :: acc.1, ((t &&& 0x3f00000000) >>> 32).toUInt32)) ([], c)

/-- One round of the loop over the digits. -/
def decodeDigit (zeromask : UInt32) (outi : List UInt32) (ch : UInt8) : Option (List UInt32) :=
  if ch &&& 0x80 != 0 then none
  else if digitOf unwritten ch == -1 then none
  else
    let (outi, c) := mulAdd outi (UInt32.ofNat (digitOf unwritten ch).toNat)
    if c != 0 then none
    else if outi.headD 0 &&& zeromask != 0 then none
    else some outi

def wordOctets (word : UInt32) : List UInt8 :=
  [((word >>> 0x18) &&& 0xff).toUInt8, ((word >>> 0x10) &&& 0xff).toUInt8, ((word >>> 8) &&& 0xff).toUInt8,
    ((word >>> 0) &&& 0xff).toUInt8]

/-- The switch over `bytesleft`, whose cases fall through, and the words behind the first. -/
def outputOctets (bytesleft : Nat) : List UInt32 → List UInt8
  | [] => []
  | word :: rest =>
    match bytesleft with
    | 3 => ((word &&& 0xff0000) >>> 16).toUInt8 :: ((word &&& 0xff00) >>> 8).toUInt8 ::
        (word &&& 0xff).toUInt8 :: rest.flatMap wordOctets
    | 2 => ((word &&& 0xff00) >>> 8).toUInt8 :: (word &&& 0xff).toUInt8 :: rest.flatMap wordOctets
    | 1 => (word &&& 0xff).toUInt8 :: rest.flatMap wordOctets
    | _ => (word :: rest).flatMap wordOctets

/-- What is written to `bin`, and the value of `*binszp` at the end. -/
def btcBase58Decode (binsz : Nat) (b58 : Str) : Option (List UInt8 × Nat) := do
  let outisz := (binsz + 3) / 4
  let bytesleft := binsz % 4
  let zeromask : UInt32 := if bytesleft != 0 then 0xffffffff <<< UInt32.ofNat (bytesleft * 8) else 0
  let zerocount := (b58.takeWhile fun ch => digitOf unwritten ch == 0).length
  let outi ← (b58.drop zerocount).foldlM (decodeDigit unwritten zeromask) (List.replicate outisz 0)
  let binu := outputOctets bytesleft outi
  some (binu, binsz - (binu.takeWhile (· == 0)).length + zerocount)

end Decoding

/-- `sha256_Raw`. -/
abbrev Sha256 := List UInt8 → Vector UInt8 32

/-- `sha256_Raw` of its own result. -/
def doubleHash (sha256Raw : Sha256) (data : List UInt8) : List UInt8 :=
  (sha256Raw (sha256Raw data).toList).toList

/-- The loop of `btc_b58check` over zeros and ones. -/
def skipZeros : List UInt8 → Str → List UInt8 × Str
  | b :: binc, ch :: str => if b == 0 && ch == '1'.toUInt8 then skipZeros binc str else (b :: binc, ch :: str)
  | binc, str => (binc, str)

def btcB58check (sha256Raw : Sha256) (bin : List UInt8) (binsz : Nat) (base58str : Str) : Int :=
  if binsz < 4 then -4
  else if (bin.drop (binsz - 4)).take 4 != (doubleHash sha256Raw (bin.take (binsz - 4))).take 4 then -1
  else
    let (binc, str) := skipZeros bin base58str
    if binc.headD 0 == 0 || str.headD 0 == '1'.toUInt8 then -3 else (bin.headD 0).toNat

/-- The result code and the buffer. The result that a failure of the decoder sets is overwritten by
that of the check, which then reads what was in the buffer before. -/
def btcBase58DecodeCheck (unwritten : Unwritten) (sha256Raw : Sha256) (str : Str) (data : List UInt8) :
    Int × List UInt8 :=
  let strl := str.length
  if strl > 128 || data.length < strl then (0, data)
  else
    let (data', binsize) :=
      match btcBase58Decode unwritten strl str with
      | some (bin, binsize) => (bin ++ data.drop strl, binsize)
      | none => (data, strl)
    let moved := (data'.drop (strl - binsize)).take binsize ++ List.replicate (data.length - binsize) 0
    if btcB58check sha256Raw moved binsize str < 0 then (0, moved) else (binsize, moved)

/-! ### Encoding -/

inductive EncodeError
  /-- The string does not fit; what `*b58sz` is set to. -/
  | tooSmall (b58sz : Nat)
  /-- A write before the start of `buf`. -/
  | outOfBounds
  deriving DecidableEq

/-- The inner loop of `btc_base58_encode`. `buf` is taken from its end, `used` of its positions lie
behind `high`; the second result is how many lie behind the final `j`. -/
def encodeByte : Nat → Nat → List UInt8 → Option (List UInt8 × Nat)
  | 0, 0, buf => some (buf, 0)
  | _, _, [] => none
  | used, carry, digit :: buf =>
    let carry := carry + 256 * digit.toNat
    (encodeByte (used - 1) (carry / 58) buf).map fun acc => (UInt8.ofNat (carry % 58) :: acc.1, acc.2 + 1)

/-- The loop over the bytes. -/
def encodeBytes (size : Nat) (bin : List UInt8) : Option (List UInt8 × Nat) :=
  bin.foldlM (fun acc byte => encodeByte acc.2 byte.toNat acc.1) (List.replicate size 0, 0)

/-- The string written to `b58`; `*b58sz` is then one more than its length. -/
def btcBase58Encode (b58sz : Nat) (bin : List UInt8) : Except EncodeError Str :=
  let zcount := (bin.takeWhile (· == 0)).length
  let size := (bin.length - zcount) * 138 / 100 + 1
  match encodeBytes size (bin.drop zcount) with
  | none => .error .outOfBounds
  | some (buf, _) =>
    let digits := buf.reverse.dropWhile (· == 0)
    if b58sz ≤ zcount + digits.length then .error (.tooSmall (zcount + digits.length + 1))
    else .ok (List.replicate zcount '1'.toUInt8 ++ digits.map fun d => b58digitsOrdered.getD d.toNat 0)

/-- The string, where the result is not 0; it is then one more than the length of the string. -/
def btcBase58EncodeCheck (sha256Raw : Sha256) (data : List UInt8) (strsize : Nat) : Option Str :=
  if data.length > 128 then none
  else (btcBase58Encode strsize (data ++ (doubleHash sha256Raw data).take 4)).toOption

/-- The address of a public key hash. -/
def btcP2pkhAddrFromHash160 (sha256Raw : Sha256) (hashin : Vector UInt8 20) (chain : ChainParams) (len : Nat) :
    Option Str :=
  btcBase58EncodeCheck sha256Raw (chain.b58prefixPubkeyAddress :: hashin.toList) len

end ContractPython.Btc
