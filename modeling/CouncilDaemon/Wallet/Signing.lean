import CouncilDaemon.Interfaces
import Mathlib.Algebra.Group.Nat.Basic
import Mathlib.Data.List.Basic

/-! Signing in `WalletService`: `signDepositData`, `signPauseDataV3`, `signPauseDataV2` and
`signUnvetData` encode their fields with `defaultAbiCoder.encode`, hash the encoding with
`keccak256` and sign the digest with the guardian's key. The coder is modelled from the spec, as
the Solidity ABI lays a tuple out: a `bytes32` or `uint256` field is one 32-byte word, big-endian
for a number; a `bytes` field has in its head word the offset of its tail, and its tail is its
length word and its bytes, padded with zeros to whole words. The signers pass their `uint256`
fields as JS numbers, which the coder refuses from `Number.MAX_SAFE_INTEGER` on. Hex strings are
taken as their bytes (after `arrayify`); `keccak256` and `signMessage` are parameters.

Proved: decoding an encoding gives back its fields; the data a signer hashes determines which of
the four messages it signs and every field of it, so two signed messages hash the same data only
when they are the same. -/

namespace CouncilDaemon.Wallet

/-! ### Big-endian words -/

/-- The `w` big-endian bytes of `n`; bits above `8 * w` are dropped. -/
def toBytesBE : ℕ → ℕ → List UInt8
  | 0, _ => []
  | w + 1, n => UInt8.ofNat (n / 256 ^ w) :: toBytesBE w n

/-- The natural with the given big-endian bytes. -/
def fromBytesBE : List UInt8 → ℕ
  | [] => 0
  | b :: bytes => b.toNat * 256 ^ bytes.length + fromBytesBE bytes

@[simp] theorem length_toBytesBE (w n : ℕ) : (toBytesBE w n).length = w := by
  induction w with
  | zero => rfl
  | succ w ih => simp [toBytesBE, ih]

theorem fromBytesBE_toBytesBE (w n : ℕ) : fromBytesBE (toBytesBE w n) = n % 256 ^ w := by
  induction w with
  | zero => simp [toBytesBE, fromBytesBE, Nat.mod_one]
  | succ w ih =>
    rw [toBytesBE, fromBytesBE, length_toBytesBE, ih, Nat.mod_pow_succ, Nat.add_comm, Nat.mul_comm]
    rfl

theorem fromBytesBE_toBytesBE_of_lt {n : ℕ} (h : n < 2 ^ 256) : fromBytesBE (toBytesBE 32 n) = n := by
  rw [fromBytesBE_toBytesBE, Nat.mod_eq_of_lt (by rwa [show (256 : ℕ) ^ 32 = 2 ^ 256 from rfl])]

/-! ### The coder -/

/-- A field as a signer hands it to the coder, with its Solidity type: a `bytes32` or `bytes`
field as its bytes, a `uint256` field as the JS number the signer passes. -/
inductive AbiValue where
  | bytes32 (data : List UInt8)
  | uint256 (value : ℕ)
  | bytes (data : List UInt8)
  deriving DecidableEq, Repr

/-- The Solidity types of the signed messages' fields. -/
inductive AbiType where
  | bytes32
  | uint256
  | bytes
  deriving DecidableEq, Repr

/-- The type of a field. -/
def AbiValue.type : AbiValue → AbiType
  | .bytes32 _ => .bytes32
  | .uint256 _ => .uint256
  | .bytes _ => .bytes

/-- One field's encoding: its head when it is static, its tail when it is dynamic. -/
inductive Encoded where
  | static (head : List UInt8)
  | dynamic (tail : List UInt8)

/-- The bytes padded with zeros to whole 32-byte words. -/
def padRight (data : List UInt8) : List UInt8 :=
  data ++ List.replicate ((32 - data.length % 32) % 32) 0

/-- `Number.MAX_SAFE_INTEGER`. -/
def MAX_SAFE : ℕ := 2 ^ 53 - 1

/-- Modelled from the spec: the coder of one field, with the errors of the ABI coder; a `uint256`
given as a JS number goes through `BigNumber.from`, which throws `overflow` from `MAX_SAFE` on. -/
def encodeParam : AbiValue → Except Error Encoded
  | .bytes32 data =>
    if data.length = 32 then .ok (.static data) else .error (.error "incorrect data length")
  | .uint256 value =>
    if MAX_SAFE ≤ value then .error (.error "overflow")
    else if value < 2 ^ 256 then .ok (.static (toBytesBE 32 value))
    else .error (.error "value out-of-bounds")
  | .bytes data => .ok (.dynamic (toBytesBE 32 data.length ++ padRight data))

/-- The heads and the tails of encoded fields whose tails start at byte `offset`. -/
def pack (offset : ℕ) : List Encoded → List UInt8 × List UInt8
  | [] => ([], [])
  | .static head :: rest => (head ++ (pack offset rest).1, (pack offset rest).2)
  | .dynamic tail :: rest =>
    (toBytesBE 32 offset ++ (pack (offset + tail.length) rest).1,
      tail ++ (pack (offset + tail.length) rest).2)

/-- Modelled from the spec: `defaultAbiCoder.encode`, the heads of the fields then their tails,
the first tail right after the heads. -/
def encode (values : List AbiValue) : Except Error (List UInt8) := do
  let encoded ← values.mapM encodeParam
  let packed := pack (32 * encoded.length) encoded
  pure (packed.1 ++ packed.2)

/-- The length of a field's tail: none for a static field. -/
def AbiValue.tailLength : AbiValue → ℕ
  | .bytes data => 32 + (padRight data).length
  | _ => 0

/-- The length of the fields' tails. -/
def tailsLength (values : List AbiValue) : ℕ :=
  values.foldr (fun value length => value.tailLength + length) 0

/-! ### Decoding -/

/-- The 32-byte word at byte `pos`. -/
def word (data : List UInt8) (pos : ℕ) : List UInt8 :=
  (data.drop pos).take 32

/-- The field of the given type whose head word is at byte `pos`, if the data holds one. -/
def decodeParam (data : List UInt8) (pos : ℕ) : AbiType → Option AbiValue
  | .bytes32 => if (word data pos).length = 32 then some (.bytes32 (word data pos)) else none
  | .uint256 =>
    if (word data pos).length = 32 then some (.uint256 (fromBytesBE (word data pos))) else none
  | .bytes =>
    let offset := fromBytesBE (word data pos)
    let length := fromBytesBE (word data offset)
    let content := (data.drop (offset + 32)).take length
    if (word data pos).length = 32 ∧ content.length = length then some (.bytes content) else none

/-- The fields of the given types whose head words start at byte `pos`. -/
def decodeAt (data : List UInt8) : ℕ → List AbiType → Option (List AbiValue)
  | _, [] => some []
  | pos, type :: types => do
    let value ← decodeParam data pos type
    let values ← decodeAt data (pos + 32) types
    pure (value :: values)

/-- `defaultAbiCoder.decode`: the fields of the given types. -/
def decode (types : List AbiType) (data : List UInt8) : Option (List AbiValue) :=
  decodeAt data 0 types

/-! ### What the coder does with one field -/

theorem encodeParam_static {value : AbiValue} {head : List UInt8}
    (h : encodeParam value = .ok (.static head)) :
    head.length = 32 ∧ value.tailLength = 0 ∧
      ∀ {data : List UInt8} {pos : ℕ}, word data pos = head →
        decodeParam data pos value.type = some value := by
  cases value with
  | bytes32 data =>
    simp only [encodeParam] at h
    split_ifs at h with hlength
    cases h
    exact ⟨hlength, rfl, fun hword => by simp [decodeParam, AbiValue.type, hword, hlength]⟩
  | uint256 n =>
    simp only [encodeParam] at h
    split_ifs at h with hsafe hlt
    cases h
    exact ⟨length_toBytesBE _ _, rfl, fun hword => by
      simp [decodeParam, AbiValue.type, hword, fromBytesBE_toBytesBE_of_lt hlt]⟩
  | bytes data => cases h

theorem encodeParam_dynamic {value : AbiValue} {tail : List UInt8}
    (h : encodeParam value = .ok (.dynamic tail)) :
    ∃ data, value = .bytes data ∧ tail = toBytesBE 32 data.length ++ padRight data := by
  cases value with
  | bytes data => cases h; exact ⟨data, rfl, rfl⟩
  | bytes32 _ | uint256 _ =>
    simp only [encodeParam] at h
    split_ifs at h
    cases h

theorem mapM_encodeParam_cons {value : AbiValue} {values : List AbiValue}
    {encoded : List Encoded} :
    (value :: values).mapM encodeParam = .ok encoded ↔
      ∃ e es, encodeParam value = .ok e ∧ values.mapM encodeParam = .ok es ∧ encoded = e :: es := by
  rw [List.mapM_cons]
  cases encodeParam value <;> cases values.mapM encodeParam <;>
    simp [bind, Except.bind, pure, Except.pure, eq_comm]

/-! ### Heads and tails -/

theorem pack_length : ∀ {values : List AbiValue} {encoded : List Encoded} (offset : ℕ),
    values.mapM encodeParam = .ok encoded →
      (pack offset encoded).1.length = 32 * values.length ∧
        (pack offset encoded).2.length = tailsLength values
  | [], encoded, offset, h => by cases h; exact ⟨rfl, rfl⟩
  | value :: values, encoded, offset, h => by
    obtain ⟨e, es, he, hes, rfl⟩ := mapM_encodeParam_cons.1 h
    cases e with
    | static head =>
      obtain ⟨hlength, htail, -⟩ := encodeParam_static he
      simp only [pack, List.length_append, hlength, (pack_length _ hes).1, (pack_length _ hes).2,
        List.length_cons, tailsLength, List.foldr_cons, htail, Nat.zero_add, and_true]
      omega
    | dynamic tail =>
      obtain ⟨data, rfl, rfl⟩ := encodeParam_dynamic he
      simp only [pack, List.length_append, length_toBytesBE, (pack_length _ hes).1,
        (pack_length _ hes).2, List.length_cons, tailsLength, List.foldr_cons,
        AbiValue.tailLength, and_true]
      omega

/-! ### Decoding an encoding -/

theorem take_drop_append {data x y : List UInt8} {pos : ℕ}
    (h : (data.drop pos).take (x.length + y.length) = x ++ y) :
    (data.drop pos).take x.length = x ∧ (data.drop (pos + x.length)).take y.length = y := by
  have hlength := congrArg List.length h
  rw [List.take_add] at h
  obtain ⟨hx, hy⟩ := List.append_inj h (by simp at hlength ⊢; omega)
  exact ⟨hx, by rwa [List.drop_drop] at hy⟩

theorem decodeParam_bytes {data content : List UInt8} {pos offset : ℕ}
    (hdata : data.length < 2 ^ 256) (hword : word data pos = toBytesBE 32 offset)
    (htail : (data.drop offset).take (32 + (padRight content).length) =
      toBytesBE 32 content.length ++ padRight content) :
    decodeParam data pos .bytes = some (.bytes content) := by
  have hlength := congrArg List.length htail
  simp only [List.length_take, List.length_drop, List.length_append, length_toBytesBE] at hlength
  have hpad : content.length ≤ (padRight content).length := by simp [padRight]
  obtain ⟨hlengthWord, hcontent⟩ :=
    take_drop_append (by rwa [length_toBytesBE] : (data.drop offset).take
      ((toBytesBE 32 content.length).length + (padRight content).length) = _)
  rw [length_toBytesBE] at hlengthWord hcontent
  have hoffset : fromBytesBE (word data pos) = offset := by
    rw [hword, fromBytesBE_toBytesBE_of_lt (by omega)]
  have hlengthValue : fromBytesBE (word data offset) = content.length := by
    rw [word, hlengthWord, fromBytesBE_toBytesBE_of_lt (by omega)]
  have htake : (data.drop (offset + 32)).take content.length = content := by
    rw [← Nat.min_eq_left hpad, ← List.take_take, hcontent, padRight, List.take_left' rfl]
  simp only [decodeParam, hoffset, hlengthValue, htake]
  simp [hword]

theorem decodeAt_pack {data : List UInt8} (hdata : data.length < 2 ^ 256) :
    ∀ {values : List AbiValue} {encoded : List Encoded} {offset pos : ℕ},
      values.mapM encodeParam = .ok encoded →
      (data.drop pos).take (pack offset encoded).1.length = (pack offset encoded).1 →
      (data.drop offset).take (pack offset encoded).2.length = (pack offset encoded).2 →
      decodeAt data pos (values.map AbiValue.type) = some values
  | [], _, _, _, _, _, _ => rfl
  | value :: values, encoded, offset, pos, h, hheads, htails => by
    obtain ⟨e, es, he, hes, rfl⟩ := mapM_encodeParam_cons.1 h
    cases e with
    | static head =>
      obtain ⟨hlength, -, hdecode⟩ := encodeParam_static he
      simp only [pack, List.length_append] at hheads htails
      obtain ⟨hword, hrest⟩ := take_drop_append hheads
      rw [hlength] at hword hrest
      simp only [List.map_cons, decodeAt, hdecode hword, decodeAt_pack hdata hes hrest htails]
      rfl
    | dynamic tail =>
      obtain ⟨content, rfl, rfl⟩ := encodeParam_dynamic he
      simp only [pack] at hheads htails
      rw [List.length_append] at hheads htails
      obtain ⟨hword, hrest⟩ := take_drop_append hheads
      rw [length_toBytesBE] at hword hrest
      obtain ⟨htail, htailsRest⟩ := take_drop_append htails
      simp only [List.length_append, length_toBytesBE] at htail
      simp only [List.map_cons, decodeAt, AbiValue.type, decodeParam_bytes hdata hword htail,
        decodeAt_pack hdata hes hrest htailsRest]
      rfl

theorem length_of_mapM_encodeParam :
    ∀ {values : List AbiValue} {encoded : List Encoded},
      values.mapM encodeParam = .ok encoded → encoded.length = values.length
  | [], _, h => by cases h; rfl
  | _ :: _, _, h => by
    obtain ⟨_, _, -, hes, rfl⟩ := mapM_encodeParam_cons.1 h
    simp [length_of_mapM_encodeParam hes]

theorem encode_eq_ok {values : List AbiValue} {data : List UInt8} (h : encode values = .ok data) :
    ∃ encoded, values.mapM encodeParam = .ok encoded ∧
      data = (pack (32 * values.length) encoded).1 ++ (pack (32 * values.length) encoded).2 := by
  cases hencoded : values.mapM encodeParam with
  | error e =>
    simp only [encode, hencoded] at h
    cases h
  | ok encoded =>
    simp only [encode, hencoded, bind, Except.bind, pure, Except.pure, Except.ok.injEq] at h
    exact ⟨encoded, rfl, by rw [← h, length_of_mapM_encodeParam hencoded]⟩

theorem encode_length {values : List AbiValue} {data : List UInt8} (h : encode values = .ok data) :
    data.length = 32 * values.length + tailsLength values := by
  obtain ⟨encoded, hencoded, rfl⟩ := encode_eq_ok h
  obtain ⟨hheads, htails⟩ := pack_length (32 * values.length) hencoded
  rw [List.length_append, hheads, htails]

/-- The ABI encoding is a round trip: decoding an encoding shorter than `2 ^ 256` bytes by the
types of its fields gives back the fields. -/
theorem decode_encode {values : List AbiValue} {data : List UInt8}
    (h : encode values = .ok data) (hdata : data.length < 2 ^ 256) :
    decode (values.map AbiValue.type) data = some values := by
  obtain ⟨encoded, hencoded, rfl⟩ := encode_eq_ok h
  have hheads := (pack_length (32 * values.length) hencoded).1
  exact decodeAt_pack hdata hencoded (List.take_left' rfl)
    (by rw [List.drop_left' hheads, List.take_length])

theorem decode_encode_bytes_field :
    encode [.bytes32 (List.replicate 32 1), .uint256 5, .bytes [1, 2, 3]] =
      .ok (List.replicate 32 1 ++ toBytesBE 32 5 ++ toBytesBE 32 96 ++ toBytesBE 32 3 ++
        padRight [1, 2, 3]) ∧
    (List.replicate 32 1 ++ toBytesBE 32 5 ++ toBytesBE 32 96 ++ toBytesBE 32 3 ++
      padRight [1, 2, 3]).length < 2 ^ 256 ∧
    decode ([.bytes32 (List.replicate 32 1), .uint256 5, .bytes [1, 2, 3]].map AbiValue.type)
        (List.replicate 32 1 ++ toBytesBE 32 5 ++ toBytesBE 32 96 ++ toBytesBE 32 3 ++
          padRight [1, 2, 3]) =
      some [.bytes32 (List.replicate 32 1), .uint256 5, .bytes [1, 2, 3]] :=
  ⟨rfl, by simp [padRight], decode_encode rfl (by simp [padRight])⟩

/-! ### The signers -/

/-- `SignDepositDataParams`; `messagePrefix` is the source's `prefix`, the deposit security
module's attest message prefix. -/
structure SignDepositDataParams where
  messagePrefix : List UInt8
  blockNumber : ℕ
  blockHash : List UInt8
  depositRoot : List UInt8
  keysOpIndex : ℕ
  stakingModuleId : ℕ
  deriving DecidableEq, Repr

/-- `SignPauseDataParams`; `messagePrefix` is the source's `prefix`. -/
structure SignPauseDataParams where
  messagePrefix : List UInt8
  blockNumber : ℕ
  deriving DecidableEq, Repr

/-- `SignModulePauseDataParams`; `messagePrefix` is the source's `prefix`. -/
structure SignModulePauseDataParams where
  messagePrefix : List UInt8
  blockNumber : ℕ
  stakingModuleId : ℕ
  deriving DecidableEq, Repr

/-- `SignUnvetDataParams`; `messagePrefix` is the source's `prefix`, and `operatorIds` and
`vettedKeysByOperator` are the packed bytes. -/
structure SignUnvetDataParams where
  messagePrefix : List UInt8
  blockNumber : ℕ
  blockHash : List UInt8
  nonce : ℕ
  stakingModuleId : ℕ
  operatorIds : List UInt8
  vettedKeysByOperator : List UInt8
  deriving DecidableEq, Repr

/-- The fields `signDepositData` encodes, in its order. -/
def SignDepositDataParams.fields (params : SignDepositDataParams) : List AbiValue :=
  [.bytes32 params.messagePrefix, .uint256 params.blockNumber, .bytes32 params.blockHash,
    .bytes32 params.depositRoot, .uint256 params.stakingModuleId, .uint256 params.keysOpIndex]

/-- The fields `signPauseDataV3` encodes, in its order. -/
def SignPauseDataParams.fields (params : SignPauseDataParams) : List AbiValue :=
  [.bytes32 params.messagePrefix, .uint256 params.blockNumber]

/-- The fields `signPauseDataV2` encodes, in its order. -/
def SignModulePauseDataParams.fields (params : SignModulePauseDataParams) : List AbiValue :=
  [.bytes32 params.messagePrefix, .uint256 params.blockNumber, .uint256 params.stakingModuleId]

/-- The fields `signUnvetData` encodes, in its order. -/
def SignUnvetDataParams.fields (params : SignUnvetDataParams) : List AbiValue :=
  [.bytes32 params.messagePrefix, .uint256 params.blockNumber, .bytes32 params.blockHash,
    .uint256 params.stakingModuleId, .uint256 params.nonce, .bytes params.operatorIds,
    .bytes params.vettedKeysByOperator]

section Signers

variable {Digest Signature : Type} (keccak256 : List UInt8 → Digest)
  (signMessage : Digest → Signature)

/-- What every signer does with its fields: encode them, hash the encoding with `keccak256`, and
sign the hash with `signMessage`. -/
def signEncoded (values : List AbiValue) : Except Error Signature :=
  (encode values).map fun encodedData => signMessage (keccak256 encodedData)

/-- `signDepositData`. -/
def signDepositData (params : SignDepositDataParams) : Except Error Signature :=
  signEncoded keccak256 signMessage params.fields

/-- `signPauseDataV3`. -/
def signPauseDataV3 (params : SignPauseDataParams) : Except Error Signature :=
  signEncoded keccak256 signMessage params.fields

/-- `signPauseDataV2`. -/
def signPauseDataV2 (params : SignModulePauseDataParams) : Except Error Signature :=
  signEncoded keccak256 signMessage params.fields

/-- `signUnvetData`. -/
def signUnvetData (params : SignUnvetDataParams) : Except Error Signature :=
  signEncoded keccak256 signMessage params.fields

end Signers

/-- The messages the guardian signs. -/
inductive SignedMessage where
  | deposit (params : SignDepositDataParams)
  | pauseV3 (params : SignPauseDataParams)
  | pauseV2 (params : SignModulePauseDataParams)
  | unvet (params : SignUnvetDataParams)
  deriving DecidableEq, Repr

/-- The fields a message's signer encodes. -/
def SignedMessage.fields : SignedMessage → List AbiValue
  | .deposit params | .pauseV3 params | .pauseV2 params | .unvet params => params.fields

/-- The signer of each message. -/
def SignedMessage.sign {Digest Signature : Type} (keccak256 : List UInt8 → Digest)
    (signMessage : Digest → Signature) : SignedMessage → Except Error Signature
  | .deposit params => signDepositData keccak256 signMessage params
  | .pauseV3 params => signPauseDataV3 keccak256 signMessage params
  | .pauseV2 params => signPauseDataV2 keccak256 signMessage params
  | .unvet params => signUnvetData keccak256 signMessage params

theorem SignedMessage.sign_eq {Digest Signature : Type} (keccak256 : List UInt8 → Digest)
    (signMessage : Digest → Signature) (message : SignedMessage) :
    message.sign keccak256 signMessage = signEncoded keccak256 signMessage message.fields := by
  cases message <;> rfl

theorem SignedMessage.length_of_encode {message : SignedMessage} {data : List UInt8}
    (h : encode message.fields = .ok data) :
    data.length = match message with
      | .deposit _ => 192
      | .pauseV3 _ => 64
      | .pauseV2 _ => 96
      | .unvet params =>
        288 + (padRight params.operatorIds).length + (padRight params.vettedKeysByOperator).length := by
  rw [encode_length h]
  cases message <;> simp [fields, SignDepositDataParams.fields, SignPauseDataParams.fields,
    SignModulePauseDataParams.fields, SignUnvetDataParams.fields, tailsLength, AbiValue.tailLength]
  omega

/-- The data a signer hashes determines the message: two signed messages whose encodings are the
same data, shorter than `2 ^ 256` bytes, are the same message, of the same kind and with the same
fields. So a guardian's signature of one message never serves as its signature of another. -/
theorem SignedMessage.encode_injective {message message' : SignedMessage} {data : List UInt8}
    (h : encode message.fields = .ok data) (h' : encode message'.fields = .ok data)
    (hdata : data.length < 2 ^ 256) : message = message' := by
  have hlength := length_of_encode h
  have hlength' := length_of_encode h'
  -- the data decodes to the fields of each message, by the types of its fields
  have decodes : ∀ {values : List AbiValue}, encode values = .ok data →
      decode (values.map AbiValue.type) data = some values := by
    intro values hvalues
    obtain ⟨encoded, hencoded, rfl⟩ := encode_eq_ok hvalues
    exact decodeAt_pack hdata hencoded (List.take_left' rfl)
      (by rw [List.drop_left' (pack_length _ hencoded).1, List.take_length])
  cases message <;> cases message' <;> simp only at hlength hlength' <;> try omega
  all_goals
    have hdecode := decodes h
    have hdecode' := decodes h'
    simp only [fields, SignDepositDataParams.fields, SignPauseDataParams.fields,
      SignModulePauseDataParams.fields, SignUnvetDataParams.fields, List.map_cons, List.map_nil,
      AbiValue.type] at hdecode hdecode'
    rw [hdecode] at hdecode'
    simp only [Option.some.injEq, List.cons.injEq, AbiValue.bytes32.injEq, AbiValue.uint256.injEq,
      AbiValue.bytes.injEq, and_true] at hdecode'
    rename_i params params'
    cases params
    cases params'
    simp_all

theorem encode_injective_pause :
    encode (SignedMessage.pauseV3 ⟨List.replicate 32 7, 5⟩).fields =
      .ok (List.replicate 32 7 ++ toBytesBE 32 5) ∧
    (List.replicate 32 7 ++ toBytesBE 32 5).length < 2 ^ 256 ∧
    SignedMessage.pauseV3 ⟨List.replicate 32 7, 5⟩ = SignedMessage.pauseV3 ⟨List.replicate 32 7, 5⟩ := by
  have h : encode (SignedMessage.pauseV3 ⟨List.replicate 32 7, 5⟩).fields =
      .ok (List.replicate 32 7 ++ toBytesBE 32 5) := rfl
  have hdata : (List.replicate 32 7 ++ toBytesBE 32 5).length < 2 ^ 256 := by simp
  exact ⟨h, hdata, SignedMessage.encode_injective h h hdata⟩

end CouncilDaemon.Wallet
