/-
**One-time passwords (`otpauth.c`).**

A record of a one-time password is a URI: its host says whether the code moves on with a counter or
with the time, and its query holds the secret, the hash function, the number of digits, and the first
counter value or the period.  A code is made of the keyed hash of the counter: four bytes at a place
that its last byte points to, cut to the digits asked for.

The URL parser, the keyed hash and the cipher of the records are parameters.

Main definitions:

* `Jade.Slice`, `Jade.HttpParserUrl` — places in a URI, and the fields of one;
* `Jade.OtpSlices`, `Jade.OtpauthCtx` — what is read off a URI, as places and as bytes;
* `Jade.getQueryArgumentAt`, `Jade.strtoull` — reading the query;
* `Jade.otpUriToSlices`, `Jade.otpUriToCtx` — reading a URI;
* `Jade.base32ToBin`, `Jade.padSecret` — the secret;
* `Jade.otpGetAuthCode` — the code.
-/

import Jade.Lib.CText
import Jade.Wallet.Script

set_option relaxedAutoImplicit false
set_option autoImplicit false

namespace Jade

def OTP_MAX_NAME_LEN : ℕ := 16
def OTP_MAX_URI_LEN : ℕ := 256
def OTP_MAX_RECORDS : ℕ := 16
def SECRET_BUFSIZE : ℕ := 256

def OTP_SCHEMA : Bytes := ascii "otpauth"
def OTP_SCHEMA_FULL : Bytes := ascii "otpauth://"

/-- `md_type` -/
inductive MdType
  | none
  | sha1
  | sha256
  | sha512
  deriving DecidableEq, Repr

/-- `otp_type` -/
inductive OtpType
  | none
  | hotp
  | totp
  deriving DecidableEq, Repr

/-- `otpauth_ctx_t`.  A fragment of the URI that is not there is `none`; so is the label of a URI
without a path, whose length wraps around. -/
structure OtpauthCtx where
  name : Bytes
  counter : UInt64 := 0
  mdType : MdType := .none
  otpType : OtpType := .none
  type : Option Bytes := none
  label : Option Bytes := none
  secret : Option Bytes := none
  issuer : Option Bytes := none
  digits : Int := 0
  period : Int := 0
  deriving DecidableEq

/-! ### Places in a URI -/

/-- A pointer into the URI, as an offset, and a length. -/
structure Slice where
  off : ℕ
  len : ℕ
  deriving DecidableEq, Repr

/-- The slice lies inside the URI. -/
def Slice.Inside (uri : Bytes) (s : Slice) : Prop := s.off + s.len ≤ uri.length

instance (uri : Bytes) (s : Slice) : Decidable (s.Inside uri) := inferInstanceAs (Decidable (_ ≤ _))

/-- The bytes of a slice. -/
def Slice.bytes (uri : Bytes) (s : Slice) : Bytes := Bytes.field s.off s.len uri

/-- Reading a slice. -/
def Slice.read (uri : Bytes) (s : Slice) : Except Fault Bytes :=
  if s.Inside uri then .ok (s.bytes uri) else .error .overflow

/-- `struct http_parser_url`: the fields that are set. -/
structure HttpParserUrl where
  schema : Option Slice := none
  host : Option Slice := none
  port : Option Slice := none
  path : Option Slice := none
  query : Option Slice := none
  fragment : Option Slice := none

/-- `otpauth_ctx_t`, without its name. -/
structure OtpSlices where
  counter : UInt64 := 0
  mdType : MdType
  otpType : OtpType := .none
  type : Slice
  label : Slice
  secret : Slice
  issuer : Option Slice
  digits : Int
  period : Int := 0
  deriving DecidableEq

/-- The libraries below. -/
structure OtpPrims where
  /-- `http_parser_parse_url` -/
  httpParserParseUrl : Bytes → Option HttpParserUrl
  /-- `mbedtls_md_hmac_starts`, `mbedtls_md_hmac_update` and `mbedtls_md_hmac_finish` -/
  mdHmac : MdType → Bytes → Bytes → Option Bytes
  /-- the private key of `bip32_key_from_seed_custom` with `OTP_HMAC_KEY` -/
  otpKeyFromSeed : Bytes → Bytes
  /-- `aes_encrypt_bytes`: key, initialisation vector, cleartext -/
  aesEncryptBytes : Bytes → Bytes → Bytes → Option Bytes
  /-- `aes_decrypt_bytes`: key, encrypted bytes, size of the buffer -/
  aesDecryptBytes : Bytes → Bytes → ℕ → Option Bytes

/-! ### Reading a URI -/

/-- `strtoull` with base 10, on the bytes before the terminator: what is too large is the largest
number. -/
def strtoull (bs : Bytes) : UInt64 :=
  match (Bytes.cstr bs).dropWhile isSpace with
  | [] => 0
  | c :: cs =>
      let n := leadingNumber (if c = 0x2d ∨ c = 0x2b then cs else c :: cs)
      if 2 ^ 64 ≤ n then 0xffffffffffffffff
      else if c = 0x2d then 0 - UInt64.ofNat n
      else UInt64.ofNat n

/-- A number as `int8_t`. -/
def toInt8 (n : UInt64) : Int := Int.bmod n.toNat 256

/-- The loop of `get_query_argument` from an offset on; every turn takes at least one byte, and a query
that is malformed before the key is found does not have it. -/
def getQueryArgumentAt (key : Bytes) : ℕ → ℕ → Bytes → Option Slice
  | 0, _, _ => none
  | fuel + 1, ptr, qry =>
      if qry.isEmpty then none
      else
        let name := qry.takeWhile (· ≠ 0x3d)
        match qry.dropWhile (· ≠ 0x3d) with
        | [] => none
        | _ :: rest =>
            let value := rest.takeWhile (· ≠ 0x26)
            if name.map toLower = key.map toLower then some ⟨ptr + name.length + 1, value.length⟩
            else getQueryArgumentAt key fuel (ptr + name.length + 1 + value.length + 1)
              ((rest.dropWhile (· ≠ 0x26)).drop 1)

/-- `get_query_argument` in a query at an offset, with the bytes of the value. -/
def queryArgument (uri : Bytes) (off : ℕ) (query : Bytes) (key : String) :
    Except Fault (Option (Slice × Bytes)) :=
  match getQueryArgumentAt (ascii key) query.length off query with
  | none => .ok none
  | some s => do
      let value ← s.read uri
      return some (s, value)

/-- `digits`, six unless the query says otherwise. -/
def readDigits : Option Bytes → Option Int
  | none => some 6
  | some [c] =>
      let digits : Int := (c.toNat : Int) - 0x30
      if digits = 6 ∨ digits = 8 then some digits else none
  | some _ => none

/-- `md_type`, SHA1 unless the query says otherwise. -/
def readAlgorithm : Option Bytes → Option MdType
  | none => some .sha1
  | some alg =>
      if alg = ascii "SHA1" then some .sha1
      else if alg = ascii "SHA256" then some .sha256
      else if alg = ascii "SHA512" then some .sha512
      else none

/-- `label`: a path that is not there has offset and length zero, and the length wraps around. -/
def labelSlice (path : Option Slice) : Slice :=
  let field := path.getD ⟨0, 0⟩
  ⟨field.off + 1, (field.len + 2 ^ 32 - 1) % 2 ^ 32⟩

/-- `otp_uri_to_ctx` up to the type: the query, and what has been read. -/
def uriHead (uri : Bytes) (u : HttpParserUrl) : Except Fault (Option (Slice × Bytes × OtpSlices)) :=
  match u.schema with
  | none => .ok none
  | some schema =>
      if schema.len ≠ 7 then .ok none
      else do
        let text ← schema.read uri
        if text ≠ OTP_SCHEMA then return none
        else
          match u.host, u.query with
          | some host, some query =>
              if u.port.isSome || u.fragment.isSome then return none
              else do
                let qry ← query.read uri
                match ← queryArgument uri query.off qry "secret" with
                | none => return none
                | some (secret, _) =>
                    if secret.len = 0 then return none
                    else do
                      let issuer ← queryArgument uri query.off qry "issuer"
                      let digits ← queryArgument uri query.off qry "digits"
                      match readDigits (digits.map Prod.snd) with
                      | none => return none
                      | some digits => do
                          let algorithm ← queryArgument uri query.off qry "algorithm"
                          match readAlgorithm (algorithm.map Prod.snd) with
                          | none => return none
                          | some mdType =>
                              return some (query, qry, {
                                mdType
                                type := host
                                label := labelSlice u.path
                                secret
                                issuer := issuer.map Prod.fst
                                digits })
          | _, _ => return none

/-- The counter: it is copied into `buf[20]`, and the terminator behind it. -/
def readCounter : Option Bytes → Except Fault (Option UInt64)
  | none => .ok none
  | some counter =>
      if counter.length = 0 ∨ 20 < counter.length then .ok none
      else do
        let buf ← put 20 [] counter
        let buf ← put 20 buf [0]
        return some (strtoull buf)

/-- The period, 30 seconds unless the query says otherwise: it is copied into `buf[4]`. -/
def readPeriod : Option Bytes → Except Fault (Option Int)
  | none => .ok (some 30)
  | some period =>
      if period.length = 0 ∨ 3 < period.length then .ok none
      else do
        let buf ← put 4 [] period
        let buf ← put 4 buf [0]
        return some (toInt8 (strtoull buf))

/-- The rest of `otp_uri_to_ctx`, with the checks of `otp_is_valid` that are not made before. -/
def uriMoving (uri : Bytes) (query : Slice) (qry : Bytes) (ctx : OtpSlices) :
    Except Fault (Option OtpSlices) := do
  let type ← ctx.type.read uri
  if type = ascii "hotp" then do
    let counter ← queryArgument uri query.off qry "counter"
    match ← readCounter (counter.map Prod.snd) with
    | none => return none
    | some counter => return some { ctx with otpType := .hotp, counter }
  else if type = ascii "totp" then do
    let period ← queryArgument uri query.off qry "period"
    match ← readPeriod (period.map Prod.snd) with
    | none => return none
    | some period =>
        if period = 0 then return none else return some { ctx with otpType := .totp, period }
  else return none

/-- `otp_uri_to_ctx` -/
def otpUriToSlices (parse : Bytes → Option HttpParserUrl) (uri : Bytes) :
    Except Fault (Option OtpSlices) :=
  match parse uri with
  | none => .ok none
  | some u => do
      match ← uriHead uri u with
      | none => return none
      | some (query, qry, ctx) => uriMoving uri query qry ctx

/-- The bytes of a slice that lies inside the URI. -/
def Slice.text (uri : Bytes) (s : Slice) : Option Bytes :=
  if s.Inside uri then some (s.bytes uri) else none

/-- The context with the bytes that its pointers point to. -/
def OtpSlices.toCtx (name uri : Bytes) (s : OtpSlices) : OtpauthCtx where
  name := name
  counter := s.counter
  mdType := s.mdType
  otpType := s.otpType
  type := s.type.text uri
  label := s.label.text uri
  secret := s.secret.text uri
  issuer := s.issuer.bind (Slice.text uri)
  digits := s.digits
  period := s.period

/-- `otp_uri_to_ctx`, for a context that has a name only. -/
def otpUriToCtx (P : OtpPrims) (name uri : Bytes) : Except Fault (Option OtpauthCtx) :=
  (otpUriToSlices P.httpParserParseUrl uri).map fun r => r.map (OtpSlices.toCtx name uri)

/-- `otp_is_valid` -/
def otpIsValid (ctx : OtpauthCtx) : Bool :=
  (match ctx.type with
    | some type => !type.isEmpty
    | none => false) &&
  (match ctx.secret with
    | some secret => !secret.isEmpty
    | none => false) &&
  (ctx.otpType == .hotp || ctx.otpType == .totp) &&
  (ctx.otpType != .totp || ctx.period != 0) &&
  (ctx.digits == 6 || ctx.digits == 8) &&
  ctx.mdType != .none

/-! ### The code -/

/-- `otp_set_explicit_value`; the division is that of the C language. -/
def otpSetExplicitValue (ctx : OtpauthCtx) (value : UInt64) : OtpauthCtx :=
  if ctx.otpType = .totp then
    { ctx with counter := UInt64.ofInt (value.toInt64.toInt.tdiv ctx.period) }
  else { ctx with counter := value }

/-- The five bits of a letter or a digit. -/
def base32Digit (ch : UInt8) : Option UInt32 :=
  if (0x61 ≤ ch ∧ ch ≤ 0x7a) ∨ (0x41 ≤ ch ∧ ch ≤ 0x5a) then some ((ch &&& 0x1f) - 1).toUInt32
  else if 0x32 ≤ ch ∧ ch ≤ 0x37 then some (ch - 24).toUInt32
  else none

/-- The loop of `base32_to_bin`: the bits not yet written, their number, and the bytes written. -/
def base32Loop (cap : ℕ) : Bytes → UInt32 → ℕ → Bytes → Option Bytes
  | [], _, _, out => some out
  | ch :: chs, tmp, count, out =>
      if ch = 0 then some out
      else
        match base32Digit ch with
        | none => none
        | some bits =>
            let tmp := tmp <<< 5 ||| bits
            if count + 5 < 8 then base32Loop cap chs tmp (count + 5) out
            else if out.length < cap then
              base32Loop cap chs tmp (count + 5 - 8)
                (out ++ [(tmp >>> UInt32.ofNat (count + 5 - 8)).toUInt8])
            else none

/-- `base32_to_bin` -/
def base32ToBin (b32 : Bytes) (cap : ℕ) : Option Bytes := base32Loop cap b32 0 0 []

/-- `pad_secret`: a secret that is too short is repeated. -/
def padSecret (secret : Bytes) (minSize : ℕ) : Bytes :=
  if secret.length < minSize then (List.replicate minSize secret).flatten.take minSize else secret

/-- `mbedtls_md_get_size` -/
def MdType.size : MdType → ℕ
  | .none => 0
  | .sha1 => 20
  | .sha256 => 32
  | .sha512 => 64

/-- The key that `prepare_md_ctx` starts the hash with. -/
def mdKey (ctx : OtpauthCtx) : Option Bytes := do
  let secret ← ctx.secret
  -- ten times the length over 16 must not exceed the buffer
  if 16 * SECRET_BUFSIZE < 10 * secret.length then none
  else do
    let key ← base32ToBin secret SECRET_BUFSIZE
    if key.isEmpty then none
    else pure (if ctx.mdType = .sha1 then key else padSecret key ctx.mdType.size)

/-- The four bytes that the last byte of the hash points to, without the top bit. -/
def fullCode (hmac : Bytes) (size : ℕ) : ℕ :=
  let offset := (hmac.getD (size - 1) 0 &&& 0xf).toNat
  Bytes.toNatBE [hmac.getD offset 0 &&& 0x7f, hmac.getD (offset + 1) 0, hmac.getD (offset + 2) 0,
    hmac.getD (offset + 3) 0]

/-- A number in decimal, with leading zeros. -/
def zeroPadded (width n : ℕ) : Bytes :=
  (List.range width).map fun i => UInt8.ofNat (0x30 + n / 10 ^ (width - 1 - i) % 10)

/-- `otp_get_auth_code`, for a valid context. -/
def otpGetAuthCode (P : OtpPrims) (ctx : OtpauthCtx) : Option Bytes := do
  let key ← mdKey ctx
  let hmac ← P.mdHmac ctx.mdType key (Bytes.ofNatBE 8 ctx.counter.toNat)
  pure (zeroPadded ctx.digits.toNat (fullCode hmac ctx.mdType.size % 10 ^ ctx.digits.toNat))

end Jade
