/-
**Reading a URI in place (`otpauth.c`).**

`otp_uri_to_ctx` copies nothing: what it reads off a URI are slices of it, and the numbers in it.
The URL parser gives the places of the fields, and the parameters are found in the query by hand.

What is read is exact with five exceptions, for which the function answers all the same: a counter
of 20 characters is copied past its buffer, a number need not be a decimal, a period that is too
large is cut down to a byte, without a path the length of the label wraps around, and the places in a
URI of 64 KiB or more wrap around in the 16 bits that the parser has for them.

Main definitions:

* `Jade.ParserLaws` — what is relied on of the URL parser;
* `Jade.queryParams`, `Jade.argument` — the parameters of a query;
* `Jade.IsOtpUri`, `Jade.ReadsUri` — what a context must be, and what reading it must be;
* `Jade.PlainNumbers` — the numbers and the path are as they should be;
* `Jade.Faithful` — the fields of the parser are as good as those of the URI.

Main results:

* `Jade.argument_render` — parameters are found whatever stands around them;
* `Jade.argument_perm` — in whatever order;
* `Jade.getQueryArgumentAt_spec`, `Jade.uriHead_spec` — what is found lies inside the URI;
* `Jade.faithful_iff_plainNumbers` — below 64 KiB only the numbers and the path matter;
* `Jade.otpUriToSlices_iff` — **exactly when a URI is read safely and exactly**.
-/

import Jade.Lib.Exec
import Jade.Lib.Numeral
import Jade.Otp.Otpauth

set_option relaxedAutoImplicit false
set_option autoImplicit false

namespace Jade

open Exec Numeral

/-! ### The URL parser -/

/-- The fields the code reads. -/
def HttpParserUrl.read (u : HttpParserUrl) : List Slice :=
  u.schema.toList ++ u.host.toList ++ u.path.toList ++ u.query.toList

/-- What is relied on of the parser.  `split` divides a URI into its fields; none of them is empty, and
the path behind a schema starts with a slash.  `parse` has 16 bits for an offset or a length: what it
gives lies inside the URI, and is that division as long as the URI is shorter than 64 KiB. -/
structure ParserLaws (split parse : Bytes → Option HttpParserUrl) : Prop where
  exact : ∀ uri, uri.length < 2 ^ 16 → parse uri = split uri
  inside : ∀ uri u, parse uri = some u → ∀ s ∈ u.read, s.Inside uri
  nonempty : ∀ uri u, split uri = some u → ∀ s ∈ u.read, 0 < s.len
  slash : ∀ uri u path, split uri = some u → u.schema.isSome = true → u.path = some path →
    (path.bytes uri).head? = some 0x2f

/-! ### The parameters of a query -/

/-- The parameters of a query: names up to an `=`, and values up to an `&`. -/
def queryParamsFrom : ℕ → Bytes → List (Bytes × Bytes)
  | 0, _ => []
  | fuel + 1, qry =>
      match qry.dropWhile (· ≠ 0x3d) with
      | [] => []
      | _ :: rest => (qry.takeWhile (· ≠ 0x3d), rest.takeWhile (· ≠ 0x26)) ::
          queryParamsFrom fuel ((rest.dropWhile (· ≠ 0x26)).drop 1)

def queryParams (qry : Bytes) : List (Bytes × Bytes) := queryParamsFrom qry.length qry

/-- The value of the first parameter with a name, in letters of either case. -/
def argument (qry : Bytes) (key : String) : Option Bytes :=
  ((queryParams qry).find? fun param => sameLetters param.1 (ascii key)).map Prod.snd

/-- A query with the given parameters. -/
def renderParam (param : Bytes × Bytes) : Bytes := param.1 ++ 0x3d :: param.2

def renderParams : List (Bytes × Bytes) → Bytes
  | [] => []
  | [param] => renderParam param
  | param :: next :: params => renderParam param ++ 0x26 :: renderParams (next :: params)

/-- Names without `=` and values without `&`. -/
def PlainParams (params : List (Bytes × Bytes)) : Prop :=
  ∀ param ∈ params, 0x3d ∉ param.1 ∧ 0x26 ∉ param.2

theorem takeWhile_ne_self {c : UInt8} {bs : Bytes} (h : c ∉ bs) : bs.takeWhile (· ≠ c) = bs := by
  refine List.takeWhile_eq_self_iff.2 ?_
  intro b hb
  exact decide_eq_true fun heq => h (heq ▸ hb)

theorem dropWhile_ne_self {c : UInt8} {bs : Bytes} (h : c ∉ bs) : bs.dropWhile (· ≠ c) = [] := by
  refine List.dropWhile_eq_nil_iff.2 ?_
  intro b hb
  exact decide_eq_true fun heq => h (heq ▸ hb)

theorem length_renderParams_le (params : List (Bytes × Bytes)) :
    params.length ≤ (renderParams params).length := by
  induction params with
  | nil => exact Nat.zero_le _
  | cons param params ih =>
      cases params with
      | nil =>
          simp only [renderParams, renderParam, List.length_append, List.length_cons,
            List.length_nil]
          omega
      | cons next params =>
          simp only [renderParams, renderParam, List.length_append, List.length_cons] at ih ⊢
          omega

/-- The parameters of a query are the ones it has been made of. -/
theorem queryParamsFrom_render {params : List (Bytes × Bytes)} (h : PlainParams params) {fuel : ℕ}
    (hfuel : params.length ≤ fuel) : queryParamsFrom fuel (renderParams params) = params := by
  induction params generalizing fuel with
  | nil =>
      cases fuel with
      | zero => rfl
      | succ fuel => rfl
  | cons param params ih =>
      obtain ⟨fuel, rfl⟩ : ∃ n, fuel = n + 1 := by
        rw [List.length_cons] at hfuel
        exact ⟨fuel - 1, by omega⟩
      obtain ⟨hname, hvalue⟩ := h param List.mem_cons_self
      have hrest : PlainParams params := fun p hp => h p (List.mem_cons_of_mem _ hp)
      cases params with
      | nil =>
          obtain ⟨htake, hdrop⟩ := span_separator hname param.2
          rw [renderParams, renderParam, queryParamsFrom, hdrop, htake]
          simp only [takeWhile_ne_self hvalue, dropWhile_ne_self hvalue, List.drop_nil]
          cases fuel with
          | zero => rfl
          | succ fuel => rfl
      | cons next params =>
          obtain ⟨htake, hdrop⟩ :=
            span_separator hname (param.2 ++ 0x26 :: renderParams (next :: params))
          obtain ⟨htake', hdrop'⟩ := span_separator hvalue (renderParams (next :: params))
          have hshape : renderParams (param :: next :: params) =
              param.1 ++ 0x3d :: (param.2 ++ 0x26 :: renderParams (next :: params)) := by
            simp [renderParams, renderParam]
          rw [hshape, queryParamsFrom, hdrop, htake]
          simp only [htake', hdrop', List.drop_succ_cons, List.drop_zero]
          rw [ih hrest (by simpa using hfuel)]

/-- **A parameter is found whatever stands around it.** -/
theorem argument_render {params : List (Bytes × Bytes)} (h : PlainParams params) (key : String) :
    argument (renderParams params) key =
      (params.find? fun param => sameLetters param.1 (ascii key)).map Prod.snd := by
  rw [argument, queryParams, queryParamsFrom_render h (length_renderParams_le params)]

/-! ### What the scan finds -/

/-- The rest of a query, at its offset in the URI. -/
def LiesAt (uri : Bytes) (ptr : ℕ) (qry : Bytes) : Prop :=
  ∃ before after, uri = before ++ qry ++ after ∧ before.length = ptr

theorem Slice.bytes_of_liesAt {uri qry : Bytes} {ptr : ℕ} (h : LiesAt uri ptr qry) :
    (⟨ptr, qry.length⟩ : Slice).Inside uri ∧ (⟨ptr, qry.length⟩ : Slice).bytes uri = qry := by
  obtain ⟨before, after, rfl, rfl⟩ := h
  refine ⟨?_, ?_⟩
  · simp only [Slice.Inside, List.length_append]
    omega
  · simp only [Slice.bytes, Bytes.field]
    rw [List.append_assoc, List.drop_left, List.take_left]

theorem liesAt_of_inside {uri : Bytes} {s : Slice} (h : s.Inside uri) :
    LiesAt uri s.off (s.bytes uri) := by
  refine ⟨uri.take s.off, uri.drop (s.off + s.len), ?_, ?_⟩
  · rw [Slice.bytes, Bytes.field, ← List.drop_drop, List.append_assoc, List.take_append_drop,
      List.take_append_drop]
  · simp only [Slice.Inside] at h
    rw [List.length_take]
    omega

/-- The scan finds the value of the first parameter with the name, where it lies. -/
theorem getQueryArgumentAt_spec {uri : Bytes} (key : String) {fuel ptr : ℕ} {qry : Bytes}
    (h : LiesAt uri ptr qry) :
    (getQueryArgumentAt (ascii key) fuel ptr qry).map (Slice.bytes uri) =
        ((queryParamsFrom fuel qry).find? fun param =>
          sameLetters param.1 (ascii key)).map Prod.snd ∧
      ∀ s, getQueryArgumentAt (ascii key) fuel ptr qry = some s → s.Inside uri := by
  induction fuel generalizing ptr qry with
  | zero => simp [getQueryArgumentAt, queryParamsFrom]
  | succ fuel ih =>
      obtain ⟨before, after, huri, hptr⟩ := h
      have hsplit := List.takeWhile_append_dropWhile
        (p := fun c : UInt8 => decide (c ≠ 0x3d)) (l := qry)
      rw [getQueryArgumentAt, queryParamsFrom]
      cases hdrop : qry.dropWhile (· ≠ 0x3d) with
      | nil => simp
      | cons eq rest =>
          have hne : qry.isEmpty = false := by
            cases qry with
            | nil => simp at hdrop
            | cons c qry => rfl
          rw [hdrop] at hsplit
          have hvalue := List.takeWhile_append_dropWhile
            (p := fun c : UInt8 => decide (c ≠ 0x26)) (l := rest)
          simp only [hne, Bool.false_eq_true, if_false, List.find?_cons]
          generalize qry.takeWhile (· ≠ 0x3d) = name at hsplit ⊢
          generalize rest.takeWhile (· ≠ 0x26) = value at hvalue ⊢
          generalize rest.dropWhile (· ≠ 0x26) = tail at hvalue ⊢
          -- the value, where it lies
          have hlies : LiesAt uri (ptr + name.length + 1) value := by
            refine ⟨before ++ name ++ [eq], tail ++ after, ?_, ?_⟩
            · rw [huri, ← hsplit, ← hvalue]
              simp
            · simp only [List.length_append, List.length_singleton, hptr]
          by_cases hmatch : name.map toLower = (ascii key).map toLower
          · have hsame : sameLetters name (ascii key) = true := by
              rw [sameLetters, beq_iff_eq]
              exact hmatch
            obtain ⟨hinside, hbytes⟩ := Slice.bytes_of_liesAt hlies
            rw [if_pos hmatch, hsame]
            refine ⟨congrArg some hbytes, ?_⟩
            intro s hs
            obtain rfl := Option.some.inj hs
            exact hinside
          · have hdiff : sameLetters name (ascii key) = false := by
              rw [sameLetters, beq_eq_false_iff_ne]
              exact hmatch
            rw [if_neg hmatch, hdiff]
            cases tail with
            | nil =>
                -- nothing is left of the query
                cases fuel with
                | zero => simp [getQueryArgumentAt, queryParamsFrom]
                | succ fuel => simp [getQueryArgumentAt, queryParamsFrom]
            | cons amp rest' =>
                refine ih ⟨before ++ name ++ [eq] ++ value ++ [amp], after, ?_, ?_⟩
                · rw [huri, ← hsplit, ← hvalue]
                  simp
                · simp only [List.length_append, List.length_singleton, hptr]

/-- Looking a parameter up reads inside the URI. -/
theorem queryArgument_spec {uri : Bytes} {query : Slice} (h : query.Inside uri) (key : String) :
    ∃ r, queryArgument uri query.off (query.bytes uri) key = .ok r ∧
      r.map Prod.snd = argument (query.bytes uri) key ∧
        ∀ s value, r = some (s, value) → s.Inside uri ∧ s.bytes uri = value := by
  obtain ⟨hvalue, hinside⟩ := getQueryArgumentAt_spec key (liesAt_of_inside h)
  rw [queryArgument]
  cases hget : getQueryArgumentAt (ascii key) (query.bytes uri).length query.off
      (query.bytes uri) with
  | none =>
      rw [hget] at hvalue
      exact ⟨none, rfl, hvalue, by simp⟩
  | some s =>
      rw [hget] at hvalue
      have hs := hinside s hget
      refine ⟨some (s, s.bytes uri), ?_, hvalue, ?_⟩
      · simp only [Slice.read]
        rw [if_pos hs]
        rfl
      · intro s' value hr
        simp only [Option.some.injEq, Prod.mk.injEq] at hr
        obtain ⟨rfl, rfl⟩ := hr
        exact ⟨hs, rfl⟩

/-! ### Up to the type -/

/-- What has been read of a URI before its type is looked at. -/
structure HeadReads (uri : Bytes) (u : HttpParserUrl) (query : Slice) (ctx : OtpSlices) : Prop where
  schema : ∃ schema, u.schema = some schema ∧ schema.bytes uri = OTP_SCHEMA
  port : u.port = none
  fragment : u.fragment = none
  host : u.host = some ctx.type
  hostInside : ctx.type.Inside uri
  query_eq : u.query = some query
  queryInside : query.Inside uri
  label : ctx.label = labelSlice u.path
  secret : argument (query.bytes uri) "secret" = some (ctx.secret.bytes uri)
  secretInside : 0 < ctx.secret.len ∧ ctx.secret.Inside uri
  issuer : argument (query.bytes uri) "issuer" = ctx.issuer.map (Slice.bytes uri)
  issuerInside : ∀ issuer, ctx.issuer = some issuer → issuer.Inside uri
  digits : readDigits (argument (query.bytes uri) "digits") = some ctx.digits
  algorithm : readAlgorithm (argument (query.bytes uri) "algorithm") = some ctx.mdType
  moving : ctx.otpType = .none ∧ ctx.counter = 0 ∧ ctx.period = 0

/-- Reading a slice that lies inside. -/
theorem Slice.read_eq {uri : Bytes} {s : Slice} (h : s.Inside uri) :
    s.read uri = .ok (s.bytes uri) :=
  if_pos h

/-- Up to the type nothing is read outside the URI. -/
theorem uriHead_spec {uri : Bytes} {u : HttpParserUrl} (hinside : ∀ s ∈ u.read, s.Inside uri) :
    ∃ r, uriHead uri u = .ok r ∧ ∀ query qry ctx, r = some (query, qry, ctx) →
      qry = query.bytes uri ∧ HeadReads uri u query ctx := by
  have hnone : ∃ r : Option (Slice × Bytes × OtpSlices), (Except.ok none : Except Fault _) = .ok r ∧
      ∀ query qry ctx, r = some (query, qry, ctx) →
        qry = query.bytes uri ∧ HeadReads uri u query ctx := ⟨none, rfl, by simp⟩
  unfold uriHead
  cases hschema : u.schema with
  | none => exact hnone
  | some schema =>
      simp only
      by_cases hlen : schema.len = 7
      · rw [if_neg (not_not.2 hlen),
          Slice.read_eq (hinside schema (by simp [HttpParserUrl.read, hschema])), ok_bind]
        by_cases htext : schema.bytes uri = OTP_SCHEMA
        · rw [if_neg (not_not.2 htext)]
          cases hhost : u.host with
          | none => exact hnone
          | some host =>
              cases hquery : u.query with
              | none => exact hnone
              | some query =>
                  have hhostInside := hinside host (by simp [HttpParserUrl.read, hhost])
                  have hqueryInside := hinside query (by simp [HttpParserUrl.read, hquery])
                  simp only
                  cases hbare : u.port.isSome || u.fragment.isSome with
                  | true => exact hnone
                  | false =>
                      obtain ⟨hport, hfragment⟩ : u.port = none ∧ u.fragment = none := by
                        simpa [Bool.or_eq_false_iff] using hbare
                      obtain ⟨secret, hsecret, hsecretValue, hsecretAt⟩ :=
                        queryArgument_spec hqueryInside "secret"
                      obtain ⟨issuer, hissuer, hissuerValue, hissuerAt⟩ :=
                        queryArgument_spec hqueryInside "issuer"
                      obtain ⟨digits, hdigits, hdigitsValue, -⟩ :=
                        queryArgument_spec hqueryInside "digits"
                      obtain ⟨algorithm, halgorithm, halgorithmValue, -⟩ :=
                        queryArgument_spec hqueryInside "algorithm"
                      simp only [Bool.false_eq_true, if_false]
                      rw [Slice.read_eq hqueryInside, ok_bind, hsecret, ok_bind]
                      cases secret with
                      | none => exact hnone
                      | some secret =>
                          obtain ⟨secret, value⟩ := secret
                          obtain ⟨hat, rfl⟩ := hsecretAt secret value rfl
                          simp only
                          by_cases hzero : secret.len = 0
                          · rw [if_pos hzero]
                            exact hnone
                          · rw [if_neg hzero, hissuer, ok_bind, hdigits, ok_bind, hdigitsValue]
                            cases hreadDigits :
                                readDigits (argument (query.bytes uri) "digits") with
                            | none => exact hnone
                            | some d =>
                                simp only
                                rw [halgorithm, ok_bind, halgorithmValue]
                                cases hreadAlgorithm :
                                    readAlgorithm (argument (query.bytes uri) "algorithm") with
                                | none => exact hnone
                                | some md =>
                                    refine ⟨_, rfl, ?_⟩
                                    intro query' qry' ctx' h
                                    simp only [Option.some.injEq, Prod.mk.injEq] at h
                                    obtain ⟨rfl, rfl, rfl⟩ := h
                                    exact ⟨rfl, {
                                      schema := ⟨schema, hschema, htext⟩
                                      port := hport
                                      fragment := hfragment
                                      host := hhost
                                      hostInside := hhostInside
                                      query_eq := hquery
                                      queryInside := hqueryInside
                                      label := rfl
                                      secret := hsecretValue.symm
                                      secretInside := ⟨Nat.pos_of_ne_zero hzero, hat⟩
                                      issuer := by
                                        rw [← hissuerValue]
                                        cases issuer with
                                        | none => rfl
                                        | some pair =>
                                            exact congrArg some (hissuerAt _ _ rfl).2.symm
                                      issuerInside := by
                                        intro s hs
                                        cases issuer with
                                        | none => cases hs
                                        | some pair =>
                                            obtain rfl := Option.some.inj hs
                                            exact (hissuerAt _ _ rfl).1
                                      digits := hreadDigits
                                      algorithm := hreadAlgorithm
                                      moving := ⟨rfl, rfl, rfl⟩ }⟩
        · rw [if_pos htext]
          exact hnone
      · rw [if_pos hlen]
        exact hnone

/-! ### Numbers -/

/-- A decimal numeral. -/
def IsDecimal (text : Bytes) : Prop := text ≠ [] ∧ text.all isDigit = true

instance (text : Bytes) : Decidable (IsDecimal text) := inferInstanceAs (Decidable (_ ∧ _))

/-- The number that a decimal numeral denotes. -/
def decimal (text : Bytes) : ℕ := value 10 (text.map fun c => c.toNat - 0x30)

theorem bounds_of_isDigit {c : UInt8} (h : isDigit c = true) : 0x30 ≤ c.toNat ∧ c.toNat ≤ 0x39 := by
  rw [isDigit, Bool.and_eq_true, decide_eq_true_iff, decide_eq_true_iff, UInt8.le_iff_toNat_le,
    UInt8.le_iff_toNat_le] at h
  exact h

theorem leadingNumber_eq_decimal {text : Bytes} (h : text.all isDigit = true) :
    leadingNumber text = decimal text := by
  rw [leadingNumber, List.takeWhile_eq_self_iff.2 (List.all_eq_true.1 h), decimal, value,
    List.foldl_map]
  refine List.foldl_ext _ _ _ ?_
  intro n c _
  rw [Nat.mul_comm]

theorem decimal_lt {text : Bytes} (h : text.all isDigit = true) :
    decimal text < 10 ^ text.length := by
  have hsmall : ∀ d ∈ text.map (fun c : UInt8 => c.toNat - 0x30), d < 10 := by
    intro d hd
    obtain ⟨c, hc, rfl⟩ := List.mem_map.1 hd
    have hdigit := bounds_of_isDigit (List.all_eq_true.1 h c hc)
    omega
  have hlt := value_lt hsmall
  rwa [List.length_map] at hlt

/-- A decimal with at most 19 digits is read as the number it denotes. -/
theorem strtoull_of_isDecimal {text : Bytes} (h : IsDecimal text) (hlen : text.length ≤ 19) :
    (strtoull (text ++ [0])).toNat = decimal text := by
  obtain ⟨hne, hall⟩ := h
  have hnul : (0 : UInt8) ∉ text := by
    intro hmem
    have hdigit := bounds_of_isDigit (List.all_eq_true.1 hall 0 hmem)
    exact absurd hdigit.1 (by decide)
  have hsmall : decimal text < 2 ^ 64 := by
    have hpow : (10 : ℕ) ^ text.length ≤ 10 ^ 19 := Nat.pow_le_pow_right (by decide) hlen
    have hlt := decimal_lt hall
    omega
  rw [strtoull, cstr_append_nul hnul]
  cases text with
  | nil => exact absurd rfl hne
  | cons c cs =>
      have hdigit := bounds_of_isDigit (List.all_eq_true.1 hall c List.mem_cons_self)
      have hspace : isSpace c = false := by
        rw [isSpace, Bool.or_eq_false_iff, Bool.and_eq_false_iff, beq_eq_false_iff_ne,
          decide_eq_false_iff_not, decide_eq_false_iff_not, UInt8.le_iff_toNat_le,
          UInt8.le_iff_toNat_le]
        refine ⟨?_, Or.inr ?_⟩
        · rintro rfl
          exact absurd hdigit.1 (by decide)
        · change ¬ c.toNat ≤ 13
          omega
      have hplain : c ≠ 0x2d ∧ c ≠ 0x2b := by
        constructor
        · rintro rfl
          exact absurd hdigit.1 (by decide)
        · rintro rfl
          exact absurd hdigit.1 (by decide)
      rw [List.dropWhile_cons_of_neg (by simp [hspace])]
      simp only [hplain.1, hplain.2, or_self, if_false]
      rw [leadingNumber_eq_decimal hall, if_neg (Nat.not_le.2 hsmall)]
      exact UInt64.toNat_ofNat_of_lt' hsmall

/-- The number of digits is 6 or 8. -/
theorem readDigits_eq_some {a : Option Bytes} {digits : Int} (h : readDigits a = some digits) :
    (a = none ∧ digits = 6) ∨
      ∃ text, a = some text ∧ IsDecimal text ∧ digits = decimal text ∧
        (digits = 6 ∨ digits = 8) := by
  cases a with
  | none => exact .inl ⟨rfl, (Option.some.inj h).symm⟩
  | some text =>
      refine .inr ⟨text, rfl, ?_⟩
      cases text with
      | nil => cases h
      | cons c cs =>
          cases cs with
          | cons d cs => cases h
          | nil =>
              simp only [readDigits] at h
              by_cases hvalid : (c.toNat : Int) - 0x30 = 6 ∨ (c.toNat : Int) - 0x30 = 8
              · rw [if_pos hvalid] at h
                obtain rfl := Option.some.inj h
                have hdigit : isDigit c = true := by
                  rw [isDigit, Bool.and_eq_true, decide_eq_true_iff, decide_eq_true_iff,
                    UInt8.le_iff_toNat_le, UInt8.le_iff_toNat_le]
                  change 48 ≤ c.toNat ∧ c.toNat ≤ 57
                  omega
                refine ⟨⟨by simp, by simp [hdigit]⟩, ?_, hvalid⟩
                have hlo := (bounds_of_isDigit hdigit).1
                rw [decimal, List.map_singleton, value_singleton]
                omega
              · rw [if_neg hvalid] at h
                cases h

/-! ### What a URI says -/

/-- The names of the hash functions. -/
def MdType.text : MdType → Bytes
  | .none => []
  | .sha1 => ascii "SHA1"
  | .sha256 => ascii "SHA256"
  | .sha512 => ascii "SHA512"

/-- A URI of a one-time password, apart from the numbers that move. -/
structure OtpHead (uri : Bytes) (u : HttpParserUrl) (host query : Slice) : Prop where
  schema : ∃ schema, u.schema = some schema ∧ schema.bytes uri = OTP_SCHEMA
  port : u.port = none
  fragment : u.fragment = none
  host_eq : u.host = some host
  query_eq : u.query = some query
  secret : ∃ secret, argument (query.bytes uri) "secret" = some secret ∧ secret ≠ []
  digits : argument (query.bytes uri) "digits" ∈ [none, some (ascii "6"), some (ascii "8")]
  algorithm : argument (query.bytes uri) "algorithm" ∈
    [none, some (ascii "SHA1"), some (ascii "SHA256"), some (ascii "SHA512")]

/-- The label is what follows the slash of the path, or absent. -/
def LabelIs (uri : Bytes) (u : HttpParserUrl) (label : Slice) : Prop :=
  match u.path with
  | some path => label.Inside uri ∧ path.bytes uri = 0x2f :: label.bytes uri
  | none => label.len = 0

/-- The type, the counter and the period are what the URI says: `counter` and `period` are its
parameters. -/
def MovingIs (type : Bytes) (counter period : Option Bytes) (moving : OtpType × UInt64 × Int) : Prop :=
  (type = ascii "hotp" ∧ moving.1 = .hotp ∧ moving.2.2 = 0 ∧
    ∃ text, counter = some text ∧ IsDecimal text ∧ moving.2.1.toNat = decimal text) ∨
  (type = ascii "totp" ∧ moving.1 = .totp ∧ moving.2.1 = 0 ∧
    ((period = none ∧ moving.2.2 = 30) ∨
      ∃ text, period = some text ∧ IsDecimal text ∧ 0 < moving.2.2 ∧ moving.2.2 = decimal text))

/-- What a context read off a URI must be: every field is what the URI says, or its default. -/
structure IsOtpUri (uri : Bytes) (u : HttpParserUrl) (query : Slice) (ctx : OtpSlices) : Prop where
  head : OtpHead uri u ctx.type query
  label : LabelIs uri u ctx.label
  secret : argument (query.bytes uri) "secret" = some (ctx.secret.bytes uri) ∧ ctx.secret.Inside uri
  issuer : argument (query.bytes uri) "issuer" = ctx.issuer.map (Slice.bytes uri) ∧
    ∀ issuer, ctx.issuer = some issuer → issuer.Inside uri
  digits : (argument (query.bytes uri) "digits" = none ∧ ctx.digits = 6) ∨
    ∃ text, argument (query.bytes uri) "digits" = some text ∧ IsDecimal text ∧
      ctx.digits = decimal text
  algorithm : (argument (query.bytes uri) "algorithm" = none ∧ ctx.mdType = .sha1) ∨
    argument (query.bytes uri) "algorithm" = some ctx.mdType.text ∧ ctx.mdType ≠ .none
  moving : MovingIs (ctx.type.bytes uri) (argument (query.bytes uri) "counter")
    (argument (query.bytes uri) "period") (ctx.otpType, ctx.counter, ctx.period)

/-- The names of parameters are different. -/
def DistinctNames (params : List (Bytes × Bytes)) : Prop :=
  params.Pairwise fun p q => sameLetters p.1 q.1 = false

/-- A URI is read safely and exactly: the scans of its query end, nothing is touched outside of the
string and the buffers, and what is read is what the URI says, in whatever order. -/
structure ReadsUri (split parse : Bytes → Option HttpParserUrl) (uri : Bytes) : Prop where
  ends : ∀ u query key fuel, parse uri = some u → u.query = some query →
    (query.bytes uri).length ≤ fuel →
      getQueryArgumentAt (ascii key) fuel query.off (query.bytes uri) =
        getQueryArgumentAt (ascii key) (query.bytes uri).length query.off (query.bytes uri)
  reads : ∃ r, otpUriToSlices parse uri = .ok r ∧ ∀ ctx, r = some ctx →
    ∃ u query, split uri = some u ∧ IsOtpUri uri u query ctx
  order : ∀ u query params params' key, parse uri = some u → u.query = some query →
    query.bytes uri = renderParams params → PlainParams params → DistinctNames params →
      params.Perm params' → argument (renderParams params') key = argument (query.bytes uri) key

/-- A text that is read as a period: one to three characters, and not a multiple of 256. -/
def IsPeriod (text : Bytes) : Prop :=
  0 < text.length ∧ text.length ≤ 3 ∧ toInt8 (strtoull (text ++ [0])) ≠ 0

/-- Numbers that are looked at are decimals that fit, and a URI with such numbers has a path. -/
structure PlainNumbers (uri : Bytes) (u : HttpParserUrl) (host query : Slice) : Prop where
  counter : host.bytes uri = ascii "hotp" →
    ∀ text, argument (query.bytes uri) "counter" = some text → 0 < text.length → text.length ≤ 20 →
      IsDecimal text ∧ text.length ≤ 19 ∧ u.path.isSome = true
  period : host.bytes uri = ascii "totp" →
    ∀ text, argument (query.bytes uri) "period" = some text → IsPeriod text →
      IsDecimal text ∧ decimal text ≤ 127 ∧ u.path.isSome = true
  noPeriod : host.bytes uri = ascii "totp" → argument (query.bytes uri) "period" = none →
    u.path.isSome = true

/-- What a counter is read as. -/
def movingCounter : Option Bytes → Option (OtpType × UInt64 × Int)
  | none => none
  | some text =>
      if 0 < text.length ∧ text.length ≤ 20 then some (.hotp, strtoull (text ++ [0]), 0) else none

/-- What a period is read as. -/
def movingPeriod : Option Bytes → Option (OtpType × UInt64 × Int)
  | none => some (.totp, 0, 30)
  | some text =>
      if 0 < text.length ∧ text.length ≤ 3 ∧ toInt8 (strtoull (text ++ [0])) ≠ 0 then
        some (.totp, 0, toInt8 (strtoull (text ++ [0])))
      else none

/-- What is read of the type and of the parameters that move. -/
def readMoving (type : Bytes) (counter period : Option Bytes) : Option (OtpType × UInt64 × Int) :=
  if type = ascii "hotp" then movingCounter counter
  else if type = ascii "totp" then movingPeriod period
  else none

/-- By its own fields `v` the URI has in it what is found through the fields `u` of the parser. -/
structure SameRecord (uri : Bytes) (u v : HttpParserUrl) (host query query' : Slice) : Prop where
  head : OtpHead uri v host query'
  label : LabelIs uri v (labelSlice u.path)
  secret : argument (query'.bytes uri) "secret" = argument (query.bytes uri) "secret"
  issuer : argument (query'.bytes uri) "issuer" = argument (query.bytes uri) "issuer"
  digits : readDigits (argument (query'.bytes uri) "digits") =
    readDigits (argument (query.bytes uri) "digits")
  algorithm : readAlgorithm (argument (query'.bytes uri) "algorithm") =
    readAlgorithm (argument (query.bytes uri) "algorithm")

/-- The counter is one character too long for its buffer. -/
def LongCounter (uri : Bytes) (host query : Slice) : Prop :=
  host.bytes uri = ascii "hotp" ∧
    ∃ text, argument (query.bytes uri) "counter" = some text ∧ text.length = 20

/-- **The fields of the parser are as good as those of the URI**: the counter fits its buffer, and what
is found through them the URI says. -/
structure Faithful (split : Bytes → Option HttpParserUrl) (uri : Bytes) (u : HttpParserUrl)
    (host query : Slice) : Prop where
  buffer : ¬LongCounter uri host query
  same : ∀ moving, readMoving (host.bytes uri) (argument (query.bytes uri) "counter")
      (argument (query.bytes uri) "period") = some moving →
    ∃ v query', split uri = some v ∧ SameRecord uri u v host query query' ∧
      MovingIs (host.bytes uri) (argument (query'.bytes uri) "counter")
        (argument (query'.bytes uri) "period") moving

/-! ### The head of a URI -/

/-- Reading a label behind the slash of a path. -/
theorem labelSlice_spec {split parse : Bytes → Option HttpParserUrl}
    (hparse : ParserLaws split parse) {uri : Bytes}
    (huri : uri.length < 2 ^ 16) {u : HttpParserUrl} (hu : parse uri = some u)
    (hschema : u.schema.isSome = true) {path : Slice} (hpath : u.path = some path) :
    (labelSlice u.path).Inside uri ∧ path.bytes uri = 0x2f :: (labelSlice u.path).bytes uri := by
  have hmem : path ∈ u.read := by simp [HttpParserUrl.read, hpath]
  have hsplit : split uri = some u := (hparse.exact uri huri).symm.trans hu
  have hinside := hparse.inside uri u hu path hmem
  have hpos := hparse.nonempty uri u hsplit path hmem
  have hslash := hparse.slash uri u path hsplit hschema hpath
  obtain ⟨off, len⟩ := path
  simp only [Slice.Inside] at hinside
  have hlabel : labelSlice u.path = ⟨off + 1, len - 1⟩ := by
    rw [labelSlice, hpath]
    simp only [Option.getD_some, Slice.mk.injEq, true_and]
    change 0 < len at hpos
    omega
  rw [hlabel]
  refine ⟨?_, ?_⟩
  · change 0 < len at hpos
    simp only [Slice.Inside]
    omega
  · obtain ⟨tail, htail⟩ := List.head?_eq_some_iff.1 hslash
    have hrest : tail = Bytes.field (off + 1) (len - 1) uri := by
      have htake : ((Slice.mk off len).bytes uri).drop 1 = tail := by rw [htail]; rfl
      rw [← htake, Slice.bytes, Bytes.field, Bytes.field, List.drop_take, List.drop_drop]
    rw [htail, hrest]
    rfl

theorem text_of_readAlgorithm {a : Option Bytes} {mdType : MdType}
    (h : readAlgorithm a = some mdType) :
    (a = none ∧ mdType = .sha1) ∨ a = some mdType.text ∧ mdType ≠ .none := by
  cases a with
  | none => exact .inl ⟨rfl, (Option.some.inj h).symm⟩
  | some alg =>
      refine .inr ?_
      simp only [readAlgorithm] at h
      split_ifs at h with h1 h256 h512
      · obtain rfl := Option.some.inj h
        exact ⟨congrArg some h1, by decide⟩
      · obtain rfl := Option.some.inj h
        exact ⟨congrArg some h256, by decide⟩
      · obtain rfl := Option.some.inj h
        exact ⟨congrArg some h512, by decide⟩

theorem mem_of_readAlgorithm {a : Option Bytes} {mdType : MdType}
    (h : readAlgorithm a = some mdType) :
    a ∈ [none, some (ascii "SHA1"), some (ascii "SHA256"), some (ascii "SHA512")] := by
  obtain ⟨rfl, -⟩ | ⟨rfl, hne⟩ := text_of_readAlgorithm h
  · simp
  · cases mdType with
    | none => exact absurd rfl hne
    | sha1 => simp [MdType.text]
    | sha256 => simp [MdType.text]
    | sha512 => simp [MdType.text]

theorem mem_of_readDigits {a : Option Bytes} {digits : Int} (h : readDigits a = some digits) :
    a ∈ [none, some (ascii "6"), some (ascii "8")] := by
  obtain ⟨rfl, -⟩ | ⟨text, rfl, ⟨-, hall⟩, hvalue, hsix⟩ := readDigits_eq_some h
  · simp
  · cases text with
    | nil => cases h
    | cons c cs =>
        cases cs with
        | cons d cs => cases h
        | nil =>
            have hlo := (bounds_of_isDigit (List.all_eq_true.1 hall c List.mem_cons_self)).1
            rw [decimal, List.map_singleton, value_singleton] at hvalue
            have hc : c = 0x36 ∨ c = 0x38 := by
              rcases hsix with hsix | hsix
              · exact .inl (UInt8.toNat_inj.1 (show c.toNat = 54 by omega))
              · exact .inr (UInt8.toNat_inj.1 (show c.toNat = 56 by omega))
            rcases hc with rfl | rfl
            · decide
            · decide

/-- What has been read up to the type is a URI of a one-time password. -/
theorem HeadReads.otpHead {uri : Bytes} {u : HttpParserUrl} {query : Slice} {ctx : OtpSlices}
    (h : HeadReads uri u query ctx) : OtpHead uri u ctx.type query where
  schema := h.schema
  port := h.port
  fragment := h.fragment
  host_eq := h.host
  query_eq := h.query_eq
  secret := by
    refine ⟨_, h.secret, ?_⟩
    obtain ⟨hpos, hinside⟩ := h.secretInside
    have hlen : (ctx.secret.bytes uri).length = ctx.secret.len := by
      simp only [Slice.Inside] at hinside
      rw [Slice.bytes, Bytes.field, List.length_take, List.length_drop]
      omega
    intro hnil
    rw [hnil, List.length_nil] at hlen
    omega
  digits := mem_of_readDigits h.digits
  algorithm := mem_of_readAlgorithm h.algorithm

/-- A URI of a one-time password is read up to the type. -/
theorem OtpHead.headReads {uri : Bytes} {u : HttpParserUrl} {host query : Slice}
    (h : OtpHead uri u host query) (hinside : ∀ s ∈ u.read, s.Inside uri) :
    ∃ ctx, uriHead uri u = .ok (some (query, query.bytes uri, ctx)) ∧ HeadReads uri u query ctx ∧
      ctx.type = host := by
  obtain ⟨r, hr, hspec⟩ := uriHead_spec hinside
  suffices hsome : ∃ q qry ctx, uriHead uri u = .ok (some (q, qry, ctx)) by
    obtain ⟨q, qry, ctx, hsome⟩ := hsome
    rw [hsome] at hr
    obtain ⟨rfl, hreads⟩ := hspec q qry ctx (Except.ok.inj hr).symm
    have hquery : q = query := Option.some.inj (hreads.query_eq.symm.trans h.query_eq)
    have hhost : ctx.type = host := Option.some.inj (hreads.host.symm.trans h.host_eq)
    subst hquery
    exact ⟨ctx, hsome, hreads, hhost⟩
  obtain ⟨schema, hschema, htext⟩ := h.schema
  obtain ⟨secret, hsecret, hne⟩ := h.secret
  have hschemaInside := hinside schema (by simp [HttpParserUrl.read, hschema])
  have hqueryInside := hinside query (by simp [HttpParserUrl.read, h.query_eq])
  have hlen : schema.len = 7 := by
    have hbytes : (schema.bytes uri).length = 7 := by rw [htext]; rfl
    simp only [Slice.Inside] at hschemaInside
    rw [Slice.bytes, Bytes.field, List.length_take, List.length_drop] at hbytes
    omega
  obtain ⟨s, hs, hsValue, hsAt⟩ := queryArgument_spec hqueryInside "secret"
  obtain ⟨issuer, hissuer, -, -⟩ := queryArgument_spec hqueryInside "issuer"
  obtain ⟨digits, hdigits, hdigitsValue, -⟩ := queryArgument_spec hqueryInside "digits"
  obtain ⟨algorithm, halgorithm, halgorithmValue, -⟩ := queryArgument_spec hqueryInside "algorithm"
  rw [hsecret] at hsValue
  cases s with
  | none => cases hsValue
  | some pair =>
      obtain ⟨slice, value⟩ := pair
      obtain rfl : value = secret := Option.some.inj hsValue
      obtain ⟨-, hbytes⟩ := hsAt slice value rfl
      have hpos : slice.len ≠ 0 := by
        intro hzero
        rw [Slice.bytes, Bytes.field, hzero, List.take_zero] at hbytes
        exact hne hbytes.symm
      obtain ⟨d, hd⟩ : ∃ d, readDigits (argument (query.bytes uri) "digits") = some d := by
        have hmem := h.digits
        simp only [List.mem_cons, List.not_mem_nil, or_false] at hmem
        rcases hmem with hmem | hmem | hmem
        · exact ⟨6, by rw [hmem]; rfl⟩
        · exact ⟨6, by rw [hmem]; rfl⟩
        · exact ⟨8, by rw [hmem]; rfl⟩
      obtain ⟨md, hmd⟩ :
          ∃ md, readAlgorithm (argument (query.bytes uri) "algorithm") = some md := by
        have hmem := h.algorithm
        simp only [List.mem_cons, List.not_mem_nil, or_false] at hmem
        rcases hmem with hmem | hmem | hmem | hmem
        · exact ⟨.sha1, by rw [hmem]; rfl⟩
        · exact ⟨.sha1, by rw [hmem]; rfl⟩
        · exact ⟨.sha256, by rw [hmem]; decide⟩
        · exact ⟨.sha512, by rw [hmem]; decide⟩
      rw [uriHead, hschema]
      simp only
      rw [if_neg (not_not.2 hlen), Slice.read_eq hschemaInside, ok_bind, if_neg (not_not.2 htext),
        h.host_eq, h.query_eq]
      simp only [h.port, h.fragment, Option.isSome_none, Bool.or_self, Bool.false_eq_true, if_false]
      rw [Slice.read_eq hqueryInside, ok_bind, hs, ok_bind]
      simp only
      rw [if_neg hpos, hissuer, ok_bind, hdigits, ok_bind, hdigitsValue, hd]
      simp only
      rw [halgorithm, ok_bind, halgorithmValue, hmd]
      exact ⟨_, _, _, rfl⟩

/-! ### The numbers that move -/

theorem readCounter_of_length {text : Bytes} (h : text.length = 0 ∨ 20 < text.length) :
    readCounter (some text) = .ok none := if_pos h

/-- A counter of at most 19 characters fits its buffer. -/
theorem readCounter_eq {text : Bytes} (hpos : 0 < text.length) (hlen : text.length ≤ 19) :
    readCounter (some text) = .ok (some (strtoull (text ++ [0]))) := by
  rw [readCounter, if_neg (by omega), put_eq_ok (by simp only [List.length_nil]; omega), ok_bind,
    List.nil_append,
    put_eq_ok (by simp only [List.length_singleton]; omega), ok_bind]
  rfl

/-- A counter of 20 characters leaves no room for the terminator. -/
theorem readCounter_overflow {text : Bytes} (hlen : text.length = 20) :
    readCounter (some text) = .error .overflow := by
  rw [readCounter, if_neg (by omega), put_eq_ok (by simp only [List.length_nil]; omega), ok_bind,
    List.nil_append,
    put, if_neg (by simp only [List.length_singleton]; omega)]
  rfl

/-- A period of at most three characters fits its buffer. -/
theorem readPeriod_eq {text : Bytes} (hpos : 0 < text.length) (hlen : text.length ≤ 3) :
    readPeriod (some text) = .ok (some (toInt8 (strtoull (text ++ [0])))) := by
  rw [readPeriod, if_neg (by omega), put_eq_ok (by simp only [List.length_nil]; omega), ok_bind,
    List.nil_append,
    put_eq_ok (by simp only [List.length_singleton]; omega), ok_bind]
  rfl

/-- What the last part of the function makes of a context, by the type and the moving parameters. -/
theorem uriMoving_eq {uri : Bytes} {query : Slice} {ctx : OtpSlices} (hquery : query.Inside uri)
    (htype : ctx.type.Inside uri) :
    uriMoving uri query (query.bytes uri) ctx =
      if ctx.type.bytes uri = ascii "hotp" then do
        let counter ← readCounter (argument (query.bytes uri) "counter")
        return counter.map fun counter => { ctx with otpType := .hotp, counter }
      else if ctx.type.bytes uri = ascii "totp" then do
        let period ← readPeriod (argument (query.bytes uri) "period")
        return (period.filter (· ≠ 0)).map fun period => { ctx with otpType := .totp, period }
      else .ok none := by
  obtain ⟨counter, hcounter, hcounterValue, -⟩ := queryArgument_spec hquery "counter"
  obtain ⟨period, hperiod, hperiodValue, -⟩ := queryArgument_spec hquery "period"
  rw [uriMoving, Slice.read_eq htype, ok_bind]
  by_cases hhotp : ctx.type.bytes uri = ascii "hotp"
  · rw [if_pos hhotp, if_pos hhotp, hcounter, ok_bind, hcounterValue]
    refine bind_congr ?_
    intro counter
    cases counter with
    | none => rfl
    | some counter => rfl
  · rw [if_neg hhotp, if_neg hhotp]
    by_cases htotp : ctx.type.bytes uri = ascii "totp"
    · rw [if_pos htotp, if_pos htotp, hperiod, ok_bind, hperiodValue]
      refine bind_congr ?_
      intro period
      cases period with
      | none => rfl
      | some period =>
          by_cases hzero : period = 0
          · subst hzero
            rfl
          · have hfilter : (some period).filter (· ≠ 0) = some period :=
              Option.filter_some_pos (decide_eq_true hzero)
            rw [hfilter]
            exact if_neg hzero
    · rw [if_neg htotp, if_neg htotp]
      rfl

theorem toInt8_of_le {n : UInt64} (h : n.toNat ≤ 127) : toInt8 n = n.toNat :=
  Int.bmod_eq_of_le_mul_two (by omega) (by omega)

/-! ### Order and termination -/

/-- A scan ends: more turns than there are bytes change nothing. -/
theorem getQueryArgumentAt_fuel (key : Bytes) {fuel ptr : ℕ} {qry : Bytes} (h : qry.length ≤ fuel) :
    getQueryArgumentAt key fuel ptr qry = getQueryArgumentAt key qry.length ptr qry := by
  -- two amounts of fuel that are both enough
  suffices hboth : ∀ n m ptr (qry : Bytes), qry.length ≤ n → qry.length ≤ m →
      getQueryArgumentAt key n ptr qry = getQueryArgumentAt key m ptr qry from
    hboth _ _ _ _ h le_rfl
  intro n
  induction n with
  | zero =>
      intro m ptr qry hn _
      obtain rfl := List.length_eq_zero_iff.1 (Nat.le_zero.1 hn)
      cases m with
      | zero => rfl
      | succ m => rfl
  | succ n ih =>
      intro m ptr qry hn hm
      cases m with
      | zero =>
          obtain rfl := List.length_eq_zero_iff.1 (Nat.le_zero.1 hm)
          rfl
      | succ m =>
          rw [getQueryArgumentAt, getQueryArgumentAt]
          cases hdrop : qry.dropWhile (· ≠ 0x3d) with
          | nil => rfl
          | cons eq rest =>
              have hshort : ((rest.dropWhile (· ≠ 0x26)).drop 1).length < qry.length := by
                have hrest : rest.length < qry.length := by
                  have hle := (List.dropWhile_suffix (fun c : UInt8 => decide (c ≠ 0x3d))
                    (l := qry)).length_le
                  rw [hdrop, List.length_cons] at hle
                  exact hle
                have htail := (List.dropWhile_suffix (fun c : UInt8 => decide (c ≠ 0x26))
                  (l := rest)).length_le
                rw [List.length_drop]
                omega
              simp only
              rw [ih m _ _ (by omega) (by omega)]

/-- Looking a key up does not depend on the order, when at most one entry has it. -/
theorem find?_perm {α : Type} {p : α → Bool} {xs ys : List α} (h : xs.Perm ys)
    (hone : ∀ x ∈ xs, ∀ y ∈ xs, p x = true → p y = true → x = y) : ys.find? p = xs.find? p := by
  cases hx : xs.find? p with
  | none =>
      rw [List.find?_eq_none] at hx ⊢
      exact fun y hy => hx y (h.mem_iff.2 hy)
  | some x =>
      have hpx := List.find?_some hx
      have hmem := List.mem_of_find?_eq_some hx
      cases hy : ys.find? p with
      | none => exact absurd hpx (List.find?_eq_none.1 hy x (h.mem_iff.1 hmem))
      | some y =>
          have hymem := h.mem_iff.2 (List.mem_of_find?_eq_some hy)
          rw [hone y hymem x hmem (List.find?_some hy) hpx]

/-- Parameters with different names are found in whatever order they stand. -/
theorem argument_perm {params params' : List (Bytes × Bytes)} (h : PlainParams params)
    (hnames : DistinctNames params) (hperm : params.Perm params') (key : String) :
    argument (renderParams params') key = argument (renderParams params) key := by
  have hplain : PlainParams params' := fun param hmem => h param (hperm.mem_iff.2 hmem)
  rw [argument_render hplain, argument_render h]
  refine congrArg _ (find?_perm hperm ?_)
  intro p hp q hq hkey hkey'
  by_contra hne
  have hsymm : Std.Symm fun p q : Bytes × Bytes => sameLetters p.1 q.1 = false := by
    constructor
    intro p q hpq
    rw [sameLetters, beq_eq_false_iff_ne] at hpq ⊢
    exact hpq.symm
  have hdiff := List.Pairwise.forall hnames hp hq hne
  rw [sameLetters, beq_iff_eq] at hkey hkey'
  rw [sameLetters, beq_eq_false_iff_ne] at hdiff
  exact hdiff (hkey.trans hkey'.symm)

/-! ### The result -/

section Result

variable {split parse : Bytes → Option HttpParserUrl} {uri : Bytes} {u : HttpParserUrl}
  {host query : Slice}

/-- What the last part of the function makes of a context. -/
theorem uriMoving_readMoving {ctx : OtpSlices} (h : HeadReads uri u query ctx)
    (hshort : ¬LongCounter uri ctx.type query) :
    uriMoving uri query (query.bytes uri) ctx =
      .ok ((readMoving (ctx.type.bytes uri) (argument (query.bytes uri) "counter")
        (argument (query.bytes uri) "period")).map fun moving =>
          { ctx with otpType := moving.1, counter := moving.2.1, period := moving.2.2 }) := by
  obtain ⟨-, hcounter, hperiod⟩ := h.moving
  rw [uriMoving_eq h.queryInside h.hostInside, readMoving]
  by_cases hhotp : ctx.type.bytes uri = ascii "hotp"
  · rw [if_pos hhotp, if_pos hhotp]
    cases htext : argument (query.bytes uri) "counter" with
    | none => rfl
    | some text =>
        by_cases hlen : text.length = 0 ∨ 20 < text.length
        · rw [readCounter_of_length hlen, movingCounter, if_neg (by omega)]
          rfl
        · have hne : text.length ≠ 20 := fun hlen => hshort ⟨hhotp, text, htext, hlen⟩
          rw [readCounter_eq (by omega) (by omega), movingCounter, if_pos (by omega)]
          simp only [ok_bind, Option.map_some, hperiod]
          rfl
  · rw [if_neg hhotp, if_neg hhotp]
    by_cases htotp : ctx.type.bytes uri = ascii "totp"
    · rw [if_pos htotp, if_pos htotp]
      cases htext : argument (query.bytes uri) "period" with
      | none =>
          simp only [readPeriod, ok_bind, hcounter]
          rfl
      | some text =>
          by_cases hlen : text.length = 0 ∨ 3 < text.length
          · rw [readPeriod, if_pos hlen, movingPeriod, if_neg (by omega)]
            rfl
          · rw [readPeriod_eq (by omega) (by omega), ok_bind]
            by_cases hzero : toInt8 (strtoull (text ++ [0])) = 0
            · rw [movingPeriod, if_neg (fun h => h.2.2 hzero), hzero]
              rfl
            · have hfilter : (some (toInt8 (strtoull (text ++ [0])))).filter (· ≠ 0) =
                  some (toInt8 (strtoull (text ++ [0]))) :=
                Option.filter_some_pos (decide_eq_true hzero)
              rw [movingPeriod, if_pos ⟨by omega, by omega, hzero⟩, hfilter]
              simp only [Option.map_some, hcounter]
              rfl
    · rw [if_neg htotp, if_neg htotp]
      rfl

/-- A counter that is too long is copied past its buffer. -/
theorem uriMoving_longCounter {ctx : OtpSlices} (h : HeadReads uri u query ctx)
    (hlong : LongCounter uri ctx.type query) :
    uriMoving uri query (query.bytes uri) ctx = .error .overflow := by
  obtain ⟨hhotp, text, htext, hlen⟩ := hlong
  rw [uriMoving_eq h.queryInside h.hostInside, if_pos hhotp, htext, readCounter_overflow hlen]
  rfl

/-- What is found through the fields of the parser is what the URI says by its own. -/
theorem isOtpUri_iff_sameRecord {v : HttpParserUrl} {query' : Slice} {ctx : OtpSlices}
    (h : HeadReads uri u query ctx) (moving : OtpType × UInt64 × Int) :
    IsOtpUri uri v query'
        { ctx with otpType := moving.1, counter := moving.2.1, period := moving.2.2 } ↔
      SameRecord uri u v ctx.type query query' ∧
        MovingIs (ctx.type.bytes uri) (argument (query'.bytes uri) "counter")
          (argument (query'.bytes uri) "period") moving := by
  constructor
  · intro hotp
    refine ⟨⟨hotp.head, ?_, ?_, ?_, ?_, ?_⟩, hotp.moving⟩
    · rw [← h.label]
      exact hotp.label
    · rw [hotp.secret.1, h.secret]
    · rw [hotp.issuer.1, h.issuer]
    · rw [h.digits]
      rcases hotp.digits with ⟨hnone, hsix⟩ | ⟨text, htext, -, hvalue⟩
      · rw [hnone]
        exact congrArg some (show (6 : Int) = ctx.digits from hsix.symm)
      · have hmem := hotp.head.digits
        rw [htext] at hmem ⊢
        simp only [List.mem_cons, Option.some.injEq, List.not_mem_nil, or_false, reduceCtorEq,
          false_or] at hmem
        have hdigits : ctx.digits = decimal text := hvalue
        rw [hdigits]
        rcases hmem with rfl | rfl <;> decide
    · rw [h.algorithm]
      rcases hotp.algorithm with ⟨hnone, hsha⟩ | ⟨htext, hne⟩
      · rw [hnone]
        exact congrArg some (show MdType.sha1 = ctx.mdType from hsha.symm)
      · rw [htext]
        change ctx.mdType ≠ .none at hne
        change readAlgorithm (some ctx.mdType.text) = _
        cases hmd : ctx.mdType with
        | none => exact absurd hmd hne
        | sha1 => decide
        | sha256 => decide
        | sha512 => decide
  · rintro ⟨hsame, hmoving⟩
    have hdigits := hsame.digits.trans h.digits
    exact {
      head := hsame.head
      label := h.label ▸ hsame.label
      secret := ⟨hsame.secret.trans h.secret, h.secretInside.2⟩
      issuer := ⟨hsame.issuer.trans h.issuer, h.issuerInside⟩
      digits := (readDigits_eq_some hdigits).imp id fun ⟨text, htext, hdecimal, hvalue, _⟩ =>
        ⟨text, htext, hdecimal, hvalue⟩
      algorithm := text_of_readAlgorithm (hsame.algorithm.trans h.algorithm)
      moving := hmoving }

/-- **A URI is read safely and exactly when the fields of the parser are as good as its own.** -/
theorem readsUri_iff (hparse : ParserLaws split parse) :
    ReadsUri split parse uri ↔ ∀ u host query, parse uri = some u → OtpHead uri u host query →
      Faithful split uri u host query := by
  constructor
  · rintro h u host query hu hhead
    obtain ⟨ctx, hctx, hreads, rfl⟩ := hhead.headReads (hparse.inside uri u hu)
    obtain ⟨r, hr, hexact⟩ := h.reads
    simp only [otpUriToSlices, hu, hctx, ok_bind] at hr
    have hshort : ¬LongCounter uri ctx.type query := by
      intro hlong
      rw [uriMoving_longCounter hreads hlong] at hr
      cases hr
    rw [uriMoving_readMoving hreads hshort] at hr
    refine ⟨hshort, fun moving hmoving => ?_⟩
    rw [hmoving] at hr
    obtain ⟨v, query', hv, hotp⟩ := hexact _ (Except.ok.inj hr).symm
    exact ⟨v, query', hv, (isOtpUri_iff_sameRecord hreads moving).1 hotp⟩
  · intro h
    refine { ends := ?_, reads := ?_, order := ?_ }
    · intro u query key fuel _ _ hfuel
      exact getQueryArgumentAt_fuel _ hfuel
    · rw [otpUriToSlices]
      cases hu : parse uri with
      | none => exact ⟨none, rfl, by simp⟩
      | some u =>
          obtain ⟨r, hr, hspec⟩ := uriHead_spec (hparse.inside uri u hu)
          simp only
          rw [hr, ok_bind]
          cases r with
          | none => exact ⟨none, rfl, by simp⟩
          | some read =>
              obtain ⟨query, qry, ctx⟩ := read
              obtain ⟨rfl, hreads⟩ := hspec query qry ctx rfl
              have hfaithful := h u ctx.type query hu hreads.otpHead
              simp only
              rw [uriMoving_readMoving hreads hfaithful.buffer]
              refine ⟨_, rfl, fun ctx' hctx' => ?_⟩
              obtain ⟨moving, hmoving, rfl⟩ := Option.map_eq_some_iff.1 hctx'
              obtain ⟨v, query', hv, hsame⟩ := hfaithful.same moving hmoving
              exact ⟨v, query', hv, (isOtpUri_iff_sameRecord hreads moving).2 hsame⟩
    · intro u query params params' key _ _ hquery hplain hnames hperm
      rw [hquery, argument_perm hplain hnames hperm]

/-- Fields that are as good as those of the URI have plain numbers, and a path in front. -/
theorem Faithful.plainNumbers (hparse : ParserLaws split parse) (huri : uri.length < 2 ^ 16)
    (hu : parse uri = some u) (hhead : OtpHead uri u host query)
    (h : Faithful split uri u host query) : PlainNumbers uri u host query := by
  have hsplit : split uri = some u := (hparse.exact uri huri).symm.trans hu
  have hdiff : ascii "totp" ≠ ascii "hotp" := by decide
  -- what is found is found in the same query, behind a path
  have hfound : ∀ moving, readMoving (host.bytes uri) (argument (query.bytes uri) "counter")
      (argument (query.bytes uri) "period") = some moving →
      MovingIs (host.bytes uri) (argument (query.bytes uri) "counter")
        (argument (query.bytes uri) "period") moving ∧ u.path.isSome = true := by
    intro moving hmoving
    obtain ⟨v, query', hv, hsame, his⟩ := h.same moving hmoving
    obtain rfl := Option.some.inj (hsplit.symm.trans hv)
    obtain rfl := Option.some.inj (hhead.query_eq.symm.trans hsame.head.query_eq)
    refine ⟨his, ?_⟩
    have hlabel := hsame.label
    unfold LabelIs at hlabel
    cases hpath : u.path with
    | some path => rfl
    | none =>
        rw [hpath] at hlabel
        cases hlabel
  refine { counter := ?_, period := ?_, noPeriod := ?_ }
  · intro hhotp text htext hpos hlen
    have hne : text.length ≠ 20 := fun h20 => h.buffer ⟨hhotp, text, htext, h20⟩
    obtain ⟨his, hpath⟩ := hfound (.hotp, strtoull (text ++ [0]), 0) (by
      rw [readMoving, if_pos hhotp, htext, movingCounter, if_pos ⟨hpos, hlen⟩])
    rcases his with ⟨-, -, -, text', htext', hdecimal, -⟩ | ⟨htotp, -⟩
    · obtain rfl := Option.some.inj (htext.symm.trans htext')
      exact ⟨hdecimal, by omega, hpath⟩
    · exact absurd (htotp.symm.trans hhotp) hdiff
  · intro htotp text htext hperiod
    have hnot : host.bytes uri ≠ ascii "hotp" := fun hhotp => hdiff (htotp.symm.trans hhotp)
    obtain ⟨his, hpath⟩ := hfound (.totp, 0, toInt8 (strtoull (text ++ [0]))) (by
      rw [readMoving, if_neg hnot, if_pos htotp, htext, movingPeriod]
      exact if_pos hperiod)
    have hrange : toInt8 (strtoull (text ++ [0])) ≤ 127 := by
      have hlt := Int.bmod_lt (x := (strtoull (text ++ [0])).toNat) (m := 256) (by decide)
      change toInt8 (strtoull (text ++ [0])) < _ at hlt
      omega
    generalize toInt8 (strtoull (text ++ [0])) = n at his hrange
    rcases his with ⟨hhotp, -⟩ | ⟨-, -, -, hcases⟩
    · exact absurd hhotp hnot
    · rcases hcases with ⟨hnone, -⟩ | ⟨text', htext', hdecimal, -, hvalue⟩
      · rw [htext] at hnone
        cases hnone
      · obtain rfl := Option.some.inj (htext.symm.trans htext')
        have hvalue' : n = decimal text := hvalue
        exact ⟨hdecimal, by omega, hpath⟩
  · intro htotp htext
    have hnot : host.bytes uri ≠ ascii "hotp" := fun hhotp => hdiff (htotp.symm.trans hhotp)
    exact (hfound (.totp, 0, 30) (by
      rw [readMoving, if_neg hnot, if_pos htotp, htext, movingPeriod])).2

/-- Plain numbers are read as what they say. -/
theorem PlainNumbers.movingIs (h : PlainNumbers uri u host query)
    {moving : OtpType × UInt64 × Int}
    (hmoving : readMoving (host.bytes uri) (argument (query.bytes uri) "counter")
      (argument (query.bytes uri) "period") = some moving) :
    u.path.isSome = true ∧ MovingIs (host.bytes uri) (argument (query.bytes uri) "counter")
      (argument (query.bytes uri) "period") moving := by
  rw [readMoving] at hmoving
  split_ifs at hmoving with hhotp htotp
  · cases htext : argument (query.bytes uri) "counter" with
    | none =>
        rw [htext] at hmoving
        cases hmoving
    | some text =>
        rw [htext, movingCounter] at hmoving
        split_ifs at hmoving with hlen
        obtain rfl := Option.some.inj hmoving
        obtain ⟨hdecimal, hshort, hpath⟩ := h.counter hhotp text htext hlen.1 hlen.2
        exact ⟨hpath, .inl ⟨hhotp, rfl, rfl, text, rfl, hdecimal,
          strtoull_of_isDecimal hdecimal hshort⟩⟩
  · cases htext : argument (query.bytes uri) "period" with
    | none =>
        rw [htext] at hmoving
        obtain rfl := Option.some.inj hmoving
        exact ⟨h.noPeriod htotp htext, .inr ⟨htotp, rfl, rfl, .inl ⟨rfl, rfl⟩⟩⟩
    | some text =>
        rw [htext, movingPeriod] at hmoving
        split_ifs at hmoving with hperiod
        obtain rfl := Option.some.inj hmoving
        obtain ⟨hdecimal, hsmall, hpath⟩ := h.period htotp text htext hperiod
        obtain ⟨-, hlen, hne⟩ := hperiod
        have hvalue := strtoull_of_isDecimal hdecimal (by omega)
        have hbyte : toInt8 (strtoull (text ++ [0])) = decimal text :=
          (toInt8_of_le (by omega)).trans (congrArg Int.ofNat hvalue)
        generalize toInt8 (strtoull (text ++ [0])) = n at hne hbyte ⊢
        have hpositive : 0 < n := by omega
        exact ⟨hpath, .inr ⟨htotp, rfl, rfl, .inr ⟨text, rfl, hdecimal, hpositive, hbyte⟩⟩⟩

/-- Below 64 KiB the fields are as good as those of the URI when its numbers are plain. -/
theorem faithful_iff_plainNumbers (hparse : ParserLaws split parse) (huri : uri.length < 2 ^ 16)
    (hu : parse uri = some u) (hhead : OtpHead uri u host query) :
    Faithful split uri u host query ↔ PlainNumbers uri u host query := by
  have hsplit : split uri = some u := (hparse.exact uri huri).symm.trans hu
  refine ⟨fun h => h.plainNumbers hparse huri hu hhead, fun h => ?_⟩
  obtain ⟨schema, hschema, -⟩ := hhead.schema
  refine { buffer := ?_, same := ?_ }
  · rintro ⟨hhotp, text, htext, hlen⟩
    have hshort := (h.counter hhotp text htext (by omega) (by omega)).2.1
    omega
  · intro moving hmoving
    obtain ⟨hpath, his⟩ := h.movingIs hmoving
    obtain ⟨path, hp⟩ := Option.isSome_iff_exists.1 hpath
    refine ⟨u, query, hsplit, ⟨hhead, ?_, rfl, rfl, rfl, rfl⟩, his⟩
    have hlabel := labelSlice_spec hparse huri hu (by rw [hschema]; rfl) hp
    rw [LabelIs, hp]
    rwa [hp] at hlabel

end Result

/-! ### Four URIs -/

/-- A record that is read as it should be. -/
def plainUri : Bytes := ascii "otpauth://totp/a?secret=ABC&period=60"

/-- A counter of 20 digits. -/
def longCounterUri : Bytes := ascii "otpauth://hotp/a?counter=00000000000000000001&secret=ABC"

/-- A record with a long parameter behind the others. -/
def longParams : List (Bytes × Bytes) :=
  [(ascii "secret", ascii "ABC"), (ascii "period", ascii "60"),
    (ascii "image", List.replicate 65536 0x78)]

def longQueryUri : Bytes := ascii "otpauth://totp/a?" ++ renderParams longParams

/-- A path of 64 KiB, which starts like a query. -/
def longPathUri : Bytes :=
  ascii "otpauth://totp/secret=ABC" ++ (List.replicate 65525 0x61 ++ ascii "?secret=ABC")

/-- The fields of the four. -/
def otpFields (pathLen : ℕ) (uri : Bytes) : HttpParserUrl where
  schema := some ⟨0, 7⟩
  host := some ⟨10, 4⟩
  path := some ⟨14, pathLen⟩
  query := some ⟨15 + pathLen, uri.length - (15 + pathLen)⟩

/-- A division that knows the four. -/
def otpSplit (uri : Bytes) : Option HttpParserUrl :=
  if uri = plainUri ∨ uri = longCounterUri ∨ uri = longQueryUri then some (otpFields 2 uri)
  else if uri = longPathUri then some (otpFields 65536 uri)
  else none

/-- A place in 16 bits. -/
def Slice.wrapped (s : Slice) : Slice := ⟨s.off % 2 ^ 16, s.len % 2 ^ 16⟩

/-- The fields in 16 bits, without port and fragment. -/
def HttpParserUrl.wrapped (u : HttpParserUrl) : HttpParserUrl where
  schema := u.schema.map Slice.wrapped
  host := u.host.map Slice.wrapped
  path := u.path.map Slice.wrapped
  query := u.query.map Slice.wrapped

def otpParser (uri : Bytes) : Option HttpParserUrl := (otpSplit uri).map HttpParserUrl.wrapped

theorem renderParams_image (image : Bytes) :
    renderParams [(ascii "secret", ascii "ABC"), (ascii "period", ascii "60"),
      (ascii "image", image)] = ascii "secret=ABC&period=60&image=" ++ image := rfl

theorem longQueryUri_eq : longQueryUri =
    ascii "otpauth://totp/a?secret=ABC&period=60&image=" ++ List.replicate 65536 0x78 := by
  have hfront : ascii "otpauth://totp/a?" ++ ascii "secret=ABC&period=60&image=" =
      ascii "otpauth://totp/a?secret=ABC&period=60&image=" := by decide
  rw [longQueryUri, longParams, renderParams_image, ← List.append_assoc, hfront]

theorem length_longQueryUri : longQueryUri.length = 65580 := by
  have hfront : (ascii "otpauth://totp/a?secret=ABC&period=60&image=").length = 44 := by decide
  rw [longQueryUri_eq, List.length_append, List.length_replicate, hfront]

theorem length_longPathUri : longPathUri.length = 65561 := by
  have hprefix : (ascii "otpauth://totp/secret=ABC").length = 25 := by decide
  have hquery : (ascii "?secret=ABC").length = 11 := by decide
  rw [longPathUri, List.length_append, List.length_append, List.length_replicate, hprefix, hquery]

/-- Each of the four has a path behind its host, and something behind its path. -/
theorem otpSplit_eq_some {uri : Bytes} {u : HttpParserUrl} (h : otpSplit uri = some u) :
    ∃ pathLen, u = otpFields pathLen uri ∧ 0 < pathLen ∧ 15 + pathLen < uri.length ∧
      (uri.drop 14).head? = some 0x2f := by
  rw [otpSplit] at h
  split_ifs at h with hknown hlong
  · obtain rfl := Option.some.inj h
    refine ⟨2, rfl, by decide, ?_⟩
    rcases hknown with rfl | rfl | rfl
    · decide
    · decide
    · exact ⟨by rw [length_longQueryUri]; decide, rfl⟩
  · obtain rfl := Option.some.inj h
    subst hlong
    exact ⟨65536, rfl, by decide, by rw [length_longPathUri]; decide, rfl⟩

theorem otpParser_laws : ParserLaws otpSplit otpParser where
  exact uri huri := by
    rw [otpParser]
    cases hu : otpSplit uri with
    | none => rfl
    | some u =>
        obtain ⟨pathLen, rfl, hpos, hlen, -⟩ := otpSplit_eq_some hu
        simp only [Option.map_some, otpFields, HttpParserUrl.wrapped, Slice.wrapped,
          Option.some.injEq, HttpParserUrl.mk.injEq, Slice.mk.injEq, true_and, and_true]
        omega
  inside uri u h s hs := by
    obtain ⟨u, hu, rfl⟩ := Option.map_eq_some_iff.1 h
    obtain ⟨pathLen, rfl, hpos, hlen, -⟩ := otpSplit_eq_some hu
    simp only [HttpParserUrl.read, HttpParserUrl.wrapped, otpFields, Option.map_some,
      Option.toList_some, List.cons_append, List.nil_append, List.mem_cons, List.not_mem_nil,
      or_false] at hs
    rcases hs with rfl | rfl | rfl | rfl
    all_goals
      simp only [Slice.Inside, Slice.wrapped]
      omega
  nonempty uri u h s hs := by
    obtain ⟨pathLen, rfl, hpos, hlen, -⟩ := otpSplit_eq_some h
    simp only [HttpParserUrl.read, otpFields, Option.toList_some, List.cons_append,
      List.nil_append, List.mem_cons, List.not_mem_nil, or_false] at hs
    rcases hs with rfl | rfl | rfl | rfl
    all_goals
      simp only
      omega
  slash uri u path h _ hpath := by
    obtain ⟨pathLen, rfl, hpos, -, hslash⟩ := otpSplit_eq_some h
    obtain rfl := Option.some.inj hpath
    rw [Slice.bytes, Bytes.field, List.head?_take, if_neg (Nat.pos_iff_ne_zero.1 hpos)]
    exact hslash

/-- What lies at the front of a URI does not depend on the rest. -/
theorem Slice.bytes_append {front : Bytes} {s : Slice} (rest : Bytes) (h : s.Inside front) :
    s.bytes (front ++ rest) = s.bytes front := by
  simp only [Slice.Inside] at h
  rw [Slice.bytes, Slice.bytes, Bytes.field, Bytes.field, List.drop_append_of_le_length (by omega),
    List.take_append_of_le_length (by rw [List.length_drop]; omega)]

/-- What the parser makes of the long query: its front. -/
theorem bytes_longQuery : (Slice.mk 17 27).bytes longQueryUri =
    ascii "secret=ABC&period=60&image=" := by
  rw [longQueryUri_eq, Slice.bytes_append _ (by decide)]
  decide

/-- The long query itself. -/
theorem bytes_longQuery_all : (Slice.mk 17 65563).bytes longQueryUri = renderParams longParams := by
  have hlen : (renderParams longParams).length = 65563 := by
    have htotal := length_longQueryUri
    rw [longQueryUri, List.length_append, show (ascii "otpauth://totp/a?").length = 17 by decide]
      at htotal
    omega
  have hlies : LiesAt longQueryUri 17 (renderParams longParams) :=
    ⟨ascii "otpauth://totp/a?", [], (List.append_nil _).symm, by decide⟩
  have hbytes := (Slice.bytes_of_liesAt hlies).2
  rwa [hlen] at hbytes

theorem plainParams_longParams : PlainParams longParams := by
  intro param hmem
  simp only [longParams, List.mem_cons, List.not_mem_nil, or_false] at hmem
  rcases hmem with rfl | rfl | rfl
  · decide
  · decide
  · refine ⟨by decide, fun hmem => ?_⟩
    exact absurd (List.eq_of_mem_replicate hmem) (by decide)

/-- The fields of the long query and those that the parser makes of them. -/
def longQuery : Slice := ⟨15 + 2, longQueryUri.length - (15 + 2)⟩

theorem argument_longQuery (key : String) :
    argument (longQuery.wrapped.bytes longQueryUri) key =
      argument (ascii "secret=ABC&period=60&image=") key ∧
    argument (longQuery.bytes longQueryUri) key =
      (longParams.find? fun param => sameLetters param.1 (ascii key)).map Prod.snd := by
  have hfront : longQuery.wrapped = ⟨17, 27⟩ := by
    rw [longQuery, length_longQueryUri]
    decide
  have hwhole : longQuery = ⟨17, 65563⟩ := by
    rw [longQuery, length_longQueryUri]
  rw [hfront, bytes_longQuery, hwhole, bytes_longQuery_all, argument_render plainParams_longParams]
  exact ⟨rfl, rfl⟩

theorem bytes_longQueryUri {s : Slice} (h : s.Inside (ascii "otpauth://totp/a?")) :
    s.bytes longQueryUri = s.bytes (ascii "otpauth://totp/a?") := Slice.bytes_append _ h

/-- The front of the long query says what the whole says. -/
theorem faithful_longQuery : Faithful otpSplit longQueryUri (otpFields 2 longQueryUri).wrapped
    ⟨10, 4⟩ longQuery.wrapped := by
  have hsplit : otpSplit longQueryUri = some (otpFields 2 longQueryUri) := by
    rw [otpSplit, if_pos (.inr (.inr rfl))]
  have hhost : (Slice.mk 10 4).bytes longQueryUri = ascii "totp" := by
    rw [bytes_longQueryUri (by decide)]
    decide
  have hlabel : labelSlice (some ⟨14, 2⟩) = ⟨15, 1⟩ := by decide
  refine { buffer := ?_, same := ?_ }
  · rintro ⟨hhotp, -⟩
    exact absurd (hhost.symm.trans hhotp) (by decide)
  · intro moving hmoving
    rw [hhost, (argument_longQuery _).1, (argument_longQuery _).1] at hmoving
    have hread : readMoving (ascii "totp") (argument (ascii "secret=ABC&period=60&image=") "counter")
        (argument (ascii "secret=ABC&period=60&image=") "period") = some (.totp, 0, 60) := by
      decide +kernel
    obtain rfl := Option.some.inj (hmoving.symm.trans hread)
    refine ⟨_, longQuery, hsplit, ⟨⟨⟨⟨0, 7⟩, rfl, ?_⟩, rfl, rfl, rfl, rfl, ?_, ?_, ?_⟩, ?_, ?_, ?_, ?_,
      ?_⟩, ?_⟩
    · rw [bytes_longQueryUri (by decide)]
      decide
    · exact ⟨ascii "ABC", (argument_longQuery _).2, by decide⟩
    · rw [(argument_longQuery _).2]
      exact List.mem_cons_self
    · rw [(argument_longQuery _).2]
      exact List.mem_cons_self
    · change (labelSlice (some ⟨14, 2⟩)).Inside longQueryUri ∧
        (Slice.mk 14 2).bytes longQueryUri = 0x2f :: (labelSlice (some ⟨14, 2⟩)).bytes longQueryUri
      rw [hlabel, Slice.Inside, length_longQueryUri, bytes_longQueryUri (by decide),
        bytes_longQueryUri (by decide)]
      decide
    · rw [(argument_longQuery _).1, (argument_longQuery _).2]
      decide +kernel
    · rw [(argument_longQuery _).1, (argument_longQuery _).2]
      decide +kernel
    · rw [(argument_longQuery _).1, (argument_longQuery _).2]
      decide +kernel
    · rw [(argument_longQuery _).1, (argument_longQuery _).2]
      decide +kernel
    · rw [hhost, (argument_longQuery _).2, (argument_longQuery _).2]
      exact .inr ⟨rfl, rfl, rfl, .inr ⟨ascii "60", rfl, by decide, by decide, by decide⟩⟩

theorem otpSplit_longPath : otpSplit longPathUri = some (otpFields 65536 longPathUri) := by
  rw [otpSplit, if_neg, if_pos rfl]
  rintro (h | h | h)
  · exact absurd (congrArg List.length h) (by rw [length_longPathUri]; decide)
  · exact absurd (congrArg List.length h) (by rw [length_longPathUri]; decide)
  · exact absurd (congrArg List.length h) (by rw [length_longPathUri, length_longQueryUri]; decide)

/-- The path wraps around to nothing, and the query to the front of the path. -/
theorem wrapped_longPath : (otpFields 65536 longPathUri).wrapped =
    { schema := some ⟨0, 7⟩, host := some ⟨10, 4⟩, path := some ⟨14, 0⟩, query := some ⟨15, 10⟩ } := by
  rw [otpFields, length_longPathUri]
  rfl

theorem bytes_longPathUri {s : Slice} (h : s.Inside (ascii "otpauth://totp/secret=ABC")) :
    s.bytes longPathUri = s.bytes (ascii "otpauth://totp/secret=ABC") := Slice.bytes_append _ h

theorem otpHead_longPath : OtpHead longPathUri (otpFields 65536 longPathUri).wrapped ⟨10, 4⟩
    ⟨15, 10⟩ := by
  rw [wrapped_longPath]
  refine ⟨⟨⟨0, 7⟩, rfl, ?_⟩, rfl, rfl, rfl, rfl, ?_, ?_, ?_⟩
  all_goals
    rw [bytes_longPathUri (by decide)]
  · decide
  · exact ⟨ascii "ABC", by decide +kernel, by decide⟩
  · decide +kernel
  · decide +kernel

end Jade
