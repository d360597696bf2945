import Mathlib

/-!
# Texts of the HTTP boundary

Header names and values, queries and cookies are octet strings that nobody has checked. Every
scanner of the transport is followed here by the statement of what it looks for.
-/
namespace Veer.Bearer

abbrev Bytes := List UInt8

/-- The octets of an ASCII literal. -/
def ascii (text : String) : Bytes := text.toList.map fun c => UInt8.ofNat c.toNat

def space : UInt8 := 32
def plus : UInt8 := 43
def percent : UInt8 := 37
def equals : UInt8 := 61

/-! ## Names in any case -/

def lower (value : UInt8) : UInt8 := if 65 ≤ value ∧ value ≤ 90 then value + 32 else value

def asciiEqualFold (value expected : Bytes) : Bool :=
  value.length == expected.length &&
    (value.zip expected).all fun pair => lower pair.1 == lower pair.2

/-- Two names that differ in the case of ASCII letters only. -/
def SameName (name other : Bytes) : Prop := name.map lower = other.map lower

theorem asciiEqualFold_iff (value expected : Bytes) :
    asciiEqualFold value expected = true ↔ SameName value expected := by
  unfold asciiEqualFold SameName
  induction value generalizing expected with
  | nil => cases expected <;> simp
  | cons first value ih =>
    cases expected with
    | nil => simp
    | cons other expected =>
      have hrest := ih expected
      simp only [Bool.and_eq_true, beq_iff_eq] at hrest
      simp only [List.length_cons, List.zip_cons_cons, List.all_cons, List.map_cons,
        List.cons.injEq, Bool.and_eq_true, beq_iff_eq, Nat.add_right_cancel_iff, ← hrest]
      tauto

instance (name other : Bytes) : Decidable (SameName name other) :=
  inferInstanceAs (Decidable (name.map lower = other.map lower))

/-! ## The bearer grammar -/

def maxBearerTokenBytes : Nat := 8192

def maxAuthorizationHeaderBytes : Nat := 7 + maxBearerTokenBytes

/-- The token after the scheme and its spaces. -/
def parseBearer (value : Bytes) : Option Bytes :=
  if maxAuthorizationHeaderBytes < value.length ∨ value.length < 8 then none
  else if !asciiEqualFold (value.take 6) (ascii "Bearer") || value[6]? != some space then none
  else
    let token := (value.drop 7).dropWhile (· == space)
    if token.isEmpty ∨ maxBearerTokenBytes < token.length then none else some token

def validBearerByte (value : UInt8) : Bool :=
  decide (97 ≤ value ∧ value ≤ 122) || decide (65 ≤ value ∧ value ≤ 90) ||
    decide (48 ≤ value ∧ value ≤ 57) || (ascii "-._~+/").contains value

/-- The loop of `validBearerToken`; its first octet may not be padding. -/
def validBearerBytes (padding : Bool) : Bytes → Bool
  | [] => true
  | current :: token =>
    if current == equals then validBearerBytes true token
    else if padding || !validBearerByte current then false
    else validBearerBytes padding token

def validBearerToken (token : Bytes) : Bool :=
  if token.isEmpty ∨ maxBearerTokenBytes < token.length then false
  else if token.head? == some equals then false
  else validBearerBytes false token

/-- A bounded bearer token that the constructor has accepted. -/
structure BearerCredential where
  token : Bytes
  valid : validBearerToken token = true
  deriving DecidableEq

def newBearerCredential (token : Bytes) : Option BearerCredential :=
  if h : validBearerToken token = true then some ⟨token, h⟩ else none

/-- RFC 6750 `b64token`: octets of the alphabet, at least one, then padding. -/
def B64Token (token : Bytes) : Prop :=
  ∃ body count, body ≠ [] ∧ (∀ b ∈ body, validBearerByte b = true) ∧
    token = body ++ List.replicate count equals

/-- A field value of the bearer grammar that carries `token`. -/
structure BearerValue (value token : Bytes) : Prop where
  form : ∃ scheme count, SameName scheme (ascii "Bearer") ∧
    value = scheme ++ (List.replicate (count + 1) space ++ token)
  grammar : B64Token token
  tokenBound : token.length ≤ maxBearerTokenBytes
  bound : value.length ≤ maxAuthorizationHeaderBytes

variable {current : UInt8}

theorem cons_eq_replicate {token : Bytes} :
    (∃ count, current :: token = List.replicate count equals) ↔
      current = equals ∧ ∃ count, token = List.replicate count equals := by
  constructor
  · rintro ⟨count, hcount⟩
    cases count with
    | zero => cases hcount
    | succ count =>
      rw [List.replicate_succ, List.cons.injEq] at hcount
      exact ⟨hcount.1, count, hcount.2⟩
  · rintro ⟨rfl, count, rfl⟩
    exact ⟨count + 1, rfl⟩

theorem validBearerBytes_padding (token : Bytes) :
    validBearerBytes true token = true ↔ ∃ count, token = List.replicate count equals := by
  induction token with
  | nil => simp [validBearerBytes]
  | cons current token ih =>
    rw [validBearerBytes, cons_eq_replicate, ← ih]
    by_cases hpad : current = equals <;> simp [hpad]

theorem cons_eq_padded {token : Bytes} :
    (∃ body count, (∀ b ∈ body, validBearerByte b = true) ∧
        current :: token = body ++ List.replicate count equals) ↔
      (current = equals ∧ ∃ count, token = List.replicate count equals) ∨
        validBearerByte current = true ∧ ∃ body count, (∀ b ∈ body, validBearerByte b = true) ∧
          token = body ++ List.replicate count equals := by
  constructor
  · rintro ⟨body, count, hbody, hsplit⟩
    cases body with
    | nil => exact .inl (cons_eq_replicate.mp ⟨count, hsplit⟩)
    | cons first body =>
      rw [List.cons_append, List.cons.injEq] at hsplit
      refine .inr ⟨hsplit.1 ▸ hbody first List.mem_cons_self, body, count, ?_, hsplit.2⟩
      exact fun b hb => hbody b (List.mem_cons_of_mem _ hb)
  · rintro (hpadding | ⟨hcurrent, body, count, hbody, rfl⟩)
    · obtain ⟨count, hcount⟩ := cons_eq_replicate.mpr hpadding
      exact ⟨[], count, by simp, hcount⟩
    · exact ⟨current :: body, count, by simpa [hcurrent] using hbody, rfl⟩

theorem validBearerBytes_iff (token : Bytes) :
    validBearerBytes false token = true ↔
      ∃ body count, (∀ b ∈ body, validBearerByte b = true) ∧
        token = body ++ List.replicate count equals := by
  induction token with
  | nil => simp [validBearerBytes]
  | cons current token ih =>
    have hequals : validBearerByte equals = false := by decide
    rw [validBearerBytes, cons_eq_padded, ← ih, ← validBearerBytes_padding]
    by_cases hpad : current = equals
    · simp [hpad, hequals]
    · cases hvalid : validBearerByte current <;> simp [hpad]

theorem validBearerToken_iff (token : Bytes) :
    validBearerToken token = true ↔ B64Token token ∧ token.length ≤ maxBearerTokenBytes := by
  have hequals : validBearerByte equals = false := by decide
  unfold validBearerToken B64Token
  split_ifs with hbound hhead
  · simp only [false_iff, not_and, not_le]
    rintro ⟨body, count, hbody, -, rfl⟩
    rcases hbound with hempty | hlong
    · simp [hbody] at hempty
    · exact hlong
  · simp only [false_iff, not_and]
    rintro ⟨body, count, hbody, hvalid, rfl⟩
    cases body with
    | nil => exact absurd rfl hbody
    | cons first =>
      simp only [List.cons_append, List.head?_cons, beq_iff_eq, Option.some.injEq] at hhead
      have hfirst := hvalid first List.mem_cons_self
      rw [hhead, hequals] at hfirst
      cases hfirst
  · simp only [not_or, not_lt] at hbound
    rw [validBearerBytes_iff]
    constructor
    · rintro ⟨body, count, hvalid, rfl⟩
      refine ⟨⟨body, count, ?_, hvalid, rfl⟩, hbound.2⟩
      rintro rfl
      cases count with
      | zero => simp at hbound
      | succ => simp [List.replicate_succ] at hhead
    · rintro ⟨⟨body, count, -, hvalid, rfl⟩, -⟩
      exact ⟨body, count, hvalid, rfl⟩

theorem sameName_length {name other : Bytes} (h : SameName name other) :
    name.length = other.length := by
  have hlength := congrArg List.length h
  rwa [List.length_map, List.length_map] at hlength

theorem newBearerCredential_eq_some {token : Bytes} {credential : BearerCredential} :
    newBearerCredential token = some credential ↔ credential.token = token := by
  unfold newBearerCredential
  split_ifs with hvalid
  · rw [Option.some.injEq]
    constructor
    · rintro rfl
      rfl
    · intro h
      cases credential
      subst h
      rfl
  · simp only [false_iff]
    rintro rfl
    exact hvalid credential.valid

variable (value : Bytes)

theorem parseBearer_iff (credential : BearerCredential) :
    (parseBearer value).bind newBearerCredential = some credential ↔
      BearerValue value credential.token := by
  obtain ⟨hgrammar, htoken⟩ := (validBearerToken_iff credential.token).mp credential.valid
  rw [Option.bind_eq_some_iff]
  constructor
  · rintro ⟨token, hparse, hnew⟩
    rw [newBearerCredential_eq_some] at hnew
    subst hnew
    unfold parseBearer at hparse
    dsimp only at hparse
    split_ifs at hparse with hlength hscheme hempty
    simp only [not_or, not_lt] at hlength
    simp only [Bool.or_eq_true, not_or, Bool.not_eq_true, Bool.not_eq_false', bne_eq_false_iff_eq]
      at hscheme
    have hlt : 6 < value.length := by omega
    have hseventh : value[6] = space := by
      have h := hscheme.2
      rw [List.getElem?_eq_getElem hlt, Option.some.injEq] at h
      exact h
    have hspaces : (value.drop 7).takeWhile (· == space) =
        List.replicate ((value.drop 7).takeWhile (· == space)).length space := by
      refine List.eq_replicate_of_mem fun b hb => ?_
      simpa using List.mem_takeWhile_imp hb
    refine ⟨⟨value.take 6, ((value.drop 7).takeWhile (· == space)).length,
      (asciiEqualFold_iff _ _).mp hscheme.1, ?_⟩, hgrammar, htoken, hlength.1⟩
    calc value = value.take 6 ++ value.drop 6 := (List.take_append_drop 6 value).symm
      _ = value.take 6 ++ (space :: value.drop 7) := by
        rw [List.drop_eq_getElem_cons hlt, hseventh]
      _ = value.take 6 ++ (space :: ((value.drop 7).takeWhile (· == space) ++
          (value.drop 7).dropWhile (· == space))) := by rw [List.takeWhile_append_dropWhile]
      _ = _ := by
        rw [Option.some.inj hparse, List.replicate_succ, List.cons_append, ← hspaces]
  · rintro ⟨⟨scheme, count, hscheme, hvalue⟩, -, -, hbound⟩
    refine ⟨credential.token, ?_, newBearerCredential_eq_some.mpr rfl⟩
    have hsix : scheme.length = 6 := sameName_length hscheme
    obtain ⟨body, padding, hbody, hvalid, hsplit⟩ := hgrammar
    obtain ⟨first, body, rfl⟩ := List.exists_cons_of_ne_nil hbody
    have hfirst : first ≠ space := by
      rintro rfl
      have hspace := hvalid space List.mem_cons_self
      revert hspace
      decide
    have hpositive : 0 < credential.token.length := by
      rw [hsplit]
      simp
    have hlength : value.length = 6 + (count + 1) + credential.token.length := by
      rw [hvalue, List.length_append, List.length_append, List.length_replicate, hsix]
      omega
    have htail : value.drop 7 = List.replicate count space ++ credential.token := by
      rw [hvalue, List.replicate_succ, List.cons_append, ← List.singleton_append,
        ← List.append_assoc]
      exact List.drop_left' (by simp [hsix])
    have hskip : (value.drop 7).dropWhile (· == space) = credential.token := by
      rw [htail, List.dropWhile_append_of_pos (by simp +contextual [List.mem_replicate]), hsplit,
        List.cons_append, List.dropWhile_cons_of_neg (by simpa using hfirst)]
    have hseventh : value[6]? = some space := by
      rw [hvalue, List.getElem?_append_right hsix.le, hsix]
      rfl
    have hscheme' : asciiEqualFold (value.take 6) (ascii "Bearer") = true := by
      rw [asciiEqualFold_iff, hvalue, List.take_left' hsix]
      exact hscheme
    unfold parseBearer
    rw [if_neg (by omega), if_neg (by simp [hscheme', hseventh]), hskip, if_neg]
    simp only [List.isEmpty_iff, not_or, not_lt]
    exact ⟨List.ne_nil_of_length_pos hpositive, htoken⟩

/-! ## Query names -/

def accessTokenParameter : Bytes := ascii "access_token"

def hexValue (value : UInt8) : Option UInt8 :=
  if 48 ≤ value ∧ value ≤ 57 then some (value - 48)
  else if 97 ≤ value ∧ value ≤ 102 then some (value - 97 + 10)
  else if 65 ≤ value ∧ value ≤ 70 then some (value - 65 + 10)
  else none

/-- Only the decoding that is needed to recognise `expected`. -/
def queryNameEquals : Bytes → Bytes → Bool
  | [], expected => expected.isEmpty
  | current :: encoded, expected =>
    if current == percent then
      match encoded with
      | high :: low :: encoded =>
        match hexValue high, hexValue low, expected with
        | some high, some low, first :: expected =>
          (high <<< 4 ||| low) == first && queryNameEquals encoded expected
        | _, _, _ => false
      | _ => false
    else
      match expected with
      | [] => false
      | first :: expected =>
        (if current == plus then space else current) == first && queryNameEquals encoded expected

/-- `application/x-www-form-urlencoded` decoding of a name. -/
def formDecode : Bytes → Option Bytes
  | [] => some []
  | current :: encoded =>
    if current == percent then
      match encoded with
      | high :: low :: encoded =>
        match hexValue high, hexValue low with
        | some high, some low => (formDecode encoded).map ((high <<< 4 ||| low) :: ·)
        | _, _ => none
      | _ => none
    else (formDecode encoded).map ((if current == plus then space else current) :: ·)

theorem formDecode_plain (hplain : ¬ (current == percent) = true) (encoded : Bytes) :
    formDecode (current :: encoded) =
      (formDecode encoded).map ((if current == plus then space else current) :: ·) := by
  rw [formDecode.eq_def (current :: encoded)]
  exact if_neg hplain

theorem formDecode_short {encoded : Bytes} (hpercent : (current == percent) = true)
    (hshort : encoded.length < 2) : formDecode (current :: encoded) = none := by
  rcases encoded with _ | ⟨high, _ | ⟨low, encoded⟩⟩
  · rw [formDecode, if_pos hpercent]
    simp
  · rw [formDecode, if_pos hpercent]
    simp
  · simp at hshort

theorem map_cons_eq_some {decoded : Option Bytes} {first : UInt8} {expected : Bytes} :
    decoded.map (current :: ·) = some (first :: expected) ↔
      current = first ∧ decoded = some expected := by
  cases decoded <;> simp

/-- The scanner finds exactly the names that decode to the expected one. -/
theorem queryNameEquals_iff (encoded expected : Bytes) :
    queryNameEquals encoded expected = true ↔ formDecode encoded = some expected := by
  fun_induction queryNameEquals encoded expected
  case case1 expected => cases expected <;> simp [formDecode]
  case case2 hpercent high low encoded h l first expected hl hh ih =>
    rw [formDecode, if_pos hpercent]
    simp only [hh, hl]
    rw [map_cons_eq_some, Bool.and_eq_true, beq_iff_eq, ih]
  case case3 expected hpercent high low encoded hnone =>
    rw [formDecode, if_pos hpercent]
    cases hh : hexValue high with
    | none => simp
    | some h =>
      cases hl : hexValue low with
      | none => simp
      | some l =>
        cases expected with
        | nil => simp
        | cons first expected => exact (hnone h l first expected hh hl rfl).elim
  case case4 encoded expected hpercent hshort =>
    rw [formDecode_short hpercent]
    · simp
    · rcases encoded with _ | ⟨high, _ | ⟨low, encoded⟩⟩
      · simp
      · simp
      · exact (hshort high low encoded rfl).elim
  case case5 hplain =>
    rw [formDecode_plain hplain]
    simp
  case case6 hplain first expected ih =>
    rw [formDecode_plain hplain, map_cons_eq_some, Bool.and_eq_true, beq_iff_eq, ih]

/-- Fields end at either separator; an empty last field has no name to find. -/
def queryFields (raw : Bytes) : List Bytes :=
  raw.splitOnP fun b => b == 38 || b == 59

/-- The part of a field before its first `=`. -/
def cutName (field : Bytes) : Bytes := field.takeWhile (· != equals)

def hasAccessTokenQuery (raw : Bytes) : Bool :=
  (queryFields raw).any fun field => queryNameEquals (cutName field) accessTokenParameter

/-- The query has a field whose decoded name is `access_token`. -/
def AccessTokenQuery (raw : Bytes) : Prop :=
  ∃ field ∈ queryFields raw, formDecode (cutName field) = some accessTokenParameter

theorem hasAccessTokenQuery_iff (raw : Bytes) :
    hasAccessTokenQuery raw = true ↔ AccessTokenQuery raw := by
  simp only [hasAccessTokenQuery, AccessTokenQuery, List.any_eq_true, queryNameEquals_iff]

/-- The part of a field after its first `=`. -/
def cutValue (field : Bytes) : Bytes := (field.dropWhile (· != equals)).tail

/-- What `url.ParseQuery` adds for one field: nothing if it is empty, has a semicolon or does not
decode. -/
def parseField (field : Bytes) : Option (Bytes × Bytes) :=
  if field = [] ∨ 59 ∈ field then none
  else
    match formDecode (cutName field), formDecode (cutValue field) with
    | some key, some value => some (key, value)
    | _, _ => none

/-- The keys and values of `url.ParseQuery`, which splits at `&` only. -/
def parseQuery (raw : Bytes) : List (Bytes × Bytes) := (raw.splitOn 38).filterMap parseField

/-- Splitting at semicolons too leaves the fields without one as they are. -/
theorem splitOn_queryFields (raw : Bytes) : ∃ first rest first' rest',
    raw.splitOn 38 = first :: rest ∧ queryFields raw = first' :: rest' ∧
      (59 ∉ first → first' = first) ∧ ∀ field ∈ rest, 59 ∉ field → field ∈ rest' := by
  induction raw with
  | nil => exact ⟨[], [], [], [], by simp [queryFields]⟩
  | cons current raw ih =>
    obtain ⟨first, rest, first', rest', hplain, hboth, hfirst, hrest⟩ := ih
    simp only [queryFields, List.splitOn] at hplain hboth ⊢
    rw [List.splitOnP_cons_eq_if_modifyHead, List.splitOnP_cons_eq_if_modifyHead, hplain, hboth]
    by_cases hamp : current = 38
    · subst hamp
      refine ⟨[], first :: rest, [], first' :: rest', by simp, by simp, fun _ => rfl, ?_⟩
      intro field hfield hsemicolon
      rcases List.mem_cons.mp hfield with rfl | hfield
      · rw [hfirst hsemicolon]
        exact List.mem_cons_self
      · exact List.mem_cons_of_mem _ (hrest field hfield hsemicolon)
    by_cases hsemi : current = 59
    · subst hsemi
      exact ⟨59 :: first, rest, [], first' :: rest', by simp, by simp, by simp,
        fun field hfield hsemicolon => List.mem_cons_of_mem _ (hrest field hfield hsemicolon)⟩
    · refine ⟨current :: first, rest, current :: first', rest', by simp [hamp],
        by simp [hamp, hsemi], fun hsemicolon => ?_, hrest⟩
      rw [hfirst fun hmem => hsemicolon (List.mem_cons_of_mem _ hmem)]

theorem mem_queryFields {raw field : Bytes} (hfield : field ∈ raw.splitOn 38)
    (hsemicolon : 59 ∉ field) : field ∈ queryFields raw := by
  obtain ⟨first, rest, first', rest', hplain, hboth, hfirst, hrest⟩ := splitOn_queryFields raw
  rw [hplain] at hfield
  rw [hboth]
  rcases List.mem_cons.mp hfield with rfl | hfield
  · rw [hfirst hsemicolon]
    exact List.mem_cons_self
  · exact List.mem_cons_of_mem _ (hrest field hfield hsemicolon)

/-- The query of a request target: what follows its first `?`. -/
def splitRequestURIQuery (requestURI : Bytes) : Option Bytes :=
  match requestURI.dropWhile (· != 63) with
  | [] => none
  | _ :: query => some query

theorem splitRequestURIQuery_takeWhile (requestURI : Bytes) :
    splitRequestURIQuery (requestURI.takeWhile (· != 63)) = none := by
  have hrest : (requestURI.takeWhile (· != 63)).dropWhile (· != 63) = [] := by
    rw [List.dropWhile_eq_nil_iff]
    intro b hb
    have hkept := List.mem_takeWhile_imp hb
    exact hkept
  rw [splitRequestURIQuery, hrest]

/-! ## Lists of names -/

def asciiSpace (value : UInt8) : Bool := value == 32 || value == 9 || value == 10 || value == 13

/-- `textproto.TrimString` -/
def trimString (value : Bytes) : Bytes :=
  (value.dropWhile asciiSpace).rdropWhile asciiSpace

/-- One `Cookie` value names an `access_token` cookie; an empty last part has no name. -/
def accessTokenCookie (value : Bytes) : Bool :=
  (value.splitOn 59).any fun cookie =>
    trimString (cutName (trimString cookie)) == accessTokenParameter

def isCredentialTrailerName (name : Bytes) : Bool :=
  asciiEqualFold name (ascii "Authorization") || asciiEqualFold name (ascii "Cookie")

def hasCredentialTrailerName (value : Bytes) : Bool :=
  (value.splitOn 44).any fun name => isCredentialTrailerName (trimString name)

/-- The names that a declaration lists. -/
def trailerNames (value : Bytes) : List Bytes :=
  ((value.splitOn 44).map trimString).filter fun name => !name.isEmpty

/-- Rewrite one declaration without its credential names. -/
def removeCredentialTrailerNames (value : Bytes) : Bytes × Bool :=
  if !hasCredentialTrailerName value then (value, false)
  else
    let safe := (value.splitOn 44).foldl (fun safe name =>
      let name := trimString name
      if name.isEmpty || isCredentialTrailerName name then safe
      else (if safe.isEmpty then safe else safe ++ [44, 32]) ++ name) []
    (safe, true)

theorem trimString_space : trimString (32 :: value) = trimString value := by
  rw [trimString, List.dropWhile_cons_of_pos (by decide)]
  rfl

theorem trimString_trimString :
    trimString (trimString value) = trimString value := by
  have hstart : (trimString value).dropWhile asciiSpace = trimString value := by
    obtain ⟨tail, htail⟩ : trimString value <+: value.dropWhile asciiSpace :=
      List.rdropWhile_prefix _ _
    cases htrim : trimString value with
    | nil => rfl
    | cons =>
      rw [htrim, List.cons_append] at htail
      have hne : value.dropWhile asciiSpace ≠ [] := by
        rw [← htail]
        simp
      have hfirst := List.head_dropWhile_not asciiSpace hne
      simp only [← htail, List.head_cons] at hfirst
      exact List.dropWhile_cons_of_neg (by simp [hfirst])
  conv_lhs => rw [trimString, hstart]
  exact List.rdropWhile_idempotent _ _

theorem trimString_sublist : (trimString value).Sublist value :=
  (List.rdropWhile_prefix _ _).sublist.trans (List.dropWhile_suffix _).sublist

theorem mem_splitOnP {p : UInt8 → Bool} {value piece : Bytes} (h : piece ∈ value.splitOnP p) :
    ∀ b ∈ piece, p b = false := by
  induction value generalizing piece with
  | nil =>
    rw [List.splitOnP_nil, List.mem_singleton] at h
    simp [h]
  | cons first value ih =>
    rw [List.splitOnP_cons_eq_if_modifyHead] at h
    by_cases hfirst : p first = true
    · rw [if_pos hfirst, List.mem_cons] at h
      rcases h with rfl | h
      · simp
      · exact ih h
    · rw [if_neg hfirst] at h
      cases hsplit : value.splitOnP p with
      | nil => simp [hsplit] at h
      | cons =>
        rw [hsplit, List.modifyHead_cons, List.mem_cons] at h
        rw [hsplit] at ih
        rcases h with rfl | h
        · intro b hb
          rcases List.mem_cons.mp hb with rfl | hb
          · simpa using hfirst
          · exact ih List.mem_cons_self b hb
        · exact ih (List.mem_cons_of_mem _ h)

/-! ### What a rewritten declaration lists -/

/-- Names written one after another with `, ` between them. -/
def joinNames : List Bytes → Bytes
  | [] => []
  | first :: names => first ++ (names.map ([44, 32] ++ ·)).flatten

def appendName (safe name : Bytes) : Bytes :=
  (if safe.isEmpty then safe else safe ++ [44, 32]) ++ name

theorem foldl_appendName {safe : Bytes} (hsafe : safe ≠ []) (names : List Bytes) :
    names.foldl appendName safe = safe ++ (names.map ([44, 32] ++ ·)).flatten := by
  induction names generalizing safe with
  | nil => simp
  | cons name names ih =>
    have happend : appendName safe name = safe ++ ([44, 32] ++ name) := by
      unfold appendName
      rw [if_neg (by simpa using hsafe), List.append_assoc]
    rw [List.foldl_cons, happend, ih (by simp [hsafe]), List.map_cons, List.flatten_cons,
      List.append_assoc]

theorem foldl_appendName_nil {names : List Bytes} (hnames : ∀ name ∈ names, name ≠ []) :
    names.foldl appendName [] = joinNames names := by
  cases names with
  | nil => rfl
  | cons first names =>
    rw [List.foldl_cons]
    exact foldl_appendName (hnames first List.mem_cons_self) names

theorem splitOn_joinNames {first : Bytes} {names : List Bytes} (hfirst : 44 ∉ first)
    (hnames : ∀ name ∈ names, 44 ∉ name) :
    (joinNames (first :: names)).splitOn 44 = first :: names.map (32 :: ·) := by
  have hsingle : ∀ name : Bytes, 44 ∉ name → name.splitOnP (· == 44) = [name] := by
    intro name hname
    refine List.splitOnP_eq_singleton fun b hb => ?_
    simp only [beq_eq_false_iff_ne, ne_eq]
    rintro rfl
    exact hname hb
  rw [List.splitOn_eq_splitOnP, joinNames]
  induction names generalizing first with
  | nil =>
    rw [List.map_nil, List.flatten_nil, List.append_nil, hsingle first hfirst]
    rfl
  | cons name names ih =>
    have hname : 44 ∉ (32 :: name : Bytes) := by
      simpa using hnames name List.mem_cons_self
    have hrest := ih hname fun other hother => hnames other (List.mem_cons_of_mem _ hother)
    rw [List.map_cons, List.flatten_cons]
    change (first ++ 44 :: (32 :: name ++ (names.map ([44, 32] ++ ·)).flatten)).splitOnP _ = _
    rw [List.splitOnP_append_cons _ _ (by decide), hsingle first hfirst, hrest]
    rfl

/-- The names of a declaration that may stay. -/
def safeNames (value : Bytes) : List Bytes :=
  (trailerNames value).filter fun name => !isCredentialTrailerName name

theorem mem_safeNames {value name : Bytes} (h : name ∈ safeNames value) :
    name ≠ [] ∧ 44 ∉ name ∧ trimString name = name := by
  simp only [safeNames, trailerNames, List.mem_filter, List.mem_map] at h
  obtain ⟨⟨⟨piece, hpiece, rfl⟩, hempty⟩, -⟩ := h
  refine ⟨by simpa using hempty, ?_, trimString_trimString piece⟩
  intro hcomma
  rw [List.splitOn_eq_splitOnP] at hpiece
  have hsep := mem_splitOnP hpiece 44 ((trimString_sublist piece).subset hcomma)
  simp at hsep

theorem foldl_filter_map {α β : Type*} {f : β → β → β} {g : α → β} {p : β → Bool} (names : List α)
    (start : β) :
    names.foldl (fun safe name => if p (g name) then safe else f safe (g name)) start =
      ((names.map g).filter fun name => !p name).foldl f start := by
  induction names generalizing start with
  | nil => rfl
  | cons name names ih =>
    rw [List.foldl_cons, ih, List.map_cons, List.filter_cons]
    cases p (g name) <;> rfl

theorem removeCredentialTrailerNames_eq {value : Bytes}
    (h : hasCredentialTrailerName value = true) :
    removeCredentialTrailerNames value = (joinNames (safeNames value), true) := by
  have hsafe : safeNames value = ((value.splitOn 44).map trimString).filter fun name =>
      !(name.isEmpty || isCredentialTrailerName name) := by
    rw [safeNames, trailerNames, List.filter_filter]
    refine List.filter_congr fun name _ => ?_
    cases name.isEmpty <;> cases isCredentialTrailerName name <;> rfl
  have hfold := foldl_filter_map (f := appendName) (g := trimString)
    (p := fun name => name.isEmpty || isCredentialTrailerName name) (value.splitOn 44) []
  rw [← hsafe, foldl_appendName_nil fun name hname => (mem_safeNames hname).1] at hfold
  rw [removeCredentialTrailerNames, h]
  exact congrArg (·, true) hfold

theorem trailerNames_joinNames :
    trailerNames (joinNames (safeNames value)) = safeNames value := by
  have hmem : ∀ name ∈ safeNames value, name ≠ [] ∧ 44 ∉ name ∧ trimString name = name :=
    fun name hname => mem_safeNames hname
  cases hnames : safeNames value with
  | nil => decide
  | cons first names =>
    rw [hnames] at hmem
    obtain ⟨-, hcomma, htrim⟩ := hmem first List.mem_cons_self
    have hrest : ∀ name ∈ names, 44 ∉ name := fun name hname =>
      (hmem name (List.mem_cons_of_mem _ hname)).2.1
    have htrimmed : (first :: names.map (32 :: ·)).map trimString = first :: names := by
      rw [List.map_cons, htrim, List.map_map, List.cons.injEq]
      refine ⟨rfl, (List.map_congr_left fun name hname => ?_).trans (List.map_id names)⟩
      exact (trimString_space name).trans (hmem name (List.mem_cons_of_mem _ hname)).2.2
    rw [trailerNames, splitOn_joinNames hcomma hrest, htrimmed, List.filter_eq_self]
    intro name hname
    simpa using (hmem name hname).1

theorem safeNames_of_none {value : Bytes} (h : hasCredentialTrailerName value = false) :
    safeNames value = trailerNames value := by
  rw [safeNames, List.filter_eq_self]
  intro name hname
  simp only [trailerNames, List.mem_filter, List.mem_map] at hname
  obtain ⟨⟨piece, hpiece, rfl⟩, -⟩ := hname
  rw [hasCredentialTrailerName, List.any_eq_false] at h
  simpa using h piece hpiece

theorem trailerNames_remove :
    trailerNames (removeCredentialTrailerNames value).1 = safeNames value := by
  cases h : hasCredentialTrailerName value with
  | true =>
    rw [removeCredentialTrailerNames_eq h]
    exact trailerNames_joinNames value
  | false =>
    rw [safeNames_of_none h, removeCredentialTrailerNames, h]
    rfl

theorem removeCredentialTrailerNames_removed :
    (removeCredentialTrailerNames value).2 = hasCredentialTrailerName value := by
  unfold removeCredentialTrailerNames
  cases hasCredentialTrailerName value <;> rfl

end Veer.Bearer
